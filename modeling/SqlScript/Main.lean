/-
The command itself, on the files and the environment of the system.
-/
import SqlScript.CommandLine.Run

namespace SqlScript.CommandLine

/-- What a path leads to in the system. -/
def lookAt (path : Path) : IO Target := do
  try
    let bytes ← IO.FS.readBinFile (String.ofList path)
    return .file bytes.toList
  catch
    | .noFileOrDirectory .. => return .unreachable .noSuchFile
    | .inappropriateType _ code _ =>
        return if code = 21 then .directory else .unreachable .notADirectory
    | .invalidArgument _ 36 _ => return .unreachable .nameTooLong
    | error => throw error

/-- Everything on the standard input. -/
partial def readInput (input : IO.FS.Stream) (read : ByteArray) : IO Bytes := do
  let more ← input.read 65536
  if more.isEmpty then
    return read.toList
  readInput input (read ++ more)

/-- The variables of the system that a choice of settings depends on. -/
def lookUp (chosen : Option Path) : IO Environment := do
  let names := "HOME".toList :: TemplatePart.names (TemplatePart.parts (chosen.getD []))
  let found ← names.filterMapM fun name => do
    let value ← IO.getEnv (String.ofList name)
    return value.map fun value => (name, value.toList)
  return ⟨found⟩

/-- Carry out a request on the files of the system. -/
def Request.carryOutHere (request : Request) : IO Outcome := do
  let path := Settings.pathFor (← lookUp request.settings) request.settings
  let settings := Settings.orDefault (Settings.ofTarget path (← lookAt path))
  let script ←
    match request.script? with
    | none => do
        let input ← readInput (← IO.getStdin) .empty
        pure (.ok ⟨input, .endOfInput⟩)
    | some path => do pure (openTarget (← lookAt path))
  return request.carryOut settings script

/-- Print an outcome, and tell the exit status that it stands for. -/
def Outcome.print (outcome : Outcome) : IO UInt32 := do
  let warn (log : List Record) : IO Unit :=
    (warnings log).forM fun message => IO.eprintln s!"WARN {String.ofList message}"
  match outcome with
  | .printed _ log => warn log
  | .failed failure log => do
      warn log
      IO.eprintln s!"Error: {String.ofList failure.context}"
      IO.eprintln s!"\nCaused by:\n    {String.ofList failure.cause}"
  | .misused => IO.eprintln "Usage: sqlsplit [OPTIONS] [FILE]"
  IO.print (String.ofList outcome.standardOutput)
  return outcome.exitStatus

end SqlScript.CommandLine

open SqlScript.CommandLine in
/-- Split a script as the arguments ask. -/
def main (arguments : List String) : IO UInt32 := do
  let outcome ←
    match Command.ofArguments (arguments.map String.toList) with
    | .help => pure (.printed help [])
    | .version => pure (.printed version [])
    | .misuse => pure .misused
    | .split request => request.carryOutHere
  outcome.print
