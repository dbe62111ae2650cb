/-
The arguments of the command.  They are taken from left to right, and the first
one that asks for help or is not understood settles the matter.
-/
import SqlScript.FileTree

namespace SqlScript.CommandLine

inductive Format where
  | text
  | json
deriving Repr, DecidableEq

/-- What is to be split, and how. -/
structure Request where
  /-- The script, or the standard input when none is named. -/
  file : Option Path := none
  /-- Whether to cut at marker lines. -/
  annotated : Bool := false
  /-- The tool that marker lines name. -/
  tool : Option Text := none
  format : Option Format := none
  /-- Where the settings are. -/
  settings : Option Path := none
deriving Repr, DecidableEq

/-- What a list of arguments asks for. -/
inductive Command where
  | split (request : Request)
  | help
  | version
  /-- Arguments that are not understood. -/
  | misuse
deriving Repr, DecidableEq

/-- The options that take a value. -/
inductive ValueOption where
  | tool
  | format
  | settings
deriving Repr, DecidableEq

/-- What a single argument is. -/
inductive Argument where
  | file (path : Path)
  | annotated
  /-- An option that takes a value, and the value if it is joined to it. -/
  | option (option : ValueOption) (joined : Option Text)
  | help
  | version
  /-- The mark behind which every argument is a file. -/
  | endOfOptions
  | unknown
deriving Repr, DecidableEq

/-- Cut at the first equals sign. -/
def cutJoined : Text → Text × Option Text
  | [] => ([], none)
  | c :: rest =>
      if c = '=' then ([], some rest)
      else
        let (name, joined) := cutJoined rest
        (c :: name, joined)

namespace Argument

/-- A long option, without its hyphens. -/
def ofLong (t : Text) : Argument :=
  let (name, joined) := cutJoined t
  if name = "prefix".toList then .option .tool joined
  else if name = "format".toList then .option .format joined
  else if name = "config".toList then .option .settings joined
  else if joined.isSome then .unknown
  else if name = "annotated".toList then .annotated
  else if name = "help".toList then .help
  else if name = "version".toList then .version
  else .unknown

/-- What an argument is.  A lone hyphen is a file; of joined short options the
first counts. -/
def ofText : Text → Argument
  | ['-', '-'] => .endOfOptions
  | '-' :: '-' :: t => ofLong t
  | '-' :: 'h' :: _ => .help
  | '-' :: 'V' :: _ => .version
  | '-' :: _ :: _ => .unknown
  | t => .file t

/-- An argument that stands behind an option may be its value unless it begins
like an option. -/
def isValue : Text → Bool
  | '-' :: _ :: _ => false
  | _ => true

end Argument

namespace Format

def ofText? (t : Text) : Option Format :=
  if t = "text".toList then some .text
  else if t = "json".toList then some .json
  else none

end Format

namespace Request

/-- Name the script, once and not by nothing. -/
def setFile? (request : Request) (path : Path) : Option Request :=
  if request.file.isSome ∨ path = [] then none else some { request with file := some path }

/-- Give an option its value, once. -/
def setOption? (request : Request) (option : ValueOption) (value : Text) : Option Request :=
  match option with
  | .tool => if request.tool.isSome then none else some { request with tool := some value }
  | .format =>
      if request.format.isSome then none
      else (Format.ofText? value).map fun format => { request with format := some format }
  | .settings =>
      if request.settings.isSome ∨ value = [] then none
      else some { request with settings := some value }

def setAnnotated? (request : Request) : Option Request :=
  if request.annotated then none else some { request with annotated := true }

end Request

/-- Take every argument for a file. -/
def readFiles (request : Request) : List Text → Command
  | [] => .split request
  | path :: others =>
      match request.setFile? path with
      | some request => readFiles request others
      | none => .misuse

/-- Take arguments behind those that made up `request`. -/
def readBehind (request : Request) : List Text → Command
  | [] => .split request
  | t :: others =>
      match Argument.ofText t with
      | .help => .help
      | .version => .version
      | .unknown => .misuse
      | .endOfOptions => readFiles request others
      | .file path =>
          match request.setFile? path with
          | some request => readBehind request others
          | none => .misuse
      | .annotated =>
          match request.setAnnotated? with
          | some request => readBehind request others
          | none => .misuse
      | .option option (some value) =>
          match request.setOption? option value with
          | some request => readBehind request others
          | none => .misuse
      | .option option none =>
          match others with
          | [] => .misuse
          | value :: others =>
              if Argument.isValue value then
                match request.setOption? option value with
                | some request => readBehind request others
                | none => .misuse
              else .misuse

/-- What arguments ask for. -/
def Command.ofArguments (arguments : List Text) : Command :=
  readBehind {} arguments

example : Command.ofArguments ["--prefix=".toList, "-".toList] =
    .split { file := some ['-'], tool := some [] } := by
  decide

example : Command.ofArguments ["--version".toList, "--prefix".toList] = .version := by
  decide

example : Command.ofArguments ["--prefix".toList, "--version".toList] = .misuse := by
  decide

end SqlScript.CommandLine
