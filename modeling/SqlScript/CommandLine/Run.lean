/-
What the command does with a request: it loads the settings, opens the script,
splits it and prints all of the result, or fails and prints nothing.
-/
import SqlScript.Annotated.Reader
import SqlScript.CommandLine.Arguments
import SqlScript.Report
import SqlScript.Settings
import SqlScript.Splitter.Run

namespace SqlScript.CommandLine

/-- Why a request fails. -/
inductive Failure where
  | settings (error : SettingsError)
  | opening (file : Path) (error : SystemError)
  | splitting (error : ReadError)
  | reading (error : ReadError)
deriving Repr, DecidableEq

namespace Failure

/-- What failed. -/
def context : Failure → Text
  | .settings _ => "Failed to load config file".toList
  | .opening file _ => "Failed to open '".toList ++ file ++ ['\'']
  | .splitting _ => "Failed to split script".toList
  | .reading _ => "Failed to read script".toList

/-- Why it failed. -/
def cause : Failure → Text
  | .settings error => error.message
  | .opening _ error => error.message
  | .splitting error => error.message
  | .reading error => error.message

end Failure

/-- What a command comes to. -/
inductive Outcome where
  /-- Everything that is printed. -/
  | printed (out : Text) (log : List Record)
  | failed (failure : Failure) (log : List Record)
  /-- The arguments were not understood. -/
  | misused
deriving Repr, DecidableEq

namespace Outcome

/-- The status that the command ends with. -/
def exitStatus : Outcome → UInt32
  | .printed _ _ => 0
  | .failed _ _ => 1
  | .misused => 2

/-- What the command writes to the standard output. -/
def standardOutput : Outcome → Text
  | .printed out _ => out
  | .failed _ _ => []
  | .misused => []

end Outcome

def version : Text := "sqlsplit 0.1.0\n".toList

def help : Text :=
  ("Split SQL migration scripts into individual statements\n"
    ++ "\n"
    ++ "Usage: sqlsplit [OPTIONS] [FILE]\n"
    ++ "\n"
    ++ "Arguments:\n"
    ++ "  [FILE]  Script to split; stdin when omitted or `-`\n"
    ++ "\n"
    ++ "Options:\n"
    ++ "      --annotated        Split on `-- +<prefix> StatementBegin/End` markers instead of `;`\n"
    ++ "      --prefix <PREFIX>  Marker prefix for --annotated (default from config, else \"goose\")\n"
    ++ "      --format <FORMAT>  [default: text] [possible values: text, json]\n"
    ++ "      --config <CONFIG>  Config file to use instead of ~/.config/sqlsplit/config.toml\n"
    ++ "  -h, --help             Print help\n"
    ++ "  -V, --version          Print version\n").toList

/-- What a file that is opened gives.  A directory can be opened but not
read. -/
def openTarget : Target → Except SystemError Source
  | .file bytes => .ok ⟨bytes, .endOfInput⟩
  | .directory => .ok ⟨[], .failure SystemError.isADirectory.message⟩
  | .unreachable error => .error error

/-- The file that a request names, unless it is to read the standard input. -/
def Request.script? (request : Request) : Option Path :=
  request.file.bind fun path => if path.isHyphen then none else some path

/-- Open the script of a request on a tree of files, or take the standard input. -/
def Request.openScript (request : Request) (tree : FileTree) (input : Bytes) :
    Except SystemError Source :=
  match request.script? with
  | none => .ok ⟨input, .endOfInput⟩
  | some path => openTarget (tree.target path)

/-- A result in the chosen format; JSON ends with a newline of its own. -/
def Request.render {α : Type} (request : Request) (text json : α → Text) (a : α) : Text :=
  match request.format.getD .text with
  | .text => text a
  | .json => json a ++ ['\n']

/-- Split the script of a request under some settings. -/
def Request.answer (request : Request) (settings : Settings) (script : Source) : Outcome :=
  if request.annotated then
    let result := readAnnotated (request.tool.getD settings.markerTool) script
    match result.answer with
    | .ok found =>
        .printed (request.render Report.blocksText Report.blocksJson found.blocks) result.log
    | .error error => .failed (.reading error) result.log
  else
    let result := splitSource settings.options script
    match result.answer with
    | .ok statements =>
        .printed (request.render Report.statementsText Report.statementsJson statements)
          result.log
    | .error error => .failed (.splitting error) result.log

/-- Carry out a request, given the settings that were loaded and the script that was
opened. -/
def Request.carryOut (request : Request) (settings : Except SettingsError Settings)
    (script : Except SystemError Source) : Outcome :=
  match settings with
  | .error error => .failed (.settings error) []
  | .ok settings =>
      match script with
      | .error error => .failed (.opening (request.file.getD []) error) []
      | .ok source => request.answer settings source

/-- Run the command on a tree of files. -/
def run (tree : FileTree) (environment : Environment) (input : Bytes) (arguments : List Text) :
    Outcome :=
  match Command.ofArguments arguments with
  | .help => .printed help []
  | .version => .printed version []
  | .misuse => .misused
  | .split request =>
      request.carryOut (Settings.loadOrDefault tree environment request.settings)
        (request.openScript tree input)

end SqlScript.CommandLine
