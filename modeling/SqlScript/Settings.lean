/-
The settings of a user, and the file that holds them.
-/
import SqlScript.Environment
import SqlScript.Source
import SqlScript.Splitter.Step
import SqlScript.Toml.Reader
import SqlScript.Toml.Writer

namespace SqlScript

structure Settings where
  /-- The tool that marker lines name. -/
  markerTool : Text := "goose".toList
  /-- Whether text in front of a directive is a statement of its own. -/
  flushBeforeDirective : Bool := true
deriving Repr, DecidableEq

/-- Why a settings file gives no settings. -/
inductive SettingsError where
  | unreadable (path : Path) (cause : Text)
  | malformed (path : Path)
deriving Repr, DecidableEq

namespace SettingsError

def path : SettingsError → Path
  | .unreadable path _ => path
  | .malformed path => path

def message : SettingsError → Text
  | .unreadable path cause =>
      "Failed to read config file at ".toList ++ path ++ ": ".toList ++ cause
  | .malformed path => "Failed to parse config file at ".toList ++ path

end SettingsError

namespace Settings

def markerToolName : Text := "marker_prefix".toList

def flushName : Text := "flush_before_directive".toList

/-- The options that settings choose. -/
def options (settings : Settings) : Options :=
  ⟨settings.flushBeforeDirective⟩

/-- The string under a name, or the default when nothing is there; anything
else there is refused. -/
def stringAt? (table : Toml.Table) (name default : Text) : Option Text :=
  match table.top? name with
  | none => some default
  | some (.value (.string t)) => some t
  | some _ => none

/-- The boolean under a name, or the default when nothing is there; anything
else there is refused. -/
def booleanAt? (table : Toml.Table) (name : Text) (default : Bool) : Option Bool :=
  match table.top? name with
  | none => some default
  | some (.value (.boolean b)) => some b
  | some _ => none

/-- The settings in a table; names that are none of theirs are passed over. -/
def ofTable? (table : Toml.Table) : Option Settings := do
  let defaults : Settings := {}
  let tool ← stringAt? table markerToolName defaults.markerTool
  let flush ← booleanAt? table flushName defaults.flushBeforeDirective
  return ⟨tool, flush⟩

/-- The settings in the text of a settings file. -/
def read? (t : Text) : Option Settings :=
  (Toml.readDocument t).bind ofTable?

/-- The text of a settings file. -/
def write (settings : Settings) : Text :=
  Toml.writeDefinition markerToolName (Toml.writeString settings.markerTool)
    ++ Toml.writeDefinition flushName (Toml.writeBoolean settings.flushBeforeDirective)

/-- The settings that a path leads to; none when nothing is there. -/
def ofTarget (path : Path) (target : Target) : Except SettingsError (Option Settings) :=
  match target with
  | .unreachable _ => .ok none
  | .directory => .error (.unreadable path SystemError.isADirectory.message)
  | .file bytes =>
      match Utf8.decode? bytes with
      | none => .error (.unreadable path notText)
      | some t =>
          match read? t with
          | none => .error (.malformed path)
          | some settings => .ok (some settings)

/-- Load settings from a path. -/
def load (tree : FileTree) (path : Path) : Except SettingsError (Option Settings) :=
  ofTarget path (tree.target path)

/-- Where settings are by default. -/
def defaultPath (environment : Environment) : Path :=
  environment.expandTilde "~/.config/sqlsplit".toList ++ "/config.toml".toList

/-- Where settings are: at a chosen path, expanded, or at the default one. -/
def pathFor (environment : Environment) (chosen : Option Path) : Path :=
  match chosen with
  | some path => environment.expand path
  | none => defaultPath environment

/-- The settings that were found, or the defaults. -/
def orDefault (found : Except SettingsError (Option Settings)) : Except SettingsError Settings :=
  found.map fun found => found.getD {}

/-- Load settings from where they are; without a file, the defaults. -/
def loadOrDefault (tree : FileTree) (environment : Environment) (chosen : Option Path) :
    Except SettingsError Settings :=
  orDefault (load tree (pathFor environment chosen))

/-- Save settings at a path, in place of what was there. -/
def save (tree : FileTree) (path : Path) (settings : Settings) : Except SystemError FileTree :=
  tree.save path (Utf8.encode settings.write)

end Settings

end SqlScript
