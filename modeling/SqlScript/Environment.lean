/-
Environment variables, and the paths that are written with them.
-/
import SqlScript.FileTree
import SqlScript.Text.Word

namespace SqlScript

/-- The variables of an environment and their values. -/
structure Environment where
  bindings : List (Text × Text)
deriving Repr

namespace Environment

def find? (environment : Environment) (name : Text) : Option Text :=
  environment.bindings.lookup name

def home? (environment : Environment) : Option Text :=
  environment.find? "HOME".toList

end Environment

/-- A part of a text with variables. -/
inductive TemplatePart where
  | literal (t : Text)
  /-- A variable, and what stands for it when it is not set. -/
  | variable (name : Text) (fallback : Option Text)
deriving Repr, DecidableEq

namespace TemplatePart

/-- Cut a text at the first mark of a fallback. -/
def cutFallback? : Text → Option (Text × Text)
  | ':' :: '-' :: fallback => some ([], fallback)
  | c :: rest => (cutFallback? rest).map fun (name, fallback) => (c :: name, fallback)
  | [] => none

/-- The variable that is named between braces.  A fallback counts only behind
a name. -/
def braced (inside : Text) : TemplatePart :=
  match cutFallback? inside with
  | some (c :: name, fallback) => .variable (c :: name) (some fallback)
  | _ => .variable inside none

/-- The value of a part, if it has one. -/
def value? (environment : Environment) : TemplatePart → Option Text
  | .literal t => some t
  | .variable name fallback => (environment.find? name).or fallback

/-- Cut a text into its literal parts and its variables.  A dollar begins a
variable when a word or a pair of braces follows it; two dollars stand for
one. -/
def parts (t : Text) : List TemplatePart :=
  match t with
  | [] => []
  | '$' :: '\x7b' :: rest =>
      if rest.contains '\x7d' then
        braced (rest.takeWhile (· != '\x7d'))
          :: parts ((rest.dropWhile (· != '\x7d')).drop 1)
      else .literal ['$', '\x7b'] :: parts rest
  | '$' :: '$' :: rest => .literal ['$'] :: parts rest
  | '$' :: rest =>
      let name := rest.takeWhile Text.isWordChar
      if name = [] then .literal ['$'] :: parts rest
      else .variable name none :: parts (rest.dropWhile Text.isWordChar)
  | c :: rest => .literal [c] :: parts rest
termination_by t.length
decreasing_by
  all_goals simp only [List.length_cons, List.length_drop]
  all_goals try omega
  · have := (List.dropWhile_sublist (l := rest) (· != '\x7d')).length_le
    omega
  · have := (List.dropWhile_sublist (l := rest) Text.isWordChar).length_le
    omega

/-- The names of the variables among some parts. -/
def names (parts : List TemplatePart) : List Text :=
  parts.filterMap fun
    | .literal _ => none
    | .variable name _ => some name

end TemplatePart

namespace Environment

/-- Put values in place of variables.  What was put in is not looked at again;
one variable without a value leaves the whole without. -/
def substitute? (environment : Environment) (t : Text) : Option Text :=
  ((TemplatePart.parts t).mapM (TemplatePart.value? environment)).map List.flatten

/-- Put the home directory in place of a tilde that is the whole first part of
a path. -/
def expandTilde (environment : Environment) (path : Path) : Path :=
  match path, environment.home? with
  | ['~'], some home => home
  | '~' :: '/' :: rest, some home => home ++ '/' :: rest
  | path, _ => path

/-- A path with its variables and its tilde expanded.  A path that names a
variable without a value stays as it is; a tilde out of a variable stays as
well. -/
def expand (environment : Environment) (path : Path) : Path :=
  match environment.substitute? path with
  | none => path
  | some expanded =>
      if path.head? = some '~' then environment.expandTilde expanded else expanded

end Environment

end SqlScript
