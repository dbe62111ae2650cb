/-
Files and directories by path, and what the operating system answers about
them.  A path is followed name by name, from the root of a tree or from its
working directory, and the first name that leads nowhere decides the error.
-/
import SqlScript.Utf8

namespace SqlScript

/-- A path as it is written. -/
abbrev Path := Text

/-- Errors of the operating system, with its wording. -/
inductive SystemError where
  | noSuchFile
  | fileExists
  | notADirectory
  | isADirectory
  | nameTooLong
  /-- A path that cannot be handed to the operating system at all. -/
  | nulInPath
deriving Repr, DecidableEq

def SystemError.message : SystemError → Text
  | .noSuchFile => "No such file or directory (os error 2)".toList
  | .fileExists => "File exists (os error 17)".toList
  | .notADirectory => "Not a directory (os error 20)".toList
  | .isADirectory => "Is a directory (os error 21)".toList
  | .nameTooLong => "File name too long (os error 36)".toList
  | .nulInPath => "file name contained an unexpected NUL byte".toList

namespace Path

/-- Cut at every slash. -/
def cut : Path → List Text
  | [] => [[]]
  | c :: rest =>
      if c = '/' then [] :: cut rest
      else match cut rest with
        | [] => [[c]]
        | name :: others => (c :: name) :: others

/-- Put slashes between parts. -/
def join (parts : List Text) : Path :=
  ['/'].intercalate parts

/-- The names that a path leads through.  One dot leads to where it stands, two
dots lead back. -/
def names (path : Path) : List Text :=
  (cut path).filter (· != [])

/-- A part of a path that leads nowhere: nothing, or a single dot. -/
def isVoid (part : Text) : Bool :=
  part == [] || part == ['.']

/-- The trail to the directory that the last name of a trail stands in.  A trail
gives the parts of a path, the last one first. -/
def parentTrail (trail : List Text) : List Text :=
  (trail.dropWhile isVoid).drop 1

/-- A path that begins at the root. -/
def isAbsolute (path : Path) : Bool :=
  path.head? == some '/'

def endsInSlash (path : Path) : Bool :=
  path.getLast? == some '/'

/-- A path that is a lone hyphen, but for slashes and dots behind it. -/
def isHyphen (path : Path) : Bool :=
  match cut path with
  | first :: others => first == ['-'] && others.all isVoid
  | [] => false

/-- How many bytes a path may have. -/
def longestPath : Nat := 4095

/-- How many bytes a name may have. -/
def longestName : Nat := 255

/-- More bytes than `limit`. -/
def isLonger (limit : Nat) (t : Text) : Bool :=
  limit < (Utf8.encode t).length

/-- Why a path is refused before it is followed, if it is. -/
def refusal? (path : Path) : Option SystemError :=
  if path.contains '\x00' then some .nulInPath
  else if isLonger longestPath path then some .nameTooLong
  else if path = [] then some .noSuchFile
  else none

end Path

/-- What a place in a tree of files holds. -/
inductive Node where
  | directory
  | file (bytes : Bytes)
deriving Repr, DecidableEq

/-- What a path leads to. -/
inductive Target where
  | directory
  | file (bytes : Bytes)
  | unreachable (error : SystemError)
deriving Repr, DecidableEq

/-- Where something is in a tree: the names that lead to it from the root, the
last one first. -/
abbrev Place := List Text

/-- The nodes of a tree by their places. -/
structure FileTree where
  nodes : List (Place × Node)
  /-- Where paths begin that do not begin at the root. -/
  workingDirectory : Place
deriving Repr

namespace FileTree

/-- Nothing but a working directory and what it stands in. -/
def empty (workingDirectory : Place := ["work".toList]) : FileTree :=
  ⟨[], workingDirectory⟩

/-- The node at a place.  The working directory is a directory, and so is every
place on the way to it, the root among them. -/
def find? (tree : FileTree) (place : Place) : Option Node :=
  if place <:+ tree.workingDirectory then some .directory else tree.nodes.lookup place

def put (tree : FileTree) (place : Place) (node : Node) : FileTree :=
  { tree with nodes := (place, node) :: tree.nodes }

/-- The place that a name leads to from a directory.  Two dots at the root stay
there. -/
def enter (place : Place) (name : Text) : Place :=
  if name = ['.'] then place
  else if name = ['.', '.'] then place.drop 1
  else name :: place

/-- Where names lead. -/
inductive Arrival where
  | found (place : Place) (node : Node)
  /-- Only the last name is missing. -/
  | vacant (place : Place)
  | blocked (error : SystemError)
deriving Repr, DecidableEq

/-- Follow names from a directory. -/
def follow (tree : FileTree) (here : Place) : List Text → Arrival
  | [] => .found here .directory
  | name :: others =>
      let there := enter here name
      if Path.isLonger Path.longestName name then .blocked .nameTooLong
      else match tree.find? there with
        | some .directory => follow tree there others
        | some (.file bytes) =>
            if others = [] then .found there (.file bytes) else .blocked .notADirectory
        | none => if others = [] then .vacant there else .blocked .noSuchFile

/-- Where a path begins. -/
def start (tree : FileTree) (path : Path) : Place :=
  if path.isAbsolute then [] else tree.workingDirectory

/-- Follow a path from where it begins. -/
def arrive (tree : FileTree) (path : Path) : Arrival :=
  match path.refusal? with
  | some error => .blocked error
  | none => tree.follow (tree.start path) path.names

/-- What a path leads to.  A slash at its end may only follow a directory. -/
def target (tree : FileTree) (path : Path) : Target :=
  match tree.arrive path with
  | .found _ .directory => .directory
  | .found _ (.file bytes) =>
      if path.endsInSlash then .unreachable .notADirectory else .file bytes
  | .vacant _ => .unreachable .noSuchFile
  | .blocked error => .unreachable error

-- Two dots lead out of the working directory, and an absolute path does not depend on it.
example :
    let tree : FileTree := ⟨[(["a".toList], .file [0x61])], ["work".toList]⟩
    tree.target "../a".toList = .file [0x61] ∧ tree.target "/work/../a".toList = .file [0x61] ∧
      tree.target "a".toList = .unreachable .noSuchFile := by
  decide

/-- Make one directory. -/
def makeDirectory (tree : FileTree) (path : Path) : Except SystemError FileTree :=
  match tree.arrive path with
  | .found _ _ => .error .fileExists
  | .vacant place => .ok (tree.put place .directory)
  | .blocked error => .error error

/-- Make one directory unless there is one. -/
def ensureDirectory (tree : FileTree) (path : Path) : Except SystemError FileTree :=
  match tree.makeDirectory path with
  | .ok tree => .ok tree
  | .error error => if tree.target path = .directory then .ok tree else .error error

/-- Make the directory at the end of a trail.  While a name on the way to it is
missing, the directory in front of it is made first. -/
def ensureTrail (tree : FileTree) : (trail : List Text) → Except SystemError FileTree
  | [] => .ok tree
  | part :: trail =>
      if Path.isVoid part then ensureTrail tree trail
      else
        let path := Path.join (part :: trail).reverse
        if tree.makeDirectory path matches .error .noSuchFile then
          (ensureTrail tree trail).bind fun tree => tree.ensureDirectory path
        else tree.ensureDirectory path

/-- Make a directory and those on the way to it. -/
def makeDirectories (tree : FileTree) (path : Path) : Except SystemError FileTree :=
  tree.ensureTrail path.cut.reverse

/-- Write a file in a directory that is there, in place of one that was. -/
def writeFile (tree : FileTree) (path : Path) (bytes : Bytes) : Except SystemError FileTree :=
  match tree.arrive path with
  | .blocked error => .error error
  | .found _ .directory => .error .isADirectory
  | .found place (.file _) =>
      if path.endsInSlash then .error .isADirectory else .ok (tree.put place (.file bytes))
  | .vacant place =>
      if path.endsInSlash then .error .isADirectory else .ok (tree.put place (.file bytes))

/-- Write a file and make the directories on its way. -/
def save (tree : FileTree) (path : Path) (bytes : Bytes) : Except SystemError FileTree :=
  (tree.ensureTrail (Path.parentTrail path.cut.reverse)).bind fun tree =>
    tree.writeFile path bytes

end FileTree

end SqlScript
