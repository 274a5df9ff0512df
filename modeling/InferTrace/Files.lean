/-
Files and the paths that lead to them.

A path is a text by code points, since the system may have names for files that are no text.
`FileTree` is a tree of files as a list of places; `FileTree.look` follows a path from a working
directory step by step, as opening a file does. `normalize` shortens a path by its text alone,
and `ancestors` lists a directory and those above it.
-/
import InferTrace.Text.Points

namespace InferTrace

open Text (Point Points)

/-- What stands at a path. A file that is locked cannot be read, for a reason that the system
words. -/
inductive Item where
  | directory
  | file (bytes : ByteArray)
  | locked (reason : String)

/-- The item is a file. -/
def Item.isFile : Item → Bool
  | .file _ | .locked _ => true
  | .directory => false

/-- Why a path leads to no file. -/
inductive PathFault where
  | missing
  | notDirectory
  | isDirectory
  | nameTooLong
  /-- Another reason that the system words. -/
  | other (reason : String)
  /-- The path cannot be handed to the system, since it holds a null character. -/
  | nullCharacter
  /-- Nor can one that has no bytes. -/
  | unencodable
deriving DecidableEq, Repr

namespace PathFault

/-- The fault in words. -/
def message : PathFault → String
  | missing => "[Errno 2] No such file or directory"
  | notDirectory => "[Errno 20] Not a directory"
  | isDirectory => "[Errno 21] Is a directory"
  | nameTooLong => "[Errno 36] File name too long"
  | other reason => reason
  | nullCharacter => "embedded null byte"
  | unencodable => "a path holds half a surrogate pair"

/-- The system has found fault with the path; any other fault comes before it is asked. -/
def isOfSystem : PathFault → Bool
  | missing | notDirectory | isDirectory | nameTooLong | other _ => true
  | nullCharacter | unencodable => false

/-- The fault with the path that it is of, unless its words say enough. -/
def report (path : Points) : PathFault → String
  | other reason => reason
  | fault => fault.message ++ ": " ++ path.quoted

end PathFault

-- =============================================================== paths

/-- A place in a tree: the names from the root on. -/
abbrev Names := List Points

/-- The points between separators. -/
def splitPoints (separator : Char) : List Point → List (List Point)
  | [] => [[]]
  | p :: rest =>
    if p = .char separator then [] :: splitPoints separator rest
    else
      match splitPoints separator rest with
      | [] => [[p]]
      | part :: parts => (p :: part) :: parts

/-- The parts of a path. -/
def pathParts (path : Points) : Names := (splitPoints '/' path.toList).map fun part => ⟨part⟩

/-- The path starts at the root. -/
def isAbsolute (path : Points) : Bool := path.toList.head? = some (.char '/')

/-- How a path names the root: by one slash, or by two if there are just two in front. -/
def rootOf (path : Points) : String :=
  if (path.toList.takeWhile (· = .char '/')).length = 2 then "//" else "/"

/-- The path to a place from the root that is named so. -/
def Names.absolute (root : String) (names : Names) : Points :=
  root ++ Points.intercalate "/" names

/-- One part of a path: nothing and a point stay, two points go up. -/
def stepName (names : Names) (part : Points) : Names :=
  if part = "" ∨ part = "." then names
  else if part = ".." then names.dropLast
  else names ++ [part]

/-- The place that a path names by its text alone, from a working directory. -/
def normalize (cwd : Names) (path : Points) : Names :=
  (pathParts path).foldl stepName (if isAbsolute path then [] else cwd)

/-- A directory and those above it, the nearest first. -/
def ancestors (names : Names) : List Names :=
  (List.range (names.length + 1)).reverse.map fun n => names.take n

/-- The number of bytes of a point in a path, if it has any. A byte that is no text stands for
itself, by a code of its own. -/
def byteSize? : Point → Option Nat
  | .char c => some c.utf8Size
  | .code n => if 0xDC80 ≤ n ∧ n ≤ 0xDCFF then some 1 else none

/-- The number of bytes of a path, or of a part of one, if it has any. -/
def pathSize? (path : Points) : Option Nat := (path.toList.mapM byteSize?).map fun sizes =>
  sizes.foldl (· + ·) 0

-- =============================================================== trees

/-- A tree of files: what stands at each place. The root is always a directory. -/
structure FileTree where
  items : List (Names × Item) := []

namespace FileTree

/-- What stands at a place. -/
def get? (t : FileTree) (names : Names) : Option Item :=
  if names = [] then some .directory else t.items.lookup names

/-- Put a directory at a place where nothing stands. -/
def putDirectory (t : FileTree) (names : Names) : FileTree :=
  if (t.get? names).isSome then t else { items := (names, .directory) :: t.items }

/-- Put a directory at a place, and at every place above it. -/
def putDirectories (t : FileTree) (names : Names) : FileTree :=
  (ancestors names).foldl putDirectory t

/-- Put a file at a place, and directories above it. -/
def putFile (t : FileTree) (names : Names) (bytes : ByteArray) : FileTree :=
  { items := (names, .file bytes) :: (t.putDirectories names.dropLast).items }

/-- The most bytes of one name. -/
def maxName : Nat := 255

/-- The most bytes of a path. -/
def maxPath : Nat := 4095

/-- Follow the parts of a path from a place. Each step starts from a directory. -/
def follow (t : FileTree) : Names → Names → Except PathFault Item
  | names, [] => match t.get? names with
    | some item => .ok item
    | none => .error .missing
  | names, part :: parts => match t.get? names with
    | none => .error .missing
    | some (.file _) | some (.locked _) => .error .notDirectory
    | some .directory =>
      if maxName < (pathSize? part).getD 0 then .error .nameTooLong
      else t.follow (stepName names part) parts

/-- What a path leads to. -/
def look (t : FileTree) (cwd : Names) (path : Points) : Except PathFault Item :=
  match pathSize? path with
  | none => .error .unencodable
  | some size =>
    if path.toList.contains (.char '\x00') then .error .nullCharacter
    else if path = "" then .error .missing
    else if maxPath < size then .error .nameTooLong
    else t.follow (if isAbsolute path then [] else cwd) (pathParts path)

end FileTree

end InferTrace
