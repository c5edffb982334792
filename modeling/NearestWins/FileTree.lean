import NearestWins.Problem
import NearestWins.Text.Fields

/-!
# File trees

A directory with everything in it, as a value, and what asking for a path in it gives. A path is a
sequence of names between slashes; it is followed name by name, and fails with the reason of the
operating system where it cannot be followed.
-/

namespace NearestWins

/-- A file or a directory. -/
inductive FileTree
  /-- A regular file with its bytes. -/
  | file (bytes : ByteArray)
  /-- A directory with its entries. -/
  | directory (entries : List (String × FileTree))

/-- Nothing is there under the path. -/
def ReadFailure.noSuchFile : ReadFailure := ⟨.notFound, "No such file or directory (os error 2)"⟩

/-- Something on the way is no directory. -/
def ReadFailure.notADirectory : ReadFailure := ⟨.other, "Not a directory (os error 20)"⟩

/-- A directory has no text. -/
def ReadFailure.isADirectory : ReadFailure := ⟨.other, "Is a directory (os error 21)"⟩

/-- A name or the path is longer than names and paths can be. -/
def ReadFailure.nameTooLong : ReadFailure := ⟨.other, "File name too long (os error 36)"⟩

/-- The path holds a null character. -/
def ReadFailure.nullInPath : ReadFailure :=
  ⟨.other, "file name contained an unexpected NUL byte"⟩

/-- The bytes are no text. -/
def ReadFailure.notText : ReadFailure := ⟨.other, "stream did not contain valid UTF-8"⟩

namespace FileTree

/-- The most bytes a name may have. -/
def longestName : Nat := 255

/-- The most bytes a path may have. -/
def longestPath : Nat := 4095

/-- Puts something under a path of names, making directories on the way. -/
def insert (tree : FileTree) : List String → FileTree → FileTree
  | [], added => added
  | name :: path, added =>
    let entries := match tree with
      | .directory entries => entries
      | .file _ => []
    let inner := (entries.lookup name).getD (.directory [])
    .directory ((name, inner.insert path added) :: entries.filter (·.1 ≠ name))

/-- Follows names from a directory; `above` are the directories that lead to it, nearest first. A
name that is empty or a dot stays where it is, but must stand in a directory. -/
def follow (above : List FileTree) (here : FileTree) :
    List String → Except ReadFailure FileTree
  | [] => .ok here
  | name :: path =>
    match here with
    | .file _ => .error .notADirectory
    | .directory entries =>
      if name = "" ∨ name = "." then follow above here path
      else if name = ".." then
        match above with
        | parent :: further => follow further parent path
        | [] => follow [] here path
      else if longestName < name.utf8ByteSize then .error .nameTooLong
      else match entries.lookup name with
        | some inner => follow (here :: above) inner path
        | none => .error .noSuchFile

/-- What is under a path, for a process that works in the directory at the end of `current`. -/
def find (root : FileTree) (current : List String) (path : String) :
    Except ReadFailure FileTree :=
  if path.isEmpty then .error .noSuchFile
  else if path.contains '\x00' then .error .nullInPath
  else if longestPath < path.utf8ByteSize then .error .nameTooLong
  else
    let names := (splitFields '/' path.toList).map String.ofList
    follow [] root (if path.startsWith "/" then names else current ++ names)

/-- The text of the file under a path. -/
def readText (root : FileTree) (current : List String) (path : String) :
    Except ReadFailure String := do
  match ← root.find current path with
  | .directory _ => .error .isADirectory
  | .file bytes =>
    match String.fromUTF8? bytes with
    | some text => .ok text
    | none => .error .notText

/-- Whether there is a regular file under a path. -/
def isFile (root : FileTree) (current : List String) (path : String) : Bool :=
  match root.find current path with
  | .ok (.file _) => true
  | _ => false

end FileTree

end NearestWins
