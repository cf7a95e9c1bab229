/-!
# A tree of files

A tree of files, as far as writing one file needs it: directories and files by their path from the
root, and the directory that paths start from. A path is followed name by name, and the first name
that cannot be followed says why.
-/

namespace FormattedOutput

/-- Why a file cannot be written: the text and the number that the system gives. -/
structure SystemError where
  text : String
  number : Nat
  deriving DecidableEq, Repr

namespace SystemError

def noSuchFile : SystemError := ⟨"No such file or directory", 2⟩

def notDirectory : SystemError := ⟨"Not a directory", 20⟩

def isDirectory : SystemError := ⟨"Is a directory", 21⟩

def nameTooLong : SystemError := ⟨"File name too long", 36⟩

/-- The error as it is reported. -/
def message (e : SystemError) : String :=
  e.text ++ " (os error " ++ toString e.number ++ ")"

end SystemError

/-- A tree of files. A path in it is the list of its names from the root. -/
structure Workspace where
  directories : List (List String)
  files : List (List String × String) := []
  /-- Where relative paths start. -/
  current : List String
  deriving DecidableEq, Repr

namespace Workspace

/-- A path names a directory. The root is one. -/
def isDirectory (w : Workspace) (path : List String) : Bool :=
  path.isEmpty || w.directories.contains path

/-- The text of a file. -/
def file? (w : Workspace) (path : List String) : Option String :=
  w.files.lookup path

/-- The longest name that a directory can hold, in bytes. -/
def maxName : Nat := 255

/-- The longest path that the system follows, in bytes. -/
def maxPath : Nat := 4095

/-- Follows one name from a directory to a directory. -/
def enter (w : Workspace) (directory : List String) (name : String) :
    Except SystemError (List String) :=
  if name = "." then .ok directory
  else if name = ".." then .ok directory.dropLast
  else if maxName < name.utf8ByteSize then .error .nameTooLong
  else if w.isDirectory (directory ++ [name]) then .ok (directory ++ [name])
  else if (w.file? (directory ++ [name])).isSome then .error .notDirectory
  else .error .noSuchFile

/-- Follows names, one after the other. -/
def follow (w : Workspace) (directory : List String) :
    List String → Except SystemError (List String)
  | [] => .ok directory
  | name :: names =>
    match w.enter directory name with
    | .ok directory => w.follow directory names
    | .error e => .error e

/-- The file that a path names, whether or not it is there yet. A path that is too long is not
followed at all. -/
def locate (w : Workspace) (path : String) : Except SystemError (List String) :=
  let names := (path.splitOn "/").filter (· ≠ "")
  let start := if path.startsWith "/" then [] else w.current
  if maxPath < path.utf8ByteSize then .error .nameTooLong
  else
    match names.getLast? with
    | none => .error .isDirectory
    | some name =>
      match w.follow start names.dropLast with
      | .error e => .error e
      | .ok directory =>
        if name = "." ∨ name = ".." ∨ path.endsWith "/" then .error .isDirectory
        else if maxName < name.utf8ByteSize then .error .nameTooLong
        else if w.isDirectory (directory ++ [name]) then .error .isDirectory
        else .ok (directory ++ [name])

/-- Writes a file, in place of what it held before. -/
def write (w : Workspace) (path text : String) : Except SystemError Workspace :=
  (w.locate path).map fun file => { w with files := (file, text) :: w.files }

/-- The text of the file that a path names, if there is one. -/
def read? (w : Workspace) (path : String) : Option String :=
  match w.locate path with
  | .ok file => w.file? file
  | .error _ => none

end Workspace

end FormattedOutput
