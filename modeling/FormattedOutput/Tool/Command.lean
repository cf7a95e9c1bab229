import FormattedOutput.Tool.TableSource
import FormattedOutput.Tool.Workspace

/-!
# The table command

The command writes the tables to the file that its first argument names. It reports what it wrote,
or what went wrong. The file is looked up below the sources that it belongs to.
-/

namespace FormattedOutput

/-- What a command leaves behind besides its files. -/
structure Report where
  status : UInt32
  stdout : String
  stderr : String
  deriving DecidableEq, Repr

namespace TableCommand

/-- The directory of the sources. -/
def sources : String := "rv-printf/src"

/-- The path of a file below the sources. A path from the root stays as it is. -/
def pathOf (name : String) : String :=
  if name.startsWith "/" then name else sources ++ "/" ++ name

/-- The report of a command that got no file name. -/
def usage : Report := ⟨1, "", "Error: usage: rv-printf-dev <output path>\n"⟩

/-- The report of a file that was written. -/
def wrote (path : String) : Report := ⟨0, "wrote " ++ path ++ "\n", ""⟩

/-- The report of a file that could not be written. -/
def failed (path : String) (cause : SystemError) : Report :=
  ⟨1, "", "Error: failed to write " ++ path ++ "\n\nCaused by:\n    " ++ cause.message ++ "\n"⟩

/-- Runs the command in a tree of files. -/
def run (w : Workspace) (args : List String) : Report × Workspace :=
  match args with
  | [] => (usage, w)
  | name :: _ =>
    match w.write (pathOf name) TableSource.text with
    | .ok w => (wrote (pathOf name), w)
    | .error cause => (failed (pathOf name) cause, w)

/-- The tree of a checkout that has no tables yet: the directories of the system, and those that
the tables belong to. -/
def emptyWorkspace : Workspace where
  directories :=
    [["bin"], ["dev"], ["etc"], ["home"], ["lib"], ["opt"], ["proc"], ["root"], ["run"], ["sbin"],
      ["srv"], ["sys"], ["tmp"], ["usr"], ["var"], ["work"], ["work", "rv-printf"],
      ["work", "rv-printf", "src"], ["work", "rv-printf", "src", "ryu"]]
  current := ["work"]

end TableCommand

end FormattedOutput
