import FormattedOutput.Tool.Command

/-!
# The command line

Writes the tables to the file that the first argument names.
-/

namespace FormattedOutput.TableCommand

/-- What the system says about a failure. -/
def cause : IO.Error → SystemError
  | .noFileOrDirectory _ number text => ⟨text, number.toNat⟩
  | .inappropriateType _ number text => ⟨text, number.toNat⟩
  | .permissionDenied _ number text => ⟨text, number.toNat⟩
  | .invalidArgument _ number text => ⟨text, number.toNat⟩
  | .otherError number text => ⟨text, number.toNat⟩
  | e => ⟨toString e, 0⟩

/-- Writes the tables and says what happened. -/
def perform (name : String) : IO Report := do
  let path := pathOf name
  try
    IO.FS.writeFile path TableSource.text
    pure (wrote path)
  catch e => pure (failed path (cause e))

end FormattedOutput.TableCommand

/-- Runs the command and prints its report. -/
def main (args : List String) : IO UInt32 := do
  let report ← match args with
    | [] => pure FormattedOutput.TableCommand.usage
    | name :: _ => FormattedOutput.TableCommand.perform name
  (← IO.getStdout).putStr report.stdout
  (← IO.getStderr).putStr report.stderr
  return report.status
