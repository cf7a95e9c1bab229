import FormattedOutput.Character.Invisible
import FormattedOutput.Character.Mark
import FormattedOutput.Character.Unassigned

/-!
# Quoted texts

A text in double quotes shows each of its characters. A quote and a backslash stand after a
backslash. A character without a picture of its own is written as an escape, by a letter if it has
one and by its number otherwise.
-/

namespace FormattedOutput.Quoted

/-- A character shows up as itself, and as one character. -/
def hasPicture (c : Char) : Bool :=
  !CharacterSet.invisible.contains c && !CharacterSet.marks.contains c &&
    !CharacterSet.unassigned.contains c

/-- The number of a character, in hexadecimal. -/
def number (c : Char) : List Char :=
  ['\\', 'u', '\x7b'] ++ Nat.toDigits 16 c.toNat ++ ['\x7d']

/-- A character inside the quotes. -/
def char (c : Char) : List Char :=
  match c with
  | '\x22' => ['\\', '\x22']
  | '\\' => ['\\', '\\']
  | '\x00' => ['\\', '0']
  | '\t' => ['\\', 't']
  | '\r' => ['\\', 'r']
  | '\n' => ['\\', 'n']
  | c => if hasPicture c then [c] else number c

/-- A text with quotes around it. -/
def text (s : String) : String :=
  String.ofList (['\x22'] ++ s.toList.flatMap char ++ ['\x22'])

end FormattedOutput.Quoted
