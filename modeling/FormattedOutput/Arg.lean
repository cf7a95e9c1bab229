import FormattedOutput.Fault
import FormattedOutput.Piece
import FormattedOutput.Binary64

/-!
# Arguments

The arguments of a format text are a list of promoted values. A directive takes the first one that
is left and wants it to be of a certain sort. An argument of the wrong sort is taken all the same.
-/

namespace FormattedOutput

/-- One promoted argument. -/
inductive Arg where
  /-- A signed integer. -/
  | int (value : Int64)
  /-- An unsigned integer or a character. -/
  | uint (value : UInt64)
  /-- A `double`, by its bit pattern. -/
  | double (bits : UInt64)
  /-- A `long double`, by its bit pattern. It is taken and never converted. -/
  | longDouble (bits : BitVec 128)
  /-- A text, or a null pointer. -/
  | string (text : Option Bytes)
  /-- An address. -/
  | pointer (address : UInt64)
  deriving DecidableEq, Repr

/-- What taking arguments gives: a value or a fault, and in any case the arguments that are left. -/
abbrev Taken (α : Type) := Except Fault α × List Arg

/-- Does something to the value. -/
def Taken.map {α β : Type} (f : α → β) : Taken α → Taken β
  | (.ok value, rest) => (.ok (f value), rest)
  | (.error fault, rest) => (.error fault, rest)

@[simp] theorem Taken.map_snd {α β : Type} (f : α → β) (taken : Taken α) :
    (taken.map f).2 = taken.2 := by
  obtain ⟨_ | _, _⟩ := taken <;> rfl

namespace Arg

/-! ## Promotion -/

/-- Every signed integer type is promoted to 64 bits. -/
def ofInt (n : Int) : Arg := .int (Int64.ofInt n)

/-- Every unsigned integer type is promoted to 64 bits. -/
def ofNat (n : Nat) : Arg := .uint (UInt64.ofNat n)

/-- A truth value is promoted to 0 or 1. -/
def ofBool (b : Bool) : Arg := .int (if b then 1 else 0)

/-- A character is promoted to its code point. -/
def ofChar (c : Char) : Arg := ofNat c.toNat

/-- A `float` is promoted to a `double`. -/
def ofBinary32 (bits : UInt32) : Arg := .double (Binary64.widen bits)

/-- A text is passed as its bytes in UTF-8. -/
def ofString (s : String) : Arg := .string (some s.toUTF8.toList)

/-! ## What an argument can stand for -/

/-- The 64 bits of an integer or an address. -/
def word? : Arg → Option UInt64
  | .int value => some value.toUInt64
  | .uint value => some value
  | .pointer address => some address
  | _ => none

/-- The bit pattern of a `double`. -/
def double? : Arg → Option UInt64
  | .double bits => some bits
  | _ => none

/-- A `long double` is only passed over, and a `double` will do in its place. -/
def longDouble? : Arg → Option Unit
  | .longDouble _ | .double _ => some ()
  | _ => none

/-- A text or a null pointer. -/
def string? : Arg → Option (Option Bytes)
  | .string text => some text
  | _ => none

/-- Two arguments are equal if they are of one sort and of one value. Doubles compare as numbers:
the two zeros are equal, and a NaN differs from everything. -/
def same : Arg → Arg → Bool
  | .double a, .double b => Binary64.sameNumber (.ofBits a) (.ofBits b)
  | a, b => a = b

/-! ## Taking arguments from a list -/

/-- Takes the first argument and reads it with `want`. An argument that `want` does not read is
taken as well, and gives the fault `misfit`. -/
def take {α : Type} (want : Arg → Option α) (misfit : Fault) :
    List Arg → Taken α
  | [] => (.error .tooFewArguments, [])
  | arg :: rest =>
    match want arg with
    | some value => (.ok value, rest)
    | none => (.error misfit, rest)

/-- Whatever comes of it, one argument is gone. -/
@[simp] theorem take_snd {α : Type} (want : Arg → Option α) (misfit : Fault) (args : List Arg) :
    (take want misfit args).2 = args.tail := by
  cases args with
  | nil => rfl
  | cons arg rest => simp only [take, List.tail_cons]; split <;> rfl

/-- Takes the 64 bits of an integer. -/
def takeWord : List Arg → Taken UInt64 :=
  take word? .integerExpected

/-- Takes an integer for a `*`. Its low 32 bits count, as a signed number. -/
def takeInt (args : List Arg) : Taken Int :=
  (takeWord args).map fun word => Int.bmod word.toNat (2 ^ (32 : Nat))

/-- Takes the bit pattern of a `double`. -/
def takeDouble : List Arg → Taken UInt64 :=
  take double? .doubleExpected

/-- Passes over a `long double`. -/
def takeLongDouble : List Arg → Taken Unit :=
  take longDouble? .longDoubleExpected

/-- Takes a text. -/
def takeString : List Arg → Taken (Option Bytes) :=
  take string? .stringExpected

end Arg

/-! ## The length of a text -/

/-- The part of a text before its first zero byte, and no more than `limit` bytes of it. -/
def cut (text : Bytes) (limit : Nat) : Bytes :=
  (text.take limit).takeWhile (· != 0)

/-- The length of a text up to its first zero byte, at most `limit`. A null pointer has length 0. -/
def boundedLength : Option Bytes → Nat → Nat
  | none, _ => 0
  | some text, limit => (cut text limit).length

end FormattedOutput
