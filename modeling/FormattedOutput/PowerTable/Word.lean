import FormattedOutput.Power

/-!
# Words

The power tables are used with arithmetic of a fixed width: a product is held in two words, a
result in one. A number that does not fit loses its upper bits.
-/

namespace FormattedOutput

/-- What is left of a number in one word of 64 bits. -/
def word (n : Nat) : Nat := n % 2 ^ (64 : Nat)

/-- What is left of a number in two words. -/
def doubleWord (n : Nat) : Nat := n % 2 ^ (128 : Nat)

theorem word_of_lt {n : Nat} (h : n < 2 ^ (64 : Nat)) : word n = n := Nat.mod_eq_of_lt h

theorem doubleWord_of_lt {n : Nat} (h : n < 2 ^ (128 : Nat)) : doubleWord n = n :=
  Nat.mod_eq_of_lt h

/-- A number of two words, the lower word first. -/
structure WordPair where
  low : Nat
  high : Nat
  deriving DecidableEq, Repr

namespace WordPair

/-- The number that a pair of words stands for. -/
def toNat (p : WordPair) : Nat := p.high * 2 ^ (64 : Nat) + p.low

/-- The two words of a number. -/
def ofNat (n : Nat) : WordPair := ⟨word n, word (n / 2 ^ (64 : Nat))⟩

theorem toNat_ofNat {n : Nat} (h : n < 2 ^ (128 : Nat)) : (ofNat n).toNat = n := by
  simp only [toNat, ofNat, word]
  omega

end WordPair

end FormattedOutput
