import FormattedOutput.PowerTable.Stored

/-!
# Rebuilding a power of five

A power of five between two stored ones is rebuilt from a stored one with a single product and a
correction of at most three units. The product of a number with a rebuilt power is shifted right,
and only what is left of it counts.
-/

namespace FormattedOutput.PowerTable

/-! ## Logarithms -/

/-- The number of bits of `5 ^ e`, for `e` up to 3528. -/
def powerBits (e : Nat) : Nat := (e * 1217359) >>> 19 + 1

/-- The whole part of the decimal logarithm of `2 ^ e`, for `e` up to 1650. -/
def floorLog10Two (e : Nat) : Nat := (e * 78913) >>> 18

/-- The whole part of the decimal logarithm of `5 ^ e`, for `e` up to 2620. -/
def floorLog10Five (e : Nat) : Nat := (e * 732923) >>> 20

/-! ## Powers -/

/-- The two bits that belong to the power `i` in a table of corrections. -/
def correction (table : List Nat) (i : Nat) : Nat :=
  (table.getD (i / 16) 0) >>> (i % 16 * 2) % 4

/-- The product of a number and a pair of words, shifted right by `delta` bits. The lower and the
upper word are multiplied on their own. -/
def product (m : Nat) (p : WordPair) (delta : Nat) : Nat :=
  doubleWord (doubleWord (m * p.low) >>> delta +
    doubleWord (doubleWord (m * p.high) <<< (64 - delta)))

/-- The leading bits of `5 ^ i`, for `i` up to 325. -/
def power (i : Nat) : WordPair :=
  let base := i / spacing
  let stored := splitPowers.getD base ⟨0, 0⟩
  let offset := i - base * spacing
  if offset = 0 then stored
  else
    let delta := powerBits i - powerBits (base * spacing)
    .ofNat (product (smallPowers.getD offset 0) stored delta + correction powerCorrections i)

/-- The leading bits of the inverse of `5 ^ i`, rounded up, for `i` up to 291. -/
def inverse (i : Nat) : WordPair :=
  let base := (i + spacing - 1) / spacing
  let stored := splitInverses.getD base ⟨0, 0⟩
  let offset := base * spacing - i
  if offset = 0 then stored
  else
    let delta := powerBits (base * spacing) - powerBits i
    .ofNat (product (smallPowers.getD offset 0) ⟨stored.low - 1, stored.high⟩ delta + 1 +
      correction inverseCorrections i)

/-! ## Products with a power -/

/-- The product of a number and a rebuilt power, shifted right by `shift` bits, of which one word
is kept. The shift takes off the lower word at least. -/
def shiftedProduct (m : Nat) (p : WordPair) (shift : Nat) : Nat :=
  word (doubleWord (doubleWord (m * p.low) >>> 64 + doubleWord (m * p.high)) >>> (shift - 64))

end FormattedOutput.PowerTable
