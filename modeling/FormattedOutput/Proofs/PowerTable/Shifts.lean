import FormattedOutput.Proofs.Arithmetic
import FormattedOutput.Proofs.PowerTable.Products

/-!
# Shifts on the way to a product

A power is rebuilt, and a number is multiplied with it, by shifts of words and with entries of the
tables. Here a shift by a whole word has no result, and neither has an entry that there is not. For
the powers and the shifts of the two scales none of this comes up.
-/

namespace FormattedOutput.PowerTable

/-! ## Powers -/

/-- The product of a number and a pair of words, shifted right by `delta` bits. -/
def product? (m : Nat) (p : WordPair) (delta : Int) : Option Nat := do
  let right ← place? delta
  let left ← place? (64 - delta)
  return doubleWord (doubleWord (m * p.low) >>> right +
    doubleWord (doubleWord (m * p.high) <<< left))

/-- The two bits that belong to the power `i` in a table of corrections. -/
def correction? (table : List Nat) (i : Nat) : Option Nat := do
  let bits ← table[i / 16]?
  return bits >>> (← place? (i % 16 * 2 : Nat)) % 4

/-- The leading bits of `5 ^ i`. -/
def power? (i : Nat) : Option WordPair := do
  let base := i / spacing
  let stored ← splitPowers[base]?
  let offset ← minus? i (base * spacing)
  if offset = 0 then return stored
  let delta : Int := powerBits i - powerBits (base * spacing)
  let rebuilt ← product? (← smallPowers[offset]?) stored delta
  return .ofNat (rebuilt + (← correction? powerCorrections i))

/-- The leading bits of the inverse of `5 ^ i`, rounded up. -/
def inverse? (i : Nat) : Option WordPair := do
  let base := (i + spacing - 1) / spacing
  let stored ← splitInverses[base]?
  let offset ← minus? (base * spacing) i
  if offset = 0 then return stored
  let delta : Int := powerBits (base * spacing) - powerBits i
  let rebuilt ← product? (← smallPowers[offset]?) ⟨← minus? stored.low 1, stored.high⟩ delta
  return .ofNat (rebuilt + 1 + (← correction? inverseCorrections i))

theorem power?_eq : ∀ i < 326, power? i = some (power i) := by
  decide +kernel

theorem inverse?_eq : ∀ q < 292, inverse? q = some (inverse q) := by
  decide +kernel

/-! ## Products with a power -/

/-- The product of a number and a rebuilt power, shifted right by `shift` bits. The lower word is
taken off as a whole, and the rest is shifted on. -/
def shiftedProduct? (m : Nat) (p : WordPair) (shift : Int) : Option Nat := do
  let rest ← place? (shift - 64)
  return word (doubleWord (doubleWord (m * p.low) >>> 64 + doubleWord (m * p.high)) >>> rest)

theorem shiftedProduct?_eq {shift : Nat} (hge : 64 ≤ shift) (hlt : shift < 128) (m : Nat)
    (p : WordPair) : shiftedProduct? m p shift = some (shiftedProduct m p shift) := by
  have hrest : ((shift : Int) - 64).toNat = shift - 64 := by omega
  unfold shiftedProduct? shiftedProduct
  rw [place?_eq (by omega) (by omega), Option.bind_eq_bind, Option.bind_some, hrest]
  rfl

theorem shift_downward_lt : ∀ e < 970, (downward e).shift < 128 := by
  decide +kernel

theorem shift_upward_lt : ∀ e < 1077, (upward e).shift < 128 := by
  decide +kernel

/-- The shift of the way down, counted with whole numbers. -/
theorem shiftedProduct?_down {e : Nat} (he : e < 970) (m : Nat) (p : WordPair) :
    shiftedProduct? m p
        (Interval.tensBelow e + (storedBits + powerBits (Interval.tensBelow e) - 1) - e) =
      some (shiftedProduct m p (downward e).shift) := by
  obtain ⟨-, hge, -, -⟩ := fits_downward e he
  have hlt := shift_downward_lt e he
  have hshift : (Interval.tensBelow e + (storedBits + powerBits (Interval.tensBelow e) - 1) - e :
      Int) = ((downward e).shift : Nat) := by
    unfold downward storedBits at *
    simp only at *
    omega
  rw [hshift, shiftedProduct?_eq (by omega) hlt]

/-- The shift of the way up, counted with whole numbers. -/
theorem shiftedProduct?_up {e : Nat} (he : e < 1077) (m : Nat) (p : WordPair) :
    shiftedProduct? m p
        (Interval.tensAbove e + storedBits - powerBits (e - Interval.tensAbove e)) =
      some (shiftedProduct m p (upward e).shift) := by
  obtain ⟨-, hge, -, -⟩ := fits_upward e he
  have hlt := shift_upward_lt e he
  have hshift : (Interval.tensAbove e + storedBits - powerBits (e - Interval.tensAbove e) : Int) =
      ((upward e).shift : Nat) := by
    unfold upward at *
    simp only at *
    omega
  rw [hshift, shiftedProduct?_eq (by omega) hlt]

end FormattedOutput.PowerTable
