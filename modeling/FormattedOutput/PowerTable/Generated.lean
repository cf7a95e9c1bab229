import FormattedOutput.PowerTable.Rebuild

/-!
# The tables by their rule

The stored tables can be computed: the leading bits of every 26th power of five and of its
inverse, and for each power between them the difference to what one product gives.
-/

namespace FormattedOutput.PowerTable

/-- What a table holds. -/
inductive Entries where
  | numbers (numbers : List Nat)
  | pairs (pairs : List WordPair)
  /-- Numbers that are made of bits. -/
  | masks (masks : List Nat)
  deriving DecidableEq, Repr

/-- A table and its name. -/
structure Table where
  name : String
  entries : Entries
  deriving DecidableEq, Repr

/-- The number of entries of a table. -/
def Entries.size : Entries → Nat
  | .numbers list => list.length
  | .pairs list => list.length
  | .masks list => list.length

/-- Five tables under their names. -/
def named (powers : List Nat) (split inverse : List WordPair) (masks inverseMasks : List Nat) :
    List Table :=
  [⟨"DOUBLE_POW5_TABLE", .numbers powers⟩,
    ⟨"DOUBLE_POW5_INV_SPLIT2", .pairs inverse⟩,
    ⟨"POW5_INV_OFFSETS", .masks inverseMasks⟩,
    ⟨"DOUBLE_POW5_SPLIT2", .pairs split⟩,
    ⟨"POW5_OFFSETS", .masks masks⟩]

/-- The stored tables. -/
def storedTables : List Table :=
  named smallPowers splitPowers splitInverses powerCorrections inverseCorrections

/-- The stored table of a name. -/
def table? (name : String) : Option Table :=
  storedTables.find? (·.name == name)

/-! ## The rule -/

/-- The largest power of five that is ever rebuilt. -/
def maxPower : Nat := 325

/-- The largest inverse power of five that is ever rebuilt. -/
def maxInverse : Nat := 291

/-- How many inverse powers are stored. -/
def inverseCount : Nat := 15

/-- The leading 125 bits of `5 ^ e`. -/
def leadingPower (e : Nat) : Nat :=
  let bits := (5 ^ e).log2 + 1
  if bits < storedBits then 5 ^ e <<< (storedBits - bits) else 5 ^ e >>> (bits - storedBits)

/-- The leading bits of the inverse of `5 ^ e`, rounded up. -/
def leadingInverse (e : Nat) : Nat :=
  2 ^ (powerBits e - 1 + storedBits) / 5 ^ e + 1

/-- What one product with a stored power gives for `5 ^ i`. -/
def approximatePower (i : Nat) : Nat :=
  let base := i / spacing * spacing
  doubleWord ((leadingPower base * 5 ^ (i - base)) >>> (powerBits i - powerBits base))

/-- What one product with a stored inverse gives for the inverse of `5 ^ i`. -/
def approximateInverse (i : Nat) : Nat :=
  let base := (i + spacing - 1) / spacing * spacing
  doubleWord (((leadingInverse base - 1) * 5 ^ (base - i)) >>> (powerBits base - powerBits i) + 1)

/-- The correction of `5 ^ i`. A stored power needs none. -/
def powerCorrection (i : Nat) : Nat :=
  if i % spacing = 0 then 0 else leadingPower i - approximatePower i

/-- The correction of the inverse of `5 ^ i`. A stored inverse needs none. -/
def inverseCorrection (i : Nat) : Nat :=
  if i % spacing = 0 then 0 else leadingInverse i - approximateInverse i

/-- Corrections of two bits each, sixteen to a number, up to the power `last`. -/
def pack (correction : Nat → Nat) (last : Nat) : List Nat :=
  (List.range (last / 16 + 1)).map fun row =>
    (List.range 16).foldl (fun mask column =>
      if row * 16 + column ≤ last then
        mask ||| correction (row * 16 + column) <<< (column * 2)
      else mask) 0

/-- The tables by their rule. -/
def computedTables : List Table :=
  named ((List.range spacing).map (5 ^ ·))
    ((List.range (maxPower / spacing + 1)).map fun b => .ofNat (leadingPower (b * spacing)))
    ((List.range inverseCount).map fun b => .ofNat (leadingInverse (b * spacing)))
    (pack powerCorrection maxPower)
    (pack inverseCorrection maxInverse)

end FormattedOutput.PowerTable
