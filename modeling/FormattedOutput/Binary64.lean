import FormattedOutput.Decimal.Shortest

/-!
# Binary64 values

A binary64 value is a sign, a biased exponent of 11 bits and a fraction of 52 bits. Everything
here works on these three fields.
-/

namespace FormattedOutput

/-- The three fields of a binary64 value. -/
structure Binary64 where
  negative : Bool
  /-- The biased exponent, 11 bits. -/
  exponent : Nat
  /-- The fraction, 52 bits. -/
  fraction : Nat
  deriving DecidableEq, Repr

namespace Binary64

/-- What the fields of a value stand for. -/
inductive Class where
  | zero
  | subnormal
  | normal
  | infinite
  | nan
  deriving DecidableEq, Repr

/-- The fields of a bit pattern. -/
def ofBits (bits : UInt64) : Binary64 where
  negative := bits.toNat / 2 ^ (63 : Nat) % 2 = 1
  exponent := bits.toNat / 2 ^ (52 : Nat) % 2 ^ (11 : Nat)
  fraction := bits.toNat % 2 ^ (52 : Nat)

/-- The class of a value. -/
def classify (x : Binary64) : Class :=
  if x.exponent = 0 then
    if x.fraction = 0 then .zero else .subnormal
  else if x.exponent = 2047 then
    if x.fraction = 0 then .infinite else .nan
  else .normal

/-- A value that is a number other than zero and infinity. -/
def isFiniteNonzero (x : Binary64) : Bool :=
  x.classify = .normal || x.classify = .subnormal

/-- How many bits a number has, 0 for 0. -/
def bitLength (n : Nat) : Nat :=
  if n = 0 then 0 else n.log2 + 1

/-- The significand with its top bit at place 52, and the exponent of that top bit: the value is
`significand * 2 ^ (exponent - 52)`. A subnormal value is shifted up. -/
def normalized (x : Binary64) : Nat × Int :=
  if x.exponent = 0 then
    let shift := 53 - bitLength x.fraction
    (x.fraction <<< shift, -1022 - (shift : Int))
  else
    (2 ^ (52 : Nat) + x.fraction, (x.exponent : Int) - 1023)

/-- The shortest decimal that reads back as the value, for a finite value other than zero. -/
def shortest? (x : Binary64) : Option Decimal :=
  if x.isFiniteNonzero then some (Decimal.shortest x.fraction x.exponent) else none

/-- Equality of numbers: the two zeros are equal, and a NaN differs from everything. -/
def sameNumber (x y : Binary64) : Bool :=
  match x.classify, y.classify with
  | .nan, _ => false
  | _, .nan => false
  | .zero, .zero => true
  | _, _ => x = y

/-! ## From binary32 -/

/-- The bit pattern of the binary64 value that a binary32 pattern stands for. A NaN becomes a
quiet one. -/
def widen (bits : UInt32) : UInt64 :=
  let sign := bits.toNat / 2 ^ (31 : Nat)
  let exponent := bits.toNat / 2 ^ (23 : Nat) % 2 ^ (8 : Nat)
  let fraction := bits.toNat % 2 ^ (23 : Nat)
  let magnitude :=
    if exponent = 255 then
      2047 * 2 ^ (52 : Nat) +
        (if fraction = 0 then 0 else 2 ^ (51 : Nat) ||| fraction * 2 ^ (29 : Nat))
    else if exponent = 0 then
      if fraction = 0 then 0
      else
        let shift := 24 - bitLength fraction
        (897 - shift) * 2 ^ (52 : Nat) + (fraction <<< shift - 2 ^ (23 : Nat)) * 2 ^ (29 : Nat)
    else (exponent + 896) * 2 ^ (52 : Nat) + fraction * 2 ^ (29 : Nat)
  UInt64.ofNat (sign * 2 ^ (63 : Nat) + magnitude)

end Binary64

end FormattedOutput
