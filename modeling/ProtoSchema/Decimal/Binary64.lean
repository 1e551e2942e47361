set_option autoImplicit false

/-! # Binary floating-point numbers by their bits

A double is its 64-bit word. `Binary64.decode` reads the word as a sign, a natural mantissa and a
power of two, so that every later step is exact arithmetic on natural numbers; a single is widened
to the double of the same value first. -/

namespace ProtoSchema

/-- A double, given by its bits. -/
structure Binary64 where
  bits : UInt64
deriving DecidableEq

namespace Binary64

/-- What a double stands for. A finite one has the value `± mantissa * 2 ^ exponent`. -/
inductive Value where
  | nan
  | infinite (negative : Bool)
  | finite (negative : Bool) (mantissa : Nat) (exponent : Int)
deriving DecidableEq

/-! ## The fields of the word -/

/-- Whether the sign bit is set. -/
def negative (x : Binary64) : Bool :=
  Nat.pow 2 63 ≤ x.bits.toNat

/-- The biased exponent, eleven bits. -/
def exponentField (x : Binary64) : Nat :=
  x.bits.toNat / Nat.pow 2 52 % Nat.pow 2 11

/-- The trailing part of the mantissa, 52 bits. -/
def fraction (x : Binary64) : Nat :=
  x.bits.toNat % Nat.pow 2 52

/-- The exponent of the smallest numbers and the spacing of their grid. -/
def minExponent : Int := -1074

/-- Read the word: the largest exponent field marks infinities and NaNs, the smallest one the
    numbers without a leading one. -/
def decode (x : Binary64) : Value :=
  if x.exponentField = 2047 then
    if x.fraction = 0 then .infinite x.negative else .nan
  else if x.exponentField = 0 then .finite x.negative x.fraction minExponent
  else .finite x.negative (Nat.pow 2 52 + x.fraction) ((x.exponentField : Int) - 1075)

/-- Whether the number is zero, of either sign. -/
def isZero (x : Binary64) : Bool :=
  x.exponentField = 0 && x.fraction = 0

/-- The word with the given fields. -/
def ofFields (negative : Bool) (exponentField fraction : Nat) : Binary64 :=
  ⟨UInt64.ofNat ((if negative then Nat.pow 2 63 else 0) + exponentField * Nat.pow 2 52 + fraction)⟩

/-! ## Widening -/

/-- The double of the same value as a single. Every single that is not zero, infinite or a NaN
    becomes a double with a leading one, also those that have none themselves. -/
def ofBinary32 (bits : UInt32) : Binary64 :=
  let sign : Bool := Nat.pow 2 31 ≤ bits.toNat
  let field := bits.toNat / Nat.pow 2 23 % Nat.pow 2 8
  let fraction := bits.toNat % Nat.pow 2 23
  if field = 255 then ofFields sign 2047 (fraction * Nat.pow 2 29)
  else if field = 0 then
    if fraction = 0 then ofFields sign 0 0
    else
      ofFields sign (fraction.log2 + 874) (fraction * Nat.pow 2 (52 - fraction.log2) - Nat.pow 2 52)
  else ofFields sign (field + 896) (fraction * Nat.pow 2 29)

/-- The zero test agrees with the value. -/
theorem isZero_iff (x : Binary64) :
    x.isZero = true ↔ ∃ sign exponent, x.decode = .finite sign 0 exponent := by
  simp only [isZero, decode, Bool.and_eq_true, decide_eq_true_eq]
  constructor
  · rintro ⟨h, h'⟩
    exact ⟨x.negative, minExponent, by simp [h, h']⟩
  · rintro ⟨sign, exponent, h⟩
    split at h
    · split at h <;> simp at h
    · split at h
      · simp_all
      · simp at h

end Binary64

end ProtoSchema
