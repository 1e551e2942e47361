import Mathlib.Algebra.Order.Field.Power
import Mathlib.Data.Rat.Cast.Order
import Mathlib.Tactic.FieldSimp
import Mathlib.Tactic.Linarith
import Mathlib.Tactic.NormNum
import Mathlib.Tactic.Positivity
import Mathlib.Tactic.Ring
import ProtoSchema.Decimal.Binary64

set_option autoImplicit false

/-! # The values of doubles

The interchange formats give the value of a word by its sign, its exponent field and its fraction
(`BinaryFormat.value?`). `Binary64.decode` reads the same value (`Binary64.value?_eq`), and widening
a single keeps it (`Binary64.value?_ofBinary32`). A finite double has a mantissa and an exponent in
a certain range (`Canonical`), and every pair in that range belongs to a double. -/

namespace ProtoSchema

/-! ## Signs -/

/-- A magnitude with a sign. -/
def signed (negative : Bool) (q : ℚ) : ℚ :=
  if negative then -q else q

theorem abs_signed (negative : Bool) (q : ℚ) : |signed negative q| = |q| := by
  cases negative with
  | false => rfl
  | true => exact abs_neg q

theorem abs_signed_sub_signed (negative : Bool) (q r : ℚ) :
    |signed negative q - signed negative r| = |q - r| := by
  cases negative with
  | false => rfl
  | true =>
    show |-q - -r| = |q - r|
    rw [neg_sub_neg, abs_sub_comm]

@[simp] theorem signed_signed (negative : Bool) (q : ℚ) :
    signed negative (signed negative q) = q := by
  cases negative
  · rfl
  · exact neg_neg q

theorem signed_natCast (negative : Bool) (n : ℕ) :
    signed negative n = ((if negative then -(n : ℤ) else n : ℤ) : ℚ) := by
  cases negative with
  | false => exact (Int.cast_natCast n).symm
  | true =>
    rw [if_pos rfl, Int.cast_neg, Int.cast_natCast]
    rfl

/-! ## Words and their values -/

/-- An interchange format: a sign bit, an exponent field and a fraction. -/
structure BinaryFormat where
  exponentBits : ℕ
  fractionBits : ℕ

namespace BinaryFormat

def single : BinaryFormat := ⟨8, 23⟩

def double : BinaryFormat := ⟨11, 52⟩

/-- What is subtracted from an exponent field. -/
def bias (f : BinaryFormat) : ℤ :=
  2 ^ (f.exponentBits - 1) - 1

/-- The value of three fields. The largest exponent field marks infinities and NaNs, the smallest
    one the numbers without a leading one. -/
def fieldValue? (f : BinaryFormat) (negative : Bool) (field fraction : ℕ) : Option ℚ :=
  if field = 2 ^ f.exponentBits - 1 then none
  else if field = 0 then some (signed negative (2 ^ (1 - f.bias) * (fraction / 2 ^ f.fractionBits)))
  else some (signed negative (2 ^ (field - f.bias) * (1 + fraction / 2 ^ f.fractionBits)))

/-- The value of a word, if it is finite. -/
def value? (f : BinaryFormat) (word : ℕ) : Option ℚ :=
  f.fieldValue? (word / 2 ^ (f.exponentBits + f.fractionBits) % 2 = 1)
    (word / 2 ^ f.fractionBits % 2 ^ f.exponentBits) (word % 2 ^ f.fractionBits)

theorem fieldValue?_of_max (f : BinaryFormat) (negative : Bool) {field : ℕ} (fraction : ℕ)
    (hmax : field = 2 ^ f.exponentBits - 1) : f.fieldValue? negative field fraction = none :=
  if_pos hmax

theorem fieldValue?_of_normal (f : BinaryFormat) (negative : Bool) {field : ℕ} (fraction : ℕ)
    (hmax : field ≠ 2 ^ f.exponentBits - 1) (hzero : field ≠ 0) {e : ℤ}
    (he : e = field - f.bias - f.fractionBits) : f.fieldValue? negative field fraction =
      some (signed negative ((2 ^ f.fractionBits + fraction : ℕ) * 2 ^ e)) := by
  have hscale : (2 : ℚ) ^ ((field : ℤ) - f.bias) = 2 ^ e * 2 ^ f.fractionBits := by
    rw [← zpow_natCast, ← zpow_add₀ two_ne_zero, he, sub_add_cancel]
  rw [fieldValue?, if_neg hmax, if_neg hzero, hscale]
  congr 2
  push_cast
  field_simp

theorem fieldValue?_of_small (f : BinaryFormat) (negative : Bool) (fraction : ℕ)
    (hmax : 0 ≠ 2 ^ f.exponentBits - 1) {e : ℤ} (he : e = 1 - f.bias - f.fractionBits) :
    f.fieldValue? negative 0 fraction = some (signed negative (fraction * 2 ^ e)) := by
  have hscale : (2 : ℚ) ^ (1 - f.bias) = 2 ^ e * 2 ^ f.fractionBits := by
    rw [← zpow_natCast, ← zpow_add₀ two_ne_zero, he, sub_add_cancel]
  rw [fieldValue?, if_neg hmax, if_pos rfl, hscale]
  congr 2
  field_simp

end BinaryFormat

namespace Binary64

/-- The value of a double, if it is finite. -/
def value? (x : Binary64) : Option ℚ :=
  BinaryFormat.double.value? x.bits.toNat

theorem value?_eq_fieldValue? (x : Binary64) :
    x.value? = BinaryFormat.double.fieldValue? x.negative x.exponentField x.fraction := by
  have hsign : x.negative = decide (x.bits.toNat / 2 ^ 63 % 2 = 1) := by
    have hbits := x.bits.toNat_lt
    rw [negative]
    simp only [Nat.pow_eq]
    exact decide_eq_decide.2 (by omega)
  rw [hsign]
  rfl

/-- The mantissa and the exponent that are read from a word give its value. -/
theorem value?_eq (x : Binary64) : x.value? = match x.decode with
    | .finite negative mantissa exponent => some (signed negative (mantissa * 2 ^ exponent))
    | _ => none := by
  rw [value?_eq_fieldValue?, decode]
  by_cases hmax : x.exponentField = 2047
  · rw [if_pos hmax, BinaryFormat.fieldValue?_of_max .double _ _ hmax]
    by_cases hfraction : x.fraction = 0 <;> simp [hfraction]
  by_cases hzero : x.exponentField = 0
  · rw [if_neg hmax, if_pos hzero, hzero]
    exact BinaryFormat.fieldValue?_of_small _ _ _ (by decide) (by decide)
  · rw [if_neg hmax, if_neg hzero]
    refine BinaryFormat.fieldValue?_of_normal _ _ _ hmax hzero ?_
    show (x.exponentField : ℤ) - 1075 = x.exponentField - 1023 - 52
    omega

theorem value?_of_decode {x : Binary64} {negative : Bool} {m : ℕ} {e : ℤ}
    (h : x.decode = .finite negative m e) : x.value? = some (signed negative (m * 2 ^ e)) := by
  rw [value?_eq, h]

theorem decode_of_value? {x : Binary64} {v : ℚ} (h : x.value? = some v) :
    ∃ negative m e, x.decode = .finite negative m e ∧ v = signed negative (m * 2 ^ e) := by
  rw [value?_eq] at h
  split at h
  · next negative m e hdecode => exact ⟨negative, m, e, hdecode, (Option.some.inj h).symm⟩
  · cases h

/-! ## Mantissas and exponents -/

end Binary64

/-- The mantissas and exponents of finite doubles. Only numbers with the smallest exponent may do
    without a leading one. -/
structure Canonical (m : ℕ) (e : ℤ) : Prop where
  mantissa_lt : m < 2 ^ 53
  exponent_ge : -1074 ≤ e
  exponent_le : e ≤ 971
  leading : -1074 < e → 2 ^ 52 ≤ m

namespace Binary64

theorem canonical_of_decode {x : Binary64} {negative : Bool} {m : ℕ} {e : ℤ}
    (h : x.decode = .finite negative m e) : Canonical m e := by
  have hfraction : x.fraction < 2 ^ 52 := Nat.mod_lt _ (by decide)
  have hfield : x.exponentField < 2 ^ 11 := Nat.mod_lt _ (by decide)
  unfold decode at h
  split at h
  · split at h <;> cases h
  · split at h
    · cases h
      exact ⟨by omega, by decide, by decide, fun hlt => absurd hlt (by decide)⟩
    · cases h
      simp only [Nat.pow_eq]
      exact ⟨by omega, by omega, by omega, fun _ => by omega⟩

/-- The last bit of a word is the last bit of the mantissa. -/
theorem mantissa_mod_two {x : Binary64} {negative : Bool} {m : ℕ} {e : ℤ}
    (h : x.decode = .finite negative m e) : m % 2 = x.bits.toNat % 2 := by
  unfold decode at h
  split at h
  · split at h <;> cases h
  · split at h
    · cases h
      simp only [fraction, Nat.pow_eq]
      omega
    · cases h
      simp only [fraction, Nat.pow_eq]
      omega

theorem toNat_ofFields (negative : Bool) {field fraction : ℕ} (hfield : field < 2 ^ 11)
    (hfraction : fraction < 2 ^ 52) : (ofFields negative field fraction).bits.toNat =
      (if negative then 2 ^ 63 else 0) + field * 2 ^ 52 + fraction := by
  rw [ofFields, UInt64.toNat_ofNat']
  simp only [Nat.pow_eq]
  refine Nat.mod_eq_of_lt ?_
  split <;> omega

theorem decode_ofFields (negative : Bool) {field fraction : ℕ} (hfield : field < 2 ^ 11)
    (hfraction : fraction < 2 ^ 52) : (ofFields negative field fraction).negative = negative ∧
      (ofFields negative field fraction).exponentField = field ∧
      (ofFields negative field fraction).fraction = fraction := by
  have hbits := toNat_ofFields negative hfield hfraction
  refine ⟨?_, ?_, ?_⟩
  · rw [Binary64.negative, hbits]
    simp only [Nat.pow_eq]
    cases negative with
    | false =>
      rw [if_neg Bool.false_ne_true]
      exact decide_eq_false (by omega)
    | true =>
      rw [if_pos rfl]
      exact decide_eq_true (by omega)
  · rw [exponentField, hbits]
    simp only [Nat.pow_eq]
    split <;> omega
  · rw [Binary64.fraction, hbits]
    simp only [Nat.pow_eq]
    split <;> omega

/-- Every pair in the range belongs to a double of either sign. -/
theorem exists_decode (negative : Bool) {m : ℕ} {e : ℤ} (h : Canonical m e) :
    ∃ x : Binary64, x.decode = .finite negative m e := by
  obtain ⟨hm, hmin, hmax, hleading⟩ := h
  by_cases hsmall : m < 2 ^ 52
  · obtain rfl : e = -1074 := by
      by_contra hne
      have := hleading (by omega)
      omega
    obtain ⟨hnegative, hfield, hfraction⟩ :=
      decode_ofFields negative (show 0 < 2 ^ 11 by decide) hsmall
    refine ⟨ofFields negative 0 m, ?_⟩
    rw [decode, hnegative, hfield, hfraction]
    rfl
  · obtain ⟨hnegative, hfield, hfraction⟩ :=
      decode_ofFields negative (show (e + 1075).toNat < 2 ^ 11 by omega)
        (show m - 2 ^ 52 < 2 ^ 52 by omega)
    have hmantissa : Nat.pow 2 52 + (m - 2 ^ 52) = m := Nat.add_sub_of_le (Nat.not_lt.1 hsmall)
    have hexponent : ((e + 1075).toNat : ℤ) - 1075 = e := by omega
    refine ⟨ofFields negative (e + 1075).toNat (m - 2 ^ 52), ?_⟩
    rw [decode, hnegative, hfield, hfraction, if_neg (by omega), if_neg (by omega), hmantissa,
      hexponent]

theorem exists_value (negative : Bool) {m : ℕ} {e : ℤ} (h : Canonical m e) :
    ∃ x : Binary64, x.value? = some (signed negative (m * 2 ^ e)) := by
  obtain ⟨x, hx⟩ := exists_decode negative h
  exact ⟨x, value?_of_decode hx⟩

/-! ## Widening -/

theorem value?_ofFields (negative : Bool) {field fraction : ℕ} (hfield : field < 2 ^ 11)
    (hfraction : fraction < 2 ^ 52) : (ofFields negative field fraction).value? =
      BinaryFormat.double.fieldValue? negative field fraction := by
  obtain ⟨hnegative, hexponent, htail⟩ := decode_ofFields negative hfield hfraction
  rw [value?_eq_fieldValue?, hnegative, hexponent, htail]

/-- A single without a leading one gets one as a double. -/
theorem shifted_mantissa {fraction : ℕ} (hpos : fraction ≠ 0) (hlt : fraction < 2 ^ 23) :
    fraction.log2 ≤ 22 ∧ 2 ^ 52 ≤ fraction * 2 ^ (52 - fraction.log2) ∧
      fraction * 2 ^ (52 - fraction.log2) < 2 ^ 53 := by
  have hlog : fraction.log2 ≤ 22 := Nat.le_of_lt_succ ((Nat.log2_lt hpos).2 hlt)
  have hscale : ∀ k, 2 ^ (fraction.log2 + k) * 2 ^ (52 - fraction.log2) = 2 ^ (52 + k) := by
    intro k
    rw [← pow_add]
    congr 1
    omega
  refine ⟨hlog, ?_, ?_⟩
  · rw [← hscale 0]
    exact Nat.mul_le_mul_right _ (Nat.log2_self_le hpos)
  · rw [← hscale 1]
    exact Nat.mul_lt_mul_of_pos_right Nat.lt_log2_self (Nat.two_pow_pos _)

theorem fieldValue?_widen_small (negative : Bool) {fraction : ℕ} (hpos : fraction ≠ 0)
    (hlt : fraction < 2 ^ 23) : BinaryFormat.double.fieldValue? negative (fraction.log2 + 874)
        (fraction * 2 ^ (52 - fraction.log2) - 2 ^ 52) =
      BinaryFormat.single.fieldValue? negative 0 fraction := by
  obtain ⟨hlog, hle, _⟩ := shifted_mantissa hpos hlt
  have hmantissa : 2 ^ BinaryFormat.double.fractionBits +
      (fraction * 2 ^ (52 - fraction.log2) - 2 ^ 52) = fraction * 2 ^ (52 - fraction.log2) := by
    show 2 ^ 52 + _ = _
    omega
  have hscale : (2 : ℚ) ^ (52 - fraction.log2) * 2 ^ ((fraction.log2 : ℤ) - 201) =
      2 ^ (-149 : ℤ) := by
    rw [← zpow_natCast, ← zpow_add₀ two_ne_zero]
    exact congrArg _ (by omega)
  rw [BinaryFormat.fieldValue?_of_normal .double negative _ (by show _ ≠ 2047; omega) (by omega)
      (e := fraction.log2 - 201) (by show _ = ((_ : ℕ) : ℤ) - 1023 - 52; omega),
    BinaryFormat.fieldValue?_of_small .single negative fraction (by decide) (e := -149) (by decide),
    hmantissa, Nat.cast_mul, mul_assoc, Nat.cast_pow, Nat.cast_ofNat, hscale]

theorem fieldValue?_widen_normal (negative : Bool) {field : ℕ} (fraction : ℕ) (hlt : field < 255)
    (hzero : field ≠ 0) :
    BinaryFormat.double.fieldValue? negative (field + 896) (fraction * 2 ^ 29) =
      BinaryFormat.single.fieldValue? negative field fraction := by
  have hmantissa : 2 ^ BinaryFormat.double.fractionBits + fraction * 2 ^ 29 =
      (2 ^ BinaryFormat.single.fractionBits + fraction) * 2 ^ 29 := by
    show 2 ^ 52 + _ = (2 ^ 23 + _) * _
    omega
  have hscale : (2 : ℚ) ^ 29 * 2 ^ ((field : ℤ) - 179) = 2 ^ ((field : ℤ) - 150) := by
    rw [← zpow_natCast, ← zpow_add₀ two_ne_zero]
    exact congrArg _ (by omega)
  rw [BinaryFormat.fieldValue?_of_normal .double negative _ (by show _ ≠ 2047; omega) (by omega)
      (e := field - 179) (by show _ = ((_ : ℕ) : ℤ) - 1023 - 52; omega),
    BinaryFormat.fieldValue?_of_normal .single negative _ (by show _ ≠ 255; omega) hzero
      (e := field - 150) (by show _ = (field : ℤ) - 127 - 23; omega),
    hmantissa, Nat.cast_mul, mul_assoc, Nat.cast_pow, Nat.cast_ofNat, hscale]

/-- Widening keeps the value: the double that a single is widened to has the value of the
    single. -/
theorem value?_ofBinary32 (bits : UInt32) :
    (ofBinary32 bits).value? = BinaryFormat.single.value? bits.toNat := by
  have hsign : decide (Nat.pow 2 31 ≤ bits.toNat) = decide (bits.toNat / 2 ^ 31 % 2 = 1) := by
    have hbits := bits.toNat_lt
    simp only [Nat.pow_eq]
    exact decide_eq_decide.2 (by omega)
  have hvalue : BinaryFormat.single.value? bits.toNat =
      BinaryFormat.single.fieldValue? (bits.toNat / 2 ^ 31 % 2 = 1)
        (bits.toNat / 2 ^ 23 % 2 ^ 8) (bits.toNat % 2 ^ 23) := rfl
  have hfield : bits.toNat / 2 ^ 23 % 2 ^ 8 < 2 ^ 8 := Nat.mod_lt _ (by decide)
  have hfraction : bits.toNat % 2 ^ 23 < 2 ^ 23 := Nat.mod_lt _ (by decide)
  rw [hvalue, ofBinary32]
  simp only [hsign, Nat.pow_eq]
  generalize decide (bits.toNat / 2 ^ 31 % 2 = 1) = sign
  generalize bits.toNat / 2 ^ 23 % 2 ^ 8 = field at hfield ⊢
  generalize bits.toNat % 2 ^ 23 = fraction at hfraction ⊢
  by_cases hmax : field = 255
  · rw [if_pos hmax, value?_ofFields _ (by decide) (by omega),
      BinaryFormat.fieldValue?_of_max .double _ _ (rfl : 2047 = 2 ^ 11 - 1),
      BinaryFormat.fieldValue?_of_max .single _ _ hmax]
  rw [if_neg hmax]
  by_cases hzero : field = 0
  · rw [if_pos hzero, hzero]
    by_cases hnone : fraction = 0
    · rw [if_pos hnone, hnone, value?_ofFields _ (by decide) (by decide),
        BinaryFormat.fieldValue?_of_small .double sign 0 (by decide) rfl,
        BinaryFormat.fieldValue?_of_small .single sign 0 (by decide) rfl]
      simp
    · obtain ⟨hlog, hle, hlt⟩ := shifted_mantissa hnone hfraction
      rw [if_neg hnone, value?_ofFields _ (by omega) (by omega),
        fieldValue?_widen_small sign hnone hfraction]
  · rw [if_neg hzero, value?_ofFields _ (by omega) (by omega),
      fieldValue?_widen_normal sign fraction (by omega) hzero]

end Binary64

end ProtoSchema
