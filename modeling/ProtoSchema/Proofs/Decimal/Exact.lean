import ProtoSchema.Decimal.Number
import ProtoSchema.Proofs.Decimal.Reading
import ProtoSchema.Proofs.Decimal.Shortest

set_option autoImplicit false

/-! # Numbers are written exactly

Integers, and doubles whose value is an integer, are written by their decimal expansion. Every other
double is written by a literal that rounds to it, with as few digits as any
(`Number.text_exact`). -/

namespace ProtoSchema

namespace Decimal

/-- The text is a literal that rounds to the double, and no decimal that does has fewer significant
    digits: if one has a coefficient of at most `k` digits, then so has the literal. -/
def ShortestLiteral (s : String) (x : Binary64) : Prop :=
  ∃ negative d, readLiteral? s = some (negative, d) ∧ x.IsNearest (signed negative d.toRat) ∧
    ∀ (k : ℕ) (c e : ℤ), c.natAbs < 10 ^ k → x.IsNearest (c * 10 ^ e) → d.coefficient < 10 ^ k

/-! ## Whole numbers -/

section Magnitude

variable {m : ℕ} {e : ℤ}

theorem eq_of_wholeMagnitude? {n : ℕ} (h : wholeMagnitude? m e = some n) :
    (m : ℚ) * 2 ^ e = n := by
  rw [wholeMagnitude?] at h
  split at h
  · next hdvd =>
    obtain rfl := Option.some.inj h
    have hm : (m : ℚ) = (m / 2 ^ (-e).toNat : ℕ) * 2 ^ (-e).toNat := by
      exact_mod_cast (Nat.div_mul_cancel (Nat.dvd_of_mod_eq_zero hdvd)).symm
    have hscale : (2 : ℚ) ^ (-e).toNat ≠ 0 := pow_ne_zero _ two_ne_zero
    rw [zpow_eq_div 2 two_ne_zero e]
    simp only [Nat.pow_eq]
    rw [Nat.cast_mul, Nat.cast_pow, Nat.cast_ofNat, mul_div_assoc', eq_comm, eq_div_iff hscale,
      mul_right_comm, ← hm]
  · cases h

/-- A number without a whole magnitude has decimal places. -/
theorem ne_of_wholeMagnitude? (h : wholeMagnitude? m e = none) :
    e < 0 ∧ ∀ n : ℕ, (m : ℚ) * 2 ^ e ≠ n := by
  rw [wholeMagnitude?] at h
  split at h
  · cases h
  · next hdvd =>
    simp only [Nat.pow_eq] at hdvd
    have hneg : e < 0 := by
      by_contra hnonneg
      have hzero : (-e).toNat = 0 := by omega
      rw [hzero, pow_zero, Nat.mod_one] at hdvd
      exact hdvd rfl
    refine ⟨hneg, fun n hn => hdvd ?_⟩
    have hwhole : (m : ℚ) = (n * 2 ^ (-e).toNat : ℕ) := by
      have hscale : (2 : ℚ) ^ (-e).toNat * 2 ^ e = 1 := by
        rw [← zpow_natCast, ← zpow_add₀ two_ne_zero, show ((-e).toNat : ℤ) + e = 0 by omega,
          zpow_zero]
      push_cast
      rw [← hn, mul_assoc, mul_comm (2 ^ e), hscale, mul_one]
    have hnat : m = n * 2 ^ (-e).toNat := by exact_mod_cast hwhole
    rw [hnat]
    exact Nat.mul_mod_left _ _

end Magnitude

/-! ## Doubles -/

theorem eq_natAbs_of_signed {negative : Bool} {q : ℚ} (hq : 0 ≤ q) {n : ℤ}
    (h : (n : ℚ) = signed negative q) : q = n.natAbs := by
  rw [Nat.cast_natAbs, Int.cast_abs, h, abs_signed, abs_of_nonneg hq]

/-- A double whose value is an integer is written by the expansion of the integer. -/
theorem expands_doubleText {x : Binary64} {n : ℤ} (h : x.value? = some (n : ℚ)) :
    Expands (doubleText x) n := by
  obtain ⟨negative, m, e, hdecode, hvalue⟩ := Binary64.decode_of_value? h
  cases hwhole : wholeMagnitude? m e with
  | none =>
    exact absurd (eq_natAbs_of_signed (magnitude_nonneg m e) hvalue)
      ((ne_of_wholeMagnitude? hwhole).2 _)
  | some k =>
    rw [eq_of_wholeMagnitude? hwhole, signed_natCast] at hvalue
    have hn : n = if negative then -(k : ℤ) else k := Int.cast_injective hvalue
    have htext : doubleText x = intText (if negative then -(k : ℤ) else k) := by
      rw [doubleText, hdecode]
      simp only [hwhole]
    rw [htext, ← hn]
    exact expands_intText n

theorem wholeMagnitude?_eq_none {negative : Bool} {m : ℕ} {e : ℤ}
    (h : ∀ n : ℤ, signed negative (m * 2 ^ e) ≠ n) : wholeMagnitude? m e = none := by
  rw [Option.eq_none_iff_forall_ne_some]
  intro k hk
  rw [eq_of_wholeMagnitude? hk, signed_natCast] at h
  exact h _ rfl

/-- A decimal that rounds to a double has its sign. -/
theorem covers_natAbs {x : Binary64} {negative : Bool} {m : ℕ} {e : ℤ}
    (h : x.Placed negative m e) {c e' : ℤ} (hnearest : x.IsNearest (c * 10 ^ e')) :
    (Interval.ofBinary m e).Covers (c.natAbs * 10 ^ e') := by
  rw [← signed_signed negative (c * 10 ^ e'), h.isNearest_iff] at hnearest
  rw [← abs_of_pos (hnearest.pos h.pos), abs_signed, abs_mul, abs_of_pos (ten_zpow_pos e'),
    ← Int.cast_abs, ← Nat.cast_natAbs] at hnearest
  exact hnearest

/-- A double with decimal places is written by a shortest literal. -/
theorem shortestLiteral_doubleText {x : Binary64} {v : ℚ} (h : x.value? = some v)
    (hplaces : ∀ n : ℤ, v ≠ n) : ShortestLiteral (doubleText x) x := by
  obtain ⟨negative, m, e, hdecode, rfl⟩ := Binary64.decode_of_value? h
  have hwhole := wholeMagnitude?_eq_none hplaces
  obtain ⟨hneg, hfraction⟩ := ne_of_wholeMagnitude? hwhole
  have hm : 0 < m := by
    rw [Nat.pos_iff_ne_zero]
    rintro rfl
    exact hfraction 0 (by simp)
  have hplaced : x.Placed negative m e := ⟨hdecode, hm, by omega⟩
  obtain ⟨hpos, hcovers, hfewest⟩ := Interval.shortest_trim hplaced.canonical hm
  have htext : doubleText x = (if negative then "-" else "") ++
      ruleLayout.text (Interval.ofBinary m e).shortest.trim := by
    rw [doubleText, hdecode]
    simp only [hwhole]
  refine ⟨negative, (Interval.ofBinary m e).shortest.trim, ?_, (hplaced.isNearest_iff _).2 hcovers,
    fun k c e' hc hnearest => hfewest k c.natAbs e' hc (covers_natAbs hplaced hnearest)⟩
  rw [htext]
  exact readLiteral?_signed
    (readUnsigned?_layout hpos (hcovers.exponent_neg hm hneg.le hfraction) _) negative

end Decimal

/-- **Numbers are written exactly.** An integer is written by its decimal expansion. A single counts
    as the double of the same value. And a finite double is written by the decimal expansion of its
    value, if that is an integer, and otherwise by a literal that rounds to the double and has as
    few significant digits as any that does. -/
theorem Number.text_exact :
    (∀ n : ℤ, Decimal.Expands (int n).text n) ∧
      (∀ bits : UInt32,
        (Binary64.ofBinary32 bits).value? = BinaryFormat.single.value? bits.toNat) ∧
      ∀ (x : Binary64) (v : ℚ), x.value? = some v →
        (∀ n : ℤ, v = n → Decimal.Expands (double x).text n) ∧
        ((∀ n : ℤ, v ≠ n) → Decimal.ShortestLiteral (double x).text x) := by
  refine ⟨Decimal.expands_intText, Binary64.value?_ofBinary32, fun x v h => ⟨?_, ?_⟩⟩
  · rintro n rfl
    exact Decimal.expands_doubleText h
  · exact Decimal.shortestLiteral_doubleText h

/-- The double next to a tenth is written `0.1`, although its value has fifty-five decimal places,
    and the negative zero is written without its sign. -/
theorem Number.text_exact_tenth :
    (Binary64.mk 0x3FB999999999999A).value? = some (3602879701896397 / 2 ^ 55) ∧
      (double ⟨0x3FB999999999999A⟩).text = "0.1" ∧
      Decimal.ShortestLiteral "0.1" ⟨0x3FB999999999999A⟩ ∧
      (Binary64.mk 0x8000000000000000).value? = some 0 ∧
      Decimal.Expands (double ⟨0x8000000000000000⟩).text 0 := by
  have htenth : (Binary64.mk 0x3FB999999999999A).value? = some (3602879701896397 / 2 ^ 55) := by
    have hdecode : (Binary64.mk 0x3FB999999999999A).decode =
        .finite false 7205759403792794 (-56) := by decide
    rw [Binary64.value?_of_decode hdecode, signed]
    norm_num
  have hplaces : ∀ n : ℤ, (3602879701896397 / 2 ^ 55 : ℚ) ≠ n := by
    intro n hn
    have hpos : (0 : ℚ) < n := by
      rw [← hn]
      norm_num
    have hlt : (n : ℚ) < 1 := by
      rw [← hn]
      norm_num
    have hpos' : 0 < n := by exact_mod_cast hpos
    have hlt' : n < 1 := by exact_mod_cast hlt
    omega
  have hzero : (Binary64.mk 0x8000000000000000).value? = some 0 := by
    have hdecode : (Binary64.mk 0x8000000000000000).decode = .finite true 0 (-1074) := by decide
    rw [Binary64.value?_of_decode hdecode, signed]
    norm_num
  have htext : (double ⟨0x3FB999999999999A⟩).text = "0.1" := by decide +kernel
  have hshortest := (text_exact.2.2 ⟨0x3FB999999999999A⟩ _ htenth).2 hplaces
  rw [htext] at hshortest
  have hexpands := (text_exact.2.2 ⟨0x8000000000000000⟩ 0 hzero).1 0 Int.cast_zero.symm
  exact ⟨htenth, htext, hshortest, hzero, hexpands⟩

end ProtoSchema
