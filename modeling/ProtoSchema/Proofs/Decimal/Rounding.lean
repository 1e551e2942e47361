import Mathlib.Tactic.LinearCombination
import ProtoSchema.Decimal.Shortest
import ProtoSchema.Proofs.Decimal.Value

set_option autoImplicit false

/-! # Rounding to the nearest double

`Binary64.IsNearest` says that a rational number rounds to a double, to the nearest one and to even
on a tie. Doubles next to each other are one unit of the last place apart, or half of that below a
power of two (`Canonical.gap`). So the numbers that round to a double form the interval around it
that `Interval.ofBinary` gives (`Binary64.Placed.isNearest_iff`). -/

namespace ProtoSchema

/-- The rational number `q` rounds to the double: no double is nearer, and if one of another value
    is as near, the last bit of this one is zero. A number halfway beyond the largest double or
    further rounds to none. -/
structure Binary64.IsNearest (x : Binary64) (q : ℚ) : Prop where
  finite : ∃ v, x.value? = some v
  bounded : |q| < 2 ^ 1024 - 2 ^ 970
  closest : ∀ {v w : ℚ} {y : Binary64}, x.value? = some v → y.value? = some w →
    |v - q| ≤ |w - q|
  even : ∀ {v w : ℚ} {y : Binary64}, x.value? = some v → y.value? = some w → w ≠ v →
    |w - q| = |v - q| → x.bits.toNat % 2 = 0

/-! ## Neighbours -/

/-- The distance from `m * 2 ^ e` to the double below it. -/
def spacingBelow (m : ℕ) (e : ℤ) : ℚ :=
  if m = 2 ^ 52 ∧ -1074 < e then 2 ^ (e - 1) else 2 ^ e

variable {m m' : ℕ} {e e' : ℤ}

theorem two_zpow_pos (e : ℤ) : (0 : ℚ) < 2 ^ e :=
  zpow_pos two_pos e

theorem magnitude_nonneg (m : ℕ) (e : ℤ) : (0 : ℚ) ≤ m * 2 ^ e :=
  mul_nonneg m.cast_nonneg (two_zpow_pos e).le

theorem two_zpow_succ (e : ℤ) : (2 : ℚ) ^ (e + 1) = 2 * 2 ^ e := by
  rw [zpow_add_one₀ two_ne_zero, mul_comm]

theorem two_zpow_eq_pred (e : ℤ) : (2 : ℚ) ^ e = 2 * 2 ^ (e - 1) := by
  rw [← two_zpow_succ, sub_add_cancel]

theorem spacingBelow_pos (m : ℕ) (e : ℤ) : 0 < spacingBelow m e := by
  unfold spacingBelow
  split <;> exact two_zpow_pos _

theorem spacingBelow_le (m : ℕ) (e : ℤ) : spacingBelow m e ≤ 2 ^ e := by
  unfold spacingBelow
  split
  · exact zpow_le_zpow_right₀ (by norm_num) (by omega)
  · exact le_rfl

/-- A whole multiple of a power is a whole multiple of each lower power. -/
theorem natCast_mul_zpow {b : ℚ} (base : ℕ) (hb : b = base) (hbase : base ≠ 0) (m : ℕ)
    (h : e' ≤ e) : (m : ℚ) * b ^ e = (m * base ^ (e - e').toNat : ℕ) * b ^ e' := by
  have hb' : b ≠ 0 := by
    rw [hb]
    exact_mod_cast hbase
  have hsplit : b ^ e = b ^ (e - e').toNat * b ^ e' := by
    rw [← zpow_natCast, ← zpow_add₀ hb']
    exact congrArg _ (by omega)
  rw [hsplit, Nat.cast_mul, Nat.cast_pow, ← hb, mul_assoc]

/-- No double lies strictly between a double and its neighbours. -/
theorem Canonical.gap (h : Canonical m e) (h' : Canonical m' e') :
    (m' : ℚ) * 2 ^ e' = m * 2 ^ e ∨ (m' : ℚ) * 2 ^ e' ≤ m * 2 ^ e - spacingBelow m e ∨
      (m : ℚ) * 2 ^ e + 2 ^ e ≤ m' * 2 ^ e' := by
  have hpos := two_zpow_pos e
  rcases lt_or_ge e' e with hlt | hle
  · -- smaller exponents go up to the end of the binade below
    right; left
    have hlead : 2 ^ 52 ≤ m := h.leading (by have := h'.exponent_ge; omega)
    have hbelow : (m' : ℚ) * 2 ^ e' ≤ (2 ^ 53 - 1) * 2 ^ (e - 1) := by
      have hm' : (m' : ℚ) + 1 ≤ 2 ^ 53 := by exact_mod_cast h'.mantissa_lt
      have hexp : (2 : ℚ) ^ e' ≤ 2 ^ (e - 1) := zpow_le_zpow_right₀ (by norm_num) (by omega)
      exact mul_le_mul (by linarith) hexp (two_zpow_pos e').le (by norm_num)
    have htwo := two_zpow_eq_pred e
    have hhalf := two_zpow_pos (e - 1)
    unfold spacingBelow
    split
    · next hpow =>
      rw [hpow.1]
      push_cast
      linarith
    · next hother =>
      have hm : 2 ^ 52 + 1 ≤ m := by
        have := h'.exponent_ge
        omega
      have hmq : (2 ^ 52 + 1 : ℚ) ≤ m := by exact_mod_cast hm
      have hscaled := mul_le_mul_of_nonneg_right hmq hpos.le
      linarith
  · rw [natCast_mul_zpow 2 Nat.cast_ofNat.symm two_ne_zero m' hle]
    generalize m' * 2 ^ (e' - e).toNat = n
    rcases lt_trichotomy n m with hnm | rfl | hnm
    · right; left
      have hnq : (n : ℚ) + 1 ≤ m := by exact_mod_cast hnm
      have hscaled := mul_le_mul_of_nonneg_right hnq hpos.le
      have := spacingBelow_le m e
      linarith
    · exact .inl rfl
    · right; right
      have hnq : (m : ℚ) + 1 ≤ n := by exact_mod_cast hnm
      have hscaled := mul_le_mul_of_nonneg_right hnq hpos.le
      linarith

theorem Canonical.exists_below (h : Canonical m e) (hm : 0 < m) : ∃ m' e', Canonical m' e' ∧
    (m' : ℚ) * 2 ^ e' = m * 2 ^ e - spacingBelow m e := by
  obtain ⟨hlt, hmin, hmax, hlead⟩ := h
  unfold spacingBelow
  split
  · next hpow =>
    refine ⟨2 ^ 53 - 1, e - 1, ⟨by decide, by omega, by omega, fun _ => by decide⟩, ?_⟩
    rw [hpow.1, two_zpow_eq_pred e]
    push_cast
    ring
  · next hother =>
    refine ⟨m - 1, e, ⟨by omega, hmin, hmax, fun he => ?_⟩, ?_⟩
    · have := hlead he
      omega
    · rw [Nat.cast_sub hm]
      push_cast
      ring

theorem Canonical.exists_above (h : Canonical m e) (he : e ≤ 970) : ∃ m' e', Canonical m' e' ∧
    (m' : ℚ) * 2 ^ e' = m * 2 ^ e + 2 ^ e := by
  obtain ⟨hlt, hmin, hmax, hlead⟩ := h
  by_cases hend : m + 1 = 2 ^ 53
  · refine ⟨2 ^ 52, e + 1, ⟨by decide, by omega, by omega, fun _ => le_rfl⟩, ?_⟩
    have hm : (m : ℚ) + 1 = 2 ^ 53 := by exact_mod_cast hend
    rw [two_zpow_succ]
    push_cast
    linear_combination -(2 : ℚ) ^ e * hm
  · refine ⟨m + 1, e, ⟨by omega, hmin, hmax, fun he => ?_⟩, ?_⟩
    · have := hlead he
      omega
    · push_cast
      ring

/-! ## Intervals -/

/-- A power with an integer exponent as a quotient of powers. -/
theorem zpow_eq_div (b : ℚ) (hb : b ≠ 0) (e : ℤ) : b ^ e = b ^ e.toNat / b ^ (-e).toNat := by
  rw [eq_div_iff (pow_ne_zero _ hb), ← zpow_natCast, ← zpow_natCast, ← zpow_add₀ hb]
  exact congrArg _ (by omega)

namespace Decimal

/-- The value of a decimal. -/
def toRat (d : Decimal) : ℚ :=
  d.coefficient * 10 ^ d.exponent

namespace Interval

def bottom (i : Interval) : ℚ := i.low / i.scale

def value (i : Interval) : ℚ := i.centre / i.scale

def top (i : Interval) : ℚ := i.high / i.scale

/-- A number lies in the interval; the ends do only if it is closed. -/
structure Covers (i : Interval) (q : ℚ) : Prop where
  bottom_le : i.bottom ≤ q
  le_top : q ≤ i.top
  closed : q = i.bottom ∨ q = i.top → i.closed = true

theorem value_ofBinary (m : ℕ) (e : ℤ) : (ofBinary m e).value = m * 2 ^ e := by
  have hscale : (2 : ℚ) ^ (-e).toNat ≠ 0 := pow_ne_zero _ two_ne_zero
  rw [value, ofBinary, zpow_eq_div 2 two_ne_zero e]
  simp only [Nat.pow_eq]
  push_cast
  field_simp

theorem top_ofBinary (m : ℕ) (e : ℤ) : (ofBinary m e).top = m * 2 ^ e + 2 ^ e / 2 := by
  have hscale : (2 : ℚ) ^ (-e).toNat ≠ 0 := pow_ne_zero _ two_ne_zero
  rw [top, ofBinary, zpow_eq_div 2 two_ne_zero e]
  simp only [Nat.pow_eq]
  push_cast
  field_simp
  ring

theorem bottom_ofBinary (hm : 0 < m) (e : ℤ) :
    (ofBinary m e).bottom = m * 2 ^ e - spacingBelow m e / 2 := by
  have hscale : (2 : ℚ) ^ (-e).toNat ≠ 0 := pow_ne_zero _ two_ne_zero
  have hend : ∀ gap ≤ 4, ((4 * m - gap : ℕ) * 2 ^ e.toNat : ℚ) / (4 * 2 ^ (-e).toNat) =
      m * 2 ^ e - gap * 2 ^ e / 4 := by
    intro gap hgap
    rw [Nat.cast_sub (by omega), zpow_eq_div 2 two_ne_zero e]
    push_cast
    field_simp
  have hbottom : (ofBinary m e).bottom =
      ((4 * m - (if m = 2 ^ 52 ∧ -1074 < e then 1 else 2) : ℕ) * 2 ^ e.toNat : ℚ) /
        (4 * 2 ^ (-e).toNat) := by
    rw [bottom, ofBinary]
    simp only [Nat.pow_eq, Binary64.minExponent]
    push_cast
    rfl
  rw [hbottom, spacingBelow]
  split
  · rw [hend 1 (by decide), two_zpow_eq_pred e]
    push_cast
    ring
  · rw [hend 2 (by decide)]
    push_cast
    ring

theorem bottom_ofBinary_pos (hm : 0 < m) (e : ℤ) : 0 < (ofBinary m e).bottom := by
  have hstep := two_zpow_pos e
  have hspacing := spacingBelow_le m e
  have hone : (1 : ℚ) ≤ m := by exact_mod_cast hm
  have hscaled := mul_le_mul_of_nonneg_right hone hstep.le
  rw [bottom_ofBinary hm]
  linarith

theorem Covers.pos (hm : 0 < m) {q : ℚ} (h : (ofBinary m e).Covers q) : 0 < q :=
  (bottom_ofBinary_pos hm e).trans_le h.bottom_le

/-- The comparisons of `Interval.contains` on natural numbers are those of the rational numbers. -/
theorem contains_iff {i : Interval} (hscale : 0 < i.scale) (d : Decimal) :
    i.contains d = true ↔ i.Covers d.toRat := by
  have hscaleq : (0 : ℚ) < i.scale := by exact_mod_cast hscale
  have hpow : (0 : ℚ) < 10 ^ (-d.exponent).toNat := by positivity
  have hrat : d.toRat = (d.coefficient * 10 ^ d.exponent.toNat) / 10 ^ (-d.exponent).toNat := by
    rw [toRat, zpow_eq_div 10 (by norm_num), mul_div_assoc]
  have hle : ∀ a : ℕ, (a : ℚ) / i.scale ≤ d.toRat ↔ a * 10 ^ (-d.exponent).toNat ≤
      d.coefficient * 10 ^ d.exponent.toNat * i.scale := by
    intro a
    rw [hrat, div_le_div_iff₀ hscaleq hpow]
    exact_mod_cast Iff.rfl
  have hge : ∀ a : ℕ, d.toRat ≤ (a : ℚ) / i.scale ↔ d.coefficient * 10 ^ d.exponent.toNat * i.scale
      ≤ a * 10 ^ (-d.exponent).toNat := by
    intro a
    rw [hrat, div_le_div_iff₀ hpow hscaleq]
    exact_mod_cast Iff.rfl
  rw [contains]
  simp only [Nat.pow_eq]
  cases hclosed : i.closed with
  | true =>
    rw [if_pos rfl, Bool.and_eq_true, decide_eq_true_eq, decide_eq_true_eq, ← hle, ← hge]
    exact ⟨fun h => ⟨h.1, h.2, fun _ => hclosed⟩, fun h => ⟨h.bottom_le, h.le_top⟩⟩
  | false =>
    rw [if_neg Bool.false_ne_true, Bool.and_eq_true, decide_eq_true_eq, decide_eq_true_eq,
      ← not_le, ← not_le, ← hge, ← hle, not_le, not_le]
    constructor
    · rintro ⟨hbottom, htop⟩
      refine ⟨hbottom.le, htop.le, ?_⟩
      rintro (heq | heq)
      · exact absurd heq hbottom.ne'
      · exact absurd heq htop.ne
    · intro h
      refine ⟨h.bottom_le.lt_of_ne fun heq => ?_, h.le_top.lt_of_ne fun heq => ?_⟩
      · rw [h.closed (.inl heq.symm)] at hclosed
        cases hclosed
      · rw [h.closed (.inr heq)] at hclosed
        cases hclosed

end Interval

end Decimal

open Decimal (Interval)
open Decimal.Interval

/-! ## The numbers that round to a double -/

theorem abs_sub_le_of_lt {a b q : ℚ} (h : b < a) : |a - q| ≤ |b - q| ↔ (a + b) / 2 ≤ q := by
  constructor
  · intro hle
    rcases abs_cases (a - q) with ⟨ha, _⟩ | ⟨ha, _⟩ <;>
      rcases abs_cases (b - q) with ⟨hb, _⟩ | ⟨hb, _⟩ <;> rw [ha, hb] at hle <;> linarith
  · intro hle
    rcases abs_cases (a - q) with ⟨ha, _⟩ | ⟨ha, _⟩ <;>
      rcases abs_cases (b - q) with ⟨hb, _⟩ | ⟨hb, _⟩ <;> rw [ha, hb] <;> linarith

theorem abs_sub_le_of_gt {a b q : ℚ} (h : a < b) : |a - q| ≤ |b - q| ↔ q ≤ (a + b) / 2 := by
  have hneg := abs_sub_le_of_lt (q := -q) (neg_lt_neg h)
  rw [neg_sub_neg, neg_sub_neg, abs_sub_comm q a, abs_sub_comm q b] at hneg
  rw [hneg]
  constructor <;> intro hle <;> linarith

theorem abs_sub_eq_of_ne {a b q : ℚ} (h : b ≠ a) : |b - q| = |a - q| ↔ q = (a + b) / 2 := by
  rw [abs_eq_abs]
  constructor
  · rintro (heq | heq)
    · exact absurd (sub_left_injective heq) h
    · linarith
  · intro heq
    right
    linarith

namespace Binary64

/-- No double of either sign lies strictly between a double and its neighbours. -/
theorem signed_gap (h : Canonical m e) (hm : 0 < m) {y : Binary64} {w : ℚ}
    (hy : y.value? = some w) (negative : Bool) :
    signed negative w = m * 2 ^ e ∨ signed negative w ≤ m * 2 ^ e - spacingBelow m e ∨
      (m : ℚ) * 2 ^ e + 2 ^ e ≤ signed negative w := by
  obtain ⟨negative', m', e', hdecode, rfl⟩ := decode_of_value? hy
  have hgap := h.gap (canonical_of_decode hdecode)
  have hother : -((m' : ℚ) * 2 ^ e') ≤ m * 2 ^ e - spacingBelow m e := by
    obtain ⟨m₀, e₀, _, hbelow⟩ := h.exists_below hm
    have hbelow₀ := magnitude_nonneg m₀ e₀
    have hmagnitude := magnitude_nonneg m' e'
    linarith
  cases negative <;> cases negative'
  · exact hgap
  · exact .inr (.inl hother)
  · exact .inr (.inl hother)
  · rw [signed_signed]
    exact hgap

/-- A double with its neighbours, of which the upper one is a double as well. -/
structure Placed (x : Binary64) (negative : Bool) (m : ℕ) (e : ℤ) : Prop where
  decode : x.decode = .finite negative m e
  pos : 0 < m
  small : e ≤ 970

variable {x : Binary64} {negative : Bool} (h : Placed x negative m e)

include h

theorem Placed.canonical : Canonical m e :=
  canonical_of_decode h.decode

theorem Placed.value : x.value? = some (signed negative (m * 2 ^ e)) :=
  value?_of_decode h.decode

theorem Placed.closed_iff : (Interval.ofBinary m e).closed = true ↔ x.bits.toNat % 2 = 0 := by
  rw [← mantissa_mod_two h.decode]
  exact decide_eq_true_iff

theorem Placed.exists_below :
    ∃ y : Binary64, y.value? = some (signed negative (m * 2 ^ e - spacingBelow m e)) := by
  obtain ⟨m', e', hcanonical, heq⟩ := h.canonical.exists_below h.pos
  rw [← heq]
  exact exists_value negative hcanonical

theorem Placed.exists_above :
    ∃ y : Binary64, y.value? = some (signed negative (m * 2 ^ e + 2 ^ e)) := by
  obtain ⟨m', e', hcanonical, heq⟩ := h.canonical.exists_above h.small
  rw [← heq]
  exact exists_value negative hcanonical

/-- What rounds to a double from halfway to another one rounds to an even one. -/
theorem Placed.closed_of_tie {q b : ℚ} {y : Binary64} (hq : x.IsNearest (signed negative q))
    (hy : y.value? = some (signed negative b)) (hne : b ≠ m * 2 ^ e)
    (htie : q = (m * 2 ^ e + b) / 2) : (Interval.ofBinary m e).closed = true := by
  refine h.closed_iff.2 (hq.even h.value hy (fun hsame => hne ?_) ?_)
  · have hsigned := congrArg (signed negative) hsame
    rwa [signed_signed, signed_signed] at hsigned
  · rw [abs_signed_sub_signed, abs_signed_sub_signed]
    exact (abs_sub_eq_of_ne hne).2 htie

/-- What rounds to a double is no further away than halfway to its neighbours. -/
theorem Placed.covers_of_isNearest {q : ℚ} (hq : x.IsNearest (signed negative q)) :
    (Interval.ofBinary m e).Covers q := by
  have hstep := two_zpow_pos e
  have hspacing := spacingBelow_pos m e
  obtain ⟨y, hy⟩ := h.exists_below
  obtain ⟨z, hz⟩ := h.exists_above
  have hlow := hq.closest h.value hy
  have hhigh := hq.closest h.value hz
  rw [abs_signed_sub_signed, abs_signed_sub_signed] at hlow hhigh
  rw [abs_sub_le_of_lt (by linarith)] at hlow
  rw [abs_sub_le_of_gt (by linarith)] at hhigh
  refine ⟨?_, ?_, ?_⟩
  · rw [bottom_ofBinary h.pos]
    linarith
  · rw [top_ofBinary]
    linarith
  · rw [bottom_ofBinary h.pos, top_ofBinary]
    rintro (heq | heq)
    · exact h.closed_of_tie hq hy (by linarith) (by linarith)
    · exact h.closed_of_tie hq hz (by linarith) (by linarith)

theorem Placed.top_lt : (Interval.ofBinary m e).top < 2 ^ 1024 - 2 ^ 970 := by
  have hm : (m : ℚ) + 1 ≤ 2 ^ 53 := by exact_mod_cast h.canonical.mantissa_lt
  have hexponent : (2 : ℚ) ^ e ≤ 2 ^ 970 :=
    (zpow_le_zpow_right₀ (by norm_num) h.small).trans_eq (zpow_natCast 2 970)
  have hpos := two_zpow_pos e
  have hhalf : (2 : ℚ) ^ 970 < 2 ^ 1023 := pow_lt_pow_right₀ (by norm_num) (by decide)
  rw [top_ofBinary]
  calc (m : ℚ) * 2 ^ e + 2 ^ e / 2 = (m + 1 / 2) * 2 ^ e := by ring
    _ ≤ 2 ^ 53 * 2 ^ 970 := mul_le_mul (by linarith) hexponent hpos.le (by positivity)
    _ = 2 ^ 1023 := (pow_add 2 53 970).symm
    _ = 2 ^ 1024 - 2 ^ 1023 := by rw [pow_succ' 2 1023, two_mul, add_sub_cancel_right]
    _ < 2 ^ 1024 - 2 ^ 970 := sub_lt_sub_left hhalf _

/-- What is at most halfway to the neighbours rounds to the double. -/
theorem Placed.isNearest_of_covers {q : ℚ} (hq : (Interval.ofBinary m e).Covers q) :
    x.IsNearest (signed negative q) := by
  have hstep := two_zpow_pos e
  have hspacing := spacingBelow_pos m e
  have hbottom := hq.bottom_le
  have htop := hq.le_top
  rw [bottom_ofBinary h.pos] at hbottom
  rw [top_ofBinary] at htop
  have hdistance : ∀ w : ℚ, |w - signed negative q| = |signed negative w - q| := by
    intro w
    rw [← abs_signed_sub_signed negative w, signed_signed]
  have hvalue : ∀ {v : ℚ}, x.value? = some v → v = signed negative (m * 2 ^ e) :=
    fun hv => Option.some.inj (hv.symm.trans h.value)
  refine ⟨⟨_, h.value⟩, ?_, ?_, ?_⟩
  · rw [abs_signed, abs_of_pos (hq.pos h.pos)]
    exact hq.le_top.trans_lt h.top_lt
  · intro v w y hv hw
    rw [hvalue hv, hdistance, hdistance, signed_signed]
    rcases signed_gap h.canonical h.pos hw negative with heq | hle | hge
    · rw [heq]
    · exact (abs_sub_le_of_lt (by linarith)).2 (by linarith)
    · exact (abs_sub_le_of_gt (by linarith)).2 (by linarith)
  · intro v w y hv hw hne htie
    rw [hvalue hv] at hne htie
    rw [hdistance, hdistance, signed_signed] at htie
    have hne' : signed negative w ≠ m * 2 ^ e := by
      intro heq
      rw [← heq, signed_signed] at hne
      exact hne rfl
    rw [abs_sub_eq_of_ne hne'] at htie
    refine h.closed_iff.1 (hq.closed ?_)
    rw [bottom_ofBinary h.pos, top_ofBinary]
    rcases signed_gap h.canonical h.pos hw negative with heq | hle | hge
    · exact absurd heq hne'
    · left
      linarith
    · right
      linarith

/-- The numbers that round to a double are those in its interval. -/
theorem Placed.isNearest_iff (q : ℚ) :
    x.IsNearest (signed negative q) ↔ (Interval.ofBinary m e).Covers q :=
  ⟨h.covers_of_isNearest, h.isNearest_of_covers⟩

end Binary64

end ProtoSchema
