import ProtoSchema.Proofs.Decimal.Rounding

set_option autoImplicit false

/-! # The search for the shortest decimal

If a decimal of at most `k` digits lies in the interval of a double, then so does one of the two
neighbours of the double on the grid of decimals with `k` significant digits
(`Interval.exists_atDigits?`), and on the grid of seventeen digits one always does
(`Interval.exists_atDigits?_seventeen`). So the first grid with a hit gives the fewest digits
(`Interval.shortest_trim`). -/

namespace ProtoSchema.Decimal

/-! ## Digits and grids -/

theorem digitCount_bounds {n : ℕ} (h : 0 < n) :
    0 < digitCount n ∧ 10 ^ (digitCount n - 1) ≤ n ∧ n < 10 ^ digitCount n := by
  fun_induction digitCount n with
  | case1 n hsmall => exact ⟨one_pos, h, hsmall⟩
  | case2 n hlarge ih =>
    obtain ⟨hpos, hlow, hhigh⟩ := ih (by omega)
    obtain ⟨k, hk⟩ := Nat.exists_eq_add_of_lt hpos
    rw [Nat.zero_add] at hk
    rw [hk, Nat.add_sub_cancel] at hlow
    rw [hk] at hhigh
    rw [hk, Nat.add_sub_cancel]
    rw [pow_succ] at hhigh ⊢
    refine ⟨by omega, by omega, ?_⟩
    rw [pow_succ, pow_succ]
    omega

theorem ten_zpow_pos (e : ℤ) : (0 : ℚ) < 10 ^ e :=
  zpow_pos (by norm_num) e

theorem ten_zpow_le {e e' : ℤ} (h : e ≤ e') : (10 : ℚ) ^ e ≤ 10 ^ e' :=
  zpow_le_zpow_right₀ (by norm_num) h

/-- A power of ten on a grid. -/
theorem ten_pow_mul_zpow (k : ℕ) (e e' : ℤ) (h : e' = k + e) :
    ((10 ^ k : ℕ) : ℚ) * 10 ^ e = 10 ^ e' := by
  rw [Nat.cast_pow, h, zpow_add₀ (by norm_num), zpow_natCast]
  rfl

namespace Interval

/-- An interval around a value that shows a digit when it is scaled by the power of ten that the
    search uses. -/
structure Proper (i : Interval) : Prop where
  scale_pos : 0 < i.scale
  visible : 0 < i.floorAt (-324)
  inside : i.Covers i.value

theorem Covers.between {i : Interval} {p q r : ℚ} (hp : i.Covers p) (hr : i.Covers r)
    (hpq : p ≤ q) (hqr : q ≤ r) : i.Covers q := by
  refine ⟨hp.bottom_le.trans hpq, hqr.trans hr.le_top, ?_⟩
  rintro (heq | heq)
  · exact hp.closed (.inl (le_antisymm (hpq.trans heq.le) hp.bottom_le))
  · exact hr.closed (.inr (le_antisymm hr.le_top (heq.ge.trans hqr)))

theorem floorAt_neg (i : Interval) {e : ℤ} {n : ℕ} (he : e = -n) :
    i.floorAt e = i.centre * Nat.pow 10 n / i.scale := by
  have hup : (-e).toNat = n := by omega
  have hdown : e.toNat = 0 := by omega
  rw [floorAt, hup, hdown]
  exact congrArg _ (mul_one i.scale)

theorem magnitude_eq (i : Interval) {n : ℕ} (hn : n = 324) :
    i.magnitude = (digitCount (i.floorAt (-n)) : ℤ) - n := by
  rw [magnitude, floorAt_neg i rfl, ← hn]
  omega

section Search

variable {i : Interval} (hi : i.Proper)

include hi

/-- The points of a grid up to the value are those with a coefficient up to `floorAt`. -/
theorem le_floorAt_iff (n : ℕ) (e : ℤ) : n ≤ i.floorAt e ↔ (n : ℚ) * 10 ^ e ≤ i.value := by
  have hscale : (0 : ℚ) < i.scale := by exact_mod_cast hi.scale_pos
  have hpow : (0 : ℚ) < 10 ^ (-e).toNat := by positivity
  have hdivisor : 0 < i.scale * 10 ^ e.toNat := Nat.mul_pos hi.scale_pos (by positivity)
  rw [floorAt, value, zpow_eq_div 10 (by norm_num), ← mul_div_assoc, div_le_div_iff₀ hpow hscale]
  simp only [Nat.pow_eq]
  rw [Nat.le_div_iff_mul_le hdivisor, mul_comm i.scale, ← mul_assoc]
  exact_mod_cast Iff.rfl

theorem lt_of_floorAt_lt {n : ℕ} {e : ℤ} (h : i.floorAt e < n) : i.value < (n : ℚ) * 10 ^ e :=
  not_le.1 fun hle => absurd ((le_floorAt_iff hi n e).2 hle) (not_le.2 h)

theorem magnitude_bounds : 10 ^ (i.magnitude - 1) ≤ i.value ∧ i.value < 10 ^ i.magnitude := by
  have hmagnitude : i.magnitude = (digitCount (i.floorAt (-324)) : ℤ) - 324 := magnitude_eq i rfl
  obtain ⟨hpos, hlow, hhigh⟩ := digitCount_bounds hi.visible
  rw [le_floorAt_iff hi, ten_pow_mul_zpow _ _ (i.magnitude - 1) (by omega)] at hlow
  have hvalue := lt_of_floorAt_lt hi hhigh
  rw [ten_pow_mul_zpow _ _ i.magnitude (by omega)] at hvalue
  exact ⟨hlow, hvalue⟩

/-- On the grid with `k` digits, the coefficient below the value has `k` digits. -/
theorem floorAt_bounds {k : ℕ} (hk : 0 < k) :
    10 ^ (k - 1) ≤ i.floorAt (i.magnitude - k) ∧ i.floorAt (i.magnitude - k) < 10 ^ k := by
  obtain ⟨hlow, hhigh⟩ := magnitude_bounds hi
  constructor
  · rw [le_floorAt_iff hi, ten_pow_mul_zpow (k - 1) _ (i.magnitude - 1) (by omega)]
    exact hlow
  · rw [← not_le, le_floorAt_iff hi, ten_pow_mul_zpow k _ i.magnitude (by omega), not_le]
    exact hhigh

/-- A decimal of at most `k` digits is not above the value, or not below the next point of the
    grid; and if it is in the interval, one of the neighbours on the grid is. -/
theorem covers_neighbour {k c : ℕ} {e : ℤ} (hk : 0 < k) (hc : c < 10 ^ k)
    (hcovers : i.Covers (c * 10 ^ e)) :
    i.Covers ((i.floorAt (i.magnitude - k) : ℕ) * 10 ^ (i.magnitude - k)) ∨
      i.Covers ((i.floorAt (i.magnitude - k) + 1 : ℕ) * 10 ^ (i.magnitude - k)) := by
  obtain ⟨hmagnitude, _⟩ := magnitude_bounds hi
  obtain ⟨hfloor, _⟩ := floorAt_bounds hi hk
  generalize hgrid : i.magnitude - k = grid at hfloor ⊢
  have hpos := ten_zpow_pos grid
  have hle : ((i.floorAt grid : ℕ) : ℚ) * 10 ^ grid ≤ i.value := (le_floorAt_iff hi _ _).1 le_rfl
  have hlt : i.value < ((i.floorAt grid + 1 : ℕ) : ℚ) * 10 ^ grid :=
    lt_of_floorAt_lt hi (Nat.lt_succ_self _)
  rcases lt_or_ge e grid with hfine | hcoarse
  · -- on a finer grid, the decimal is below all decimals with the digits of the value
    have hshort : (c : ℚ) * 10 ^ e ≤ 10 ^ (i.magnitude - 1) := by
      rw [← ten_pow_mul_zpow k (grid - 1) (i.magnitude - 1) (by omega)]
      exact mul_le_mul (by exact_mod_cast hc.le) (ten_zpow_le (by omega)) (ten_zpow_pos e).le
        (Nat.cast_nonneg _)
    left
    refine hcovers.between hi.inside (hshort.trans ?_) hle
    rw [← ten_pow_mul_zpow (k - 1) grid (i.magnitude - 1) (by omega)]
    exact mul_le_mul_of_nonneg_right (by exact_mod_cast hfloor) hpos.le
  · rw [natCast_mul_zpow 10 Nat.cast_ofNat.symm (by decide) c hcoarse] at hcovers
    generalize c * 10 ^ (e - grid).toNat = n at hcovers
    rcases le_or_gt n (i.floorAt grid) with hn | hn
    · left
      refine hcovers.between hi.inside ?_ hle
      exact mul_le_mul_of_nonneg_right (by exact_mod_cast hn) hpos.le
    · right
      refine hi.inside.between hcovers hlt.le ?_
      exact mul_le_mul_of_nonneg_right (by exact_mod_cast hn) hpos.le

/-- The search on one grid fails only if both neighbours are outside. -/
theorem exists_atDigits?_of_covers {k : ℕ}
    (h : i.Covers ((i.floorAt (i.magnitude - k) : ℕ) * 10 ^ (i.magnitude - k)) ∨
      i.Covers ((i.floorAt (i.magnitude - k) + 1 : ℕ) * 10 ^ (i.magnitude - k))) :
    ∃ d, i.atDigits? k = some d := by
  have hlower := contains_iff hi.scale_pos ⟨i.floorAt (i.magnitude - k), i.magnitude - k⟩
  have hupper := contains_iff hi.scale_pos ⟨i.floorAt (i.magnitude - k) + 1, i.magnitude - k⟩
  rw [atDigits?]
  rcases h with h | h
  · rw [hlower.2 h]
    split <;> simp_all
  · rw [hupper.2 h]
    split <;> simp_all

/-- A decimal of at most `k` digits in the interval is found, or another one on the grid. -/
theorem exists_atDigits? {k c : ℕ} {e : ℤ} (hk : 0 < k) (hc : c < 10 ^ k)
    (hcovers : i.Covers (c * 10 ^ e)) : ∃ d, i.atDigits? k = some d :=
  exists_atDigits?_of_covers hi (covers_neighbour hi hk hc hcovers)

theorem atDigits?_eq_some {k : ℕ} {d : Decimal} (h : i.atDigits? k = some d) :
    i.Covers d.toRat ∧ (d.coefficient = i.floorAt (i.magnitude - k) ∨
      d.coefficient = i.floorAt (i.magnitude - k) + 1) := by
  rw [← contains_iff hi.scale_pos]
  rw [atDigits?] at h
  split at h
  · next hlower hupper =>
    rw [nearer] at h
    obtain rfl := Option.some.inj h
    split
    · exact ⟨hlower, .inl rfl⟩
    · split
      · exact ⟨hupper, .inr rfl⟩
      · split
        · exact ⟨hlower, .inl rfl⟩
        · exact ⟨hupper, .inr rfl⟩
  · next hlower _ =>
    obtain rfl := Option.some.inj h
    exact ⟨hlower, .inl rfl⟩
  · next _ hupper =>
    obtain rfl := Option.some.inj h
    exact ⟨hupper, .inr rfl⟩
  · cases h

/-- What is found on the grid with `k` digits has at most `k` digits, or is the next power of
    ten. -/
theorem coefficient_of_atDigits? {k : ℕ} {d : Decimal} (hk : 0 < k)
    (h : i.atDigits? k = some d) : 0 < d.coefficient ∧ d.coefficient ≤ 10 ^ k := by
  obtain ⟨hlow, hhigh⟩ := floorAt_bounds hi hk
  have hpos : 0 < 10 ^ (k - 1) := by positivity
  rcases (atDigits?_eq_some hi h).2 with heq | heq <;> omega

end Search

/-- The first grid with a hit gives the shortest decimal. -/
theorem shortest_first {i : Interval} (h : ∃ d, i.atDigits? maxDigits = some d) :
    ∃ k, 0 < k ∧ k ≤ maxDigits ∧ i.atDigits? k = some i.shortest ∧
      ∀ j, 0 < j → j < k → i.atDigits? j = none := by
  obtain ⟨d, hd⟩ := h
  have hfound : ∃ d, (List.range' 1 maxDigits).findSome? i.atDigits? = some d := by
    rw [← Option.isSome_iff_exists, List.findSome?_isSome_iff]
    exact ⟨maxDigits, by decide, by rw [hd]; rfl⟩
  obtain ⟨first, hfirst⟩ := hfound
  obtain ⟨before, k, after, hlist, hk, hbefore⟩ := List.findSome?_eq_some_iff.1 hfirst
  obtain ⟨n, hn, rfl, hafter⟩ := List.range'_eq_append_iff.1 hlist
  obtain ⟨rfl, _⟩ := List.range'_eq_cons_iff.1 hafter.symm
  rw [Nat.mul_one] at hk hafter
  refine ⟨1 + n, by omega, by omega, ?_, fun j hj hjk => hbefore j ?_⟩
  · rw [hk, shortest, hfirst, Option.getD_some]
  · rw [List.mem_range'_1]
    omega

end Interval

/-! ## Trailing zeros -/

theorem toRat_trim (d : Decimal) : d.trim.toRat = d.toRat := by
  fun_induction trim d with
  | case1 d h ih =>
    rw [ih, toRat, toRat, zpow_add_one₀ (by norm_num)]
    have htenth : (d.coefficient : ℚ) = (d.coefficient / 10 : ℕ) * 10 := by
      exact_mod_cast (Nat.div_mul_cancel (Nat.dvd_of_mod_eq_zero h.2)).symm
    rw [htenth]
    ring
  | case2 d h => rfl

theorem coefficient_trim_pos {d : Decimal} (h : 0 < d.coefficient) : 0 < d.trim.coefficient := by
  fun_induction trim d with
  | case1 d hzero ih =>
    refine ih ?_
    show 0 < d.coefficient / 10
    omega
  | case2 d hzero => exact h

theorem coefficient_trim_le (d : Decimal) : d.trim.coefficient ≤ d.coefficient := by
  fun_induction trim d with
  | case1 d h ih => exact ih.trans (Nat.div_le_self _ _)
  | case2 d h => exact le_rfl

/-- A power of ten has no more than one digit. -/
theorem coefficient_trim_lt {d : Decimal} {k : ℕ} (hk : 0 < k) (hpos : 0 < d.coefficient)
    (hle : d.coefficient ≤ 10 ^ k) : d.trim.coefficient < 10 ^ k := by
  rw [trim]
  split
  · have htrim := coefficient_trim_le ⟨d.coefficient / 10, d.exponent + 1⟩
    refine lt_of_le_of_lt htrim (lt_of_lt_of_le ?_ hle)
    show d.coefficient / 10 < d.coefficient
    omega
  · next hzero =>
    refine lt_of_le_of_ne hle fun heq => hzero ⟨hpos, ?_⟩
    rw [heq]
    exact Nat.mod_eq_zero_of_dvd (dvd_pow_self 10 (by omega))

/-! ## Intervals of doubles -/

namespace Interval

variable {m : ℕ} {e : ℤ}

/-- The smallest double is above `10 ^ (-324)`. -/
theorem floorAt_ofBinary_pos (h : Canonical m e) (hm : 0 < m) {q n : ℕ} (hq : q = 6)
    (hn : n = 54 * q) : 0 < (ofBinary m e).floorAt (-n) := by
  have hroot : 2 ^ 179 ≤ 10 ^ 54 := by norm_num
  have hexponent : (-e).toNat ≤ 179 * q := by
    have := h.exponent_ge
    omega
  have hpower : 2 ^ (-e).toNat ≤ 10 ^ n := by
    calc 2 ^ (-e).toNat ≤ 2 ^ (179 * q) := Nat.pow_le_pow_right two_pos hexponent
      _ = (2 ^ 179) ^ q := pow_mul 2 179 q
      _ ≤ (10 ^ 54) ^ q := Nat.pow_le_pow_left hroot q
      _ = 10 ^ n := by rw [← pow_mul, hn]
  rw [floorAt_neg _ rfl]
  refine Nat.div_pos ?_ (show 0 < 4 * 2 ^ (-e).toNat by positivity)
  show 4 * 2 ^ (-e).toNat ≤ 4 * m * 2 ^ e.toNat * 10 ^ n
  refine Nat.mul_le_mul ?_ hpower
  rw [mul_assoc]
  exact Nat.le_mul_of_pos_right _ (by positivity)

theorem proper_ofBinary (h : Canonical m e) (hm : 0 < m) : (ofBinary m e).Proper := by
  have hstep := two_zpow_pos e
  have hspacing := spacingBelow_pos m e
  refine ⟨?_, floorAt_ofBinary_pos h hm rfl rfl, ?_⟩
  · show 0 < 4 * 2 ^ (-e).toNat
    positivity
  · rw [value_ofBinary]
    refine ⟨?_, ?_, ?_⟩
    · rw [bottom_ofBinary hm]
      linarith
    · rw [top_ofBinary]
      linarith
    · rw [bottom_ofBinary hm, top_ofBinary]
      rintro (heq | heq) <;> linarith

/-- What is less than half a unit of the last place away lies in the interval. -/
theorem covers_of_lt (hm : 0 < m) {q : ℚ} (hlow : m * 2 ^ e - spacingBelow m e / 2 < q)
    (hhigh : q < m * 2 ^ e + 2 ^ e / 2) : (ofBinary m e).Covers q := by
  rw [← bottom_ofBinary hm] at hlow
  rw [← top_ofBinary] at hhigh
  refine ⟨hlow.le, hhigh.le, ?_⟩
  rintro (heq | heq)
  · exact absurd heq hlow.ne'
  · exact absurd heq hhigh.ne

/-- A grid of which a double is at least `10 ^ 16` steps is finer than the doubles. So the nearer
    neighbour of the double on it lies in the interval, or the upper one if the double is a power of
    two. -/
theorem covers_fine_neighbour (h : Canonical m e) (hm : 0 < m) {q step : ℚ} (hle : q ≤ m * 2 ^ e)
    (hlt : m * 2 ^ e < q + step) (hfine : 10 ^ 16 * step ≤ m * 2 ^ e) :
    (ofBinary m e).Covers q ∨ (ofBinary m e).Covers (q + step) := by
  have hunit := two_zpow_pos e
  have hmantissa : (m : ℚ) + 1 ≤ 2 ^ 53 := by exact_mod_cast h.mantissa_lt
  have hscaled := mul_le_mul_of_nonneg_right hmantissa hunit.le
  by_cases hpow : m = 2 ^ 52 ∧ -1074 < e
  · have hm' : (m : ℚ) = 2 ^ 52 := by exact_mod_cast hpow.1
    rw [hm'] at hfine
    have hspacing := spacingBelow_pos m e
    exact .inr (covers_of_lt hm (by linarith) (by linarith))
  · have hspacing : spacingBelow m e = 2 ^ e := if_neg hpow
    rcases le_or_gt (m * 2 ^ e - q) (step / 2) with hnear | hfar
    · exact .inl (covers_of_lt hm (by rw [hspacing]; linarith) (by linarith))
    · exact .inr (covers_of_lt hm (by rw [hspacing]; linarith) (by linarith))

/-- With seventeen digits, a decimal is always found. -/
theorem exists_atDigits?_seventeen (h : Canonical m e) (hm : 0 < m) :
    ∃ d, (ofBinary m e).atDigits? maxDigits = some d := by
  have hi := proper_ofBinary h hm
  have hle := (le_floorAt_iff hi _ ((ofBinary m e).magnitude - maxDigits)).1 le_rfl
  have hlt := lt_of_floorAt_lt hi
    (Nat.lt_succ_self ((ofBinary m e).floorAt ((ofBinary m e).magnitude - maxDigits)))
  have hfine := (magnitude_bounds hi).1
  rw [← ten_pow_mul_zpow 16 ((ofBinary m e).magnitude - maxDigits) ((ofBinary m e).magnitude - 1)
    (by show _ = ((16 : ℕ) : ℤ) + (_ - ((17 : ℕ) : ℤ)); omega)] at hfine
  push_cast at hfine
  rw [value_ofBinary] at hle hlt hfine
  refine exists_atDigits?_of_covers hi ?_
  rw [Nat.cast_succ, add_mul, one_mul] at hlt ⊢
  exact covers_fine_neighbour h hm hle hlt hfine

/-- No whole number but the value itself lies in the interval, if the last place of the value is not
    above the units. -/
theorem Covers.eq_natCast (hm : 0 < m) (he : e ≤ 0) {n : ℕ} (h : (ofBinary m e).Covers n) :
    (m : ℚ) * 2 ^ e = n := by
  have hwhole : (n : ℚ) = (n * 2 ^ (0 - e).toNat : ℕ) * 2 ^ e := by
    have hscaled := natCast_mul_zpow 2 Nat.cast_ofNat.symm two_ne_zero n he
    rwa [zpow_zero, mul_one] at hscaled
  have hstep := two_zpow_pos e
  have hspacing := spacingBelow_le m e
  have hbottom := h.bottom_le
  have htop := h.le_top
  rw [bottom_ofBinary hm] at hbottom
  rw [top_ofBinary] at htop
  rw [hwhole] at hbottom htop ⊢
  generalize n * 2 ^ (0 - e).toNat = n' at hbottom htop ⊢
  rcases lt_trichotomy n' m with hlt | rfl | hgt
  · have hltq : (n' : ℚ) + 1 ≤ m := by exact_mod_cast hlt
    have hscaled := mul_le_mul_of_nonneg_right hltq hstep.le
    linarith
  · rfl
  · have hgtq : (m : ℚ) + 1 ≤ n' := by exact_mod_cast hgt
    have hscaled := mul_le_mul_of_nonneg_right hgtq hstep.le
    linarith

/-- The decimals in the interval of a number with decimal places have decimal places. -/
theorem Covers.exponent_neg (hm : 0 < m) (he : e ≤ 0) (hwhole : ∀ n : ℕ, (m : ℚ) * 2 ^ e ≠ n)
    {d : Decimal} (h : (ofBinary m e).Covers d.toRat) : d.exponent < 0 := by
  by_contra hnonneg
  rw [toRat, natCast_mul_zpow 10 Nat.cast_ofNat.symm (by decide) _ (not_lt.1 hnonneg), zpow_zero,
    mul_one] at h
  exact hwhole _ (h.eq_natCast hm he)

theorem Covers.coefficient_pos (hm : 0 < m) {c : ℕ} {e' : ℤ}
    (h : (ofBinary m e).Covers (c * 10 ^ e')) : 0 < c := by
  rw [Nat.pos_iff_ne_zero]
  rintro rfl
  have hpos := h.pos hm
  rw [Nat.cast_zero, zero_mul] at hpos
  exact hpos.false

/-- What the search finds for a double, without trailing zeros: it lies in the interval, and no
    decimal in the interval has fewer digits. -/
theorem shortest_trim (h : Canonical m e) (hm : 0 < m) :
    0 < (ofBinary m e).shortest.trim.coefficient ∧
      (ofBinary m e).Covers (ofBinary m e).shortest.trim.toRat ∧
      ∀ (k c : ℕ) (e' : ℤ), c < 10 ^ k → (ofBinary m e).Covers (c * 10 ^ e') →
        (ofBinary m e).shortest.trim.coefficient < 10 ^ k := by
  have hi := proper_ofBinary h hm
  obtain ⟨k, hk, hmax, hfound, hfirst⟩ := shortest_first (exists_atDigits?_seventeen h hm)
  obtain ⟨hpos, hle⟩ := coefficient_of_atDigits? hi hk hfound
  refine ⟨coefficient_trim_pos hpos, ?_, fun j c e' hc hother => ?_⟩
  · rw [toRat_trim]
    exact (atDigits?_eq_some hi hfound).1
  · refine (coefficient_trim_lt hk hpos hle).trans_le (Nat.pow_le_pow_right (by decide) ?_)
    have hj : 0 < j := by
      rw [Nat.pos_iff_ne_zero]
      rintro rfl
      have hcpos := hother.coefficient_pos hm
      omega
    by_contra hless
    obtain ⟨d, hd⟩ := exists_atDigits? hi hj hc hother
    rw [hfirst j hj (not_le.1 hless)] at hd
    cases hd

end Interval

end ProtoSchema.Decimal
