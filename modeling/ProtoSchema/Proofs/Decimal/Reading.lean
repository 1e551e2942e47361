import Mathlib.Tactic.IntervalCases
import ProtoSchema.Decimal.Layout

set_option autoImplicit false

/-! # Reading number literals

`readLiteral?` reads a decimal literal: a whole part without superfluous zeros, a fraction and an
exponent, of which the latter two may be missing. A decimal that has decimal places is read back
from its text, digit by digit, whatever its layout (`readUnsigned?_layout`), and integers are
written by their decimal expansion (`expands_intText`). -/

namespace ProtoSchema.Decimal

/-! ## The reader -/

/-- Read decimal digits, at least one. -/
def readDigits? (s : List Char) : Option ℕ :=
  if s ≠ [] ∧ s.all Char.isDigit then some (Nat.ofDigitChars 10 s 0) else none

/-- Read digits behind an optional sign. -/
def readSigned? : List Char → Option ℤ
  | '-' :: s => (readDigits? s).map fun n : ℕ => -(n : ℤ)
  | '+' :: s => (readDigits? s).map fun n : ℕ => (n : ℤ)
  | s => (readDigits? s).map fun n : ℕ => (n : ℤ)

/-- Read the exponent of a literal, which may be missing. -/
def readExponent? : List Char → Option ℤ
  | [] => some 0
  | c :: s => if c = 'e' ∨ c = 'E' then readSigned? s else none

/-- Whether digits may stand in front of the point: a zero stands there by itself only. -/
def isWhole (digits : List Char) : Bool :=
  !digits.isEmpty && (digits.head? != some '0' || digits == ['0'])

/-- The number with the given digits in front of the point and behind it. -/
def ofParts (whole fraction : List Char) (exponent : ℤ) : Decimal :=
  ⟨Nat.ofDigitChars 10 (whole ++ fraction) 0, exponent - fraction.length⟩

/-- Read a literal without a sign. The coefficient is made of all its digits. -/
def readUnsigned? (s : List Char) : Option Decimal :=
  let whole := s.takeWhile Char.isDigit
  if isWhole whole then
    match s.dropWhile Char.isDigit with
    | '.' :: t => (readExponent? (t.dropWhile Char.isDigit)).map
        (ofParts whole (t.takeWhile Char.isDigit))
    | t => (readExponent? t).map (ofParts whole [])
  else none

/-- Read a literal behind an optional minus sign: whether there is one, and the literal. -/
def readLiteral? (s : String) : Option (Bool × Decimal) :=
  match s.toList with
  | '-' :: t => (readUnsigned? t).map (true, ·)
  | t => (readUnsigned? t).map (false, ·)

/-- What an exponent is read from starts neither with a digit nor with the point. -/
theorem head?_of_readExponent? {rest : List Char} {exponent : ℤ}
    (h : readExponent? rest = some exponent) :
    rest.head?.any Char.isDigit = false ∧ rest.head? ≠ some '.' := by
  cases rest with
  | nil => exact ⟨rfl, nofun⟩
  | cons c rest =>
    rw [readExponent?] at h
    split at h
    · next hc =>
      rcases hc with rfl | rfl
      · exact ⟨rfl, by simp⟩
      · exact ⟨rfl, by simp⟩
    · cases h

theorem takeWhile_digits {digits rest : List Char} (hdigits : ∀ c ∈ digits, c.isDigit = true)
    (hrest : rest.head?.any Char.isDigit = false) :
    (digits ++ rest).takeWhile Char.isDigit = digits ∧
      (digits ++ rest).dropWhile Char.isDigit = rest := by
  rw [List.takeWhile_append_of_pos hdigits, List.dropWhile_append_of_pos hdigits]
  cases rest with
  | nil => simp
  | cons c rest =>
    have hc : c.isDigit = false := by simpa using hrest
    simp [hc]

section Parts

variable {whole rest : List Char} {exponent : ℤ} (hwhole : ∀ c ∈ whole, c.isDigit = true)
  (hlegal : isWhole whole = true) (hrest : readExponent? rest = some exponent)

include hwhole hlegal hrest

theorem readUnsigned?_whole :
    readUnsigned? (whole ++ rest) = some (ofParts whole [] exponent) := by
  obtain ⟨hdigit, hpoint⟩ := head?_of_readExponent? hrest
  obtain ⟨htake, hdrop⟩ := takeWhile_digits hwhole hdigit
  unfold readUnsigned?
  rw [htake, hdrop]
  simp only [hlegal, if_true]
  split
  · simp at hpoint
  · rw [hrest, Option.map_some]

theorem readUnsigned?_point {fraction : List Char} (hfraction : ∀ c ∈ fraction, c.isDigit = true) :
    readUnsigned? (whole ++ '.' :: (fraction ++ rest)) =
      some (ofParts whole fraction exponent) := by
  have hpoint : ('.' :: (fraction ++ rest)).head?.any Char.isDigit = false := rfl
  obtain ⟨htake, hdrop⟩ := takeWhile_digits hwhole hpoint
  obtain ⟨htake', hdrop'⟩ := takeWhile_digits hfraction (head?_of_readExponent? hrest).1
  unfold readUnsigned?
  rw [htake, hdrop]
  simp only [hlegal, if_true, htake', hdrop', hrest, Option.map_some]

end Parts

/-! ## Digits -/

theorem isDigit_toDigits {n : ℕ} : ∀ c ∈ Nat.toDigits 10 n, c.isDigit = true :=
  fun _ hc => Nat.isDigit_of_mem_toDigits (by decide) (by decide) hc

theorem isDigit_zeros {n : ℕ} : ∀ c ∈ List.replicate n '0', c.isDigit = true := by
  intro c hc
  rw [(List.mem_replicate.1 hc).2]
  rfl

theorem isDigit_append {s t : List Char} (hs : ∀ c ∈ s, c.isDigit = true)
    (ht : ∀ c ∈ t, c.isDigit = true) : ∀ c ∈ s ++ t, c.isDigit = true :=
  List.forall_mem_append.2 ⟨hs, ht⟩

/-- The digits of a number do not start with a zero. -/
theorem head?_toDigits {n : ℕ} (h : 0 < n) : (Nat.toDigits 10 n).head? ≠ some '0' := by
  induction n using Nat.strong_induction_on with
  | h n ih =>
    by_cases hsmall : n < 10
    · rw [Nat.toDigits_of_lt_base hsmall]
      interval_cases n <;> decide
    · rw [Nat.toDigits_of_base_le (by decide) (by omega), List.head?_append,
        List.head?_eq_some_head Nat.toDigits_ne_nil, Option.some_or, ← List.head?_eq_some_head]
      exact ih (n / 10) (by omega) (by omega)

theorem ofDigitChars_zeros (n m : ℕ) :
    Nat.ofDigitChars 10 (List.replicate n '0' ++ Nat.toDigits 10 m) 0 = m := by
  rw [Nat.ofDigitChars_append, Nat.ofDigitChars_replicate_zero, Nat.mul_zero]
  exact Nat.ofDigitChars_toDigits (by decide) (by decide)

/-! ## Layouts -/

theorem readExponent?_written (width : ℕ) (leading : ℤ) :
    readExponent? ('e' :: (if leading < 0 then '-' else '+') ::
      (List.replicate width '0' ++ Nat.toDigits 10 leading.natAbs)) = some leading := by
  have hdigits : readDigits? (List.replicate width '0' ++ Nat.toDigits 10 leading.natAbs) =
      some leading.natAbs := by
    rw [readDigits?, if_pos, ofDigitChars_zeros]
    exact ⟨List.append_ne_nil_of_right_ne_nil _ Nat.toDigits_ne_nil,
      List.all_eq_true.2 (isDigit_append isDigit_zeros isDigit_toDigits)⟩
  rw [readExponent?, if_pos (.inl rfl)]
  split
  · next hneg =>
    rw [readSigned?, hdigits, Option.map_some]
    exact congrArg _ (by omega)
  · next hneg =>
    rw [readSigned?, hdigits, Option.map_some]
    exact congrArg _ (by omega)

section Layouts

variable {d : Decimal} (hpos : 0 < d.coefficient)

include hpos

theorem isWhole_take {n : ℕ} (hn : 0 < n) :
    isWhole ((Nat.toDigits 10 d.coefficient).take n) = true := by
  have hhead := head?_toDigits hpos
  have hne := Nat.toDigits_ne_nil (b := 10) (n := d.coefficient)
  cases hdigits : Nat.toDigits 10 d.coefficient with
  | nil => exact absurd hdigits hne
  | cons c rest =>
    rw [hdigits] at hhead
    obtain ⟨n, rfl⟩ := Nat.exists_eq_succ_of_ne_zero hn.ne'
    simp only [List.head?_cons, ne_eq, Option.some.injEq] at hhead
    simp [isWhole, hhead]

omit hpos in
/-- Both parts of the digits together are the coefficient. -/
theorem ofParts_take_drop (n : ℕ) (exponent : ℤ)
    (h : exponent = d.exponent + ((Nat.toDigits 10 d.coefficient).length - n : ℕ)) :
    ofParts ((Nat.toDigits 10 d.coefficient).take n) ((Nat.toDigits 10 d.coefficient).drop n)
      exponent = d := by
  rw [ofParts, List.take_append_drop, Nat.ofDigitChars_toDigits (by decide) (by decide),
    List.length_drop, h, add_sub_cancel_right]

omit hpos in
theorem isDigit_take {n : ℕ} : ∀ c ∈ (Nat.toDigits 10 d.coefficient).take n, c.isDigit = true :=
  fun c hc => isDigit_toDigits c (List.mem_of_mem_take hc)

omit hpos in
theorem isDigit_drop {n : ℕ} : ∀ c ∈ (Nat.toDigits 10 d.coefficient).drop n, c.isDigit = true :=
  fun c hc => isDigit_toDigits c (List.mem_of_mem_drop hc)

theorem readUnsigned?_positional (hplaces : d.exponent < 0) :
    readUnsigned? (positional (Nat.toDigits 10 d.coefficient)
      (d.exponent + (Nat.toDigits 10 d.coefficient).length)) = some d := by
  generalize hwhole : d.exponent + (Nat.toDigits 10 d.coefficient).length = whole
  have hend : readExponent? [] = some 0 := rfl
  rw [positional]
  split
  · next hle =>
    -- a zero, the point, more zeros and all the digits
    have hzero : ∀ c ∈ ['0'], c.isDigit = true := List.forall_mem_singleton.2 rfl
    have hread := readUnsigned?_point hzero rfl hend
      (isDigit_append (isDigit_zeros (n := (-whole).toNat)) (isDigit_toDigits (n := d.coefficient)))
    rw [List.append_nil] at hread
    refine hread.trans ?_
    rw [ofParts, List.singleton_append, ← List.cons_append, ← List.replicate_succ,
      ofDigitChars_zeros, List.length_append, List.length_replicate]
    congr
    omega
  · next hgt =>
    split
    · next hlong => omega
    · have hread := readUnsigned?_point isDigit_take
        (isWhole_take hpos (n := whole.toNat) (by omega)) hend
        (isDigit_drop (d := d) (n := whole.toNat))
      rw [List.append_nil] at hread
      rw [hread, ofParts_take_drop _ _ (by omega)]

theorem readUnsigned?_scientific (width : ℕ) {leading : ℤ}
    (hleading : leading = d.exponent + (Nat.toDigits 10 d.coefficient).length - 1) :
    readUnsigned? (scientific width (Nat.toDigits 10 d.coefficient) leading) = some d := by
  have hlength : 0 < (Nat.toDigits 10 d.coefficient).length := Nat.length_toDigits_pos
  have hparts := ofParts_take_drop (d := d) 1 leading (by omega)
  have hlegal := isWhole_take hpos (n := 1) one_pos
  have hexponent := readExponent?_written (width - (Nat.toDigits 10 leading.natAbs).length) leading
  rw [scientific]
  split
  · next hshort =>
    have hdrop : (Nat.toDigits 10 d.coefficient).drop 1 = [] := List.drop_of_length_le hshort
    have hread := readUnsigned?_whole isDigit_take hlegal hexponent
    rw [← hdrop, hparts] at hread
    simpa using hread
  · have hread := readUnsigned?_point isDigit_take hlegal hexponent (isDigit_drop (d := d) (n := 1))
    rw [hparts] at hread
    simpa using hread

/-- A decimal with decimal places is read back from its text, digit by digit. -/
theorem readUnsigned?_layout (hplaces : d.exponent < 0) (layout : Layout) :
    readUnsigned? (layout.text d).toList = some d := by
  rw [Layout.text, String.toList_ofList]
  split
  · rw [sub_add_cancel]
    exact readUnsigned?_positional hpos hplaces
  · exact readUnsigned?_scientific hpos _ rfl

end Layouts

/-- What is read without a sign does not start with one. -/
theorem readLiteral?_signed {s : String} {d : Decimal} (h : readUnsigned? s.toList = some d)
    (negative : Bool) :
    readLiteral? ((if negative then "-" else "") ++ s) = some (negative, d) := by
  cases negative with
  | true =>
    have hchars : ("-" ++ s).toList = '-' :: s.toList := by simp
    rw [if_pos rfl, readLiteral?, hchars]
    exact congrArg (Option.map (true, ·)) h
  | false =>
    have hempty : "" ++ s = s := by simp
    rw [if_neg Bool.false_ne_true, hempty, readLiteral?]
    split
    · next t hminus =>
      rw [hminus] at h
      cases h
    · rw [h]
      rfl

/-! ## Integers -/

/-- The text is the decimal expansion of the integer: a minus sign if it is negative, and its digits
    without superfluous zeros. -/
def Expands (s : String) (n : ℤ) : Prop :=
  ∃ digits, s.toList = (if n < 0 then ['-'] else []) ++ digits ∧ isWhole digits = true ∧
    (∀ c ∈ digits, c.isDigit = true) ∧ Nat.ofDigitChars 10 digits 0 = n.natAbs

theorem isWhole_toDigits (n : ℕ) : isWhole (Nat.toDigits 10 n) = true := by
  rcases Nat.eq_zero_or_pos n with rfl | hpos
  · rfl
  · have hwhole := isWhole_take (d := ⟨n, 0⟩) hpos (Nat.length_toDigits_pos (b := 10) (n := n))
    rwa [List.take_length] at hwhole

/-- Integers are written in full. -/
theorem expands_intText (n : ℤ) : Expands (intText n) n := by
  refine ⟨Nat.toDigits 10 n.natAbs, ?_, isWhole_toDigits _, isDigit_toDigits,
    Nat.ofDigitChars_toDigits (by decide) (by decide)⟩
  cases n with
  | ofNat n =>
    have hn : ¬ Int.ofNat n < 0 := by simp
    rw [if_neg hn, intText, natText, String.toList_ofList]
    rfl
  | negSucc n =>
    have hn : Int.negSucc n < 0 := Int.negSucc_lt_zero n
    rw [if_pos hn, intText, natText, String.toList_append]
    exact congrArg (['-'] ++ ·) String.toList_ofList

end ProtoSchema.Decimal
