import ProtoSchema.Proofs.Rules.Masking
import ProtoSchema.Proofs.Text.Literal

set_option autoImplicit false

/-! # The texts of checks stay in their literals

The call of a check is code whose literals are closed and whose brackets match, and outside of its
literals it is the call of the masked check (`Check.text_readAlike`). Texts come into a call only
escaped and between quotes; all else in it is fixed, or a number, which has no special
characters. -/

namespace ProtoSchema

open Text (isPlain isPlain_of PlainText ReadAlike Inside)

/-! ## Numbers -/

namespace Decimal

/-- The characters of numbers. -/
def isNumeral (c : Char) : Bool :=
  c.isDigit || ['-', '+', '.', 'e'].contains c

theorem isPlain_of_isNumeral {c : Char} (h : isNumeral c = true) : isPlain c = true :=
  isPlain_of (p := isNumeral) (by decide) h

theorem isNumeral_of_mem_toDigits {n : Nat} {c : Char} (h : c ∈ Nat.toDigits 10 n) :
    isNumeral c = true := by
  have hdigit : c.isDigit = true := Nat.isDigit_of_mem_toDigits (by decide) (by decide) h
  rw [isNumeral, hdigit, Bool.true_or]

theorem plain_natText (n : Nat) : PlainText (natText n) := by
  intro c hc
  rw [natText, String.toList_ofList] at hc
  exact isPlain_of_isNumeral (isNumeral_of_mem_toDigits hc)

theorem plain_intText (n : Int) : PlainText (intText n) := by
  cases n with
  | ofNat n => exact plain_natText n
  | negSucc n => exact PlainText.append (by decide) (plain_natText (n + 1))

section Layouts

variable {digits : List Char} (hdigits : ∀ c ∈ digits, isNumeral c = true)

include hdigits

theorem isNumeral_positional (whole : Int) : ∀ c ∈ positional digits whole, isNumeral c = true := by
  intro c hc
  unfold positional at hc
  split at hc
  · simp only [List.cons_append, List.mem_cons, List.mem_append, List.mem_replicate] at hc
    rcases hc with rfl | rfl | ⟨_, rfl⟩ | hc
    · decide
    · decide
    · decide
    · exact hdigits c hc
  · split at hc
    · simp only [List.mem_append, List.mem_replicate] at hc
      rcases hc with hc | ⟨_, rfl⟩
      · exact hdigits c hc
      · decide
    · simp only [List.mem_append, List.mem_cons] at hc
      rcases hc with hc | rfl | hc
      · exact hdigits c (List.mem_of_mem_take hc)
      · decide
      · exact hdigits c (List.mem_of_mem_drop hc)

theorem isNumeral_scientific (exponentDigits : Nat) (leading : Int) :
    ∀ c ∈ scientific exponentDigits digits leading, isNumeral c = true := by
  intro c hc
  unfold scientific at hc
  simp only [List.append_assoc, List.cons_append, List.mem_append, List.mem_cons,
    List.mem_replicate] at hc
  rcases hc with hc | hc | rfl | hc | ⟨_, rfl⟩ | hc
  · exact hdigits c (List.mem_of_mem_take hc)
  · split at hc
    · cases hc
    · rcases List.mem_cons.1 hc with rfl | hc
      · decide
      · exact hdigits c (List.mem_of_mem_drop hc)
  · decide
  · split at hc <;> subst hc <;> decide
  · decide
  · exact isNumeral_of_mem_toDigits hc

end Layouts

theorem plain_layout (layout : Layout) (d : Decimal) : PlainText (layout.text d) := by
  have hdigits : ∀ c ∈ Nat.toDigits 10 d.coefficient, isNumeral c = true :=
    fun c hc => isNumeral_of_mem_toDigits hc
  intro c hc
  rw [Layout.text, String.toList_ofList] at hc
  split at hc
  · exact isPlain_of_isNumeral (isNumeral_positional hdigits _ c hc)
  · exact isPlain_of_isNumeral (isNumeral_scientific hdigits _ _ c hc)

theorem plain_doubleText (x : Binary64) : PlainText (doubleText x) := by
  unfold doubleText
  split
  · decide
  · decide
  · decide
  · split
    · exact plain_intText _
    · refine PlainText.append ?_ (plain_layout _ _)
      split <;> decide

end Decimal

theorem Number.plain_text (n : Number) : PlainText n.text := by
  cases n with
  | int n => exact Decimal.plain_intText n
  | double x => exact Decimal.plain_doubleText x

/-! ## Operands -/

theorem Text.inside_escapeLiteral (s : String) : Inside (Text.escapeLiteral s).toList := by
  rw [Text.escapeLiteral, String.toList_ofList]
  exact Text.literalEscapes_confining.inside _

theorem Text.inside_escapePattern (s : String) : Inside (Text.escapePattern s).toList := by
  rw [Text.escapePattern, String.toList_ofList]
  exact Text.patternEscapes_confining.inside _

theorem Text.literal_readAlike (s s' : String) : ReadAlike (Text.literal s) (Text.literal s') :=
  .quoted (Text.inside_escapeLiteral s) (Text.inside_escapeLiteral s')

namespace Operand

theorem code_readAlike (v : Operand) : ReadAlike v.code v.masked.code := by
  cases v with
  | number n => exact n.plain_text.readAlike
  | wide n => exact ((Decimal.plain_intText n).append (by decide)).readAlike
  | text s => exact Text.literal_readAlike s _
  | enum n => exact (Decimal.plain_intText n).readAlike

theorem inside_shown (v : Operand) : Inside v.shown.toList := by
  cases v with
  | number n => exact n.plain_text.inside
  | wide n => exact (Decimal.plain_intText n).inside
  | text s => exact Text.inside_escapeLiteral s
  | enum n => exact (Decimal.plain_intText n).inside

end Operand

namespace Operands

theorem toList_masked (vs : Operands) : vs.masked.toList = vs.toList.map Operand.masked := by
  cases vs <;> simp [masked, toList, Operand.masked]

theorem code_readAlike (vs : Operands) : ReadAlike vs.code vs.masked.code := by
  unfold code
  rw [toList_masked, List.map_map]
  refine .intercalate (by decide) ?_
  rw [List.forall₂_map_left_iff, List.forall₂_map_right_iff, List.forall₂_same]
  exact fun v _ => v.code_readAlike

theorem inside_shown (vs : Operands) : Inside vs.shown.toList := by
  refine .intercalate (by decide) ?_
  intro s hs
  obtain ⟨v, _, rfl⟩ := List.mem_map.1 hs
  exact v.inside_shown

theorem family_masked (vs : Operands) : vs.masked.family = vs.family := by
  cases vs <;> rfl

end Operands

theorem Operand.family_masked (v : Operand) : v.masked.family = v.family := by
  cases v <;> rfl

theorem Family.subject_readAlike (f : Family) : ReadAlike f.subject f.subject := by
  refine .of_isSome ?_
  cases f <;> decide

theorem Family.plain_binder (f : Family) : PlainText f.binder := by
  cases f <;> decide

theorem Comparator.plain_operator (c : Comparator) : PlainText c.operator := by
  cases c <;> decide

/-! ## Calls -/

namespace Check

theorem call_readAlike {method argument argument' : String} (hmethod : PlainText method)
    (h : ReadAlike argument argument') :
    ReadAlike (call method argument) (call method argument') :=
  h.applied ("." ++ method) rfl (PlainText.append (by decide) hmethod)

theorem refine_readAlike {binder predicate predicate' message message' : String}
    (hbinder : PlainText binder) (hpredicate : ReadAlike predicate predicate')
    (hmessage : Inside message.toList) (hmessage' : Inside message'.toList) :
    ReadAlike (refine binder predicate message) (refine binder predicate' message') := by
  have heq : ∀ p m, refine binder p m = ".refine" ++ ("(" ++ (("(" ++ binder ++ ")") ++
      (" => " ++ (p ++ (", " ++ ("\x7b" ++ (" message: " ++ (("\"" ++ m ++ "\"") ++ " ")) ++
        "\x7d"))))) ++ ")") := by
    intro p m
    have hopen : ".refine((" = ".refine" ++ ("(" ++ "(") := rfl
    have harrow : ") => " = ")" ++ " => " := rfl
    have hbrace : ", \x7b message: \"" = ", " ++ ("\x7b" ++ (" message: " ++ "\"")) := rfl
    have hclose : "\" \x7d)" = "\"" ++ (" " ++ ("\x7d" ++ ")")) := rfl
    unfold refine
    rw [hopen, harrow, hbrace, hclose]
    simp only [String.append_assoc]
  rw [heq, heq]
  have hfixed : ∀ {s : String}, PlainText s → ReadAlike s s := fun h => h.readAlike
  have hoptions := ((hfixed (s := " message: ") (by decide)).append
    ((ReadAlike.quoted hmessage hmessage').append (hfixed (s := " ") (by decide)))).braces
  exact (hfixed (by decide)).append ((hfixed hbinder).parens.append
    ((hfixed (by decide)).append (hpredicate.append
      ((hfixed (by decide)).append hoptions)))).parens

/-- A call whose message counts something. -/
theorem countRefine_readAlike {binder predicate before after : String} {n : Nat}
    (hbinder : PlainText binder) (hpredicate : ReadAlike predicate predicate)
    (hbefore : PlainText before) (hafter : PlainText after) :
    ReadAlike
      (refine binder (predicate ++ Decimal.natText n) (before ++ Decimal.natText n ++ after))
      (refine binder (predicate ++ Decimal.natText n) (before ++ Decimal.natText n ++ after)) := by
  have hcount := Decimal.plain_natText n
  have hmessage := ((hbefore.append hcount).append hafter).inside
  exact refine_readAlike hbinder (hpredicate.append hcount.readAlike) hmessage hmessage

theorem includes_readAlike (vs : Operands) :
    ReadAlike ("[" ++ vs.code ++ "].includes(" ++ vs.family.subject ++ ")")
      ("[" ++ vs.masked.code ++ "].includes(" ++ vs.family.subject ++ ")") := by
  have heq : ∀ code subject : String, "[" ++ code ++ "].includes(" ++ subject ++ ")" =
      "[" ++ code ++ "]" ++ ".includes" ++ ("(" ++ subject ++ ")") := by
    intro code subject
    apply String.toList_injective
    simp
  rw [heq, heq]
  exact (vs.code_readAlike.brackets.append (.of_isSome (by decide))).append
    vs.family.subject_readAlike.parens

theorem regExp_readAlike (source source' : String) :
    ReadAlike ("new RegExp(\"" ++ Text.escapePattern source ++ "\")")
      ("new RegExp(\"" ++ Text.escapePattern source' ++ "\")") := by
  have heq : ∀ s : String, "new RegExp(\"" ++ s ++ "\")" =
      "new RegExp" ++ ("(" ++ ("\"" ++ s ++ "\"") ++ ")") := by
    intro s
    apply String.toList_injective
    simp
  rw [heq, heq]
  exact (ReadAlike.of_isSome (by decide)).append (ReadAlike.quoted
    (Text.inside_escapePattern source) (Text.inside_escapePattern source')).parens

/-- The call of a check is code, and outside of literals it is that of the masked check. -/
theorem text_readAlike (c : Check) : ReadAlike c.text c.masked.text := by
  cases c with
  | bound c n =>
    refine call_readAlike ?_ n.plain_text.readAlike
    cases c <;> decide
  | wideBound c n =>
    have hvalue := Decimal.plain_intText n
    have hpredicate : ReadAlike ("BigInt(s) " ++ c.operator ++ " " ++ Decimal.intText n ++ "n")
        ("BigInt(s) " ++ c.operator ++ " " ++ Decimal.intText n ++ "n") :=
      ((((ReadAlike.of_isSome (by decide)).append c.plain_operator.readAlike).append
        (.of_isSome (by decide))).append hvalue.readAlike).append (.of_isSome (by decide))
    have hmessage : PlainText ("Must be " ++ c.operator ++ " " ++ Decimal.intText n) :=
      ((PlainText.append (by decide) c.plain_operator).append (by decide)).append hvalue
    exact refine_readAlike (by decide) hpredicate hmessage.inside hmessage.inside
  | equals v =>
    show ReadAlike (refine v.family.binder _ _) (refine v.masked.family.binder _ _)
    rw [v.family_masked]
    exact refine_readAlike v.family.plain_binder
      ((v.family.subject_readAlike.append (.of_isSome (by decide))).append v.code_readAlike)
      (PlainText.inside_append (by decide) v.inside_shown)
      (PlainText.inside_append (by decide) v.masked.inside_shown)
  | oneOf vs =>
    show ReadAlike (refine vs.family.binder _ _) (refine vs.masked.family.binder _ _)
    rw [vs.family_masked]
    exact refine_readAlike vs.family.plain_binder (includes_readAlike vs)
      (PlainText.inside_append (by decide) vs.inside_shown)
      (PlainText.inside_append (by decide) vs.masked.inside_shown)
  | noneOf vs =>
    have heq : ∀ code subject : String, "![" ++ code ++ "].includes(" ++ subject ++ ")" =
        "!" ++ ("[" ++ code ++ "].includes(" ++ subject ++ ")") := by
      intro code subject
      apply String.toList_injective
      simp
    show ReadAlike (refine vs.family.binder _ _) (refine vs.masked.family.binder _ _)
    rw [vs.family_masked, heq, heq]
    exact refine_readAlike vs.family.plain_binder
      ((ReadAlike.of_isSome (by decide)).append (includes_readAlike vs))
      (PlainText.inside_append (by decide) vs.inside_shown)
      (PlainText.inside_append (by decide) vs.masked.inside_shown)
  | finite => exact .of_isSome (by decide)
  | truth value =>
    have htrue := PlainText.inside (s := "Must be true") (by decide)
    have hfalse := PlainText.inside (s := "Must be false") (by decide)
    cases value with
    | true => exact refine_readAlike (by decide) (.of_isSome (by decide)) htrue htrue
    | false => exact refine_readAlike (by decide) (.of_isSome (by decide)) hfalse hfalse
  | minSize n => exact call_readAlike (by decide) (Decimal.plain_natText n).readAlike
  | maxSize n => exact call_readAlike (by decide) (Decimal.plain_natText n).readAlike
  | exactSize n => exact call_readAlike (by decide) (Decimal.plain_natText n).readAlike
  | startsWith s => exact call_readAlike (by decide) (Text.literal_readAlike s _)
  | endsWith s => exact call_readAlike (by decide) (Text.literal_readAlike s _)
  | includes s => exact call_readAlike (by decide) (Text.literal_readAlike s _)
  | format f =>
    refine .of_isSome ?_
    cases f <;> decide
  | minBytes n =>
    exact countRefine_readAlike (by decide) (.of_isSome (by decide)) (by decide) (by decide)
  | maxBytes n =>
    exact countRefine_readAlike (by decide) (.of_isSome (by decide)) (by decide) (by decide)
  | minPairs n =>
    exact countRefine_readAlike (by decide) (.of_isSome (by decide)) (by decide) (by decide)
  | maxPairs n =>
    exact countRefine_readAlike (by decide) (.of_isSome (by decide)) (by decide) (by decide)
  | unique =>
    have hmessage := PlainText.inside (s := "Items must be unique") (by decide)
    exact refine_readAlike (by decide) (.of_isSome (by decide)) hmessage hmessage
  | pattern source => exact call_readAlike (by decide) (regExp_readAlike source _)
  | patternOrEmpty source =>
    have heq : ∀ s : String, "v === \"\" || new RegExp(\"" ++ s ++ "\").test(v)" =
        "v === \"\" || " ++ ("new RegExp(\"" ++ s ++ "\")") ++ ".test(v)" := by
      intro s
      apply String.toList_injective
      simp
    show ReadAlike (refine "v" _ _) (refine "v" _ _)
    rw [heq, heq]
    exact refine_readAlike (by decide)
      (((ReadAlike.of_isSome (by decide)).append (regExp_readAlike source _)).append
        (.of_isSome (by decide)))
      (PlainText.inside_append (by decide) (Text.inside_escapePattern source))
      (PlainText.inside_append (by decide) (Text.inside_escapePattern _))
  | nonzero => exact .of_isSome (by decide)

end Check

end ProtoSchema
