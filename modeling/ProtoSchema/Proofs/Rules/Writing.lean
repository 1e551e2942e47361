import ProtoSchema.Proofs.Outcome
import ProtoSchema.Proofs.Rules.Confinement
import ProtoSchema.Proofs.Text.Separation
import ProtoSchema.Rules.Chain

set_option autoImplicit false

/-! # What the calls of checks say

The calls of checks are compared by their texts. Two calls of one check have the same text only if
they are made with the same value, because every value can be told from what follows it
(`Vocabulary`), and calls of different checks start differently (`Apart`). A `RuleMember`
holds the checks that one member of some rules asks for; the checks of several members in a row
agree as a whole only if they agree member by member (`RuleMember.texts_eq_iff_forall`). -/

namespace ProtoSchema

open Text (Separated separated_of_class)

/-! ## Numbers -/

namespace Decimal

theorem natText_inj {n n' : Nat} (h : natText n = natText n') : n = n' := by
  have hdigits : Nat.toDigits 10 n = Nat.toDigits 10 n' := String.ofList_injective h
  have hread := congrArg (fun digits => Nat.ofDigitChars 10 digits 0) hdigits
  simpa using hread

theorem natText_ne_negative (n : Nat) (s : String) : natText n ≠ "-" ++ s := by
  intro h
  have hmem : '-' ∈ Nat.toDigits 10 n := by
    have hchars := congrArg String.toList h
    rw [natText, String.toList_ofList] at hchars
    rw [hchars]
    simp
  exact absurd (Nat.isDigit_of_mem_toDigits (by decide) (by decide) hmem) (by decide)

theorem intText_inj {n n' : Int} (h : intText n = intText n') : n = n' := by
  cases n with
  | ofNat n =>
    cases n' with
    | ofNat n' => rw [natText_inj h]
    | negSucc n' => exact absurd h (natText_ne_negative n _)
  | negSucc n =>
    cases n' with
    | ofNat n' => exact absurd h.symm (natText_ne_negative n' _)
    | negSucc n' =>
      have hsucc := natText_inj ((String.append_right_inj _).1 h)
      rw [Nat.succ.inj hsucc]

/-- The characters of numbers, and of the mark of a 64-bit integer. -/
def isNumberChar (c : Char) : Bool :=
  isNumeral c || c = 'n'

theorem isNumberChar_natText {n : Nat} {c : Char} (h : c ∈ (natText n).toList) :
    isNumberChar c = true := by
  rw [natText, String.toList_ofList] at h
  rw [isNumberChar, isNumeral_of_mem_toDigits h, Bool.true_or]

theorem isNumberChar_intText {n : Int} {c : Char} (h : c ∈ (intText n).toList) :
    isNumberChar c = true := by
  cases n with
  | ofNat n => exact isNumberChar_natText h
  | negSucc n =>
    rw [intText, String.toList_append, List.mem_append] at h
    rcases h with h | h
    · obtain rfl : c = '-' := by simpa using h
      decide
    · exact isNumberChar_natText h

theorem separated_natText : Separated natText :=
  separated_of_class isNumberChar (by decide) (by decide) (fun _ _ => isNumberChar_natText)
    natText_inj

theorem separated_intText : Separated intText :=
  separated_of_class isNumberChar (by decide) (by decide) (fun _ _ => isNumberChar_intText)
    intText_inj

theorem separated_wide : Separated fun n => intText n ++ "n" := by
  have hchars : ∀ n, ∀ c ∈ (intText n ++ "n").toList, isNumberChar c = true := by
    intro n c hc
    rw [String.toList_append, List.mem_append] at hc
    rcases hc with hc | hc
    · exact isNumberChar_intText hc
    · obtain rfl : c = 'n' := by simpa using hc
      decide
  apply separated_of_class isNumberChar (by decide) (by decide) hchars
  intro n n' h
  exact intText_inj ((String.append_left_inj _).1 h)

end Decimal

/-! ## Heads -/

/-- Every text starts in one of some ways. -/
def StartIn (heads texts : List String) : Prop :=
  ∀ t ∈ texts, ∃ head ∈ heads, head.toList <+: t.toList

/-- No text starts in one way and in the other as well. -/
def Apart (heads heads' : List String) : Prop :=
  ∀ head ∈ heads, ∀ head' ∈ heads',
    ¬ head.toList <+: head'.toList ∧ ¬ head'.toList <+: head.toList

instance (heads heads' : List String) : Decidable (Apart heads heads') :=
  inferInstanceAs (Decidable (∀ head ∈ heads, ∀ head' ∈ heads', _))

theorem Apart.disjoint {heads heads' texts texts' : List String} (h : Apart heads heads')
    (htexts : StartIn heads texts) (htexts' : StartIn heads' texts') : texts.Disjoint texts' := by
  intro t ht ht'
  obtain ⟨head, hhead, hprefix⟩ := htexts t ht
  obtain ⟨head', hhead', hprefix'⟩ := htexts' t ht'
  obtain ⟨hleft, hright⟩ := h head hhead head' hhead'
  exact (List.prefix_or_prefix_of_prefix hprefix hprefix').elim hleft hright

theorem append_eq_append_iff_of_disjoint {α : Type} {front front' back back' : List α}
    (h : front.Disjoint back') (h' : front'.Disjoint back) :
    front ++ back = front' ++ back' ↔ front = front' ∧ back = back' := by
  constructor
  · intro heq
    rcases List.append_eq_append_iff.1 heq with ⟨middle, rfl, rfl⟩ | ⟨middle, rfl, rfl⟩
    · obtain rfl : middle = [] := by
        refine List.eq_nil_iff_forall_not_mem.2 fun a ha => ?_
        exact h' (List.mem_append_right _ ha) (List.mem_append_left _ ha)
      simp
    · obtain rfl : middle = [] := by
        refine List.eq_nil_iff_forall_not_mem.2 fun a ha => ?_
        exact h (List.mem_append_right _ ha) (List.mem_append_left _ ha)
      simp
  · rintro ⟨rfl, rfl⟩
    rfl

/-! ## Calls -/

namespace Check

/-- How a method call starts. -/
def callHead (method : String) : String :=
  "." ++ method ++ "("

/-- How a `.refine` call starts, up to the first part of its predicate. -/
def refineHead (binder front : String) : String :=
  ".refine((" ++ binder ++ ") => " ++ front

theorem call_eq (method argument : String) :
    (call method argument).toList = (callHead method).toList ++ (argument.toList ++ [')']) := by
  simp [call, callHead]

theorem callHead_prefix (method argument : String) :
    (callHead method).toList <+: (call method argument).toList := by
  rw [call_eq]
  exact List.prefix_append _ _

theorem call_inj {method argument argument' : String}
    (h : call method argument = call method argument') : argument = argument' := by
  have hchars := congrArg String.toList h
  rw [call_eq, call_eq, List.append_cancel_left_eq, List.append_cancel_right_eq] at hchars
  exact String.toList_injective hchars

/-- A comma follows the predicate of a `.refine` call. -/
theorem refine_eq (binder front rest message : String) :
    ∃ back, (refine binder (front ++ rest) message).toList =
      (refineHead binder front).toList ++ (rest.toList ++ ',' :: back) := by
  refine ⟨(" \x7b message: \"" ++ message ++ "\" \x7d)").toList, ?_⟩
  simp [refine, refineHead]

theorem refineHead_prefix (binder front rest message : String) :
    (refineHead binder front).toList <+: (refine binder (front ++ rest) message).toList := by
  obtain ⟨back, heq⟩ := refine_eq binder front rest message
  rw [heq]
  exact List.prefix_append _ _

theorem refine_inj {binder front rest rest' message message' : String}
    (h : refine binder (front ++ rest) message = refine binder (front ++ rest') message') :
    ∃ back back', rest.toList ++ ',' :: back = rest'.toList ++ ',' :: back' := by
  obtain ⟨back, heq⟩ := refine_eq binder front rest message
  obtain ⟨back', heq'⟩ := refine_eq binder front rest' message'
  refine ⟨back, back', ?_⟩
  have hchars := congrArg String.toList h
  rwa [heq, heq', List.append_cancel_left_eq] at hchars

end Check

/-! ## Members of rules -/

/-- The texts of checks. -/
def Check.texts (checks : List Check) : List String :=
  checks.map Check.text

/-- The checks that one member of rules asks for. They start in ways of their own, and they are the
    same exactly for rules that are the same in this member. -/
structure RuleMember (ρ : Type) where
  heads : List String
  checks : ρ → List Check
  Same : ρ → ρ → Prop
  startIn : ∀ r, StartIn heads (Check.texts (checks r))
  texts_eq_iff : ∀ r r', Check.texts (checks r) = Check.texts (checks r') ↔ Same r r'

namespace RuleMember

variable {ρ α : Type}

/-- The checks of several members in a row. -/
def allChecks (members : List (RuleMember ρ)) (r : ρ) : List Check :=
  members.flatMap fun member => member.checks r

theorem allChecks_cons (member : RuleMember ρ) (members : List (RuleMember ρ)) (r : ρ) :
    allChecks (member :: members) r = member.checks r ++ allChecks members r :=
  List.flatMap_cons

theorem allChecks_append (members members' : List (RuleMember ρ)) (r : ρ) :
    allChecks (members ++ members') r = allChecks members r ++ allChecks members' r := by
  simp [allChecks]

theorem texts_allChecks_cons (member : RuleMember ρ) (members : List (RuleMember ρ)) (r : ρ) :
    Check.texts (allChecks (member :: members) r) =
      Check.texts (member.checks r) ++ Check.texts (allChecks members r) := by
  rw [allChecks_cons]
  exact List.map_append

theorem disjoint_allChecks (member : RuleMember ρ) {members : List (RuleMember ρ)}
    (hapart : ∀ other ∈ members, Apart member.heads other.heads) (r r' : ρ) :
    (Check.texts (member.checks r)).Disjoint (Check.texts (allChecks members r')) := by
  intro t ht hall
  obtain ⟨other, hother, hmem⟩ : ∃ other ∈ members, t ∈ Check.texts (other.checks r') := by
    simpa [allChecks, Check.texts, List.map_flatMap] using hall
  exact (hapart other hother).disjoint (member.startIn r) (other.startIn r') ht hmem

/-- Checks that start in different ways are the same for two rules exactly if all members are. -/
theorem texts_eq_iff_forall {members : List (RuleMember ρ)}
    (hapart : (members.map heads).Pairwise Apart) (r r' : ρ) :
    Check.texts (allChecks members r) = Check.texts (allChecks members r') ↔
      members.Forall fun member => member.Same r r' := by
  induction members with
  | nil => simp [allChecks]
  | cons member members ih =>
    rw [List.map_cons, List.pairwise_cons] at hapart
    obtain ⟨hmember, hmembers⟩ := hapart
    have hother : ∀ other ∈ members, Apart member.heads other.heads :=
      fun other hmem => hmember _ (List.mem_map_of_mem hmem)
    rw [texts_allChecks_cons, texts_allChecks_cons, append_eq_append_iff_of_disjoint
      (member.disjoint_allChecks hother r r') (member.disjoint_allChecks hother r' r),
      member.texts_eq_iff, ih hmembers, List.forall_cons]

/-- A member that counts by presence. -/
def present (heads : List String) (make : α → Check) (value : ρ → Option α)
    (hstarts : ∀ a, ∃ head ∈ heads, head.toList <+: (make a).text.toList)
    (hinj : ∀ {a a'}, (make a).text = (make a').text → a = a') : RuleMember ρ where
  heads := heads
  checks r := ((value r).map make).toList
  Same r r' := value r = value r'
  startIn r := by
    intro t ht
    obtain ⟨a, _, rfl⟩ : ∃ a, value r = some a ∧ (make a).text = t := by
      simpa [Check.texts] using ht
    exact hstarts a
  texts_eq_iff r r' := by
    constructor
    · intro h
      cases hr : value r with
      | none => cases hr' : value r' <;> simp_all [Check.texts]
      | some a =>
        cases hr' : value r' with
        | none => simp [Check.texts, hr, hr'] at h
        | some a' =>
          have htext : (make a).text = (make a').text := by simpa [Check.texts, hr, hr'] using h
          rw [hinj htext]
    · intro h
      rw [h]

end RuleMember

/-- A check with a value that counts unless it is the default one. -/
def checkUnless {α : Type} [DecidableEq α] (default : α) (make : α → Check) (a : α) : List Check :=
  if a = default then [] else [make a]

/-- The calls that a check makes start in one way and tell all values but the default one apart. -/
structure Writes {α : Type} (default : α) (make : α → Check) (head : String) : Prop where
  starts : ∀ a, head.toList <+: (make a).text.toList
  inj : ∀ {a a' : α}, a ≠ default → a' ≠ default → (make a).text = (make a').text → a = a'

namespace Writes

variable {ρ α : Type} {default : α} {make : α → Check}

theorem call {method : String} {argument : α → String}
    (htext : ∀ a, (make a).text = Check.call method (argument a))
    (hargument : ∀ {a a'}, argument a = argument a' → a = a') :
    Writes default make (Check.callHead method) := by
  refine ⟨fun a => ?_, fun {a a'} _ _ h => ?_⟩
  · rw [htext]
    exact Check.callHead_prefix _ _
  · rw [htext, htext] at h
    exact hargument (Check.call_inj h)

theorem refine {binder front : String} {rest message : α → String}
    (htext : ∀ a, (make a).text = Check.refine binder (front ++ rest a) (message a))
    (hrest : ∀ {a a' : α} {r r' : List Char}, a ≠ default → a' ≠ default →
      (rest a).toList ++ ',' :: r = (rest a').toList ++ ',' :: r' → a = a') :
    Writes default make (Check.refineHead binder front) := by
  refine ⟨fun a => ?_, fun {a a'} ha ha' h => ?_⟩
  · rw [htext]
    exact Check.refineHead_prefix ..
  · rw [htext, htext] at h
    obtain ⟨back, back', heq⟩ := Check.refine_inj h
    exact hrest ha ha' heq

/-- A member that counts unless it has its default value. -/
def member [DecidableEq α] {head : String} (h : Writes default make head) (value : ρ → α) :
    RuleMember ρ where
  heads := [head]
  checks r := checkUnless default make (value r)
  Same r r' := value r = value r'
  startIn r := by
    intro t ht
    by_cases hr : value r = default
    · simp [checkUnless, Check.texts, hr] at ht
    · obtain rfl : t = (make (value r)).text := by
        simpa [checkUnless, Check.texts, hr] using ht
      exact ⟨head, List.mem_singleton_self head, h.starts _⟩
  texts_eq_iff r r' := by
    constructor
    · intro heq
      by_cases hr : value r = default
      · by_cases hr' : value r' = default
        · rw [hr, hr']
        · simp [checkUnless, Check.texts, hr, hr'] at heq
      · by_cases hr' : value r' = default
        · simp [checkUnless, Check.texts, hr, hr'] at heq
        · refine h.inj hr hr' ?_
          simpa [checkUnless, Check.texts, hr, hr'] using heq
    · intro heq
      rw [heq]

end Writes

/-! ## Values -/

/-- The values of a family as operands, one by one and in lists, written so that they can be told
    apart. -/
structure Vocabulary (α : Type) where
  family : Family
  value : α → Operand
  values : List α → Operands
  family_value : ∀ a, (value a).family = family
  family_values : ∀ as, (values as).family = family
  toList_values : ∀ as, (values as).toList = as.map value
  separated : Separated fun a => (value a).code

namespace Vocabulary

/-- Integers that are numbers in the generated code. -/
def number : Vocabulary Int where
  family := .number
  value n := .number (.int n)
  values ns := .numbers (ns.map .int)
  family_value _ := rfl
  family_values _ := rfl
  toList_values ns := by simp [Operands.toList]
  separated := Decimal.separated_intText

/-- 64-bit integers, which are held in strings. -/
def wide : Vocabulary Int where
  family := .wide
  value := .wide
  values := .wides
  family_value _ := rfl
  family_values _ := rfl
  toList_values _ := rfl
  separated := Decimal.separated_wide

def text : Vocabulary String where
  family := .text
  value := .text
  values := .texts
  family_value _ := rfl
  family_values _ := rfl
  toList_values _ := rfl
  separated := Text.separated_literal

/-- The numbers of enum values. -/
def enum : Vocabulary Int where
  family := .enum
  value := .enum
  values := .enums
  family_value _ := rfl
  family_values _ := rfl
  toList_values _ := rfl
  separated := Decimal.separated_intText

variable {α : Type} (v : Vocabulary α)

theorem writes_equals (default : α) :
    Writes default (fun a => .equals (v.value a))
      (Check.refineHead v.family.binder (v.family.subject ++ " === ")) := by
  have htext : ∀ a, (Check.equals (v.value a)).text =
      Check.refine v.family.binder (v.family.subject ++ " === " ++ (v.value a).code)
        ("Must equal " ++ (v.value a).shown) := by
    intro a
    rw [Check.text, v.family_value]
  refine .refine htext ?_
  intro a a' r r' _ _ h
  exact v.separated (.inl rfl) (.inl rfl) h

/-- The elements of an array, up to the end of the predicate that looks for a value in it. -/
def listed (as : List α) : String :=
  ", ".intercalate (as.map fun a => (v.value a).code) ++
    ("].includes(" ++ v.family.subject ++ ")")

theorem listed_inj {as as' : List α} {r r' : List Char} (hne : as ≠ []) (hne' : as' ≠ [])
    (h : (v.listed as).toList ++ r = (v.listed as').toList ++ r') : as = as' := by
  have hsplit : ∀ (bs : List α) (u : List Char), (v.listed bs).toList ++ u =
      (", ".intercalate (bs.map fun a => (v.value a).code)).toList ++
        ']' :: ((".includes(" ++ v.family.subject ++ ")").toList ++ u) := by
    intro bs u
    simp [listed]
  rw [hsplit, hsplit] at h
  exact Text.Separated.of_joined v.separated hne hne' h

theorem code_values (as : List α) :
    (v.values as).code = ", ".intercalate (as.map fun a => (v.value a).code) := by
  rw [Operands.code, v.toList_values, List.map_map]
  rfl

theorem writes_oneOf :
    Writes [] (fun as => .oneOf (v.values as)) (Check.refineHead v.family.binder "[") := by
  have htext : ∀ as, (Check.oneOf (v.values as)).text = Check.refine v.family.binder
      ("[" ++ v.listed as) ("Must be one of: " ++ (v.values as).shown) := by
    intro as
    rw [Check.text, v.family_values, v.code_values]
    simp only [listed, String.append_assoc]
  exact .refine htext v.listed_inj

theorem writes_noneOf :
    Writes [] (fun as => .noneOf (v.values as)) (Check.refineHead v.family.binder "![") := by
  have htext : ∀ as, (Check.noneOf (v.values as)).text = Check.refine v.family.binder
      ("![" ++ v.listed as) ("Must not be one of: " ++ (v.values as).shown) := by
    intro as
    rw [Check.text, v.family_values, v.code_values]
    simp only [listed, String.append_assoc]
  exact .refine htext v.listed_inj

/-- A required value, allowed and forbidden values. -/
def members {ρ : Type} [DecidableEq α] (default : α) (const : ρ → α)
    (allowed forbidden : ρ → List α) : List (RuleMember ρ) :=
  [(v.writes_equals default).member const, v.writes_oneOf.member allowed,
   v.writes_noneOf.member forbidden]

theorem allChecks_members {ρ : Type} [DecidableEq α] (default : α) (const : ρ → α)
    (allowed forbidden : ρ → List α) (r : ρ) :
    RuleMember.allChecks (v.members default const allowed forbidden) r =
      checkUnless default (fun a => .equals (v.value a)) (const r) ++
        checkUnless [] (fun as => .oneOf (v.values as)) (allowed r) ++
        checkUnless [] (fun as => .noneOf (v.values as)) (forbidden r) := by
  simp [RuleMember.allChecks, members, Writes.member]

end Vocabulary

end ProtoSchema
