import ProtoSchema.Proofs.Module.Failure
import ProtoSchema.Proofs.Rules.Writing

set_option autoImplicit false

/-! # What chains keep of rules

A chain is compared as it is written: by the texts of its calls and by the parts that are kept
beside them (`Chain.written`). For rules of the kinds that are translated value by value, two chains
are the same if and only if the rules agree on all members that have an effect
(`KindRules.Agree`). Members that are zero or empty agree with absent ones, apart from bounds and
truth values. -/

namespace ProtoSchema

open Check (callHead refineHead)

/-! ## Chains as they are written -/

/-- A chain with the texts of its calls. -/
structure WrittenChain where
  methods : List String
  required : Bool
  definedOnly : Bool
  itemMethods : List String
  itemNoneOf : List Int
  pattern : Option RawText
  itemPattern : Option RawText
deriving DecidableEq

def Chain.written (c : Chain) : WrittenChain :=
  ⟨Check.texts c.checks, c.required, c.definedOnly, Check.texts c.itemChecks, c.itemNoneOf,
    c.pattern, c.itemPattern⟩

/-! ## Agreement -/

/-- Integer rules agree. Bounds count by presence, and a required zero counts as absent. -/
structure NumericRules.Agree (r r' : NumericRules Int) : Prop where
  lower : r.lower = r'.lower
  upper : r.upper = r'.upper
  const : r.const.getD 0 = r'.const.getD 0
  oneOf : r.oneOf = r'.oneOf
  noneOf : r.noneOf = r'.noneOf

/-- The formats of strings that have an effect. -/
def StringFormat.honoured : List StringFormat :=
  [.email, .hostname, .ip, .ipv4, .ipv6, .uri, .uuid]

/-- String rules agree. Lengths that are zero and texts that are empty count as absent. -/
structure StringRules.Agree (r r' : StringRules) : Prop where
  minLen : r.minLen.getD 0 = r'.minLen.getD 0
  maxLen : r.maxLen.getD 0 = r'.maxLen.getD 0
  len : r.len.getD 0 = r'.len.getD 0
  pattern : r.pattern.getD "" = r'.pattern.getD ""
  startsWith : r.startsWith.getD "" = r'.startsWith.getD ""
  endsWith : r.endsWith.getD "" = r'.endsWith.getD ""
  contains : r.contains.getD "" = r'.contains.getD ""
  const : r.const.getD "" = r'.const.getD ""
  oneOf : r.oneOf = r'.oneOf
  noneOf : r.noneOf = r'.noneOf
  format : ∀ f ∈ StringFormat.honoured,
    r.format = some (.named f true) ↔ r'.format = some (.named f true)

structure BytesRules.Agree (r r' : BytesRules) : Prop where
  minLen : r.minLen.getD 0 = r'.minLen.getD 0
  maxLen : r.maxLen.getD 0 = r'.maxLen.getD 0

structure EnumRules.Agree (r r' : EnumRules) : Prop where
  definedOnly : r.definedOnly = r'.definedOnly
  const : r.const.getD 0 = r'.const.getD 0
  oneOf : r.oneOf = r'.oneOf
  noneOf : r.noneOf = r'.noneOf

structure MapRules.Agree {ρ : Type} (r r' : MapRules ρ) : Prop where
  minPairs : r.minPairs.getD 0 = r'.minPairs.getD 0
  maxPairs : r.maxPairs.getD 0 = r'.maxPairs.getD 0

namespace KindRules

variable {ρ : Type}

/-- Rules of the same kind, for the kinds that are translated value by value. -/
inductive SameKind : KindRules ρ → KindRules ρ → Prop
  | int32 (kind : Int32Kind) (r r' : NumericRules Int) : SameKind (.int32 kind r) (.int32 kind r')
  | int64 (kind : Int64Kind) (r r' : NumericRules Int) : SameKind (.int64 kind r) (.int64 kind r')
  | bool (const const' : Option Bool) : SameKind (.bool const) (.bool const')
  | string (r r' : StringRules) : SameKind (.string r) (.string r')
  | bytes (r r' : BytesRules) : SameKind (.bytes r) (.bytes r')
  | enum (r r' : EnumRules) : SameKind (.enum r) (.enum r')
  | map (r r' : MapRules ρ) : SameKind (.map r) (.map r')

/-- Rules of the same kind agree on all members that have an effect. A required truth value counts
    by presence. -/
def Agree : KindRules ρ → KindRules ρ → Prop
  | .int32 _ r, .int32 _ r' => r.Agree r'
  | .int64 _ r, .int64 _ r' => r.Agree r'
  | .bool const, .bool const' => const = const'
  | .string r, .string r' => r.Agree r'
  | .bytes r, .bytes r' => r.Agree r'
  | .enum r, .enum r' => r.Agree r'
  | .map r, .map r' => r.Agree r'
  | _, _ => False

end KindRules

/-! ## Counts -/

theorem sizeCheck_eq (make : Nat → Check) (o : Option Nat) :
    sizeCheck make o = checkUnless 0 make (o.getD 0) := by
  cases o <;> rfl

theorem Writes.size {make : Nat → Check} {method : String}
    (htext : ∀ n, (make n).text = Check.call method (Decimal.natText n)) :
    Writes 0 make (callHead method) :=
  .call htext Decimal.natText_inj

theorem Writes.literal {make : String → Check} {method : String}
    (htext : ∀ s, (make s).text = Check.call method (Text.literal s)) :
    Writes "" make (callHead method) := by
  refine .call htext fun {s s'} h => ?_
  have hchars : (Text.literal s).toList ++ [] = (Text.literal s').toList ++ [] := by rw [h]
  exact Text.literal_append_inj hchars

/-- A count in the predicate of a call. -/
theorem Writes.count {make : Nat → Check} {binder front : String} {message : Nat → String}
    (htext : ∀ n, (make n).text =
      Check.refine binder (front ++ Decimal.natText n) (message n)) :
    Writes 0 make (refineHead binder front) :=
  .refine htext fun _ _ h => Decimal.separated_natText (.inl rfl) (.inl rfl) h

theorem Writes.minBytes : Writes 0 .minBytes (refineHead "b" "b.length >= ") :=
  .count fun _ => rfl

theorem Writes.maxBytes : Writes 0 .maxBytes (refineHead "b" "b.length <= ") :=
  .count fun _ => rfl

theorem Writes.minPairs : Writes 0 .minPairs (refineHead "m" "Object.keys(m).length >= ") :=
  .count fun _ => rfl

theorem Writes.maxPairs : Writes 0 .maxPairs (refineHead "m" "Object.keys(m).length <= ") :=
  .count fun _ => rfl

/-- The members of rules for byte strings that have an effect. -/
def BytesRules.members : List (RuleMember BytesRules) :=
  [Writes.minBytes.member fun r => r.minLen.getD 0, Writes.maxBytes.member fun r => r.maxLen.getD 0]

theorem BytesRules.texts_checks_eq_iff (r r' : BytesRules) :
    Check.texts r.checks = Check.texts r'.checks ↔ r.Agree r' := by
  have hchecks : ∀ r : BytesRules, r.checks = RuleMember.allChecks members r := by
    intro r
    simp [checks, RuleMember.allChecks, members, Writes.member, sizeCheck_eq]
  rw [hchecks, hchecks, RuleMember.texts_eq_iff_forall (by decide)]
  constructor
  · rintro ⟨hmin, hmax⟩
    exact ⟨hmin, hmax⟩
  · intro h
    exact ⟨h.minLen, h.maxLen⟩

/-- The members of rules for maps that have an effect. -/
def MapRules.members {ρ : Type} : List (RuleMember (MapRules ρ)) :=
  [Writes.minPairs.member fun r => r.minPairs.getD 0,
   Writes.maxPairs.member fun r => r.maxPairs.getD 0]

theorem MapRules.texts_checks_eq_iff {ρ : Type} (r r' : MapRules ρ) :
    Check.texts r.checks = Check.texts r'.checks ↔ r.Agree r' := by
  have hchecks : ∀ r : MapRules ρ, r.checks = RuleMember.allChecks members r := by
    intro r
    simp [checks, RuleMember.allChecks, members, Writes.member, sizeCheck_eq]
  have hapart : ((members : List (RuleMember (MapRules ρ))).map RuleMember.heads).Pairwise
      Apart := by
    show [[refineHead "m" "Object.keys(m).length >= "],
      [refineHead "m" "Object.keys(m).length <= "]].Pairwise Apart
    decide
  rw [hchecks, hchecks, RuleMember.texts_eq_iff_forall hapart]
  constructor
  · rintro ⟨hmin, hmax⟩
    exact ⟨hmin, hmax⟩
  · intro h
    exact ⟨h.minPairs, h.maxPairs⟩

/-! ## Numbers -/

theorem listCheck_eq {α : Type} [DecidableEq α] (make : List α → Check) (values : List α) :
    listCheck make values = checkUnless [] make values := by
  cases values <;> simp [listCheck, checkUnless]

theorem constCheck_eq (make : Int → Check) (o : Option Int) :
    NumericRules.constCheck make (fun n => n = 0) o = checkUnless 0 make (o.getD 0) := by
  cases o with
  | none => rfl
  | some n => simp [NumericRules.constCheck, checkUnless]

namespace Bound

variable {α : Type} {b b' : Bound α}

theorem lowerComparator_mem (b : Bound α) : b.lowerComparator ∈ [Comparator.gt, .gte] := by
  cases h : b.inclusive <;> simp [lowerComparator, h]

theorem upperComparator_mem (b : Bound α) : b.upperComparator ∈ [Comparator.lt, .lte] := by
  cases h : b.inclusive <;> simp [upperComparator, h]

theorem inclusive_of_lowerComparator (h : b.lowerComparator = b'.lowerComparator) :
    b.inclusive = b'.inclusive := by
  cases hb : b.inclusive <;> cases hb' : b'.inclusive <;> simp_all [lowerComparator]

theorem inclusive_of_upperComparator (h : b.upperComparator = b'.upperComparator) :
    b.inclusive = b'.inclusive := by
  cases hb : b.inclusive <;> cases hb' : b'.inclusive <;> simp_all [upperComparator]

end Bound

/-- The calls of bounds start in a way of their own for each comparison and tell values apart. -/
structure WritesBounds (make : Comparator → Int → Check) (head : Comparator → String) : Prop where
  starts : ∀ c n, (head c).toList <+: (make c n).text.toList
  apart : ∀ c c', c ≠ c' → Apart [head c] [head c']
  inj : ∀ {c n n'}, (make c n).text = (make c n').text → n = n'

namespace WritesBounds

theorem number : WritesBounds (fun c n => .bound c (.int n)) fun c => callHead c.method where
  starts _ _ := Check.callHead_prefix _ _
  apart c c' := by cases c <;> cases c' <;> decide
  inj h := Decimal.intText_inj (Check.call_inj h)

theorem wide : WritesBounds .wideBound
    fun c => refineHead "s" ("BigInt(s) " ++ c.operator ++ " ") := by
  have htext : ∀ c n, (Check.wideBound c n).text =
      Check.refine "s" (("BigInt(s) " ++ c.operator ++ " ") ++ (Decimal.intText n ++ "n"))
        ("Must be " ++ c.operator ++ " " ++ Decimal.intText n) := by
    intro c n
    rw [Check.text]
    simp only [String.append_assoc]
  refine ⟨fun c n => ?_, fun c c' => ?_, fun {c n n'} h => ?_⟩
  · rw [htext]
    exact Check.refineHead_prefix ..
  · cases c <;> cases c' <;> decide
  · rw [htext, htext] at h
    obtain ⟨back, back', heq⟩ := Check.refine_inj h
    exact Decimal.separated_wide (.inl rfl) (.inl rfl) heq

variable {make : Comparator → Int → Check} {head : Comparator → String}

theorem eq_of_text_eq (h : WritesBounds make head) {c c' : Comparator} {n n' : Int}
    (htext : (make c n).text = (make c' n').text) : c = c' ∧ n = n' := by
  by_cases hc : c = c'
  · subst hc
    exact ⟨rfl, h.inj htext⟩
  · have hstart := h.starts c n
    rw [htext] at hstart
    obtain ⟨hleft, hright⟩ := h.apart c c' hc _ (List.mem_singleton_self _) _
      (List.mem_singleton_self _)
    exact absurd (List.prefix_or_prefix_of_prefix hstart (h.starts c' n'))
      (not_or.2 ⟨hleft, hright⟩)

/-- The bounds on one side of a range, where different comparisons are made for inclusive bounds
    and for others. -/
def member (h : WritesBounds make head) {comparator : Bound Int → Comparator}
    (comparators : List Comparator) (hmem : ∀ b, comparator b ∈ comparators)
    (hinclusive : ∀ {b b'}, comparator b = comparator b' → b.inclusive = b'.inclusive)
    (value : NumericRules Int → Option (Bound Int)) : RuleMember (NumericRules Int) :=
  RuleMember.present (comparators.map head) (fun b => make (comparator b) b.value) value
    (fun b => ⟨_, List.mem_map_of_mem (hmem b), h.starts (comparator b) b.value⟩)
    fun {b b'} htext => by
      obtain ⟨hcomparator, hvalue⟩ := h.eq_of_text_eq htext
      have hsame := hinclusive hcomparator
      cases b
      cases b'
      simp_all

def lowerMember (h : WritesBounds make head) : RuleMember (NumericRules Int) :=
  h.member [.gt, .gte] Bound.lowerComparator_mem Bound.inclusive_of_lowerComparator
    NumericRules.lower

def upperMember (h : WritesBounds make head) : RuleMember (NumericRules Int) :=
  h.member [.lt, .lte] Bound.upperComparator_mem Bound.inclusive_of_upperComparator
    NumericRules.upper

end WritesBounds

namespace NumericRules

/-- The members of integer rules, the bounds first. -/
def members {make : Comparator → Int → Check} {head : Comparator → String}
    (h : WritesBounds make head) (v : Vocabulary Int) : List (RuleMember (NumericRules Int)) :=
  h.lowerMember :: h.upperMember :: v.members 0 (fun r => r.const.getD 0) oneOf noneOf

theorem allChecks_members {make : Comparator → Int → Check} {head : Comparator → String}
    (h : WritesBounds make head) (v : Vocabulary Int) (r : NumericRules Int) :
    RuleMember.allChecks (members h v) r = r.bounds make ++
      checkUnless 0 (fun n => .equals (v.value n)) (r.const.getD 0) ++
      checkUnless [] (fun ns => .oneOf (v.values ns)) r.oneOf ++
      checkUnless [] (fun ns => .noneOf (v.values ns)) r.noneOf := by
  rw [members, RuleMember.allChecks_cons, RuleMember.allChecks_cons, v.allChecks_members]
  simp [WritesBounds.lowerMember, WritesBounds.upperMember, WritesBounds.member, RuleMember.present,
    bounds]

theorem texts_members_eq_iff {make : Comparator → Int → Check} {head : Comparator → String}
    (h : WritesBounds make head) (v : Vocabulary Int)
    (hapart : ((members h v).map RuleMember.heads).Pairwise Apart) (r r' : NumericRules Int) :
    Check.texts (RuleMember.allChecks (members h v) r) =
        Check.texts (RuleMember.allChecks (members h v) r') ↔ r.Agree r' := by
  rw [RuleMember.texts_eq_iff_forall hapart]
  constructor
  · rintro ⟨hlower, hupper, hconst, hone, hnone⟩
    exact ⟨hlower, hupper, hconst, hone, hnone⟩
  · intro hagree
    exact ⟨hagree.lower, hagree.upper, hagree.const, hagree.oneOf, hagree.noneOf⟩

theorem texts_numberChecks_eq_iff (r r' : NumericRules Int) :
    Check.texts (r.numberChecks .int) = Check.texts (r'.numberChecks .int) ↔ r.Agree r' := by
  have hzero : (fun n => (Number.int n).isZero) = fun n : Int => decide (n = 0) := rfl
  have hchecks : ∀ r : NumericRules Int,
      r.numberChecks .int = RuleMember.allChecks (members .number .number) r := by
    intro r
    rw [numberChecks, hzero, constCheck_eq, listCheck_eq, listCheck_eq, allChecks_members]
    rfl
  rw [hchecks, hchecks]
  exact texts_members_eq_iff .number .number (by decide) r r'

theorem texts_wideChecks_eq_iff (r r' : NumericRules Int) :
    Check.texts r.wideChecks = Check.texts r'.wideChecks ↔ r.Agree r' := by
  have hchecks : ∀ r : NumericRules Int,
      r.wideChecks = RuleMember.allChecks (members .wide .wide) r := by
    intro r
    rw [wideChecks, constCheck_eq, listCheck_eq, listCheck_eq, allChecks_members]
    rfl
  rw [hchecks, hchecks]
  exact texts_members_eq_iff .wide .wide (by decide) r r'

end NumericRules

/-- The members of enum rules that are checked by calls. -/
def EnumRules.members : List (RuleMember EnumRules) :=
  Vocabulary.enum.members 0 (fun r => r.const.getD 0) oneOf noneOf

theorem EnumRules.texts_checks_and_eq_iff (r r' : EnumRules) :
    Check.texts r.checks = Check.texts r'.checks ∧ r.definedOnly = r'.definedOnly ↔
      r.Agree r' := by
  have hchecks : ∀ r : EnumRules, r.checks = RuleMember.allChecks members r := by
    intro r
    rw [checks, constCheck_eq, listCheck_eq, listCheck_eq, members, Vocabulary.allChecks_members]
    rfl
  rw [hchecks, hchecks, RuleMember.texts_eq_iff_forall (by decide)]
  constructor
  · rintro ⟨⟨hconst, hone, hnone⟩, hdefined⟩
    exact ⟨hdefined, hconst, hone, hnone⟩
  · intro h
    exact ⟨⟨h.const, h.oneOf, h.noneOf⟩, h.definedOnly⟩

/-! ## Strings -/

namespace RawText

theorem eq_text_shown {t : RawText} (h : t.isUndecodable = false) : t = .text t.shown := by
  cases t with
  | text s => rfl
  | undecodable bytes => cases h

theorem decoded?_eq_shown {t : RawText} (h : t.isUndecodable = false) :
    t.decoded? = some t.shown := by
  rw [eq_text_shown h]
  rfl

theorem shown_getD_inj {o o' : Option RawText} (h : ∀ t ∈ o.toList, t.isUndecodable = false)
    (h' : ∀ t ∈ o'.toList, t.isUndecodable = false) :
    (o.getD "").shown = (o'.getD "").shown ↔ o.getD "" = o'.getD "" := by
  have hdecoded : ∀ p : Option RawText, (∀ t ∈ p.toList, t.isUndecodable = false) →
      p.getD "" = .text (p.getD "").shown := by
    intro p hp
    cases p with
    | none => rfl
    | some t => exact eq_text_shown (hp t (by simp))
  constructor
  · intro hshown
    rw [hdecoded o h, hdecoded o' h', hshown]
  · intro heq
    rw [heq]

theorem map_shown_inj {ts ts' : List RawText} (h : ∀ t ∈ ts, t.isUndecodable = false)
    (h' : ∀ t ∈ ts', t.isUndecodable = false) :
    ts.map shown = ts'.map shown ↔ ts = ts' := by
  have hback : ∀ us : List RawText, (∀ t ∈ us, t.isUndecodable = false) →
      (us.map shown).map .text = us := by
    intro us hus
    rw [List.map_map]
    exact (List.map_congr_left fun t ht => (eq_text_shown (hus t ht)).symm).trans (List.map_id us)
  constructor
  · intro hshown
    rw [← hback ts h, ← hback ts' h', hshown]
  · rintro rfl
    rfl

theorem isEmpty_eq (t : RawText) : t.isEmpty = decide (t = "") := by
  cases t <;> simp [isEmpty]

end RawText

theorem textCheck?_eq {make : String → Check} {o : Option RawText}
    (h : ∀ t ∈ o.toList, t.isUndecodable = false) :
    textCheck? make o = some (checkUnless "" make (o.getD "").shown) := by
  cases o with
  | none => rfl
  | some t =>
    rw [textCheck?, RawText.decoded?_eq_shown (h t (by simp))]
    rfl

theorem mapM_decoded?_eq {ts : List RawText} (h : ∀ t ∈ ts, t.isUndecodable = false) :
    ts.mapM RawText.decoded? = some (ts.map RawText.shown) := by
  induction ts with
  | nil => rfl
  | cons t ts ih =>
    rw [List.mapM_cons, RawText.decoded?_eq_shown (h t List.mem_cons_self),
      ih fun u hu => h u (List.mem_cons_of_mem _ hu)]
    rfl

/-- The pattern of a chain tells the pattern of the rules, up to an empty one. -/
theorem StringRules.pattern?_eq_iff (r r' : StringRules) :
    r.pattern? = r'.pattern? ↔ r.pattern.getD "" = r'.pattern.getD "" := by
  have hpattern : ∀ r : StringRules,
      r.pattern? = if r.pattern.getD "" = "" then none else some (r.pattern.getD "") := by
    intro r
    cases h : r.pattern with
    | none => simp [pattern?, h]
    | some t => by_cases ht : t = "" <;> simp [pattern?, h, ht, RawText.isEmpty_eq]
  rw [hpattern, hpattern]
  grind

/-! ### Formats -/

/-- The format that a check is made for. -/
def CheckedFormat.named : CheckedFormat → StringFormat
  | email => .email
  | hostname => .hostname
  | ip => .ip
  | ipv4 => .ipv4
  | ipv6 => .ipv6
  | uri => .uri
  | uuid => .uuid

theorem CheckedFormat.text_inj {f f' : CheckedFormat} (h : f.text = f'.text) : f = f' := by
  revert h
  cases f <;> cases f' <;> decide

/-- All formats that are checked. -/
def CheckedFormat.all : List CheckedFormat :=
  [.email, .hostname, .ip, .ipv4, .ipv6, .uri, .uuid]

theorem CheckedFormat.exists_start (f : CheckedFormat) :
    ∃ head ∈ all.map text, head.toList <+: (Check.format f).text.toList := by
  refine ⟨f.text, List.mem_map_of_mem ?_, List.prefix_refl _⟩
  cases f <;> decide

theorem StringFormat.mem_honoured_iff (f : StringFormat) :
    f ∈ honoured ↔ ∃ checked : CheckedFormat, f = checked.named := by
  constructor
  · intro h
    simp only [honoured, List.mem_cons, List.not_mem_nil, or_false] at h
    rcases h with rfl | rfl | rfl | rfl | rfl | rfl | rfl
    · exact ⟨.email, rfl⟩
    · exact ⟨.hostname, rfl⟩
    · exact ⟨.ip, rfl⟩
    · exact ⟨.ipv4, rfl⟩
    · exact ⟨.ipv6, rfl⟩
    · exact ⟨.uri, rfl⟩
    · exact ⟨.uuid, rfl⟩
  · rintro ⟨checked, rfl⟩
    cases checked <;> decide

namespace FormatRule

/-- The format to check for a choice of format. -/
def checked? : FormatRule → Option CheckedFormat
  | .named f true => f.checked?
  | _ => none

theorem check?_eq (rule : FormatRule) : rule.check? = rule.checked?.map .format := by
  cases rule with
  | named f on => cases on <;> rfl
  | header number => rfl

theorem checked?_eq_some_iff (rule : FormatRule) (checked : CheckedFormat) :
    rule.checked? = some checked ↔ rule = .named checked.named true := by
  constructor
  · intro h
    unfold checked? at h
    split at h
    · next f =>
      have hf : f = checked.named := by cases f <;> cases h <;> rfl
      rw [hf]
    · cases h
  · rintro rfl
    cases checked <;> rfl

end FormatRule

namespace StringRules

/-- The format to check. -/
def checkedFormat? (r : StringRules) : Option CheckedFormat :=
  r.format.bind FormatRule.checked?

theorem check_format (r : StringRules) :
    r.format.bind FormatRule.check? = r.checkedFormat?.map .format := by
  rw [checkedFormat?, Option.map_bind]
  exact congrArg r.format.bind (funext FormatRule.check?_eq)

theorem checkedFormat?_eq_iff (r r' : StringRules) :
    r.checkedFormat? = r'.checkedFormat? ↔ ∀ f ∈ StringFormat.honoured,
      r.format = some (.named f true) ↔ r'.format = some (.named f true) := by
  have hselected : ∀ (r : StringRules) (checked : CheckedFormat),
      r.checkedFormat? = some checked ↔ r.format = some (.named checked.named true) := by
    intro r checked
    rw [checkedFormat?, Option.bind_eq_some_iff]
    simp only [FormatRule.checked?_eq_some_iff, exists_eq_right]
  rw [Option.ext_iff]
  simp only [hselected, StringFormat.mem_honoured_iff]
  constructor
  · rintro h f ⟨checked, rfl⟩
    exact h checked
  · intro h checked
    exact h _ ⟨checked, rfl⟩

/-! ### Checks -/

/-- All the texts that are read are decoded. -/
structure Decoded (r : StringRules) : Prop where
  startsWith : ∀ t ∈ r.startsWith.toList, t.isUndecodable = false
  endsWith : ∀ t ∈ r.endsWith.toList, t.isUndecodable = false
  contains : ∀ t ∈ r.contains.toList, t.isUndecodable = false
  const : ∀ t ∈ r.const.toList, t.isUndecodable = false
  oneOf : ∀ t ∈ r.oneOf, t.isUndecodable = false
  noneOf : ∀ t ∈ r.noneOf, t.isUndecodable = false

theorem Decoded.of_readTexts {r : StringRules} (h : ∀ t ∈ r.readTexts, t.isUndecodable = false) :
    r.Decoded := by
  simp only [readTexts, List.forall_mem_append, and_assoc] at h
  obtain ⟨hstarts, hends, hcontains, hconst, hone, hnone⟩ := h
  exact ⟨hstarts, hends, hcontains, hconst, hone, hnone⟩

theorem writes_min : Writes 0 .minSize (callHead "min") := .size fun _ => rfl

theorem writes_max : Writes 0 .maxSize (callHead "max") := .size fun _ => rfl

theorem writes_length : Writes 0 .exactSize (callHead "length") := .size fun _ => rfl

theorem writes_startsWith : Writes "" .startsWith (callHead "startsWith") := .literal fun _ => rfl

theorem writes_endsWith : Writes "" .endsWith (callHead "endsWith") := .literal fun _ => rfl

theorem writes_includes : Writes "" .includes (callHead "includes") := .literal fun _ => rfl

/-- The members on the length of a string. -/
def sizeMembers : List (RuleMember StringRules) :=
  [writes_min.member fun r => r.minLen.getD 0, writes_max.member fun r => r.maxLen.getD 0,
   writes_length.member fun r => r.len.getD 0]

/-- The members on the parts of a string. -/
def partMembers : List (RuleMember StringRules) :=
  [writes_startsWith.member fun r => (r.startsWith.getD "").shown,
   writes_endsWith.member fun r => (r.endsWith.getD "").shown,
   writes_includes.member fun r => (r.contains.getD "").shown]

/-- The members on the string as a whole. -/
def valueMembers : List (RuleMember StringRules) :=
  Vocabulary.text.members "" (fun r => (r.const.getD "").shown)
    (fun r => r.oneOf.map RawText.shown) (fun r => r.noneOf.map RawText.shown)

def formatMember : RuleMember StringRules :=
  RuleMember.present (CheckedFormat.all.map CheckedFormat.text) Check.format checkedFormat?
    CheckedFormat.exists_start CheckedFormat.text_inj

/-- The members of string rules that are checked by calls. -/
def members : List (RuleMember StringRules) :=
  sizeMembers ++ partMembers ++ valueMembers ++ [formatMember]

theorem allChecks_members (r : StringRules) :
    RuleMember.allChecks members r = r.sizeChecks ++
      checkUnless "" .startsWith (r.startsWith.getD "").shown ++
      checkUnless "" .endsWith (r.endsWith.getD "").shown ++
      checkUnless "" .includes (r.contains.getD "").shown ++
      checkUnless "" (fun s => .equals (.text s)) (r.const.getD "").shown ++
      checkUnless [] (fun ss => .oneOf (.texts ss)) (r.oneOf.map RawText.shown) ++
      checkUnless [] (fun ss => .noneOf (.texts ss)) (r.noneOf.map RawText.shown) ++
      (r.checkedFormat?.map .format).toList := by
  rw [members, RuleMember.allChecks_append, RuleMember.allChecks_append,
    RuleMember.allChecks_append, valueMembers, Vocabulary.allChecks_members]
  simp [RuleMember.allChecks, sizeMembers, partMembers, formatMember, Writes.member,
    RuleMember.present, sizeChecks, sizeCheck_eq, Vocabulary.text]

theorem checks?_eq {r : StringRules} (h : r.Decoded) :
    r.checks? = some (RuleMember.allChecks members r) := by
  rw [checks?, textCheck?_eq h.startsWith, textCheck?_eq h.endsWith, textCheck?_eq h.contains,
    textCheck?_eq h.const, mapM_decoded?_eq h.oneOf, mapM_decoded?_eq h.noneOf, check_format,
    allChecks_members]
  simp [listCheck_eq]

/-- The calls and the pattern of string rules tell all members that have an effect. -/
theorem texts_eq_iff_agree {r r' : StringRules} (h : r.Decoded) (h' : r'.Decoded) :
    Check.texts (RuleMember.allChecks members r) = Check.texts (RuleMember.allChecks members r') ∧
      r.pattern? = r'.pattern? ↔ r.Agree r' := by
  rw [RuleMember.texts_eq_iff_forall (by decide), pattern?_eq_iff]
  have hforall : (members.Forall fun member => member.Same r r') ↔
      r.minLen.getD 0 = r'.minLen.getD 0 ∧ r.maxLen.getD 0 = r'.maxLen.getD 0 ∧
      r.len.getD 0 = r'.len.getD 0 ∧
      (r.startsWith.getD "").shown = (r'.startsWith.getD "").shown ∧
      (r.endsWith.getD "").shown = (r'.endsWith.getD "").shown ∧
      (r.contains.getD "").shown = (r'.contains.getD "").shown ∧
      (r.const.getD "").shown = (r'.const.getD "").shown ∧
      r.oneOf.map RawText.shown = r'.oneOf.map RawText.shown ∧
      r.noneOf.map RawText.shown = r'.noneOf.map RawText.shown ∧
      r.checkedFormat? = r'.checkedFormat? := Iff.rfl
  rw [hforall, RawText.shown_getD_inj h.startsWith h'.startsWith,
    RawText.shown_getD_inj h.endsWith h'.endsWith, RawText.shown_getD_inj h.contains h'.contains,
    RawText.shown_getD_inj h.const h'.const, RawText.map_shown_inj h.oneOf h'.oneOf,
    RawText.map_shown_inj h.noneOf h'.noneOf, checkedFormat?_eq_iff]
  constructor
  · rintro ⟨⟨hmin, hmax, hlen, hstarts, hends, hcontains, hconst, hone, hnone, hformat⟩, hpattern⟩
    exact ⟨hmin, hmax, hlen, hpattern, hstarts, hends, hcontains, hconst, hone, hnone, hformat⟩
  · intro hagree
    exact ⟨⟨hagree.minLen, hagree.maxLen, hagree.len, hagree.startsWith, hagree.endsWith,
      hagree.contains, hagree.const, hagree.oneOf, hagree.noneOf, hagree.format⟩, hagree.pattern⟩

end StringRules

/-! ## Chains -/

theorem Chain.ofKind?_string {r : StringRules} (h : r.Decoded) :
    ofKind? (.string r) =
      some { checks := RuleMember.allChecks StringRules.members r, pattern := r.pattern? } := by
  rw [ofKind?, StringRules.checks?_eq h]
  rfl

/-- Whether a field is required is kept apart from the rest of its chain. -/
theorem Chain.written_required {chain chain' : Chain} (h : chain.required = chain'.required)
    (required required' : Bool) :
    { chain with required := required }.written = { chain' with required := required' }.written ↔
      required = required' ∧ chain.written = chain'.written := by
  simp only [written, WrittenChain.mk.injEq, h, true_and]
  exact and_left_comm

theorem texts_truth_eq_iff (const const' : Option Bool) :
    Check.texts (const.toList.map .truth) = Check.texts (const'.toList.map .truth) ↔
      const = const' := by
  rcases const with _ | _ | _ <;> rcases const' with _ | _ | _ <;>
    simp [Check.texts, Check.text, Check.refine]

/-- The chains of two rules of the same kind. -/
theorem KindRules.written_eq_iff {kind kind' : KindRules FieldRules} (hsame : kind.SameKind kind')
    (htexts : ∀ t ∈ kind.readTexts, t.isUndecodable = false)
    (htexts' : ∀ t ∈ kind'.readTexts, t.isUndecodable = false) :
    ∃ chain chain', Chain.ofKind? kind = some chain ∧ Chain.ofKind? kind' = some chain' ∧
      chain.required = chain'.required ∧ (chain.written = chain'.written ↔ kind.Agree kind') := by
  cases hsame with
  | int32 k r r' =>
    refine ⟨_, _, rfl, rfl, rfl, ?_⟩
    simpa [Chain.written, Agree] using r.texts_numberChecks_eq_iff r'
  | int64 k r r' =>
    refine ⟨_, _, rfl, rfl, rfl, ?_⟩
    simpa [Chain.written, Agree] using r.texts_wideChecks_eq_iff r'
  | bool const const' =>
    refine ⟨_, _, rfl, rfl, rfl, ?_⟩
    simpa [Chain.written, Agree] using texts_truth_eq_iff const const'
  | string r r' =>
    have h := StringRules.Decoded.of_readTexts htexts
    have h' := StringRules.Decoded.of_readTexts htexts'
    refine ⟨_, _, Chain.ofKind?_string h, Chain.ofKind?_string h', rfl, ?_⟩
    simpa [Chain.written, Agree] using StringRules.texts_eq_iff_agree h h'
  | bytes r r' =>
    refine ⟨_, _, rfl, rfl, rfl, ?_⟩
    simpa [Chain.written, Agree] using r.texts_checks_eq_iff r'
  | enum r r' =>
    refine ⟨_, _, rfl, rfl, rfl, ?_⟩
    simpa [Chain.written, Agree] using r.texts_checks_and_eq_iff r'
  | map r r' =>
    refine ⟨_, _, rfl, rfl, rfl, ?_⟩
    simpa [Chain.written, Agree] using r.texts_checks_eq_iff r'

namespace Field

/-- **Chains keep what rules say.** Take two fields whose rules are of one kind, an integer, a
    string, a truth value, bytes, an enum or a map, with all the texts that are read decoded. Both
    have a chain, without a notice, and the two chains are written alike if and only if the rules
    agree on whether the field is required and on every member that has an effect. -/
theorem chain_written_eq_iff {field field' : Field} {required required' : Bool}
    {kind kind' : KindRules FieldRules} (hrules : field.rules? = some ⟨required, some kind⟩)
    (hrules' : field'.rules? = some ⟨required', some kind'⟩) (hsame : kind.SameKind kind')
    (htexts : ∀ t ∈ kind.readTexts ++ kind'.readTexts, t.isUndecodable = false) (loader : Loader)
    (hloader : loader.found = true) :
    ∃ chain chain', field.chain loader = ⟨[], .done true, .ok chain⟩ ∧
      field'.chain loader = ⟨[], .done true, .ok chain'⟩ ∧
      (chain.written = chain'.written ↔ required = required' ∧ kind.Agree kind') := by
  rw [List.forall_mem_append] at htexts
  obtain ⟨chain, chain', hchain, hchain', hrequired, hwritten⟩ :=
    KindRules.written_eq_iff hsame htexts.1 htexts.2
  refine ⟨{ chain with required := required }, { chain' with required := required' }, ?_, ?_, ?_⟩
  · rw [Field.chain_of_rules hrules hloader, Chain.ofRules?]
    simp [hchain]
  · rw [Field.chain_of_rules hrules' hloader, Chain.ofRules?]
    simp [hchain']
  · rw [Chain.written_required hrequired, hwritten]

/-- A text in quotes is no list of texts, however it is quoted, and a length of zero is none. -/
theorem chain_written_of_quoted_list :
    let field (rules : StringRules) : Field :=
      ⟨"tag", 1, .single (.scalar .string), false, some ⟨false, some ⟨true, some (.string rules)⟩⟩⟩
    let one : StringRules := { oneOf := ["a\", \"b"], minLen := some 0 }
    let same : StringRules := { oneOf := ["a\", \"b"], const := some "" }
    let two : StringRules := { oneOf := ["a", "b"] }
    ∃ chain chain' chain'', (field one).chain true = ⟨[], .done true, .ok chain⟩ ∧
      (field same).chain true = ⟨[], .done true, .ok chain'⟩ ∧
      (field two).chain true = ⟨[], .done true, .ok chain''⟩ ∧
      chain.written = chain'.written ∧ chain.written ≠ chain''.written := by
  intro field one same two
  have hrules : ∀ r, (field r).rules? = some ⟨true, some (.string r)⟩ := fun _ => rfl
  obtain ⟨chain, chain', hchain, hchain', hsame⟩ :=
    chain_written_eq_iff (hrules one) (hrules same) (.string one same) (by decide) true rfl
  obtain ⟨chain₁, chain'', hchain₁, hchain'', htwo⟩ :=
    chain_written_eq_iff (hrules one) (hrules two) (.string one two) (by decide) true rfl
  obtain rfl : chain = chain₁ := by
    rw [hchain] at hchain₁
    exact Except.ok.inj (congrArg Report.outcome hchain₁)
  refine ⟨chain, chain', chain'', hchain, hchain', hchain'', hsame.2 ⟨rfl, ?_⟩, ?_⟩
  · exact ⟨rfl, rfl, rfl, rfl, rfl, rfl, rfl, rfl, rfl, rfl, fun _ _ => Iff.rfl⟩
  · intro heq
    have hone := (htwo.1 heq).2.oneOf
    exact absurd hone (by decide)

end Field

end ProtoSchema
