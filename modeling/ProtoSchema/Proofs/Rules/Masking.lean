import ProtoSchema.Proofs.Module.Decoding

set_option autoImplicit false

/-! # Rules with their texts masked

Masking puts one and the same text in place of every text that is not empty. Two payloads that are
the same when masked differ only in what their texts say. Rules, checks and chains can all be
masked, and it makes no difference whether that is done before or after the rules are read
(`Chain.ofRules?_masked`): no decision on the way looks into a text. -/

namespace ProtoSchema

/-! ## Masked rules -/

/-- The text that stands for every text that is not empty. -/
def Text.mask (s : String) : String :=
  if s = "" then "" else "x"

/-- A masked text. One that cannot be decoded stays as it is. -/
def RawText.masked : RawText → RawText
  | text s => text (Text.mask s)
  | undecodable bytes => undecodable bytes

def StringRules.masked (rules : StringRules) : StringRules :=
  { rules with
    const := rules.const.map RawText.masked
    pattern := rules.pattern.map RawText.masked
    startsWith := rules.startsWith.map RawText.masked
    endsWith := rules.endsWith.map RawText.masked
    contains := rules.contains.map RawText.masked
    notContains := rules.notContains.map RawText.masked
    oneOf := rules.oneOf.map RawText.masked
    noneOf := rules.noneOf.map RawText.masked }

/-- Masked rules of one kind, with `nested` for the rules inside of them. -/
def KindRules.masked {ρ : Type} (nested : ρ → ρ) : KindRules ρ → KindRules ρ
  | string rules => string rules.masked
  | bytes rules => bytes { rules with pattern := rules.pattern.map RawText.masked }
  | list rules => list { rules with items := rules.items.map nested }
  | map rules =>
    map { rules with keys := rules.keys.map nested, values := rules.values.map nested }
  | kind => kind

/-- Masked rules of an item. Rules inside of them have no effect and are left out. -/
def FieldRules.maskedItem (rules : FieldRules) : FieldRules :=
  { rules with kind := rules.kind.map (KindRules.masked fun _ => {}) }

/-- Masked rules of a field. -/
def FieldRules.masked (rules : FieldRules) : FieldRules :=
  { rules with kind := rules.kind.map (KindRules.masked FieldRules.maskedItem) }

/-! ## Masked checks -/

def Operand.masked : Operand → Operand
  | text s => text (Text.mask s)
  | v => v

def Operands.masked : Operands → Operands
  | texts ss => texts (ss.map Text.mask)
  | vs => vs

def Check.masked : Check → Check
  | equals v => equals v.masked
  | oneOf vs => oneOf vs.masked
  | noneOf vs => noneOf vs.masked
  | startsWith s => startsWith (Text.mask s)
  | endsWith s => endsWith (Text.mask s)
  | includes s => includes (Text.mask s)
  | pattern source => pattern (Text.mask source)
  | patternOrEmpty source => patternOrEmpty (Text.mask source)
  | c => c

def Chain.masked (chain : Chain) : Chain :=
  { chain with
    checks := chain.checks.map Check.masked
    itemChecks := chain.itemChecks.map Check.masked
    pattern := chain.pattern.map RawText.masked
    itemPattern := chain.itemPattern.map RawText.masked }

/-! ## Texts -/

theorem RawText.isEmpty_masked (t : RawText) : t.masked.isEmpty = t.isEmpty := by
  cases t with
  | text s => by_cases hs : s = "" <;> simp [masked, isEmpty, Text.mask, hs]
  | undecodable bytes => rfl

theorem RawText.decoded?_masked (t : RawText) : t.masked.decoded? = t.decoded?.map Text.mask := by
  cases t <;> rfl

/-! ## Checks that leave nothing to mask -/

/-- Checks that hold no text. -/
def Check.AllBare (checks : List Check) : Prop :=
  checks.map Check.masked = checks

namespace Check.AllBare

theorem nil : AllBare [] := rfl

theorem append {checks checks' : List Check} (h : AllBare checks) (h' : AllBare checks') :
    AllBare (checks ++ checks') := by
  rw [AllBare, List.map_append, h, h']

theorem singleton {check : Check} (h : check.masked = check) : AllBare [check] :=
  congrArg (· :: []) h

theorem sizeCheck {make : Nat → Check} (h : ∀ n, (make n).masked = make n) (n : Option Nat) :
    AllBare (sizeCheck make n) := by
  unfold ProtoSchema.sizeCheck
  split
  · exact nil
  · split
    · exact nil
    · exact singleton (h _)

theorem constCheck {α : Type} {make : α → Check} (h : ∀ a, (make a).masked = make a)
    (isZero : α → Bool) (value : Option α) :
    AllBare (NumericRules.constCheck make isZero value) := by
  unfold NumericRules.constCheck
  split
  · exact nil
  · split
    · exact nil
    · exact singleton (h _)

theorem listCheck {α : Type} {make : List α → Check}
    (h : ∀ values, (make values).masked = make values) (values : List α) :
    AllBare (listCheck make values) := by
  unfold ProtoSchema.listCheck
  split
  · exact nil
  · exact singleton (h _)

theorem bounds {α : Type} {make : Comparator → α → Check}
    (h : ∀ c a, (make c a).masked = make c a) (rules : NumericRules α) :
    AllBare (rules.bounds make) := by
  unfold NumericRules.bounds
  refine append ?_ ?_
  · cases rules.lower with
    | none => exact nil
    | some b => exact singleton (h _ _)
  · cases rules.upper with
    | none => exact nil
    | some b => exact singleton (h _ _)

theorem numberChecks {α : Type} (rules : NumericRules α) (number : α → Number) :
    AllBare (rules.numberChecks number) :=
  (((bounds (fun _ _ => rfl) rules).append (constCheck (fun _ => rfl) _ _)).append
    (listCheck (fun _ => rfl) _)).append (listCheck (fun _ => rfl) _)

theorem wideChecks (rules : NumericRules Int) : AllBare rules.wideChecks :=
  (((bounds (fun _ _ => rfl) rules).append (constCheck (fun _ => rfl) _ _)).append
    (listCheck (fun _ => rfl) _)).append (listCheck (fun _ => rfl) _)

theorem floatChecks (rules : FloatRules) : AllBare rules.checks := by
  refine (numberChecks _ _).append ?_
  split
  · exact singleton rfl
  · exact nil

theorem truth (const : Option Bool) : AllBare (const.toList.map Check.truth) := by
  cases const <;> rfl

theorem enumChecks (rules : EnumRules) : AllBare rules.checks :=
  ((constCheck (fun _ => rfl) _ _).append (listCheck (fun _ => rfl) _)).append
    (listCheck (fun _ => rfl) _)

theorem bytesChecks (rules : BytesRules) : AllBare rules.checks :=
  (sizeCheck (fun _ => rfl) _).append (sizeCheck (fun _ => rfl) _)

theorem listChecks {ρ : Type} (rules : ListRules ρ) : AllBare rules.checks := by
  refine ((sizeCheck (fun _ => rfl) _).append (sizeCheck (fun _ => rfl) _)).append ?_
  split
  · exact singleton rfl
  · exact nil

theorem mapChecks {ρ : Type} (rules : MapRules ρ) : AllBare rules.checks :=
  (sizeCheck (fun _ => rfl) _).append (sizeCheck (fun _ => rfl) _)

end Check.AllBare

/-! ## Strings -/

theorem textCheck?_masked (make : String → Check)
    (hmake : ∀ s, (make s).masked = make (Text.mask s)) (t : Option RawText) :
    textCheck? make (t.map RawText.masked) = (textCheck? make t).map (List.map Check.masked) := by
  cases t with
  | none => rfl
  | some t =>
    simp only [Option.map_some, textCheck?, RawText.decoded?_masked, Option.map_map]
    congr 1
    funext s
    by_cases hs : s = ""
    · simp [Text.mask, hs]
    · have hmask : Text.mask s ≠ "" := by simp [Text.mask, hs]
      simp [hs, hmask, hmake]

theorem mapM_decoded?_masked (ts : List RawText) :
    (ts.map RawText.masked).mapM RawText.decoded? =
      (ts.mapM RawText.decoded?).map (List.map Text.mask) := by
  induction ts with
  | nil => rfl
  | cons t ts ih =>
    rw [List.map_cons, List.mapM_cons, List.mapM_cons, ih, RawText.decoded?_masked]
    cases t.decoded? with
    | none => rfl
    | some s => cases ts.mapM RawText.decoded? <;> rfl

theorem listCheck_masked (make : List String → Check)
    (hmake : ∀ ss, (make ss).masked = make (ss.map Text.mask)) (ss : List String) :
    listCheck make (ss.map Text.mask) = (listCheck make ss).map Check.masked := by
  cases ss with
  | nil => rfl
  | cons s ss => exact congrArg (· :: []) (hmake (s :: ss)).symm

namespace StringRules

theorem sizeChecks_bare (rules : StringRules) : Check.AllBare rules.sizeChecks :=
  ((Check.AllBare.sizeCheck (fun _ => rfl) _).append
    (Check.AllBare.sizeCheck (fun _ => rfl) _)).append (Check.AllBare.sizeCheck (fun _ => rfl) _)

theorem formatCheck_bare (format : Option FormatRule) :
    Check.AllBare (format.bind FormatRule.check?).toList := by
  cases hcheck : format.bind FormatRule.check? with
  | none => exact .nil
  | some check =>
    obtain ⟨rule, _, hcheck⟩ := Option.bind_eq_some_iff.1 hcheck
    unfold FormatRule.check? at hcheck
    split at hcheck
    · obtain ⟨checked, _, rfl⟩ := Option.map_eq_some_iff.1 hcheck
      exact .singleton rfl
    · cases hcheck

/-- No decision on the way to the checks of a string looks into a text. -/
theorem checks?_masked (rules : StringRules) :
    rules.masked.checks? = rules.checks?.map (List.map Check.masked) := by
  have hsizes : rules.masked.sizeChecks = rules.sizeChecks.map Check.masked :=
    rules.sizeChecks_bare.symm
  have hformat : (rules.format.bind FormatRule.check?).toList =
      (rules.format.bind FormatRule.check?).toList.map Check.masked :=
    (formatCheck_bare rules.format).symm
  unfold checks?
  rw [hsizes]
  simp only [masked, textCheck?_masked .startsWith fun _ => rfl,
    textCheck?_masked .endsWith fun _ => rfl, textCheck?_masked .includes fun _ => rfl,
    textCheck?_masked (fun s => .equals (.text s)) fun _ => rfl, mapM_decoded?_masked,
    Option.bind_eq_bind, Option.bind_map, Option.map_bind, Function.comp_def, Option.pure_def,
    Option.map_some, List.map_append, listCheck_masked (fun ss => .oneOf (.texts ss)) fun _ => rfl,
    listCheck_masked (fun ss => .noneOf (.texts ss)) fun _ => rfl, ← hformat]

theorem pattern?_masked (rules : StringRules) :
    rules.masked.pattern? = rules.pattern?.map RawText.masked := by
  show (rules.pattern.map RawText.masked).filter _ = (rules.pattern.filter _).map RawText.masked
  cases rules.pattern with
  | none => rfl
  | some t =>
    by_cases ht : t.isEmpty
    · simp [Option.filter, RawText.isEmpty_masked, ht]
    · simp [Option.filter, RawText.isEmpty_masked, ht]

end StringRules

/-! ## Chains -/

namespace Chain

theorem masked_of_bare {checks : List Check} (h : Check.AllBare checks) (definedOnly : Bool) :
    masked { checks, definedOnly } = { checks, definedOnly } := by
  show ({ checks := checks.map Check.masked, definedOnly } : Chain) = _
  rw [h]

theorem masked_withItemChecks (chain : Chain) {checks : List Check} (h : Check.AllBare checks) :
    masked { chain with itemChecks := checks } = { chain.masked with itemChecks := checks } := by
  show { chain.masked with itemChecks := checks.map Check.masked } = _
  rw [h]

theorem withItems?_masked (chain : Chain) (items : Option (KindRules FieldRules)) :
    chain.masked.withItems? (items.map (KindRules.masked fun _ => {})) =
      (chain.withItems? items).map masked := by
  cases items with
  | none => rfl
  | some kind =>
    cases kind with
    | string rules =>
      show (rules.masked.checks?.bind fun checks => some
        { chain.masked with itemChecks := checks, itemPattern := rules.masked.pattern? }) =
        (rules.checks?.bind fun checks => some
          { chain with itemChecks := checks, itemPattern := rules.pattern? }).map masked
      rw [rules.checks?_masked, rules.pattern?_masked]
      cases rules.checks? <;> rfl
    | int32 _ rules =>
      exact congrArg some (chain.masked_withItemChecks (.bounds (fun _ _ => rfl) rules)).symm
    | int64 _ rules =>
      exact congrArg some (chain.masked_withItemChecks (.bounds (fun _ _ => rfl) rules)).symm
    | float _ rules =>
      exact congrArg some (chain.masked_withItemChecks (.bounds (fun _ _ => rfl) rules.number)).symm
    | _ => rfl

theorem ofKind?_masked (kind : KindRules FieldRules) :
    ofKind? (kind.masked FieldRules.maskedItem) = (ofKind? kind).map masked := by
  cases kind with
  | int32 _ rules => exact congrArg some (masked_of_bare (.numberChecks rules _) _).symm
  | int64 _ rules => exact congrArg some (masked_of_bare (.wideChecks rules) _).symm
  | float _ rules => exact congrArg some (masked_of_bare (.floatChecks rules) _).symm
  | bool const => exact congrArg some (masked_of_bare (.truth const) _).symm
  | bytes rules => exact congrArg some (masked_of_bare (.bytesChecks rules) _).symm
  | enum rules => exact congrArg some (masked_of_bare (.enumChecks rules) _).symm
  | map rules => exact congrArg some (masked_of_bare (.mapChecks rules) _).symm
  | message _ => rfl
  | string rules =>
    show (rules.masked.checks?.bind fun checks =>
        some { checks, pattern := rules.masked.pattern? }) =
      (rules.checks?.bind fun checks => some { checks, pattern := rules.pattern? }).map masked
    rw [rules.checks?_masked, rules.pattern?_masked]
    cases rules.checks? <;> rfl
  | list rules =>
    have hitems : (rules.items.map FieldRules.maskedItem).bind FieldRules.kind =
        (rules.items.bind FieldRules.kind).map (KindRules.masked fun _ => {}) := by
      cases rules.items <;> rfl
    show withItems? { checks := rules.checks }
      ((rules.items.map FieldRules.maskedItem).bind FieldRules.kind) = _
    rw [hitems, ← masked_of_bare (.listChecks rules), withItems?_masked]
    rfl

/-- Masking before the rules are read is masking after. -/
theorem ofRules?_masked (rules : FieldRules) :
    ofRules? rules.masked = (ofRules? rules).map masked := by
  unfold ofRules? FieldRules.masked
  cases rules.kind with
  | none => rfl
  | some kind =>
    simp only [Option.map_some, ofKind?_masked]
    cases ofKind? kind <;> rfl

end Chain

end ProtoSchema
