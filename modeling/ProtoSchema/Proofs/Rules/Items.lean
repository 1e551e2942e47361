import ProtoSchema.Proofs.Module.Failure

set_option autoImplicit false

/-! # Rules for the items of a list

The rules for the items of a list are read a second time, by `Chain.withItems?` and not by
`Chain.ofKind?`, and the two go through the kinds of rules separately. They agree as far as items
are concerned: what the rules ask of an item is what they ask of a single value, cut down to the
bounds for numbers and to the forbidden values for enums (`Chain.ItemsMirror`). Nothing of it
reaches the list as a whole (`Chain.withItems?_outside`). -/

namespace ProtoSchema

/-! ## Bounds -/

/-- Whether a check keeps a number in a range. -/
def Check.isBound : Check → Bool
  | bound _ _ => true
  | wideBound _ _ => true
  | _ => false

/-- Checks that consist of some bounds with other checks behind them. -/
def Check.BoundsFirst (bounds checks : List Check) : Prop :=
  bounds <+: checks ∧ checks.filter isBound = bounds

theorem Check.BoundsFirst.of_append {bounds rest : List Check}
    (hbounds : ∀ c ∈ bounds, c.isBound = true) (hrest : ∀ c ∈ rest, c.isBound = false) :
    BoundsFirst bounds (bounds ++ rest) := by
  have hnone : rest.filter isBound = [] := by
    rw [List.filter_eq_nil_iff]
    intro c hc
    rw [hrest c hc]
    decide
  refine ⟨List.prefix_append bounds rest, ?_⟩
  rw [List.filter_append, List.filter_eq_self.2 hbounds, hnone, List.append_nil]

theorem isBound_of_mem_listCheck {α : Type} {make : List α → Check} {values : List α} {c : Check}
    (hmake : ∀ values, (make values).isBound = false) (h : c ∈ listCheck make values) :
    c.isBound = false := by
  unfold listCheck at h
  split at h
  · cases h
  · rw [List.mem_singleton.1 h]
    exact hmake values

namespace NumericRules

variable {α : Type}

theorem isBound_of_mem_bounds {rules : NumericRules α} {make : Comparator → α → Check} {c : Check}
    (hmake : ∀ comparator a, (make comparator a).isBound = true) (h : c ∈ rules.bounds make) :
    c.isBound = true := by
  simp only [bounds, List.mem_append, Option.mem_toList,
    Option.map_eq_some_iff] at h
  rcases h with ⟨b, _, rfl⟩ | ⟨b, _, rfl⟩
  · exact hmake _ _
  · exact hmake _ _

theorem isBound_of_mem_constCheck {make : α → Check} {isZero : α → Bool} {const : Option α}
    {c : Check} (hmake : ∀ a, (make a).isBound = false) (h : c ∈ constCheck make isZero const) :
    c.isBound = false := by
  cases const with
  | none => cases h
  | some a =>
    rw [constCheck] at h
    split at h
    · cases h
    · rw [List.mem_singleton.1 h]
      exact hmake a

/-- The checks of ordinary numbers, perhaps with others behind them, start with their bounds. -/
theorem boundsFirst_numberChecks (rules : NumericRules α) (number : α → Number)
    {others : List Check} (hothers : ∀ c ∈ others, c.isBound = false) :
    Check.BoundsFirst (rules.numberBounds number) (rules.numberChecks number ++ others) := by
  rw [numberChecks, List.append_assoc, List.append_assoc, List.append_assoc]
  refine .of_append (fun c => isBound_of_mem_bounds fun _ _ => rfl) ?_
  simp only [List.forall_mem_append]
  exact ⟨fun c => isBound_of_mem_constCheck fun _ => rfl,
    fun c => isBound_of_mem_listCheck fun _ => rfl,
    fun c => isBound_of_mem_listCheck fun _ => rfl, hothers⟩

theorem boundsFirst_wideChecks (rules : NumericRules Int) :
    Check.BoundsFirst rules.wideBounds rules.wideChecks := by
  rw [wideChecks, List.append_assoc, List.append_assoc]
  refine .of_append (fun c => isBound_of_mem_bounds fun _ _ => rfl) ?_
  simp only [List.forall_mem_append]
  exact ⟨fun c => isBound_of_mem_constCheck fun _ => rfl,
    fun c => isBound_of_mem_listCheck fun _ => rfl, fun c => isBound_of_mem_listCheck fun _ => rfl⟩

end NumericRules

theorem FloatRules.boundsFirst_checks (rules : FloatRules) :
    Check.BoundsFirst (rules.number.numberBounds .double) rules.checks := by
  refine rules.number.boundsFirst_numberChecks .double fun c hc => ?_
  split at hc
  · rw [List.mem_singleton.1 hc]
    rfl
  · cases hc

/-! ## The two parts of a chain -/

namespace Chain

/-- Two chains ask the same of the value as a whole. -/
structure SameOutsideItems (c c' : Chain) : Prop where
  checks : c.checks = c'.checks
  required : c.required = c'.required
  definedOnly : c.definedOnly = c'.definedOnly
  pattern : c.pattern = c'.pattern

/-- The item slots of a chain, by the kind of the rules for the items; `single` is the chain that
    these rules give to a single value. -/
def ItemsMirror (c single : Chain) : Option (KindRules FieldRules) → Prop
  | some (.string _) =>
    c.itemChecks = single.checks ∧ c.itemPattern = single.pattern ∧ c.itemNoneOf = []
  | some (.int32 _ _) | some (.int64 _ _) | some (.float _ _) =>
    Check.BoundsFirst c.itemChecks single.checks ∧ c.itemPattern = none ∧ c.itemNoneOf = []
  | some (.enum rules) =>
    c.itemNoneOf = rules.noneOf ∧ c.itemChecks = [] ∧ c.itemPattern = none
  | _ => c.itemChecks = [] ∧ c.itemPattern = none ∧ c.itemNoneOf = []

theorem exists_of_ofRules? {required : Bool} {kind : KindRules FieldRules} {chain : Chain}
    (h : ofRules? ⟨required, some kind⟩ = some chain) :
    ∃ own, ofKind? kind = some own ∧ chain = { own with required } := by
  obtain ⟨own, hown, h⟩ := Option.bind_eq_some_iff.1 h
  exact ⟨own, hown, (Option.some.inj h).symm⟩

/-- The rules for items stay in the item slots. -/
theorem withItems?_outside {chain result : Chain} {items : Option (KindRules FieldRules)}
    (h : chain.withItems? items = some result) : result.SameOutsideItems chain := by
  unfold withItems? at h
  split at h
  · obtain ⟨checks, _, h⟩ := Option.bind_eq_some_iff.1 h
    cases h
    exact ⟨rfl, rfl, rfl, rfl⟩
  all_goals
    cases h
    exact ⟨rfl, rfl, rfl, rfl⟩

/-- The rules for items fill the slots of a list that has none as they would constrain a single
    value. -/
theorem withItems?_mirrors {checks : List Check} {kind : KindRules FieldRules}
    {result single : Chain} (h : withItems? { checks } (some kind) = some result)
    (hsingle : ofKind? kind = some single) : result.ItemsMirror single (some kind) := by
  cases kind with
  | string rules =>
    obtain ⟨own, hown, h⟩ := Option.bind_eq_some_iff.1 h
    obtain ⟨own', hown', hsingle⟩ := Option.bind_eq_some_iff.1 hsingle
    obtain rfl := Option.some.inj (hown.symm.trans hown')
    cases h
    cases hsingle
    exact ⟨rfl, rfl, rfl⟩
  | int32 _ rules =>
    cases h
    cases hsingle
    have hnone : ∀ c ∈ ([] : List Check), c.isBound = false := by simp
    exact ⟨by simpa using rules.boundsFirst_numberChecks .int hnone, rfl, rfl⟩
  | int64 _ rules =>
    cases h
    cases hsingle
    exact ⟨rules.boundsFirst_wideChecks, rfl, rfl⟩
  | float _ rules =>
    cases h
    cases hsingle
    exact ⟨rules.boundsFirst_checks, rfl, rfl⟩
  | _ =>
    cases h
    exact ⟨rfl, rfl, rfl⟩

end Chain

/-! ## Fields -/

/-- What is read of the rules for items is also read where they are the rules of a field. -/
theorem KindRules.readTexts_subset {required : Bool} (kind : KindRules FieldRules) :
    kind.readTexts ⊆ FieldRules.readTexts ⟨required, some kind⟩ := by
  cases kind with
  | list rules => exact List.nil_subset _
  | _ => exact List.Subset.refl _

namespace Field

/-- Rules with all the texts that are read decoded give their chain, without a notice. -/
theorem exists_chain_of_readTexts {field : Field} {rules : FieldRules}
    (hrules : field.rules? = some rules)
    (htexts : ∀ t ∈ rules.readTexts, t.isUndecodable = false) {loader : Loader}
    (hloader : loader.found = true) :
    ∃ chain, Chain.ofRules? rules = some chain ∧
      field.chain loader = ⟨[], .done true, .ok chain⟩ := by
  rcases Field.chain_cases hrules hloader with ⟨_, hchain⟩ | ⟨⟨t, ht, hbad⟩, _⟩
  · exact hchain
  · rw [htexts t ht] at hbad
    cases hbad

/-- **Rules for items.** Take a list with rules for its items, all texts of which are decoded, a
    field with the same rules but none for items, and a field that has the rules for the items as
    its own. All three have a chain, without a notice. The first two ask the same of the value as a
    whole, and the item slots of the first hold what the third asks for: all of it for strings, the
    bounds that it starts with for numbers, the forbidden values for enums, and nothing for any
    other kind. Without rules for items the slots are empty. -/
theorem item_rules_mirror {field plain single : Field} {required : Bool} {items : FieldRules}
    (list : ListRules FieldRules)
    (hfield : field.rules? = some ⟨required, some (.list { list with items := some items })⟩)
    (hplain : plain.rules? = some ⟨required, some (.list { list with items := none })⟩)
    (hsingle : single.rules? = some items)
    (htexts : ∀ t ∈ items.readTexts, t.isUndecodable = false) (loader : Loader)
    (hloader : loader.found = true) :
    ∃ chain whole alone, field.chain loader = ⟨[], .done true, .ok chain⟩ ∧
      plain.chain loader = ⟨[], .done true, .ok whole⟩ ∧
      single.chain loader = ⟨[], .done true, .ok alone⟩ ∧
      chain.SameOutsideItems whole ∧ chain.ItemsMirror alone items.kind ∧
      whole.ItemsMirror alone none := by
  obtain ⟨requiredItems, kind⟩ := items
  obtain ⟨alone, halone, hsingle⟩ := exists_chain_of_readTexts hsingle htexts hloader
  have hwhole : plain.chain loader =
      ⟨[], .done true, .ok { checks := list.checks, required }⟩ := by
    rw [Field.chain_of_rules hplain hloader]
    rfl
  have hlist : ∀ t ∈ FieldRules.readTexts
      ⟨required, some (.list { list with items := some ⟨requiredItems, kind⟩ })⟩,
      t.isUndecodable = false := by
    intro t ht
    cases kind with
    | none => cases ht
    | some kind => exact htexts t (kind.readTexts_subset ht)
  obtain ⟨chain, hchain, hfield⟩ := exists_chain_of_readTexts hfield hlist hloader
  refine ⟨chain, _, alone, hfield, hwhole, hsingle, ?_, ?_, rfl, rfl, rfl⟩
  · obtain ⟨filled, hfilled, rfl⟩ := Chain.exists_of_ofRules? hchain
    have houtside := Chain.withItems?_outside hfilled
    exact ⟨houtside.checks, rfl, houtside.definedOnly, houtside.pattern⟩
  · cases kind with
    | none =>
      cases hchain
      exact ⟨rfl, rfl, rfl⟩
    | some kind =>
      obtain ⟨filled, hfilled, rfl⟩ := Chain.exists_of_ofRules? hchain
      obtain ⟨own, hown, rfl⟩ := Chain.exists_of_ofRules? halone
      have hmirror := Chain.withItems?_mirrors hfilled hown
      -- whether a field is required has no part in its item slots
      cases kind <;> exact hmirror

/-- Of the rules for doubles, only the bound is asked of the items, and none of it of the list. -/
theorem item_rules_mirror_of_doubles :
    let one : Binary64 := ⟨0x3ff0000000000000⟩
    let items : FieldRules := { required := true, kind := some (.float .double
      { number := { lower := some ⟨true, one⟩, noneOf := [one] }, finite := true }) }
    let list (items : Option FieldRules) : KindRules FieldRules :=
      .list { minItems := some 2, unique := true, items }
    let field (rules : FieldRules) (type : FieldType) : Field :=
      ⟨"weight", 1, type, false, some { rules := some rules }⟩
    ∃ chain whole alone,
      (field ⟨false, some (list (some items))⟩ (.list (.scalar .double))).chain true =
        ⟨[], .done true, .ok chain⟩ ∧
      (field ⟨false, some (list none)⟩ (.list (.scalar .double))).chain true =
        ⟨[], .done true, .ok whole⟩ ∧
      (field items (.single (.scalar .double))).chain true = ⟨[], .done true, .ok alone⟩ ∧
      chain.checks = [.minSize 2, .unique] ∧ chain.required = false ∧
      chain.itemChecks = [.bound .gte (.double one)] ∧ alone.checks.length = 3 := by
  intro one items list field
  have hrules : ∀ rules type, (field rules type).rules? = some rules := fun _ _ => rfl
  obtain ⟨chain, whole, alone, hchain, hwhole, halone, houtside, hmirror, _⟩ :=
    item_rules_mirror { minItems := some 2, unique := true }
      (hrules ⟨false, some (list (some items))⟩ (.list (.scalar .double)))
      (hrules ⟨false, some (list none)⟩ (.list (.scalar .double)))
      (hrules items (.single (.scalar .double))) (by decide) true rfl
  obtain rfl : whole = { checks := [.minSize 2, .unique] } := by
    exact (Except.ok.inj (congrArg Report.outcome hwhole)).symm
  obtain rfl : alone = { required := true, checks :=
      [.bound .gte (.double one), .noneOf (.numbers [.double one]), .finite] } := by
    exact (Except.ok.inj (congrArg Report.outcome halone)).symm
  exact ⟨chain, _, _, hchain, hwhole, halone, houtside.checks, houtside.required,
    hmirror.1.2.symm, rfl⟩

end Field

end ProtoSchema
