import ProtoSchema.Module.Render
import ProtoSchema.Proofs.Rules.Confinement

set_option autoImplicit false

/-! # Rules do not break out of their literals

Whatever the texts in the rules of a field say, the expression of the field is one line of code with
closed literals and matching brackets, and what these texts say is seen inside of literals only
(`Field.property_confined`). The expression is compared with the one for masked rules: both are
composed of the same parts, and each part is read like its masked form. -/

namespace ProtoSchema

open Text (isPlain isPlain_of PlainText ReadAlike isLineBreak outsideLiterals?)

/-! ## Types -/

/-- Whether a name is an identifier: letters, digits and underscores, with no digit in front. -/
def Name.isIdentifier (name : String) : Bool :=
  match name.toList with
  | [] => false
  | c :: rest => (c.isAlpha || c = '_') && rest.all fun d => d.isAlphanum || d = '_'

theorem Name.plain_of_isIdentifier {name : String} (h : isIdentifier name = true) :
    PlainText name := by
  have hchar : ∀ c : Char, (c.isAlphanum || c = '_') = true → isPlain c = true :=
    fun c hc => isPlain_of (p := fun c => c.isAlphanum || c = '_') (by decide) hc
  unfold isIdentifier at h
  intro c hc
  split at h
  · next hnil =>
    rw [hnil] at hc
    cases hc
  · next first rest hcons =>
    rw [Bool.and_eq_true, List.all_eq_true] at h
    rw [hcons] at hc
    rcases List.mem_cons.1 hc with rfl | hc
    · refine hchar c ?_
      have hfirst := h.1
      rw [Char.isAlphanum]
      grind
    · exact hchar c (h.2 c hc)

/-- The name of the enum or message that is referred to. -/
def Target.typeName? : Target → Option RawText
  | scalar _ => none
  | enum ref => some ref.name
  | message ref => some ref.name

/-- The name of the enum or message that a field refers to. -/
def FieldType.typeName? (type : FieldType) : Option RawText :=
  type.target?.bind Target.typeName?

/-- The name of the enum or message in a type. -/
def SchemaType.name? : SchemaType → Option RawText
  | enum name => some name
  | own name => some name
  | deferred name => some name
  | foreign name => some name
  | array item => item.name?
  | record _ value => value.name?
  | _ => none

namespace SchemaType

theorem name?_defer (names : List RawText) (t : SchemaType) : (t.defer names).name? = t.name? := by
  induction t with
  | own name =>
    show (if names.contains name then deferred name else own name).name? = some name
    split <;> rfl
  | array item ih => exact ih
  | record key value ih => exact ih
  | _ => rfl

theorem name?_wellKnown {fullName : RawText} {t : SchemaType} (h : wellKnown? fullName = some t) :
    t.name? = none := by
  obtain ⟨message, _, rfl⟩ := Option.map_eq_some_iff.1 h
  rfl

theorem keySchema_readAlike (key : Option Scalar) :
    ReadAlike (keySchema key) (keySchema key) := by
  refine .of_isSome ?_
  cases key with
  | none => decide
  | some s => cases s <;> decide

theorem wellKnown_readAlike (message : WellKnown) :
    ReadAlike message.schema message.schema := by
  refine .of_isSome ?_
  cases message <;> decide

theorem schemaName_readAlike {name : RawText} (h : PlainText name.shown) :
    ReadAlike (Name.schema name.shown) (Name.schema name.shown) :=
  (h.append (by decide)).readAlike

theorem lazy_readAlike {s : String} (h : ReadAlike s s) :
    ReadAlike ("z.lazy(() => " ++ s ++ ")") ("z.lazy(() => " ++ s ++ ")") := by
  have heq : "z.lazy(() => " ++ s ++ ")" = "z.lazy(" ++ ("() => " ++ s) ++ ")" := by
    apply String.toList_injective
    simp
  rw [heq]
  exact ((ReadAlike.of_isSome (by decide)).append h).applied "z.lazy" rfl (by decide)

theorem record_readAlike {k v : String} (hk : ReadAlike k k) (hv : ReadAlike v v) :
    ReadAlike ("z.record(" ++ k ++ ", " ++ v ++ ")") ("z.record(" ++ k ++ ", " ++ v ++ ")") := by
  have heq : "z.record(" ++ k ++ ", " ++ v ++ ")" = "z.record(" ++ (k ++ ", " ++ v) ++ ")" := by
    simp only [String.append_assoc]
  rw [heq]
  exact ((hk.append (.of_isSome (by decide))).append hv).applied "z.record" rfl (by decide)

/-- The schema of a type is code if the name in it is. -/
theorem schema_readAlike {t : SchemaType} (h : ∀ name, t.name? = some name → PlainText name.shown) :
    ReadAlike t.schema t.schema := by
  induction t with
  | unknown => exact .of_isSome (by decide)
  | scalar type => exact keySchema_readAlike type
  | wellKnown message => exact wellKnown_readAlike message
  | enum name => exact (h name rfl).readAlike.applied "z.enum" rfl (by decide)
  | own name => exact schemaName_readAlike (h name rfl)
  | foreign name => exact schemaName_readAlike (h name rfl)
  | deferred name => exact lazy_readAlike (schemaName_readAlike (h name rfl))
  | array item ih => exact (ih h).applied "z.array" rfl (by decide)
  | record key value ih => exact record_readAlike (keySchema_readAlike key) (ih h)

end SchemaType

theorem Target.name?_schemaType (path : String) (t : Target) {name : RawText}
    (h : (t.schemaType path).name? = some name) : t.typeName? = some name := by
  cases t with
  | scalar type => cases h
  | enum ref => exact h
  | message ref =>
    rw [Target.schemaType] at h
    split at h
    · next type hknown =>
      rw [SchemaType.name?_wellKnown hknown] at h
      cases h
    · split at h <;> exact h

theorem FieldType.name?_schemaType (path : String) (type : FieldType) {name : RawText}
    (h : (type.schemaType path).name? = some name) : type.typeName? = some name := by
  cases type with
  | unknown => cases h
  | single target => exact target.name?_schemaType path h
  | list target => exact target.name?_schemaType path h
  | map key value =>
    cases value with
    | none => cases h
    | some target => exact target.name?_schemaType path h

/-! ## Expressions -/

theorem Check.textAll_readAlike (checks : List Check) :
    ReadAlike (textAll checks) (textAll (checks.map masked)) := by
  unfold textAll
  rw [List.map_map]
  refine .join ?_
  rw [List.forall₂_map_left_iff, List.forall₂_map_right_iff, List.forall₂_same]
  exact fun c _ => c.text_readAlike

namespace Expression

/-- An expression with its checks masked. -/
def masked (e : Expression) : Expression :=
  { e with itemChecks := e.itemChecks.map Check.masked, checks := e.checks.map Check.masked }

theorem base_readAlike {type : SchemaType} (itemChecks : List Check)
    (h : ∀ name, type.name? = some name → PlainText name.shown) :
    ReadAlike (base type itemChecks) (base type (itemChecks.map Check.masked)) := by
  have hschema := SchemaType.schema_readAlike h
  cases type with
  | array item =>
    have heq : ∀ s : String, "z.array(" ++ item.schema ++ s ++ ")" =
        "z.array(" ++ (item.schema ++ s) ++ ")" := by
      intro s
      simp only [String.append_assoc]
    show ReadAlike ("z.array(" ++ item.schema ++ _ ++ ")") ("z.array(" ++ item.schema ++ _ ++ ")")
    rw [heq, heq]
    exact ((SchemaType.schema_readAlike (t := item) h).append
      (Check.textAll_readAlike itemChecks)).applied "z.array" rfl (by decide)
  | _ => exact hschema

/-- An expression is code, and outside of literals it is the masked expression. -/
theorem text_readAlike (e : Expression)
    (h : ∀ name, e.type.name? = some name → PlainText name.shown) :
    ReadAlike e.text e.masked.text := by
  refine ((base_readAlike e.itemChecks h).append (Check.textAll_readAlike e.checks)).append ?_
  show ReadAlike _ (if e.optional then ".optional()" else "")
  split <;> exact .of_isSome (by decide)

end Expression

theorem patternCheck_masked (make : String → Check)
    (hmake : ∀ s, (make s).masked = make (Text.mask s)) (pattern : Option RawText) :
    patternCheck make (pattern.map RawText.masked) =
      (patternCheck make pattern).map (List.map Check.masked) := by
  cases pattern with
  | none => rfl
  | some t =>
    cases t with
    | text source => exact congrArg (fun c => Except.ok [c]) (hmake source).symm
    | undecodable bytes => rfl

namespace Chain

theorem listItemChecks_masked (chain : Chain) :
    chain.masked.listItemChecks = chain.listItemChecks.map (List.map Check.masked) := by
  have hnone : Check.AllBare (listCheck (fun ns => .noneOf (.enums ns)) chain.itemNoneOf) :=
    .listCheck (fun _ => rfl) _
  unfold listItemChecks
  show (patternCheck .patternOrEmpty (chain.itemPattern.map RawText.masked) >>= _) = _
  rw [patternCheck_masked _ fun _ => rfl]
  cases patternCheck .patternOrEmpty chain.itemPattern with
  | error e => rfl
  | ok pattern =>
    show Except.ok _ = Except.ok _
    rw [List.map_append, List.map_append, hnone]
    rfl

theorem fieldChecks_masked (chain : Chain) (type : FieldType) :
    chain.masked.fieldChecks type = (chain.fieldChecks type).map (List.map Check.masked) := by
  have hmake : ∀ s : String,
      Check.masked ((if chain.required then Check.pattern else Check.patternOrEmpty) s) =
        (if chain.required then Check.pattern else Check.patternOrEmpty) (Text.mask s) := by
    intro s
    split <;> rfl
  unfold fieldChecks
  show (patternCheck (if chain.required then Check.pattern else Check.patternOrEmpty)
    (chain.pattern.map RawText.masked) >>= _) = _
  rw [patternCheck_masked _ hmake]
  cases patternCheck (if chain.required then .pattern else .patternOrEmpty) chain.pattern with
  | error e => rfl
  | ok pattern =>
    show Except.ok (_ ++ _ ++ _) = Except.ok (List.map Check.masked (_ ++ _ ++ _))
    have hchecks : chain.masked.checks = chain.checks.map Check.masked := rfl
    have hdefined : chain.masked.definedOnly = chain.definedOnly := rfl
    rw [List.map_append, List.map_append, hchecks, hdefined]
    congr 2
    -- the check on the zero value holds no text
    split
    · split <;> rfl
    · rfl

end Chain

theorem Field.expression_masked (field : Field) (path : String) (recursive : List RawText)
    (chain : Chain) :
    field.expression path recursive chain.masked =
      (field.expression path recursive chain).map Expression.masked := by
  rw [Field.expression_def, Field.expression_def, chain.fieldChecks_masked]
  have hitems : (if field.type.isList then chain.masked.listItemChecks else pure []) =
      (if field.type.isList then chain.listItemChecks else pure []).map
        (List.map Check.masked) := by
    split
    · exact chain.listItemChecks_masked
    · rfl
  rw [hitems]
  cases (if field.type.isList then chain.listItemChecks else pure []) with
  | error e => rfl
  | ok itemChecks => cases chain.fieldChecks field.type <;> rfl

/-! ## Properties -/

theorem FieldRules.chain_masked (bindings : Bool) (rules : FieldRules) :
    rules.masked.chain bindings = (rules.chain bindings).masked := by
  unfold FieldRules.chain
  split
  · rw [Chain.ofRules?_masked]
    cases Chain.ofRules? rules <;> rfl
  · rfl

namespace Field

/-- The same field with other rules. -/
def withRules (field : Field) (rules : FieldRules) : Field :=
  { field with options := some ⟨field.deprecated, some rules⟩ }

theorem chain_withRules (loader : Loader) (field : Field) (rules : FieldRules) :
    ((field.withRules rules).chain loader).outcome = .ok (rules.chain loader.found) :=
  (field.withRules rules).chain_eq loader

/-- The property of a field with rules that have an expression. Only the name of the field can still
    stand in the way. -/
theorem property_withRules (loader : Loader) (path : String) (recursive : List RawText)
    (field : Field) {rules : FieldRules} {e : Expression}
    (h : field.expression path recursive (rules.chain loader.found) = .ok e) :
    ((field.withRules rules).property path recursive loader).outcome =
      (TextUse.boundaries.refuseIf field.name.isUndecodable).map fun _ =>
        ⟨Name.camelCase field.name.shown, e, field.deprecated⟩ := by
  have hexpression : (field.withRules rules).expression path recursive (rules.chain loader.found) =
      .ok e := h
  rw [Field.property_outcome, chain_withRules]
  show ((field.withRules rules).expression path recursive (rules.chain loader.found) >>= _) = _
  rw [hexpression]
  show (TextUse.boundaries.refuseIf field.name.isUndecodable >>= _) = _
  cases TextUse.boundaries.refuseIf field.name.isUndecodable <;> rfl

theorem exists_expression (path : String) (recursive : List RawText) (field : Field) {chain : Chain}
    (h : ∀ pattern ∈ chain.patterns, pattern.isUndecodable = false) :
    ∃ e, field.expression path recursive chain = .ok e := by
  cases hexpression : field.expression path recursive chain with
  | ok e => exact ⟨e, rfl⟩
  | error error =>
    obtain ⟨_, pattern, hpattern, hbad⟩ := Field.expression_eq_error hexpression
    have hmem : pattern ∈ chain.patterns := by simpa [Chain.patterns] using hpattern
    rw [h pattern hmem] at hbad
    cases hbad

/-- Chains that are the same when masked have expressions that are. -/
theorem exists_expression_of_masked {path : String} {recursive : List RawText} {field : Field}
    {chain chain' : Chain} (hsame : chain.masked = chain'.masked) {e : Expression}
    (he : field.expression path recursive chain = .ok e) :
    ∃ e', field.expression path recursive chain' = .ok e' ∧ e'.masked = e.masked := by
  have hmasked := field.expression_masked path recursive chain
  rw [hsame, field.expression_masked, he] at hmasked
  cases he' : field.expression path recursive chain' with
  | error error =>
    rw [he'] at hmasked
    cases hmasked
  | ok e' =>
    rw [he'] at hmasked
    exact ⟨e', rfl, Except.ok.inj hmasked⟩

theorem expression_readAlike {path : String} {recursive : List RawText} {field : Field}
    (hname : ∀ name, field.type.typeName? = some name → Name.isIdentifier name.shown = true)
    {chain : Chain} {e : Expression} (he : field.expression path recursive chain = .ok e) :
    ReadAlike e.text e.masked.text := by
  refine e.text_readAlike ?_
  intro name hfound
  rw [(Field.expression_eq_ok he).1, SchemaType.name?_defer] at hfound
  exact Name.plain_of_isIdentifier (hname name (FieldType.name?_schemaType path _ hfound))

end Field

/-- The line of a property has no line breaks but those of its name. -/
theorem Property.mem_name_of_lineBreak {p : Property}
    (h : ∀ c ∈ p.expression.text.toList, isLineBreak c = false) {c : Char}
    (hc : c ∈ ("  " ++ p.name ++ ": " ++ p.expression.text ++ ",").toList)
    (hbreak : isLineBreak c = true) : c ∈ p.name.toList := by
  have hfixed : ∀ s, PlainText s → c ∉ s.toList := by
    intro s hs hmem
    have hplain := hs c hmem
    rw [isLineBreak, Bool.or_eq_true, decide_eq_true_eq, decide_eq_true_eq] at hbreak
    rcases hbreak with rfl | rfl <;> cases hplain
  simp only [String.toList_append, List.mem_append] at hc
  rcases hc with (((hc | hc) | hc) | hc) | hc
  · exact absurd hc (hfixed _ (by decide))
  · exact hc
  · exact absurd hc (hfixed _ (by decide))
  · rw [h c hc] at hbreak
    cases hbreak
  · exact absurd hc (hfixed _ (by decide))

/-- Let the type that a field refers to have an identifier as its name, and let the patterns in its
    rules be decoded. Then the field has an expression that is one line of code with closed
    literals and matching brackets. Other texts in the rules change nothing outside of literals. -/
theorem Field.property_confined (loader : Loader) (path : String) (recursive : List RawText)
    (field : Field)
    (hname : ∀ name, field.type.typeName? = some name → Name.isIdentifier name.shown = true)
    (rules rules' : FieldRules)
    (hdecoded : ∀ pattern ∈ rules.patterns, pattern.isUndecodable = false)
    (hsame : rules.masked = rules'.masked) :
    ∃ (p p' : Property) (outside : List Char) (line : String),
      ((field.withRules rules).property path recursive loader).outcome =
        (TextUse.boundaries.refuseIf field.name.isUndecodable).map (fun _ => p) ∧
      ((field.withRules rules').property path recursive loader).outcome =
        (TextUse.boundaries.refuseIf field.name.isUndecodable).map (fun _ => p') ∧
      outsideLiterals? p.expression.text = some outside ∧
      outsideLiterals? p'.expression.text = some outside ∧
      (∀ c ∈ p.expression.text.toList, isLineBreak c = false) ∧
      p.lines = (if field.deprecated then ["  /** @deprecated */"] else []) ++ [line] ∧
      ∀ c ∈ line.toList, isLineBreak c = true → c ∈ (Name.camelCase field.name.shown).toList := by
  have hpatterns : ∀ pattern ∈ (rules.chain loader.found).patterns, pattern.isUndecodable = false :=
    fun pattern hpattern => hdecoded pattern (rules.patterns_chain loader.found hpattern)
  have hchains : (rules.chain loader.found).masked = (rules'.chain loader.found).masked := by
    rw [← rules.chain_masked, hsame, rules'.chain_masked]
  obtain ⟨e, he⟩ := exists_expression path recursive field hpatterns
  obtain ⟨e', he', hmasked⟩ := exists_expression_of_masked hchains he
  have halike : ReadAlike e.text e'.text := by
    refine (expression_readAlike hname he).trans_right ?_
    rw [← hmasked]
    exact expression_readAlike hname he'
  obtain ⟨outside, hread, hread'⟩ := halike.outsideLiterals?
  have hbreak := Text.isLineBreak_of_outsideLiterals? hread
  refine ⟨⟨Name.camelCase field.name.shown, e, field.deprecated⟩,
    ⟨Name.camelCase field.name.shown, e', field.deprecated⟩, outside,
    "  " ++ Name.camelCase field.name.shown ++ ": " ++ e.text ++ ",",
    field.property_withRules loader path recursive he,
    field.property_withRules loader path recursive he', hread, hread', hbreak, rfl, ?_⟩
  intro c hc hline
  exact Property.mem_name_of_lineBreak
    (p := ⟨Name.camelCase field.name.shown, e, field.deprecated⟩) hbreak hc hline

/-- Rules for the items of a list that have one text in all their places. -/
def FieldRules.withText (text : String) : FieldRules :=
  { kind := some (.list { items := some { kind := some (.string {
      const := some text
      pattern := some text
      startsWith := some text
      endsWith := some text
      contains := some text
      oneOf := [text, text]
      noneOf := [text] }) } }) }

/-- A text that tries to close a literal, its brackets and its line is as good as any other. -/
theorem Field.property_confined_of_hostile_text :
    ∃ (p p' : Property) (outside : List Char),
      ((Field.withRules ⟨"tags", 1, .list (.enum ⟨"Tag", "shop.Tag", "shop"⟩), false, none⟩
        (.withText "\"]\x7d));\n\\")).property "shop" [] true).outcome = .ok p ∧
      ((Field.withRules ⟨"tags", 1, .list (.enum ⟨"Tag", "shop.Tag", "shop"⟩), false, none⟩
        (.withText "plain")).property "shop" [] true).outcome = .ok p' ∧
      outsideLiterals? p.expression.text = some outside ∧
      outsideLiterals? p'.expression.text = some outside := by
  obtain ⟨p, p', outside, _, hp, hp', hread, hread', _⟩ := Field.property_confined true "shop" []
    ⟨"tags", 1, .list (.enum ⟨"Tag", "shop.Tag", "shop"⟩), false, none⟩
    (by rintro name ⟨⟩; decide) (.withText "\"]\x7d));\n\\") (.withText "plain")
    (by
      intro pattern hpattern
      obtain rfl := List.mem_singleton.1 hpattern
      rfl)
    rfl
  exact ⟨p, p', outside, hp, hp', hread, hread'⟩

end ProtoSchema
