import ProtoSchema.Proofs.Model.Filling
import ProtoSchema.Proofs.Module.Building
import ProtoSchema.Proofs.Module.Confinement

set_option autoImplicit false

/-! # How the expression of a field is composed

The expression of a field has a base that knows nothing of rules (`FieldType.baseWith`): the schema
of its type, where references to recursive messages of the same file are lazy. Rules add calls to
the items of a list and to the whole, and decide whether the field may be absent; what they add
hangs on the shape of the field and on its optional mark, but neither on its type nor on its name
nor on anything around it (`additions`). `Field.property_composed` puts the two together. -/

namespace ProtoSchema

/-! ## The base -/

/-- The reference to a target in a schema. A reference to a message of the same file whose name is
    one of the recursive ones is lazy. -/
def Target.reference (path : String) (recursive : List RawText) (target : Target) : String :=
  match target with
  | .message ref =>
    if SchemaType.wellKnown? ref.fullName = none ∧ ref.file = path ∧ ref.name ∈ recursive then
      "z.lazy(() => " ++ Name.schema ref.name.shown ++ ")"
    else (target.schemaType path).schema
  | _ => (target.schemaType path).schema

/-- The schema of a type with some text behind the item of a list, without anything that comes from
    rules. -/
def FieldType.baseWith (path : String) (recursive : List RawText) (itemSuffix : String) :
    FieldType → String
  | unknown => SchemaType.unknown.schema
  | single target => target.reference path recursive
  | list target => "z.array(" ++ target.reference path recursive ++ itemSuffix ++ ")"
  | map key value =>
    "z.record(" ++ SchemaType.keySchema key ++ ", " ++
      (value.map (Target.reference path recursive)).getD SchemaType.unknown.schema ++ ")"

/-- Well-known messages hold no references. -/
theorem SchemaType.defer_wellKnown {fullName : RawText} {type : SchemaType}
    (h : SchemaType.wellKnown? fullName = some type) (names : List RawText) :
    type.defer names = type := by
  obtain ⟨message, _, rfl⟩ := Option.map_eq_some_iff.1 h
  rfl

theorem Target.schema_defer (path : String) (recursive : List RawText) (target : Target) :
    ((target.schemaType path).defer recursive).schema = target.reference path recursive := by
  cases target with
  | scalar type => cases type <;> rfl
  | enum ref => rfl
  | message ref =>
    cases hknown : SchemaType.wellKnown? ref.fullName with
    | some type => simp [reference, schemaType, hknown, SchemaType.defer_wellKnown hknown]
    | none =>
      by_cases hfile : ref.file = path
      · by_cases hname : ref.name ∈ recursive <;>
          simp [reference, schemaType, hknown, hfile, hname, SchemaType.defer, SchemaType.schema]
      · simp [reference, schemaType, hknown, hfile, SchemaType.defer, SchemaType.schema]

/-- Without recursive names the base is the schema of the type as it stands. -/
theorem FieldType.baseWith_nil (path : String) (type : FieldType) :
    type.baseWith path [] "" = (type.schemaType path).schema := by
  have hplain : ∀ target : Target, target.reference path [] = (target.schemaType path).schema := by
    intro target
    cases target <;> simp [Target.reference]
  cases type with
  | unknown => rfl
  | single target => exact hplain target
  | list target =>
    rw [baseWith, hplain, String.append_empty]
    rfl
  | map key value =>
    rw [baseWith, funext hplain]
    cases value <;> rfl

/-- An expression without checks on items starts with its schema. -/
theorem Expression.base_nil (type : SchemaType) : Expression.base type [] = type.schema := by
  cases type with
  | array item =>
    show "z.array(" ++ item.schema ++ Check.textAll [] ++ ")" = _
    rw [Check.textAll, List.map_nil, String.join_nil, String.append_empty]
    rfl
  | _ => rfl

theorem FieldType.base_defer (path : String) (recursive : List RawText) (type : FieldType)
    {itemChecks : List Check} (hitems : type.isList = false → itemChecks = []) :
    Expression.base ((type.schemaType path).defer recursive) itemChecks =
      type.baseWith path recursive (Check.textAll itemChecks) := by
  cases type with
  | list target =>
    show "z.array(" ++ ((target.schemaType path).defer recursive).schema ++ _ ++ ")" = _
    rw [target.schema_defer]
    rfl
  | unknown => rfl
  | single target =>
    rw [hitems rfl, Expression.base_nil]
    exact target.schema_defer path recursive
  | map key value =>
    rw [hitems rfl, Expression.base_nil]
    cases value with
    | none => rfl
    | some target =>
      show "z.record(" ++ _ ++ ", " ++ ((target.schemaType path).defer recursive).schema ++ ")" = _
      rw [target.schema_defer]
      rfl

/-! ## What rules add -/

/-- What rules add to the base of an expression. -/
structure Additions where
  itemSuffix : String
  suffix : String
  optional : Bool

/-- The check of a pattern that has been decoded. -/
def decodedPattern (make : String → Check) (pattern : Option RawText) : List Check :=
  ((pattern.bind RawText.decoded?).map make).toList

theorem patternCheck_eq_ok {make : String → Check} {pattern : Option RawText} {checks : List Check}
    (h : patternCheck make pattern = .ok checks) : checks = decodedPattern make pattern := by
  unfold patternCheck at h
  split at h
  · exact (Except.ok.inj h).symm
  · exact (Except.ok.inj h).symm
  · cases h

/-- What the rules of a field add to its expression, given its shape and whether it is marked
    optional. -/
def additions (bindings : Bool) (shape : Shape) (marked : Bool) (rules : Option FieldRules) :
    Additions :=
  let chain := chainOf bindings rules
  { itemSuffix := if shape.isList then
      Check.textAll (chain.itemChecks ++ decodedPattern .patternOrEmpty chain.itemPattern ++
        listCheck (fun ns => .noneOf (.enums ns)) chain.itemNoneOf)
      else ""
    suffix := Check.textAll (chain.checks ++
      decodedPattern (if chain.required then .pattern else .patternOrEmpty) chain.pattern ++
      if shape = .enum ∧ chain.definedOnly = true then [.nonzero] else [])
    optional := (marked || shape ≠ .unknown) && !chain.required }

/-! ## The composition -/

/-- The expression of a property is the base of a field with what the rules of that field add. -/
structure Property.Composes (p : Property) (loader : Loader) (path : String)
    (recursive : List RawText) (field : Field) : Prop where
  /-- With nothing to look up lazily, the base is the schema of the type. -/
  plain : field.type.baseWith path [] "" = (field.type.schemaType path).schema
  text : p.expression.text =
    let added := additions loader.found field.type.shape field.markedOptional field.rules?
    field.type.baseWith path recursive added.itemSuffix ++ added.suffix ++
      (if p.optional then ".optional()" else "")
  optional : p.optional =
    (additions loader.found field.type.shape field.markedOptional field.rules?).optional

theorem Chain.listItemChecks_eq_ok {chain : Chain} {checks : List Check}
    (h : chain.listItemChecks = .ok checks) :
    checks = chain.itemChecks ++ decodedPattern .patternOrEmpty chain.itemPattern ++
      listCheck (fun ns => .noneOf (.enums ns)) chain.itemNoneOf := by
  obtain ⟨pattern, hpattern, h⟩ := bind_eq_ok_iff.1 h
  rw [← Except.ok.inj h, patternCheck_eq_ok hpattern]

theorem Chain.fieldChecks_eq_ok {chain : Chain} {type : FieldType} {checks : List Check}
    (h : chain.fieldChecks type = .ok checks) :
    checks = chain.checks ++
      decodedPattern (if chain.required then .pattern else .patternOrEmpty) chain.pattern ++
      if type.shape = .enum ∧ chain.definedOnly = true then [.nonzero] else [] := by
  obtain ⟨pattern, hpattern, h⟩ := bind_eq_ok_iff.1 h
  rw [← Except.ok.inj h, patternCheck_eq_ok hpattern]
  congr 1
  cases type with
  | single target => cases target <;> simp [FieldType.shape, Shape.ofTarget]
  | list target => cases target <;> simp [FieldType.shape, Shape.ofTarget]
  | unknown => simp [FieldType.shape]
  | map key value => simp [FieldType.shape]

theorem FieldType.shape_eq_unknown_iff (type : FieldType) :
    type.shape = .unknown ↔ type = .unknown := by
  cases type with
  | single target => cases target <;> simp [shape, Shape.ofTarget]
  | list target => cases target <;> simp [shape, Shape.ofTarget]
  | _ => simp [shape]

/-- The parts of an expression whose checks come from the rules of the field. -/
theorem Field.expression_composed {loader : Loader} {path : String} {recursive : List RawText}
    {field : Field} {e : Expression}
    (h : field.expression path recursive (chainOf loader.found field.rules?) = .ok e) :
    let added := additions loader.found field.type.shape field.markedOptional field.rules?
    Expression.base e.type e.itemChecks = field.type.baseWith path recursive added.itemSuffix ∧
      Check.textAll e.checks = added.suffix ∧ e.optional = added.optional := by
  rw [Field.expression_def] at h
  obtain ⟨itemChecks, hitems, h⟩ := bind_eq_ok_iff.1 h
  obtain ⟨checks, hchecks, h⟩ := bind_eq_ok_iff.1 h
  cases h
  refine ⟨?_, ?_, ?_⟩
  · -- only the items of a list are checked, so the suffix of items is empty elsewhere
    have hnone : field.type.isList = false → itemChecks = [] := by
      intro hlist
      rw [hlist] at hitems
      exact (Except.ok.inj hitems).symm
    rw [FieldType.base_defer path recursive _ hnone]
    dsimp only [additions]
    rw [FieldType.isList_shape]
    split at hitems
    · next hlist => rw [if_pos hlist, Chain.listItemChecks_eq_ok hitems]
    · next hlist =>
      rw [if_neg hlist, ← Except.ok.inj hitems]
      rfl
  · rw [Chain.fieldChecks_eq_ok hchecks]
    rfl
  · simp [additions, Field.mayBeAbsent, FieldType.shape_eq_unknown_iff]

/-- Every property is composed in this way, whatever the rules are. -/
theorem Field.property_composed {loader : Loader} {path : String} {recursive : List RawText}
    {field : Field} {p : Property} (h : (field.property path recursive loader).outcome = .ok p) :
    p.Composes loader path recursive field := by
  obtain ⟨chain, hchain, hexpression, _, _⟩ := Field.property_eq_ok h
  obtain rfl := Except.ok.inj ((field.chain_eq loader).symm.trans hchain)
  obtain ⟨hbase, hsuffix, hoptional⟩ := Field.expression_composed hexpression
  refine ⟨field.type.baseWith_nil path, ?_, hoptional⟩
  rw [Expression.text, hbase, hsuffix]
  rfl

end ProtoSchema
