import ProtoSchema.Proofs.Model.Coherence
import ProtoSchema.Proofs.Module.Building

set_option autoImplicit false

/-! # Decoded texts are enough to build

Building a module stops only at a text that cannot be decoded. Of the texts in rules only patterns
can do that (`FieldRules.patterns`), since all others are looked at while the checks are read, where
a bad one makes the rules unreadable. So a model whose names and patterns are decoded has a module
for every file with something to generate (`exists_ofFile_of_decoded`). -/

namespace ProtoSchema

/-! ## Patterns -/

/-- The pattern in the rules of one kind. -/
def KindRules.patterns {ρ : Type} : KindRules ρ → List RawText
  | string rules => rules.pattern.toList
  | _ => []

/-- The patterns in the rules of a field: its own, and that of its items. -/
def FieldRules.patterns (rules : FieldRules) : List RawText :=
  match rules.kind with
  | some (.list list) => ((list.items.bind FieldRules.kind).map KindRules.patterns).getD []
  | some kind => kind.patterns
  | none => []

/-- The patterns that a chain has taken over. -/
def Chain.patterns (chain : Chain) : List RawText :=
  chain.pattern.toList ++ chain.itemPattern.toList

theorem StringRules.pattern?_subset (rules : StringRules) :
    rules.pattern?.toList ⊆ rules.pattern.toList := by
  intro pattern h
  rw [Option.mem_toList] at h ⊢
  exact (Option.filter_eq_some_iff.1 h).1

theorem Chain.patterns_withItems? {chain chain' : Chain} {items : Option (KindRules FieldRules)}
    (hempty : chain.patterns = []) (h : chain.withItems? items = some chain') :
    chain'.patterns ⊆ (items.map KindRules.patterns).getD [] := by
  have hpattern : chain.pattern = none := by
    cases hp : chain.pattern with
    | none => rfl
    | some p => simp [Chain.patterns, hp] at hempty
  unfold Chain.withItems? at h
  split at h
  · next rules =>
    obtain ⟨checks, _, h⟩ := Option.bind_eq_some_iff.1 h
    obtain rfl := Option.some.inj h
    show chain.pattern.toList ++ rules.pattern?.toList ⊆ rules.pattern.toList
    rw [hpattern]
    exact rules.pattern?_subset
  -- rules of the other kinds leave the patterns as they are
  all_goals
    obtain rfl := Option.some.inj h
    show chain.pattern.toList ++ chain.itemPattern.toList ⊆ _
    have hsame : chain.pattern.toList ++ chain.itemPattern.toList = [] := hempty
    rw [hsame]
    exact List.nil_subset _

/-- A chain takes over only patterns that its rules have. -/
theorem Chain.patterns_ofRules? {rules : FieldRules} {chain : Chain}
    (h : Chain.ofRules? rules = some chain) : chain.patterns ⊆ rules.patterns := by
  unfold Chain.ofRules? at h
  unfold FieldRules.patterns
  cases hrules : rules.kind with
  | none =>
    rw [hrules] at h
    obtain rfl := Option.some.inj h
    exact List.nil_subset _
  | some kind =>
    rw [hrules] at h
    obtain ⟨kindChain, hkind, h⟩ := Option.bind_eq_some_iff.1 h
    obtain rfl := Option.some.inj h
    show kindChain.patterns ⊆ _
    cases kind with
    | string string =>
      obtain ⟨checks, _, h⟩ := Option.bind_eq_some_iff.1 hkind
      obtain rfl := Option.some.inj h
      show string.pattern?.toList ++ [] ⊆ string.pattern.toList
      rw [List.append_nil]
      exact string.pattern?_subset
    | list list => exact Chain.patterns_withItems? rfl hkind
    | _ =>
      obtain rfl := Option.some.inj hkind
      exact List.nil_subset _

theorem FieldRules.patterns_chain (bindings : Bool) (rules : FieldRules) :
    (rules.chain bindings).patterns ⊆ rules.patterns := by
  unfold FieldRules.chain
  split
  · cases h : Chain.ofRules? rules with
    | none => exact List.nil_subset _
    | some chain => exact Chain.patterns_ofRules? h
  · exact List.nil_subset _

theorem Field.patterns_chain {loader : Loader} {field : Field} {chain : Chain}
    (h : (field.chain loader).outcome = .ok chain) :
    chain.patterns ⊆ (field.rules?.map FieldRules.patterns).getD [] := by
  obtain rfl := Except.ok.inj ((field.chain_eq loader).symm.trans h)
  cases field.rules? with
  | none => exact List.nil_subset _
  | some rules => exact rules.patterns_chain loader.found

/-! ## Decoded models -/

/-- The patterns of all fields are decoded. -/
def Model.PatternsDecoded (model : Model) : Prop :=
  ∀ m ∈ model.messages, ∀ field ∈ m.fields, ∀ rules, field.rules? = some rules →
    ∀ pattern ∈ rules.patterns, pattern.isUndecodable = false

/-- The names of all messages, fields and enums are decoded. -/
structure Model.NamesDecoded (model : Model) : Prop where
  messages : ∀ m ∈ model.messages, m.name.isUndecodable = false
  fields : ∀ m ∈ model.messages, ∀ field ∈ m.fields, field.name.isUndecodable = false
  enums : ∀ e ∈ model.enums, e.name.isUndecodable = false

namespace SchemaModule

section Decoded

variable {model : Model} {file : SchemaFile Field} {options : Options} (loader : Loader)
variable (hmodel : model.Coherent) (hfile : file ∈ model.files)
variable (hnames : model.NamesDecoded) (hpatterns : model.PatternsDecoded)

include hmodel hfile hnames

/-- Imported names are decoded: those of schemas always are, and those of enums are the names of
    enums of the model. -/
theorem isUndecodable_import {messages : List (Message Field)} (hsub : messages ⊆ file.messages)
    {i : Import} (hi : i ∈ messages.flatMap (Message.imports file.path) ++ file.enumImports) :
    i.name.isUndecodable = false := by
  rcases (file.mem_imports_iff messages i).1 hi with
    ⟨m, hm, nested, hnested, field, hfield, himport⟩ | ⟨e, he, rfl⟩
  · obtain ⟨target, htarget, himport⟩ := Option.bind_eq_some_iff.1 himport
    have hmem := Model.mem_messages_of_nested hfile (hsub hm) hnested
    cases target with
    | scalar type => cases himport
    | enum ref =>
      obtain rfl := Option.some.inj himport
      obtain ⟨e, he, rfl⟩ := hmodel.enum_declared nested hmem field hfield ref htarget
      exact hnames.enums e he
    | message ref =>
      rw [Target.import?_message] at himport
      split at himport
      · cases himport
      · obtain rfl := Option.some.inj himport
        rfl
  · refine hnames.enums e (List.mem_flatMap.2 ⟨file, hfile, ?_⟩)
    exact List.mem_append_left _ he

/-- With all names decoded, only the property of a selected field can fail. -/
theorem exists_property_error {e : Error} (h : (ofFile loader options file).outcome = .error e) :
    ∃ recursive, ∃ m ∈ file.selected options, ∃ field ∈ m.fields,
      (field.property file.path recursive loader).outcome = .error e := by
  have hsub := file.selected_subset options
  rcases ofFile_eq_error_cases h with
    ⟨_, _, m, hm, hbad⟩ | ⟨_, line, hline, hbad⟩ | hproperty
  · rw [hnames.messages m (Model.mem_messages hfile hm)] at hbad
    cases hbad
  · obtain ⟨name, hname, hbad⟩ := List.any_eq_true.1 (Bool.and_eq_true_iff.1 hbad).1
    have himport := (ImportLine.mem_names_iff hline name).1 hname
    have hgood : name.isUndecodable = false :=
      isUndecodable_import hmodel hfile hnames hsub himport
    rw [hgood] at hbad
    cases hbad
  · exact hproperty

include hpatterns

/-- Files with something to generate have modules. -/
theorem exists_ofFile_of_decoded (hsome : file.selected options ≠ []) :
    ∃ built, (ofFile loader options file).outcome = .ok (some built) := by
  rcases hout : (ofFile loader options file).outcome with e | _ | built
  · -- a property fails at its name or at a pattern that cannot be decoded
    exfalso
    obtain ⟨recursive, m, hm, field, hfield, herror⟩ :=
      exists_property_error loader hmodel hfile hnames hout
    have hmem := Model.mem_messages hfile (file.selected_subset options hm)
    rcases (Field.property_eq_error herror).2 with hbad | ⟨chain, hchain, pattern, hpattern, hbad⟩
    · rw [hnames.fields m hmem field hfield] at hbad
      cases hbad
    · have htaken : pattern ∈ chain.patterns := by
        simpa [Chain.patterns] using hpattern
      have hrules := Field.patterns_chain hchain htaken
      cases hfound : field.rules? with
      | none => simp [hfound] at hrules
      | some rules =>
        rw [hfound] at hrules
        rw [hpatterns m hmem field hfield rules hfound pattern hrules] at hbad
        cases hbad
  · exact absurd (ofFile_eq_none hout).1 hsome
  · exact ⟨built, rfl⟩

end Decoded

end SchemaModule

end ProtoSchema
