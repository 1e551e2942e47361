import ProtoSchema.Proofs.Model.Rules
import ProtoSchema.Proofs.Model.Target
import ProtoSchema.Proofs.Module.Composition
import ProtoSchema.Proofs.Module.Independence

set_option autoImplicit false

/-! # Rules have no part in the structure of a module

What is imported, which enums and messages are exported, in which order and with which properties
follows from the types of the fields. Nothing of that asks for rules: a file and the same file
without rules have modules that differ in checks only (`ofFile_withoutRules`). With models that do
not hang on rules either, two lists of schema files that differ in rules have modules of one
structure (`rules_keep_structure`). -/

namespace ProtoSchema

/-! ## Fields of the same types -/

section SameTypes

variable {f : Field → Field}

theorem Message.name_eachField (m : Message Field) : (m.eachField f).name = m.name :=
  m.name_mapFields _

theorem Message.deprecated_eachField (m : Message Field) :
    (m.eachField f).deprecated = m.deprecated := by
  cases m
  simp only [Message.eachField, Message.mapFields]

variable (hf : ∀ field, (f field).type = field.type)

include hf

theorem Message.imports_eachField (path : String) (m : Message Field) :
    (m.eachField f).imports path = m.imports path := by
  unfold Message.imports
  rw [Message.eachField, Message.withNested_mapFields, List.flatMap_map]
  refine List.flatMap_congr fun nested _ => ?_
  show (nested.eachField f).fields.filterMap _ = _
  rw [Message.fields_eachField, List.filterMap_map]
  exact List.filterMap_congr fun field _ => by rw [Function.comp_apply, hf]

namespace DependencyGraph

omit hf in
theorem member?_eachField (messages : List (Message Field)) (path : String) (ref : MessageRef) :
    member? (messages.map (Message.eachField f)) path ref =
      (member? messages path ref).map (Message.eachField f) := by
  unfold member?
  rw [List.find?_map]
  simp only [Function.comp_def, Message.eachField, Message.place_mapFields]
  cases messages.find? fun m => m.place = ref.place with
  | none => rfl
  | some m => by_cases hfile : m.file = path <;> simp [Option.filter, Message.file_mapFields, hfile]

theorem dependencies_eachField (messages : List (Message Field)) (path : String)
    (m : Message Field) :
    dependencies (messages.map (Message.eachField f)) path (m.eachField f) =
      dependencies messages path m := by
  unfold dependencies
  rw [Message.fields_eachField, List.filterMap_map, List.map_filterMap, List.map_filterMap]
  refine List.filterMap_congr fun field _ => ?_
  rw [Function.comp_apply, hf]
  cases field.type.message? with
  | none => rfl
  | some ref =>
    show (member? _ path ref).map Message.name = (member? messages path ref).map Message.name
    rw [member?_eachField, Option.map_map]
    exact congrArg (Option.map · _) (funext Message.name_eachField)

theorem ofMessages_eachField (messages : List (Message Field)) (path : String) :
    ofMessages (messages.map (Message.eachField f)) path = ofMessages messages path := by
  unfold ofMessages dependenciesOf
  simp only [List.map_map, List.filter_map, List.flatMap_map, Function.comp_def,
    Message.name_eachField, dependencies_eachField hf]

end DependencyGraph

/-- Messages with fields of the same types are arranged alike. -/
theorem Arrangement.ofMessages_eachField (messages : List (Message Field)) (path : String) :
    ofMessages (messages.map (Message.eachField f)) path =
      (ofMessages messages path).map fun a =>
        ⟨a.messages.map (Message.eachField f), a.recursive⟩ := by
  unfold ofMessages
  dsimp only
  rw [DependencyGraph.ofMessages_eachField hf]
  cases (DependencyGraph.ofMessages messages path).recursiveNames with
  | error e => rfl
  | ok recursive =>
    show Except.ok _ = Except.ok _
    simp only [List.map_append, List.map_filterMap, List.map_map, Function.comp_def,
      Message.name_eachField, find?_name_map Message.name_eachField,
      leftovers_map Message.name_eachField]

namespace SchemaFile

omit hf in
theorem selected_eachField (options : Options) (file : SchemaFile Field) :
    (file.eachField f).selected options = (file.selected options).map (Message.eachField f) := by
  unfold selected
  rw [messages_eachField]
  split
  · rfl
  · rw [List.filter_map]
    simp only [Function.comp_def, Message.name_eachField]

omit hf in
theorem checkSelection_eachField (options : Options) (file : SchemaFile Field) :
    (file.eachField f).checkSelection options = file.checkSelection options := by
  unfold checkSelection
  rw [messages_eachField, List.any_map]
  simp only [Function.comp_def, Message.name_eachField]

theorem importLines_eachField (file : SchemaFile Field) (messages : List (Message Field)) :
    (file.eachField f).importLines (messages.map (Message.eachField f)) =
      file.importLines messages := by
  unfold importLines
  rw [List.flatMap_map]
  simp only [Message.imports_eachField hf]
  rfl

end SchemaFile

end SameTypes

/-! ## Leaving out checks -/

/-- A property without what rules have added to it. -/
def Property.unchecked (p : Property) : Property :=
  { p with expression := ⟨p.expression.type, [], [], false⟩ }

/-- An export without what rules have added to it. -/
def MessageExport.unchecked (e : MessageExport) : MessageExport :=
  { e with properties := e.properties.map Property.unchecked }

/-- A module without what rules have added to it. -/
def SchemaModule.unchecked (m : SchemaModule) : SchemaModule :=
  { m with messages := m.messages.map MessageExport.unchecked }

/-- The patterns of a field are decoded. -/
def Field.PatternsDecoded (field : Field) : Prop :=
  ∀ rules, field.rules? = some rules → ∀ pattern ∈ rules.patterns, pattern.isUndecodable = false

/-- The property of a field with decoded patterns, apart from checks: its name, its type and its
    deprecation. -/
theorem Field.property_unchecked {field : Field} (hpatterns : field.PatternsDecoded)
    (loader : Loader) (path : String) (recursive : List RawText) :
    (field.property path recursive loader).outcome.map Property.unchecked =
      (TextUse.boundaries.refuseIf field.name.isUndecodable).map fun _ =>
        ⟨Name.camelCase field.name.shown,
          ⟨(field.type.schemaType path).defer recursive, [], [], false⟩, field.deprecated⟩ := by
  have hchain := field.chain_eq loader
  have hdecoded : ∀ pattern ∈ (chainOf loader.found field.rules?).patterns,
      pattern.isUndecodable = false := by
    intro pattern hpattern
    have hrules := Field.patterns_chain hchain hpattern
    cases hfound : field.rules? with
    | none => simp [hfound] at hrules
    | some rules =>
      rw [hfound] at hrules
      exact hpatterns rules hfound pattern hrules
  obtain ⟨e, he⟩ := Field.exists_expression path recursive field hdecoded
  rw [Field.property_outcome, hchain]
  show Except.map _ (field.expression path recursive (chainOf loader.found field.rules?) >>= _) = _
  rw [he, ← (Field.expression_eq_ok he).1]
  show Except.map _ (TextUse.boundaries.refuseIf field.name.isUndecodable >>= _) = _
  cases TextUse.boundaries.refuseIf field.name.isUndecodable <;> rfl

theorem Field.property_withoutRules {field : Field} (hpatterns : field.PatternsDecoded)
    (loader : Loader) (path : String) (recursive : List RawText) :
    (field.withoutRules.property path recursive loader).outcome.map Property.unchecked =
      (field.property path recursive loader).outcome.map Property.unchecked := by
  have hbare : field.withoutRules.PatternsDecoded := by
    intro rules hrules
    cases hrules
  rw [field.property_unchecked hpatterns, field.withoutRules.property_unchecked hbare]
  rfl

/-- An export whose properties are seen through a view. -/
def MessageExport.eachProperty (view : Property → Property) (e : MessageExport) : MessageExport :=
  { e with properties := e.properties.map view }

/-- A module whose properties are seen through a view. -/
def SchemaModule.eachProperty (view : Property → Property) (m : SchemaModule) : SchemaModule :=
  { m with messages := m.messages.map (MessageExport.eachProperty view) }

section Views

variable {f : Field → Field} {view : Property → Property} {loader loader' : Loader}

theorem Message.exported_eachField {m : Message Field} {path : String} {recursive : List RawText}
    (h : ∀ field ∈ m.fields,
      ((f field).property path recursive loader').outcome.map view =
        (field.property path recursive loader).outcome.map view) :
    ((m.eachField f).exported path recursive loader').outcome.map
        (MessageExport.eachProperty view) =
      (m.exported path recursive loader).outcome.map (MessageExport.eachProperty view) := by
  have hfullName : (m.eachField f).fullName = m.fullName := m.fullName_mapFields _
  rw [Message.exported_outcome, Message.exported_outcome, Message.fields_eachField,
    Message.name_eachField, hfullName, Message.deprecated_eachField]
  refine map_bind_congr (List.map view) (map_mapM_congr fun field hfield => ?_)
    fun properties properties' hsame => ?_
  · exact h field hfield
  · refine congrArg Except.ok ?_
    simp only [MessageExport.eachProperty, hsame]

/-- Fields may be replaced by others of the same types whose properties look the same: the module
    of the file looks the same then. -/
theorem SchemaModule.ofFile_eachField {file : SchemaFile Field} (options : Options)
    (htypes : ∀ field, (f field).type = field.type)
    (h : ∀ m ∈ file.messages, ∀ field ∈ m.fields, ∀ recursive,
      ((f field).property file.path recursive loader').outcome.map view =
        (field.property file.path recursive loader).outcome.map view) :
    (ofFile loader' options (file.eachField f)).outcome.map (Option.map (eachProperty view)) =
      (ofFile loader options file).outcome.map (Option.map (eachProperty view)) := by
  have henums : (file.eachField f).enums = file.enums := rfl
  have hpath : (file.eachField f).path = file.path := rfl
  obtain ⟨arrangement, harrangement, hsub, _⟩ :=
    Arrangement.ofMessages_total (file.selected options) file.path
  rw [ofFile_outcome, ofFile_outcome, SchemaFile.checkSelection_eachField,
    SchemaFile.selected_eachField, SchemaFile.importLines_eachField htypes, henums, hpath,
    Arrangement.ofMessages_eachField htypes, harrangement, List.isEmpty_map]
  refine map_bind_congr id rfl fun _ _ _ => ?_
  split
  · rfl
  · refine map_bind_congr id rfl fun _ _ _ => ?_
    show Except.map _ ((arrangement.messages.map (Message.eachField f)).mapM _ >>= _) =
      Except.map _ (arrangement.messages.mapM _ >>= _)
    refine map_bind_congr (List.map (MessageExport.eachProperty view))
      (map_mapM_congr fun m hm => ?_) fun exports exports' hsame => ?_
    · -- the arrangement holds messages of the file only
      have hmem := file.selected_subset options (hsub hm)
      exact Message.exported_eachField fun field hfield => h m hmem field hfield _
    · refine congrArg Except.ok ?_
      simp only [Option.map_some, eachProperty, hsame]
      rfl

end Views

/-! ## Files -/

namespace SchemaModule

/-- A file has, apart from checks, the same module as the file without rules. -/
theorem ofFile_withoutRules {file : SchemaFile Field}
    (hpatterns : ∀ m ∈ file.messages, ∀ field ∈ m.fields, field.PatternsDecoded) (loader : Loader)
    (options : Options) :
    (ofFile loader options (file.eachField Field.withoutRules)).outcome.map
        (Option.map unchecked) =
      (ofFile loader options file).outcome.map (Option.map unchecked) :=
  ofFile_eachField options (fun _ => rfl) fun m hm field hfield recursive =>
    field.property_withoutRules (hpatterns m hm field hfield) loader file.path recursive

/-- A file of a model with decoded texts never stops the building. -/
theorem exists_result_of_decoded {model : Model} {file : SchemaFile Field} (loader : Loader)
    (options : Options) (hmodel : model.Coherent) (hfile : file ∈ model.files)
    (hnames : model.NamesDecoded) (hpatterns : model.PatternsDecoded) :
    ∃ result, (ofFile loader options file).outcome = .ok result := by
  by_cases hsome : file.selected options = []
  · cases hout : (ofFile loader options file).outcome with
    | ok result => exact ⟨result, rfl⟩
    | error e =>
      -- only the property of a selected field could have stopped it
      obtain ⟨_, m, hm, _⟩ := exists_property_error loader hmodel hfile hnames hout
      rw [hsome] at hm
      cases hm
  · obtain ⟨built, hbuilt⟩ :=
      exists_ofFile_of_decoded loader hmodel hfile hnames hpatterns hsome
    exact ⟨some built, hbuilt⟩

/-- The exports of a module are those of the arranged messages, and each of their properties is
    composed from its field. -/
def Composed (loader : Loader) (options : Options) (file : SchemaFile Field)
    (built : SchemaModule) : Prop :=
  ∃ arrangement, Arrangement.ofMessages (file.selected options) file.path = .ok arrangement ∧
    List.Forall₂
      (fun m e => e.name = m.name.shown ∧ e.recursive = arrangement.recursive.contains m.name ∧
        List.Forall₂ (fun field p => p.Composes loader file.path arrangement.recursive field)
          m.fields e.properties)
      arrangement.messages built.messages

theorem composed_of_ofFile {loader : Loader} {options : Options} {file : SchemaFile Field}
    {built : SchemaModule} (h : (ofFile loader options file).outcome = .ok (some built)) :
    built.Composed loader options file := by
  obtain ⟨_, _, arrangement, harrangement, hexports⟩ := ofFile_eq_some h
  refine ⟨arrangement, harrangement, hexports.imp fun m e he => ?_⟩
  obtain ⟨hname, _, hrecursive, hproperties⟩ := Message.exported_eq_ok he
  exact ⟨hname, hrecursive, hproperties.imp fun field p hp => Field.property_composed hp⟩

/-- Rules have no part in the structure of modules. Schema files that differ in rules only have
    modules that differ in checks only, and the expression of each property is a base that is free
    of rules with what the rules of its own field add. -/
theorem rules_keep_structure {files files' : List FileDescriptor} {model model' : Model}
    (hmodel : Model.build files = .ok model) (hmodel' : Model.build files' = .ok model')
    (hsame : files.map FileDescriptor.withoutRules = files'.map FileDescriptor.withoutRules)
    (hnames : model.NamesDecoded) (hpatterns : model.PatternsDecoded)
    (hpatterns' : model'.PatternsDecoded) (loader : Loader) (options : Options) :
    List.Forall₂
      (fun file file' => ∃ result result',
        (ofFile loader options file).outcome = .ok result ∧
        (ofFile loader options file').outcome = .ok result' ∧
        result.map unchecked = result'.map unchecked ∧
        (∀ built ∈ result, built.Composed loader options file) ∧
        ∀ built' ∈ result', built'.Composed loader options file')
      model.files model'.files := by
  -- both models are the one that is built without rules, with rules put back
  have hbare : model.withoutRules = model'.withoutRules := by
    have hbuild := Model.build_withoutRules files
    rw [hsame, Model.build_withoutRules, hmodel, hmodel'] at hbuild
    exact (Except.ok.inj hbuild).symm
  refine forall₂_of_map_eq (Model.mk.inj hbare) fun file hfile file' hfile' hsameFile => ?_
  obtain ⟨result, hresult⟩ := exists_result_of_decoded loader options
    (Model.build_coherent hmodel) hfile hnames hpatterns
  have hstructure : (ofFile loader options file').outcome.map (Option.map unchecked) =
      .ok (result.map unchecked) := by
    rw [← ofFile_withoutRules fun m hm => hpatterns' m (Model.mem_messages hfile' hm), ← hsameFile,
      ofFile_withoutRules fun m hm => hpatterns m (Model.mem_messages hfile hm), hresult]
    rfl
  obtain ⟨result', hresult', hunchecked⟩ := map_eq_ok_iff.1 hstructure
  refine ⟨result, result', hresult, hresult', hunchecked.symm, ?_, ?_⟩
  · rintro built rfl
    exact composed_of_ofFile hresult
  · rintro built rfl
    exact composed_of_ofFile hresult'

/-- A tree loses the rules of its names and gets rules for its branches. -/
theorem rules_keep_structure_of_tree :
    let label : FieldRules :=
      { required := true, kind := some (.string { minLen := some 1, pattern := some "^[a-z]+$" }) }
    let crowded : FieldRules := { kind := some (.list { minItems := some 2, unique := true }) }
    let trees (name branches : Option FieldRules) : FileDescriptor :=
      { name := "tree.proto", messages := [{ name := "Tree", fields :=
        [{ name := "name", number := 1, kind := .scalar .string,
           options := some { rules := name } },
         { name := "branches", number := 2, kind := .message, label := .repeated,
           typeName := ".Tree", options := some { rules := branches } }] }] }
    let tree (name branches : Option FieldRules) : Message Field :=
      ⟨"Tree", "Tree", "tree", ⟨0, [0]⟩,
        [⟨"name", 1, .single (.scalar .string), false, some { rules := name }⟩,
         ⟨"branches", 2, .list (.message ⟨"Tree", "Tree", "tree", ⟨0, [0]⟩, false⟩), false,
           some { rules := branches }⟩], [], [], false, false⟩
    let file (name branches : Option FieldRules) : SchemaFile Field :=
      ⟨"tree.proto", "tree", "", [], [tree name branches]⟩
    Model.build [trees (some label) none] = .ok ⟨[file (some label) none]⟩ ∧
      Model.build [trees none (some crowded)] = .ok ⟨[file none (some crowded)]⟩ ∧
      (trees (some label) none).withoutRules = (trees none (some crowded)).withoutRules ∧
      (Model.mk [file (some label) none]).NamesDecoded ∧
      (Model.mk [file (some label) none]).PatternsDecoded ∧
      (Model.mk [file none (some crowded)]).PatternsDecoded ∧
      ∃ result result',
        (ofFile true {} (file (some label) none)).outcome = .ok result ∧
        (ofFile true {} (file none (some crowded))).outcome = .ok result' ∧
        result.map unchecked = result'.map unchecked ∧
        (∀ built ∈ result, built.Composed true {} (file (some label) none)) ∧
        ∀ built' ∈ result', built'.Composed true {} (file none (some crowded)) := by
  intro label crowded trees tree file
  have hmodel : Model.build [trees (some label) none] = .ok ⟨[file (some label) none]⟩ := by rfl
  have hmodel' : Model.build [trees none (some crowded)] =
      .ok ⟨[file none (some crowded)]⟩ := by rfl
  have hsame : (trees (some label) none).withoutRules = (trees none (some crowded)).withoutRules :=
    rfl
  have hmessages (name branches : Option FieldRules) :
      (Model.mk [file name branches]).messages = [tree name branches] := by rfl
  have hnames : (Model.mk [file (some label) none]).NamesDecoded := by
    refine ⟨?_, ?_, ?_⟩
    · rw [hmessages]
      simp [tree, RawText.isUndecodable, RawText.decoded?]
    · rw [hmessages]
      simp [tree, RawText.isUndecodable, RawText.decoded?]
    · intro e he
      cases he
  have hpatterns : (Model.mk [file (some label) none]).PatternsDecoded := by
    unfold Model.PatternsDecoded
    rw [hmessages]
    simp [tree, label, Field.rules?, FieldRules.patterns, KindRules.patterns,
      RawText.isUndecodable, RawText.decoded?]
  have hpatterns' : (Model.mk [file none (some crowded)]).PatternsDecoded := by
    unfold Model.PatternsDecoded
    rw [hmessages]
    simp [tree, crowded, Field.rules?, FieldRules.patterns, KindRules.patterns]
  have hkept := rules_keep_structure hmodel hmodel' (congrArg (fun d => [d]) hsame) hnames hpatterns
    hpatterns' true {}
  exact ⟨hmodel, hmodel', hsame, hnames, hpatterns, hpatterns', (List.forall₂_cons.1 hkept).1⟩

end SchemaModule

end ProtoSchema
