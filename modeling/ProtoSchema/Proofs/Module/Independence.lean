import Mathlib.Data.List.Find
import ProtoSchema.Generator
import ProtoSchema.Proofs.Model.Independence
import ProtoSchema.Proofs.Module.Building

set_option autoImplicit false

/-! # Modules do not hang on the other files

A module is built from a file of a model, and the places of messages enter it only through the
dependency graph, which asks whether a reference is to a message of the file. Full names answer that
as well (`DependencyGraph.ofMessages_eq_byName`), so files that differ in places only have the same
module (`SchemaModule.ofFile_eq_of_unplaced`). -/

namespace ProtoSchema

/-! ## Fields -/

@[simp] theorem Target.schemaType_unplaced (path : String) (target : Target) :
    target.unplaced.schemaType path = target.schemaType path := by
  cases target <;> rfl

@[simp] theorem Target.import?_unplaced (path : String) (target : Target) :
    target.unplaced.import? path = target.import? path := by
  cases target <;> rfl

theorem Target.message?_unplaced (target : Target) :
    target.unplaced.message? = target.message?.map MessageRef.unplaced := by
  cases target <;> rfl

namespace FieldType

theorem target?_unplaced (t : FieldType) : t.unplaced.target? = t.target?.map Target.unplaced := by
  cases t <;> rfl

theorem message?_unplaced (t : FieldType) :
    t.unplaced.message? = t.message?.map MessageRef.unplaced := by
  unfold FieldType.message?
  rw [target?_unplaced]
  cases t.target? with
  | none => rfl
  | some target => exact target.message?_unplaced

theorem import?_unplaced (path : String) (t : FieldType) :
    t.unplaced.import? path = t.import? path := by
  unfold FieldType.import?
  rw [target?_unplaced]
  cases t.target? with
  | none => rfl
  | some target => exact target.import?_unplaced path

theorem schemaType_unplaced (path : String) (t : FieldType) :
    t.unplaced.schemaType path = t.schemaType path := by
  cases t with
  | map key value => cases value <;> simp [unplaced, schemaType]
  | _ => simp [unplaced, schemaType]

theorem isList_unplaced (t : FieldType) : t.unplaced.isList = t.isList := by
  cases t <;> rfl

theorem unplaced_eq_unknown_iff (t : FieldType) : t.unplaced = .unknown ↔ t = .unknown := by
  cases t <;> simp [unplaced]

end FieldType

theorem Chain.fieldChecks_unplaced (chain : Chain) (t : FieldType) :
    chain.fieldChecks t.unplaced = chain.fieldChecks t := by
  cases t with
  | single target => cases target <;> rfl
  | _ => rfl

theorem Field.expression_unplaced (field : Field) (path : String) (recursive : List RawText)
    (chain : Chain) :
    field.unplaced.expression path recursive chain = field.expression path recursive chain := by
  simp only [Field.expression, Field.unplaced, Field.mayBeAbsent, FieldType.isList_unplaced,
    FieldType.schemaType_unplaced, Chain.fieldChecks_unplaced, ne_eq,
    FieldType.unplaced_eq_unknown_iff]

theorem Field.property_unplaced (path : String) (recursive : List RawText) (field : Field) :
    field.unplaced.property path recursive = field.property path recursive := by
  unfold Field.property
  simp only [Field.expression_unplaced]
  rfl

/-! ## Messages -/

theorem Message.unplacedAll_eq_map (ms : List (Message Field)) :
    Message.unplacedAll ms = ms.map Message.unplaced := by
  induction ms with
  | nil => rfl
  | cons m ms ih => rw [Message.unplacedAll, ih, List.map_cons]

namespace Message

theorem ref_unplaced (m : Message Field) : m.unplaced.ref = m.ref.unplaced := by
  cases m
  rfl

@[simp] theorem name_unplaced (m : Message Field) : m.unplaced.name = m.name :=
  congrArg MessageRef.name m.ref_unplaced

@[simp] theorem fullName_unplaced (m : Message Field) : m.unplaced.fullName = m.fullName :=
  congrArg MessageRef.fullName m.ref_unplaced

@[simp] theorem file_unplaced (m : Message Field) : m.unplaced.file = m.file :=
  congrArg MessageRef.file m.ref_unplaced

@[simp] theorem deprecated_unplaced (m : Message Field) :
    m.unplaced.deprecated = m.deprecated := by
  cases m
  rfl

theorem fields_unplaced (m : Message Field) :
    m.unplaced.fields = m.fields.map Field.unplaced := by
  cases m
  rfl

end Message

mutual

theorem Message.withNested_unplaced :
    (m : Message Field) → m.unplaced.withNested = m.withNested.map Message.unplaced
  | ⟨name, fullName, file, place, fields, enums, messages, deprecated, mapEntry⟩ => by
    rw [Message.withNested, List.map_cons, ← Message.withNestedAll_unplaced messages]
    rfl

theorem Message.withNestedAll_unplaced :
    (ms : List (Message Field)) → Message.withNestedAll (Message.unplacedAll ms) =
      (Message.withNestedAll ms).map Message.unplaced
  | [] => rfl
  | m :: ms => by
    rw [Message.unplacedAll, Message.withNestedAll, Message.withNestedAll,
      Message.withNested_unplaced m, Message.withNestedAll_unplaced ms, List.map_append]

end

theorem Message.imports_unplaced (path : String) (m : Message Field) :
    m.unplaced.imports path = m.imports path := by
  unfold Message.imports
  rw [Message.withNested_unplaced, List.flatMap_map]
  apply List.flatMap_congr
  intro nested _
  rw [Message.fields_unplaced, List.filterMap_map]
  apply List.filterMap_congr
  intro field _
  exact field.type.import?_unplaced path

theorem Message.exported_unplaced (path : String) (recursive : List RawText)
    (m : Message Field) :
    m.unplaced.exported path recursive = m.exported path recursive := by
  have hproperty : Field.property path recursive ∘ Field.unplaced = Field.property path recursive :=
    funext fun field => field.property_unplaced path recursive
  unfold Message.exported
  rw [Message.fields_unplaced, List.mapM_map, hproperty, Message.name_unplaced,
    Message.fullName_unplaced, Message.deprecated_unplaced]

theorem Message.mapM_exported_unplaced (path : String) (recursive : List RawText)
    (ms : List (Message Field)) :
    (ms.map Message.unplaced).mapM (Message.exported path recursive) =
      ms.mapM (Message.exported path recursive) := by
  have hexported : Message.exported path recursive ∘ Message.unplaced =
      Message.exported path recursive :=
    funext fun m => m.exported_unplaced path recursive
  rw [List.mapM_map, hexported]

/-! ## Dependencies -/

namespace DependencyGraph

/-- The message among those given that a reference is to by its full name. -/
def named? (messages : List (Message Field)) (path : String) (ref : MessageRef) :
    Option (Message Field) :=
  (messages.find? fun m => m.fullName = ref.fullName).filter fun m => m.file = path

/-- The dependencies of a message, with messages told apart by their full names. -/
def namedDependencies (messages : List (Message Field)) (path : String) (m : Message Field) :
    List RawText :=
  m.fields.filterMap fun field =>
    (field.type.message?.bind (named? messages path)).map Message.name

/-- The dependency graph, with messages told apart by their full names. -/
def byName (messages : List (Message Field)) (path : String) : DependencyGraph :=
  (messages.map Message.name).eraseDups.map fun name =>
    (name, ((messages.filter fun m => m.name = name).flatMap
      (namedDependencies messages path)).eraseDups)

theorem name_member? {messages : List (Message Field)} {ref : MessageRef} (path : String)
    (hplaces : ∀ t ∈ messages, t.place = ref.place ↔ t.fullName = ref.fullName) :
    (member? messages path ref).map Message.name =
      (named? (messages.map Message.unplaced) path ref.unplaced).map Message.name := by
  have hfind : messages.find? (fun m => m.place = ref.place) =
      messages.find? (fun m => m.fullName = ref.fullName) :=
    List.find?_congr fun t ht => decide_eq_decide.2 (hplaces t ht)
  unfold member? named?
  rw [hfind, List.find?_map]
  simp only [Function.comp_def, Message.fullName_unplaced]
  show _ = (((messages.find? fun m => m.fullName = ref.fullName).map Message.unplaced).filter
    _).map _
  cases messages.find? fun m => m.fullName = ref.fullName with
  | none => rfl
  | some m => by_cases hfile : m.file = path <;> simp [Option.filter, hfile]

theorem dependencies_eq_named {messages : List (Message Field)} (hplaces : PlacesByName messages)
    (path : String) {m : Message Field} (hm : m ∈ messages) :
    dependencies messages path m =
      namedDependencies (messages.map Message.unplaced) path m.unplaced := by
  unfold dependencies namedDependencies
  rw [List.map_filterMap, Message.fields_unplaced, List.filterMap_map]
  apply List.filterMap_congr
  intro field hfield
  show _ = ((field.type.unplaced.message?).bind _).map _
  -- only fields of the given messages ask for a member, so `hplaces` covers every reference
  rw [FieldType.message?_unplaced]
  cases href : field.type.message? with
  | none => rfl
  | some ref => exact name_member? path (hplaces m hm field hfield ref href)

theorem ofMessages_eq_byName {messages : List (Message Field)} (hplaces : PlacesByName messages)
    (path : String) :
    ofMessages messages path = byName (messages.map Message.unplaced) path := by
  unfold ofMessages byName
  simp only [List.map_map, Function.comp_def, Message.name_unplaced]
  congr 1
  funext name
  have hdependencies : (messages.filter fun m => m.name = name).flatMap
        (dependencies messages path) =
      ((messages.map Message.unplaced).filter fun m => m.name = name).flatMap
        (namedDependencies (messages.map Message.unplaced) path) := by
    rw [List.filter_map, List.flatMap_map]
    simp only [Function.comp_def, Message.name_unplaced]
    exact List.flatMap_congr fun m hm => dependencies_eq_named hplaces path (List.mem_filter.1 hm).1
  rw [dependenciesOf, hdependencies]

end DependencyGraph

namespace Arrangement

def unplaced (a : Arrangement) : Arrangement :=
  ⟨a.messages.map Message.unplaced, a.recursive⟩

section SameNames

-- messages may be replaced by others of the same names
variable {g : Message Field → Message Field} (hname : ∀ m, (g m).name = m.name)

include hname

theorem leftovers_map (emitted : List RawText) (ms : List (Message Field)) :
    leftovers emitted (ms.map g) = (leftovers emitted ms).map g := by
  induction ms generalizing emitted with
  | nil => rfl
  | cons m ms ih =>
    rw [List.map_cons, leftovers, leftovers, hname, ih, ih]
    split <;> rfl

theorem find?_name_map (ms : List (Message Field)) (name : RawText) :
    (ms.map g).reverse.find? (fun m => m.name = name) =
      (ms.reverse.find? fun m => m.name = name).map g := by
  rw [← List.map_reverse, List.find?_map]
  simp only [Function.comp_def, hname]

end SameNames

/-- Messages that differ in places only are arranged in the same way. -/
theorem unplaced_ofMessages {ms ms' : List (Message Field)} (hplaces : PlacesByName ms)
    (hplaces' : PlacesByName ms') (h : ms.map Message.unplaced = ms'.map Message.unplaced)
    (path : String) : (ofMessages ms path).map unplaced = (ofMessages ms' path).map unplaced := by
  have hgraph : DependencyGraph.ofMessages ms path = DependencyGraph.ofMessages ms' path := by
    rw [DependencyGraph.ofMessages_eq_byName hplaces, h,
      DependencyGraph.ofMessages_eq_byName hplaces']
  have hnames : ms.map Message.name = ms'.map Message.name := by
    simpa [Function.comp_def] using congrArg (List.map Message.name) h
  unfold ofMessages
  dsimp only
  rw [hgraph, hnames]
  cases (DependencyGraph.ofMessages ms' path).recursiveNames with
  | error e => rfl
  | ok recursive =>
    refine congrArg (fun messages => Except.ok (Arrangement.mk messages recursive)) ?_
    simp only [List.map_append, List.map_filterMap, ← find?_name_map Message.name_unplaced,
      ← leftovers_map Message.name_unplaced, h]

end Arrangement

/-! ## Files -/

/-- Runs that go on alike from answers that are alike. -/
theorem Run.bind_ofExcept_eq {α β γ : Type} {x y : Except Error α} {view : α → γ}
    (h : x.map view = y.map view) {f g : α → Run β} (hgo : ∀ a b, view a = view b → f a = g b) :
    (Run.ofExcept x >>= f) = (Run.ofExcept y >>= g) := by
  cases x with
  | error e =>
    cases y with
    | error e' =>
      obtain rfl := Except.error.inj h
      rfl
    | ok b => cases h
  | ok a =>
    cases y with
    | error e => cases h
    | ok b =>
      show (pure a >>= f : Run β) = (pure b >>= g : Run β)
      rw [pure_bind, pure_bind, hgo a b (Except.ok.inj h)]

theorem SchemaFile.selected_unplaced (options : Options) (file : SchemaFile Field) :
    file.unplaced.selected options = (file.selected options).map Message.unplaced := by
  unfold SchemaFile.selected SchemaFile.unplaced
  rw [Message.unplacedAll_eq_map]
  split
  · rfl
  · rw [List.filter_map]
    simp only [Function.comp_def, Message.name_unplaced]

theorem SchemaFile.checkSelection_unplaced (options : Options) (file : SchemaFile Field) :
    file.unplaced.checkSelection options = file.checkSelection options := by
  unfold SchemaFile.checkSelection SchemaFile.unplaced
  rw [Message.unplacedAll_eq_map, List.any_map]
  simp only [Function.comp_def, Message.name_unplaced]

theorem SchemaFile.importLines_unplaced (file : SchemaFile Field) (ms : List (Message Field)) :
    file.unplaced.importLines (ms.map Message.unplaced) = file.importLines ms := by
  unfold SchemaFile.importLines
  rw [List.flatMap_map]
  simp only [Message.imports_unplaced]
  rfl

theorem PlacesByName.selected {file : SchemaFile Field} (h : PlacesByName file.messages)
    (options : Options) : PlacesByName (file.selected options) := by
  have hsub := file.selected_subset options
  exact fun m hm field hfield ref href t ht => h m (hsub hm) field hfield ref href t (hsub ht)

/-- The module of a file does not hang on places, as long as names tell messages apart. -/
theorem SchemaFile.schemaModule_eq_of_unplaced (options : Options) {file file' : SchemaFile Field}
    (h : file.unplaced = file'.unplaced) (hplaces : PlacesByName file.messages)
    (hplaces' : PlacesByName file'.messages) :
    file.schemaModule options = file'.schemaModule options := by
  have hselection : file.checkSelection options = file'.checkSelection options := by
    rw [← file.checkSelection_unplaced, h, file'.checkSelection_unplaced]
  have hselected : (file.selected options).map Message.unplaced =
      (file'.selected options).map Message.unplaced := by
    rw [← file.selected_unplaced, h, file'.selected_unplaced]
  have hempty : (file.selected options).isEmpty = (file'.selected options).isEmpty := by
    simpa using congrArg List.isEmpty hselected
  have himports : file.importLines (file.selected options) =
      file'.importLines (file'.selected options) := by
    rw [← file.importLines_unplaced, h, hselected, file'.importLines_unplaced]
  obtain ⟨hname, hpath, _, henums, _⟩ := SchemaFile.mk.inj h
  -- the arrangements agree apart from places, which the exports do not show
  have harranged := Arrangement.unplaced_ofMessages (hplaces.selected options)
    (hplaces'.selected options) hselected file'.path
  unfold SchemaFile.schemaModule
  dsimp only
  rw [hselection, hempty, himports, henums, hpath, hname]
  refine congrArg (Bind.bind _) (funext fun _ => ?_)
  split
  · rfl
  · refine congrArg (Bind.bind _) (funext fun _ => ?_)
    refine Run.bind_ofExcept_eq harranged fun a b hsame => ?_
    obtain ⟨hmessages, hrecursive⟩ := Arrangement.mk.inj hsame
    rw [← Message.mapM_exported_unplaced, hmessages, hrecursive, Message.mapM_exported_unplaced]

/-- The result for a file depends neither on the order of the files that a model is built from nor
    on files beside it. The second model may be built from more files and in another order; what is
    built and written for a file of the first model is the same. -/
theorem Generator.generateFile_independent {fs gs : List FileDescriptor} {model model' : Model}
    (hmodel : Model.build fs = .ok model) (hmodel' : Model.build gs = .ok model') (hsub : fs ⊆ gs)
    (hdistinct : Distinct gs) (hexplicit : ∀ d ∈ gs, d.Explicit) (loader : Loader)
    (options : Options) {d : FileDescriptor} (hd : d ∈ fs) :
    (∃ file file', model.file d.name = .ok file ∧ model'.file d.name = .ok file' ∧
      SchemaModule.ofFile loader options file = SchemaModule.ofFile loader options file') ∧
    Generator.generateFile ⟨model, options⟩ d.name loader =
      Generator.generateFile ⟨model', options⟩ d.name loader := by
  obtain ⟨file, file', hfile, hfile', hsame, hplaces, hplaces'⟩ :=
    Model.exists_files hmodel hmodel' hsub hdistinct hexplicit hd
  have hmodule := SchemaFile.schemaModule_eq_of_unplaced options hsame hplaces hplaces'
  obtain ⟨hname, _, hpackage, _, _⟩ := SchemaFile.mk.inj hsame
  refine ⟨⟨file, file', hfile, hfile', congrFun hmodule loader⟩, congrFun ?_ loader⟩
  have hfound : ∀ file : SchemaFile Field, Run.ofExcept (.ok file) = pure file := fun _ => rfl
  have hemit : file.emit options = file'.emit options := by
    funext built
    cases built with
    | none => simp only [SchemaFile.emit, hname]
    | some m => simp only [SchemaFile.emit, hpackage]
  unfold Generator.generateFile
  dsimp only
  rw [hfile, hfile', hfound, hfound, pure_bind, pure_bind, hmodule, hname, hemit]

/-- A tree with a map of leaves from another file moves behind that file and a third one. -/
theorem Generator.generateFile_of_moved_tree :
    let leaves : FileDescriptor := { name := "leaf.proto", messages := [{ name := "Leaf" }] }
    let others : FileDescriptor := { name := "other.proto", messages := [{ name := "Other" }] }
    let trees : FileDescriptor :=
      { name := "tree.proto", messages :=
        [{ name := "Tree", fields :=
             [{ name := "parent", number := 1, kind := .message, typeName := ".Tree" },
              { name := "leaves", number := 2, kind := .message, label := .repeated,
                typeName := ".Tree.LeavesEntry" }],
           messages := [{ name := "LeavesEntry", mapEntry := true, fields :=
             [{ name := "key", number := 1, kind := .scalar .string },
              { name := "value", number := 2, kind := .message, typeName := ".Leaf" }] }] }] }
    let treeRef (i : Nat) : MessageRef := ⟨"Tree", "Tree", "tree", ⟨i, [0]⟩, false⟩
    let leafRef (i : Nat) : MessageRef := ⟨"Leaf", "Leaf", "leaf", ⟨i, [0]⟩, false⟩
    let entry (i j : Nat) : Message Field :=
      ⟨"LeavesEntry", "Tree.LeavesEntry", "tree", ⟨i, [0, 0]⟩,
        [⟨"key", 1, .single (.scalar .string), false, none⟩,
         ⟨"value", 2, .single (.message (leafRef j)), false, none⟩], [], [], false, true⟩
    let tree (i j : Nat) : Message Field :=
      ⟨"Tree", "Tree", "tree", ⟨i, [0]⟩,
        [⟨"parent", 1, .single (.message (treeRef i)), false, none⟩,
         ⟨"leaves", 2, .map (some .string) (some (.message (leafRef j))), false, none⟩],
        [], [entry i j], false, false⟩
    let treeFile (i j : Nat) : SchemaFile Field := ⟨"tree.proto", "tree", "", [], [tree i j]⟩
    let leafFile (i : Nat) : SchemaFile Field :=
      ⟨"leaf.proto", "leaf", "", [],
        [⟨"Leaf", "Leaf", "leaf", ⟨i, [0]⟩, [], [], [], false, false⟩]⟩
    let otherFile (i : Nat) : SchemaFile Field :=
      ⟨"other.proto", "other", "", [],
        [⟨"Other", "Other", "other", ⟨i, [0]⟩, [], [], [], false, false⟩]⟩
    Model.build [trees, leaves] = .ok ⟨[treeFile 0 1, leafFile 1]⟩ ∧
      Model.build [leaves, others, trees] = .ok ⟨[leafFile 0, otherFile 1, treeFile 2 0]⟩ ∧
      Distinct [leaves, others, trees] ∧ (∀ d ∈ [leaves, others, trees], d.Explicit) ∧
      SchemaModule.ofFile true {} (treeFile 0 1) = SchemaModule.ofFile true {} (treeFile 2 0) := by
  intro leaves others trees treeRef leafRef entry tree treeFile leafFile otherFile
  have hmodel : Model.build [trees, leaves] = .ok ⟨[treeFile 0 1, leafFile 1]⟩ := by rfl
  have hmodel' : Model.build [leaves, others, trees] =
      .ok ⟨[leafFile 0, otherFile 1, treeFile 2 0]⟩ := by rfl
  have hdistinct : Distinct [leaves, others, trees] := by
    refine ⟨by decide, ?_⟩
    have hnames : [leaves, others, trees].flatMap FileDescriptor.typeNames =
      ["Leaf", "Other", "Tree", "Tree.LeavesEntry"] := by decide
    rw [hnames]
    decide
  have hexplicit : ∀ d ∈ [leaves, others, trees], d.Explicit := by
    have hroots : Text.startsWith "." ".Tree" = true ∧
        Text.startsWith "." ".Tree.LeavesEntry" = true ∧ Text.startsWith "." ".Leaf" = true := by
      decide
    simp only [List.forall_mem_cons, List.not_mem_nil, false_implies, implies_true, and_true]
    refine ⟨⟨?_, ?_⟩, ⟨?_, ?_⟩, ⟨?_, ?_⟩⟩
    all_goals
      simp [leaves, others, trees, MessageDescriptor.withNestedAll, MessageDescriptor.withNested,
        FieldDescriptor.Absolute, hroots]
  obtain ⟨⟨file, file', hfile, hfile', hsame⟩, _⟩ :=
    Generator.generateFile_independent hmodel hmodel' (by simp) hdistinct hexplicit true {}
      (d := trees) (by simp)
  have hfound : Model.file ⟨[treeFile 0 1, leafFile 1]⟩ trees.name = .ok (treeFile 0 1) := by rfl
  have hfound' : Model.file ⟨[leafFile 0, otherFile 1, treeFile 2 0]⟩ trees.name =
      .ok (treeFile 2 0) := by rfl
  obtain rfl := Except.ok.inj (hfile.symm.trans hfound)
  obtain rfl := Except.ok.inj (hfile'.symm.trans hfound')
  exact ⟨hmodel, hmodel', hdistinct, hexplicit, hsame⟩

end ProtoSchema
