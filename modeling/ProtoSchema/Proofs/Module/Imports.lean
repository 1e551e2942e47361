import ProtoSchema.Proofs.Module.Decoding

set_option autoImplicit false

/-! # The import table of a module

The expressions of a module are composed field by field, its imports are collected by a walk over
all messages at any depth, and then sorted. The table is exact all the same
(`ofFile_imports_exact`): it lists what the fields of the selected messages need and the enums of
the file, and nothing else. Two facts carry this. Sorting without repetitions gives strictly
ascending lists (`sortedTexts_ascending`, `sortedNames_ascending`), and what the type of a field
mentions from outside the module is what the field imports (`FieldType.outside_schemaType`). -/

namespace ProtoSchema

/-! ## Sorting -/

theorem Text.lt_of_le_of_ne {a b : String} (hle : a ≤ b) (hne : a ≠ b) : a < b := by
  by_contra hlt
  exact hne (String.le_antisymm hle (String.not_lt.1 hlt))

theorem sortedTexts_ascending (texts : List String) : (sortedTexts texts).Pairwise (· < ·) := by
  have hsorted : (sortedTexts texts).Pairwise fun a b => decide (a ≤ b) = true := by
    refine List.pairwise_mergeSort ?_ ?_ texts.eraseDups
    · intro a b c hab hbc
      exact decide_eq_true (String.le_trans (of_decide_eq_true hab) (of_decide_eq_true hbc))
    · intro a b
      simpa using String.le_total a b
  have hnodup : (sortedTexts texts).Nodup := List.nodup_mergeSort.2 (nodup_eraseDups texts)
  refine (hsorted.and hnodup).imp ?_
  rintro a b ⟨hle, hne⟩
  exact Text.lt_of_le_of_ne (of_decide_eq_true hle) hne

namespace RawText

theorem bytesLe_iff (a b : List UInt8) : bytesLe a b = true ↔ a ≤ b := by
  induction a generalizing b with
  | nil => simp [bytesLe]
  | cons x a ih =>
    cases b with
    | nil => simp [bytesLe]
    | cons y b =>
      rw [bytesLe, List.cons_le_cons_iff]
      by_cases h : x = y
      · subst h
        simp [ih]
      · simp [h, UInt8.lt_iff_toNat_lt]

theorem le_trans (a b c : RawText) (hab : a.le b = true) (hbc : b.le c = true) :
    a.le c = true := by
  cases a <;> cases b <;> cases c <;> simp only [le, Bool.false_eq_true, decide_eq_true_eq,
    bytesLe_iff] at hab hbc ⊢
  · exact String.le_trans hab hbc
  · exact List.le_trans hab hbc

theorem le_total (a b : RawText) : (a.le b || b.le a) = true := by
  rw [Bool.or_eq_true]
  cases a <;> cases b <;> simp only [le, Bool.false_eq_true, decide_eq_true_eq, bytesLe_iff,
    or_true, true_or]
  · exact String.le_total _ _
  · exact List.le_total _ _

/-- Names one after the other, none twice: decoded names by their code points, and names that
    cannot be decoded by their bytes. Names of both sorts are not compared. -/
def Ascending (names : List RawText) : Prop :=
  (∃ texts : List String, names = texts.map .text ∧ texts.Pairwise (· < ·)) ∨
    ∃ bytes : List (List UInt8), names = bytes.map .undecodable ∧ bytes.Pairwise (· < ·)

theorem eq_map_of_not_mixed {names : List RawText} (h : mixed names = false) :
    (∃ texts : List String, names = texts.map .text) ∨
      ∃ bytes : List (List UInt8), names = bytes.map .undecodable := by
  simp only [mixed, Bool.and_eq_false_iff, List.any_eq_false, Bool.not_eq_true',
    Bool.not_eq_false] at h
  rcases h with h | h
  · left
    induction names with
    | nil => exact ⟨[], rfl⟩
    | cons name names ih =>
      obtain ⟨texts, rfl⟩ := ih fun x hx => h x (List.mem_cons_of_mem _ hx)
      cases name with
      | text s => exact ⟨s :: texts, rfl⟩
      | undecodable bytes => exact absurd rfl (h _ List.mem_cons_self)
  · right
    induction names with
    | nil => exact ⟨[], rfl⟩
    | cons name names ih =>
      obtain ⟨bytes, rfl⟩ := ih fun x hx => h x (List.mem_cons_of_mem _ hx)
      cases name with
      | text s => exact absurd (h _ List.mem_cons_self) (by simp [isUndecodable, decoded?])
      | undecodable b => exact ⟨b :: bytes, rfl⟩

end RawText

theorem sortedNames_ascending {names : List RawText}
    (h : RawText.mixed (sortedNames names) = false) : RawText.Ascending (sortedNames names) := by
  have hsorted : (sortedNames names).Pairwise fun a b => a.le b = true :=
    List.pairwise_mergeSort RawText.le_trans RawText.le_total names.eraseDups
  have hnodup : (sortedNames names).Nodup := List.nodup_mergeSort.2 (nodup_eraseDups names)
  have hstrict := hsorted.and hnodup
  rcases RawText.eq_map_of_not_mixed h with ⟨texts, heq⟩ | ⟨bytes, heq⟩
  · left
    rw [heq, List.pairwise_map] at hstrict
    refine ⟨texts, heq, hstrict.imp ?_⟩
    rintro a b ⟨hle, hne⟩
    exact Text.lt_of_le_of_ne (of_decide_eq_true hle) fun hab => hne (congrArg RawText.text hab)
  · right
    rw [heq, List.pairwise_map] at hstrict
    refine ⟨bytes, heq, hstrict.imp ?_⟩
    rintro a b ⟨hle, hne⟩
    have hle : a ≤ b := (RawText.bytesLe_iff a b).1 hle
    by_contra hlt
    exact hne (congrArg RawText.undecodable (List.le_antisymm hle (List.not_lt.1 hlt)))

/-! ## Lines -/

theorem ImportLine.paths_ascending (imports : List Import) :
    ((ofImports imports).map ImportLine.path).Pairwise (· < ·) := by
  rw [ofImports, List.map_map]
  simpa [Function.comp_def] using sortedTexts_ascending (imports.map Import.path)

/-- No line stands for a path that nothing is imported from. -/
theorem ImportLine.names_ne_nil {imports : List Import} {line : ImportLine}
    (h : line ∈ ofImports imports) : line.names ≠ [] := by
  obtain ⟨i, hi, hpath⟩ := (mem_paths_iff imports line.path).1 ⟨line, h, rfl⟩
  apply List.ne_nil_of_mem (a := i.name)
  rw [mem_names_iff h, ← hpath]
  exact hi

theorem ImportLine.names_ascending {imports : List Import} {line : ImportLine}
    (h : line ∈ ofImports imports) (hmixed : RawText.mixed line.names = false) :
    RawText.Ascending line.names := by
  obtain ⟨path, _, rfl⟩ := List.mem_map.1 h
  exact sortedNames_ascending hmixed

theorem ImportLine.mem_iff (imports : List Import) (i : Import) :
    (∃ line ∈ ofImports imports, line.path = i.path ∧ i.name ∈ line.names) ↔ i ∈ imports := by
  constructor
  · rintro ⟨line, hline, hpath, hname⟩
    rw [mem_names_iff hline, hpath] at hname
    exact hname
  · exact exists_of_mem

/-! ## What a type mentions from outside the module -/

/-- The imported names that the schema of a type is written with: enum objects, and schemas of
    other modules. -/
def SchemaType.outside : SchemaType → List RawText
  | enum name => [name]
  | foreign name => [.text (Name.schema name.shown)]
  | array item => item.outside
  | record _ value => value.outside
  | _ => []

@[simp] theorem SchemaType.outside_defer (names : List RawText) (t : SchemaType) :
    (t.defer names).outside = t.outside := by
  induction t with
  | own name =>
    show (if names.contains name then deferred name else own name).outside = []
    split <;> rfl
  | array item ih => exact ih
  | record key value ih => exact ih
  | _ => rfl

@[simp] theorem Scalar.outside_schemaType (s : Scalar) : s.schemaType.outside = [] :=
  rfl

theorem SchemaType.outside_wellKnown {fullName : RawText} {t : SchemaType}
    (h : wellKnown? fullName = some t) : t.outside = [] := by
  obtain ⟨message, _, rfl⟩ := Option.map_eq_some_iff.1 h
  rfl

theorem Target.outside_schemaType (path : String) (t : Target) :
    (t.schemaType path).outside = ((t.import? path).map Import.name).toList := by
  cases t with
  | scalar type => exact type.outside_schemaType
  | enum ref => rfl
  | message ref =>
    rw [Target.import?_message, Target.schemaType]
    cases hknown : SchemaType.wellKnown? ref.fullName with
    | some type => simp [SchemaType.outside_wellKnown hknown]
    | none =>
      by_cases hfile : ref.file = path <;> simp [hfile, SchemaType.outside]

/-- What the schema of a field mentions from outside is what the field imports. -/
theorem FieldType.outside_schemaType (path : String) (type : FieldType) :
    (type.schemaType path).outside = ((type.import? path).map Import.name).toList := by
  cases type with
  | unknown => rfl
  | single target => exact target.outside_schemaType path
  | list target => exact target.outside_schemaType path
  | map key value =>
    cases value with
    | none => rfl
    | some target => exact target.outside_schemaType path

/-! ## What a module requires -/

/-- A field of a selected message, or of a message nested in one at any depth. -/
def SchemaFile.Holds (file : SchemaFile Field) (options : Options) (field : Field) : Prop :=
  ∃ m ∈ file.selected options, ∃ nested ∈ m.withNested, field ∈ nested.fields

/-- The module of a file requires a name from a path: an enum of the file itself, an enum that a
    field refers to, or the schema of a message that a field refers to, unless that message is
    well-known or has the path of the file itself. -/
inductive SchemaFile.Requires (model : Model) (file : SchemaFile Field) (options : Options) :
    RawText → String → Prop
  | ownEnum {e : Enum} (he : e ∈ file.enums) :
    Requires model file options e.name ("./" ++ ModulePath.baseName file.path ++ ".js")
  | enum {field : Field} (hfield : file.Holds options field) {e : Enum} (he : e ∈ model.enums)
    (htarget : field.type.target? = some (.enum e.ref)) :
    Requires model file options e.name (ModulePath.specifier file.path e.file ".js")
  | schema {field : Field} (hfield : file.Holds options field) {t : Message Field}
    (ht : t ∈ model.messages) (htarget : field.type.target? = some (.message t.ref))
    (hplain : SchemaType.wellKnown? t.fullName = none) (hforeign : t.file ≠ file.path) :
    Requires model file options (.text (Name.schema t.name.shown))
      (ModulePath.specifier file.path t.file "_zod.js")

theorem ModulePath.dropShared_self (parts : List String) : dropShared parts parts = ([], []) := by
  induction parts with
  | nil => rfl
  | cons part parts ih => rw [dropShared, if_pos rfl, ih]

/-- A module finds the types of its own file beside it. -/
theorem ModulePath.specifier_self (path ending : String) :
    specifier path path ending = "./" ++ baseName path ++ ending := by
  rw [specifier, specifierParts, dropShared_self]
  apply String.toList_injective
  simp

/-- The imports that are collected are those that are required. -/
theorem SchemaFile.mem_imports_iff_requires {model : Model} (hmodel : model.Coherent)
    {file : SchemaFile Field} (hfile : file ∈ model.files) (options : Options) (i : Import) :
    i ∈ (file.selected options).flatMap (Message.imports file.path) ++ file.enumImports ↔
      file.Requires model options i.name i.path := by
  rw [file.mem_imports_iff]
  constructor
  · rintro (⟨m, hm, nested, hnested, field, hfield, himport⟩ | ⟨e, he, rfl⟩)
    · have hmem := Model.mem_messages_of_nested hfile (file.selected_subset options hm) hnested
      have hholds : file.Holds options field := ⟨m, hm, nested, hnested, hfield⟩
      obtain ⟨target, htarget, himport⟩ := Option.bind_eq_some_iff.1 himport
      cases target with
      | scalar type => cases himport
      | enum ref =>
        obtain rfl := Option.some.inj himport
        obtain ⟨e, he, rfl⟩ := hmodel.enum_declared nested hmem field hfield ref htarget
        exact .enum hholds he htarget
      | message ref =>
        have hmessage : field.type.message? = some ref := by
          rw [FieldType.message?, htarget]
          rfl
        obtain ⟨t, ht, rfl⟩ := hmodel.ref_declared nested hmem field hfield ref hmessage
        rw [Target.import?_message] at himport
        split at himport
        · cases himport
        · next hneeded =>
          obtain rfl := Option.some.inj himport
          rw [Bool.or_eq_true, not_or, Option.not_isSome_iff_eq_none, decide_eq_true_eq] at hneeded
          exact .schema hholds ht htarget hneeded.1 hneeded.2
    · rw [ModulePath.specifier_self]
      exact .ownEnum he
  · obtain ⟨name, path⟩ := i
    rintro (he | ⟨⟨m, hm, nested, hnested, hfield⟩, he, htarget⟩ |
      ⟨⟨m, hm, nested, hnested, hfield⟩, ht, htarget, hplain, hforeign⟩)
    · exact .inr ⟨_, he, by rw [ModulePath.specifier_self]; rfl⟩
    · refine .inl ⟨m, hm, nested, hnested, _, hfield, ?_⟩
      rw [FieldType.import?, htarget]
      rfl
    · refine .inl ⟨m, hm, nested, hnested, _, hfield, ?_⟩
      rw [FieldType.import?, htarget, Option.bind_some, Target.import?_message, if_neg]
      · rfl
      · simp [Message.ref, hplain, hforeign]

/-! ## The main result -/

namespace SchemaModule

variable {loader : Loader} {options : Options} {file : SchemaFile Field} {built : SchemaModule}

theorem not_mixed_of_ofFile (h : (ofFile loader options file).outcome = .ok (some built)) :
    ∀ line ∈ file.importLines (file.selected options), RawText.mixed line.names = false := by
  rw [ofFile_outcome] at h
  obtain ⟨_, _, h⟩ := bind_eq_ok_iff.1 h
  split at h
  · cases h
  · obtain ⟨_, horder, _⟩ := bind_eq_ok_iff.1 h
    unfold ImportLine.checkOrder TextUse.refuseIf at horder
    split at horder
    · cases horder
    · next hnone => simpa using hnone

/-- Every property of a module belongs to a field of a selected message. -/
theorem exists_field_of_property (h : (ofFile loader options file).outcome = .ok (some built))
    {e : MessageExport} (he : e ∈ built.messages) {p : Property} (hp : p ∈ e.properties) :
    ∃ recursive, ∃ m ∈ file.selected options, ∃ field ∈ m.fields,
      (field.property file.path recursive loader).outcome = .ok p := by
  obtain ⟨m, hm, recursive, hexport⟩ := exists_exported_of_mem h he
  obtain ⟨_, _, _, hproperties⟩ := Message.exported_eq_ok hexport
  obtain ⟨field, hfield, hproperty⟩ := exists_of_mem_forall₂ hproperties.flip hp
  exact ⟨recursive, m, hm, field, hfield, hproperty⟩

/-- **The import table is exact, sorted and complete.** The paths ascend by code points, so do the
    names under each path, and there is at least one. A name is listed under a path exactly if it is
    required from there. So all that the expressions of the module mention from outside is
    imported. -/
theorem ofFile_imports_exact {files : List FileDescriptor} {model : Model}
    (hbuild : Model.build files = .ok model) (hfile : file ∈ model.files)
    (h : (ofFile loader options file).outcome = .ok (some built)) :
    (built.imports.map ImportLine.path).Pairwise (· < ·) ∧
      (∀ line ∈ built.imports, line.names ≠ [] ∧ RawText.Ascending line.names) ∧
      (∀ name path, (∃ line ∈ built.imports, line.path = path ∧ name ∈ line.names) ↔
        file.Requires model options name path) ∧
      ∀ e ∈ built.messages, ∀ p ∈ e.properties, ∀ name ∈ p.expression.type.outside,
        ∃ line ∈ built.imports, name ∈ line.names := by
  have hcoherent := Model.build_coherent hbuild
  have hmixed := not_mixed_of_ofFile h
  have himports : built.imports = file.importLines (file.selected options) := (ofFile_eq_some h).2.1
  rw [himports]
  refine ⟨ImportLine.paths_ascending _, ?_, ?_, ?_⟩
  · intro line hline
    exact ⟨ImportLine.names_ne_nil hline, ImportLine.names_ascending hline (hmixed line hline)⟩
  · intro name path
    exact (ImportLine.mem_iff _ ⟨name, path⟩).trans
      (SchemaFile.mem_imports_iff_requires hcoherent hfile options ⟨name, path⟩)
  · intro e he p hp name hname
    obtain ⟨recursive, m, hm, field, hfield, hproperty⟩ := exists_field_of_property h he hp
    obtain ⟨chain, _, hexpression, _, _⟩ := Field.property_eq_ok hproperty
    rw [(Field.expression_eq_ok hexpression).1, SchemaType.outside_defer,
      FieldType.outside_schemaType, Option.mem_toList, Option.map_eq_some_iff] at hname
    obtain ⟨i, himport, rfl⟩ := hname
    obtain ⟨line, hline, _, hlisted⟩ := ImportLine.exists_of_mem
      ((file.mem_imports_iff (file.selected options) i).2
        (.inl ⟨m, hm, m, m.mem_withNested_self, field, hfield, himport⟩))
    exact ⟨line, hline, hlisted⟩

/-- The lines nested in an order have prices, which come from another directory, and the order has
    a status of its own file. -/
theorem ofFile_imports_of_nested_lines :
    let status : Enum := ⟨"Status", "Status", "shop/order", [], false⟩
    let money : Message Field :=
      ⟨"Money", "Money", "common/money", ⟨1, [0]⟩, [], [], [], false, false⟩
    let price : Field := ⟨"price", 1, .single (.message money.ref), false, none⟩
    let line : Message Field :=
      ⟨"Line", "Order.Line", "shop/order", ⟨0, [0, 0]⟩, [price], [], [], false, false⟩
    let order : Message Field :=
      ⟨"Order", "Order", "shop/order", ⟨0, [0]⟩,
        [⟨"status", 1, .single (.enum status.ref), false, none⟩], [], [line], false, false⟩
    let orders : SchemaFile Field := ⟨"shop/order.proto", "shop/order", "", [status], [order]⟩
    let moneys : SchemaFile Field := ⟨"common/money.proto", "common/money", "", [], [money]⟩
    let files : List FileDescriptor :=
      [{ name := "shop/order.proto", enums := [{ name := "Status" }], messages :=
        [{ name := "Order",
           fields := [{ name := "status", number := 1, kind := .enum, typeName := ".Status" }],
           messages := [{ name := "Line", fields :=
             [{ name := "price", number := 1, kind := .message, typeName := ".Money" }] }] }] },
       { name := "common/money.proto", messages := [{ name := "Money" }] }]
    Model.build files = .ok ⟨[orders, moneys]⟩ ∧
      ∃ built, (ofFile true {} orders).outcome = .ok (some built) ∧
        (∃ line ∈ built.imports, line.path = "./order.js" ∧ .text "Status" ∈ line.names) ∧
        ∃ line ∈ built.imports, line.path = "../common/money_zod.js" ∧
          .text "MoneySchema" ∈ line.names := by
  intro status money price line order orders moneys files
  have hmodel : Model.build files = .ok ⟨[orders, moneys]⟩ := by rfl
  have hmessages : (Model.mk [orders, moneys]).messages = [order, line, money] := by rfl
  have henums : (Model.mk [orders, moneys]).enums = [status] := by rfl
  have hpatterns : (Model.mk [orders, moneys]).PatternsDecoded := by
    unfold Model.PatternsDecoded
    rw [hmessages]
    simp [order, line, money, price, Field.rules?]
  have hnames : (Model.mk [orders, moneys]).NamesDecoded := by
    refine ⟨?_, ?_, ?_⟩
    · rw [hmessages]
      decide
    · rw [hmessages]
      decide
    · rw [henums]
      decide
  have hselected : order ∈ orders.selected {} := List.mem_filter.2 ⟨List.mem_cons_self, by decide⟩
  obtain ⟨built, hbuilt⟩ := exists_ofFile_of_decoded true (Model.build_coherent hmodel)
    List.mem_cons_self hnames hpatterns (List.ne_nil_of_mem hselected)
  obtain ⟨_, _, hlisted, _⟩ := ofFile_imports_exact hmodel List.mem_cons_self hbuilt
  have hholds : orders.Holds {} price := by
    refine ⟨order, hselected, line, ?_, List.mem_cons_self⟩
    rw [Message.withNested]
    exact List.mem_cons_of_mem _ (Message.mem_withNestedAll_of_mem List.mem_cons_self)
  have hmoney : money ∈ (Model.mk [orders, moneys]).messages := by
    rw [hmessages]
    simp
  refine ⟨hmodel, built, hbuilt, (hlisted "Status" "./order.js").2 ?_,
    (hlisted "MoneySchema" "../common/money_zod.js").2 ?_⟩
  · have hstatus : status ∈ orders.enums := List.mem_cons_self
    have hpath : "./" ++ ModulePath.baseName orders.path ++ ".js" = "./order.js" := by decide
    rw [← hpath]
    exact .ownEnum hstatus
  · have hpath : ModulePath.specifier orders.path money.file "_zod.js" =
        "../common/money_zod.js" := by decide
    rw [← hpath]
    exact .schema hholds hmoney rfl (by decide) (by decide)

end SchemaModule

end ProtoSchema
