import Mathlib.Data.List.Nodup
import ProtoSchema.Proofs.Module.Export
import ProtoSchema.Proofs.Module.Imports

set_option autoImplicit false

/-! # What a module binds

A module binds names by importing them and by exporting constants under them. The names are made
from those of the schema files and are never changed to keep them apart, so they may meet. For a
file with distinct names it is said exactly when they do (`bound_nodup_iff`): if a name is required
from two modules, if a required name is that of a constant, or if the tables of two enums have one
name. Types are apart unless a message has the name of the type of an enum
(`exported_type_nodup_iff`). -/

namespace ProtoSchema

open Name (isIdentifier numberTable nameTable)

/-! ## Names of a file -/

/-- The names of the enums of a file, as they are shown. -/
def SchemaFile.enumNames (file : SchemaFile Field) : List String :=
  file.enums.map fun e => e.name.shown

/-- The names of the messages to generate, as they are shown. -/
def SchemaFile.messageNames (options : Options) (file : SchemaFile Field) : List String :=
  (file.selected options).map fun m => m.name.shown

/-- The enums and messages of a file are named by distinct identifiers. -/
structure SchemaFile.DistinctNames (file : SchemaFile Field) : Prop where
  nodup : (file.enums.map Enum.name ++ file.messages.map Message.name).Nodup
  identifiers : ∀ name ∈ file.enums.map Enum.name ++ file.messages.map Message.name,
    ∃ text, name = .text text ∧ isIdentifier text = true

namespace SchemaFile.DistinctNames

variable {file : SchemaFile Field} (h : file.DistinctNames) (options : Options)

include h

/-- Leaving out responses keeps names apart. -/
theorem nodup_selected :
    (file.enums.map Enum.name ++ (file.selected options).map Message.name).Nodup := by
  have hsub : (file.selected options).Sublist file.messages := by
    unfold SchemaFile.selected
    split
    · exact List.Sublist.refl _
    · exact List.filter_sublist
  exact h.nodup.sublist ((hsub.map Message.name).append_left _)

theorem shown_of_mem {name : RawText}
    (hname : name ∈ file.enums.map Enum.name ++ (file.selected options).map Message.name) :
    name = .text name.shown ∧ isIdentifier name.shown = true := by
  have hmem : name ∈ file.enums.map Enum.name ++ file.messages.map Message.name := by
    rcases List.mem_append.1 hname with hname | hname
    · exact List.mem_append_left _ hname
    · exact List.mem_append_right _ (List.map_subset _ (file.selected_subset options) hname)
  obtain ⟨text, rfl, htext⟩ := h.identifiers name hmem
  exact ⟨rfl, htext⟩

theorem nodup_names : (file.enumNames ++ file.messageNames options).Nodup := by
  have hshown : ((file.enums.map Enum.name ++ (file.selected options).map Message.name).map
      RawText.shown).Nodup := by
    refine (List.nodup_map_iff_inj_on (h.nodup_selected options)).2 fun a ha b hb hsame => ?_
    rw [(h.shown_of_mem options ha).1, (h.shown_of_mem options hb).1, hsame]
  simpa [enumNames, messageNames, Function.comp_def] using hshown

theorem isIdentifier_of_mem {name : String}
    (hname : name ∈ file.enumNames ++ file.messageNames options) : isIdentifier name = true := by
  have hshown : name ∈ (file.enums.map Enum.name ++ (file.selected options).map Message.name).map
      RawText.shown := by
    simpa [enumNames, messageNames] using hname
  obtain ⟨raw, hraw, rfl⟩ := List.mem_map.1 hshown
  exact (h.shown_of_mem options hraw).2

end SchemaFile.DistinctNames

/-! ## Imports -/

theorem ImportLine.nodup_names {imports : List Import} {line : ImportLine}
    (h : line ∈ ofImports imports) : line.names.Nodup := by
  obtain ⟨path, _, rfl⟩ := List.mem_map.1 h
  exact (List.mergeSort_perm _ _).nodup_iff.2 (nodup_eraseDups _)

/-- Imported names are apart if no name is imported from two paths. -/
theorem ImportLine.nodup_flatMap_names_iff (imports : List Import) :
    ((ofImports imports).flatMap ImportLine.names).Nodup ↔
      ∀ name path path', ⟨name, path⟩ ∈ imports → ⟨name, path'⟩ ∈ imports → path = path' := by
  have hpaths : (ofImports imports).Pairwise fun a b => a.path ≠ b.path :=
    (List.pairwise_map.1 (paths_ascending imports)).imp fun hlt => String.ne_of_lt hlt
  rw [List.nodup_flatMap]
  constructor
  · rintro ⟨_, hdisjoint⟩ name path path' hi hi'
    by_contra hne
    obtain ⟨line, hline, hpath, hname⟩ := exists_of_mem hi
    obtain ⟨line', hline', hpath', hname'⟩ := exists_of_mem hi'
    have hlines : line ≠ line' := by
      rintro rfl
      exact hne (hpath.symm.trans hpath')
    -- two lines with the name are two members of a list of pairwise disjoint lines
    have : Std.Symm (Function.onFun List.Disjoint ImportLine.names) := ⟨fun _ _ hd => hd.symm⟩
    exact hdisjoint.forall hline hline' hlines hname hname'
  · intro honce
    refine ⟨fun line hline => nodup_names hline, ?_⟩
    refine hpaths.imp_of_mem fun {line line'} hline hline' hne name hname hname' => ?_
    exact hne (honce name _ _ ((mem_names_iff hline name).1 hname)
      ((mem_names_iff hline' name).1 hname'))

/-! ## Constants -/

theorem flatMap_triple_perm {α β : Type} (l : List α) (f g h : α → β) :
    (l.flatMap fun a => [f a, g a, h a]).Perm (l.map f ++ (l.map g ++ l.map h)) := by
  have hpair : (l.flatMap fun a => [g a, h a]).Perm (l.map g ++ l.map h) := by
    rw [List.map_eq_flatMap (f := h)]
    exact (List.map_append_flatMap_perm l g fun a => [h a]).symm
  exact (List.map_append_flatMap_perm l f fun a => [g a, h a]).symm.trans (hpair.append_left _)

namespace SchemaModule

variable {loader : Loader} {options : Options} {file : SchemaFile Field} {built : SchemaModule}

theorem enumNames_of_ofFile (h : (ofFile loader options file).outcome = .ok (some built)) :
    built.enums.map EnumExport.name = file.enumNames := by
  rw [ofFile_outcome] at h
  obtain ⟨_, _, h⟩ := bind_eq_ok_iff.1 h
  split at h
  · cases h
  · obtain ⟨_, _, h⟩ := bind_eq_ok_iff.1 h
    obtain ⟨_, _, h⟩ := bind_eq_ok_iff.1 h
    obtain ⟨_, _, h⟩ := bind_eq_ok_iff.1 h
    cases h
    rw [List.map_map]
    rfl

section

variable (hnames : file.DistinctNames)
  (h : (ofFile loader options file).outcome = .ok (some built))

include hnames h

/-- With distinct names all selected messages are exported. -/
theorem messageNames_of_ofFile :
    (built.messages.map MessageExport.name).Perm (file.messageNames options) := by
  obtain ⟨_, _, arrangement, harrangement, hexports⟩ := ofFile_eq_some h
  obtain ⟨_, arranged, _, harrangement', hperm, _, _⟩ :=
    Arrangement.ofMessages_eq (file.selected options) file.path
      (List.nodup_append.1 (hnames.nodup_selected options)).2.1
  cases harrangement.symm.trans harrangement'
  have hshown : built.messages.map MessageExport.name = arranged.map fun m => m.name.shown := by
    rw [← List.forall₂_eq_eq_eq, List.forall₂_map_left_iff, List.forall₂_map_right_iff]
    exact hexports.flip.imp fun _ _ he => (Message.exported_eq_ok he).1
  rw [hshown]
  exact hperm.map _

theorem isIdentifier_of_ofFile :
    (∀ e ∈ built.enums, isIdentifier e.name = true) ∧
      ∀ e ∈ built.messages, isIdentifier e.name = true := by
  constructor
  · intro e he
    refine hnames.isIdentifier_of_mem options (List.mem_append_left _ ?_)
    rw [← enumNames_of_ofFile h]
    exact List.mem_map_of_mem he
  · intro e he
    refine hnames.isIdentifier_of_mem options (List.mem_append_right _ ?_)
    rw [← (messageNames_of_ofFile hnames h).mem_iff]
    exact List.mem_map_of_mem he

/-- Constants come in three kinds: schemas, and two kinds of tables. -/
theorem exported_const_perm :
    (built.exported .const).Perm ((file.enumNames ++ file.messageNames options).map Name.schema ++
      (file.enumNames.map numberTable ++ file.enumNames.map nameTable)) := by
  obtain ⟨henums, hmessages⟩ := isIdentifier_of_ofFile hnames h
  have htriples := flatMap_triple_perm file.enumNames Name.schema numberTable nameTable
  have hschemas := (messageNames_of_ofFile hnames h).map Name.schema
  rw [← enumNames_of_ofFile h, List.flatMap_map] at htriples
  rw [List.map_map] at hschemas
  rw [exported_const henums hmessages, List.map_append, List.append_assoc]
  refine (htriples.append hschemas).trans ?_
  rw [enumNames_of_ofFile h, List.append_assoc]
  exact List.perm_append_comm.append_left _

theorem exported_type_perm :
    (built.exported .type).Perm
      (file.enumNames.map (· ++ "Type") ++ file.messageNames options) := by
  obtain ⟨henums, hmessages⟩ := isIdentifier_of_ofFile hnames h
  rw [exported_type henums hmessages, ← enumNames_of_ofFile h, List.map_map]
  exact (messageNames_of_ofFile hnames h).append_left _

theorem mem_exported_const_iff (constant : String) :
    constant ∈ built.exported .const ↔
      (∃ name ∈ file.enumNames ++ file.messageNames options, Name.schema name = constant) ∨
        ∃ name ∈ file.enumNames, numberTable name = constant ∨ nameTable name = constant := by
  rw [(exported_const_perm hnames h).mem_iff]
  simp only [List.mem_append, List.mem_map, and_or_left, exists_or]

/-- Schemas meet neither each other nor tables. Tables are apart unless two enums are the same in
    screaming snake case or the two tables of different kinds meet. -/
theorem nodup_exported_const_iff :
    (built.exported .const).Nodup ↔ (file.enumNames.map Name.screamingSnake).Nodup ∧
      ∀ a ∈ file.enumNames, ∀ b ∈ file.enumNames, numberTable a ≠ nameTable b := by
  have hschemas : ((file.enumNames ++ file.messageNames options).map Name.schema).Nodup :=
    (hnames.nodup_names options).map fun _ _ => Name.schema_inj.1
  have hnumbers : (file.enumNames.map numberTable).Nodup ↔
      (file.enumNames.map Name.screamingSnake).Nodup := by
    simp only [List.Nodup, List.pairwise_map, ne_eq, Name.numberTable_inj]
  have hmembers : (file.enumNames.map nameTable).Nodup ↔
      (file.enumNames.map Name.screamingSnake).Nodup := by
    simp only [List.Nodup, List.pairwise_map, ne_eq, Name.nameTable_inj]
  -- a schema constant ends in lower-case letters, which no table has
  have hapart : ∀ a ∈ (file.enumNames ++ file.messageNames options).map Name.schema,
      ∀ b ∈ file.enumNames.map numberTable ++ file.enumNames.map nameTable, a ≠ b := by
    intro a ha b hb
    obtain ⟨name, _, rfl⟩ := List.mem_map.1 ha
    rcases List.mem_append.1 hb with hb | hb
    · obtain ⟨e, he, rfl⟩ := List.mem_map.1 hb
      have hword := hnames.isIdentifier_of_mem options (List.mem_append_left _ he)
      exact Name.schema_ne_of_screaming (Name.screaming_numberTable hword) name
    · obtain ⟨e, he, rfl⟩ := List.mem_map.1 hb
      have hword := hnames.isIdentifier_of_mem options (List.mem_append_left _ he)
      exact Name.schema_ne_of_screaming (Name.screaming_nameTable hword) name
  rw [(exported_const_perm hnames h).nodup_iff, List.nodup_append, List.nodup_append, hnumbers,
    hmembers]
  constructor
  · rintro ⟨_, ⟨hscreaming, _, htables⟩, _⟩
    exact ⟨hscreaming, fun a ha b hb =>
      htables _ (List.mem_map_of_mem ha) _ (List.mem_map_of_mem hb)⟩
  · rintro ⟨hscreaming, hcrossing⟩
    refine ⟨hschemas, ⟨hscreaming, hscreaming, fun a ha b hb => ?_⟩, hapart⟩
    obtain ⟨e, he, rfl⟩ := List.mem_map.1 ha
    obtain ⟨e', he', rfl⟩ := List.mem_map.1 hb
    exact hcrossing e he e' he'

end

/-! ## All names -/

/-- The names that a module binds: the one of the validation library, all that it imports beside
    it, and its constants. -/
def bound (m : SchemaModule) : List RawText :=
  "z" :: (m.imports.flatMap ImportLine.names ++ (m.exported .const).map RawText.text)

end SchemaModule

/-- Nothing that the module of a file binds meets anything else. -/
structure SchemaFile.NamesApart (model : Model) (options : Options) (file : SchemaFile Field) :
    Prop where
  /-- No name is required from two modules. -/
  modules : ∀ name path path', file.Requires model options name path →
    file.Requires model options name path' → path = path'
  /-- No enum takes the name of the validation library. -/
  library : ∀ path, ¬ file.Requires model options "z" path
  /-- No required name is that of a schema of the module. -/
  schemas : ∀ name ∈ file.enumNames ++ file.messageNames options, ∀ path,
    ¬ file.Requires model options (.text (Name.schema name)) path
  /-- No required name is that of a table. -/
  tables : ∀ name ∈ file.enumNames, ∀ path,
    ¬ file.Requires model options (.text (numberTable name)) path ∧
      ¬ file.Requires model options (.text (nameTable name)) path
  /-- Enums differ in screaming snake case. -/
  screaming : (file.enumNames.map Name.screamingSnake).Nodup
  /-- Tables of different kinds have different names. -/
  kinds : ∀ a ∈ file.enumNames, ∀ b ∈ file.enumNames, numberTable a ≠ nameTable b

namespace SchemaModule

variable {loader : Loader} {options : Options} {file : SchemaFile Field} {built : SchemaModule}

/-- The imported names are those that are required. -/
theorem mem_imports_iff_requires {model : Model} (hmodel : model.Coherent)
    (hfile : file ∈ model.files) (h : (ofFile loader options file).outcome = .ok (some built))
    (name : RawText) :
    name ∈ built.imports.flatMap ImportLine.names ↔
      ∃ path, file.Requires model options name path := by
  rw [(ofFile_eq_some h).2.1, List.mem_flatMap]
  constructor
  · rintro ⟨line, hline, hname⟩
    exact ⟨line.path, (file.mem_imports_iff_requires hmodel hfile options ⟨name, line.path⟩).1
      ((ImportLine.mem_names_iff hline name).1 hname)⟩
  · rintro ⟨path, hrequires⟩
    obtain ⟨line, hline, _, hname⟩ := ImportLine.exists_of_mem
      ((file.mem_imports_iff_requires hmodel hfile options ⟨name, path⟩).2 hrequires)
    exact ⟨line, hline, hname⟩

/-- No constant takes the name of the validation library. -/
theorem library_notMem_exported (hnames : file.DistinctNames)
    (h : (ofFile loader options file).outcome = .ok (some built)) :
    "z" ∉ built.exported .const := by
  have hlower : ¬ Name.Screaming "z" := fun hz => by simpa using hz.noLower 'z' (by simp)
  rw [mem_exported_const_iff hnames h]
  rintro (⟨name, _, hschema⟩ | ⟨name, hname, htable⟩)
  · have hlength := congrArg (fun s => s.toList.length) hschema
    simp [Name.schema] at hlength
  · have hword := hnames.isIdentifier_of_mem options (List.mem_append_left _ hname)
    rcases htable with htable | htable
    · exact hlower (htable ▸ Name.screaming_numberTable hword)
    · exact hlower (htable ▸ Name.screaming_nameTable hword)

/-- The names that a module binds are apart exactly if nothing of what may meet does. -/
theorem bound_nodup_iff {model : Model} (hmodel : model.Coherent) (hfile : file ∈ model.files)
    (hnames : file.DistinctNames)
    (h : (ofFile loader options file).outcome = .ok (some built)) :
    built.bound.Nodup ↔ file.NamesApart model options := by
  have hmem := mem_imports_iff_requires hmodel hfile h
  have hmodules : (built.imports.flatMap ImportLine.names).Nodup ↔
      ∀ name path path', file.Requires model options name path →
        file.Requires model options name path' → path = path' := by
    rw [(ofFile_eq_some h).2.1, SchemaFile.importLines, ImportLine.nodup_flatMap_names_iff]
    simp only [file.mem_imports_iff_requires hmodel hfile options]
  rw [bound, List.nodup_cons, List.nodup_append, hmodules,
    List.nodup_map_iff fun _ _ => RawText.text.inj, nodup_exported_const_iff hnames h]
  constructor
  · rintro ⟨hlibrary, honce, ⟨hscreaming, hkinds⟩, hapart⟩
    have hfree : ∀ constant ∈ built.exported .const, ∀ path,
        ¬ file.Requires model options (.text constant) path := by
      intro constant hconstant path hrequires
      exact hapart _ ((hmem _).2 ⟨path, hrequires⟩) _ (List.mem_map_of_mem hconstant) rfl
    refine ⟨honce, fun path hrequires => ?_, fun name hname => ?_, fun name hname path => ⟨?_, ?_⟩,
      hscreaming, hkinds⟩
    · exact hlibrary (List.mem_append_left _ ((hmem _).2 ⟨path, hrequires⟩))
    · exact hfree _ ((mem_exported_const_iff hnames h _).2 (.inl ⟨name, hname, rfl⟩))
    · exact hfree _ ((mem_exported_const_iff hnames h _).2 (.inr ⟨name, hname, .inl rfl⟩)) path
    · exact hfree _ ((mem_exported_const_iff hnames h _).2 (.inr ⟨name, hname, .inr rfl⟩)) path
  · rintro ⟨honce, hlibrary, hschemas, htables, hscreaming, hkinds⟩
    refine ⟨?_, honce, ⟨hscreaming, hkinds⟩, ?_⟩
    · rw [List.mem_append, not_or, hmem]
      refine ⟨fun ⟨path, hrequires⟩ => hlibrary path hrequires, fun hconstant => ?_⟩
      obtain ⟨constant, hexported, hz⟩ := List.mem_map.1 hconstant
      obtain rfl := RawText.text.inj hz
      exact library_notMem_exported hnames h hexported
    · -- an imported name that is a constant is a required schema or table
      rintro name himported _ hconstant rfl
      obtain ⟨path, hrequires⟩ := (hmem _).1 himported
      obtain ⟨constant, hexported, rfl⟩ := List.mem_map.1 hconstant
      rcases (mem_exported_const_iff hnames h _).1 hexported with
        ⟨name, hname, rfl⟩ | ⟨name, hname, rfl | rfl⟩
      · exact hschemas name hname path hrequires
      · exact (htables name hname path).1 hrequires
      · exact (htables name hname path).2 hrequires

theorem exported_type_nodup_iff (hnames : file.DistinctNames)
    (h : (ofFile loader options file).outcome = .ok (some built)) :
    (built.exported .type).Nodup ↔
      ∀ name ∈ file.enumNames, name ++ "Type" ∉ file.messageNames options := by
  obtain ⟨henums, hmessages, hapart⟩ := List.nodup_append.1 (hnames.nodup_names options)
  have htypes : (file.enumNames.map (· ++ "Type")).Nodup :=
    henums.map fun _ _ => (String.append_left_inj _).1
  rw [(exported_type_perm hnames h).nodup_iff, List.nodup_append]
  constructor
  · rintro ⟨_, _, hdistinct⟩ name hname hmessage
    exact hdistinct _ (List.mem_map_of_mem hname) _ hmessage rfl
  · intro hdistinct
    refine ⟨htypes, hmessages, ?_⟩
    rintro a ha b hb rfl
    obtain ⟨name, hname, rfl⟩ := List.mem_map.1 ha
    exact hdistinct name hname hb

/-- **When a module binds a name twice.** For a file with distinct names, the imported names and the
    constants are apart exactly if no name is required from two modules, no required name is that of
    the library or of a constant, and no tables of enums meet. The types are apart exactly if no
    message has the name of the type of an enum. -/
theorem binds_names_once_iff {files : List FileDescriptor} {model : Model}
    (hbuild : Model.build files = .ok model) (hfile : file ∈ model.files)
    (hnames : file.DistinctNames)
    (h : (ofFile loader options file).outcome = .ok (some built)) :
    (built.bound.Nodup ↔ file.NamesApart model options) ∧
      ((built.exported .type).Nodup ↔
        ∀ name ∈ file.enumNames, name ++ "Type" ∉ file.messageNames options) :=
  ⟨bound_nodup_iff (Model.build_coherent hbuild) hfile hnames h, exported_type_nodup_iff hnames h⟩

/-- An order has a state of its own file and a price of another one. -/
theorem binds_names_of_orders_once :
    let status : Enum := ⟨"Status", "Status", "order", [], false⟩
    let money : Message Field := ⟨"Money", "Money", "money", ⟨1, [0]⟩, [], [], [], false, false⟩
    let state : Field := ⟨"state", 1, .single (.enum status.ref), false, none⟩
    let price : Field := ⟨"price", 2, .single (.message money.ref), false, none⟩
    let order : Message Field :=
      ⟨"Order", "Order", "order", ⟨0, [0]⟩, [state, price], [], [], false, false⟩
    let orders : SchemaFile Field := ⟨"order.proto", "order", "", [status], [order]⟩
    let moneys : SchemaFile Field := ⟨"money.proto", "money", "", [], [money]⟩
    let files : List FileDescriptor :=
      [{ name := "order.proto", enums := [{ name := "Status" }], messages :=
        [{ name := "Order", fields :=
          [{ name := "state", number := 1, kind := .enum, typeName := ".Status" },
           { name := "price", number := 2, kind := .message, typeName := ".Money" }] }] },
       { name := "money.proto", messages := [{ name := "Money" }] }]
    Model.build files = .ok ⟨[orders, moneys]⟩ ∧ orders.DistinctNames ∧
      ∃ built, (ofFile true {} orders).outcome = .ok (some built) ∧ built.bound.Nodup ∧
        (built.exported .type).Nodup := by
  intro status money state price order orders moneys files
  have hbuild : Model.build files = .ok ⟨[orders, moneys]⟩ := by rfl
  have hmessages : (Model.mk [orders, moneys]).messages = [order, money] := by rfl
  have henums : (Model.mk [orders, moneys]).enums = [status] := by rfl
  have hselected : orders.selected {} = [order] := by cbv
  have hdistinct : orders.DistinctNames := by
    refine ⟨by decide, ?_⟩
    simp only [orders, List.map_cons, List.map_nil, List.cons_append, List.nil_append,
      List.forall_mem_cons]
    exact ⟨⟨"Status", rfl, by decide⟩, ⟨"Order", rfl, by decide⟩, by simp⟩
  have hpatterns : (Model.mk [orders, moneys]).PatternsDecoded := by
    unfold Model.PatternsDecoded
    rw [hmessages]
    simp [order, money, state, price, Field.rules?]
  have hnames : (Model.mk [orders, moneys]).NamesDecoded := by
    refine ⟨?_, ?_, ?_⟩
    · rw [hmessages]
      decide
    · rw [hmessages]
      decide
    · rw [henums]
      decide
  obtain ⟨built, hbuilt⟩ := exists_ofFile_of_decoded true (Model.build_coherent hbuild)
    List.mem_cons_self hnames hpatterns (by rw [hselected]; exact List.cons_ne_nil _ _)
  have hrequires : ∀ name path, orders.Requires ⟨[orders, moneys]⟩ {} name path →
      name = "Status" ∧ path = "./order.js" ∨ name = "MoneySchema" ∧ path = "./money_zod.js" := by
    rintro _ _ (he | ⟨_, he, _⟩ | ⟨_, ht, _, _, hforeign⟩)
    · obtain rfl := List.mem_singleton.1 he
      exact .inl ⟨rfl, by decide⟩
    · rw [henums] at he
      obtain rfl := List.mem_singleton.1 he
      exact .inl ⟨rfl, by decide⟩
    · rw [hmessages] at ht
      rcases List.mem_cons.1 ht with rfl | ht
      · exact absurd rfl hforeign
      · obtain rfl := List.mem_singleton.1 ht
        exact .inr ⟨rfl, by decide⟩
  have henumNames : orders.enumNames = ["Status"] := rfl
  have hmessageNames : orders.messageNames {} = ["Order"] := by
    rw [SchemaFile.messageNames, hselected]
    rfl
  have hfree : ∀ name : RawText, name ≠ "Status" → name ≠ "MoneySchema" → ∀ path,
      ¬ orders.Requires ⟨[orders, moneys]⟩ {} name path := by
    intro name hstatus hmoney path h
    exact (hrequires name path h).elim (fun h => hstatus h.1) fun h => hmoney h.1
  have hnumbers : numberTable "Status" = "STATUS_MAP" := by decide
  have hmembers : nameTable "Status" = "STRING_TO_STATUS" := by decide
  have hapart : orders.NamesApart ⟨[orders, moneys]⟩ {} := by
    refine ⟨?_, hfree _ (by decide) (by decide), ?_, ?_, ?_, ?_⟩
    · intro name path path' h h'
      rcases hrequires _ _ h with ⟨rfl, rfl⟩ | ⟨rfl, rfl⟩
      · exact ((hrequires _ _ h').resolve_right (by simp)).2.symm
      · exact ((hrequires _ _ h').resolve_left (by simp)).2.symm
    · rw [henumNames, hmessageNames]
      simp only [List.cons_append, List.nil_append, List.forall_mem_cons]
      exact ⟨hfree _ (by decide) (by decide), hfree _ (by decide) (by decide), by simp⟩
    · rw [henumNames]
      simp only [List.forall_mem_singleton, hnumbers, hmembers]
      exact fun path => ⟨hfree _ (by decide) (by decide) path, hfree _ (by decide) (by decide) path⟩
    · rw [henumNames]
      exact List.nodup_singleton _
    · rw [henumNames]
      simp only [List.forall_mem_singleton, hnumbers, hmembers]
      decide
  have honce := binds_names_once_iff hbuild List.mem_cons_self hdistinct hbuilt
  refine ⟨hbuild, hdistinct, built, hbuilt, honce.1.2 hapart, honce.2.2 ?_⟩
  rw [henumNames, hmessageNames]
  decide

/-- A node refers to the node of another file, whose schema is imported under the name of its own
    one, and a message has the name of the type of an enum. -/
theorem binds_node_and_kind_twice :
    let kind : Enum := ⟨"Kind", "Kind", "sample", [], false⟩
    let other : Message Field :=
      ⟨"Node", "other.Node", "other", ⟨1, [0]⟩, [], [], [], false, false⟩
    let foreign : Field := ⟨"foreign", 1, .single (.message other.ref), false, none⟩
    let node : Message Field :=
      ⟨"Node", "Node", "sample", ⟨0, [0]⟩, [foreign], [], [], false, false⟩
    let kindType : Message Field :=
      ⟨"KindType", "KindType", "sample", ⟨0, [1]⟩, [], [], [], false, false⟩
    let samples : SchemaFile Field := ⟨"sample.proto", "sample", "", [kind], [node, kindType]⟩
    let others : SchemaFile Field := ⟨"other.proto", "other", "other", [], [other]⟩
    let files : List FileDescriptor :=
      [{ name := "sample.proto", enums := [{ name := "Kind" }], messages :=
        [{ name := "Node", fields :=
          [{ name := "foreign", number := 1, kind := .message, typeName := ".other.Node" }] },
         { name := "KindType" }] },
       { name := "other.proto", package := "other", messages := [{ name := "Node" }] }]
    Model.build files = .ok ⟨[samples, others]⟩ ∧ samples.DistinctNames ∧
      ∃ built, (ofFile true {} samples).outcome = .ok (some built) ∧ ¬ built.bound.Nodup ∧
        ¬ (built.exported .type).Nodup := by
  intro kind other foreign node kindType samples others files
  have hbuild : Model.build files = .ok ⟨[samples, others]⟩ := by rfl
  have hcoherent := Model.build_coherent hbuild
  have hmessages : (Model.mk [samples, others]).messages = [node, kindType, other] := by rfl
  have henums : (Model.mk [samples, others]).enums = [kind] := by rfl
  have hselected : samples.selected {} = [node, kindType] := by cbv
  have hdistinct : samples.DistinctNames := by
    refine ⟨by decide, ?_⟩
    simp only [samples, List.map_cons, List.map_nil, List.cons_append, List.nil_append,
      List.forall_mem_cons]
    exact ⟨⟨"Kind", rfl, by decide⟩, ⟨"Node", rfl, by decide⟩, ⟨"KindType", rfl, by decide⟩,
      by simp⟩
  have hpatterns : (Model.mk [samples, others]).PatternsDecoded := by
    unfold Model.PatternsDecoded
    rw [hmessages]
    simp [node, kindType, other, foreign, Field.rules?]
  have hnames : (Model.mk [samples, others]).NamesDecoded := by
    refine ⟨?_, ?_, ?_⟩
    · rw [hmessages]
      decide
    · rw [hmessages]
      decide
    · rw [henums]
      decide
  obtain ⟨built, hbuilt⟩ := exists_ofFile_of_decoded true hcoherent List.mem_cons_self hnames
    hpatterns (by rw [hselected]; exact List.cons_ne_nil _ _)
  have hmessageNames : samples.messageNames {} = ["Node", "KindType"] := by
    rw [SchemaFile.messageNames, hselected]
    rfl
  refine ⟨hbuild, hdistinct, built, hbuilt, fun hbound => ?_, fun htypes => ?_⟩
  · have hapart := (bound_nodup_iff hcoherent List.mem_cons_self hdistinct hbuilt).1 hbound
    have hholds : samples.Holds {} foreign := by
      refine ⟨node, ?_, node, node.mem_withNested_self, List.mem_cons_self⟩
      rw [hselected]
      exact List.mem_cons_self
    have hother : other ∈ (Model.mk [samples, others]).messages := by
      rw [hmessages]
      simp
    have hrequires := SchemaFile.Requires.schema hholds hother rfl (by decide) (by decide)
    refine hapart.schemas "Node" ?_ _ hrequires
    rw [hmessageNames]
    exact List.mem_append_right _ List.mem_cons_self
  · have hapart := (exported_type_nodup_iff hdistinct hbuilt).1 htypes
    refine hapart "Kind" List.mem_cons_self ?_
    rw [hmessageNames]
    decide

end SchemaModule

end ProtoSchema
