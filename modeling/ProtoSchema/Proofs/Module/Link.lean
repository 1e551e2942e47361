import ProtoSchema.Proofs.Module.Decoding
import ProtoSchema.Proofs.ModulePath

set_option autoImplicit false

/-! # Generated modules link to each other

A module that refers to a message of another file imports its schema. Where the import comes from
and where the schema is written are computed by different functions from different data: the one
from the reference that a field holds, the other from the file that declares the message. That they
agree rests on two facts about built models, namely that a reference describes a message of the
model (`Coherent.ref_eq`) and that the path in it is the one its file has (`Coherent.file_eq`). -/

namespace ProtoSchema

/-- A reference to a message of another file is imported from the schema module of that file. -/
theorem FieldType.import?_of_message? {type : FieldType} {t : Message Field} {path : String}
    (href : type.message? = some t.ref) (hplain : SchemaType.wellKnown? t.fullName = none)
    (hforeign : t.file ≠ path) :
    type.import? path = some ⟨Name.schema t.name.shown,
      ModulePath.specifier path t.file ModulePath.schemaEnding⟩ := by
  have hneeded : ¬ ((SchemaType.wellKnown? t.ref.fullName).isSome || t.ref.file = path) = true := by
    show ¬ ((SchemaType.wellKnown? t.fullName).isSome || t.file = path) = true
    rw [hplain]
    simpa using hforeign
  rw [FieldType.import?, FieldType.target?_of_message? href, Option.bind_some,
    Target.import?_message, if_neg hneeded]
  rfl

namespace SchemaModule

variable {loader : Loader} {options : Options}

/-- A module declares all that has been selected, also if names are repeated. -/
theorem exists_export {file : SchemaFile Field} {built : SchemaModule}
    (h : (ofFile loader options file).outcome = .ok (some built)) {t : Message Field}
    (ht : t ∈ file.selected options) : ∃ e ∈ built.messages, e.name = t.name.shown := by
  obtain ⟨_, _, arrangement, harrangement, hexports⟩ := ofFile_eq_some h
  obtain ⟨arrangement', harrangement', _, hall⟩ :=
    Arrangement.ofMessages_total (file.selected options) file.path
  obtain rfl := Except.ok.inj (harrangement'.symm.trans harrangement)
  obtain ⟨m, hm, hname⟩ := hall t ht
  obtain ⟨e, he, hexport⟩ := exists_of_mem_forall₂ hexports hm
  refine ⟨e, he, ?_⟩
  rw [(Message.exported_eq_ok hexport).1, hname]

/-- The module of the one file imports the schema of a message by a specifier that leads to the
    module of the other file, and that module declares the message. -/
def Linked (loader : Loader) (options : Options) (source target : SchemaFile Field)
    (t : Message Field) : Prop :=
  ∃ importing declaring, (ofFile loader options source).outcome = .ok (some importing) ∧
    (ofFile loader options target).outcome = .ok (some declaring) ∧
    (∃ line ∈ importing.imports, .text (Name.schema t.name.shown) ∈ line.names ∧
      ModulePath.LeadsTo line.path importing.output declaring.output) ∧
    ∃ e ∈ declaring.messages, e.name = t.name.shown

/-- **Generated modules link to each other.** Let the files of a model have distinct regular names,
    and let the names and patterns in it be decoded. Whenever a field of a selected message has as
    its target a selected message of another file, other than a well-known one, the modules of the
    two files are there and link at that message. -/
theorem ofFile_linked {files : List FileDescriptor} {model : Model}
    (hbuild : Model.build files = .ok model)
    (hdistinct : (model.files.map SchemaFile.sourceName).Nodup)
    (hregular : ∀ file ∈ model.files, ModulePath.RegularName file.sourceName)
    (hpatterns : model.PatternsDecoded) (hnames : model.NamesDecoded)
    (loader : Loader) (options : Options) {source target : SchemaFile Field}
    (hsource : source ∈ model.files) (htarget : target ∈ model.files) (hne : source ≠ target)
    {m t : Message Field} (hm : m ∈ source.selected options) (ht : t ∈ target.selected options)
    {field : Field} (hfield : field ∈ m.fields) {ref : MessageRef}
    (href : field.type.message? = some ref) (hplace : ref.place = t.place)
    (hplain : SchemaType.wellKnown? t.fullName = none) :
    Linked loader options source target t := by
  have hcoherent := Model.build_coherent hbuild
  have hmSub := source.selected_subset options hm
  have htSub := target.selected_subset options ht
  obtain ⟨importing, himporting⟩ := exists_ofFile_of_decoded loader hcoherent hsource hnames
    hpatterns (List.ne_nil_of_mem hm)
  obtain ⟨declaring, hdeclaring⟩ := exists_ofFile_of_decoded loader hcoherent htarget hnames
    hpatterns (List.ne_nil_of_mem ht)
  obtain rfl := hcoherent.ref_eq (Model.mem_messages hsource hmSub)
    (Model.mem_messages htarget htSub) hfield href hplace.symm
  have howner : t.file = target.path :=
    hcoherent.file_eq target htarget t (Message.mem_withNestedAll_of_mem htSub)
  -- distinct names give distinct logical paths, because both end in `.proto`
  have hforeign : t.file ≠ source.path := by
    rw [howner, hcoherent.path_eq source hsource, hcoherent.path_eq target htarget]
    intro hpath
    have hname := (hregular target htarget).logical_inj (hregular source hsource) hpath
    exact hne (List.inj_on_of_nodup_map hdistinct hsource htarget hname.symm)
  have himport := FieldType.import?_of_message? href hplain hforeign
  obtain ⟨hout, himports, _⟩ := ofFile_eq_some himporting
  obtain ⟨hout', _⟩ := ofFile_eq_some hdeclaring
  obtain ⟨line, hline, hpath, hlisted⟩ := ImportLine.exists_of_mem
    ((source.mem_imports_iff (source.selected options) _).2
      (Or.inl ⟨m, hm, m, m.mem_withNested_self, field, hfield, himport⟩))
  refine ⟨importing, declaring, himporting, hdeclaring, ⟨line, ?_, hlisted, ?_⟩,
    exists_export hdeclaring ht⟩
  · rw [himports]
    exact hline
  · have hleads := ModulePath.specifier_leadsTo (hregular source hsource) (hregular target htarget)
    rw [← hcoherent.path_eq source hsource, ← hcoherent.path_eq target htarget, ← hout,
      ← hout', ← howner] at hleads
    rw [hpath]
    exact hleads

/-- An order in one directory has amounts of money declared in another one. -/
theorem ofFile_linked_across_directories :
    let money : Message Field :=
      ⟨"Money", "common.Money", "common/money", ⟨1, [0]⟩, [], [], [], false, false⟩
    let order : Message Field :=
      ⟨"Order", "shop.Order", "shop/v1/order", ⟨0, [0]⟩,
        [⟨"amounts", 1, .list (.message money.ref), false, none⟩], [], [], false, false⟩
    let orders : SchemaFile Field :=
      ⟨"shop/v1/order.proto", "shop/v1/order", "shop", [], [order]⟩
    let moneys : SchemaFile Field :=
      ⟨"common/money.proto", "common/money", "common", [], [money]⟩
    let files : List FileDescriptor :=
      [{ name := "shop/v1/order.proto", package := "shop", messages :=
        [{ name := "Order", fields :=
          [{ name := "amounts", number := 1, kind := .message, label := .repeated,
             typeName := ".common.Money" }] }] },
       { name := "common/money.proto", package := "common", messages := [{ name := "Money" }] }]
    Model.build files = .ok ⟨[orders, moneys]⟩ ∧
      ([orders, moneys].map SchemaFile.sourceName).Nodup ∧
      (∀ file ∈ [orders, moneys], ModulePath.RegularName file.sourceName) ∧
      (Model.mk [orders, moneys]).PatternsDecoded ∧ (Model.mk [orders, moneys]).NamesDecoded ∧
      order ∈ orders.selected {} ∧ money ∈ moneys.selected {} ∧
      Linked true {} orders moneys money ∧
      ModulePath.specifier orders.path moneys.path ModulePath.schemaEnding =
        "../../common/money_zod.js" := by
  intro money order orders moneys files
  have hmodel : Model.build files = .ok ⟨[orders, moneys]⟩ := by rfl
  have hmessages : (Model.mk [orders, moneys]).messages = [order, money] := by rfl
  have henums : (Model.mk [orders, moneys]).enums = [] := by decide
  have hpatterns : (Model.mk [orders, moneys]).PatternsDecoded := by
    unfold Model.PatternsDecoded
    rw [hmessages]
    simp [order, money, Field.rules?]
  have hnames : (Model.mk [orders, moneys]).NamesDecoded := by
    refine ⟨?_, ?_, ?_⟩
    · rw [hmessages]
      decide
    · rw [hmessages]
      decide
    · rw [henums]
      simp
  have hregular : ∀ file ∈ [orders, moneys], ModulePath.RegularName file.sourceName := by
    unfold ModulePath.RegularName ModulePath.Descends
    decide
  have hdistinct : ([orders, moneys].map SchemaFile.sourceName).Nodup := by decide
  have hne : orders ≠ moneys := fun heq => absurd (congrArg SchemaFile.path heq) (by decide)
  have hm : order ∈ orders.selected {} := List.mem_filter.2 ⟨List.mem_cons_self, by decide⟩
  have ht : money ∈ moneys.selected {} := List.mem_filter.2 ⟨List.mem_cons_self, by decide⟩
  have hplain : SchemaType.wellKnown? money.fullName = none := by decide
  have hsource : orders ∈ [orders, moneys] := List.mem_cons_self
  have htarget : moneys ∈ [orders, moneys] := List.mem_cons_of_mem _ List.mem_cons_self
  have hfield : (⟨"amounts", 1, .list (.message money.ref), false, none⟩ : Field) ∈ order.fields :=
    List.mem_cons_self
  have h := ofFile_linked hmodel hdistinct hregular hpatterns hnames true {} hsource htarget hne hm
    ht hfield rfl rfl hplain
  exact ⟨hmodel, hdistinct, hregular, hpatterns, hnames, hm, ht, h, by decide⟩

/-- Patterns alone do not do it: where responses are left out, a message whose name cannot be
    decoded stops the module that should import, although nothing refers to that message. -/
theorem not_linked_beside_undecodable_name :
    let money : Message Field :=
      ⟨"Money", "Money", "money", ⟨1, [0]⟩, [], [], [], false, false⟩
    let amount : Field := ⟨"amount", 1, .single (.message money.ref), false, none⟩
    let order : Message Field :=
      ⟨"Order", "Order", "order", ⟨0, [0]⟩, [amount], [], [], false, false⟩
    let name : RawText := .undecodable [255, 82, 101, 115, 112, 111, 110, 115, 101]
    let response : Message Field := ⟨name, name, "order", ⟨0, [1]⟩, [], [], [], false, false⟩
    let orders : SchemaFile Field := ⟨"order.proto", "order", "", [], [order, response]⟩
    let moneys : SchemaFile Field := ⟨"money.proto", "money", "", [], [money]⟩
    let model : Model := ⟨[orders, moneys]⟩
    let files : List FileDescriptor :=
      [{ name := "order.proto", messages :=
        [{ name := "Order", fields :=
          [{ name := "amount", number := 1, kind := .message, typeName := ".Money" }] },
         { name := name }] },
       { name := "money.proto", messages := [{ name := "Money" }] }]
    Model.build files = .ok model ∧ (model.files.map SchemaFile.sourceName).Nodup ∧
      (∀ file ∈ model.files, ModulePath.RegularName file.sourceName) ∧ model.PatternsDecoded ∧
      orders ∈ model.files ∧ moneys ∈ model.files ∧ orders ≠ moneys ∧
      order ∈ orders.selected {} ∧ money ∈ moneys.selected {} ∧ amount ∈ order.fields ∧
      amount.type.message? = some money.ref ∧ SchemaType.wellKnown? money.fullName = none ∧
      ∀ loader,
        (ofFile loader {} orders).outcome = .error (.undecodableText .ending) ∧
          ¬ Linked loader {} orders moneys money := by
  intro money amount order name response orders moneys model files
  have hmodel : Model.build files = .ok model := by rfl
  have hmessages : model.messages = [order, response, money] := by rfl
  have hpatterns : model.PatternsDecoded := by
    unfold Model.PatternsDecoded
    rw [hmessages]
    simp [order, response, money, amount, Field.rules?]
  have hregular : ∀ file ∈ model.files, ModulePath.RegularName file.sourceName := by
    unfold ModulePath.RegularName ModulePath.Descends
    decide
  have hne : orders ≠ moneys := fun heq => absurd (congrArg SchemaFile.path heq) (by decide)
  have hm : order ∈ orders.selected {} := List.mem_filter.2 ⟨List.mem_cons_self, by decide⟩
  have ht : money ∈ moneys.selected {} := List.mem_filter.2 ⟨List.mem_cons_self, by decide⟩
  have hplain : SchemaType.wellKnown? money.fullName = none := by decide
  have hfails : ∀ loader,
      (ofFile loader {} orders).outcome = .error (.undecodableText .ending) := by
    intro loader
    rw [ofFile_outcome]
    rfl
  refine ⟨hmodel, by decide, hregular, hpatterns, List.mem_cons_self,
    List.mem_cons_of_mem _ List.mem_cons_self, hne, hm, ht, List.mem_cons_self, rfl, hplain, ?_⟩
  intro loader
  refine ⟨hfails loader, ?_⟩
  rintro ⟨importing, _, himporting, _⟩
  rw [hfails loader] at himporting
  cases himporting

end SchemaModule

end ProtoSchema
