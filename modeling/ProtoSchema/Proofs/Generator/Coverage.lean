import Mathlib.Data.List.ReduceOption
import ProtoSchema.Proofs.Dependency.Repetition
import ProtoSchema.Proofs.Generator.Run
import ProtoSchema.Proofs.Model.Target
import ProtoSchema.Proofs.Module.Definition
import ProtoSchema.Proofs.Module.Link

set_option autoImplicit false

/-! # Which schemas a run declares

What a module refers to is decided field by field, what is declared by two filters that know nothing
of the fields: files of dependencies are skipped, and so are responses unless they are asked for.
A run over all files of a model declares the target of every reference, except for what these
filters leave out (`Generator.run_declares_targets`). So a module may well refer to schemas that no
module declares (`Generator.run_leaves_targets_undeclared`). -/

namespace ProtoSchema

/-! ## Declarations of a module -/

theorem SchemaFile.mem_selected_iff (options : Options) (file : SchemaFile Field)
    (m : Message Field) :
    m ∈ file.selected options ↔ m ∈ file.messages ∧
      (options.includeResponses = true ∨ Name.isResponse m.name.shown = false) := by
  unfold SchemaFile.selected
  split
  · next hall => simp [hall]
  · next hsome => simp [hsome]

/-- The last message of its name stays the last one when messages are selected. -/
theorem SchemaFile.exists_split_selected {options : Options} {file : SchemaFile Field}
    {front back : List (Message Field)} {t : Message Field}
    (hsplit : file.messages = front ++ t :: back) (hback : ∀ m ∈ back, m.name ≠ t.name)
    (ht : t ∈ file.selected options) :
    ∃ front' back', file.selected options = front' ++ t :: back' ∧
      ∀ m ∈ back', m.name ≠ t.name := by
  unfold SchemaFile.selected at ht ⊢
  split
  · exact ⟨front, back, hsplit, hback⟩
  · next hsome =>
    rw [if_neg hsome] at ht
    have hkept : (!Name.isResponse t.name.shown) = true := (List.mem_filter.1 ht).2
    refine ⟨_, _, by rw [hsplit, List.filter_append, List.filter_cons, if_pos hkept], ?_⟩
    exact fun m hm => hback m (List.mem_filter.1 hm).1

namespace SchemaModule

variable {loader : Loader} {options : Options} {file : SchemaFile Field} {built : SchemaModule}

/-- A module declares the last of the selected messages that share a name. -/
theorem exists_declares (h : (ofFile loader options file).outcome = .ok (some built))
    {front back : List (Message Field)} {t : Message Field}
    (hsplit : file.selected options = front ++ t :: back)
    (hback : ∀ m ∈ back, m.name ≠ t.name) : ∃ e ∈ built.messages, e.Declares t := by
  obtain ⟨_, _, arrangement, harrangement, hexports⟩ := ofFile_eq_some h
  obtain ⟨e, he, hexport⟩ := exists_of_mem_forall₂ hexports
    (Arrangement.mem_of_last hsplit hback harrangement)
  exact ⟨e, he, MessageExport.declares_of_exported hexport⟩

/-- A module declares nothing but selected messages. -/
theorem exists_selected_of_mem (h : (ofFile loader options file).outcome = .ok (some built))
    {e : MessageExport} (he : e ∈ built.messages) :
    ∃ m ∈ file.selected options, e.name = m.name.shown := by
  obtain ⟨m, hm, _, hexport⟩ := exists_exported_of_mem h he
  exact ⟨m, hm, (Message.exported_eq_ok hexport).1⟩

/-- Names that cannot be written stop a module at a text that cannot be decoded. -/
theorem checkNames_eq_error {e : Error} (h : built.checkNames = .error e) :
    ∃ use, e = .undecodableText use := by
  rcases bind_eq_error_iff.1 h with h | ⟨_, _, h⟩
  · exact ⟨_, ((refuseIf_eq_error_iff _ _ _).1 h).2⟩
  · exact ⟨_, ((refuseIf_eq_error_iff _ _ _).1 h).2⟩

end SchemaModule

/-! ## A run over all files -/

/-- The files that a model shows, one of each name. -/
def Model.shown (model : Model) : List (SchemaFile Field) :=
  model.catalog.map Prod.snd

/-- The names of the files that a model shows. -/
def Model.names (model : Model) : List RawText :=
  model.shown.map fun file => .text file.sourceName

theorem Model.file_of_mem_shown {model : Model} {file : SchemaFile Field}
    (h : file ∈ model.shown) :
    file ∈ model.files ∧ model.file (.text file.sourceName) = .ok file := by
  obtain ⟨entry, hentry, rfl⟩ := List.mem_map.1 h
  obtain ⟨hmem, hname, hfile⟩ := Model.file_of_mem_catalog hentry
  rw [hname]
  exact ⟨hmem, hfile⟩

namespace Generator

variable {g : Generator} {loader : Loader} {names : List RawText} {outputs : List OutputFile}

/-- The outputs of a run are those of its files. -/
theorem Yields.mem_iff (h : g.Yields loader names outputs) (output : OutputFile) :
    output ∈ outputs ↔
      ∃ name ∈ names, (g.generateFile name loader).outcome = .ok (some output) := by
  obtain ⟨answers, hanswers, rfl⟩ := h
  rw [List.reduceOption_mem_iff]
  constructor
  · exact fun hmem => exists_of_mem_forall₂ hanswers.flip hmem
  · rintro ⟨name, hname, houtput⟩
    obtain ⟨answer, hanswer, hsame⟩ := exists_of_mem_forall₂ hanswers hname
    obtain rfl := Except.ok.inj (houtput.symm.trans hsame)
    exact hanswer

/-- A file of the model is generated unless it holds a text that cannot be decoded. -/
theorem generateFile_eq_error {file : SchemaFile Field} (hfile : file ∈ g.model.shown) {e : Error}
    (h : (g.generateFile (.text file.sourceName) loader).outcome = .error e) :
    ∃ use, e = .undecodableText use := by
  rw [generateFile_outcome, (Model.file_of_mem_shown hfile).2] at h
  rcases bind_eq_error_iff.1 h with h | ⟨_, heq, h⟩
  · cases h
  obtain rfl := Except.ok.inj heq
  split at h
  · cases h
  rcases bind_eq_error_iff.1 h with h | ⟨built, _, h⟩
  · exact (SchemaModule.ofFile_eq_error h).1
  cases built with
  | none => cases h
  | some m =>
    rcases bind_eq_error_iff.1 h with h | ⟨_, _, h⟩
    · exact SchemaModule.checkNames_eq_error h
    · cases h

/-- A run with the given outputs writes the module of a file, and the module declares a message. -/
def WritesDeclaration (g : Generator) (loader : Loader) (outputs : List OutputFile)
    (file : SchemaFile Field) (t : Message Field) : Prop :=
  ∃ built, (SchemaModule.ofFile loader g.options file).outcome = .ok (some built) ∧
    (g.generateFile (.text file.sourceName) loader).outcome =
      .ok (some ⟨built.output, built.text⟩) ∧
    ⟨built.output, built.text⟩ ∈ outputs ∧ ∃ e ∈ built.messages, e.Declares t

/-- What is declared has passed both filters. -/
theorem WritesDeclaration.passes {file : SchemaFile Field} {t : Message Field}
    (h : g.WritesDeclaration loader outputs file t) (hfile : file ∈ g.model.shown) :
    ModulePath.isThirdParty file.sourceName = false ∧
      (g.options.includeResponses = true ∨ Name.isResponse t.name.shown = false) := by
  obtain ⟨built, hbuilt, hgenerated, _, e, he, hname, _⟩ := h
  obtain ⟨found, _, hfound, hthird, _⟩ := g.generateFile_eq_some_iff.1 hgenerated
  obtain rfl := Except.ok.inj (hfound.symm.trans (Model.file_of_mem_shown hfile).2)
  obtain ⟨m, hm, hname'⟩ := SchemaModule.exists_selected_of_mem hbuilt he
  refine ⟨hthird, ?_⟩
  rw [← hname, hname']
  exact ((found.mem_selected_iff g.options m).1 hm).2

/-- If a run succeeds, what passes both filters is declared, as long as it is the last message of
    its name. -/
theorem Yields.writesDeclaration (h : g.Yields loader g.model.names outputs)
    {file : SchemaFile Field} (hfile : file ∈ g.model.shown)
    (hthird : ModulePath.isThirdParty file.sourceName = false)
    {front back : List (Message Field)} {t : Message Field}
    (hsplit : file.messages = front ++ t :: back) (hback : ∀ m ∈ back, m.name ≠ t.name)
    (ht : t ∈ file.selected g.options) : g.WritesDeclaration loader outputs file t := by
  obtain ⟨answers, hanswers, _⟩ := id h
  have hname : RawText.text file.sourceName ∈ g.model.names := List.mem_map_of_mem hfile
  obtain ⟨answer, _, hanswer⟩ := exists_of_mem_forall₂ hanswers hname
  have hsteps := hanswer
  rw [generateFile_outcome, (Model.file_of_mem_shown hfile).2] at hsteps
  obtain ⟨_, heq, hsteps⟩ := bind_eq_ok_iff.1 hsteps
  obtain rfl := Except.ok.inj heq
  rw [hthird, if_neg Bool.false_ne_true] at hsteps
  obtain ⟨built, hbuilt, hsteps⟩ := bind_eq_ok_iff.1 hsteps
  cases built with
  | none => exact absurd (SchemaModule.ofFile_eq_none hbuilt).1 (List.ne_nil_of_mem ht)
  | some built =>
    obtain ⟨_, _, hsteps⟩ := bind_eq_ok_iff.1 hsteps
    obtain rfl := Except.ok.inj hsteps
    obtain ⟨front', back', hsplit', hback'⟩ := SchemaFile.exists_split_selected hsplit hback ht
    exact ⟨built, hbuilt, hanswer, (h.mem_iff _).2 ⟨_, hname, hanswer⟩,
      SchemaModule.exists_declares hbuilt hsplit' hback'⟩

/-- **A run declares what its modules refer to, up to two filters.** Over all files of a model a run
    stops only at a text that cannot be decoded. If it succeeds, then every top-level message of one
    of the files that some field refers to, be it as a single value, as the item of a list or as the
    value of a map, is declared in the module that the run writes for that file, unless the file
    belongs to a dependency, or the message is a response and responses are left out. -/
theorem run_declares_targets {files : List FileDescriptor} {model : Model}
    (hbuild : Model.build files = .ok model) (options : Options) (loader : Loader) :
    let g : Generator := ⟨model, options⟩
    (∃ use, g.FailsWith loader model.names (.undecodableText use)) ∨
      ∃ outputs, g.Yields loader model.names outputs ∧
        ∀ m ∈ model.messages, ∀ field ∈ m.fields, ∀ ref, field.type.message? = some ref →
          ∀ file ∈ model.shown, ∀ t ∈ file.messages, ref.place = t.place →
            (g.WritesDeclaration loader outputs file t ↔
              ModulePath.isThirdParty file.sourceName = false ∧
                (options.includeResponses = true ∨ Name.isResponse t.name.shown = false)) := by
  intro g
  cases hrun : (g.run model.names loader).outcome with
  | error e =>
    have hfails := g.outcome_run_eq_error_iff.1 hrun
    obtain ⟨front, name, back, hnames, _, hname⟩ := id hfails
    have hmem : name ∈ model.names := by
      rw [hnames]
      simp
    obtain ⟨file, hfile, rfl⟩ := List.mem_map.1 hmem
    obtain ⟨use, rfl⟩ := generateFile_eq_error hfile hname
    exact Or.inl ⟨use, hfails⟩
  | ok outputs =>
    have hyields := g.outcome_run_eq_ok_iff.1 hrun
    refine Or.inr ⟨outputs, hyields, ?_⟩
    intro m hm field hfield ref href file hfile t ht hplace
    constructor
    · exact fun h => h.passes hfile
    · rintro ⟨hthird, hselected⟩
      obtain ⟨c, rfl⟩ := Construction.exists_of_build hbuild
      obtain ⟨front, back, hsplit, hback⟩ := c.exists_split_of_ref hm hfield href
        (Model.file_of_mem_shown hfile).1 ht hplace
      exact hyields.writesDeclaration hfile hthird hsplit hback
        ((file.mem_selected_iff options t).2 ⟨ht, hselected⟩)

/-- Two responses share a name, and an order refers to the last of them. -/
theorem run_declares_repeated_response :
    let first : Message Field :=
      ⟨"ItemResponse", "ItemResponse", "shop", ⟨0, [0]⟩, [], [], [], false, false⟩
    let last : Message Field :=
      ⟨"ItemResponse", "ItemResponse", "shop", ⟨0, [1]⟩,
        [⟨"code", 1, .single (.scalar .string), false, none⟩], [], [], false, false⟩
    let items : Field := ⟨"items", 1, .list (.message last.ref), false, none⟩
    let order : Message Field := ⟨"Order", "Order", "shop", ⟨0, [2]⟩, [items], [], [], false, false⟩
    let shop : SchemaFile Field := ⟨"shop.proto", "shop", "", [], [first, last, order]⟩
    let files : List FileDescriptor :=
      [{ name := "shop.proto", messages :=
        [{ name := "ItemResponse" },
         { name := "ItemResponse", fields :=
           [{ name := "code", number := 1, kind := .scalar .string }] },
         { name := "Order", fields :=
           [{ name := "items", number := 1, kind := .message, label := .repeated,
              typeName := ".ItemResponse" }] }] }]
    let g : Generator := ⟨⟨[shop]⟩, { includeResponses := true }⟩
    Model.build files = .ok ⟨[shop]⟩ ∧
      ∃ outputs, g.Yields true ["shop.proto"] outputs ∧
        g.WritesDeclaration true outputs shop last := by
  intro first last items order shop files g
  have hbuild : Model.build files = .ok ⟨[shop]⟩ := by rfl
  let built : SchemaModule :=
    ⟨"shop.proto", "shop_zod.ts", [], [],
      [⟨"ItemResponse", "ItemResponse",
          [⟨"code", ⟨.scalar .string, [], [], true⟩, false⟩], false, false⟩,
       ⟨"Order", "Order", [⟨"items", ⟨.array (.own "ItemResponse"), [], [], true⟩, false⟩],
         false, false⟩]⟩
  have harranged : Arrangement.ofMessages [first, last, order] "shop" =
      .ok ⟨[last, order], []⟩ :=
    Arrangement.ofMessages_after_leaf (by rfl) (by decide) (by decide)
  have himports : shop.importLines [first, last, order] = [] := ImportLine.ofImports_nil
  have hbuilt : (SchemaModule.ofFile true g.options shop).outcome = .ok (some built) := by
    have hselected : shop.selected g.options = [first, last, order] := by rfl
    rw [SchemaModule.ofFile_outcome, hselected, himports, harranged]
    dsimp only [built, g, shop, first, last, order, items, Message.ref]
    rfl
  have hyields : g.Yields true ["shop.proto"] [⟨built.output, built.text⟩] :=
    ⟨[some _], .cons (g.generateFile_eq_some_iff.2
      ⟨shop, built, by rfl, by decide, hbuilt, rfl, rfl⟩) .nil, rfl⟩
  refine ⟨hbuild, ?_⟩
  rcases run_declares_targets hbuild { includeResponses := true } true with
    ⟨use, hfails⟩ | ⟨outputs, houtputs, h⟩
  · have hok := g.outcome_run_eq_ok_iff.2 hyields
    have herror := g.outcome_run_eq_error_iff.2 hfails
    cases hok.symm.trans herror
  · have hmessages : (Model.mk [shop]).messages = [first, last, order] := by rfl
    have horder : order ∈ (Model.mk [shop]).messages := by
      rw [hmessages]
      simp
    have hlast : last ∈ shop.messages := List.mem_cons_of_mem _ List.mem_cons_self
    exact ⟨outputs, houtputs, (h order horder items List.mem_cons_self _ rfl shop List.mem_cons_self
      last hlast rfl).2 ⟨by decide, Or.inl rfl⟩⟩

/-- Both filters leave schemas undeclared that a module refers to: a session refers to a response of
    its own file and to a message of a dependency, and the run declares neither. -/
theorem run_leaves_targets_undeclared :
    let login : Message Field :=
      ⟨"LoginResponse", "LoginResponse", "shop", ⟨0, [0]⟩, [], [], [], false, false⟩
    let money : Message Field :=
      ⟨"Money", "google.type.Money", "google/type/money", ⟨1, [0]⟩, [], [], [], false, false⟩
    let latest : Field := ⟨"latest", 1, .single (.message login.ref), false, none⟩
    let price : Field := ⟨"price", 2, .single (.message money.ref), false, none⟩
    let session : Message Field :=
      ⟨"Session", "Session", "shop", ⟨0, [1]⟩, [latest, price], [], [], false, false⟩
    let shop : SchemaFile Field := ⟨"shop.proto", "shop", "", [], [login, session]⟩
    let moneys : SchemaFile Field :=
      ⟨"google/type/money.proto", "google/type/money", "google.type", [], [money]⟩
    let files : List FileDescriptor :=
      [{ name := "shop.proto", messages :=
        [{ name := "LoginResponse" },
         { name := "Session", fields :=
           [{ name := "latest", number := 1, kind := .message, typeName := ".LoginResponse" },
            { name := "price", number := 2, kind := .message,
              typeName := ".google.type.Money" }] }] },
       { name := "google/type/money.proto", package := "google.type",
         messages := [{ name := "Money" }] }]
    let g : Generator := ⟨⟨[shop, moneys]⟩, {}⟩
    Model.build files = .ok ⟨[shop, moneys]⟩ ∧ session ∈ shop.selected {} ∧
      login ∈ shop.messages ∧ SchemaType.wellKnown? login.fullName = none ∧
      money ∈ moneys.messages ∧ SchemaType.wellKnown? money.fullName = none ∧
      ∃ outputs, g.Yields true ["shop.proto", "google/type/money.proto"] outputs ∧
        ¬ g.WritesDeclaration true outputs shop login ∧
        ¬ g.WritesDeclaration true outputs moneys money := by
  intro login money latest price session shop moneys files g
  have hbuild : Model.build files = .ok ⟨[shop, moneys]⟩ := by rfl
  have hselected : shop.selected {} = [session] := by cbv
  have hplain : SchemaType.wellKnown? login.fullName = none := by decide
  have hplain' : SchemaType.wellKnown? money.fullName = none := by decide
  let built : SchemaModule :=
    ⟨"shop.proto", "shop_zod.ts", [⟨"./google/type/money_zod.js", ["MoneySchema"]⟩], [],
      [⟨"Session", "Session",
        [⟨"latest", ⟨.own "LoginResponse", [], [], true⟩, false⟩,
         ⟨"price", ⟨.foreign "Money", [], [], true⟩, false⟩], false, false⟩]⟩
  have hlatest : latest.type.import? "shop" = none := by decide
  have hprice : price.type.import? "shop" = some ⟨"MoneySchema", "./google/type/money_zod.js"⟩ := by
    have hspecifier : ModulePath.specifier "shop" money.file ModulePath.schemaEnding =
        "./google/type/money_zod.js" := by decide
    rw [FieldType.import?_of_message? rfl hplain' (by decide), hspecifier]
    rfl
  have himports : shop.importLines [session] =
      [⟨"./google/type/money_zod.js", ["MoneySchema"]⟩] := by
    have hsession : session.imports "shop" = [⟨"MoneySchema", "./google/type/money_zod.js"⟩] := by
      have hnested : session.withNested = [session] := by rfl
      simp [Message.imports, hnested, session, hlatest, hprice]
    simp [SchemaFile.importLines, shop, hsession, SchemaFile.enumImports, ImportLine.ofImports,
      sortedTexts, sortedNames, List.eraseDups_cons]
  have harrangement : Arrangement.ofMessages [session] "shop" = .ok ⟨[session], []⟩ := by
    rw [Arrangement.ofMessages_single]
    rfl
  have hexport : (session.exported "shop" [] true).outcome = .ok built.messages[0] := by
    dsimp only [built, session, latest, price, login, money, Message.ref]
    rfl
  have hbuilt : (SchemaModule.ofFile true g.options shop).outcome = .ok (some built) := by
    show (SchemaModule.ofFile true {} shop).outcome = _
    rw [SchemaModule.ofFile_outcome, hselected, himports]
    show (Arrangement.ofMessages [session] "shop" >>= fun arrangement => _) = _
    rw [harrangement]
    show (([session].mapM fun m => (m.exported "shop" [] true).outcome) >>= fun exports => _) = _
    rw [List.mapM_cons, hexport]
    rfl
  have hshop : (g.generateFile "shop.proto" true).outcome = .ok (some ⟨built.output, built.text⟩) :=
    g.generateFile_eq_some_iff.2 ⟨shop, built, by rfl, by decide, hbuilt, rfl, rfl⟩
  have hmoneys : (g.generateFile "google/type/money.proto" true).outcome = .ok none := by
    have hfile : g.model.file "google/type/money.proto" = .ok moneys := by rfl
    rw [generateFile_outcome, hfile]
    exact if_pos (by decide)
  refine ⟨hbuild, by rw [hselected]; exact List.mem_cons_self, List.mem_cons_self, hplain,
    List.mem_cons_self, hplain', _, ⟨_, .cons hshop (.cons hmoneys .nil), rfl⟩, ?_, ?_⟩
  · intro h
    have hpasses := (h.passes (List.mem_cons_self)).2
    revert hpasses
    decide
  · intro h
    have hpasses := (h.passes (List.mem_cons_of_mem _ List.mem_cons_self)).1
    revert hpasses
    decide

end Generator

end ProtoSchema
