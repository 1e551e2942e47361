import ProtoSchema.Proofs.Model.Catalog

set_option autoImplicit false

/-! # Rules have no part in the model

The options of a field, and with them its validation rules, travel through the model as they are:
references are resolved and types settled without a look at them. So changing the options of all
fields before a model is built comes to the same as changing them in the model
(`Model.build_editOptions`). Leaving out all rules is such a change (`Model.build_withoutRules`). -/

namespace ProtoSchema

variable {φ ψ χ : Type}

/-! ## Replacing fields -/

mutual

theorem Message.mapFields_mapFields (f : Place → Nat → φ → ψ) (g : Place → Nat → ψ → χ) :
    (m : Message φ) →
      (m.mapFields f).mapFields g = m.mapFields fun place i x => g place i (f place i x)
  | ⟨name, fullName, file, place, fields, enums, messages, deprecated, mapEntry⟩ => by
    simp only [Message.mapFields, List.mapIdx_mapIdx,
      Message.mapFieldsAll_mapFieldsAll f g messages]
    rfl

theorem Message.mapFieldsAll_mapFieldsAll (f : Place → Nat → φ → ψ) (g : Place → Nat → ψ → χ) :
    (ms : List (Message φ)) →
      Message.mapFieldsAll g (Message.mapFieldsAll f ms) =
        Message.mapFieldsAll (fun place i x => g place i (f place i x)) ms
  | [] => rfl
  | m :: ms => by
    rw [Message.mapFieldsAll, Message.mapFieldsAll, Message.mapFieldsAll,
      Message.mapFields_mapFields f g m, Message.mapFieldsAll_mapFieldsAll f g ms]

end

/-- Replace what a message, and every message nested in it, holds for a field, regardless of where
    the field stands. -/
def Message.eachField (f : φ → ψ) : Message φ → Message ψ :=
  Message.mapFields fun _ _ => f

/-- Replace what the messages of a file hold for a field. -/
def SchemaFile.eachField (f : φ → ψ) : SchemaFile φ → SchemaFile ψ :=
  SchemaFile.mapFields fun _ _ => f

theorem Message.fields_eachField (f : φ → ψ) (m : Message φ) :
    (m.eachField f).fields = m.fields.map f := by
  rw [Message.eachField, Message.fields_mapFields]
  apply List.ext_getElem?
  intro i
  rw [List.getElem?_mapIdx, List.getElem?_map]

theorem SchemaFile.messages_eachField (f : φ → ψ) (file : SchemaFile φ) :
    (file.eachField f).messages = file.messages.map (Message.eachField f) :=
  Message.mapFieldsAll_eq_map _ _

/-! ## Declarations of replaced fields -/

/-- Replace what a declared message holds for its fields. -/
def Declaration.eachField (f : φ → ψ) : Declaration φ → Declaration ψ
  | enum e => enum e
  | message m => message (m.eachField f)

theorem Declaration.fullName_eachField (f : φ → ψ) (d : Declaration φ) :
    (d.eachField f).fullName = d.fullName := by
  cases d with
  | enum e => rfl
  | message m => exact m.fullName_mapFields _

mutual

theorem Message.declarations_eachField (f : φ → ψ) :
    (m : Message φ) → (m.eachField f).declarations = m.declarations.map (Declaration.eachField f)
  | ⟨name, fullName, file, place, fields, enums, messages, deprecated, mapEntry⟩ => by
    have henums : (enums.map Declaration.enum).map (Declaration.eachField f) =
        enums.map Declaration.enum := by
      rw [List.map_map]
      rfl
    rw [Message.eachField, Message.mapFields, Message.declarations, Message.declarations,
      Message.declarationsAll_eachField f messages, List.map_append, List.map_cons, henums]
    rfl

theorem Message.declarationsAll_eachField (f : φ → ψ) :
    (ms : List (Message φ)) →
      Message.declarationsAll (Message.mapFieldsAll (fun _ _ => f) ms) =
        (Message.declarationsAll ms).map (Declaration.eachField f)
  | [] => rfl
  | m :: ms => by
    rw [Message.mapFieldsAll, Message.declarationsAll, Message.declarationsAll, List.map_append,
      Message.declarationsAll_eachField f ms]
    exact congrArg (· ++ _) (Message.declarations_eachField f m)

end

theorem SchemaFile.declarations_eachField (f : φ → ψ) (file : SchemaFile φ) :
    (file.eachField f).declarations = file.declarations.map (Declaration.eachField f) := by
  rw [SchemaFile.declarations, SchemaFile.declarations, List.map_append, List.map_map]
  exact congrArg (file.enums.map _ ++ ·) (Message.declarationsAll_eachField f file.messages)

/-- Names are found regardless of fields. -/
theorem Declarations.find?_eachField (f : φ → ψ) (types : Declarations φ) (name : String) :
    Declarations.find? (types.map (Declaration.eachField f)) name =
      (types.find? name).map (Declaration.eachField f) := by
  rw [Declarations.find?_eq, Declarations.find?_eq, ← List.map_reverse, List.find?_map]
  simp only [Function.comp_def, Declaration.fullName_eachField]

theorem Declarations.lookup?_eachField (f : φ → ψ) (types : Declarations φ) (owner : RawText)
    (name : String) :
    Declarations.lookup? (types.map (Declaration.eachField f)) owner name =
      (types.lookup? owner name).map (Option.map (Declaration.eachField f)) := by
  unfold Declarations.lookup? Declarations.findAround?
  simp only [Declarations.find?_eachField]
  cases types.find? name with
  | some found => rfl
  | none =>
    dsimp only [Option.map_none]
    split
    · rfl
    · cases owner with
      | undecodable bytes => rfl
      | text fullName =>
        dsimp only [Except.map]
        rw [List.map_findSome?]
        rfl

/-! ## Changing options -/

/-- A field declaration with other options. -/
def FieldDescriptor.editOptions (edit : Option FieldOptions → Option FieldOptions)
    (d : FieldDescriptor) : FieldDescriptor :=
  { d with options := edit d.options }

mutual

/-- A message declaration with other options of its fields, at any depth. -/
def MessageDescriptor.editOptions (edit : Option FieldOptions → Option FieldOptions) :
    MessageDescriptor → MessageDescriptor
  | ⟨name, fields, messages, enums, deprecated, mapEntry⟩ =>
    ⟨name, fields.map (FieldDescriptor.editOptions edit),
      MessageDescriptor.editOptionsAll edit messages, enums, deprecated, mapEntry⟩

/-- Several message declarations with other options of their fields. -/
def MessageDescriptor.editOptionsAll (edit : Option FieldOptions → Option FieldOptions) :
    List MessageDescriptor → List MessageDescriptor
  | [] => []
  | d :: ds => d.editOptions edit :: MessageDescriptor.editOptionsAll edit ds

end

/-- A schema file with other options of its fields. -/
def FileDescriptor.editOptions (edit : Option FieldOptions → Option FieldOptions)
    (d : FileDescriptor) : FileDescriptor :=
  { d with messages := MessageDescriptor.editOptionsAll edit d.messages }

/-- A field with other options. -/
def Field.editOptions (edit : Option FieldOptions → Option FieldOptions) (field : Field) : Field :=
  { field with options := edit field.options }

/-- A model with other options of its fields. -/
def Model.editOptions (edit : Option FieldOptions → Option FieldOptions) (model : Model) : Model :=
  ⟨model.files.map (SchemaFile.eachField (Field.editOptions edit))⟩

section Edited

variable (edit : Option FieldOptions → Option FieldOptions)

mutual

theorem MessageDescriptor.outline_editOptions (scope : RawText) (file : String) (place : Place) :
    (d : MessageDescriptor) →
      (d.editOptions edit).outline scope file place =
        (d.outline scope file place).eachField (FieldDescriptor.editOptions edit)
  | ⟨name, fields, messages, enums, deprecated, mapEntry⟩ => by
    have hfields : fields.map (FieldDescriptor.editOptions edit) =
        fields.mapIdx fun _ => FieldDescriptor.editOptions edit := by
      apply List.ext_getElem?
      intro i
      rw [List.getElem?_mapIdx, List.getElem?_map]
    simp only [MessageDescriptor.editOptions, MessageDescriptor.outline, Message.eachField,
      Message.mapFields, hfields,
      MessageDescriptor.outlineAll_editOptions (qualify scope name) file place 0 messages]

theorem MessageDescriptor.outlineAll_editOptions (scope : RawText) (file : String) (place : Place)
    (index : Nat) : (ds : List MessageDescriptor) →
      MessageDescriptor.outlineAll scope file place index
          (MessageDescriptor.editOptionsAll edit ds) =
        Message.mapFieldsAll (fun _ _ => FieldDescriptor.editOptions edit)
          (MessageDescriptor.outlineAll scope file place index ds)
  | [] => rfl
  | d :: ds => by
    rw [MessageDescriptor.editOptionsAll, MessageDescriptor.outlineAll,
      MessageDescriptor.outlineAll, Message.mapFieldsAll,
      MessageDescriptor.outline_editOptions scope file _ d,
      MessageDescriptor.outlineAll_editOptions scope file place (index + 1) ds]
    rfl

end

theorem FileDescriptor.outline_editOptions (i : Nat) (d : FileDescriptor) :
    (d.editOptions edit).outline i =
      (d.outline i).map (SchemaFile.eachField (FieldDescriptor.editOptions edit)) := by
  have hname : (d.editOptions edit).name = d.name := rfl
  unfold FileDescriptor.outline
  rw [hname]
  cases d.name with
  | undecodable bytes => rfl
  | text name =>
    show Except.ok _ = Except.ok _
    simp only [FileDescriptor.outlineAs, FileDescriptor.editOptions,
      MessageDescriptor.outlineAll_editOptions]
    rfl

theorem Model.outline_editOptions (files : List FileDescriptor) :
    Model.outline (files.map (FileDescriptor.editOptions edit)) =
      (Model.outline files).map
        (List.map (SchemaFile.eachField (FieldDescriptor.editOptions edit))) := by
  have hfiles : (files.map (FileDescriptor.editOptions edit)).mapIdx FileDescriptor.outline =
      (files.mapIdx FileDescriptor.outline).map
        (Except.map (SchemaFile.eachField (FieldDescriptor.editOptions edit))) := by
    apply List.ext_getElem?
    intro i
    simp only [List.getElem?_mapIdx, List.getElem?_map, Option.map_map]
    congr 1
    funext d
    exact d.outline_editOptions edit i
  rw [Model.outline, hfiles, List.mapM_map]
  exact mapM_map_answer id _ _

/-! ## References -/

/-- A slot whose field has other options. -/
def Slot.editOptions (slot : Slot) : Slot :=
  { slot with field := slot.field.editOptions edit }

theorem Slot.named?_editOptions (types : Declarations FieldDescriptor) (slot : Slot) :
    (slot.editOptions edit).named?
        (types.map (Declaration.eachField (FieldDescriptor.editOptions edit))) =
      (slot.named? types).map
        (Option.map (Declaration.eachField (FieldDescriptor.editOptions edit))) := by
  have hname : (slot.editOptions edit).field.typeName = slot.field.typeName := rfl
  unfold Slot.named?
  rw [hname]
  cases slot.field.typeName with
  | undecodable bytes => rfl
  | text name => exact Declarations.lookup?_eachField _ types slot.owner name

/-- What a slot refers to does not hang on options, neither on its own nor on those of the types. -/
theorem Slot.target?_editOptions (types : Declarations FieldDescriptor) (slot : Slot) :
    (slot.editOptions edit).target?
        (types.map (Declaration.eachField (FieldDescriptor.editOptions edit))) =
      slot.target? types := by
  have hkind : (slot.editOptions edit).field.kind = slot.field.kind := rfl
  unfold Slot.target?
  dsimp only
  rw [hkind, Slot.named?_editOptions]
  cases slot.field.kind with
  | scalar type => rfl
  | group => rfl
  | enum => rcases slot.named? types with e | _ | ⟨⟨⟩⟩ <;> rfl
  | message =>
    rcases slot.named? types with e | _ | ⟨_ | m⟩
    · rfl
    · rfl
    · rfl
    · show Except.ok (some (Target.message (m.eachField _).ref)) = .ok (some (.message m.ref))
      rw [Message.eachField, m.ref_mapFields]

theorem Message.ownSlots_editOptions (m : Message FieldDescriptor) :
    (m.eachField (FieldDescriptor.editOptions edit)).ownSlots =
      m.ownSlots.map (Slot.editOptions edit) := by
  have href := m.ref_mapFields fun _ _ => FieldDescriptor.editOptions edit
  have hplace : (m.eachField (FieldDescriptor.editOptions edit)).place = m.place :=
    congrArg MessageRef.place href
  have hname : (m.eachField (FieldDescriptor.editOptions edit)).fullName = m.fullName :=
    congrArg MessageRef.fullName href
  rw [Message.ownSlots, Message.ownSlots, Message.fields_eachField, hplace, hname]
  apply List.ext_getElem?
  intro i
  simp only [List.getElem?_mapIdx, List.getElem?_map, Option.map_map]
  rfl

mutual

theorem Message.slots_editOptions :
    (m : Message FieldDescriptor) →
      (m.eachField (FieldDescriptor.editOptions edit)).slots =
        m.slots.map (Slot.editOptions edit)
  | ⟨name, fullName, file, place, fields, enums, messages, deprecated, mapEntry⟩ => by
    have hown := Message.ownSlots_editOptions edit
      ⟨name, fullName, file, place, fields, enums, messages, deprecated, mapEntry⟩
    rw [Message.eachField, Message.mapFields] at hown ⊢
    rw [Message.slots, Message.slots, List.map_append, Message.slotsAll_editOptions messages, hown]

theorem Message.slotsAll_editOptions :
    (ms : List (Message FieldDescriptor)) →
      Message.slotsAll (Message.mapFieldsAll (fun _ _ => FieldDescriptor.editOptions edit) ms) =
        (Message.slotsAll ms).map (Slot.editOptions edit)
  | [] => rfl
  | m :: ms => by
    rw [Message.mapFieldsAll, Message.slotsAll, Message.slotsAll, List.map_append,
      Message.slotsAll_editOptions ms]
    exact congrArg (· ++ _) (Message.slots_editOptions m)

end

/-- The references of some files are the same whatever the options are. -/
theorem resolveAll_editOptions (outlined : List (SchemaFile FieldDescriptor)) :
    let edited := outlined.map (SchemaFile.eachField (FieldDescriptor.editOptions edit))
    resolveAll (edited.flatMap SchemaFile.declarations)
        (edited.flatMap fun file => Message.slotsAll file.messages) =
      resolveAll (outlined.flatMap SchemaFile.declarations)
        (outlined.flatMap fun file => Message.slotsAll file.messages) := by
  intro edited
  have htypes : edited.flatMap SchemaFile.declarations =
      (outlined.flatMap SchemaFile.declarations).map
        (Declaration.eachField (FieldDescriptor.editOptions edit)) := by
    rw [List.flatMap_map, List.map_flatMap]
    simp only [SchemaFile.declarations_eachField]
  have hslots : (edited.flatMap fun file => Message.slotsAll file.messages) =
      (outlined.flatMap fun file => Message.slotsAll file.messages).map
        (Slot.editOptions edit) := by
    rw [List.flatMap_map, List.map_flatMap]
    congr 1
    funext file
    exact Message.slotsAll_editOptions edit file.messages
  unfold resolveAll
  rw [htypes, hslots, List.mapM_map]
  simp only [Function.comp_def, Slot.resolve, Slot.target?_editOptions]
  rfl

/-! ## Models -/

theorem SchemaFile.mapFields_typedField_editOptions (settled : Settled)
    (file : SchemaFile FieldDescriptor) :
    (file.eachField (FieldDescriptor.editOptions edit)).mapFields (Model.typedField settled) =
      (file.mapFields (Model.typedField settled)).eachField (Field.editOptions edit) := by
  simp only [SchemaFile.eachField, SchemaFile.mapFields, Message.mapFieldsAll_mapFieldsAll]
  rfl

/-- Changing options before or after building a model comes to the same. -/
theorem Model.build_editOptions (files : List FileDescriptor) :
    Model.build (files.map (FileDescriptor.editOptions edit)) =
      (Model.build files).map (Model.editOptions edit) := by
  unfold Model.build
  rw [Model.outline_editOptions]
  cases Model.outline files with
  | error e => rfl
  | ok outlined =>
    show (resolveAll _ _ >>= fun references => _) = Except.map _ (resolveAll _ _ >>= fun _ => _)
    rw [resolveAll_editOptions]
    cases resolveAll (outlined.flatMap SchemaFile.declarations)
        (outlined.flatMap fun file => Message.slotsAll file.messages) with
    | error e => rfl
    | ok references =>
      show (settleAll references >>= fun settled => _) =
        Except.map _ (settleAll references >>= fun _ => _)
      cases settleAll references with
      | error e => rfl
      | ok settled =>
        show Except.ok _ = Except.ok _
        rw [Model.editOptions, List.map_map, List.map_map]
        simp only [Function.comp_def, SchemaFile.mapFields_typedField_editOptions]

end Edited

/-! ## Leaving out rules -/

/-- A field declaration without its rules. -/
def FieldDescriptor.withoutRules (d : FieldDescriptor) : FieldDescriptor :=
  { d with options := some { deprecated := d.deprecated } }

mutual

/-- A message declaration without the rules of its fields, at any depth. -/
def MessageDescriptor.withoutRules : MessageDescriptor → MessageDescriptor
  | ⟨name, fields, messages, enums, deprecated, mapEntry⟩ =>
    ⟨name, fields.map FieldDescriptor.withoutRules, MessageDescriptor.withoutRulesAll messages,
      enums, deprecated, mapEntry⟩

/-- Several message declarations without the rules of their fields. -/
def MessageDescriptor.withoutRulesAll : List MessageDescriptor → List MessageDescriptor
  | [] => []
  | d :: ds => d.withoutRules :: MessageDescriptor.withoutRulesAll ds

end

/-- A schema file without the rules of its fields. -/
def FileDescriptor.withoutRules (d : FileDescriptor) : FileDescriptor :=
  { d with messages := MessageDescriptor.withoutRulesAll d.messages }

/-- A field without its rules. -/
def Field.withoutRules (field : Field) : Field :=
  { field with options := some { deprecated := field.deprecated } }

/-- A model without the rules of its fields. -/
def Model.withoutRules (model : Model) : Model :=
  ⟨model.files.map (SchemaFile.eachField Field.withoutRules)⟩

/-- Options of which only the deprecation mark is left. -/
def onlyMark (options : Option FieldOptions) : Option FieldOptions :=
  some { deprecated := options.any FieldOptions.deprecated }

mutual

theorem MessageDescriptor.withoutRules_eq :
    (d : MessageDescriptor) → d.withoutRules = d.editOptions onlyMark
  | ⟨name, fields, messages, enums, deprecated, mapEntry⟩ => by
    rw [MessageDescriptor.withoutRules, MessageDescriptor.editOptions,
      MessageDescriptor.withoutRulesAll_eq messages]
    rfl

theorem MessageDescriptor.withoutRulesAll_eq :
    (ds : List MessageDescriptor) →
      MessageDescriptor.withoutRulesAll ds = MessageDescriptor.editOptionsAll onlyMark ds
  | [] => rfl
  | d :: ds => by
    rw [MessageDescriptor.withoutRulesAll, MessageDescriptor.editOptionsAll,
      MessageDescriptor.withoutRules_eq d, MessageDescriptor.withoutRulesAll_eq ds]

end

/-- Leaving out rules before or after building a model comes to the same. -/
theorem Model.build_withoutRules (files : List FileDescriptor) :
    Model.build (files.map FileDescriptor.withoutRules) =
      (Model.build files).map Model.withoutRules := by
  have hedit : FileDescriptor.withoutRules = FileDescriptor.editOptions onlyMark := by
    funext d
    rw [FileDescriptor.withoutRules, FileDescriptor.editOptions,
      MessageDescriptor.withoutRulesAll_eq]
  rw [hedit]
  exact Model.build_editOptions onlyMark files

end ProtoSchema
