import ProtoSchema.Proofs.Model.Independence

set_option autoImplicit false

/-! # What schema files register

Before any name is looked up, files register their types and their fields, and both can be read off
the descriptors: the messages with their full names, those nested in a message before the message
itself (`FileDescriptor.registered`), and from them the enums and the fields. The outline of the
files declares exactly these types (`Model.exists_declaration_iff`) and has a slot for each of
these fields, in the same order (`Model.map_slots`). -/

namespace ProtoSchema

/-! ## Registered messages and fields -/

mutual

/-- The messages that a message declares in a scope, with their full names: first those nested in
    it, then itself. -/
def MessageDescriptor.registered (scope : RawText) :
    MessageDescriptor → List (RawText × MessageDescriptor)
  | m@⟨name, _, messages, _, _, _⟩ =>
    MessageDescriptor.registeredAll (qualify scope name) messages ++ [(qualify scope name, m)]

def MessageDescriptor.registeredAll (scope : RawText) :
    List MessageDescriptor → List (RawText × MessageDescriptor)
  | [] => []
  | m :: ms => m.registered scope ++ MessageDescriptor.registeredAll scope ms

end

/-- The messages of a file at any depth, with their full names. -/
def FileDescriptor.registered (d : FileDescriptor) : List (RawText × MessageDescriptor) :=
  MessageDescriptor.registeredAll d.package d.messages

/-- The fields of a message, each with the full name of the message. -/
def MessageDescriptor.ownFields (entry : RawText × MessageDescriptor) :
    List (RawText × FieldDescriptor) :=
  entry.2.fields.map fun field => (entry.1, field)

/-- The fields of some files in the order of their registration: file by file, and in a file those
    of nested messages before those of the message around them. -/
def registeredFields (files : List FileDescriptor) : List (RawText × FieldDescriptor) :=
  files.flatMap fun d => d.registered.flatMap MessageDescriptor.ownFields

theorem mem_registeredFields_iff (files : List FileDescriptor) (owner : RawText)
    (field : FieldDescriptor) :
    (owner, field) ∈ registeredFields files ↔
      ∃ d ∈ files, ∃ m, (owner, m) ∈ d.registered ∧ field ∈ m.fields := by
  simp only [registeredFields, MessageDescriptor.ownFields, List.mem_flatMap, List.mem_map,
    Prod.exists, Prod.mk.injEq]
  constructor
  · rintro ⟨d, hd, owner', m, hm, field', hfield, rfl, rfl⟩
    exact ⟨d, hd, m, hm, hfield⟩
  · rintro ⟨d, hd, m, hm, hfield⟩
    exact ⟨d, hd, owner, m, hm, field, hfield, rfl, rfl⟩

/-- A file declares a type of the given kind under a full name. -/
def FileDescriptor.Declares (d : FileDescriptor) (fullName : RawText) : FieldKind → Prop
  | .message => ∃ entry ∈ d.registered, entry.1 = fullName
  | .enum => (∃ e ∈ d.enums, qualify d.package e.name = fullName) ∨
      ∃ entry ∈ d.registered, ∃ e ∈ entry.2.enums, qualify entry.1 e.name = fullName
  | _ => False

instance (d : FileDescriptor) (fullName : RawText) :
    (kind : FieldKind) → Decidable (d.Declares fullName kind)
  | .message => inferInstanceAs (Decidable (∃ entry ∈ d.registered, entry.1 = fullName))
  | .enum => inferInstanceAs (Decidable (_ ∨ _))
  | .scalar _ => .isFalse id
  | .group => .isFalse id

/-! ## Slots -/

/-- What a slot says of the field, apart from its position. -/
def Slot.registered (slot : Slot) : RawText × FieldDescriptor :=
  (slot.owner, slot.field)

theorem Message.map_ownSlots (m : Message FieldDescriptor) :
    m.ownSlots.map Slot.registered = m.fields.map fun field => (m.fullName, field) := by
  apply List.ext_getElem?
  intro i
  simp only [Message.ownSlots, List.getElem?_map, List.getElem?_mapIdx, Option.map_map]
  rfl

mutual

theorem MessageDescriptor.map_slots_outline (scope : RawText) (file : String) (place : Place) :
    (d : MessageDescriptor) → (d.outline scope file place).slots.map Slot.registered =
      (d.registered scope).flatMap MessageDescriptor.ownFields
  | ⟨name, fields, messages, enums, deprecated, mapEntry⟩ => by
    rw [MessageDescriptor.outline, Message.slots, MessageDescriptor.registered, List.map_append,
      MessageDescriptor.map_slots_outlineAll (qualify scope name) file place 0 messages,
      List.flatMap_append, Message.map_ownSlots, List.flatMap_singleton]
    rfl

theorem MessageDescriptor.map_slots_outlineAll (scope : RawText) (file : String) (place : Place)
    (index : Nat) : (ds : List MessageDescriptor) →
      (Message.slotsAll (MessageDescriptor.outlineAll scope file place index ds)).map
          Slot.registered =
        (MessageDescriptor.registeredAll scope ds).flatMap MessageDescriptor.ownFields
  | [] => rfl
  | d :: ds => by
    rw [MessageDescriptor.outlineAll, Message.slotsAll, MessageDescriptor.registeredAll,
      List.map_append, MessageDescriptor.map_slots_outline scope file _ d,
      MessageDescriptor.map_slots_outlineAll scope file place (index + 1) ds, List.flatMap_append]

end

/-- The slots of an outline are those of the registered fields, in their order. -/
theorem Model.map_slots {files : List FileDescriptor}
    {outlined : List (SchemaFile FieldDescriptor)} (h : Model.outline files = .ok outlined) :
    (outlined.flatMap fun file => Message.slotsAll file.messages).map Slot.registered =
      registeredFields files := by
  rw [List.map_flatMap, registeredFields, List.flatMap_def, List.flatMap_def]
  refine congrArg List.flatten (Model.map_outlined h fun d i name => ?_)
  exact MessageDescriptor.map_slots_outlineAll d.package _ _ 0 d.messages

theorem Model.registered_mem {files : List FileDescriptor}
    {outlined : List (SchemaFile FieldDescriptor)} (h : Model.outline files = .ok outlined)
    {slot : Slot} (hslot : slot ∈ outlined.flatMap fun file => Message.slotsAll file.messages) :
    slot.registered ∈ registeredFields files := by
  rw [← Model.map_slots h]
  exact List.mem_map_of_mem hslot

/-! ## Messages -/

/-- What other declarations can see of a message: its full name, its fields, whether it stands for
    the entries of a map, and the full names of its enums. -/
structure Profile where
  fullName : RawText
  fields : List FieldDescriptor
  mapEntry : Bool
  enums : List RawText

def Message.profile (m : Message FieldDescriptor) : Profile :=
  ⟨m.fullName, m.fields, m.mapEntry, m.enums.map Enum.fullName⟩

def MessageDescriptor.profile (entry : RawText × MessageDescriptor) : Profile :=
  ⟨entry.1, entry.2.fields, entry.2.mapEntry, entry.2.enums.map fun e => qualify entry.1 e.name⟩

mutual

theorem MessageDescriptor.profile_outline (scope : RawText) (file : String) (place : Place) :
    (d : MessageDescriptor) → ((d.outline scope file place).withNested.map Message.profile).Perm
      ((d.registered scope).map MessageDescriptor.profile)
  | ⟨name, fields, messages, enums, deprecated, mapEntry⟩ => by
    have hnested :=
      MessageDescriptor.profile_outlineAll (qualify scope name) file place 0 messages
    have hown : Message.profile (MessageDescriptor.outline scope file place
        ⟨name, fields, messages, enums, deprecated, mapEntry⟩) =
        MessageDescriptor.profile (qualify scope name,
          ⟨name, fields, messages, enums, deprecated, mapEntry⟩) := by
      simp only [MessageDescriptor.outline, Message.profile, MessageDescriptor.profile,
        List.map_map, Profile.mk.injEq, true_and]
      rfl
    rw [MessageDescriptor.registered, List.map_append, List.map_singleton, ← hown]
    exact (hnested.cons _).trans (List.perm_append_singleton _ _).symm

theorem MessageDescriptor.profile_outlineAll (scope : RawText) (file : String) (place : Place)
    (index : Nat) : (ds : List MessageDescriptor) →
      ((Message.withNestedAll (MessageDescriptor.outlineAll scope file place index ds)).map
        Message.profile).Perm
        ((MessageDescriptor.registeredAll scope ds).map MessageDescriptor.profile)
  | [] => .nil
  | d :: ds => by
    rw [MessageDescriptor.outlineAll, Message.withNestedAll, MessageDescriptor.registeredAll,
      List.map_append, List.map_append]
    exact (MessageDescriptor.profile_outline scope file _ d).append
      (MessageDescriptor.profile_outlineAll scope file place (index + 1) ds)

end

section Files

variable {files : List FileDescriptor} {outlined : List (SchemaFile FieldDescriptor)}
  (h : Model.outline files = .ok outlined)

include h

/-- The messages of an outline are the registered ones. -/
theorem Model.mem_profiles_iff (profile : Profile) :
    (∃ m ∈ outlined.flatMap fun file => Message.withNestedAll file.messages, m.profile = profile) ↔
      ∃ d ∈ files, ∃ entry ∈ d.registered, MessageDescriptor.profile entry = profile := by
  have hfile : ∀ (d : FileDescriptor) i name,
      (∃ m ∈ Message.withNestedAll (d.outlineAs i name).messages, m.profile = profile) ↔
        ∃ entry ∈ d.registered, MessageDescriptor.profile entry = profile := by
    intro d i name
    have hperm := MessageDescriptor.profile_outlineAll d.package (ModulePath.logical name) ⟨i, []⟩ 0
      d.messages
    have hmem := hperm.mem_iff (a := profile)
    rw [List.mem_map, List.mem_map] at hmem
    exact hmem
  constructor
  · rintro ⟨m, hm, hprofile⟩
    obtain ⟨file, hmem, hm⟩ := List.mem_flatMap.1 hm
    obtain ⟨d, hd, i, name, _, rfl⟩ := Model.exists_descriptor h hmem
    exact ⟨d, hd, (hfile d i name).1 ⟨m, hm, hprofile⟩⟩
  · rintro ⟨d, hd, hentry⟩
    obtain ⟨i, name, _, hmem⟩ := Model.exists_outlined h hd
    obtain ⟨m, hm, hprofile⟩ := (hfile d i name).2 hentry
    exact ⟨m, List.mem_flatMap.2 ⟨_, hmem, hm⟩, hprofile⟩

end Files

/-! ## Declarations -/

/-- The kind of the fields that can refer to a declared type. -/
def Declaration.kind {φ : Type} : Declaration φ → FieldKind
  | enum _ => .enum
  | message _ => .message

/-- A message and its own enums as declarations. -/
def Message.ownDeclarations {φ : Type} (m : Message φ) : List (Declaration φ) :=
  .message m :: m.enums.map .enum

mutual

theorem Message.declarations_eq {φ : Type} :
    (m : Message φ) → m.declarations = m.withNested.flatMap Message.ownDeclarations
  | ⟨name, fullName, file, place, fields, enums, messages, deprecated, mapEntry⟩ => by
    rw [Message.declarations, Message.withNested, List.flatMap_cons,
      Message.declarationsAll_eq messages]
    rfl

theorem Message.declarationsAll_eq {φ : Type} : (ms : List (Message φ)) →
      Message.declarationsAll ms = (Message.withNestedAll ms).flatMap Message.ownDeclarations
  | [] => rfl
  | m :: ms => by
    rw [Message.declarationsAll, Message.withNestedAll, List.flatMap_append,
      Message.declarations_eq m, Message.declarationsAll_eq ms]

end

theorem SchemaFile.enum_mem_declarations {φ : Type} (e : Enum) (file : SchemaFile φ) :
    Declaration.enum e ∈ file.declarations ↔
      e ∈ file.enums ∨ ∃ m ∈ Message.withNestedAll file.messages, e ∈ m.enums := by
  rw [SchemaFile.declarations, Message.declarationsAll_eq, List.mem_append, List.mem_flatMap]
  simp [Message.ownDeclarations]

section Files

variable {files : List FileDescriptor} {outlined : List (SchemaFile FieldDescriptor)}
  (h : Model.outline files = .ok outlined)

include h

theorem Model.exists_message_iff (fullName : RawText) :
    (∃ m ∈ outlined.flatMap fun file => Message.withNestedAll file.messages,
        m.fullName = fullName) ↔ ∃ d ∈ files, d.Declares fullName .message := by
  constructor
  · rintro ⟨m, hm, rfl⟩
    obtain ⟨d, hd, entry, hentry, hprofile⟩ := (Model.mem_profiles_iff h m.profile).1 ⟨m, hm, rfl⟩
    exact ⟨d, hd, entry, hentry, congrArg Profile.fullName hprofile⟩
  · rintro ⟨d, hd, entry, hentry, rfl⟩
    obtain ⟨m, hm, hprofile⟩ := (Model.mem_profiles_iff h _).2 ⟨d, hd, entry, hentry, rfl⟩
    exact ⟨m, hm, congrArg Profile.fullName hprofile⟩

/-- Enums inside of messages are seen in the profiles of the messages. -/
theorem Model.exists_nested_enum_iff (fullName : RawText) :
    (∃ m ∈ outlined.flatMap fun file => Message.withNestedAll file.messages,
        ∃ e ∈ m.enums, e.fullName = fullName) ↔
      ∃ d ∈ files, ∃ entry ∈ d.registered, ∃ e ∈ entry.2.enums,
        qualify entry.1 e.name = fullName := by
  constructor
  · rintro ⟨m, hm, hname⟩
    obtain ⟨d, hd, entry, hentry, hprofile⟩ := (Model.mem_profiles_iff h m.profile).1 ⟨m, hm, rfl⟩
    have hmem : fullName ∈ m.profile.enums := List.mem_map.2 hname
    rw [← hprofile] at hmem
    exact ⟨d, hd, entry, hentry, List.mem_map.1 hmem⟩
  · rintro ⟨d, hd, entry, hentry, hname⟩
    obtain ⟨m, hm, hprofile⟩ := (Model.mem_profiles_iff h _).2 ⟨d, hd, entry, hentry, rfl⟩
    have hmem : fullName ∈ (MessageDescriptor.profile entry).enums := List.mem_map.2 hname
    rw [← hprofile] at hmem
    exact ⟨m, hm, List.mem_map.1 hmem⟩

theorem Model.exists_enum_iff (fullName : RawText) :
    (∃ e, Declaration.enum e ∈ outlined.flatMap SchemaFile.declarations ∧
        e.fullName = fullName) ↔ ∃ d ∈ files, d.Declares fullName .enum := by
  have hnested := Model.exists_nested_enum_iff h fullName
  constructor
  · rintro ⟨e, he, hname⟩
    obtain ⟨file, hfile, he⟩ := List.mem_flatMap.1 he
    rcases (file.enum_mem_declarations e).1 he with he | ⟨m, hm, he⟩
    · obtain ⟨d, hd, i, name, _, rfl⟩ := Model.exists_descriptor h hfile
      obtain ⟨e', he', rfl⟩ := List.mem_map.1 he
      exact ⟨d, hd, .inl ⟨e', he', hname⟩⟩
    · obtain ⟨d, hd, hentry⟩ :=
        hnested.1 ⟨m, List.mem_flatMap.2 ⟨file, hfile, hm⟩, e, he, hname⟩
      exact ⟨d, hd, .inr hentry⟩
  · rintro ⟨d, hd, ⟨e, he, hname⟩ | hentry⟩
    · obtain ⟨i, name, _, hfile⟩ := Model.exists_outlined h hd
      exact ⟨_, List.mem_flatMap.2 ⟨_, hfile, (SchemaFile.enum_mem_declarations _ _).2
        (.inl (List.mem_map_of_mem he))⟩, hname⟩
    · obtain ⟨m, hm, e, he, hname⟩ := hnested.2 ⟨d, hd, hentry⟩
      obtain ⟨file, hfile, hm⟩ := List.mem_flatMap.1 hm
      exact ⟨e, List.mem_flatMap.2 ⟨file, hfile, (file.enum_mem_declarations e).2
        (.inr ⟨m, hm, he⟩)⟩, hname⟩

/-- The types that an outline declares are the registered ones. -/
theorem Model.exists_declaration_iff (fullName : RawText) (kind : FieldKind) :
    (∃ x ∈ outlined.flatMap SchemaFile.declarations, x.kind = kind ∧ x.fullName = fullName) ↔
      ∃ d ∈ files, d.Declares fullName kind := by
  have hmessage := Model.message_mem_declarations_iff outlined
  cases kind with
  | message =>
    rw [← Model.exists_message_iff h]
    constructor
    · rintro ⟨_ | m, hx, hkind, hname⟩
      · cases hkind
      · exact ⟨m, (hmessage m).1 hx, hname⟩
    · rintro ⟨m, hm, hname⟩
      exact ⟨.message m, (hmessage m).2 hm, rfl, hname⟩
  | enum =>
    rw [← Model.exists_enum_iff h]
    constructor
    · rintro ⟨e | _, hx, hkind, hname⟩
      · exact ⟨e, hx, hname⟩
      · cases hkind
    · rintro ⟨e, he, hname⟩
      exact ⟨.enum e, he, rfl, hname⟩
  | _ =>
    constructor
    · rintro ⟨_ | _, _, hkind, _⟩ <;> cases hkind
    · rintro ⟨_, _, hfalse⟩
      exact hfalse.elim

end Files

end ProtoSchema
