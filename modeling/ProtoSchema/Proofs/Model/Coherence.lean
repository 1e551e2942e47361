import Mathlib.Data.List.Nodup
import ProtoSchema.Model.Build
import ProtoSchema.Proofs.Outcome

set_option autoImplicit false

/-! # References of a built model are to its own declarations

A field of a built model holds a description of the message it refers to, not the message. Nothing
is lost by that: the description is the one of a message of the model (`Coherent.ref_declared`), and
the place in it singles that message out, because no two messages have the same place
(`Coherent.place_inj`). Enums that fields refer to are those of the model as well
(`Coherent.enum_declared`). -/

namespace ProtoSchema

variable {φ ψ : Type}

/-! ## Replacing fields -/

@[simp] theorem Message.ref_mapFields (f : Place → Nat → φ → ψ) (m : Message φ) :
    (m.mapFields f).ref = m.ref := by
  cases m
  simp only [Message.mapFields, Message.ref]

theorem Message.file_mapFields (f : Place → Nat → φ → ψ) (m : Message φ) :
    (m.mapFields f).file = m.file :=
  congrArg MessageRef.file (m.ref_mapFields f)

theorem Message.place_mapFields (f : Place → Nat → φ → ψ) (m : Message φ) :
    (m.mapFields f).place = m.place :=
  congrArg MessageRef.place (m.ref_mapFields f)

theorem Message.fields_mapFields (f : Place → Nat → φ → ψ) (m : Message φ) :
    (m.mapFields f).fields = m.fields.mapIdx (f m.place) := by
  cases m
  simp only [Message.mapFields]

theorem Message.enums_mapFields (f : Place → Nat → φ → ψ) (m : Message φ) :
    (m.mapFields f).enums = m.enums := by
  cases m
  simp only [Message.mapFields]

mutual

theorem Message.withNested_mapFields (f : Place → Nat → φ → ψ) :
    (m : Message φ) → (m.mapFields f).withNested = m.withNested.map (Message.mapFields f)
  | ⟨name, fullName, file, place, fields, enums, messages, deprecated, mapEntry⟩ => by
    simp only [Message.mapFields, Message.withNested, List.map_cons,
      Message.withNestedAll_mapFieldsAll f messages]

theorem Message.withNestedAll_mapFieldsAll (f : Place → Nat → φ → ψ) :
    (ms : List (Message φ)) → Message.withNestedAll (Message.mapFieldsAll f ms) =
      (Message.withNestedAll ms).map (Message.mapFields f)
  | [] => rfl
  | m :: ms => by
    rw [Message.mapFieldsAll, Message.withNestedAll, Message.withNestedAll,
      Message.withNested_mapFields f m, Message.withNestedAll_mapFieldsAll f ms, List.map_append]

end

theorem Message.withNestedAll_eq_flatMap (ms : List (Message φ)) :
    Message.withNestedAll ms = ms.flatMap Message.withNested := by
  induction ms with
  | nil => rfl
  | cons m ms ih => rw [Message.withNestedAll, ih, List.flatMap_cons]

theorem Message.mem_withNested_self (m : Message φ) : m ∈ m.withNested := by
  cases m
  rw [Message.withNested]
  exact List.mem_cons_self

theorem Message.mem_withNestedAll_of_mem {m : Message φ} {ms : List (Message φ)} (h : m ∈ ms) :
    m ∈ Message.withNestedAll ms := by
  rw [Message.withNestedAll_eq_flatMap]
  exact List.mem_flatMap.2 ⟨m, h, m.mem_withNested_self⟩

/-! ## Places -/

mutual

/-- A message and all that is nested in it belong to the file, at or below the given place. -/
theorem MessageDescriptor.outline_place (scope : RawText) (file : String) (place : Place) :
    (d : MessageDescriptor) → ∀ m ∈ (d.outline scope file place).withNested,
      m.file = file ∧ m.place.file = place.file ∧ ∃ rest, m.place.path = place.path ++ rest
  | ⟨name, fields, messages, enums, deprecated, mapEntry⟩ => by
    intro m hm
    rw [MessageDescriptor.outline, Message.withNested, List.mem_cons] at hm
    rcases hm with rfl | hm
    · exact ⟨rfl, rfl, [], by simp⟩
    · obtain ⟨hfile, hplace, i, rest, _, hpath⟩ :=
        MessageDescriptor.outlineAll_place (qualify scope name) file place 0 messages m hm
      exact ⟨hfile, hplace, i :: rest, hpath⟩

/-- Messages numbered from `index` on stand below the given place, at that number or a later one. -/
theorem MessageDescriptor.outlineAll_place (scope : RawText) (file : String) (place : Place)
    (index : Nat) : (ds : List MessageDescriptor) →
      ∀ m ∈ Message.withNestedAll (MessageDescriptor.outlineAll scope file place index ds),
        m.file = file ∧ m.place.file = place.file ∧
          ∃ i rest, index ≤ i ∧ m.place.path = place.path ++ i :: rest
  | [] => by
    intro m hm
    simp [MessageDescriptor.outlineAll, Message.withNestedAll] at hm
  | d :: ds => by
    intro m hm
    rw [MessageDescriptor.outlineAll, Message.withNestedAll, List.mem_append] at hm
    rcases hm with hm | hm
    · obtain ⟨hfile, hplace, rest, hpath⟩ :=
        MessageDescriptor.outline_place scope file ⟨place.file, place.path ++ [index]⟩ d m hm
      exact ⟨hfile, hplace, index, rest, Nat.le_refl _, by simpa using hpath⟩
    · obtain ⟨hfile, hplace, i, rest, hi, hpath⟩ :=
        MessageDescriptor.outlineAll_place scope file place (index + 1) ds m hm
      exact ⟨hfile, hplace, i, rest, by omega, hpath⟩

end

mutual

theorem MessageDescriptor.outline_nodup (scope : RawText) (file : String) (place : Place) :
    (d : MessageDescriptor) →
      ((d.outline scope file place).withNested.map Message.place).Nodup
  | ⟨name, fields, messages, enums, deprecated, mapEntry⟩ => by
    rw [MessageDescriptor.outline, Message.withNested, List.map_cons, List.nodup_cons]
    refine ⟨?_, MessageDescriptor.outlineAll_nodup (qualify scope name) file place 0 messages⟩
    intro hmem
    obtain ⟨m, hm, heq⟩ := List.mem_map.1 hmem
    obtain ⟨_, _, i, rest, _, hpath⟩ :=
      MessageDescriptor.outlineAll_place (qualify scope name) file place 0 messages m hm
    have hlen := congrArg (fun q : Place => q.path.length) heq
    simp [hpath] at hlen

/-- No two messages of a file have the same place. -/
theorem MessageDescriptor.outlineAll_nodup (scope : RawText) (file : String) (place : Place)
    (index : Nat) : (ds : List MessageDescriptor) →
      ((Message.withNestedAll
        (MessageDescriptor.outlineAll scope file place index ds)).map Message.place).Nodup
  | [] => by simp [MessageDescriptor.outlineAll, Message.withNestedAll]
  | d :: ds => by
    rw [MessageDescriptor.outlineAll, Message.withNestedAll, List.map_append]
    refine (MessageDescriptor.outline_nodup scope file _ d).append
      (MessageDescriptor.outlineAll_nodup scope file place (index + 1) ds) ?_
    -- the first message and what is nested in it follow `index`, the others a later number
    intro q hq hq'
    obtain ⟨m, hm, rfl⟩ := List.mem_map.1 hq
    obtain ⟨m', hm', heq⟩ := List.mem_map.1 hq'
    obtain ⟨_, _, rest, hpath⟩ :=
      MessageDescriptor.outline_place scope file ⟨place.file, place.path ++ [index]⟩ d m hm
    obtain ⟨_, _, i, rest', hi, hpath'⟩ :=
      MessageDescriptor.outlineAll_place scope file place (index + 1) ds m' hm'
    rw [heq, hpath, List.append_assoc, List.append_cancel_left_eq] at hpath'
    have hhead : index = i := (List.cons.inj hpath').1
    omega

end

/-! ## Outlines -/

theorem Model.mapIdx_outline {files : List FileDescriptor}
    {outlined : List (SchemaFile FieldDescriptor)} (h : Model.outline files = .ok outlined) :
    files.mapIdx FileDescriptor.outline = outlined.map .ok := by
  have hall := (mapM_eq_ok_iff id _ outlined).1 h
  rw [← List.forall₂_eq_eq_eq, List.forall₂_map_right_iff]
  exact hall

/-- The outline of each input file, by its number. -/
theorem Model.outline_getElem? {files : List FileDescriptor}
    {outlined : List (SchemaFile FieldDescriptor)} (h : Model.outline files = .ok outlined)
    {i : Nat} {file : SchemaFile FieldDescriptor} (hfile : outlined[i]? = some file) :
    ∃ d name, files[i]? = some d ∧ d.name = .text name ∧ file = d.outlineAs i name := by
  have hget := congrArg (fun l => l[i]?) (Model.mapIdx_outline h)
  simp only [List.getElem?_mapIdx, List.getElem?_map, hfile, Option.map_some,
    Option.map_eq_some_iff] at hget
  obtain ⟨d, hd, hout⟩ := hget
  unfold FileDescriptor.outline at hout
  split at hout
  · next name hname => exact ⟨d, name, hd, hname, (Except.ok.inj hout).symm⟩
  · cases hout

section Outlined

variable {files : List FileDescriptor} {outlined : List (SchemaFile FieldDescriptor)}
  (h : Model.outline files = .ok outlined)

include h

theorem Model.outline_path {file : SchemaFile FieldDescriptor} (hfile : file ∈ outlined) :
    file.path = ModulePath.logical file.sourceName := by
  obtain ⟨i, hi⟩ := List.mem_iff_getElem?.1 hfile
  obtain ⟨d, name, _, _, rfl⟩ := Model.outline_getElem? h hi
  rfl

theorem Model.outline_file {file : SchemaFile FieldDescriptor} (hfile : file ∈ outlined)
    {m : Message FieldDescriptor} (hm : m ∈ Message.withNestedAll file.messages) :
    m.file = file.path := by
  obtain ⟨i, hi⟩ := List.mem_iff_getElem?.1 hfile
  obtain ⟨d, name, _, _, rfl⟩ := Model.outline_getElem? h hi
  exact (MessageDescriptor.outlineAll_place _ _ _ _ _ m hm).1

/-- The place of a message tells its file, and within the file the message. -/
theorem Model.outline_place_inj {file file' : SchemaFile FieldDescriptor}
    (hfile : file ∈ outlined) (hfile' : file' ∈ outlined) {m m' : Message FieldDescriptor}
    (hm : m ∈ Message.withNestedAll file.messages)
    (hm' : m' ∈ Message.withNestedAll file'.messages) (hplace : m.place = m'.place) : m = m' := by
  obtain ⟨i, hi⟩ := List.mem_iff_getElem?.1 hfile
  obtain ⟨j, hj⟩ := List.mem_iff_getElem?.1 hfile'
  have hnumber : ∀ {k : Nat} {f : SchemaFile FieldDescriptor} {x : Message FieldDescriptor},
      outlined[k]? = some f → x ∈ Message.withNestedAll f.messages → x.place.file = k := by
    intro k f x hk hx
    obtain ⟨d, name, _, _, rfl⟩ := Model.outline_getElem? h hk
    exact (MessageDescriptor.outlineAll_place _ _ _ _ _ x hx).2.1
  have hij : i = j := by
    rw [← hnumber hi hm, ← hnumber hj hm', hplace]
  subst hij
  obtain rfl : file = file' := Option.some.inj (hi.symm.trans hj)
  obtain ⟨d, name, _, _, rfl⟩ := Model.outline_getElem? h hi
  exact List.inj_on_of_nodup_map (MessageDescriptor.outlineAll_nodup _ _ _ _ _) hm hm' hplace

/-- An outlined file is the outline of one of the input files. -/
theorem Model.exists_descriptor {file : SchemaFile FieldDescriptor} (hfile : file ∈ outlined) :
    ∃ d ∈ files, ∃ i name, d.name = .text name ∧ file = d.outlineAs i name := by
  obtain ⟨i, hi⟩ := List.mem_iff_getElem?.1 hfile
  obtain ⟨d, name, hd, hname, heq⟩ := Model.outline_getElem? h hi
  exact ⟨d, List.mem_of_getElem? hd, i, name, hname, heq⟩

/-- Every input file is outlined. -/
theorem Model.exists_outlined {d : FileDescriptor} (hd : d ∈ files) :
    ∃ i name, d.name = .text name ∧ d.outlineAs i name ∈ outlined := by
  obtain ⟨i, hi⟩ := List.mem_iff_getElem?.1 hd
  have hget := congrArg (fun l => l[i]?) (Model.mapIdx_outline h)
  simp only [List.getElem?_mapIdx, List.getElem?_map, hi, Option.map_some] at hget
  obtain ⟨file, hfile, hout⟩ := Option.map_eq_some_iff.1 hget.symm
  unfold FileDescriptor.outline at hout
  split at hout
  · next name hname =>
    obtain rfl := Except.ok.inj hout
    exact ⟨i, name, hname, List.mem_of_getElem? hfile⟩
  · cases hout

end Outlined

/-! ## Declarations -/

mutual

theorem Message.message_mem_declarations (x : Message φ) :
    (m : Message φ) → (Declaration.message x ∈ m.declarations ↔ x ∈ m.withNested)
  | ⟨name, fullName, file, place, fields, enums, messages, deprecated, mapEntry⟩ => by
    rw [Message.declarations, Message.withNested, List.cons_append, List.mem_cons, List.mem_append,
      List.mem_cons, Message.message_mem_declarationsAll x messages]
    simp

/-- The messages that are declared are those at any depth. -/
theorem Message.message_mem_declarationsAll (x : Message φ) :
    (ms : List (Message φ)) →
      (Declaration.message x ∈ Message.declarationsAll ms ↔ x ∈ Message.withNestedAll ms)
  | [] => by simp [Message.declarationsAll, Message.withNestedAll]
  | m :: ms => by
    rw [Message.declarationsAll, Message.withNestedAll, List.mem_append, List.mem_append,
      Message.message_mem_declarations x m, Message.message_mem_declarationsAll x ms]

end

theorem SchemaFile.message_mem_declarations (x : Message φ) (file : SchemaFile φ) :
    Declaration.message x ∈ file.declarations ↔ x ∈ Message.withNestedAll file.messages := by
  rw [SchemaFile.declarations, List.mem_append, Message.message_mem_declarationsAll]
  simp

mutual

theorem Message.exists_of_enum_mem_declarations {e : Enum} :
    (m : Message φ) → Declaration.enum e ∈ m.declarations → ∃ x ∈ m.withNested, e ∈ x.enums
  | ⟨name, fullName, file, place, fields, enums, messages, deprecated, mapEntry⟩, h => by
    rw [Message.declarations, List.cons_append, List.mem_cons, List.mem_append] at h
    rw [Message.withNested]
    rcases h with h | h | h
    · cases h
    · refine ⟨_, List.mem_cons_self, ?_⟩
      simpa using h
    · obtain ⟨x, hx, he⟩ := Message.exists_of_enum_mem_declarationsAll messages h
      exact ⟨x, List.mem_cons_of_mem _ hx, he⟩

/-- The enums that messages declare stand in messages at any depth. -/
theorem Message.exists_of_enum_mem_declarationsAll {e : Enum} :
    (ms : List (Message φ)) → Declaration.enum e ∈ Message.declarationsAll ms →
      ∃ x ∈ Message.withNestedAll ms, e ∈ x.enums
  | [], h => by simp [Message.declarationsAll] at h
  | m :: ms, h => by
    rw [Message.declarationsAll, List.mem_append] at h
    rw [Message.withNestedAll]
    rcases h with h | h
    · obtain ⟨x, hx, he⟩ := Message.exists_of_enum_mem_declarations m h
      exact ⟨x, List.mem_append_left _ hx, he⟩
    · obtain ⟨x, hx, he⟩ := Message.exists_of_enum_mem_declarationsAll ms h
      exact ⟨x, List.mem_append_right _ hx, he⟩

end

/-- The enums of a file, at any depth. -/
def SchemaFile.allEnums (file : SchemaFile φ) : List Enum :=
  file.enums ++ (Message.withNestedAll file.messages).flatMap Message.enums

theorem SchemaFile.mem_allEnums_of_declared {e : Enum} {file : SchemaFile φ}
    (h : Declaration.enum e ∈ file.declarations) : e ∈ file.allEnums := by
  rw [SchemaFile.declarations, List.mem_append] at h
  rw [SchemaFile.allEnums, List.mem_append]
  rcases h with h | h
  · left
    simpa using h
  · right
    exact List.mem_flatMap.2 (Message.exists_of_enum_mem_declarationsAll file.messages h)

theorem SchemaFile.allEnums_mapFields (f : Place → Nat → φ → ψ) (file : SchemaFile φ) :
    (file.mapFields f).allEnums = file.allEnums := by
  have hsame : (fun m : Message φ => (m.mapFields f).enums) = Message.enums :=
    funext fun m => m.enums_mapFields f
  rw [SchemaFile.allEnums, SchemaFile.mapFields, Message.withNestedAll_mapFieldsAll,
    List.flatMap_map, hsame, SchemaFile.allEnums]

/-! ## References -/

/-- What a field that refers to a declared type has as its target. -/
def Declaration.target : Declaration φ → Target
  | enum e => .enum e.ref
  | message m => .message m.ref

theorem Declarations.mem_of_find? {types : Declarations φ} {name : String} {d : Declaration φ}
    (h : types.find? name = some d) : d ∈ types := by
  rw [← List.mem_reverse]
  exact List.mem_of_find?_eq_some h

theorem Declarations.mem_of_lookup? {types : Declarations φ} {owner : RawText} {name : String}
    {d : Declaration φ} (h : types.lookup? owner name = .ok (some d)) : d ∈ types := by
  unfold Declarations.lookup? at h
  split at h
  · next found hfound =>
    obtain rfl := Option.some.inj (Except.ok.inj h)
    exact Declarations.mem_of_find? hfound
  · split at h
    · cases h
    · split at h
      · have hsome := Except.ok.inj h
        obtain ⟨scope, _, hscope⟩ := List.exists_of_findSome?_eq_some hsome
        exact Declarations.mem_of_find? hscope
      · cases h

/-- What a slot refers to is a scalar type or one of the declared types. -/
theorem Slot.declared_of_target? {types : Declarations FieldDescriptor} {slot : Slot}
    {target : Target} (h : slot.target? types = .ok (some target)) :
    (∃ type, target = .scalar type) ∨ ∃ d ∈ types, target = d.target := by
  have hnamed : ∀ {d}, slot.named? types = .ok (some d) → d ∈ types := by
    intro d hd
    unfold Slot.named? at hd
    split at hd
    · exact Declarations.mem_of_lookup? hd
    · cases hd
  unfold Slot.target? at h
  split at h
  · next type _ =>
    cases h
    exact Or.inl ⟨type, rfl⟩
  · cases h
  · obtain ⟨found, hfound, h⟩ := bind_eq_ok_iff.1 h
    split at h
    · cases h
      exact Or.inr ⟨_, hnamed hfound, rfl⟩
    · cases h
  · obtain ⟨found, hfound, h⟩ := bind_eq_ok_iff.1 h
    split at h
    · cases h
      exact Or.inr ⟨_, hnamed hfound, rfl⟩
    · cases h

theorem declared_of_resolveAll {types : Declarations FieldDescriptor} {slots : List Slot}
    {references : List Reference} (h : resolveAll types slots = .ok references) {r : Reference}
    (hr : r ∈ references) {target : Target} (htarget : r.target = some target) :
    (∃ type, target = .scalar type) ∨ ∃ d ∈ types, target = d.target := by
  obtain ⟨slot, _, hslot⟩ := exists_of_mem_mapM h hr
  obtain ⟨found, hfound, heq⟩ := bind_eq_ok_iff.1 hslot
  cases heq
  obtain rfl : found = some target := htarget
  exact Slot.declared_of_target? hfound

/-- A field refers to a message if the message is its target. -/
theorem FieldType.target?_of_message? {type : FieldType} {ref : MessageRef}
    (h : type.message? = some ref) : type.target? = some (.message ref) := by
  obtain ⟨target, htarget, hmessage⟩ := Option.bind_eq_some_iff.1 h
  rw [htarget]
  cases target <;> simp [Target.message?] at hmessage
  rw [hmessage]

/-! ## Settled types -/

/-- All that the settled types refer to comes from the references. -/
def Settled.Sourced (references : List Reference) (settled : Settled) : Prop :=
  ∀ id type, (id, type) ∈ settled → ∀ target, type.target? = some target →
    ∃ r ∈ references, r.target = some target

theorem mem_of_lookup_settled {settled : Settled} {id : SlotId} {type : FieldType}
    (h : settled.lookup id = some type) : (id, type) ∈ settled := by
  obtain ⟨front, back, rfl, _⟩ := List.lookup_eq_some_iff.1 h
  simp

theorem currentTarget?_sourced {references : List Reference} {settled : Settled}
    (h : Settled.Sourced references settled) {id : SlotId} {target : Target}
    (hcurrent : currentTarget? references settled id = some (some target)) :
    ∃ r ∈ references, r.target = some target := by
  unfold currentTarget? at hcurrent
  split at hcurrent
  · next type htype =>
    exact h id type (mem_of_lookup_settled htype) target (Option.some.inj hcurrent)
  · obtain ⟨r, hr, htarget⟩ := Option.map_eq_some_iff.1 hcurrent
    exact ⟨r, List.mem_of_find?_eq_some hr, htarget⟩

/-- The type of a field refers to what the field refers to, or to the value of a map's entry. -/
theorem Reference.type_sourced {references : List Reference} {settled : Settled}
    (h : Settled.Sourced references settled) {r : Reference} (hr : r ∈ references)
    {type : FieldType} (htype : r.type references settled = .ok type) {target : Target}
    (htarget : type.target? = some target) : ∃ r' ∈ references, r'.target = some target := by
  unfold Reference.type at htype
  split at htype
  · cases htype
    cases htarget
  · next own hown =>
    have hself : ∀ t, own = t → ∃ r' ∈ references, r'.target = some t := by
      rintro t rfl
      exact ⟨r, hr, hown⟩
    split at htype
    · split at htype
      · split at htype
        · -- a map: its value is what the second field of the entry holds at this point
          unfold mapType at htype
          split at htype
          · next key value _ hvalue =>
            cases htype
            obtain rfl : value = some target := htarget
            exact currentTarget?_sourced h hvalue
          · cases htype
        · cases htype
          exact hself target (Option.some.inj htarget)
      · cases htype
        exact hself target (Option.some.inj htarget)
    · cases htype
      exact hself target (Option.some.inj htarget)

theorem settle_sourced {references : List Reference} (rest : List Reference)
    (hrest : rest ⊆ references) {settled result : Settled}
    (h : Settled.Sourced references settled) (hrun : settle references rest settled = .ok result) :
    Settled.Sourced references result := by
  induction rest generalizing settled with
  | nil =>
    cases hrun
    exact h
  | cons r rest ih =>
    obtain ⟨type, htype, hrun⟩ := bind_eq_ok_iff.1 hrun
    refine ih (List.subset_of_cons_subset hrest) ?_ hrun
    intro id type' hmem target htarget
    rcases List.mem_cons.1 hmem with heq | hmem
    · cases heq
      exact Reference.type_sourced h (hrest List.mem_cons_self) htype htarget
    · exact h id type' hmem target htarget

/-! ## Built models -/

namespace Model

/-- All messages of a model, at any depth. -/
def messages (model : Model) : List (Message Field) :=
  model.files.flatMap fun file => Message.withNestedAll file.messages

/-- All enums of a model, at any depth. -/
def enums (model : Model) : List Enum :=
  model.files.flatMap SchemaFile.allEnums

/-- References and places of a model fit together. -/
structure Coherent (model : Model) : Prop where
  /-- The logical path of a file follows from its name. -/
  path_eq : ∀ file ∈ model.files, file.path = ModulePath.logical file.sourceName
  /-- Messages belong to the file that declares them. -/
  file_eq : ∀ file ∈ model.files, ∀ m ∈ Message.withNestedAll file.messages, m.file = file.path
  /-- The place of a message tells it from all others. -/
  place_inj : ∀ m ∈ model.messages, ∀ m' ∈ model.messages, m.place = m'.place → m = m'
  /-- A reference is to one of the messages. -/
  ref_declared : ∀ m ∈ model.messages, ∀ field ∈ m.fields, ∀ ref,
    field.type.message? = some ref → ∃ t ∈ model.messages, ref = t.ref
  /-- A reference to an enum is to one of the enums. -/
  enum_declared : ∀ m ∈ model.messages, ∀ field ∈ m.fields, ∀ ref,
    field.type.target? = some (.enum ref) → ∃ e ∈ model.enums, ref = e.ref

theorem mem_messages_of_nested {model : Model} {file : SchemaFile Field}
    (hfile : file ∈ model.files) {m nested : Message Field} (hm : m ∈ file.messages)
    (hnested : nested ∈ m.withNested) : nested ∈ model.messages := by
  refine List.mem_flatMap.2 ⟨file, hfile, ?_⟩
  rw [Message.withNestedAll_eq_flatMap]
  exact List.mem_flatMap.2 ⟨m, hm, hnested⟩

theorem mem_messages {model : Model} {file : SchemaFile Field} (hfile : file ∈ model.files)
    {m : Message Field} (hm : m ∈ file.messages) : m ∈ model.messages :=
  mem_messages_of_nested hfile hm m.mem_withNested_self

/-- A reference with the place of a message is the reference to that message. -/
theorem Coherent.ref_eq {model : Model} (h : model.Coherent) {m t : Message Field}
    (hm : m ∈ model.messages) (ht : t ∈ model.messages) {field : Field} (hfield : field ∈ m.fields)
    {ref : MessageRef} (href : field.type.message? = some ref) (hplace : t.place = ref.place) :
    ref = t.ref := by
  obtain ⟨t', ht', rfl⟩ := h.ref_declared m hm field hfield ref href
  rw [h.place_inj t ht t' ht' hplace]

/-- The messages of a model are those of the outline with their fields filled in. -/
theorem mem_messages_mapFields_iff (outlined : List (SchemaFile FieldDescriptor))
    (f : Place → Nat → FieldDescriptor → Field) (m : Message Field) :
    m ∈ (Model.mk (outlined.map (·.mapFields f))).messages ↔
      ∃ file ∈ outlined, ∃ m' ∈ Message.withNestedAll file.messages, m'.mapFields f = m := by
  rw [messages, List.flatMap_map, List.mem_flatMap]
  simp only [SchemaFile.mapFields, Message.withNestedAll_mapFieldsAll, List.mem_map]

/-- What a filled-in field refers to is what some slot refers to. -/
theorem typedField_sourced {references : List Reference} {settled : Settled}
    (hsourced : Settled.Sourced references settled) {place : Place} {index : Nat}
    {d : FieldDescriptor} {target : Target}
    (htarget : (typedField settled place index d).type.target? = some target) :
    ∃ r ∈ references, r.target = some target := by
  -- a field that refers to something has been settled
  obtain ⟨type, htype⟩ : ∃ type, settled.lookup ⟨place, index⟩ = some type := by
    cases hlookup : settled.lookup ⟨place, index⟩ with
    | some type => exact ⟨type, rfl⟩
    | none => simp [typedField, hlookup, FieldType.target?] at htarget
  have htarget' : type.target? = some target := by
    simpa [typedField, htype] using htarget
  exact hsourced _ type (mem_of_lookup_settled htype) _ htarget'

/-- What a filled-in field refers to is declared in the outline. -/
theorem typedField_declared {outlined : List (SchemaFile FieldDescriptor)} {slots : List Slot}
    {references : List Reference} {settled : Settled}
    (hreferences : resolveAll (outlined.flatMap SchemaFile.declarations) slots = .ok references)
    (hsourced : Settled.Sourced references settled) (place : Place) (index : Nat)
    (d : FieldDescriptor) {target : Target}
    (htarget : (typedField settled place index d).type.target? = some target) :
    (∃ type, target = .scalar type) ∨
      ∃ file ∈ outlined, ∃ d ∈ file.declarations, target = d.target := by
  obtain ⟨r, hr, hrtarget⟩ := typedField_sourced hsourced htarget
  rcases declared_of_resolveAll hreferences hr hrtarget with hscalar | ⟨d, hd, heq⟩
  · exact Or.inl hscalar
  · obtain ⟨file, hfile, hd⟩ := List.mem_flatMap.1 hd
    exact Or.inr ⟨file, hfile, d, hd, heq⟩

/-- Building makes coherent models. -/
theorem build_coherent {files : List FileDescriptor} {model : Model}
    (h : Model.build files = .ok model) : model.Coherent := by
  obtain ⟨outlined, houtlined, h⟩ := bind_eq_ok_iff.1 h
  obtain ⟨references, hreferences, h⟩ := bind_eq_ok_iff.1 h
  obtain ⟨settled, hsettled, h⟩ := bind_eq_ok_iff.1 h
  obtain rfl := Except.ok.inj h
  have hsourced : Settled.Sourced references settled :=
    settle_sourced references (List.Subset.refl _) (by simp [Settled.Sourced]) hsettled
  have hall := mem_messages_mapFields_iff outlined (typedField settled)
  have hdeclared : ∀ m ∈ (Model.mk (outlined.map (·.mapFields (typedField settled)))).messages,
      ∀ field ∈ m.fields, ∀ target, field.type.target? = some target →
        (∃ type, target = .scalar type) ∨
          ∃ file ∈ outlined, ∃ d ∈ file.declarations, target = d.target := by
    intro m hm field hfield target htarget
    obtain ⟨_, _, x, _, rfl⟩ := (hall m).1 hm
    rw [Message.fields_mapFields] at hfield
    obtain ⟨i, hi, rfl⟩ := List.mem_mapIdx.1 hfield
    exact typedField_declared hreferences hsourced _ _ _ htarget
  refine ⟨?_, ?_, ?_, ?_, ?_⟩
  · intro file hfile
    obtain ⟨file', hfile', rfl⟩ := List.mem_map.1 hfile
    exact Model.outline_path houtlined hfile'
  · intro file hfile m hm
    obtain ⟨file', hfile', rfl⟩ := List.mem_map.1 hfile
    rw [SchemaFile.mapFields, Message.withNestedAll_mapFieldsAll] at hm
    obtain ⟨m', hm', rfl⟩ := List.mem_map.1 hm
    rw [Message.file_mapFields]
    exact Model.outline_file houtlined hfile' hm'
  · intro m hm m' hm' hplace
    obtain ⟨file, hfile, x, hx, rfl⟩ := (hall m).1 hm
    obtain ⟨file', hfile', x', hx', rfl⟩ := (hall m').1 hm'
    rw [Message.place_mapFields, Message.place_mapFields] at hplace
    rw [Model.outline_place_inj houtlined hfile hfile' hx hx' hplace]
  · intro m hm field hfield ref href
    rcases hdeclared m hm field hfield _ (FieldType.target?_of_message? href) with
      ⟨_, heq⟩ | ⟨file, hfile, d, hd, heq⟩
    · cases heq
    · cases d with
      | enum e => cases heq
      | message t =>
        cases heq
        have ht := (SchemaFile.message_mem_declarations t file).1 hd
        exact ⟨t.mapFields (typedField settled), (hall _).2 ⟨file, hfile, t, ht, rfl⟩,
          (Message.ref_mapFields _ t).symm⟩
  · intro m hm field hfield ref href
    rcases hdeclared m hm field hfield _ href with ⟨_, heq⟩ | ⟨file, hfile, d, hd, heq⟩
    · cases heq
    · cases d with
      | message t => cases heq
      | enum e =>
        cases heq
        refine ⟨e, List.mem_flatMap.2 ⟨_, List.mem_map_of_mem hfile, ?_⟩, rfl⟩
        rw [SchemaFile.allEnums_mapFields]
        exact SchemaFile.mem_allEnums_of_declared hd

end Model

end ProtoSchema
