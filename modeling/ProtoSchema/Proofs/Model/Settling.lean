import ProtoSchema.Proofs.Model.Coherence

set_option autoImplicit false

/-! # The types of fields do not hang on the order of settling

Fields are settled one after the other, and a map takes its key and value as they stand at that
point. If no field of an entry message is repeated, that point does not matter: each field has the
type it would have before anything is settled (`Construction.EntriesPlain.lookup_settled`). So the
type of a field follows from what the field refers to and, for a map, from what the two fields of
the entry message refer to. -/

namespace ProtoSchema

/-! ## Slots -/

theorem Message.mem_ownSlots_iff (m : Message FieldDescriptor) (slot : Slot) :
    slot ∈ m.ownSlots ↔ ∃ index field,
      m.fields[index]? = some field ∧ slot = ⟨⟨m.place, index⟩, m.fullName, field⟩ := by
  rw [Message.ownSlots, List.mem_mapIdx]
  constructor
  · rintro ⟨index, h, rfl⟩
    exact ⟨index, m.fields[index], List.getElem?_eq_getElem h, rfl⟩
  · rintro ⟨index, field, hfield, rfl⟩
    obtain ⟨h, rfl⟩ := List.getElem?_eq_some_iff.1 hfield
    exact ⟨index, h, rfl⟩

mutual

theorem Message.mem_slots_iff (slot : Slot) :
    (m : Message FieldDescriptor) → (slot ∈ m.slots ↔ ∃ x ∈ m.withNested, slot ∈ x.ownSlots)
  | ⟨name, fullName, file, place, fields, enums, messages, deprecated, mapEntry⟩ => by
    rw [Message.slots, Message.withNested, List.mem_append, Message.mem_slotsAll_iff slot messages]
    simp only [List.mem_cons, exists_eq_or_imp]
    exact or_comm

/-- The slots of messages are those of the messages at any depth. -/
theorem Message.mem_slotsAll_iff (slot : Slot) :
    (ms : List (Message FieldDescriptor)) →
      (slot ∈ Message.slotsAll ms ↔ ∃ x ∈ Message.withNestedAll ms, slot ∈ x.ownSlots)
  | [] => by simp [Message.slotsAll, Message.withNestedAll]
  | m :: ms => by
    rw [Message.slotsAll, Message.withNestedAll, List.mem_append, Message.mem_slots_iff slot m,
      Message.mem_slotsAll_iff slot ms]
    simp only [List.mem_append, or_and_right, exists_or]

end

theorem Slot.resolve_eq_ok {types : Declarations FieldDescriptor} {slot : Slot} {r : Reference}
    (h : slot.resolve types = .ok r) :
    r.id = slot.id ∧ r.repeated = decide (slot.field.label = .repeated) ∧
      slot.target? types = .ok r.target := by
  obtain ⟨target, htarget, h⟩ := bind_eq_ok_iff.1 h
  cases h
  exact ⟨rfl, rfl, htarget⟩

section Outlined

variable {files : List FileDescriptor} {outlined : List (SchemaFile FieldDescriptor)}

/-- The slots of an outline are those of its messages at any depth. -/
theorem Model.mem_slots_iff (outlined : List (SchemaFile FieldDescriptor)) (slot : Slot) :
    (slot ∈ outlined.flatMap fun file => Message.slotsAll file.messages) ↔
      ∃ m ∈ outlined.flatMap fun file => Message.withNestedAll file.messages,
        slot ∈ m.ownSlots := by
  simp only [List.mem_flatMap, Message.mem_slotsAll_iff]
  constructor
  · rintro ⟨file, hfile, m, hm, hslot⟩
    exact ⟨m, ⟨file, hfile, hm⟩, hslot⟩
  · rintro ⟨m, ⟨file, hfile, hm⟩, hslot⟩
    exact ⟨file, hfile, m, hm, hslot⟩

theorem Model.message_mem_declarations_iff (outlined : List (SchemaFile FieldDescriptor))
    (m : Message FieldDescriptor) :
    Declaration.message m ∈ outlined.flatMap SchemaFile.declarations ↔
      m ∈ outlined.flatMap fun file => Message.withNestedAll file.messages := by
  simp only [List.mem_flatMap, SchemaFile.message_mem_declarations]

/-- No two messages of an outline have the same place. -/
theorem Model.outlined_place_inj (h : Model.outline files = .ok outlined)
    {m m' : Message FieldDescriptor}
    (hm : m ∈ outlined.flatMap fun file => Message.withNestedAll file.messages)
    (hm' : m' ∈ outlined.flatMap fun file => Message.withNestedAll file.messages)
    (hplace : m.place = m'.place) : m = m' := by
  obtain ⟨file, hfile, hm⟩ := List.mem_flatMap.1 hm
  obtain ⟨file', hfile', hm'⟩ := List.mem_flatMap.1 hm'
  exact Model.outline_place_inj h hfile hfile' hm hm' hplace

end Outlined

/-! ## The two ways to a type -/

/-- The message whose fields are the key and the value of a map, if the reference makes one. -/
def Reference.entry? (r : Reference) : Option MessageRef :=
  if r.repeated then (r.target.bind Target.message?).filter MessageRef.mapEntry else none

/-- The type of a field that is no map. -/
def Reference.plainType (r : Reference) : FieldType :=
  match r.target with
  | none => .unknown
  | some target => if r.repeated then .list target else .single target

theorem Reference.type_eq (references : List Reference) (settled : Settled) (r : Reference) :
    r.type references settled = match r.entry? with
      | some ref => mapType references settled ref.place
      | none => .ok r.plainType := by
  unfold Reference.type Reference.entry? Reference.plainType
  cases r.target with
  | none => cases r.repeated <;> rfl
  | some target =>
    cases r.repeated with
    | false => rfl
    | true =>
      cases target with
      | message ref => cases hentry : ref.mapEntry <;> simp [Target.message?, Option.filter, hentry]
      | _ => rfl

theorem Reference.target_of_entry? {r : Reference} {ref : MessageRef} (h : r.entry? = some ref) :
    r.target = some (.message ref) ∧ r.repeated = true ∧ ref.mapEntry = true := by
  unfold Reference.entry? at h
  split at h
  · next hrepeated =>
    obtain ⟨hmessage, hentry⟩ := Option.filter_eq_some_iff.1 h
    obtain ⟨target, htarget, hmessage⟩ := Option.bind_eq_some_iff.1 hmessage
    cases target <;> simp [Target.message?] at hmessage
    exact ⟨by rw [htarget, hmessage], hrepeated, hentry⟩
  · cases h

theorem Reference.target?_plainType (r : Reference) : r.plainType.target? = r.target := by
  unfold Reference.plainType
  cases r.target with
  | none => rfl
  | some target => cases r.repeated <;> rfl

/-! ## Settling -/

/-- Of each slot there is one reference. -/
def UniqueIds (references : List Reference) : Prop :=
  ∀ r ∈ references, ∀ r' ∈ references, r.id = r'.id → r = r'

/-- The fields of messages that stand for the entries of maps are not repeated. -/
def PlainEntries (references : List Reference) : Prop :=
  ∀ r ∈ references, ∀ ref, r.entry? = some ref →
    ∀ r' ∈ references, r'.id.place = ref.place → r'.repeated = false

/-- Fields have been settled with the types they have before anything is settled. -/
def Settled.Plain (references : List Reference) (settled : Settled) : Prop :=
  ∀ id type, (id, type) ∈ settled →
    ∃ r ∈ references, r.id = id ∧ r.type references [] = .ok type

/-- A field is settled once it has had its turn. -/
theorem lookup_settle {references rest : List Reference} {settled result : Settled}
    (h : settle references rest settled = .ok result) {id : SlotId}
    (hid : (settled.lookup id).isSome = true ∨ ∃ r ∈ rest, r.id = id) :
    (result.lookup id).isSome = true := by
  induction rest generalizing settled with
  | nil =>
    obtain rfl := Except.ok.inj h
    simpa using hid
  | cons r rest ih =>
    obtain ⟨type, _, h⟩ := bind_eq_ok_iff.1 h
    refine ih h ?_
    by_cases hsame : id = r.id
    · subst hsame
      exact .inl (by simp)
    · have hother : (id == r.id) = false := by simpa using hsame
      rcases hid with hid | ⟨r', hr', rfl⟩
      · exact .inl (by rw [List.lookup_cons, hother]; exact hid)
      · rcases List.mem_cons.1 hr' with rfl | hr'
        · exact absurd rfl hsame
        · exact .inr ⟨r', hr', rfl⟩

section Settling

variable {references : List Reference} (hunique : UniqueIds references)

include hunique

theorem find?_reference {r : Reference} (hr : r ∈ references) :
    references.find? (fun r' => r'.id = r.id) = some r :=
  find?_eq_some_of_unique hr (by simp) fun r' hr' hid => hunique r' hr' r hr (by simpa using hid)

/-- A field that is not repeated refers to the same before and after it is settled. -/
theorem currentTarget?_settled {settled : Settled} (hsettled : settled.Plain references)
    {id : SlotId} (hplain : ∀ r ∈ references, r.id = id → r.repeated = false) :
    currentTarget? references settled id = currentTarget? references [] id := by
  unfold currentTarget?
  cases hlookup : settled.lookup id with
  | none => rfl
  | some type =>
    obtain ⟨r, hr, rfl, htype⟩ := hsettled id type (mem_of_lookup_settled hlookup)
    have hentry : r.entry? = none := by
      unfold Reference.entry?
      rw [hplain r hr rfl]
      rfl
    rw [Reference.type_eq, hentry] at htype
    obtain rfl := Except.ok.inj htype
    show some r.plainType.target? = (references.find? fun r' => r'.id = r.id).map Reference.target
    rw [find?_reference hunique hr, r.target?_plainType]
    rfl

variable (hentries : PlainEntries references)

include hentries

theorem Reference.type_settled {settled : Settled} (hsettled : settled.Plain references)
    {r : Reference} (hr : r ∈ references) :
    r.type references settled = r.type references [] := by
  rw [Reference.type_eq, Reference.type_eq]
  cases hentry : r.entry? with
  | none => rfl
  | some ref =>
    have hplain : ∀ index, ∀ r' ∈ references, r'.id = ⟨ref.place, index⟩ → r'.repeated = false :=
      fun index r' hr' hid => hentries r hr ref hentry r' hr' (congrArg SlotId.place hid)
    show mapType references settled ref.place = mapType references [] ref.place
    unfold mapType
    rw [currentTarget?_settled hunique hsettled (hplain 0),
      currentTarget?_settled hunique hsettled (hplain 1)]

theorem settle_plain {rest : List Reference} (hrest : rest ⊆ references) {settled result : Settled}
    (hsettled : settled.Plain references) (h : settle references rest settled = .ok result) :
    result.Plain references := by
  induction rest generalizing settled with
  | nil =>
    obtain rfl := Except.ok.inj h
    exact hsettled
  | cons r rest ih =>
    obtain ⟨type, htype, h⟩ := bind_eq_ok_iff.1 h
    have hr : r ∈ references := hrest List.mem_cons_self
    -- the type computed now is the one computed first
    rw [Reference.type_settled hunique hentries hsettled hr] at htype
    refine ih (List.subset_of_cons_subset hrest) ?_ h
    intro id type' hmem
    rcases List.mem_cons.1 hmem with heq | hmem
    · cases heq
      exact ⟨r, hr, rfl, htype⟩
    · exact hsettled id type' hmem

/-- When all is settled, each field has the type it had before anything was. -/
theorem lookup_settleAll {settled : Settled} (h : settleAll references = .ok settled)
    {r : Reference} (hr : r ∈ references) :
    ∃ type, settled.lookup r.id = some type ∧ r.type references [] = .ok type := by
  have hempty : Settled.Plain references [] := by simp [Settled.Plain]
  have hplain := settle_plain hunique hentries (List.Subset.refl _) hempty h
  obtain ⟨type, htype⟩ := Option.isSome_iff_exists.1 (lookup_settle h (.inr ⟨r, hr, rfl⟩))
  obtain ⟨r', hr', hid, hr'type⟩ := hplain r.id type (mem_of_lookup_settled htype)
  rw [hunique r' hr' r hr hid] at hr'type
  exact ⟨type, htype, hr'type⟩

end Settling

/-! ## Constructions -/

/-- The steps in which a model is built from files. -/
structure Construction (files : List FileDescriptor) where
  outlined : List (SchemaFile FieldDescriptor)
  references : List Reference
  settled : Settled
  outline_eq : Model.outline files = .ok outlined
  resolveAll_eq : resolveAll (outlined.flatMap SchemaFile.declarations)
    (outlined.flatMap fun file => Message.slotsAll file.messages) = .ok references
  settleAll_eq : settleAll references = .ok settled

namespace Construction

variable {files : List FileDescriptor} (c : Construction files)

def types : Declarations FieldDescriptor :=
  c.outlined.flatMap SchemaFile.declarations

/-- The messages of the outline, at any depth. -/
def messages : List (Message FieldDescriptor) :=
  c.outlined.flatMap fun file => Message.withNestedAll file.messages

def model : Model :=
  ⟨c.outlined.map (·.mapFields (Model.typedField c.settled))⟩

theorem exists_of_build {model : Model} (h : Model.build files = .ok model) :
    ∃ c : Construction files, c.model = model := by
  obtain ⟨outlined, houtlined, h⟩ := bind_eq_ok_iff.1 h
  obtain ⟨references, hreferences, h⟩ := bind_eq_ok_iff.1 h
  obtain ⟨settled, hsettled, h⟩ := bind_eq_ok_iff.1 h
  exact ⟨⟨outlined, references, settled, houtlined, hreferences, hsettled⟩, Except.ok.inj h⟩

theorem place_inj {m m' : Message FieldDescriptor} (hm : m ∈ c.messages) (hm' : m' ∈ c.messages)
    (h : m.place = m'.place) : m = m' :=
  Model.outlined_place_inj c.outline_eq hm hm' h

theorem message_mem_types_iff (m : Message FieldDescriptor) :
    Declaration.message m ∈ c.types ↔ m ∈ c.messages :=
  Model.message_mem_declarations_iff c.outlined m

/-- A reference is that of a field of a message. -/
def Resolves (m : Message FieldDescriptor) (index : Nat) (field : FieldDescriptor) (r : Reference) :
    Prop :=
  Slot.resolve c.types ⟨⟨m.place, index⟩, m.fullName, field⟩ = .ok r

theorem Resolves.spec {c : Construction files} {m : Message FieldDescriptor} {index : Nat}
    {field : FieldDescriptor} {r : Reference} (h : c.Resolves m index field r) :
    r.id = ⟨m.place, index⟩ ∧ r.repeated = decide (field.label = .repeated) ∧
      Slot.target? c.types ⟨⟨m.place, index⟩, m.fullName, field⟩ = .ok r.target :=
  Slot.resolve_eq_ok h

theorem mem_slots_iff (slot : Slot) :
    (slot ∈ c.outlined.flatMap fun file => Message.slotsAll file.messages) ↔
      ∃ m ∈ c.messages, slot ∈ m.ownSlots :=
  Model.mem_slots_iff c.outlined slot

theorem exists_reference {m : Message FieldDescriptor} (hm : m ∈ c.messages) {index : Nat}
    {field : FieldDescriptor} (hfield : m.fields[index]? = some field) :
    ∃ r ∈ c.references, c.Resolves m index field r := by
  have hslot := (c.mem_slots_iff ⟨⟨m.place, index⟩, m.fullName, field⟩).2
    ⟨m, hm, (m.mem_ownSlots_iff _).2 ⟨index, field, hfield, rfl⟩⟩
  exact exists_answer_of_mem c.resolveAll_eq hslot

theorem exists_field {r : Reference} (hr : r ∈ c.references) :
    ∃ m ∈ c.messages, ∃ index field, m.fields[index]? = some field ∧
      c.Resolves m index field r := by
  obtain ⟨slot, hslot, hresolve⟩ := exists_of_mem_mapM c.resolveAll_eq hr
  obtain ⟨m, hm, hslot⟩ := (c.mem_slots_iff slot).1 hslot
  obtain ⟨index, field, hfield, rfl⟩ := (m.mem_ownSlots_iff slot).1 hslot
  exact ⟨m, hm, index, field, hfield, hresolve⟩

/-- The reference of a field is for one slot only, because its message has a place of its own. -/
theorem exists_field_at {r : Reference} (hr : r ∈ c.references) {m : Message FieldDescriptor}
    (hm : m ∈ c.messages) (hplace : r.id.place = m.place) :
    ∃ field, m.fields[r.id.index]? = some field ∧ c.Resolves m r.id.index field r := by
  obtain ⟨m', hm', index, field, hfield, hresolves⟩ := c.exists_field hr
  have hid := hresolves.spec.1
  obtain rfl : m' = m := c.place_inj hm' hm (by rw [← hplace, hid])
  rw [hid]
  exact ⟨field, hfield, hresolves⟩

theorem uniqueIds : UniqueIds c.references := by
  intro r hr r' hr' hid
  obtain ⟨m, hm, index, field, hfield, hresolves⟩ := c.exists_field hr
  have hplace : r'.id.place = m.place := by rw [← hid, hresolves.spec.1]
  obtain ⟨field', hfield', hresolves'⟩ := c.exists_field_at hr' hm hplace
  have hindex : r'.id.index = index := by rw [← hid, hresolves.spec.1]
  rw [hindex] at hfield' hresolves'
  obtain rfl := Option.some.inj (hfield.symm.trans hfield')
  exact Except.ok.inj (hresolves.symm.trans hresolves')

/-- A message that is referred to is declared. -/
theorem exists_message {r : Reference} (hr : r ∈ c.references) {ref : MessageRef}
    (htarget : r.target = some (.message ref)) : ∃ m ∈ c.messages, ref = m.ref := by
  rcases declared_of_resolveAll c.resolveAll_eq hr htarget with ⟨_, heq⟩ | ⟨d, hd, heq⟩
  · cases heq
  · cases d with
    | enum e => cases heq
    | message m =>
      cases heq
      exact ⟨m, (c.message_mem_types_iff m).1 hd, rfl⟩

/-- The fields of entry messages are not repeated. -/
def EntriesPlain : Prop :=
  ∀ m ∈ c.messages, m.mapEntry = true → ∀ field ∈ m.fields, field.label ≠ .repeated

variable {c}

theorem EntriesPlain.plainEntries (h : c.EntriesPlain) : PlainEntries c.references := by
  intro r hr ref hentry r' hr' hplace
  obtain ⟨htarget, _, hmap⟩ := Reference.target_of_entry? hentry
  obtain ⟨m, hm, rfl⟩ := c.exists_message hr htarget
  obtain ⟨field, hfield, hresolves⟩ := c.exists_field_at hr' hm hplace
  rw [hresolves.spec.2.1, decide_eq_false_iff_not]
  exact h m hm hmap field (List.mem_of_getElem? hfield)

/-- The type of a field of a model is the one that its reference has before anything is settled. -/
theorem EntriesPlain.lookup_settled (h : c.EntriesPlain) {m : Message FieldDescriptor}
    (hm : m ∈ c.messages) {index : Nat} {field : FieldDescriptor}
    (hfield : m.fields[index]? = some field) :
    ∃ r ∈ c.references, c.Resolves m index field r ∧ ∃ type,
      c.settled.lookup ⟨m.place, index⟩ = some type ∧ r.type c.references [] = .ok type := by
  obtain ⟨r, hr, hresolves⟩ := c.exists_reference hm hfield
  obtain ⟨type, hlookup, htype⟩ := lookup_settleAll c.uniqueIds h.plainEntries c.settleAll_eq hr
  rw [hresolves.spec.1] at hlookup
  exact ⟨r, hr, hresolves, type, hlookup, htype⟩

/-- What a map finds in a field of its entry message is what that field refers to. -/
theorem exists_of_currentTarget? {m : Message FieldDescriptor} (hm : m ∈ c.messages) {index : Nat}
    {target : Option Target}
    (h : currentTarget? c.references [] ⟨m.place, index⟩ = some target) :
    ∃ field r, m.fields[index]? = some field ∧ c.Resolves m index field r ∧ r.target = target := by
  obtain ⟨r, hfind, htarget⟩ := Option.map_eq_some_iff.1 h
  have hid : r.id = ⟨m.place, index⟩ := by simpa using List.find?_some hfind
  obtain ⟨field, hfield, hresolves⟩ :=
    c.exists_field_at (List.mem_of_find?_eq_some hfind) hm (by rw [hid])
  rw [hid] at hfield hresolves
  exact ⟨field, r, hfield, hresolves, htarget⟩

end Construction

end ProtoSchema
