import ProtoSchema.Proofs.Model.Filling
import ProtoSchema.Proofs.Model.Registration

set_option autoImplicit false

/-! # When a model can be built

Two things can keep a model from being built once the names of its files are known: a field that
names no declared type of its kind, and a map whose entries lack the key or the value. For names
that start at the root both can be told from the descriptors (`FieldDescriptor.Resolves`,
`FieldDescriptor.Complete`). A slot is resolved if and only if its field resolves
(`DistinctOutline.resolve_cases`), and the first that is not decides; settling fails only at a map
that is not complete (`settle_eq_error_iff`), whatever has been settled before. -/

namespace ProtoSchema

/-! ## Conditions on descriptors -/

namespace FieldDescriptor

/-- One of the files declares the type that a field names, of the kind that the field says. -/
def Resolves (files : List FileDescriptor) (field : FieldDescriptor) : Prop :=
  field.kind = .enum ∨ field.kind = .message →
    ∃ d ∈ files, d.Declares field.typeName.withoutDots field.kind

/-- A field of a model has been made from a descriptor. Unless it is a map, it refers to the
    declared type that the descriptor names. -/
structure FilledBy (model : Model) (field : FieldDescriptor) (filled : Field) : Prop where
  name_eq : filled.name = field.name
  target_eq : filled.type.shape ≠ .map → match field.kind with
    | .scalar type => filled.type.target? = some (.scalar type)
    | .group => filled.type.target? = none
    | .enum => ∃ e ∈ model.enums, e.fullName = field.typeName.withoutDots ∧
        filled.type.target? = some (.enum e.ref)
    | .message => ∃ m ∈ model.messages, m.fullName = field.typeName.withoutDots ∧
        filled.type.target? = some (.message m.ref)

/-- If a field is a map, its entries have two fields at least. -/
def Complete (files : List FileDescriptor) (field : FieldDescriptor) : Prop :=
  field.kind = .message → field.label = .repeated →
    ∀ d ∈ files, ∀ entry ∈ d.registered, entry.1 = field.typeName.withoutDots →
      entry.2.mapEntry = true → 2 ≤ entry.2.fields.length

instance (files : List FileDescriptor) (field : FieldDescriptor) :
    Decidable (field.Resolves files) :=
  inferInstanceAs (Decidable (_ → _))

instance (files : List FileDescriptor) (field : FieldDescriptor) :
    Decidable (field.Complete files) :=
  inferInstanceAs (Decidable (_ → _))

end FieldDescriptor

/-- Every field of the files resolves. -/
def Resolvable (files : List FileDescriptor) : Prop :=
  ∀ entry ∈ registeredFields files, entry.2.Resolves files

/-- Every map of the files is complete. -/
def MapsComplete (files : List FileDescriptor) : Prop :=
  ∀ entry ∈ registeredFields files, entry.2.Complete files

instance (files : List FileDescriptor) : Decidable (Resolvable files) :=
  List.decidableBAll _ _

instance (files : List FileDescriptor) : Decidable (MapsComplete files) :=
  List.decidableBAll _ _

/-- A field does not resolve, and all fields that are registered before it do. -/
def FirstUnresolved (files : List FileDescriptor) (owner : RawText) (field : FieldDescriptor) :
    Prop :=
  ∃ front back, registeredFields files = front ++ (owner, field) :: back ∧
    (∀ entry ∈ front, entry.2.Resolves files) ∧ ¬field.Resolves files

/-- A message of a model has been made from a registered one. -/
def Message.Fills (model : Model) (m : Message Field) (entry : RawText × MessageDescriptor) :
    Prop :=
  m.fullName = entry.1 ∧
    List.Forall₂ (FieldDescriptor.FilledBy model) entry.2.fields m.fields

/-- The messages of a model are those that its files register, with their fields filled in. -/
structure Model.FilledFrom (files : List FileDescriptor) (model : Model) : Prop where
  exists_message : ∀ d ∈ files, ∀ entry ∈ d.registered, ∃ m ∈ model.messages, m.Fills model entry
  exists_entry : ∀ m ∈ model.messages, ∃ d ∈ files, ∃ entry ∈ d.registered, m.Fills model entry

/-! ## Looking up a slot -/

namespace Slot

/-- The failure of a slot that cannot be resolved. -/
def failure (slot : Slot) : Error :=
  .unresolvedType slot.field.typeName.shown slot.owner.shown slot.field.name.shown

/-- What a slot refers to, given the declared type that its name leads to. -/
def answer (slot : Slot) : Option (Declaration FieldDescriptor) → Except Error (Option Target)
  | some d => if d.kind = slot.field.kind then .ok (some d.target) else .error slot.failure
  | none => .error slot.failure

theorem answer_eq_ok_iff (slot : Slot) (found : Option (Declaration FieldDescriptor))
    (target : Option Target) :
    slot.answer found = .ok target ↔
      ∃ d, found = some d ∧ d.kind = slot.field.kind ∧ target = some d.target := by
  cases found with
  | none => simp [answer]
  | some d =>
    by_cases hkind : d.kind = slot.field.kind
    · simp [answer, hkind, eq_comm]
    · simp [answer, hkind]

theorem answer_eq_error (slot : Slot) (found : Option (Declaration FieldDescriptor))
    (h : ∀ d, found = some d → d.kind ≠ slot.field.kind) :
    slot.answer found = .error slot.failure := by
  cases found with
  | none => rfl
  | some d => exact if_neg (h d rfl)

/-- A field of an enum or a message refers to what its name leads to. -/
theorem target?_eq (types : Declarations FieldDescriptor) {slot : Slot}
    (hkind : slot.field.kind = .enum ∨ slot.field.kind = .message) :
    slot.target? types = slot.named? types >>= slot.answer := by
  unfold target?
  rcases hkind with hkind | hkind
  all_goals
    rw [hkind]
    refine congrArg (slot.named? types >>= ·) (funext fun found => ?_)
    rcases found with _ | (e | m) <;>
      simp [answer, Declaration.kind, hkind, Declaration.target, failure, pure, Except.pure]

theorem target?_of_name (types : Declarations FieldDescriptor) {slot : Slot} {name : String}
    (hkind : slot.field.kind = .enum ∨ slot.field.kind = .message)
    (hname : slot.field.typeName = .text name) (hroot : Text.startsWith "." name = true) :
    slot.target? types = slot.answer (types.find? name) := by
  rw [target?_eq types hkind, named?_of_absolute hname hroot]
  rfl

end Slot

/-! ## Settling -/

/-- A reference makes a map, and there is no slot for the key or none for the value of its
    entries. -/
def Reference.Short (references : List Reference) (r : Reference) : Prop :=
  ∃ ref, r.entry? = some ref ∧ ∃ i < 2, ∀ r' ∈ references, r'.id ≠ ⟨ref.place, i⟩

/-- All that has been settled are slots that there are references for. -/
def Settled.Within (references : List Reference) (settled : Settled) : Prop :=
  ∀ entry ∈ settled, ∃ r ∈ references, r.id = entry.1

theorem currentTarget?_eq_none_iff {references : List Reference} {settled : Settled}
    (hsettled : settled.Within references) (id : SlotId) :
    currentTarget? references settled id = none ↔ ∀ r ∈ references, r.id ≠ id := by
  unfold currentTarget?
  cases hlookup : settled.lookup id with
  | some type =>
    obtain ⟨r, hr, hid⟩ := hsettled _ (mem_of_lookup_settled hlookup)
    simp only [reduceCtorEq, false_iff, not_forall]
    exact ⟨r, hr, fun hne => hne hid⟩
  | none => simp

theorem mapType_eq_error_iff {references : List Reference} {settled : Settled}
    (hsettled : settled.Within references) (entry : Place) (e : Error) :
    mapType references settled entry = .error e ↔
      e = .shortMapEntry ∧ ∃ i < 2, ∀ r ∈ references, r.id ≠ ⟨entry, i⟩ := by
  have hnone := currentTarget?_eq_none_iff hsettled
  have htwo : (∃ i < 2, ∀ r ∈ references, r.id ≠ ⟨entry, i⟩) ↔
      currentTarget? references settled ⟨entry, 0⟩ = none ∨
        currentTarget? references settled ⟨entry, 1⟩ = none := by
    rw [hnone, hnone]
    constructor
    · rintro ⟨i, hi, h⟩
      obtain rfl | rfl : i = 0 ∨ i = 1 := by omega
      · exact .inl h
      · exact .inr h
    · rintro (h | h)
      · exact ⟨0, by decide, h⟩
      · exact ⟨1, by decide, h⟩
  rw [htwo]
  unfold mapType
  cases currentTarget? references settled ⟨entry, 0⟩ <;>
    cases currentTarget? references settled ⟨entry, 1⟩ <;> simp [eq_comm]

/-- Whether a type can be settled does not hang on what has been settled before. -/
theorem Reference.type_eq_error_iff {references : List Reference} {settled : Settled}
    (hsettled : settled.Within references) (r : Reference) (e : Error) :
    r.type references settled = .error e ↔ e = .shortMapEntry ∧ r.Short references := by
  rw [Reference.type_eq, Reference.Short]
  cases r.entry? with
  | none => simp
  | some ref => simpa using mapType_eq_error_iff hsettled ref.place e

/-- Settling fails if and only if one of the references makes a short map. -/
theorem settle_eq_error_iff {references rest : List Reference} {settled : Settled}
    (hsettled : settled.Within references) (hrest : rest ⊆ references) (e : Error) :
    settle references rest settled = .error e ↔
      e = .shortMapEntry ∧ ∃ r ∈ rest, r.Short references := by
  induction rest generalizing settled with
  | nil => simp [settle]
  | cons r rest ih =>
    have hr : r ∈ references := hrest List.mem_cons_self
    have hnext : ∀ type, Settled.Within references ((r.id, type) :: settled) := by
      intro type entry hentry
      rcases List.mem_cons.1 hentry with rfl | hentry
      · exact ⟨r, hr, rfl⟩
      · exact hsettled entry hentry
    rw [settle, bind_eq_error_iff, Reference.type_eq_error_iff hsettled]
    simp only [ih (hnext _) (List.subset_of_cons_subset hrest), List.mem_cons, exists_eq_or_imp]
    constructor
    · rintro (⟨he, hshort⟩ | ⟨_, _, he, hshort⟩)
      · exact ⟨he, .inl hshort⟩
      · exact ⟨he, .inr hshort⟩
    · rintro ⟨he, hshort | hshort⟩
      · exact .inl ⟨he, hshort⟩
      · cases htype : r.type references settled with
        | error e' => exact .inl ⟨he, ((Reference.type_eq_error_iff hsettled r e').1 htype).2⟩
        | ok type => exact .inr ⟨type, rfl, he, hshort⟩

/-- A settled type has been computed for the reference of its slot. -/
theorem exists_of_mem_settle {references rest : List Reference} {settled result : Settled}
    (h : settle references rest settled = .ok result) {id : SlotId} {type : FieldType}
    (hmem : (id, type) ∈ result) :
    (id, type) ∈ settled ∨
      ∃ r ∈ rest, r.id = id ∧ ∃ before, r.type references before = .ok type := by
  induction rest generalizing settled with
  | nil =>
    obtain rfl := Except.ok.inj h
    exact .inl hmem
  | cons r rest ih =>
    obtain ⟨type', htype', h⟩ := bind_eq_ok_iff.1 h
    rcases ih h with hmem | ⟨r', hr', hr'type⟩
    · rcases List.mem_cons.1 hmem with heq | hmem
      · cases heq
        exact .inr ⟨r, List.mem_cons_self, rfl, settled, htype'⟩
      · exact .inl hmem
    · exact .inr ⟨r', List.mem_cons_of_mem _ hr', hr'type⟩

/-! ## Outlines with distinct full names -/

/-- Files with decoded names have an outline. -/
theorem Model.exists_outline {files : List FileDescriptor}
    (h : ∀ d ∈ files, d.name.isUndecodable = false) :
    ∃ outlined, Model.outline files = .ok outlined := by
  cases houtline : Model.outline files with
  | ok outlined => exact ⟨outlined, rfl⟩
  | error e =>
    obtain ⟨result, hresult, hfail⟩ := exists_of_mapM_eq_error houtline
    obtain ⟨i, hi, rfl⟩ := List.mem_mapIdx.1 hresult
    have hname := h _ (List.getElem_mem hi)
    unfold FileDescriptor.outline at hfail
    split at hfail
    · cases hfail
    · next bytes hbytes =>
      rw [hbytes] at hname
      cases hname

/-- The outline of some files, no two types of which have the same full name. -/
structure DistinctOutline (files : List FileDescriptor)
    (outlined : List (SchemaFile FieldDescriptor)) : Prop where
  outline_eq : Model.outline files = .ok outlined
  nodup : (files.flatMap FileDescriptor.typeNames).Nodup

namespace DistinctOutline

variable {files : List FileDescriptor} {outlined : List (SchemaFile FieldDescriptor)}
  (h : DistinctOutline files outlined)

include h

theorem find?_eq_some_iff (name : String) (d : Declaration FieldDescriptor) :
    Declarations.find? (outlined.flatMap SchemaFile.declarations) name = some d ↔
      d ∈ outlined.flatMap SchemaFile.declarations ∧
        d.fullName = RawText.withoutDots (.text name) := by
  refine Declarations.find?_eq_some_iff ?_ name d
  rw [Model.fullNames_declarations h.outline_eq]
  exact h.nodup

/-- A slot is resolved if its field resolves, and fails otherwise. -/
theorem resolve_cases {slot : Slot} (habsolute : slot.field.Absolute) :
    (slot.field.Resolves files ∧
      ∃ r, slot.resolve (outlined.flatMap SchemaFile.declarations) = .ok r) ∨
    (¬slot.field.Resolves files ∧
      slot.resolve (outlined.flatMap SchemaFile.declarations) = .error slot.failure) := by
  by_cases hkind : slot.field.kind = .enum ∨ slot.field.kind = .message
  · obtain ⟨name, hname, hroot⟩ := habsolute hkind
    have htarget := Slot.target?_of_name (outlined.flatMap SchemaFile.declarations) hkind hname
      hroot
    have hdeclared :=
      Model.exists_declaration_iff h.outline_eq slot.field.typeName.withoutDots slot.field.kind
    by_cases hfound : ∃ d ∈ files, d.Declares slot.field.typeName.withoutDots slot.field.kind
    · obtain ⟨d, hd, hdkind, hdname⟩ := hdeclared.2 hfound
      rw [hname] at hdname
      rw [(h.find?_eq_some_iff name d).2 ⟨hd, hdname⟩] at htarget
      have hanswer := (slot.answer_eq_ok_iff (some d) _).2 ⟨d, rfl, hdkind, rfl⟩
      exact .inl ⟨fun _ => hfound, _, bind_eq_ok_iff.2 ⟨_, htarget.trans hanswer, rfl⟩⟩
    · refine .inr ⟨fun hresolves => hfound (hresolves hkind), ?_⟩
      refine bind_eq_error_iff.2 (.inl (htarget.trans (slot.answer_eq_error _ ?_)))
      intro d hd hdkind
      obtain ⟨hmem, hdname⟩ := (h.find?_eq_some_iff name d).1 hd
      rw [← hname] at hdname
      exact hfound (hdeclared.1 ⟨d, hmem, hdkind, hdname⟩)
  · refine .inl ⟨fun hreference => absurd hreference hkind, ?_⟩
    cases hscalar : slot.field.kind with
    | scalar type =>
      refine ⟨_, bind_eq_ok_iff.2 ⟨some (.scalar type), ?_, rfl⟩⟩
      simp only [Slot.target?, hscalar]
    | group =>
      refine ⟨_, bind_eq_ok_iff.2 ⟨none, ?_, rfl⟩⟩
      simp only [Slot.target?, hscalar]
    | message => exact absurd (.inr hscalar) hkind
    | enum => exact absurd (.inl hscalar) hkind

/-- What a resolved slot refers to, by the kind of its field. -/
theorem target_of_resolve {slot : Slot} (habsolute : slot.field.Absolute) {r : Reference}
    (hr : slot.resolve (outlined.flatMap SchemaFile.declarations) = .ok r) :
    match slot.field.kind with
    | .scalar type => r.target = some (.scalar type)
    | .group => r.target = none
    | kind => ∃ d ∈ outlined.flatMap SchemaFile.declarations, d.kind = kind ∧
        d.fullName = slot.field.typeName.withoutDots ∧ r.target = some d.target := by
  have htarget := (Slot.resolve_eq_ok hr).2.2
  have hnamed : slot.field.kind = .enum ∨ slot.field.kind = .message →
      ∃ d ∈ outlined.flatMap SchemaFile.declarations, d.kind = slot.field.kind ∧
        d.fullName = slot.field.typeName.withoutDots ∧ r.target = some d.target := by
    intro hkind
    obtain ⟨name, hname, hroot⟩ := habsolute hkind
    rw [Slot.target?_of_name _ hkind hname hroot, Slot.answer_eq_ok_iff] at htarget
    obtain ⟨d, hd, hdkind, hdtarget⟩ := htarget
    obtain ⟨hmem, hdname⟩ := (h.find?_eq_some_iff name d).1 hd
    exact ⟨d, hmem, hdkind, by rw [hname, hdname], hdtarget⟩
  cases hkind : slot.field.kind with
  | scalar type =>
    simp only [Slot.target?, hkind] at htarget
    exact (Except.ok.inj htarget).symm
  | group =>
    simp only [Slot.target?, hkind] at htarget
    exact (Except.ok.inj htarget).symm
  | message => simpa only [hkind] using hnamed (.inr hkind)
  | enum => simpa only [hkind] using hnamed (.inl hkind)

/-- The field of a slot is a map if and only if it is a list of the entries that it names. -/
theorem entry?_eq_some_iff {slot : Slot} (habsolute : slot.field.Absolute) {r : Reference}
    (hr : slot.resolve (outlined.flatMap SchemaFile.declarations) = .ok r) (ref : MessageRef) :
    r.entry? = some ref ↔ slot.field.kind = .message ∧ slot.field.label = .repeated ∧
      ∃ m ∈ outlined.flatMap fun file => Message.withNestedAll file.messages,
        m.fullName = slot.field.typeName.withoutDots ∧ m.mapEntry = true ∧ m.ref = ref := by
  have hdeclared := Model.message_mem_declarations_iff outlined
  have hrepeated := (Slot.resolve_eq_ok hr).2.1
  have htarget := h.target_of_resolve habsolute hr
  constructor
  · intro hentry
    obtain ⟨hmessage, hmany, hmap⟩ := Reference.target_of_entry? hentry
    rw [hmany] at hrepeated
    rw [hmessage] at htarget
    -- only the field of a message refers to a message
    cases hkind : slot.field.kind with
    | scalar type => simp [hkind] at htarget
    | group => simp [hkind] at htarget
    | enum =>
      rw [hkind] at htarget
      obtain ⟨_ | m, _, hdkind, _, hdtarget⟩ := htarget
      · cases hdtarget
      · cases hdkind
    | message =>
      rw [hkind] at htarget
      obtain ⟨_ | m, hd, hdkind, hname, hdtarget⟩ := htarget
      · cases hdkind
      · obtain rfl := Target.message.inj (Option.some.inj hdtarget)
        exact ⟨rfl, of_decide_eq_true hrepeated.symm, m, (hdeclared m).1 hd, hname, hmap, rfl⟩
  · rintro ⟨hkind, hlabel, m, hm, hname, hmap, rfl⟩
    obtain ⟨name, htext, hroot⟩ := habsolute (.inr hkind)
    rw [htext] at hname
    have hfind := (h.find?_eq_some_iff name (.message m)).2 ⟨(hdeclared m).2 hm, hname⟩
    have hmessage := (Slot.resolve_eq_ok hr).2.2
    rw [Slot.target?_of_name _ (.inr hkind) htext hroot, hfind, Slot.answer_eq_ok_iff] at hmessage
    obtain ⟨_, heq, _, hmessage⟩ := hmessage
    obtain rfl := Option.some.inj heq
    have hentry : m.ref.mapEntry = true := hmap
    simp [Reference.entry?, hrepeated, hlabel, hmessage, Declaration.target, Target.message?,
      Option.filter, hentry]

/-- There are slots for the fields of a message and no others. -/
theorem exists_slot_iff {m : Message FieldDescriptor}
    (hm : m ∈ outlined.flatMap fun file => Message.withNestedAll file.messages) (i : Nat) :
    (∃ slot ∈ outlined.flatMap fun file => Message.slotsAll file.messages,
      slot.id = ⟨m.place, i⟩) ↔ i < m.fields.length := by
  constructor
  · rintro ⟨slot, hslot, hid⟩
    obtain ⟨m', hm', hslot⟩ := (Model.mem_slots_iff outlined slot).1 hslot
    obtain ⟨index, field, hfield, rfl⟩ := (m'.mem_ownSlots_iff slot).1 hslot
    obtain ⟨hplace, rfl⟩ := SlotId.mk.inj hid
    rw [Model.outlined_place_inj h.outline_eq hm' hm hplace] at hfield
    exact (List.getElem?_eq_some_iff.1 hfield).1
  · intro hi
    exact ⟨_, (Model.mem_slots_iff outlined _).2 ⟨m, hm, (m.mem_ownSlots_iff _).2
      ⟨i, _, List.getElem?_eq_getElem hi, rfl⟩⟩, rfl⟩

section Resolved

variable {references : List Reference}
  (hreferences : resolveAll (outlined.flatMap SchemaFile.declarations)
    (outlined.flatMap fun file => Message.slotsAll file.messages) = .ok references)

include hreferences

theorem exists_reference_iff {m : Message FieldDescriptor}
    (hm : m ∈ outlined.flatMap fun file => Message.withNestedAll file.messages) (i : Nat) :
    (∃ r ∈ references, r.id = ⟨m.place, i⟩) ↔ i < m.fields.length := by
  rw [← h.exists_slot_iff hm]
  constructor
  · rintro ⟨r, hr, hid⟩
    obtain ⟨slot, hslot, hresolve⟩ := exists_of_mem_mapM hreferences hr
    exact ⟨slot, hslot, (Slot.resolve_eq_ok hresolve).1.symm.trans hid⟩
  · rintro ⟨slot, hslot, hid⟩
    obtain ⟨r, hr, hresolve⟩ := exists_answer_of_mem hreferences hslot
    exact ⟨r, hr, (Slot.resolve_eq_ok hresolve).1.trans hid⟩

/-- A reference makes a short map if and only if its field is a map that is not complete. -/
theorem short_iff {slot : Slot} (habsolute : slot.field.Absolute) {r : Reference}
    (hr : slot.resolve (outlined.flatMap SchemaFile.declarations) = .ok r) :
    r.Short references ↔ ¬slot.field.Complete files := by
  simp only [Reference.Short, h.entry?_eq_some_iff habsolute hr, FieldDescriptor.Complete,
    not_forall, Nat.not_le]
  constructor
  · rintro ⟨_, ⟨hkind, hlabel, m, hm, hname, hmap, rfl⟩, i, hi, hnone⟩
    obtain ⟨d, hd, entry, hentry, hprofile⟩ :=
      (Model.mem_profiles_iff h.outline_eq m.profile).1 ⟨m, hm, rfl⟩
    have hfields : entry.2.fields = m.fields := congrArg Profile.fields hprofile
    have hlength : m.fields.length ≤ i := by
      refine Nat.not_lt.1 fun hlt => ?_
      obtain ⟨r', hr', hid⟩ := (h.exists_reference_iff hreferences hm i).2 hlt
      exact hnone r' hr' hid
    refine ⟨hkind, hlabel, d, hd, entry, hentry, (congrArg Profile.fullName hprofile).trans hname,
      (congrArg Profile.mapEntry hprofile).trans hmap, ?_⟩
    rw [hfields]
    exact Nat.lt_of_le_of_lt hlength hi
  · rintro ⟨hkind, hlabel, d, hd, entry, hentry, hname, hmap, hlength⟩
    obtain ⟨m, hm, hprofile⟩ :=
      (Model.mem_profiles_iff h.outline_eq _).2 ⟨d, hd, entry, hentry, rfl⟩
    have hfields : m.fields = entry.2.fields := congrArg Profile.fields hprofile
    rw [← hfields] at hlength
    refine ⟨m.ref, ⟨hkind, hlabel, m, hm, (congrArg Profile.fullName hprofile).trans hname,
      (congrArg Profile.mapEntry hprofile).trans hmap, rfl⟩, m.fields.length, hlength, ?_⟩
    intro r' hr' hid
    exact Nat.lt_irrefl _ ((h.exists_reference_iff hreferences hm _).1 ⟨r', hr', hid⟩)

/-- Settling fails if and only if a map is not complete. -/
theorem settleAll_eq_error_iff (habsolute : ∀ entry ∈ registeredFields files, entry.2.Absolute)
    (e : Error) :
    settleAll references = .error e ↔ e = .shortMapEntry ∧ ¬MapsComplete files := by
  have hslots := Model.map_slots h.outline_eq
  rw [settleAll, settle_eq_error_iff (by simp [Settled.Within]) (List.Subset.refl _)]
  refine and_congr_right fun _ => ?_
  simp only [MapsComplete, not_forall]
  constructor
  · rintro ⟨r, hr, hshort⟩
    obtain ⟨slot, hslot, hresolve⟩ := exists_of_mem_mapM hreferences hr
    have hmem := Model.registered_mem h.outline_eq hslot
    exact ⟨_, hmem, (h.short_iff hreferences (habsolute _ hmem) hresolve).1 hshort⟩
  · rintro ⟨entry, hentry, hincomplete⟩
    have hmem := hentry
    rw [← hslots] at hmem
    obtain ⟨slot, hslot, rfl⟩ := List.mem_map.1 hmem
    obtain ⟨r, hr, hresolve⟩ := exists_answer_of_mem hreferences hslot
    exact ⟨r, hr, (h.short_iff hreferences (habsolute _ hentry) hresolve).2 hincomplete⟩

end Resolved

/-- All slots are resolved, or the first field that does not resolve is reported. -/
theorem resolveAll_cases (habsolute : ∀ entry ∈ registeredFields files, entry.2.Absolute) :
    (Resolvable files ∧ ∃ references, resolveAll (outlined.flatMap SchemaFile.declarations)
      (outlined.flatMap fun file => Message.slotsAll file.messages) = .ok references) ∨
    (∃ owner field, FirstUnresolved files owner field ∧
      resolveAll (outlined.flatMap SchemaFile.declarations)
        (outlined.flatMap fun file => Message.slotsAll file.messages) =
        .error (.unresolvedType field.typeName.shown owner.shown field.name.shown)) := by
  have hslots := Model.map_slots h.outline_eq
  have hresolves : ∀ slot ∈ outlined.flatMap fun file => Message.slotsAll file.messages,
      ∀ r, slot.resolve (outlined.flatMap SchemaFile.declarations) = .ok r →
        slot.field.Resolves files := by
    intro slot hslot r hr
    have hmem := Model.registered_mem h.outline_eq hslot
    rcases h.resolve_cases (habsolute _ hmem) with ⟨hresolves, _⟩ | ⟨_, herror⟩
    · exact hresolves
    · cases herror.symm.trans hr
  cases hresult : resolveAll (outlined.flatMap SchemaFile.declarations)
      (outlined.flatMap fun file => Message.slotsAll file.messages) with
  | ok references =>
    refine .inl ⟨fun entry hentry => ?_, references, rfl⟩
    rw [← hslots] at hentry
    obtain ⟨slot, hslot, rfl⟩ := List.mem_map.1 hentry
    obtain ⟨r, _, hr⟩ := exists_answer_of_mem hresult hslot
    exact hresolves slot hslot r hr
  | error e =>
    obtain ⟨front, slot, back, hsplit, ⟨answers, hfront⟩, hslot⟩ := mapM_eq_error_iff.1 hresult
    rw [hsplit] at hslots hresolves
    have hmem : slot.registered ∈ registeredFields files := by
      rw [← hslots]
      simp
    rcases h.resolve_cases (habsolute _ hmem) with ⟨_, r, hr⟩ | ⟨hnot, herror⟩
    · cases hslot.symm.trans hr
    · obtain rfl := Except.error.inj (hslot.symm.trans herror)
      refine .inr ⟨slot.owner, slot.field, ⟨front.map Slot.registered, back.map Slot.registered,
        ?_, ?_, hnot⟩, rfl⟩
      · rw [← hslots, List.map_append, List.map_cons]
        rfl
      · intro entry hentry
        obtain ⟨slot', hslot', rfl⟩ := List.mem_map.1 hentry
        obtain ⟨r, _, hr⟩ := exists_answer_of_mem hfront hslot'
        exact hresolves slot' (List.mem_append_left _ hslot') r hr

end DistinctOutline

/-! ## Filled-in fields -/

theorem shape_of_mapType {references : List Reference} {settled : Settled} {entry : Place}
    {type : FieldType} (h : mapType references settled entry = .ok type) : type.shape = .map := by
  unfold mapType at h
  split at h
  · obtain rfl := Except.ok.inj h
    rfl
  · cases h

namespace Construction

variable {files : List FileDescriptor} (c : Construction files)

theorem distinctOutline (hnodup : (files.flatMap FileDescriptor.typeNames).Nodup) :
    DistinctOutline files c.outlined :=
  ⟨c.outline_eq, hnodup⟩

theorem mem_model_messages {m : Message FieldDescriptor} (hm : m ∈ c.messages) :
    m.mapFields (Model.typedField c.settled) ∈ c.model.messages := by
  obtain ⟨file, hfile, hm⟩ := List.mem_flatMap.1 hm
  exact (Model.mem_messages_mapFields_iff _ _ _).2 ⟨file, hfile, m, hm, rfl⟩

theorem mem_model_enums {e : Enum} (he : Declaration.enum e ∈ c.types) : e ∈ c.model.enums := by
  obtain ⟨file, hfile, he⟩ := List.mem_flatMap.1 he
  refine List.mem_flatMap.2 ⟨_, List.mem_map_of_mem hfile, ?_⟩
  rw [SchemaFile.allEnums_mapFields]
  exact SchemaFile.mem_allEnums_of_declared he

/-- A field that is no map refers to what its reference does. -/
theorem target?_typedField {m : Message FieldDescriptor} (hm : m ∈ c.messages) {index : Nat}
    {field : FieldDescriptor} (hfield : m.fields[index]? = some field)
    (hshape : (Model.typedField c.settled m.place index field).type.shape ≠ .map) :
    ∃ r, c.Resolves m index field r ∧
      (Model.typedField c.settled m.place index field).type.target? = r.target := by
  obtain ⟨r, hr, hresolves⟩ := c.exists_reference hm hfield
  obtain ⟨type, hlookup⟩ := Option.isSome_iff_exists.1
    (lookup_settle c.settleAll_eq (.inr ⟨r, hr, hresolves.spec.1⟩))
  have hfilled : (Model.typedField c.settled m.place index field).type = type := by
    simp [Model.typedField, hlookup]
  rw [hfilled] at hshape ⊢
  rcases exists_of_mem_settle c.settleAll_eq (mem_of_lookup_settled hlookup) with
    hmem | ⟨r', hr', hid, before, htype⟩
  · simp at hmem
  · obtain rfl := c.uniqueIds r' hr' r hr (hid.trans hresolves.spec.1.symm)
    rw [Reference.type_eq] at htype
    split at htype
    · exact absurd (shape_of_mapType htype) hshape
    · obtain rfl := Except.ok.inj htype
      exact ⟨r', hresolves, r'.target?_plainType⟩

/-- The fields of a message are filled in one by one. -/
theorem filledBy (hnodup : (files.flatMap FileDescriptor.typeNames).Nodup)
    {m : Message FieldDescriptor} (hm : m ∈ c.messages) {index : Nat} {field : FieldDescriptor}
    (hfield : m.fields[index]? = some field) (habsolute : field.Absolute) :
    field.FilledBy c.model (Model.typedField c.settled m.place index field) := by
  refine ⟨rfl, fun hshape => ?_⟩
  obtain ⟨r, hresolves, htype⟩ := c.target?_typedField hm hfield hshape
  have htarget := (c.distinctOutline hnodup).target_of_resolve habsolute hresolves
  rw [htype]
  cases hkind : field.kind with
  | scalar type => simpa only [hkind] using htarget
  | group => simpa only [hkind] using htarget
  | enum =>
    simp only [hkind] at htarget
    obtain ⟨e | _, hd, hdkind, hname, hdtarget⟩ := htarget
    · exact ⟨e, c.mem_model_enums hd, hname, hdtarget⟩
    · cases hdkind
  | message =>
    simp only [hkind] at htarget
    obtain ⟨_ | t, hd, hdkind, hname, hdtarget⟩ := htarget
    · cases hdkind
    · refine ⟨_, c.mem_model_messages ((c.message_mem_types_iff t).1 hd), ?_, ?_⟩
      · rw [Message.fullName_mapFields]
        exact hname
      · rw [Message.ref_mapFields]
        exact hdtarget

theorem fills (hnodup : (files.flatMap FileDescriptor.typeNames).Nodup)
    (habsolute : ∀ entry ∈ registeredFields files, entry.2.Absolute)
    {m : Message FieldDescriptor} (hm : m ∈ c.messages) {d : FileDescriptor} (hd : d ∈ files)
    {entry : RawText × MessageDescriptor} (hentry : entry ∈ d.registered)
    (hprofile : MessageDescriptor.profile entry = m.profile) :
    (m.mapFields (Model.typedField c.settled)).Fills c.model entry := by
  have hfields : entry.2.fields = m.fields := congrArg Profile.fields hprofile
  constructor
  · rw [Message.fullName_mapFields]
    exact (congrArg Profile.fullName hprofile).symm
  · rw [Message.fields_mapFields, hfields, List.forall₂_iff_get]
    refine ⟨List.length_mapIdx.symm, fun i hi hi' => ?_⟩
    simp only [List.get_eq_getElem, List.getElem_mapIdx]
    refine c.filledBy hnodup hm (List.getElem?_eq_getElem hi) (habsolute (entry.1, _) ?_)
    refine (mem_registeredFields_iff files _ _).2 ⟨d, hd, entry.2, hentry, ?_⟩
    rw [hfields]
    exact List.getElem_mem hi

theorem filledFrom (hnodup : (files.flatMap FileDescriptor.typeNames).Nodup)
    (habsolute : ∀ entry ∈ registeredFields files, entry.2.Absolute) :
    c.model.FilledFrom files := by
  constructor
  · intro d hd entry hentry
    obtain ⟨m, hm, hprofile⟩ :=
      (Model.mem_profiles_iff c.outline_eq _).2 ⟨d, hd, entry, hentry, rfl⟩
    exact ⟨_, c.mem_model_messages hm, c.fills hnodup habsolute hm hd hentry hprofile.symm⟩
  · intro m hm
    obtain ⟨file, hfile, x, hx, rfl⟩ := (Model.mem_messages_mapFields_iff _ _ _).1 hm
    have hx : x ∈ c.messages := List.mem_flatMap.2 ⟨file, hfile, hx⟩
    obtain ⟨d, hd, entry, hentry, hprofile⟩ :=
      (Model.mem_profiles_iff c.outline_eq x.profile).1 ⟨x, hx, rfl⟩
    exact ⟨d, hd, entry, hentry, c.fills hnodup habsolute hx hd hentry hprofile⟩

end Construction

/-! ## Outcomes -/

/-- **When a model can be built.** Files have names, all their references start at the root, and no
    two types have the same full name. Then a model can be built if and only if every field resolves
    and every map is complete, and each field of the model that is no map refers to the type that
    its descriptor names. If some field does not resolve, the first in the order of registration is
    reported. A short map is reported only if there is no such field. -/
theorem Model.build_fails_at_first_unresolved {files : List FileDescriptor}
    (hnames : ∀ d ∈ files, d.name.isUndecodable = false)
    (habsolute : ∀ entry ∈ registeredFields files, entry.2.Absolute)
    (hnodup : (files.flatMap FileDescriptor.typeNames).Nodup) :
    ((∃ model, Model.build files = .ok model) ↔ Resolvable files ∧ MapsComplete files) ∧
      (∀ model, Model.build files = .ok model → model.FilledFrom files) ∧
      (¬Resolvable files → ∃ owner field, FirstUnresolved files owner field ∧
        Model.build files =
          .error (.unresolvedType field.typeName.shown owner.shown field.name.shown)) ∧
      (Model.build files = .error .shortMapEntry ↔ Resolvable files ∧ ¬MapsComplete files) := by
  have hfilled : ∀ model, Model.build files = .ok model → model.FilledFrom files := by
    intro model hmodel
    obtain ⟨c, rfl⟩ := Construction.exists_of_build hmodel
    exact c.filledFrom hnodup habsolute
  obtain ⟨outlined, houtline⟩ := Model.exists_outline hnames
  have h : DistinctOutline files outlined := ⟨houtline, hnodup⟩
  rcases h.resolveAll_cases habsolute with ⟨hresolvable, references, hreferences⟩ |
    ⟨owner, field, hfirst, herror⟩
  · have hsettle := h.settleAll_eq_error_iff hreferences habsolute
    cases hsettled : settleAll references with
    | ok settled =>
      have hcomplete : MapsComplete files := by
        by_contra hnot
        cases hsettled.symm.trans ((hsettle .shortMapEntry).2 ⟨rfl, hnot⟩)
      have hbuild :=
        Construction.build_eq ⟨outlined, references, settled, houtline, hreferences, hsettled⟩
      refine ⟨?_, hfilled, fun hnot => absurd hresolvable hnot, ?_⟩
      · simp [hbuild, hresolvable, hcomplete]
      · simp [hbuild, hcomplete]
    | error e =>
      obtain ⟨rfl, hcomplete⟩ := (hsettle e).1 hsettled
      have hbuild : Model.build files = .error .shortMapEntry := by
        rw [Model.build, bind_eq_error_iff]
        exact .inr ⟨outlined, houtline, bind_eq_error_iff.2 (.inr ⟨references, hreferences,
          bind_eq_error_iff.2 (.inl hsettled)⟩)⟩
      refine ⟨?_, hfilled, fun hnot => absurd hresolvable hnot, ?_⟩
      · simp [hbuild, hcomplete]
      · simp [hbuild, hresolvable, hcomplete]
  · have hbuild : Model.build files =
        .error (.unresolvedType field.typeName.shown owner.shown field.name.shown) := by
      rw [Model.build, bind_eq_error_iff]
      exact .inr ⟨outlined, houtline, bind_eq_error_iff.2 (.inl herror)⟩
    have hnot : ¬Resolvable files := by
      obtain ⟨front, back, hsplit, _, hfield⟩ := hfirst
      intro hresolvable
      refine hfield (hresolvable (owner, field) ?_)
      rw [hsplit]
      simp
    refine ⟨?_, hfilled, fun _ => ⟨owner, field, hfirst, hbuild⟩, ?_⟩
    · simp [hbuild, hnot]
    · simp [hbuild, hnot]

/-- Two fields name types that only another file declares. Without that file the field of the nested
    message is reported, with it a model is built. -/
theorem Model.build_of_orders_fails_at_lines :
    let price : FieldDescriptor := { name := "price", kind := .message, typeName := ".shop.Price" }
    let total : FieldDescriptor := { name := "total", kind := .message, typeName := ".shop.Money" }
    let order : FileDescriptor :=
      { name := "order.proto", package := "shop", messages :=
        [{ name := "Order", fields := [total],
           messages := [{ name := "Line", fields := [price] }] }] }
    let money : FileDescriptor :=
      { name := "money.proto", package := "shop",
        messages := [{ name := "Money" }, { name := "Price" }] }
    FirstUnresolved [order] "shop.Order.Line" price ∧
      Model.build [order] = .error (.unresolvedType ".shop.Price" "shop.Order.Line" "price") ∧
      ∃ model, Model.build [order, money] = .ok model ∧ model.FilledFrom [order, money] := by
  intro price total order money
  have habsolute : ∀ entry ∈ [(RawText.text "shop.Order.Line", price), (.text "shop.Order", total)],
      entry.2.Absolute := by
    simp only [List.forall_mem_cons, List.not_mem_nil, false_imp_iff, implies_true, and_true]
    exact ⟨fun _ => ⟨_, rfl, by decide⟩, fun _ => ⟨_, rfl, by decide⟩⟩
  have hfails := @Model.build_fails_at_first_unresolved [order] (by decide) habsolute (by decide)
  have hbuilds := @Model.build_fails_at_first_unresolved [order, money] (by decide) habsolute
    (by decide)
  obtain ⟨owner, field, hfirst, hbuild⟩ := hfails.2.2.1 (by decide)
  obtain ⟨model, hmodel⟩ := hbuilds.1.2 (by decide)
  have hprice : owner = "shop.Order.Line" ∧ field = price := by
    obtain ⟨front, back, hsplit, hfront, _⟩ := hfirst
    cases front with
    | nil => exact Prod.mk.inj (List.cons.inj hsplit).1.symm
    | cons first front =>
      obtain rfl := (List.cons.inj hsplit).1
      exact absurd (hfront _ List.mem_cons_self) (by decide)
  obtain ⟨rfl, rfl⟩ := hprice
  exact ⟨hfirst, hbuild, model, hmodel, hbuilds.2.1 model hmodel⟩

/-- Names that cannot be decoded stop a model, although every field resolves: the name of a file,
    and a reference to a message that starts with the byte of a dot. -/
theorem Model.build_stopped_by_undecodable_names :
    let unnamed : List FileDescriptor := [{ name := .undecodable [255] }]
    let node : List FileDescriptor :=
      [{ name := "node.proto", messages := [{ name := .undecodable [255], fields :=
        [{ name := "self", kind := .message, typeName := .undecodable [46, 255] }] }] }]
    (registeredFields unnamed = [] ∧ (unnamed.flatMap FileDescriptor.typeNames).Nodup ∧
      Resolvable unnamed ∧ MapsComplete unnamed ∧
      Model.build unnamed = .error (.undecodableText .ending)) ∧
    ((node.flatMap FileDescriptor.typeNames).Nodup ∧ Resolvable node ∧ MapsComplete node ∧
      Model.build node = .error (.undecodableText .cut)) := by
  intro unnamed node
  exact ⟨⟨rfl, by decide, by decide, by decide, rfl⟩, by decide, by decide, by decide, by rfl⟩

end ProtoSchema
