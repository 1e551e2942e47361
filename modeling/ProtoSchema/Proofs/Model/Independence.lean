import ProtoSchema.Proofs.Model.Catalog

set_option autoImplicit false

/-! # A file of a model does not hang on the other files

Two models are built, from files of which those of the first are all among those of the second. The
places of messages differ between them, since places count files; apart from places, a file that is
in both comes out the same (`Construction.unplaced_file`). The reason is that an absolute name finds
the same declaration in both (`Construction.exists_find?`), because the second model has only one
declaration of each full name.

Places are used to tell messages apart. Within a file, and for what its fields refer to, full names
do that as well (`Model.exists_files`). -/

namespace ProtoSchema

/-! ## Without places -/

/-- The place that stands for all others. -/
def Place.origin : Place := ⟨0, []⟩

def MessageRef.unplaced (ref : MessageRef) : MessageRef :=
  { ref with place := .origin }

def Target.unplaced : Target → Target
  | message ref => message ref.unplaced
  | target => target

def FieldType.unplaced : FieldType → FieldType
  | unknown => unknown
  | single target => single target.unplaced
  | list target => list target.unplaced
  | map key value => map key (value.map Target.unplaced)

def Field.unplaced (field : Field) : Field :=
  { field with type := field.type.unplaced }

mutual

/-- A message without its place, those nested in it and those its fields refer to. -/
def Message.unplaced : Message Field → Message Field
  | ⟨name, fullName, file, _, fields, enums, messages, deprecated, mapEntry⟩ =>
    ⟨name, fullName, file, .origin, fields.map Field.unplaced, enums,
      Message.unplacedAll messages, deprecated, mapEntry⟩

def Message.unplacedAll : List (Message Field) → List (Message Field)
  | [] => []
  | m :: ms => m.unplaced :: Message.unplacedAll ms

end

def SchemaFile.unplaced (file : SchemaFile Field) : SchemaFile Field :=
  { file with messages := Message.unplacedAll file.messages }

/-! ## Declarations -/

/-- The fields of a declared message. -/
def Declaration.fields : Declaration FieldDescriptor → List FieldDescriptor
  | enum _ => []
  | message m => m.fields

/-- What a reference to a declared type sees of it, apart from its place. -/
def Declaration.signature (d : Declaration FieldDescriptor) : Target × List FieldDescriptor :=
  (d.target.unplaced, d.fields)

theorem Declaration.fullName_of_signature {d d' : Declaration FieldDescriptor}
    (h : d.signature = d'.signature) : d.fullName = d'.fullName := by
  have htarget := congrArg Prod.fst h
  cases d with
  | enum e =>
    cases d' with
    | enum e' =>
      have href : e.ref = e'.ref := Target.enum.inj htarget
      exact congrArg EnumRef.fullName href
    | message m' => cases htarget
  | message m =>
    cases d' with
    | enum e' => cases htarget
    | message m' =>
      have href : m.ref.unplaced = m'.ref.unplaced := Target.message.inj htarget
      exact congrArg MessageRef.fullName href

mutual

theorem MessageDescriptor.signature_outline (scope : RawText) (file : String)
    (place place' : Place) : (d : MessageDescriptor) →
      (d.outline scope file place).declarations.map Declaration.signature =
        (d.outline scope file place').declarations.map Declaration.signature
  | ⟨name, fields, messages, enums, deprecated, mapEntry⟩ => by
    simp only [MessageDescriptor.outline, Message.declarations, List.cons_append, List.map_cons,
      List.map_append]
    rw [MessageDescriptor.signature_outlineAll (qualify scope name) file place place' 0 messages]
    rfl

/-- The place of a message has no influence on what is declared. -/
theorem MessageDescriptor.signature_outlineAll (scope : RawText) (file : String)
    (place place' : Place) (index : Nat) : (ds : List MessageDescriptor) →
      (Message.declarationsAll (MessageDescriptor.outlineAll scope file place index ds)).map
          Declaration.signature =
        (Message.declarationsAll (MessageDescriptor.outlineAll scope file place' index ds)).map
          Declaration.signature
  | [] => rfl
  | d :: ds => by
    simp only [MessageDescriptor.outlineAll, Message.declarationsAll, List.map_append]
    rw [MessageDescriptor.signature_outline scope file _ ⟨place'.file, place'.path ++ [index]⟩ d,
      MessageDescriptor.signature_outlineAll scope file place place' (index + 1) ds]

end

theorem FileDescriptor.signature_outlineAs (d : FileDescriptor) (name : String) (i j : Nat) :
    (d.outlineAs i name).declarations.map Declaration.signature =
      (d.outlineAs j name).declarations.map Declaration.signature := by
  simp only [SchemaFile.declarations, FileDescriptor.outlineAs, List.map_append]
  rw [MessageDescriptor.signature_outlineAll _ _ ⟨i, []⟩ ⟨j, []⟩]

/-- A name that finds a declaration finds every declaration with the same full name where no other
    has it. -/
theorem Declarations.find?_of_nodup {φ : Type} {types others : Declarations φ} {name : String}
    {d d' : Declaration φ} (hfind : Declarations.find? others name = some d')
    (hnodup : (types.map Declaration.fullName).Nodup) (hd : d ∈ types)
    (hname : d.fullName = d'.fullName) : types.find? name = some d :=
  (Declarations.find?_eq_some_iff hnodup name d).2
    ⟨hd, hname.trans (Declarations.fullName_of_find? hfind)⟩

/-! ## Absolute names -/

/-- A field that refers to an enum or a message names it from the root. -/
def FieldDescriptor.Absolute (field : FieldDescriptor) : Prop :=
  field.kind = .enum ∨ field.kind = .message →
    ∃ name, field.typeName = .text name ∧ Text.startsWith "." name = true

mutual

/-- A message and all messages nested in it, outer ones first. -/
def MessageDescriptor.withNested : MessageDescriptor → List MessageDescriptor
  | m@⟨_, _, messages, _, _, _⟩ => m :: MessageDescriptor.withNestedAll messages

def MessageDescriptor.withNestedAll : List MessageDescriptor → List MessageDescriptor
  | [] => []
  | m :: ms => m.withNested ++ MessageDescriptor.withNestedAll ms

end

/-- The fields of a file name their types from the root, and the fields of its entry messages are
    not repeated. -/
structure FileDescriptor.Explicit (d : FileDescriptor) : Prop where
  absolute : ∀ m ∈ MessageDescriptor.withNestedAll d.messages, ∀ field ∈ m.fields, field.Absolute
  entries : ∀ m ∈ MessageDescriptor.withNestedAll d.messages, m.mapEntry = true →
    ∀ field ∈ m.fields, field.label ≠ .repeated

mutual

theorem MessageDescriptor.exists_of_mem_outline (scope : RawText) (file : String) (place : Place) :
    (d : MessageDescriptor) → ∀ m ∈ (d.outline scope file place).withNested,
      ∃ x ∈ d.withNested, x.fields = m.fields ∧ x.mapEntry = m.mapEntry
  | ⟨name, fields, messages, enums, deprecated, mapEntry⟩ => by
    intro m hm
    rw [MessageDescriptor.outline, Message.withNested, List.mem_cons] at hm
    rw [MessageDescriptor.withNested]
    rcases hm with rfl | hm
    · exact ⟨_, List.mem_cons_self, rfl, rfl⟩
    · obtain ⟨x, hx, hsame⟩ := MessageDescriptor.exists_of_mem_outlineAll (qualify scope name) file
        place 0 messages m hm
      exact ⟨x, List.mem_cons_of_mem _ hx, hsame⟩

/-- Outlined messages have the fields of the descriptors they come from. -/
theorem MessageDescriptor.exists_of_mem_outlineAll (scope : RawText) (file : String)
    (place : Place) (index : Nat) : (ds : List MessageDescriptor) →
      ∀ m ∈ Message.withNestedAll (MessageDescriptor.outlineAll scope file place index ds),
        ∃ x ∈ MessageDescriptor.withNestedAll ds, x.fields = m.fields ∧ x.mapEntry = m.mapEntry
  | [] => by
    intro m hm
    simp [MessageDescriptor.outlineAll, Message.withNestedAll] at hm
  | d :: ds => by
    intro m hm
    rw [MessageDescriptor.outlineAll, Message.withNestedAll, List.mem_append] at hm
    rw [MessageDescriptor.withNestedAll]
    rcases hm with hm | hm
    · obtain ⟨x, hx, hsame⟩ := MessageDescriptor.exists_of_mem_outline scope file _ d m hm
      exact ⟨x, List.mem_append_left _ hx, hsame⟩
    · obtain ⟨x, hx, hsame⟩ := MessageDescriptor.exists_of_mem_outlineAll scope file place
        (index + 1) ds m hm
      exact ⟨x, List.mem_append_right _ hx, hsame⟩

end

theorem Declarations.lookup?_of_absolute {φ : Type} (types : Declarations φ) (owner : RawText)
    {name : String} (h : Text.startsWith "." name = true) :
    types.lookup? owner name = .ok (types.find? name) := by
  unfold Declarations.lookup?
  cases types.find? name with
  | some found => rfl
  | none => simp [h]

theorem Slot.named?_of_absolute {types : Declarations FieldDescriptor} {slot : Slot} {name : String}
    (hname : slot.field.typeName = .text name) (h : Text.startsWith "." name = true) :
    slot.named? types = .ok (types.find? name) := by
  unfold Slot.named?
  rw [hname]
  exact Declarations.lookup?_of_absolute types slot.owner h

/-- What a field with an absolute name refers to, by the kind of the field. -/
theorem Slot.target?_of_absolute {types : Declarations FieldDescriptor} {slot : Slot}
    (habsolute : slot.field.Absolute) {target : Option Target}
    (h : slot.target? types = .ok target) :
    (∃ type, slot.field.kind = .scalar type ∧ target = some (.scalar type)) ∨
    (slot.field.kind = .group ∧ target = none) ∨
    ((slot.field.kind = .enum ∨ slot.field.kind = .message) ∧ ∃ name d,
      slot.field.typeName = .text name ∧ types.find? name = some d ∧ target = some d.target) := by
  unfold Slot.target? at h
  split at h
  · next type hkind => exact .inl ⟨type, hkind, (Except.ok.inj h).symm⟩
  · next hkind => exact .inr (.inl ⟨hkind, (Except.ok.inj h).symm⟩)
  all_goals
    next hkind =>
    obtain ⟨name, hname, hroot⟩ := habsolute (by simp [hkind])
    obtain ⟨found, hnamed, h⟩ := bind_eq_ok_iff.1 h
    rw [Slot.named?_of_absolute hname hroot] at hnamed
    split at h
    · obtain rfl := Except.ok.inj h
      exact .inr (.inr ⟨by simp [hkind], name, _, hname, Except.ok.inj hnamed, rfl⟩)
    · cases h

namespace Construction

section Descriptors

variable {files : List FileDescriptor} (c : Construction files)

theorem exists_declared {m : Message FieldDescriptor} (hm : m ∈ c.messages) :
    ∃ d ∈ files, ∃ x ∈ MessageDescriptor.withNestedAll d.messages,
      x.fields = m.fields ∧ x.mapEntry = m.mapEntry := by
  obtain ⟨file, hfile, hm⟩ := List.mem_flatMap.1 hm
  obtain ⟨d, hd, i, name, _, rfl⟩ := c.exists_descriptor hfile
  exact ⟨d, hd, MessageDescriptor.exists_of_mem_outlineAll _ _ _ _ _ m hm⟩

theorem absolute (h : ∀ d ∈ files, d.Explicit) :
    ∀ m ∈ c.messages, ∀ field ∈ m.fields, field.Absolute := by
  intro m hm field hfield
  obtain ⟨d, hd, x, hx, hfields, _⟩ := c.exists_declared hm
  exact (h d hd).absolute x hx field (hfields ▸ hfield)

theorem entriesPlain (h : ∀ d ∈ files, d.Explicit) : c.EntriesPlain := by
  intro m hm hmap field hfield
  obtain ⟨d, hd, x, hx, hfields, hentry⟩ := c.exists_declared hm
  exact (h d hd).entries x hx (hentry.trans hmap) field (hfields ▸ hfield)

end Descriptors

section Agreement

variable {fs gs : List FileDescriptor}

/-- Two fields refer to the same, in one model each: to nothing, to one scalar type, to one enum, or
    to messages that differ at most in their places. -/
inductive Agree (c : Construction fs) (c' : Construction gs) : Option Target → Option Target → Prop
  | nothing : Agree c c' none none
  | scalar (type : Scalar) : Agree c c' (some (.scalar type)) (some (.scalar type))
  | enum (ref : EnumRef) : Agree c c' (some (.enum ref)) (some (.enum ref))
  | message {m m' : Message FieldDescriptor} (hm : m ∈ c.messages) (hm' : m' ∈ c'.messages)
    (href : m.ref.unplaced = m'.ref.unplaced) (hfields : m.fields = m'.fields) :
    Agree c c' (some (.message m.ref)) (some (.message m'.ref))

variable {c : Construction fs} {c' : Construction gs}

theorem Agree.unplaced_eq {t t' : Option Target} (h : Agree c c' t t') :
    t.map Target.unplaced = t'.map Target.unplaced := by
  cases h with
  | nothing => rfl
  | scalar type => rfl
  | enum ref => rfl
  | message hm hm' href hfields => exact congrArg (fun ref => some (Target.message ref)) href

theorem Agree.scalar?_eq {t t' : Option Target} (h : Agree c c' t t') :
    t.bind Target.scalar? = t'.bind Target.scalar? := by
  cases h <;> rfl

theorem Agree.unplaced_plainType {r r' : Reference} (h : Agree c c' r.target r'.target)
    (hrepeated : r.repeated = r'.repeated) : r.plainType.unplaced = r'.plainType.unplaced := by
  have hsame := h.unplaced_eq
  unfold Reference.plainType
  rw [hrepeated]
  cases htarget : r.target with
  | none =>
    have hnone : r'.target = none := by simpa [htarget] using hsame.symm
    rw [hnone]
  | some target =>
    obtain ⟨target', htarget', heq⟩ : ∃ target', r'.target = some target' ∧
        target'.unplaced = target.unplaced := by
      simpa [htarget] using hsame.symm
    rw [htarget']
    cases r'.repeated with
    | true => exact congrArg FieldType.list heq.symm
    | false => exact congrArg FieldType.single heq.symm

/-- Both fields are maps, with entries that have the same fields, or none of them is. -/
theorem Agree.entry?_cases {r r' : Reference} (h : Agree c c' r.target r'.target)
    (hrepeated : r.repeated = r'.repeated) :
    (r.entry? = none ∧ r'.entry? = none) ∨
      ∃ m ∈ c.messages, ∃ m' ∈ c'.messages, m.fields = m'.fields ∧
        r.entry? = some m.ref ∧ r'.entry? = some m'.ref := by
  obtain ⟨id, repeated, target⟩ := r
  obtain ⟨id', repeated', target'⟩ := r'
  dsimp only at h hrepeated
  subst hrepeated
  unfold Reference.entry?
  cases repeated with
  | false => exact .inl ⟨rfl, rfl⟩
  | true =>
    cases h with
    | nothing => exact .inl ⟨rfl, rfl⟩
    | scalar type => exact .inl ⟨rfl, rfl⟩
    | enum ref => exact .inl ⟨rfl, rfl⟩
    | @message m m' hm hm' href hfields =>
      have hentry : m'.ref.mapEntry = m.ref.mapEntry := (congrArg MessageRef.mapEntry href).symm
      cases hmap : m.ref.mapEntry with
      | false =>
        rw [hmap] at hentry
        exact .inl (by simp [Target.message?, Option.filter, hmap, hentry])
      | true =>
        rw [hmap] at hentry
        exact .inr ⟨m, hm, m', hm', hfields, by simp [Target.message?, Option.filter, hmap],
          by simp [Target.message?, Option.filter, hentry]⟩

end Agreement

section TwoModels

variable {fs gs : List FileDescriptor} (c : Construction fs) (c' : Construction gs)
variable (hsub : fs ⊆ gs) (htypes : (c'.types.map Declaration.fullName).Nodup)

include hsub

/-- What the first model declares, the second one declares as well. -/
theorem exists_same_signature {d : Declaration FieldDescriptor} (hd : d ∈ c.types) :
    ∃ d' ∈ c'.types, d'.signature = d.signature := by
  obtain ⟨file, hfile, hd⟩ := List.mem_flatMap.1 hd
  obtain ⟨descriptor, hdescriptor, i, name, hname, rfl⟩ := c.exists_descriptor hfile
  obtain ⟨j, name', hname', hfile'⟩ := c'.exists_outlined (hsub hdescriptor)
  obtain rfl := RawText.text.inj (hname.symm.trans hname')
  have hmem := List.mem_map_of_mem (f := Declaration.signature) hd
  rw [descriptor.signature_outlineAs name i j] at hmem
  obtain ⟨d', hd', hsignature⟩ := List.mem_map.1 hmem
  exact ⟨d', List.mem_flatMap.2 ⟨_, hfile', hd'⟩, hsignature⟩

include htypes

/-- A name that finds a declaration finds the same one in the second model. -/
theorem exists_find? {name : String} {d : Declaration FieldDescriptor}
    (hfind : c.types.find? name = some d) :
    ∃ d', c'.types.find? name = some d' ∧ d'.signature = d.signature := by
  obtain ⟨d', hd', hsignature⟩ :=
    c.exists_same_signature c' hsub (Declarations.mem_of_find? hfind)
  exact ⟨d', Declarations.find?_of_nodup hfind htypes hd'
    (Declaration.fullName_of_signature hsignature), hsignature⟩

theorem agree_of_find? {name : String} {d d' : Declaration FieldDescriptor}
    (hfind : c.types.find? name = some d) (hfind' : c'.types.find? name = some d') :
    Agree c c' (some d.target) (some d'.target) := by
  obtain ⟨found, hfound, hsignature⟩ := c.exists_find? c' hsub htypes hfind
  obtain rfl := Option.some.inj (hfound.symm.trans hfind')
  have htarget := congrArg Prod.fst hsignature
  cases d with
  | enum e =>
    cases found with
    | enum e' =>
      obtain href : e'.ref = e.ref := Target.enum.inj htarget
      show Agree c c' (some (.enum e.ref)) (some (.enum e'.ref))
      rw [href]
      exact .enum e.ref
    | message m' => cases htarget
  | message m =>
    cases found with
    | enum e' => cases htarget
    | message m' =>
      exact .message ((c.message_mem_types_iff m).1 (Declarations.mem_of_find? hfind))
        ((c'.message_mem_types_iff m').1 (Declarations.mem_of_find? hfind'))
        (Target.message.inj htarget).symm (congrArg Prod.snd hsignature).symm

/-- One declared field refers to the same in both models. -/
theorem agree_of_resolves {field : FieldDescriptor} (habsolute : field.Absolute)
    {m m' : Message FieldDescriptor} {index index' : Nat} {r r' : Reference}
    (h : c.Resolves m index field r) (h' : c'.Resolves m' index' field r') :
    Agree c c' r.target r'.target := by
  have hcases := Slot.target?_of_absolute habsolute h.spec.2.2
  have hcases' := Slot.target?_of_absolute habsolute h'.spec.2.2
  dsimp only at hcases hcases'
  rcases hcases with ⟨type, hkind, htarget⟩ | ⟨hkind, htarget⟩ |
    ⟨hkind, name, d, hname, hfind, htarget⟩
  · rw [hkind] at hcases'
    obtain htarget' : r'.target = some (.scalar type) := by simpa using hcases'
    rw [htarget, htarget']
    exact .scalar type
  · rw [hkind] at hcases'
    obtain htarget' : r'.target = none := by simpa using hcases'
    rw [htarget, htarget']
    exact .nothing
  · obtain ⟨d', hfind', htarget'⟩ :
        ∃ d', c'.types.find? name = some d' ∧ r'.target = some d'.target := by
      rcases hkind with hkind | hkind <;> simpa [hkind, hname] using hcases'
    rw [htarget, htarget']
    exact c.agree_of_find? c' hsub htypes hfind hfind'

variable (habsolute : ∀ m ∈ c.messages, ∀ field ∈ m.fields, field.Absolute)

include habsolute

theorem agree_of_currentTarget? {m m' : Message FieldDescriptor} (hm : m ∈ c.messages)
    (hm' : m' ∈ c'.messages) (hfields : m.fields = m'.fields) {index : Nat}
    {target target' : Option Target}
    (h : currentTarget? c.references [] ⟨m.place, index⟩ = some target)
    (h' : currentTarget? c'.references [] ⟨m'.place, index⟩ = some target') :
    Agree c c' target target' := by
  obtain ⟨field, r, hfield, hresolves, rfl⟩ := exists_of_currentTarget? hm h
  obtain ⟨field', r', hfield', hresolves', rfl⟩ := exists_of_currentTarget? hm' h'
  rw [hfields] at hfield
  obtain rfl := Option.some.inj (hfield.symm.trans hfield')
  have hmem : field ∈ m.fields := by
    rw [hfields]
    exact List.mem_of_getElem? hfield
  exact c.agree_of_resolves c' hsub htypes (habsolute m hm field hmem) hresolves hresolves'

/-- Fields that refer to the same have the same type, apart from places. -/
theorem unplaced_type {r r' : Reference} (hagree : Agree c c' r.target r'.target)
    (hrepeated : r.repeated = r'.repeated) {type type' : FieldType}
    (h : r.type c.references [] = .ok type) (h' : r'.type c'.references [] = .ok type') :
    type.unplaced = type'.unplaced := by
  rw [Reference.type_eq] at h h'
  rcases hagree.entry?_cases hrepeated with
    ⟨hentry, hentry'⟩ | ⟨m, hm, m', hm', hfields, hentry, hentry'⟩
  · rw [hentry] at h
    rw [hentry'] at h'
    obtain rfl := Except.ok.inj h
    obtain rfl := Except.ok.inj h'
    exact hagree.unplaced_plainType hrepeated
  · -- two maps: their entry messages have the same fields, so key and value agree
    rw [hentry] at h
    rw [hentry'] at h'
    dsimp only at h h'
    unfold mapType at h h'
    split at h
    · next key value hkey hvalue =>
      split at h'
      · next key' value' hkey' hvalue' =>
        have hkeys := c.agree_of_currentTarget? c' hsub htypes habsolute hm hm' hfields hkey hkey'
        have hvalues :=
          c.agree_of_currentTarget? c' hsub htypes habsolute hm hm' hfields hvalue hvalue'
        obtain rfl := Except.ok.inj h
        obtain rfl := Except.ok.inj h'
        show FieldType.map _ _ = FieldType.map _ _
        rw [hkeys.scalar?_eq, hvalues.unplaced_eq]
      · cases h'
    · cases h

/-- A declared field has the same type in both models, apart from places. -/
theorem unplaced_typedField (hplain : c.EntriesPlain) (hplain' : c'.EntriesPlain)
    {m m' : Message FieldDescriptor} (hm : m ∈ c.messages) (hm' : m' ∈ c'.messages) {index : Nat}
    {field : FieldDescriptor} (hfield : m.fields[index]? = some field)
    (hfield' : m'.fields[index]? = some field) :
    (Model.typedField c.settled m.place index field).unplaced =
      (Model.typedField c'.settled m'.place index field).unplaced := by
  obtain ⟨r, _, hresolves, type, hlookup, htype⟩ := hplain.lookup_settled hm hfield
  obtain ⟨r', _, hresolves', type', hlookup', htype'⟩ := hplain'.lookup_settled hm' hfield'
  -- nothing settled enters the types any more, so they can be compared reference by reference
  have hagree := c.agree_of_resolves c' hsub htypes
    (habsolute m hm field (List.mem_of_getElem? hfield)) hresolves hresolves'
  have hrepeated : r.repeated = r'.repeated := by
    rw [hresolves.spec.2.1, hresolves'.spec.2.1]
  have hsame := c.unplaced_type c' hsub htypes habsolute hagree hrepeated htype htype'
  simp only [Model.typedField, Field.unplaced, hlookup, hlookup', Option.getD_some, hsame]

end TwoModels

end Construction

/-! ## Files -/

/-- One of the messages stands at the given place and has the given field. -/
def HasField (ms : List (Message FieldDescriptor)) (place : Place) (index : Nat)
    (field : FieldDescriptor) : Prop :=
  ∃ m ∈ ms, m.place = place ∧ m.fields[index]? = some field

section Trees

variable {f f' : Place → Nat → FieldDescriptor → Field} {i j : Nat}

theorem unplaced_mapIdx (place place' : Place) {fields : List FieldDescriptor}
    (h : ∀ index field, fields[index]? = some field →
      (f place index field).unplaced = (f' place' index field).unplaced) :
    (fields.mapIdx (f place)).map Field.unplaced =
      (fields.mapIdx (f' place')).map Field.unplaced := by
  apply List.ext_getElem?
  intro index
  simp only [List.getElem?_map, List.getElem?_mapIdx, Option.map_map]
  cases hfield : fields[index]? with
  | none => rfl
  | some field => exact congrArg some (h index field hfield)

mutual

/-- The outlines of one message at two places that differ in the number of the file. If the fields
    at corresponding places come out the same, apart from places, so do the messages. -/
theorem MessageDescriptor.unplaced_outline (scope : RawText) (file : String) (path : List Nat) :
    (d : MessageDescriptor) →
      (∀ rest index field,
        HasField (d.outline scope file ⟨i, path⟩).withNested ⟨i, rest⟩ index field →
        HasField (d.outline scope file ⟨j, path⟩).withNested ⟨j, rest⟩ index field →
        (f ⟨i, rest⟩ index field).unplaced = (f' ⟨j, rest⟩ index field).unplaced) →
      ((d.outline scope file ⟨i, path⟩).mapFields f).unplaced =
        ((d.outline scope file ⟨j, path⟩).mapFields f').unplaced
  | ⟨name, fields, messages, enums, deprecated, mapEntry⟩, h => by
    simp only [MessageDescriptor.outline, Message.withNested] at h
    have hown := unplaced_mapIdx ⟨i, path⟩ ⟨j, path⟩ fun index field hfield =>
      h path index field ⟨_, List.mem_cons_self, rfl, hfield⟩ ⟨_, List.mem_cons_self, rfl, hfield⟩
    have hnested := MessageDescriptor.unplaced_outlineAll (qualify scope name) file path 0 messages
      fun rest index field ⟨m, hm, hat⟩ ⟨m', hm', hat'⟩ => h rest index field
        ⟨m, List.mem_cons_of_mem _ hm, hat⟩ ⟨m', List.mem_cons_of_mem _ hm', hat'⟩
    simp only [MessageDescriptor.outline, Message.mapFields, Message.unplaced, hown, hnested]

theorem MessageDescriptor.unplaced_outlineAll (scope : RawText) (file : String) (path : List Nat)
    (index : Nat) : (ds : List MessageDescriptor) →
      (∀ rest k field,
        HasField (Message.withNestedAll
          (MessageDescriptor.outlineAll scope file ⟨i, path⟩ index ds)) ⟨i, rest⟩ k field →
        HasField (Message.withNestedAll
          (MessageDescriptor.outlineAll scope file ⟨j, path⟩ index ds)) ⟨j, rest⟩ k field →
        (f ⟨i, rest⟩ k field).unplaced = (f' ⟨j, rest⟩ k field).unplaced) →
      Message.unplacedAll (Message.mapFieldsAll f
          (MessageDescriptor.outlineAll scope file ⟨i, path⟩ index ds)) =
        Message.unplacedAll (Message.mapFieldsAll f'
          (MessageDescriptor.outlineAll scope file ⟨j, path⟩ index ds))
  | [], _ => rfl
  | d :: ds, h => by
    simp only [MessageDescriptor.outlineAll, Message.withNestedAll] at h
    have hhead := MessageDescriptor.unplaced_outline scope file (path ++ [index]) d
      fun rest k field ⟨m, hm, hat⟩ ⟨m', hm', hat'⟩ => h rest k field
        ⟨m, List.mem_append_left _ hm, hat⟩ ⟨m', List.mem_append_left _ hm', hat'⟩
    have htail := MessageDescriptor.unplaced_outlineAll scope file path (index + 1) ds
      fun rest k field ⟨m, hm, hat⟩ ⟨m', hm', hat'⟩ => h rest k field
        ⟨m, List.mem_append_right _ hm, hat⟩ ⟨m', List.mem_append_right _ hm', hat'⟩
    simp only [MessageDescriptor.outlineAll, Message.mapFieldsAll, Message.unplacedAll, hhead,
      htail]

end

end Trees

namespace Construction

variable {fs gs : List FileDescriptor} {c : Construction fs} {c' : Construction gs}

/-- A file that both models are built from comes out the same, apart from places. -/
theorem unplaced_file (hsub : fs ⊆ gs) (htypes : (c'.types.map Declaration.fullName).Nodup)
    (habsolute : ∀ m ∈ c.messages, ∀ field ∈ m.fields, field.Absolute)
    (hplain : c.EntriesPlain) (hplain' : c'.EntriesPlain) {d : FileDescriptor} {name : String}
    {i j : Nat} (hd : d.outlineAs i name ∈ c.outlined) (hd' : d.outlineAs j name ∈ c'.outlined) :
    ((d.outlineAs i name).mapFields (Model.typedField c.settled)).unplaced =
      ((d.outlineAs j name).mapFields (Model.typedField c'.settled)).unplaced := by
  have hfields : ∀ rest index field,
      HasField (Message.withNestedAll (d.outlineAs i name).messages) ⟨i, rest⟩ index field →
      HasField (Message.withNestedAll (d.outlineAs j name).messages) ⟨j, rest⟩ index field →
      (Model.typedField c.settled ⟨i, rest⟩ index field).unplaced =
        (Model.typedField c'.settled ⟨j, rest⟩ index field).unplaced := by
    rintro rest index field ⟨m, hm, hplace, hfield⟩ ⟨m', hm', hplace', hfield'⟩
    rw [← hplace, ← hplace']
    exact c.unplaced_typedField c' hsub htypes habsolute hplain hplain'
      (List.mem_flatMap.2 ⟨_, hd, hm⟩) (List.mem_flatMap.2 ⟨_, hd', hm'⟩) hfield hfield'
  have hmessages := MessageDescriptor.unplaced_outlineAll d.package (ModulePath.logical name) [] 0
    d.messages hfields
  simp only [SchemaFile.mapFields, SchemaFile.unplaced, FileDescriptor.outlineAs, hmessages]

end Construction

/-- What two models show of a file that both are built from. -/
theorem Model.exists_files {fs gs : List FileDescriptor} {model model' : Model}
    (hmodel : Model.build fs = .ok model) (hmodel' : Model.build gs = .ok model') (hsub : fs ⊆ gs)
    (hdistinct : Distinct gs) (hexplicit : ∀ d ∈ gs, d.Explicit) {d : FileDescriptor}
    (hd : d ∈ fs) :
    ∃ file file', model.file d.name = .ok file ∧ model'.file d.name = .ok file' ∧
      file.unplaced = file'.unplaced ∧ PlacesByName file.messages ∧
        PlacesByName file'.messages := by
  obtain ⟨c, rfl⟩ := Construction.exists_of_build hmodel
  obtain ⟨c', rfl⟩ := Construction.exists_of_build hmodel'
  obtain ⟨i, name, hname, hlatest⟩ := c.exists_latest hsub hdistinct hd
  obtain ⟨j, name', hname', hlatest'⟩ :=
    c'.exists_latest (List.Subset.refl gs) hdistinct (hsub hd)
  obtain rfl := RawText.text.inj (hname.symm.trans hname')
  have htypes : (c'.types.map Declaration.fullName).Nodup := by
    rw [c'.fullNames_types]
    exact hdistinct.typeNames
  have hexplicit' : ∀ d ∈ fs, d.Explicit := fun d hd => hexplicit d (hsub hd)
  rw [hname]
  exact ⟨_, _, hlatest.model_file, hlatest'.model_file,
    Construction.unplaced_file hsub htypes (c.absolute hexplicit') (c.entriesPlain hexplicit')
      (c'.entriesPlain hexplicit) hlatest.mem hlatest'.mem,
    hlatest.placesByName, hlatest'.placesByName⟩

end ProtoSchema
