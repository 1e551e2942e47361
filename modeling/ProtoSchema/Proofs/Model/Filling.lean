import Mathlib.Data.List.Perm.Basic
import ProtoSchema.Module.Typing
import ProtoSchema.Proofs.Model.Target

set_option autoImplicit false

/-! # Fields filled in step by step

The type of a field says what goes together: a map has a key and a value, a list has an item. A
record (`FieldRecord`) does not, and records are filled in step by step. A model is what this
filling comes to (`Records.fill_eq_settleAll`), and the members of the records of its fields always
fit together (`FieldRecord.Consistent`), in whatever order maps are folded and whatever their
entries refer to. So whoever reads a record by its shape finds what the shape promises. -/

namespace ProtoSchema

theorem FieldType.isList_shape (type : FieldType) : type.shape.isList = type.isList := by
  cases type with
  | single target => cases target <;> rfl
  | list target => cases target <;> rfl
  | _ => rfl

/-! ## Records of types -/

namespace FieldRecord

/-- The record of a field whose type is known. -/
def ofType : FieldType → FieldRecord
  | .map key value =>
    { ofTarget value with
      shape := .map, mapKey := key, mapValueShape := some (ofTarget value).single }
  | type => { ofTarget type.target? with shape := type.shape }

/-- The references of a record, and nothing else. -/
def bare (r : FieldRecord) : FieldRecord :=
  { scalar := r.scalar, enum := r.enum, message := r.message }

theorem bare_ofType (type : FieldType) : (ofType type).bare = ofTarget type.target? := by
  cases type <;> rfl

/-- A map takes nothing but references from its key and its value. -/
theorem fold_bare (key value : FieldRecord) : fold key.bare value.bare = fold key value :=
  rfl

theorem fold_ofTarget (key value : Option Target) :
    fold (ofTarget key) (ofTarget value) = ofType (.map (key.bind Target.scalar?) value) :=
  rfl

/-! ## Consistency -/

/-- The members of a record fit together. -/
structure Consistent (r : FieldRecord) : Prop where
  /-- At most one of the references is set. -/
  exclusive : [r.scalar.isSome, r.enum.isSome, r.message.isSome].count true ≤ 1
  scalar : r.shape = .scalar ∨ r.shape = .scalarList → r.scalar.isSome = true
  enum : r.shape = .enum ∨ r.shape = .enumList → r.enum.isSome = true
  message : r.shape = .message ∨ r.shape = .messageList → r.message.isSome = true
  unknown : r.shape = .unknown → r.scalar = none ∧ r.enum = none ∧ r.message = none
  mapValueShape : r.mapValueShape.isSome = true ↔ r.shape = .map
  /-- The shape of the value of a map names the reference that is set, if there is one. -/
  value : ∀ shape, r.mapValueShape = some shape →
    (shape = .scalar ∧ r.scalar.isSome = true) ∨ (shape = .enum ∧ r.enum.isSome = true) ∨
    (shape = .message ∧ r.message.isSome = true) ∨
    (shape = .unknown ∧ r.scalar = none ∧ r.enum = none ∧ r.message = none)
  mapKey : r.shape ≠ .map → r.mapKey = none

theorem consistent_ofType (type : FieldType) : (ofType type).Consistent := by
  cases type with
  | unknown => constructor <;> simp [ofType, ofTarget, FieldType.target?, FieldType.shape]
  | single target =>
    cases target <;> constructor <;>
      simp [ofType, ofTarget, FieldType.target?, FieldType.shape, Shape.ofTarget, Target.scalar?,
        Target.enum?, Target.message?]
  | list target =>
    cases target <;> constructor <;>
      simp [ofType, ofTarget, FieldType.target?, FieldType.shape, Shape.ofTarget, Target.scalar?,
        Target.enum?, Target.message?]
  | map key value =>
    rcases value with _ | (_ | _ | _) <;> constructor <;>
      simp [ofType, ofTarget, single, Target.scalar?, Target.enum?, Target.message?]

theorem eq_list_of_shape {type : FieldType} {ref : MessageRef}
    (hshape : (ofType type).shape = .messageList) (href : (ofType type).message = some ref) :
    type = .list (.message ref) := by
  cases type with
  | list target =>
    cases target with
    | message own =>
      obtain rfl := Option.some.inj href
      rfl
    | _ => cases hshape
  | single target => cases target <;> cases hshape
  | _ => cases hshape

end FieldRecord

/-! ## Filling -/

namespace Records

/-- The records when some of the fields have been settled. -/
def ofSettled (references : List Reference) (settled : Settled) : Records :=
  fun id => match settled.lookup id with
    | some type => some (.ofType type)
    | none => ofReferences references id

theorem ofSettled_cons (references : List Reference) (settled : Settled) (id : SlotId)
    (type : FieldType) :
    ofSettled references ((id, type) :: settled) =
      (ofSettled references settled).set id (.ofType type) := by
  funext other
  by_cases h : other = id
  · simp [ofSettled, set, h]
  · have hother : (other == id) = false := by simpa using h
    simp [ofSettled, set, h, List.lookup_cons, hother]

/-- A record refers to what its field refers to at this point. -/
theorem bare_ofSettled (references : List Reference) (settled : Settled) (id : SlotId) :
    (ofSettled references settled id).map FieldRecord.bare =
      (currentTarget? references settled id).map FieldRecord.ofTarget := by
  unfold ofSettled currentTarget?
  cases settled.lookup id with
  | some type => exact congrArg some (FieldRecord.bare_ofType type)
  | none =>
    simp only [ofReferences, Option.map_map]
    rfl

theorem entry?_ofTarget (r : Reference) :
    entry? r.repeated (.ofTarget r.target) = r.entry? := by
  unfold entry? Reference.entry?
  cases r.repeated with
  | false => simp
  | true =>
    rcases r.target with _ | (_ | _ | _) <;>
      simp [FieldRecord.ofTarget, FieldRecord.single, Target.enum?, Target.message?,
        Target.scalar?]

theorem plain_ofTarget (r : Reference) :
    { FieldRecord.ofTarget r.target with
      shape := if r.repeated then (FieldRecord.ofTarget r.target).single.listed
        else (FieldRecord.ofTarget r.target).single } = FieldRecord.ofType r.plainType := by
  unfold Reference.plainType
  rcases r.target with _ | (_ | _ | _) <;> cases r.repeated <;> rfl

/-- The map of an entry message is folded from the records of its first two fields. -/
theorem fold_ofSettled (references : List Reference) (settled : Settled) (id : SlotId)
    (entry : Place) :
    (match ofSettled references settled ⟨entry, 0⟩, ofSettled references settled ⟨entry, 1⟩ with
      | some key, some value => .ok ((ofSettled references settled).set id (.fold key value))
      | _, _ => .error .shortMapEntry) =
    (mapType references settled entry).map fun type =>
      ofSettled references ((id, type) :: settled) := by
  have hkey := bare_ofSettled references settled ⟨entry, 0⟩
  have hvalue := bare_ofSettled references settled ⟨entry, 1⟩
  unfold mapType
  cases hk : currentTarget? references settled ⟨entry, 0⟩ with
  | none =>
    rw [hk, Option.map_none, Option.map_eq_none_iff] at hkey
    rw [hkey]
    rfl
  | some k =>
    rw [hk] at hkey
    obtain ⟨key, hkey, hkeyBare⟩ := Option.map_eq_some_iff.1 hkey
    cases hv : currentTarget? references settled ⟨entry, 1⟩ with
    | none =>
      rw [hv, Option.map_none, Option.map_eq_none_iff] at hvalue
      rw [hkey, hvalue]
      rfl
    | some v =>
      rw [hv] at hvalue
      obtain ⟨value, hvalue, hvalueBare⟩ := Option.map_eq_some_iff.1 hvalue
      rw [hkey, hvalue]
      dsimp only [Except.map]
      rw [ofSettled_cons, ← FieldRecord.fold_ofTarget, ← hkeyBare, ← hvalueBare,
        FieldRecord.fold_bare]

section Simulation

variable {references : List Reference} (hunique : UniqueIds references)

include hunique

/-- Giving a field its shape comes to the same as settling its type. -/
theorem assign_ofSettled {settled : Settled} {r : Reference} (hr : r ∈ references)
    (hfresh : settled.lookup r.id = none) :
    assign (ofSettled references settled) r =
      (r.type references settled).map fun type =>
        ofSettled references ((r.id, type) :: settled) := by
  have hrecord : ofSettled references settled r.id = some (.ofTarget r.target) := by
    rw [ofSettled, hfresh]
    simp only [ofReferences, find?_reference hunique hr, Option.map_some]
  unfold assign
  rw [hrecord, Reference.type_eq]
  dsimp only
  rw [entry?_ofTarget]
  cases r.entry? with
  | some entry => exact fold_ofSettled references settled r.id entry.place
  | none =>
    dsimp only [Except.map]
    rw [plain_ofTarget, ofSettled_cons]

/-- Filling goes along with settling, and it fails where settling does. -/
theorem foldlM_assign_ofSettled {rest : List Reference} (hrest : rest ⊆ references)
    (hnodup : (rest.map Reference.id).Nodup) {settled : Settled}
    (hfresh : ∀ r ∈ rest, settled.lookup r.id = none) :
    rest.foldlM assign (ofSettled references settled) =
      (settle references rest settled).map (ofSettled references) := by
  induction rest generalizing settled with
  | nil => rfl
  | cons r rest ih =>
    rw [List.map_cons, List.nodup_cons] at hnodup
    rw [List.foldlM_cons, settle,
      assign_ofSettled hunique (hrest List.mem_cons_self) (hfresh r List.mem_cons_self)]
    cases r.type references settled with
    | error e => rfl
    | ok type =>
      refine ih (List.subset_of_cons_subset hrest) hnodup.2 fun r' hr' => ?_
      have hother : (r'.id == r.id) = false := by
        rw [beq_eq_false_iff_ne]
        exact fun heq => hnodup.1 (heq ▸ List.mem_map_of_mem hr')
      rw [List.lookup_cons, hother]
      exact hfresh r' (List.mem_cons_of_mem _ hr')

theorem fill_eq_settleAll (hnodup : (references.map Reference.id).Nodup) :
    fill references = (settleAll references).map (ofSettled references) := by
  have hfresh : ∀ r ∈ references, ([] : Settled).lookup r.id = none := fun _ _ => rfl
  exact foldlM_assign_ofSettled hunique (List.Subset.refl _) hnodup hfresh

end Simulation

end Records

/-! ## Slots are filled once -/

mutual

theorem Message.slots_perm :
    (m : Message FieldDescriptor) → m.slots.Perm (m.withNested.flatMap Message.ownSlots)
  | ⟨name, fullName, file, place, fields, enums, messages, deprecated, mapEntry⟩ => by
    rw [Message.slots, Message.withNested, List.flatMap_cons]
    exact (Message.slotsAll_perm messages).append_right _ |>.trans List.perm_append_comm

/-- The slots are those of the messages at any depth, up to their order. -/
theorem Message.slotsAll_perm :
    (ms : List (Message FieldDescriptor)) →
      (Message.slotsAll ms).Perm ((Message.withNestedAll ms).flatMap Message.ownSlots)
  | [] => .refl _
  | m :: ms => by
    rw [Message.slotsAll, Message.withNestedAll, List.flatMap_append]
    exact (Message.slots_perm m).append (Message.slotsAll_perm ms)

end

theorem Message.ids_ownSlots (m : Message FieldDescriptor) :
    m.ownSlots.map Slot.id = (List.range m.fields.length).map (SlotId.mk m.place) := by
  apply List.ext_getElem?
  intro i
  by_cases h : i < m.fields.length
  · simp [Message.ownSlots, h]
  · simp [Message.ownSlots, h]

namespace Construction

variable {files : List FileDescriptor} (c : Construction files)

theorem slots_perm :
    (c.outlined.flatMap fun file => Message.slotsAll file.messages).Perm
      (c.messages.flatMap Message.ownSlots) := by
  rw [messages, List.flatMap_assoc]
  exact List.Perm.flatMap_left _ fun file _ => Message.slotsAll_perm file.messages

theorem ids_references :
    c.references.map Reference.id =
      (c.outlined.flatMap fun file => Message.slotsAll file.messages).map Slot.id := by
  have hall := (mapM_eq_ok_iff _ _ _).1 c.resolveAll_eq
  rw [← List.forall₂_eq_eq_eq, List.forall₂_map_left_iff, List.forall₂_map_right_iff]
  refine hall.flip.imp fun r slot hslot => ?_
  obtain ⟨target, _, h⟩ := bind_eq_ok_iff.1 hslot
  cases h
  rfl

/-- No slot is referred to twice: the places of messages are distinct, and so are the numbers of
    their fields. -/
theorem nodup_ids : (c.references.map Reference.id).Nodup := by
  rw [c.ids_references, (c.slots_perm.map Slot.id).nodup_iff, List.map_flatMap, List.nodup_flatMap]
  constructor
  · intro m _
    rw [m.ids_ownSlots]
    exact List.nodup_range.map fun i j h => (SlotId.mk.inj h).2
  · refine (List.pairwise_map.1 c.nodup_places).imp fun {m m'} hplaces id hid hid' => ?_
    dsimp only at hid hid'
    rw [m.ids_ownSlots, List.mem_map] at hid
    rw [m'.ids_ownSlots, List.mem_map] at hid'
    obtain ⟨_, _, rfl⟩ := hid
    obtain ⟨_, _, heq⟩ := hid'
    exact hplaces (SlotId.mk.inj heq).1.symm

theorem fill_references :
    Records.fill c.references = .ok (Records.ofSettled c.references c.settled) := by
  rw [Records.fill_eq_settleAll c.uniqueIds c.nodup_ids, c.settleAll_eq]
  rfl

end Construction

/-! ## Reading records by their shapes -/

namespace FieldRecord

theorem singleDeclared?_eq (path : String) (r : FieldRecord) (shape : Shape) :
    r.singleDeclared? path shape = (r.singleType? path shape).map SchemaType.declared := by
  cases shape with
  | scalar =>
    show some _ = some _
    cases r.scalar <;> rfl
  | enum =>
    show r.enum.map _ = (r.enum.map _).map _
    cases r.enum <;> rfl
  | message =>
    show r.message.map _ = (r.message.map _).map _
    cases r.message with
    | none => rfl
    | some ref =>
      dsimp only [Option.map_some, Target.schemaType, SchemaType.wellKnown?]
      cases WellKnown.ofName? ref.fullName with
      | some message => rfl
      | none => by_cases hfile : ref.file = path <;> simp [hfile, SchemaType.declared]
  | _ => rfl

/-- The static type is found whenever the type is, and it is the one that belongs to it. -/
theorem declared?_eq (path : String) (r : FieldRecord) :
    r.declared? path = (r.schemaType? path).map SchemaType.declared := by
  unfold declared? schemaType? itemType?
  simp only [singleDeclared?_eq]
  split_ifs
  · rw [Option.map_map, Option.map_map]
    rfl
  · rw [Option.map_map, Option.map_map]
    rfl
  · rfl

theorem schemaType?_ofType (path : String) (type : FieldType) :
    (ofType type).schemaType? path = some (type.schemaType path) := by
  cases type with
  | unknown => rfl
  | single target => cases target <;> rfl
  | list target => cases target <;> rfl
  | map key value => rcases value with _ | (_ | _ | _) <;> rfl

end FieldRecord

/-- The type of the items of a list, or else of a single value. A map has no items. -/
def FieldType.itemType (path : String) : FieldType → SchemaType
  | single target => target.schemaType path
  | list target => target.schemaType path
  | _ => .unknown

theorem FieldRecord.itemType?_ofType (path : String) (type : FieldType) :
    (ofType type).itemType? path = some (type.itemType path) := by
  cases type with
  | single target => cases target <;> rfl
  | list target => cases target <;> rfl
  | _ => rfl

/-! ## Models -/

/-- A list of messages that stand for the entries of a map is a map. -/
theorem Reference.mapEntry_of_type {references : List Reference} {settled : Settled}
    {r : Reference} {ref : MessageRef}
    (h : r.type references settled = .ok (.list (.message ref))) : ref.mapEntry = false := by
  unfold Reference.type at h
  split at h
  · cases h
  · split at h
    · split at h
      · next entry _ =>
        split at h
        · unfold mapType at h
          split at h <;> cases h
        · next hentry =>
          cases h
          simpa using hentry
      · next hother =>
        cases h
        exact absurd rfl (hother ref)
    · cases h

theorem mapEntry_of_settle {references rest : List Reference} {settled result : Settled}
    (hsettled : ∀ id ref, (id, .list (.message ref)) ∈ settled → ref.mapEntry = false)
    (h : settle references rest settled = .ok result) {id : SlotId} {ref : MessageRef}
    (hmem : (id, .list (.message ref)) ∈ result) : ref.mapEntry = false := by
  induction rest generalizing settled with
  | nil =>
    obtain rfl := Except.ok.inj h
    exact hsettled id ref hmem
  | cons r rest ih =>
    obtain ⟨type, htype, h⟩ := bind_eq_ok_iff.1 h
    refine ih (fun id' ref' hmem' => ?_) h
    rcases List.mem_cons.1 hmem' with heq | hmem'
    · cases heq
      exact Reference.mapEntry_of_type htype
    · exact hsettled id' ref' hmem'

namespace Construction

variable {files : List FileDescriptor} (c : Construction files)

theorem ofFiles_eq : Records.ofFiles files = .ok (Records.ofSettled c.references c.settled) := by
  unfold Records.ofFiles
  rw [c.outline_eq]
  show (resolveAll _ _ >>= _) = _
  rw [c.resolveAll_eq]
  exact c.fill_references

/-- Each field of a model has a type that has been settled for its slot. -/
theorem lookup_settled {m : Message Field} (hm : m ∈ c.model.messages) {i : Nat} {field : Field}
    (hfield : m.fields[i]? = some field) :
    c.settled.lookup ⟨m.place, i⟩ = some field.type := by
  obtain ⟨file, hfile, x, hx, rfl⟩ :=
    (Model.mem_messages_mapFields_iff c.outlined (Model.typedField c.settled) m).1 hm
  rw [Message.fields_mapFields, List.getElem?_mapIdx] at hfield
  obtain ⟨d, hd, rfl⟩ := Option.map_eq_some_iff.1 hfield
  obtain ⟨r, hr, hresolves⟩ := c.exists_reference (List.mem_flatMap.2 ⟨file, hfile, hx⟩) hd
  have hid : r.id = ⟨x.place, i⟩ := hresolves.spec.1
  obtain ⟨type, htype⟩ :=
    Option.isSome_iff_exists.1 (lookup_settle c.settleAll_eq (.inr ⟨r, hr, hid⟩))
  rw [Message.place_mapFields, htype]
  simp [Model.typedField, htype]

end Construction

/-- **Consistent fields.** The fields of a built model are the records that the files are filled in
    to, and the members of every such record fit together. A list of messages never has the entries
    of a map as its items. Types, types of items and static types can be read off every record by
    its shape, in the module of whatever file, and they are those of the field. -/
theorem Model.build_fields_consistent {files : List FileDescriptor} {model : Model}
    (h : Model.build files = .ok model) :
    ∃ records, Records.ofFiles files = .ok records ∧
      ∀ m ∈ model.messages, ∀ i field, m.fields[i]? = some field →
        ∃ record, records ⟨m.place, i⟩ = some record ∧ record = .ofType field.type ∧
          record.Consistent ∧
          (record.shape = .messageList → ∀ ref, record.message = some ref →
            ∀ t ∈ model.messages, t.place = ref.place → t.mapEntry = false) ∧
          ∀ path, record.schemaType? path = some (field.type.schemaType path) ∧
            record.itemType? path = some (field.type.itemType path) ∧
            record.declared? path = some (field.type.schemaType path).declared := by
  have hmodel := Model.build_coherent h
  obtain ⟨c, rfl⟩ := Construction.exists_of_build h
  refine ⟨_, c.ofFiles_eq, fun m hm i field hfield => ?_⟩
  have hlookup := c.lookup_settled hm hfield
  refine ⟨.ofType field.type, ?_, rfl, FieldRecord.consistent_ofType _, ?_, fun path => ?_⟩
  · simp only [Records.ofSettled, hlookup]
  · intro hshape ref href t ht hplace
    have htype := FieldRecord.eq_list_of_shape hshape href
    rw [htype] at hlookup
    have hentry := mapEntry_of_settle (by simp) c.settleAll_eq (mem_of_lookup_settled hlookup)
    have hmessage : field.type.message? = some ref := by rw [htype]; rfl
    rw [hmodel.ref_eq hm ht (List.mem_of_getElem? hfield) hmessage hplace] at hentry
    exact hentry
  · refine ⟨FieldRecord.schemaType?_ofType path _, FieldRecord.itemType?_ofType path _, ?_⟩
    rw [FieldRecord.declared?_eq, FieldRecord.schemaType?_ofType]
    rfl

/-- Two entry messages whose values are lists of each other: the first map is folded before the
    second one, and the field of the node after both. -/
theorem Model.build_fields_consistent_of_mutual_entries :
    let left : MessageRef := ⟨"LeftEntry", "Node.LeftEntry", "node", ⟨0, [0, 0]⟩, true⟩
    let entry (name other : String) (key : Scalar) : MessageDescriptor :=
      { name, mapEntry := true, fields :=
        [{ name := "key", number := 1, kind := .scalar key },
         { name := "value", number := 2, kind := .message, label := .repeated,
           typeName := ".Node." ++ other }] }
    let files : List FileDescriptor :=
      [{ name := "node.proto", messages := [{ name := "Node", messages :=
        [entry "LeftEntry" "RightEntry" .string, entry "RightEntry" "LeftEntry" .int32], fields :=
        [{ name := "left", number := 1, kind := .message, label := .repeated,
           typeName := ".Node.LeftEntry" }] }] }]
    let filled (name : String) (key : Scalar) (value : FieldType) (place : Place) :
        Message Field :=
      ⟨name, .text ("Node." ++ name), "node", place,
        [⟨"key", 1, .single (.scalar key), false, none⟩, ⟨"value", 2, value, false, none⟩], [], [],
        false, true⟩
    let model : Model := ⟨[⟨"node.proto", "node", "", [],
      [⟨"Node", "Node", "node", ⟨0, [0]⟩,
        [⟨"left", 1, .map (some .string) (some (.message left)), false, none⟩], [],
        [filled "LeftEntry" .string (.map (some .int32) (some (.message left))) ⟨0, [0, 0]⟩,
         filled "RightEntry" .int32 (.map (some .string) (some (.message left))) ⟨0, [0, 1]⟩],
        false, false⟩]⟩]⟩
    Model.build files = .ok model ∧
      ∃ records, Records.ofFiles files = .ok records ∧
        ∃ record, records ⟨⟨0, [0]⟩, 0⟩ = some record ∧ record.Consistent ∧
          record = { shape := .map, message := some left, mapKey := some .string,
                     mapValueShape := some .message } ∧
          record.declared? "node" = some "Record<string, LeftEntry>" := by
  intro left entry files filled model
  have hmodel : Model.build files = .ok model := by rfl
  obtain ⟨records, hrecords, hfields⟩ := Model.build_fields_consistent hmodel
  have hnode : model.messages.head? = some ⟨"Node", "Node", "node", ⟨0, [0]⟩,
      [⟨"left", 1, .map (some .string) (some (.message left)), false, none⟩], [], _, false,
      false⟩ := rfl
  obtain ⟨record, hrecord, rfl, hconsistent, _, hread⟩ :=
    hfields _ (List.mem_of_head? hnode) 0 _ rfl
  refine ⟨hmodel, records, hrecords, _, hrecord, hconsistent, rfl, ?_⟩
  rw [(hread "node").2.2]
  decide

end ProtoSchema
