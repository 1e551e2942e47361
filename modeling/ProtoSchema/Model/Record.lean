import ProtoSchema.Model.Build

set_option autoImplicit false

/-! # Fields as records

A field as a record with a member for each thing that may come to be known of it. The members are
filled in phases: all references first, then all shapes, where a map takes over the references of
the records of its key and its value as they stand at that point (`Records.assign`). Nothing in a
record says which members go together. -/

namespace ProtoSchema

/-! ## Shapes -/

/-- The shape of a field. -/
inductive Shape where
  | unknown | scalar | enum | message | scalarList | enumList | messageList | map
deriving DecidableEq

namespace Shape

/-- The shape of a single value, and of a list of such values. -/
def ofTarget : Target → Shape × Shape
  | .scalar _ => (scalar, scalarList)
  | .enum _ => (enum, enumList)
  | .message _ => (message, messageList)

def isList (shape : Shape) : Bool :=
  shape = scalarList || shape = enumList || shape = messageList

/-- The shape of a list of values of a shape. -/
def listed : Shape → Shape
  | scalar => scalarList
  | enum => enumList
  | message => messageList
  | shape => shape

/-- The shape of the items of a list. Other shapes are left as they are. -/
def item : Shape → Shape
  | scalarList => scalar
  | enumList => enum
  | messageList => message
  | shape => shape

end Shape

/-- The shape of a type. -/
def FieldType.shape : FieldType → Shape
  | unknown => .unknown
  | single target => (Shape.ofTarget target).1
  | list target => (Shape.ofTarget target).2
  | map _ _ => .map

/-! ## Records -/

/-- What is known of a field. -/
structure FieldRecord where
  shape : Shape := .unknown
  scalar : Option Scalar := none
  enum : Option EnumRef := none
  message : Option MessageRef := none
  mapKey : Option Scalar := none
  mapValueShape : Option Shape := none
deriving DecidableEq

namespace FieldRecord

/-- The record of a field of which only the reference is known. -/
def ofTarget (target : Option Target) : FieldRecord :=
  { scalar := target.bind Target.scalar?
    enum := target.bind Target.enum?
    message := target.bind Target.message? }

/-- The shape that the references of a record give to a single value. -/
def single (r : FieldRecord) : Shape :=
  if r.enum.isSome then .enum
  else if r.message.isSome then .message
  else if r.scalar.isSome then .scalar
  else .unknown

/-- The record of a map, from the records of its key and of its value. -/
def fold (key value : FieldRecord) : FieldRecord :=
  { shape := .map
    scalar := value.scalar
    enum := value.enum
    message := value.message
    mapKey := key.scalar
    mapValueShape := some value.single }

end FieldRecord

/-! ## Filling -/

/-- The records of fields, by slot. -/
abbrev Records := SlotId → Option FieldRecord

namespace Records

/-- The records once all references are known. -/
def ofReferences (references : List Reference) : Records :=
  fun id => (references.find? fun r => r.id = id).map fun r => .ofTarget r.target

/-- Put in the record of a slot. -/
def set (records : Records) (id : SlotId) (record : FieldRecord) : Records :=
  fun other => if other = id then some record else records other

/-- The message whose fields are the key and the value of a map, if a record makes one. -/
def entry? (repeated : Bool) (record : FieldRecord) : Option MessageRef :=
  if repeated && record.single = .message then record.message.filter MessageRef.mapEntry else none

/-- Give the field of a reference its shape. A map is folded from the records of its key and its
    value as they stand at this point. -/
def assign (records : Records) (r : Reference) : Except Error Records :=
  match records r.id with
  | none => .ok records
  | some record =>
    match entry? r.repeated record with
    | some entry =>
      match records ⟨entry.place, 0⟩, records ⟨entry.place, 1⟩ with
      | some key, some value => .ok (records.set r.id (.fold key value))
      | _, _ => .error .shortMapEntry
    | none =>
      let shape := if r.repeated then record.single.listed else record.single
      .ok (records.set r.id { record with shape })

/-- Give all fields their shapes, one after the other. -/
def fill (references : List Reference) : Except Error Records :=
  references.foldlM assign (ofReferences references)

end Records

/-- The records that schema files are filled in to. -/
def Records.ofFiles (files : List FileDescriptor) : Except Error Records := do
  let outlined ← Model.outline files
  let references ← resolveAll (outlined.flatMap SchemaFile.declarations)
    (outlined.flatMap fun file => Message.slotsAll file.messages)
  fill references

end ProtoSchema
