import ProtoSchema.Model.Reference

set_option autoImplicit false

/-! # The types of fields

A resolved field is a single value, a list, or a map. It is a map if it is repeated and refers to
the message of a map's entries, whose first two fields are the key and the value. Fields are settled
one after the other, and a map takes its key and value as they stand at that point: a field of the
entry message that is itself a map and was settled earlier counts by its value. -/

namespace ProtoSchema

/-- The fields settled so far. -/
abbrev Settled := List (SlotId × FieldType)

/-- What a slot refers to at this point, or `none` if there is no such slot. -/
def currentTarget? (references : List Reference) (settled : Settled) (id : SlotId) :
    Option (Option Target) :=
  match settled.lookup id with
  | some type => some type.target?
  | none => (references.find? fun r => r.id = id).map Reference.target

/-- The map whose entries are the given message. -/
def mapType (references : List Reference) (settled : Settled) (entry : Place) :
    Except Error FieldType :=
  match currentTarget? references settled ⟨entry, 0⟩,
      currentTarget? references settled ⟨entry, 1⟩ with
  | some key, some value => .ok (.map (key.bind Target.scalar?) value)
  | _, _ => .error .shortMapEntry

/-- The type of a resolved field. -/
def Reference.type (references : List Reference) (settled : Settled) (r : Reference) :
    Except Error FieldType :=
  match r.target with
  | none => .ok .unknown
  | some target =>
    if r.repeated then
      match target with
      | .message ref =>
        if ref.mapEntry then mapType references settled ref.place else .ok (.list target)
      | _ => .ok (.list target)
    else .ok (.single target)

/-- Settle the remaining fields in order. -/
def settle (references : List Reference) : List Reference → Settled → Except Error Settled
  | [], settled => .ok settled
  | r :: rest, settled => do
    let type ← r.type references settled
    settle references rest ((r.id, type) :: settled)

/-- Settle all fields. -/
def settleAll (references : List Reference) : Except Error Settled :=
  settle references references []

end ProtoSchema
