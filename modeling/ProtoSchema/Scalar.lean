set_option autoImplicit false

/-! # Scalar types and field kinds

The scalar types of schema files, and the kinds of type a field may be declared with: a scalar, an
enum, a message, or a group. The numbers are those by which field descriptors name the kinds. -/

namespace ProtoSchema

/-- A scalar type. -/
inductive Scalar where
  | double | float | int64 | uint64 | int32 | fixed64 | fixed32 | bool | string | bytes | uint32
  | sfixed32 | sfixed64 | sint32 | sint64
deriving DecidableEq

namespace Scalar

/-- All scalar types, by their number. -/
def all : List Scalar :=
  [double, float, int64, uint64, int32, fixed64, fixed32, bool, string, bytes, uint32, sfixed32,
   sfixed64, sint32, sint64]

/-- The number of a scalar type in a field descriptor. -/
def number : Scalar → Nat
  | double => 1
  | float => 2
  | int64 => 3
  | uint64 => 4
  | int32 => 5
  | fixed64 => 6
  | fixed32 => 7
  | bool => 8
  | string => 9
  | bytes => 12
  | uint32 => 13
  | sfixed32 => 15
  | sfixed64 => 16
  | sint32 => 17
  | sint64 => 18

/-- The scalar type with a given number. -/
def ofNumber? (n : Int) : Option Scalar :=
  all.find? fun s => (s.number : Int) = n

/-- A scalar type is found by its number. -/
theorem ofNumber?_number (s : Scalar) : ofNumber? s.number = some s := by
  cases s <;> rfl

end Scalar

/-- The kind of type a field is declared with. -/
inductive FieldKind where
  | scalar (type : Scalar)
  | group
  | message
  | enum
deriving DecidableEq

/-- The field kind with a given number. -/
def FieldKind.ofNumber? (n : Int) : Option FieldKind :=
  if n = 10 then some .group
  else if n = 11 then some .message
  else if n = 14 then some .enum
  else (Scalar.ofNumber? n).map .scalar

end ProtoSchema
