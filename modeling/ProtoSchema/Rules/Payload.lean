import ProtoSchema.Decimal.Binary64
import ProtoSchema.Text.Raw

set_option autoImplicit false

/-! # Validation rules as they are declared

The rules that an annotation attaches to a field, one payload type for each kind of rule. A member
that may be absent is an `Option`, because some rules count by presence. Members that have no
bearing on schemas are kept where they belong to a rule kind, so that what is honoured and what is
not can be told apart; expressions in other languages are left out altogether. -/

namespace ProtoSchema

/-! ## Numbers -/

/-- The 32-bit integer kinds. -/
inductive Int32Kind where
  | int32 | uint32 | sint32 | fixed32 | sfixed32
deriving DecidableEq

/-- The 64-bit integer kinds. -/
inductive Int64Kind where
  | int64 | uint64 | sint64 | fixed64 | sfixed64
deriving DecidableEq

/-- The floating-point kinds. -/
inductive FloatKind where
  | float | double
deriving DecidableEq

/-- One end of a range. -/
structure Bound (α : Type) where
  inclusive : Bool
  value : α
deriving DecidableEq

/-- Rules for numbers: a range with at most one lower and one upper bound, a required value, and
    lists of allowed and forbidden values. -/
structure NumericRules (α : Type) where
  lower : Option (Bound α) := none
  upper : Option (Bound α) := none
  const : Option α := none
  oneOf : List α := []
  noneOf : List α := []
deriving DecidableEq

/-- Rules for floating-point numbers, which may also have to be finite. -/
structure FloatRules where
  number : NumericRules Binary64 := {}
  finite : Bool := false
deriving DecidableEq

/-! ## Strings and bytes -/

/-- The named formats of strings. -/
inductive StringFormat where
  | email | hostname | ip | ipv4 | ipv6 | uri | uriRef | address | uuid | ipWithLength
  | ipv4WithLength | ipv6WithLength | ipNetwork | ipv4Network | ipv6Network | hostAndPort | tuuid
  | ulid | qualifiedName | dottedName
deriving DecidableEq

/-- The choice of a format: a named one, switched on or off, or one of the numbered header
    patterns. -/
inductive FormatRule where
  | named (format : StringFormat) (on : Bool)
  | header (number : Nat)
deriving DecidableEq

/-- Rules for strings. -/
structure StringRules where
  const : Option RawText := none
  len : Option Nat := none
  minLen : Option Nat := none
  maxLen : Option Nat := none
  lenBytes : Option Nat := none
  minBytes : Option Nat := none
  maxBytes : Option Nat := none
  pattern : Option RawText := none
  startsWith : Option RawText := none
  endsWith : Option RawText := none
  contains : Option RawText := none
  notContains : Option RawText := none
  oneOf : List RawText := []
  noneOf : List RawText := []
  format : Option FormatRule := none
  strict : Option Bool := none
deriving DecidableEq

/-- The named formats of byte strings. -/
inductive BytesFormat where
  | ip | ipv4 | ipv6 | uuid
deriving DecidableEq

/-- Rules for byte strings. -/
structure BytesRules where
  const : Option (List UInt8) := none
  len : Option Nat := none
  minLen : Option Nat := none
  maxLen : Option Nat := none
  pattern : Option RawText := none
  startsWith : Option (List UInt8) := none
  endsWith : Option (List UInt8) := none
  contains : Option (List UInt8) := none
  oneOf : List (List UInt8) := []
  noneOf : List (List UInt8) := []
  format : Option (BytesFormat × Bool) := none
deriving DecidableEq

/-! ## Enums, lists and maps -/

/-- Rules for enum values, by their numbers. -/
structure EnumRules where
  const : Option Int := none
  definedOnly : Bool := false
  oneOf : List Int := []
  noneOf : List Int := []
deriving DecidableEq

/-- Rules for lists; `ρ` is the type of the rules for their items. -/
structure ListRules (ρ : Type) where
  minItems : Option Nat := none
  maxItems : Option Nat := none
  unique : Bool := false
  items : Option ρ := none

/-- Rules for maps; `ρ` is the type of the rules for keys and values. -/
structure MapRules (ρ : Type) where
  minPairs : Option Nat := none
  maxPairs : Option Nat := none
  keys : Option ρ := none
  values : Option ρ := none

/-! ## Fields -/

/-- Kinds of rules for particular messages; none of them has an effect on schemas. -/
inductive MessageRuleKind where
  | any | duration | fieldMask | timestamp
deriving DecidableEq

/-- The rules of one kind; `ρ` is the type of the rules nested inside them. -/
inductive KindRules (ρ : Type) where
  | int32 (kind : Int32Kind) (rules : NumericRules Int)
  | int64 (kind : Int64Kind) (rules : NumericRules Int)
  | float (kind : FloatKind) (rules : FloatRules)
  | bool (const : Option Bool)
  | string (rules : StringRules)
  | bytes (rules : BytesRules)
  | enum (rules : EnumRules)
  | list (rules : ListRules ρ)
  | map (rules : MapRules ρ)
  | message (kind : MessageRuleKind)

/-- The rules of a field: whether it is required, and the rules of at most one kind. -/
structure FieldRules where
  required : Bool := false
  kind : Option (KindRules FieldRules) := none

end ProtoSchema
