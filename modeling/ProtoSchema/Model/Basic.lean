import ProtoSchema.Descriptor

set_option autoImplicit false

/-! # The model of a set of schema files

The model says of every field what it holds. References are resolved, lists and maps are told
apart, and the synthetic message behind a map has been folded into the map's key and value.

`Message φ` and `SchemaFile φ` are parametrized by what they hold for a field: descriptors while the
model is built, resolved fields when it is complete. -/

namespace ProtoSchema

/-! ## Declarations and references -/

/-- The position of a message: the number of its file in the input, and the positions to follow
    from the file's messages inwards. Two messages are the same only if their places are. -/
structure Place where
  file : Nat
  path : List Nat
deriving DecidableEq

/-- An enum of a schema file. -/
structure Enum where
  name : RawText
  fullName : RawText
  /-- Logical path of the file that declares the enum. -/
  file : String
  values : List EnumValue
  deprecated : Bool

/-- A reference to an enum. -/
structure EnumRef where
  name : RawText
  fullName : RawText
  file : String
deriving DecidableEq

/-- A reference to a message. -/
structure MessageRef where
  name : RawText
  fullName : RawText
  file : String
  place : Place
  mapEntry : Bool
deriving DecidableEq

/-- What a field refers to. -/
inductive Target where
  | scalar (type : Scalar)
  | enum (ref : EnumRef)
  | message (ref : MessageRef)
deriving DecidableEq

namespace Target

/-- The scalar type referred to. -/
def scalar? : Target → Option Scalar
  | scalar type => some type
  | _ => none

/-- The enum referred to. -/
def enum? : Target → Option EnumRef
  | enum ref => some ref
  | _ => none

/-- The message referred to. -/
def message? : Target → Option MessageRef
  | message ref => some ref
  | _ => none

end Target

/-! ## Fields -/

/-- The type of a field. A map has a scalar key, which may be lacking in a malformed map, and a
    value, which may be of an unsupported kind. -/
inductive FieldType where
  | unknown
  | single (target : Target)
  | list (target : Target)
  | map (key : Option Scalar) (value : Option Target)
deriving DecidableEq

namespace FieldType

/-- What a field, an item of a list or a value of a map refers to. -/
def target? : FieldType → Option Target
  | unknown => none
  | single target => some target
  | list target => some target
  | map _ value => value

/-- Whether the field is a list. -/
def isList : FieldType → Bool
  | list _ => true
  | _ => false

/-- The message that a field, an item of a list or a value of a map refers to. -/
def message? (t : FieldType) : Option MessageRef :=
  t.target?.bind Target.message?

end FieldType

/-- A field of a message. -/
structure Field where
  name : RawText
  number : Int
  type : FieldType
  /-- The field is marked optional in so many words. -/
  markedOptional : Bool
  options : Option FieldOptions

/-- Whether the options of a field mark it as deprecated. -/
def Field.deprecated (field : Field) : Bool :=
  field.options.any FieldOptions.deprecated

/-! ## Messages and files -/

/-- A message with its nested declarations. -/
structure Message (φ : Type) where
  name : RawText
  fullName : RawText
  /-- Logical path of the file that declares the message. -/
  file : String
  place : Place
  fields : List φ
  enums : List Enum
  messages : List (Message φ)
  deprecated : Bool
  mapEntry : Bool

/-- A schema file. -/
structure SchemaFile (φ : Type) where
  /-- The name under which the file was given. -/
  sourceName : String
  /-- Logical path of the file. -/
  path : String
  package : String
  enums : List Enum
  messages : List (Message φ)

variable {φ : Type}

/-- The reference to an enum. -/
def Enum.ref (e : Enum) : EnumRef :=
  ⟨e.name, e.fullName, e.file⟩

/-- The reference to a message. -/
def Message.ref (m : Message φ) : MessageRef :=
  ⟨m.name, m.fullName, m.file, m.place, m.mapEntry⟩

mutual

/-- Replace what a message, and every message nested in it, holds for its fields. The replacement
    sees the place of the message and the position of the field. -/
def Message.mapFields {φ ψ : Type} (f : Place → Nat → φ → ψ) : Message φ → Message ψ
  | ⟨name, fullName, file, place, fields, enums, messages, deprecated, mapEntry⟩ =>
    ⟨name, fullName, file, place, fields.mapIdx (f place), enums,
      Message.mapFieldsAll f messages, deprecated, mapEntry⟩

/-- Replace what several messages hold for their fields. -/
def Message.mapFieldsAll {φ ψ : Type} (f : Place → Nat → φ → ψ) :
    List (Message φ) → List (Message ψ)
  | [] => []
  | m :: ms => m.mapFields f :: Message.mapFieldsAll f ms

end

/-- Replace what the messages of a file hold for their fields. -/
def SchemaFile.mapFields {ψ : Type} (f : Place → Nat → φ → ψ) (file : SchemaFile φ) :
    SchemaFile ψ :=
  { file with messages := Message.mapFieldsAll f file.messages }

mutual

/-- A message and all messages nested in it, outer ones first. -/
def Message.withNested {φ : Type} : Message φ → List (Message φ)
  | m@⟨_, _, _, _, _, _, messages, _, _⟩ => m :: Message.withNestedAll messages

/-- Several messages with all messages nested in them. -/
def Message.withNestedAll {φ : Type} : List (Message φ) → List (Message φ)
  | [] => []
  | m :: ms => m.withNested ++ Message.withNestedAll ms

end

end ProtoSchema
