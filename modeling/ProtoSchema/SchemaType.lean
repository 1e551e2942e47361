import ProtoSchema.Name
import ProtoSchema.Scalar
import ProtoSchema.Text.Raw

set_option autoImplicit false

/-! # Types in a generated module

A type is a tree with two readings: `SchemaType.schema` is the expression of the schema that
validates it, `SchemaType.declared` the static type that values accepted by the schema have. For
scalar types and for well-known messages each reading has a table of its own. -/

namespace ProtoSchema

/-! ## Scalar types -/

namespace Scalar

/-- The schemas of scalar types. 64-bit integers are held in strings. -/
def schemas : List (Scalar × String) :=
  [(string, "z.string()"),
   (bool, "z.boolean()"),
   (int32, "z.number().int()"),
   (sint32, "z.number().int()"),
   (sfixed32, "z.number().int()"),
   (uint32, "z.number().int().nonnegative()"),
   (fixed32, "z.number().int().nonnegative()"),
   (int64, "z.string()"),
   (sint64, "z.string()"),
   (sfixed64, "z.string()"),
   (uint64, "z.string()"),
   (fixed64, "z.string()"),
   (float, "z.number()"),
   (double, "z.number()"),
   (bytes, "z.instanceof(Uint8Array)")]

/-- The static types of scalar types. -/
def staticTypes : List (Scalar × String) :=
  [(string, "string"),
   (bool, "boolean"),
   (int32, "number"),
   (sint32, "number"),
   (sfixed32, "number"),
   (uint32, "number"),
   (fixed32, "number"),
   (int64, "string"),
   (sint64, "string"),
   (sfixed64, "string"),
   (uint64, "string"),
   (fixed64, "string"),
   (float, "number"),
   (double, "number"),
   (bytes, "Uint8Array")]

/-- The schema of a scalar type that may be lacking. -/
def schemaOf (type : Option Scalar) : String :=
  (type.bind fun s => schemas.lookup s).getD "z.unknown()"

/-- The static type of a scalar type that may be lacking, or else the given one. -/
def declaredOr (other : String) (type : Option Scalar) : String :=
  (type.bind fun s => staticTypes.lookup s).getD other

end Scalar

/-! ## Well-known messages -/

/-- The messages that are plain values and are never imported. -/
inductive WellKnown where
  | timestamp | duration | any | struct | value | listValue | empty | stringValue | int32Value
  | int64Value | uint32Value | uint64Value | floatValue | doubleValue | boolValue | bytesValue
deriving DecidableEq

namespace WellKnown

def all : List WellKnown :=
  [timestamp, duration, any, struct, value, listValue, empty, stringValue, int32Value, int64Value,
   uint32Value, uint64Value, floatValue, doubleValue, boolValue, bytesValue]

/-- The full name of the message. -/
def fullName : WellKnown → String
  | timestamp => "google.protobuf.Timestamp"
  | duration => "google.protobuf.Duration"
  | any => "google.protobuf.Any"
  | struct => "google.protobuf.Struct"
  | value => "google.protobuf.Value"
  | listValue => "google.protobuf.ListValue"
  | empty => "google.protobuf.Empty"
  | stringValue => "google.protobuf.StringValue"
  | int32Value => "google.protobuf.Int32Value"
  | int64Value => "google.protobuf.Int64Value"
  | uint32Value => "google.protobuf.UInt32Value"
  | uint64Value => "google.protobuf.UInt64Value"
  | floatValue => "google.protobuf.FloatValue"
  | doubleValue => "google.protobuf.DoubleValue"
  | boolValue => "google.protobuf.BoolValue"
  | bytesValue => "google.protobuf.BytesValue"

/-- The schema of the value. -/
def schema : WellKnown → String
  | timestamp => "z.coerce.date()"
  | duration => "z.string()"
  | any => "z.unknown()"
  | struct => "z.record(z.string(), z.any())"
  | value => "z.any()"
  | listValue => "z.array(z.any())"
  | empty => "z.object(\x7b\x7d)"
  | stringValue => "z.string()"
  | int32Value => "z.number().int()"
  | int64Value => "z.number().int()"
  | uint32Value => "z.number().int().nonnegative()"
  | uint64Value => "z.number().int().nonnegative()"
  | floatValue => "z.number()"
  | doubleValue => "z.number()"
  | boolValue => "z.boolean()"
  | bytesValue => "z.instanceof(Uint8Array)"

/-- The static type of the value. -/
def declared : WellKnown → String
  | timestamp => "Date"
  | duration => "string"
  | any => "unknown"
  | struct => "Record<string, any>"
  | value => "any"
  | listValue => "any[]"
  | empty => "Record<string, never>"
  | stringValue => "string"
  | int32Value => "number"
  | int64Value => "number"
  | uint32Value => "number"
  | uint64Value => "number"
  | floatValue => "number"
  | doubleValue => "number"
  | boolValue => "boolean"
  | bytesValue => "Uint8Array"

/-- The well-known message with a given full name. -/
def ofName? (fullName : RawText) : Option WellKnown :=
  fullName.decoded?.bind fun name => all.find? fun w => w.fullName = name

end WellKnown

/-! ## Types -/

/-- The type of a value in a generated module. -/
inductive SchemaType where
  | unknown
  | scalar (type : Scalar)
  /-- A message that is a plain value. -/
  | wellKnown (message : WellKnown)
  /-- An enum object. -/
  | enum (name : RawText)
  /-- A message of the module itself. -/
  | own (name : RawText)
  /-- A message of the module itself whose schema is looked up only when it is used. -/
  | deferred (name : RawText)
  /-- A message of another module. -/
  | foreign (name : RawText)
  | array (item : SchemaType)
  /-- A record; its keys are of a scalar type, which may be lacking in a malformed map. -/
  | record (key : Option Scalar) (value : SchemaType)
deriving DecidableEq

/-- The type of the values of a scalar type. -/
def Scalar.schemaType (type : Scalar) : SchemaType :=
  .scalar type

namespace SchemaType

/-- The type of a well-known message, given its full name. -/
def wellKnown? (fullName : RawText) : Option SchemaType :=
  (WellKnown.ofName? fullName).map wellKnown

/-- The schema of the keys of a record. -/
def keySchema (key : Option Scalar) : String :=
  Scalar.schemaOf key

/-- The expression of the schema that validates the type. -/
def schema : SchemaType → String
  | unknown => "z.unknown()"
  | scalar type => Scalar.schemaOf type
  | wellKnown message => message.schema
  | enum name => "z.enum(" ++ name.shown ++ ")"
  | own name => Name.schema name.shown
  | deferred name => "z.lazy(() => " ++ Name.schema name.shown ++ ")"
  | foreign name => Name.schema name.shown
  | array item => "z.array(" ++ item.schema ++ ")"
  | record key value => "z.record(" ++ keySchema key ++ ", " ++ value.schema ++ ")"

/-- The static type of the keys of a record. -/
def keyDeclared (key : Option Scalar) : String :=
  Scalar.declaredOr "string" key

/-- The static type of the values that the schema accepts. -/
def declared : SchemaType → String
  | unknown => "unknown"
  | scalar type => Scalar.declaredOr "unknown" type
  | wellKnown message => message.declared
  | enum name => name.shown
  | own name => name.shown
  | deferred name => name.shown
  | foreign name => "z.infer<typeof " ++ Name.schema name.shown ++ ">"
  | array item => item.declared ++ "[]"
  | record key value => "Record<" ++ keyDeclared key ++ ", " ++ value.declared ++ ">"

/-! ## Deferred references -/

/-- Defer the references to the messages of the module that `names` holds. -/
def defer (names : List RawText) : SchemaType → SchemaType
  | own name => if names.contains name then deferred name else own name
  | array item => array (item.defer names)
  | record key value => record key (value.defer names)
  | t => t

/-- Deferring a reference does not change the static type. -/
theorem declared_defer (names : List RawText) (t : SchemaType) :
    (t.defer names).declared = t.declared := by
  induction t with
  | own name =>
    show (if names.contains name then deferred name else own name).declared = name.shown
    split <;> rfl
  | array item ih => exact congrArg (· ++ "[]") ih
  | record key value ih =>
    exact congrArg (fun v => "Record<" ++ keyDeclared key ++ ", " ++ v ++ ">") ih
  | _ => rfl

end SchemaType

end ProtoSchema
