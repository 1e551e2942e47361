import ProtoSchema.Rules.Payload
import ProtoSchema.Scalar

set_option autoImplicit false

/-! # Schema files as they are given

The description of schema files that generation starts from: files with messages and enums,
messages with fields, nested messages and nested enums. Fields name the types they refer to; what
those names mean is settled by the model. -/

namespace ProtoSchema

/-! ## Enums -/

/-- A named value of an enum. -/
structure EnumValue where
  name : RawText
  number : Int
deriving DecidableEq

/-- An enum declaration. -/
structure EnumDescriptor where
  name : RawText := ""
  values : List EnumValue := []
  deprecated : Bool := false

/-! ## Fields -/

/-- How often a field occurs. -/
inductive Label where
  | optional | required | repeated
deriving DecidableEq

/-- The options of a field. -/
structure FieldOptions where
  deprecated : Bool := false
  rules : Option FieldRules := none

/-- A field declaration. A field whose kind is not given is a double. -/
structure FieldDescriptor where
  name : RawText := ""
  number : Int := 0
  kind : FieldKind := .scalar .double
  label : Label := .optional
  /-- The name of the enum or message that the field refers to. -/
  typeName : RawText := ""
  /-- The field is marked optional in so many words. -/
  markedOptional : Bool := false
  options : Option FieldOptions := none

/-! ## Messages and files -/

/-- A message declaration. -/
structure MessageDescriptor where
  name : RawText := ""
  fields : List FieldDescriptor := []
  messages : List MessageDescriptor := []
  enums : List EnumDescriptor := []
  deprecated : Bool := false
  /-- The message stands for the entries of a map. -/
  mapEntry : Bool := false

/-- A schema file. -/
structure FileDescriptor where
  name : RawText := ""
  package : RawText := ""
  enums : List EnumDescriptor := []
  messages : List MessageDescriptor := []

/-- Whether the options of a field mark it as deprecated. -/
def FieldDescriptor.deprecated (field : FieldDescriptor) : Bool :=
  field.options.any FieldOptions.deprecated

end ProtoSchema
