import ProtoSchema.Error
import ProtoSchema.Model.Record
import ProtoSchema.ModulePath
import ProtoSchema.SchemaType

set_option autoImplicit false

/-! # Types and imports of fields

The type of a field in the module generated for a file, and the import that its use needs. Enums are
imported from the module that defines the message types, messages of other files from their schema
modules; messages of the file itself and well-known messages need no import. -/

namespace ProtoSchema

/-- The scalar type with a given number, which has to be that of a scalar type. -/
def Scalar.ofNumber (n : Int) : Except Error Scalar :=
  match Scalar.ofNumber? n with
  | some s => .ok s
  | none => .error (.notScalar n)

/-- A name that a module imports from another one. -/
structure Import where
  name : RawText
  path : String
deriving DecidableEq

namespace Target

/-- The type of a reference, in the module of the file with the given path. -/
def schemaType (path : String) : Target → SchemaType
  | scalar type => type.schemaType
  | enum ref => .enum ref.name
  | message ref =>
    match SchemaType.wellKnown? ref.fullName with
    | some type => type
    | none => if ref.file = path then .own ref.name else .foreign ref.name

/-- The import that a reference needs. -/
def import? (path : String) : Target → Option Import
  | scalar _ => none
  | enum ref => some ⟨ref.name, ModulePath.specifier path ref.file ModulePath.typesEnding⟩
  | message ref =>
    if (SchemaType.wellKnown? ref.fullName).isSome || ref.file = path then none
    else some ⟨Name.schema ref.name.shown,
      ModulePath.specifier path ref.file ModulePath.schemaEnding⟩

/-- Whether a reference is to the schema of a message. -/
def isSchema : Target → Bool
  | message ref => (SchemaType.wellKnown? ref.fullName).isNone
  | _ => false

end Target

namespace FieldType

/-- The type of a field in the module of the file with the given path. -/
def schemaType (path : String) : FieldType → SchemaType
  | unknown => .unknown
  | single target => target.schemaType path
  | list target => .array (target.schemaType path)
  | map key value => .record key ((value.map (Target.schemaType path)).getD .unknown)

/-- The import that a field needs. -/
def import? (path : String) (t : FieldType) : Option Import :=
  t.target?.bind (Target.import? path)

end FieldType

/-- Whether a field may be absent, apart from its rules. Fields of every supported kind have a
    default value, so they may. -/
def Field.mayBeAbsent (field : Field) : Bool :=
  field.markedOptional || field.type ≠ .unknown

/-! ## Reading records by their shapes -/

namespace FieldRecord

/-- The type of a single value of a shape. The enum or message that the shape promises has to be
    there; there is no type otherwise. -/
def singleType? (path : String) (r : FieldRecord) : Shape → Option SchemaType
  | .scalar => some ((r.scalar.map Scalar.schemaType).getD .unknown)
  | .enum => r.enum.map fun ref => (Target.enum ref).schemaType path
  | .message => r.message.map fun ref => (Target.message ref).schemaType path
  | _ => some .unknown

/-- The type of the items of a list. -/
def itemType? (path : String) (r : FieldRecord) : Option SchemaType :=
  r.singleType? path r.shape.item

/-- The type of a field. -/
def schemaType? (path : String) (r : FieldRecord) : Option SchemaType :=
  if r.shape = .map then
    (r.singleType? path (r.mapValueShape.getD .unknown)).map (.record r.mapKey)
  else if r.shape.isList then (r.itemType? path).map .array
  else r.singleType? path r.shape

/-- The static type of a single value of a shape, under the same condition. -/
def singleDeclared? (path : String) (r : FieldRecord) : Shape → Option String
  | .scalar => some (Scalar.declaredOr "unknown" r.scalar)
  | .enum => r.enum.map fun ref => ref.name.shown
  | .message => r.message.map fun ref =>
    match WellKnown.ofName? ref.fullName with
    | some message => message.declared
    | none =>
      if ref.file = path then ref.name.shown
      else "z.infer<typeof " ++ Name.schema ref.name.shown ++ ">"
  | _ => some "unknown"

/-- The static type of a field. -/
def declared? (path : String) (r : FieldRecord) : Option String :=
  if r.shape = .map then
    (r.singleDeclared? path (r.mapValueShape.getD .unknown)).map fun value =>
      "Record<" ++ SchemaType.keyDeclared r.mapKey ++ ", " ++ value ++ ">"
  else if r.shape.isList then (r.singleDeclared? path r.shape.item).map (· ++ "[]")
  else r.singleDeclared? path r.shape

end FieldRecord

end ProtoSchema
