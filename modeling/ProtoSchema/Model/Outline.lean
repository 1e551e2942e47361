import ProtoSchema.Error
import ProtoSchema.Model.Basic
import ProtoSchema.ModulePath

set_option autoImplicit false

/-! # Full names and places

The first step towards a model gives every declaration its full name, the file that owns it and its
place. Fields are left as they were declared. -/

namespace ProtoSchema

/-- The full name of a declaration in a scope. -/
def qualify (scope name : RawText) : RawText :=
  if scope.isEmpty then name else .text (scope.shown ++ "." ++ name.shown)

/-- An enum declared in a scope of a file. -/
def EnumDescriptor.outline (scope : RawText) (file : String) (e : EnumDescriptor) : Enum :=
  ⟨e.name, qualify scope e.name, file, e.values, e.deprecated⟩

mutual

/-- A message declared in a scope of a file, at the given place. -/
def MessageDescriptor.outline (scope : RawText) (file : String) (place : Place) :
    MessageDescriptor → Message FieldDescriptor
  | ⟨name, fields, messages, enums, deprecated, mapEntry⟩ =>
    let fullName := qualify scope name
    { name, fullName, file, place, fields
      enums := enums.map (·.outline fullName file)
      messages := MessageDescriptor.outlineAll fullName file place 0 messages
      deprecated, mapEntry }

/-- The messages nested in the message at `place`, numbered from `index` on. -/
def MessageDescriptor.outlineAll (scope : RawText) (file : String) (place : Place) (index : Nat) :
    List MessageDescriptor → List (Message FieldDescriptor)
  | [] => []
  | m :: ms =>
    m.outline scope file ⟨place.file, place.path ++ [index]⟩ ::
      MessageDescriptor.outlineAll scope file place (index + 1) ms

end

/-- A file with a decoded name, as the `index`-th of the input. -/
def FileDescriptor.outlineAs (index : Nat) (name : String) (file : FileDescriptor) :
    SchemaFile FieldDescriptor :=
  let path := ModulePath.logical name
  { sourceName := name
    path
    package := file.package.shown
    enums := file.enums.map (·.outline file.package path)
    messages := MessageDescriptor.outlineAll file.package path ⟨index, []⟩ 0 file.messages }

/-- A file, as the `index`-th of the input. Its name has to be decoded, because the logical path is
    cut from its end. -/
def FileDescriptor.outline (index : Nat) (file : FileDescriptor) :
    Except Error (SchemaFile FieldDescriptor) :=
  match file.name with
  | .text name => .ok (file.outlineAs index name)
  | .undecodable _ => .error (.undecodableText .ending)

end ProtoSchema
