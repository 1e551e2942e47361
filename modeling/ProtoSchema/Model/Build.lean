import ProtoSchema.Model.Shape

set_option autoImplicit false

/-! # Building and searching the model

`Model.build` outlines the files, resolves all references, settles the types of all fields, and puts
them into the outline. All references are resolved before any type is settled, so an unresolved
reference is reported before a malformed map, and a file name that cannot be decoded before both. -/

namespace ProtoSchema

/-- A set of schema files with every field resolved, in input order. -/
structure Model where
  files : List (SchemaFile Field)

namespace Model

/-! ## Building -/

/-- The field of a slot, given the settled types. -/
def typedField (settled : Settled) (place : Place) (index : Nat) (d : FieldDescriptor) : Field :=
  { name := d.name
    number := d.number
    type := (settled.lookup ⟨place, index⟩).getD .unknown
    markedOptional := d.markedOptional
    options := d.options }

/-- The outlines of the input files. -/
def outline (files : List FileDescriptor) : Except Error (List (SchemaFile FieldDescriptor)) :=
  (files.mapIdx FileDescriptor.outline).mapM id

/-- Resolve a set of files. -/
def build (files : List FileDescriptor) : Except Error Model := do
  let outlined ← outline files
  let types := outlined.flatMap SchemaFile.declarations
  let references ← resolveAll types (outlined.flatMap fun file => Message.slotsAll file.messages)
  let settled ← settleAll references
  return ⟨outlined.map (·.mapFields (typedField settled))⟩

/-! ## Searching -/

/-- Put a file into a catalogue: a file of the same name is replaced where it stands. -/
def catalogInsert (file : SchemaFile Field) :
    List (String × SchemaFile Field) → List (String × SchemaFile Field)
  | [] => [(file.sourceName, file)]
  | entry :: rest =>
    if entry.1 = file.sourceName then (file.sourceName, file) :: rest
    else entry :: catalogInsert file rest

/-- The files by name, in the order in which the names first occur. -/
def catalog (model : Model) : List (String × SchemaFile Field) :=
  model.files.foldl (fun entries file => catalogInsert file entries) []

/-- A file by its name, or else by its logical path. -/
def file? (model : Model) (name : String) : Option (SchemaFile Field) :=
  match model.catalog.lookup name with
  | some file => some file
  | none => (model.catalog.find? fun entry => entry.2.path = name).map Prod.snd

/-- A file by its name, which has to be there. -/
def file (model : Model) (name : RawText) : Except Error (SchemaFile Field) :=
  match name.decoded?.bind model.file? with
  | some file => .ok file
  | none => .error (.unknownFile name.shown)

/-- A declared type by its full name. -/
def findType? (model : Model) (fullName : String) : Option (Declaration Field) :=
  Declarations.find? (model.files.flatMap SchemaFile.declarations) fullName

end Model

end ProtoSchema
