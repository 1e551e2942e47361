import ProtoSchema.Dependency.Order
import ProtoSchema.Module.Expression
import ProtoSchema.Options
import ProtoSchema.Report

set_option autoImplicit false

/-! # Generated modules

A generated module as data: its imports, one export per enum, and one export per message in the
order of emission. `SchemaModule.ofFile` builds it from a file of the model. -/

namespace ProtoSchema

/-! ## The parts of a module -/

/-- The names imported from one path. -/
structure ImportLine where
  path : String
  names : List RawText
deriving DecidableEq

/-- A property of the schema of a message. -/
structure Property where
  name : String
  expression : Expression
  deprecated : Bool

/-- The static type of a property. -/
def Property.declaredType (p : Property) : String :=
  p.expression.type.declared

/-- Whether a property may be absent. -/
def Property.optional (p : Property) : Bool :=
  p.expression.optional

/-- The export of an enum. -/
structure EnumExport where
  name : String
  fullName : String
  values : List EnumValue
  deprecated : Bool

/-- The export of a message. -/
structure MessageExport where
  name : String
  fullName : String
  properties : List Property
  /-- The message refers to itself, directly or through others. -/
  recursive : Bool
  deprecated : Bool

/-- A generated module. -/
structure SchemaModule where
  /-- The name of the schema file. -/
  source : String
  /-- The path of the module. -/
  output : String
  imports : List ImportLine
  enums : List EnumExport
  messages : List MessageExport

/-! ## Imports -/

/-- Sort texts and drop repetitions. -/
def sortedTexts (texts : List String) : List String :=
  texts.eraseDups.mergeSort fun a b => decide (a ≤ b)

/-- Sort names and drop repetitions. -/
def sortedNames (names : List RawText) : List RawText :=
  names.eraseDups.mergeSort RawText.le

/-- The imports path by path: paths and names sorted, nothing twice. -/
def ImportLine.ofImports (imports : List Import) : List ImportLine :=
  (sortedTexts (imports.map Import.path)).map fun path =>
    ⟨path, sortedNames ((imports.filter fun i => i.path = path).map Import.name)⟩

/-- The imports that the fields of a message, and of the messages nested in it, need. -/
def Message.imports (path : String) (m : Message Field) : List Import :=
  m.withNested.flatMap fun nested =>
    nested.fields.filterMap fun field => field.type.import? path

/-- The imports of the enums of a file itself: the enum objects stand in the module that defines the
    message types. -/
def SchemaFile.enumImports (file : SchemaFile Field) : List Import :=
  file.enums.map fun e =>
    ⟨e.name, ModulePath.specifier file.path file.path ModulePath.typesEnding⟩

/-! ## Building -/

/-- The checks that the rules of a field ask for. A field with options needs the definitions of the
    rules. Rules that cannot be read are ignored with a notice, and so are all rules if their
    definitions are missing. -/
def Field.chain (field : Field) : Run Chain :=
  match field.options with
  | none => pure .empty
  | some options => do
    if ← .load then
      match options.rules with
      | none => return .empty
      | some rules =>
        match Chain.ofRules? rules with
        | some chain => return chain
        | none =>
          .tell (.unreadableRules field.name)
          return .empty
    else return .empty

/-- The property of a field. -/
def Field.property (path : String) (recursive : List RawText) (field : Field) :
    Run Property := do
  let chain ← field.chain
  let expression ← .ofExcept (field.expression path recursive chain)
  .ofExcept (TextUse.boundaries.refuseIf field.name.isUndecodable)
  return ⟨Name.camelCase field.name.shown, expression, field.deprecated⟩

/-- The export of a message. -/
def Message.exported (path : String) (recursive : List RawText) (m : Message Field) :
    Run MessageExport := do
  let properties ← m.fields.mapM (Field.property path recursive)
  return ⟨m.name.shown, m.fullName.shown, properties, recursive.contains m.name, m.deprecated⟩

/-- The messages of a file to generate. -/
def SchemaFile.selected (options : Options) (file : SchemaFile Field) : List (Message Field) :=
  if options.includeResponses then file.messages
  else file.messages.filter fun m => !Name.isResponse m.name.shown

/-- Responses can be left out only if all names are decoded. -/
def SchemaFile.checkSelection (options : Options) (file : SchemaFile Field) : Except Error Unit :=
  TextUse.ending.refuseIf
    (!options.includeResponses && file.messages.any fun m => m.name.isUndecodable)

/-- The imports of a module that holds the given messages of a file. -/
def SchemaFile.importLines (file : SchemaFile Field) (messages : List (Message Field)) :
    List ImportLine :=
  ImportLine.ofImports (messages.flatMap (Message.imports file.path) ++ file.enumImports)

/-- The names imported from one path are all decoded, or none of them is. -/
def ImportLine.checkOrder (lines : List ImportLine) : Except Error Unit :=
  TextUse.sorting.refuseIf (lines.any fun line => RawText.mixed line.names)

/-- Build the module of a file, or `none` if there is nothing to generate. -/
def SchemaFile.schemaModule (options : Options) (file : SchemaFile Field) :
    Run (Option SchemaModule) := do
  .ofExcept (file.checkSelection options)
  let messages := file.selected options
  if messages.isEmpty && file.enums.isEmpty then
    return none
  let imports := file.importLines messages
  .ofExcept (ImportLine.checkOrder imports)
  let arrangement ← .ofExcept (Arrangement.ofMessages messages file.path)
  let exports ← arrangement.messages.mapM (Message.exported file.path arrangement.recursive)
  return some {
    source := file.sourceName
    output := ModulePath.output file.path
    imports
    enums := file.enums.map fun e => ⟨e.name.shown, e.fullName.shown, e.values, e.deprecated⟩
    messages := exports }

/-- What building the module of a file comes to, from a state of the loader. -/
def SchemaModule.ofFile (loader : Loader) (options : Options) (file : SchemaFile Field) :
    Report (Option SchemaModule) :=
  file.schemaModule options loader

end ProtoSchema
