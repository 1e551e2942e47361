import ProtoSchema.Module.Basic

set_option autoImplicit false

/-! # The text of a generated module

Names that cannot be decoded are shown by their bytes. Two kinds of names are needed as they are,
though: those in import statements and those of enum values. `SchemaModule.checkNames` says whether
the text of a module can be used. -/

namespace ProtoSchema

/-- An opening brace, as it stands in the generated text. -/
def openBrace : String := "\x7b"

/-- A closing brace, as it stands in the generated text. -/
def closeBrace : String := "\x7d"

/-- A documentation comment: what it is for, a deprecation mark, and where it comes from. -/
def docLines (title : String) (deprecated : Bool) (origin : String) : List String :=
  ["/**", " * " ++ title] ++ (if deprecated then [" * @deprecated"] else []) ++
    [" * @generated from " ++ origin, " */"]

/-- The import of some names from a path. -/
def ImportLine.text (line : ImportLine) : String :=
  "import " ++ openBrace ++ " " ++ ", ".intercalate (line.names.map RawText.shown) ++ " " ++
    closeBrace ++ " from \"" ++ line.path ++ "\";"

/-! ## Enums -/

namespace EnumExport

/-- The values other than the zero value. -/
def definedValues (values : List EnumValue) : List EnumValue :=
  values.filter fun v => v.number ≠ 0

/-- The line of a value in the table from numbers to names. -/
def numberLine (enum : String) (v : EnumValue) : String :=
  "  " ++ Decimal.intText v.number ++ ": \"" ++ Name.shortValue v.name.shown enum ++ "\","

/-- The line of a value in the table from names to enum members. -/
def nameLine (enum : String) (v : EnumValue) : String :=
  "  " ++ Name.shortValue v.name.shown enum ++ ": " ++ enum ++ "." ++ v.name.shown ++ ","

/-- The schema of an enum and the two tables between its numbers and its names. -/
def lines (e : EnumExport) : List String :=
  let origin := "enum " ++ e.fullName
  let screaming := Name.screamingSnake e.name
  docLines ("Zod schema for " ++ e.name ++ " enum") e.deprecated origin ++
  ["export const " ++ Name.schema e.name ++ " = z.enum(" ++ e.name ++ ");",
   "export type " ++ e.name ++ "Type = z.infer<typeof " ++ Name.schema e.name ++ ">;",
   ""] ++
  docLines ("Map of " ++ e.name ++ " enum values to string representations") false origin ++
  ["export const " ++ screaming ++ "_MAP: Record<number, string> = " ++ openBrace] ++
  e.values.map (numberLine e.name) ++
  [closeBrace ++ ";", ""] ++
  docLines ("Map of string representations to " ++ e.name ++ " enum values") false origin ++
  ["export const STRING_TO_" ++ screaming ++ ": Record<string, " ++ e.name ++ "> = " ++
    openBrace] ++
  (definedValues e.values).map (nameLine e.name) ++
  [closeBrace ++ ";", ""]

end EnumExport

/-! ## Messages -/

namespace Property

/-- The lines of a property in a schema. -/
def lines (p : Property) : List String :=
  (if p.deprecated then ["  /** @deprecated */"] else []) ++
    ["  " ++ p.name ++ ": " ++ p.expression.text ++ ","]

/-- The line of a property in a static type. -/
def typeLine (p : Property) : String :=
  "  " ++ p.name ++ (if p.optional then "?" else "") ++ ": " ++ p.declaredType ++ ";"

end Property

namespace MessageExport

/-- The schema of a message. A recursive schema cannot infer its own type, so the type is spelled
    out in front of it. -/
def lines (m : MessageExport) : List String :=
  let schema := Name.schema m.name
  docLines ("Zod schema for " ++ m.name) m.deprecated ("message " ++ m.fullName) ++
  (if m.recursive then
    ["export type " ++ m.name ++ " = " ++ openBrace] ++
    m.properties.map Property.typeLine ++
    [closeBrace ++ ";",
     "",
     "export const " ++ schema ++ ": z.ZodType<" ++ m.name ++ "> = z.lazy(() => z.object(" ++
       openBrace] ++
    m.properties.flatMap Property.lines ++
    [closeBrace ++ "));"]
  else
    ["export const " ++ schema ++ " = z.object(" ++ openBrace] ++
    m.properties.flatMap Property.lines ++
    [closeBrace ++ ");",
     "",
     "export type " ++ m.name ++ " = z.infer<typeof " ++ schema ++ ">;"])

end MessageExport

/-! ## Modules -/

namespace SchemaModule

/-- The lines of a module. -/
def lines (m : SchemaModule) : List String :=
  ["// @generated from file " ++ m.source,
   "/* eslint-disable */",
   "",
   "import " ++ openBrace ++ " z " ++ closeBrace ++ " from \"zod\";"] ++
  m.imports.map ImportLine.text ++
  [""] ++
  m.enums.flatMap EnumExport.lines ++
  m.messages.flatMap fun message => message.lines ++ [""]

/-- The names in import statements and those of enum values have to be decoded. -/
def checkNames (m : SchemaModule) : Except Error Unit := do
  TextUse.listing.refuseIf (m.imports.any fun line => line.names.any RawText.isUndecodable)
  TextUse.beginning.refuseIf (m.enums.any fun e => e.values.any fun v => v.name.isUndecodable)

/-- The text of a module, every line ended. -/
def text (m : SchemaModule) : String :=
  String.join (m.lines.map (· ++ "\n"))

end SchemaModule

end ProtoSchema
