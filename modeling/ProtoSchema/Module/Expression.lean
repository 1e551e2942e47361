import ProtoSchema.Error
import ProtoSchema.Module.Typing
import ProtoSchema.Rules.Chain

set_option autoImplicit false

/-! # Schema expressions of fields

The expression of a field is its type followed by checks. The checks on the items of a list stand
inside the list, the others after it: first those of the chain, then the pattern, then the check on
the zero value of an enum, and last `.optional()`. -/

namespace ProtoSchema

/-- The schema expression of a field. -/
structure Expression where
  type : SchemaType
  /-- Checks on the items, if the field is a list. -/
  itemChecks : List Check
  checks : List Check
  optional : Bool

namespace Expression

/-- The expression without checks on the whole, with the checks on the items in their place. -/
def base (type : SchemaType) (itemChecks : List Check) : String :=
  match type with
  | .array item => "z.array(" ++ item.schema ++ Check.textAll itemChecks ++ ")"
  | type => type.schema

/-- The expression as text. -/
def text (e : Expression) : String :=
  base e.type e.itemChecks ++ Check.textAll e.checks ++ (if e.optional then ".optional()" else "")

end Expression

/-! ## Composing an expression -/

/-- The check of a pattern, if it can be decoded. -/
def patternCheck (make : String → Check) : Option RawText → Except Error (List Check)
  | none => .ok []
  | some (.text source) => .ok [make source]
  | some (.undecodable _) => .error (.undecodableText .cut)

namespace Chain

/-- The checks on the items of a list. Items may always be empty, so their pattern lets that
    pass. -/
def listItemChecks (chain : Chain) : Except Error (List Check) := do
  let pattern ← patternCheck .patternOrEmpty chain.itemPattern
  return chain.itemChecks ++ pattern ++ listCheck (fun ns => .noneOf (.enums ns)) chain.itemNoneOf

/-- The checks on a field as a whole. The pattern of a field that may be absent lets the empty
    string pass, because an absent string reads as empty. -/
def fieldChecks (chain : Chain) (type : FieldType) : Except Error (List Check) := do
  let pattern ← patternCheck (if chain.required then .pattern else .patternOrEmpty) chain.pattern
  let nonzero := match type with
    | .single (.enum _) => if chain.definedOnly then [.nonzero] else []
    | _ => []
  return chain.checks ++ pattern ++ nonzero

end Chain

/-- The expression of a field in the module of the file with the given path, where references to the
    recursive messages are deferred. -/
def Field.expression (field : Field) (path : String) (recursive : List RawText) (chain : Chain) :
    Except Error Expression := do
  let itemChecks ← if field.type.isList then chain.listItemChecks else pure []
  let checks ← chain.fieldChecks field.type
  return {
    type := (field.type.schemaType path).defer recursive
    itemChecks
    checks
    optional := field.mayBeAbsent && !chain.required }

end ProtoSchema
