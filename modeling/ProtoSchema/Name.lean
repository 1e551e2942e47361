import ProtoSchema.Text.Affix
import ProtoSchema.Text.UpperCase

set_option autoImplicit false

/-! # Names in a generated module

How the names of a schema file become names of the generated module: properties in camel case,
schema constants, and the lookup tables of an enum in screaming snake case. The letter tests here
are ASCII tests, because word boundaries are defined on ASCII letters only; the final upper-casing
of a screaming snake name covers all of Unicode. -/

namespace ProtoSchema.Name

/-! ## Camel case -/

/-- Fold every underscore that stands directly before an ASCII lower-case letter into the upper case
    of that letter. -/
def camelChars : List Char → List Char
  | [] => []
  | [c] => [c]
  | c :: d :: rest =>
    if c = '_' ∧ d.isLower then d.toUpper :: camelChars rest
    else c :: camelChars (d :: rest)

/-- The property name of a field: `user_id` becomes `userId`, while `page_2` stays. -/
def camelCase (name : String) : String :=
  String.ofList (camelChars name.toList)

/-! ## Screaming snake case -/

/-- Separate an ASCII lower-case letter from a capital that follows it. -/
def splitHumps : List Char → List Char
  | a :: b :: rest =>
    if a.isLower && b.isUpper then a :: '_' :: b :: splitHumps rest
    else a :: splitHumps (b :: rest)
  | rest => rest

/-- Separate a run of capitals from the capitalized word that follows it. -/
def splitAcronyms : List Char → List Char
  | a :: b :: c :: rest =>
    if a.isUpper && b.isUpper && c.isLower then a :: '_' :: b :: c :: splitAcronyms rest
    else a :: splitAcronyms (b :: c :: rest)
  | rest => rest

/-- `HTTPMethod` becomes `HTTP_METHOD`. -/
def screamingSnake (name : String) : String :=
  String.ofList (Text.upperChars (splitAcronyms (splitHumps name.toList)))

/-! ## Derived names -/

/-- The exported schema constant of a message or an enum. -/
def schema (name : String) : String :=
  name ++ "Schema"

/-- An enum value without the enum's own name in front: `COST_TYPE_TOKEN` of `CostType` is
    `TOKEN`. -/
def shortValue (value enum : String) : String :=
  (Text.after? (screamingSnake enum ++ "_") value).getD value

/-- Whether a message name marks the payload of a response. -/
def isResponse (name : String) : Bool :=
  Text.endsWith "Response" name

end ProtoSchema.Name
