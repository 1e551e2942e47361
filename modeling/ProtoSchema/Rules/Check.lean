import ProtoSchema.Decimal.Number
import ProtoSchema.Text.Escape

set_option autoImplicit false

/-! # Checks on a schema expression

A check is one method call that narrows a schema, such as `.min(3)` or a `.refine(…)` with a
predicate and a message. Checks are data; `Check.text` writes the call. Texts that come from rules
reach the output only through `Text.escapeLiteral` and `Text.escapePattern`. -/

namespace ProtoSchema

/-! ## Operands -/

/-- The comparisons of a range. -/
inductive Comparator where
  | gt | gte | lt | lte
deriving DecidableEq

namespace Comparator

/-- The name of the method that compares numbers. -/
def method : Comparator → String
  | gt => "gt"
  | gte => "gte"
  | lt => "lt"
  | lte => "lte"

/-- The sign between the two compared values. -/
def operator : Comparator → String
  | gt => ">"
  | gte => ">="
  | lt => "<"
  | lte => "<="

end Comparator

/-- What a value is compared as: a number, a 64-bit integer held in a string, a string, or the
    number of an enum value. -/
inductive Family where
  | number | wide | text | enum
deriving DecidableEq

namespace Family

/-- The variable of a predicate. -/
def binder : Family → String
  | number => "n"
  | wide => "s"
  | text => "s"
  | enum => "e"

/-- The value that a predicate looks at. -/
def subject : Family → String
  | number => "n"
  | wide => "BigInt(s)"
  | text => "s"
  | enum => "e"

end Family

/-- A value that a predicate compares with. -/
inductive Operand where
  | number (n : Number)
  | wide (n : Int)
  | text (s : String)
  | enum (n : Int)
deriving DecidableEq

namespace Operand

/-- The family of an operand. -/
def family : Operand → Family
  | number _ => .number
  | wide _ => .wide
  | text _ => .text
  | enum _ => .enum

/-- The operand inside the predicate. -/
def code : Operand → String
  | number n => n.text
  | wide n => Decimal.intText n ++ "n"
  | text s => Text.literal s
  | enum n => Decimal.intText n

/-- The operand inside the message. -/
def shown : Operand → String
  | number n => n.text
  | wide n => Decimal.intText n
  | text s => Text.escapeLiteral s
  | enum n => Decimal.intText n

end Operand

/-- Several values of one family. -/
inductive Operands where
  | numbers (ns : List Number)
  | wides (ns : List Int)
  | texts (ss : List String)
  | enums (ns : List Int)
deriving DecidableEq

namespace Operands

/-- The family of the values. -/
def family : Operands → Family
  | numbers _ => .number
  | wides _ => .wide
  | texts _ => .text
  | enums _ => .enum

/-- The values one by one. -/
def toList : Operands → List Operand
  | numbers ns => ns.map .number
  | wides ns => ns.map .wide
  | texts ss => ss.map .text
  | enums ns => ns.map .enum

/-- The values as the elements of an array. -/
def code (vs : Operands) : String :=
  ", ".intercalate (vs.toList.map Operand.code)

/-- The values as a message lists them. -/
def shown (vs : Operands) : String :=
  ", ".intercalate (vs.toList.map Operand.shown)

end Operands

/-! ## Formats -/

/-- The string formats that have a check. -/
inductive CheckedFormat where
  | email | hostname | ip | ipv4 | ipv6 | uri | uuid
deriving DecidableEq

/-- The call that checks a format. -/
def CheckedFormat.text : CheckedFormat → String
  | email => ".email()"
  | hostname => ".regex(/^[a-zA-Z0-9][a-zA-Z0-9-]*$/)"
  | ip => ".ip()"
  | ipv4 => ".ip(\x7b version: \"v4\" \x7d)"
  | ipv6 => ".ip(\x7b version: \"v6\" \x7d)"
  | uri => ".url()"
  | uuid => ".uuid()"

/-! ## Checks -/

/-- One check on a schema. -/
inductive Check where
  /-- A number in a range. -/
  | bound (comparator : Comparator) (value : Number)
  /-- A 64-bit integer, held in a string, in a range. -/
  | wideBound (comparator : Comparator) (value : Int)
  /-- Equality with a value. -/
  | equals (value : Operand)
  /-- Membership in a list. -/
  | oneOf (values : Operands)
  /-- No membership in a list. -/
  | noneOf (values : Operands)
  /-- A finite number. -/
  | finite
  /-- A given truth value. -/
  | truth (value : Bool)
  /-- A string or list with at least so many characters or items. -/
  | minSize (n : Nat)
  /-- A string or list with at most so many characters or items. -/
  | maxSize (n : Nat)
  /-- A string with exactly so many characters. -/
  | exactSize (n : Nat)
  /-- A string with a given beginning. -/
  | startsWith (s : String)
  /-- A string with a given end. -/
  | endsWith (s : String)
  /-- A string with a given part. -/
  | includes (s : String)
  /-- A string in a named format. -/
  | format (format : CheckedFormat)
  /-- At least so many bytes. -/
  | minBytes (n : Nat)
  /-- At most so many bytes. -/
  | maxBytes (n : Nat)
  /-- At least so many entries in a map. -/
  | minPairs (n : Nat)
  /-- At most so many entries in a map. -/
  | maxPairs (n : Nat)
  /-- No item twice in a list. -/
  | unique
  /-- A string that matches a pattern. -/
  | pattern (source : String)
  /-- A string that is empty or matches a pattern. -/
  | patternOrEmpty (source : String)
  /-- An enum value other than the zero value. -/
  | nonzero
deriving DecidableEq

namespace Check

/-- A `.refine` call with a predicate and a message. -/
def refine (binder predicate message : String) : String :=
  ".refine((" ++ binder ++ ") => " ++ predicate ++ ", \x7b message: \"" ++ message ++ "\" \x7d)"

/-- A method call with one argument. -/
def call (method argument : String) : String :=
  "." ++ method ++ "(" ++ argument ++ ")"

/-- The call that makes the check. -/
def text : Check → String
  | bound c n => call c.method n.text
  | wideBound c n =>
    refine "s" ("BigInt(s) " ++ c.operator ++ " " ++ Decimal.intText n ++ "n")
      ("Must be " ++ c.operator ++ " " ++ Decimal.intText n)
  | equals v =>
    refine v.family.binder (v.family.subject ++ " === " ++ v.code) ("Must equal " ++ v.shown)
  | oneOf vs =>
    refine vs.family.binder ("[" ++ vs.code ++ "].includes(" ++ vs.family.subject ++ ")")
      ("Must be one of: " ++ vs.shown)
  | noneOf vs =>
    refine vs.family.binder ("![" ++ vs.code ++ "].includes(" ++ vs.family.subject ++ ")")
      ("Must not be one of: " ++ vs.shown)
  | finite => call "finite" ""
  | truth true => refine "b" "b === true" "Must be true"
  | truth false => refine "b" "b === false" "Must be false"
  | minSize n => call "min" (Decimal.natText n)
  | maxSize n => call "max" (Decimal.natText n)
  | exactSize n => call "length" (Decimal.natText n)
  | startsWith s => call "startsWith" (Text.literal s)
  | endsWith s => call "endsWith" (Text.literal s)
  | includes s => call "includes" (Text.literal s)
  | format f => f.text
  | minBytes n =>
    refine "b" ("b.length >= " ++ Decimal.natText n)
      ("Bytes must be at least " ++ Decimal.natText n ++ " bytes")
  | maxBytes n =>
    refine "b" ("b.length <= " ++ Decimal.natText n)
      ("Bytes must be at most " ++ Decimal.natText n ++ " bytes")
  | minPairs n =>
    refine "m" ("Object.keys(m).length >= " ++ Decimal.natText n)
      ("Map must have at least " ++ Decimal.natText n ++ " entries")
  | maxPairs n =>
    refine "m" ("Object.keys(m).length <= " ++ Decimal.natText n)
      ("Map must have at most " ++ Decimal.natText n ++ " entries")
  | unique => refine "arr" "new Set(arr).size === arr.length" "Items must be unique"
  | pattern source => call "regex" ("new RegExp(\"" ++ Text.escapePattern source ++ "\")")
  | patternOrEmpty source =>
    refine "v" ("v === \"\" || new RegExp(\"" ++ Text.escapePattern source ++ "\").test(v)")
      ("Must match pattern: " ++ Text.escapePattern source)
  | nonzero => ".refine((v) => v !== 0, \"Value is required\")"

/-- The calls of several checks in a row. -/
def textAll (checks : List Check) : String :=
  String.join (checks.map text)

end Check

end ProtoSchema
