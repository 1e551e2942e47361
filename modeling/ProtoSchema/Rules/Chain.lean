import ProtoSchema.Rules.Check
import ProtoSchema.Rules.Payload

set_option autoImplicit false

/-! # From rules to checks

`Chain.ofRules?` turns the rules of a field into the checks on its schema. Two conventions run
through it. A length, a count, a text or a required value that is zero or empty counts as absent,
while bounds and required truth values count by presence. And the order of the checks is fixed:
bounds, required value, allowed values, forbidden values, format.

The answer is all or nothing: a rule text that is needed and cannot be decoded makes the whole
chain unreadable (`none`). Patterns are not needed here; whether one can be used shows when the
expression is composed. -/

namespace ProtoSchema

/-- The checks that the rules of a field ask for. Those on the items of a list, and those whose
    form depends on the field, are kept apart. -/
structure Chain where
  /-- Checks on the value itself, in order. -/
  checks : List Check := []
  /-- The field has to be present. -/
  required : Bool := false
  /-- The zero value of an enum is refused. -/
  definedOnly : Bool := false
  /-- Checks on each item of a list, in order. -/
  itemChecks : List Check := []
  /-- Enum numbers that items must not have. -/
  itemNoneOf : List Int := []
  /-- The pattern of a string. -/
  pattern : Option RawText := none
  /-- The pattern of the items of a list. -/
  itemPattern : Option RawText := none
deriving DecidableEq

namespace Chain

/-- The chain of a field without rules. -/
def empty : Chain := {}

/-- Whether anything is asked of the items. -/
def hasItemRules (c : Chain) : Bool :=
  !c.itemChecks.isEmpty || !c.itemNoneOf.isEmpty || c.itemPattern.isSome

end Chain

/-! ## Members that count when they are not zero -/

/-- A check with a number that counts unless it is zero. -/
def sizeCheck (make : Nat → Check) : Option Nat → List Check
  | none => []
  | some n => if n = 0 then [] else [make n]

/-- A check with a list of values that counts unless it is empty. -/
def listCheck {α : Type} (make : List α → Check) (values : List α) : List Check :=
  if values.isEmpty then [] else [make values]

/-- A check with a text that counts unless it is empty. -/
def textCheck? (make : String → Check) : Option RawText → Option (List Check)
  | none => some []
  | some t => t.decoded?.map fun s => if s = "" then [] else [make s]

/-! ## Numbers -/

/-- The comparison of a lower bound. -/
def Bound.lowerComparator {α : Type} (b : Bound α) : Comparator :=
  if b.inclusive then .gte else .gt

/-- The comparison of an upper bound. -/
def Bound.upperComparator {α : Type} (b : Bound α) : Comparator :=
  if b.inclusive then .lte else .lt

namespace NumericRules

variable {α : Type}

/-- The bounds, the lower one first. -/
def bounds (rules : NumericRules α) (make : Comparator → α → Check) : List Check :=
  (rules.lower.map fun b => make b.lowerComparator b.value).toList ++
    (rules.upper.map fun b => make b.upperComparator b.value).toList

/-- The bounds of ordinary numbers. -/
def numberBounds (rules : NumericRules α) (number : α → Number) : List Check :=
  rules.bounds fun c a => .bound c (number a)

/-- The bounds of 64-bit integers. -/
def wideBounds (rules : NumericRules Int) : List Check :=
  rules.bounds .wideBound

/-- A required number, unless it is zero. -/
def constCheck (make : α → Check) (isZero : α → Bool) : Option α → List Check
  | none => []
  | some a => if isZero a then [] else [make a]

/-- The checks of ordinary numbers. -/
def numberChecks (rules : NumericRules α) (number : α → Number) : List Check :=
  rules.numberBounds number ++
    constCheck (fun a => .equals (.number (number a))) (fun a => (number a).isZero) rules.const ++
    listCheck (fun as => .oneOf (.numbers (as.map number))) rules.oneOf ++
    listCheck (fun as => .noneOf (.numbers (as.map number))) rules.noneOf

/-- The checks of 64-bit integers. -/
def wideChecks (rules : NumericRules Int) : List Check :=
  rules.wideBounds ++
    constCheck (fun n => .equals (.wide n)) (fun n => n = 0) rules.const ++
    listCheck (fun ns => .oneOf (.wides ns)) rules.oneOf ++
    listCheck (fun ns => .noneOf (.wides ns)) rules.noneOf

end NumericRules

/-- The checks of floating-point numbers. -/
def FloatRules.checks (rules : FloatRules) : List Check :=
  rules.number.numberChecks .double ++ (if rules.finite then [.finite] else [])

/-! ## Strings -/

/-- The check of a format, for those that have one. -/
def StringFormat.checked? : StringFormat → Option CheckedFormat
  | .email => some .email
  | .hostname => some .hostname
  | .ip => some .ip
  | .ipv4 => some .ipv4
  | .ipv6 => some .ipv6
  | .uri => some .uri
  | .uuid => some .uuid
  | _ => none

/-- The check that a choice of format asks for. -/
def FormatRule.check? : FormatRule → Option Check
  | .named format true => format.checked?.map .format
  | _ => none

namespace StringRules

/-- The checks on the length of a string. -/
def sizeChecks (rules : StringRules) : List Check :=
  sizeCheck .minSize rules.minLen ++ sizeCheck .maxSize rules.maxLen ++
    sizeCheck .exactSize rules.len

/-- The checks of a string apart from its pattern, unless one of the texts cannot be decoded. -/
def checks? (rules : StringRules) : Option (List Check) := do
  let head ← textCheck? .startsWith rules.startsWith
  let tail ← textCheck? .endsWith rules.endsWith
  let part ← textCheck? .includes rules.contains
  let const ← textCheck? (fun s => .equals (.text s)) rules.const
  let allowed ← rules.oneOf.mapM RawText.decoded?
  let forbidden ← rules.noneOf.mapM RawText.decoded?
  return rules.sizeChecks ++ head ++ tail ++ part ++ const ++
    listCheck (fun ss => .oneOf (.texts ss)) allowed ++
    listCheck (fun ss => .noneOf (.texts ss)) forbidden ++
    (rules.format.bind FormatRule.check?).toList

/-- The pattern, unless it is empty. -/
def pattern? (rules : StringRules) : Option RawText :=
  rules.pattern.filter fun t => !t.isEmpty

end StringRules

/-! ## Other kinds -/

/-- The checks on the length of a byte string. -/
def BytesRules.checks (rules : BytesRules) : List Check :=
  sizeCheck .minBytes rules.minLen ++ sizeCheck .maxBytes rules.maxLen

/-- The checks of an enum value. -/
def EnumRules.checks (rules : EnumRules) : List Check :=
  NumericRules.constCheck (fun n => .equals (.enum n)) (fun n => n = 0) rules.const ++
    listCheck (fun ns => .oneOf (.enums ns)) rules.oneOf ++
    listCheck (fun ns => .noneOf (.enums ns)) rules.noneOf

/-- The checks on a list as a whole. -/
def ListRules.checks {ρ : Type} (rules : ListRules ρ) : List Check :=
  sizeCheck .minSize rules.minItems ++ sizeCheck .maxSize rules.maxItems ++
    (if rules.unique then [.unique] else [])

/-- The checks on a map as a whole. -/
def MapRules.checks {ρ : Type} (rules : MapRules ρ) : List Check :=
  sizeCheck .minPairs rules.minPairs ++ sizeCheck .maxPairs rules.maxPairs

/-! ## Chains -/

namespace Chain

/-- Add the rules for the items of a list. They fill the item slots and nothing else. -/
def withItems? (chain : Chain) : Option (KindRules FieldRules) → Option Chain
  | some (.string rules) => do
    let checks ← rules.checks?
    return { chain with itemChecks := checks, itemPattern := rules.pattern? }
  | some (.enum rules) => some { chain with itemNoneOf := rules.noneOf }
  | some (.int32 _ rules) => some { chain with itemChecks := rules.numberBounds .int }
  | some (.float _ rules) => some { chain with itemChecks := rules.number.numberBounds .double }
  | some (.int64 _ rules) => some { chain with itemChecks := rules.wideBounds }
  | _ => some chain

/-- The chain of the rules of one kind. -/
def ofKind? : KindRules FieldRules → Option Chain
  | .int32 _ rules => some { checks := rules.numberChecks .int }
  | .int64 _ rules => some { checks := rules.wideChecks }
  | .float _ rules => some { checks := rules.checks }
  | .bool const => some { checks := const.toList.map .truth }
  | .string rules => do
    let checks ← rules.checks?
    return { checks, pattern := rules.pattern? }
  | .bytes rules => some { checks := rules.checks }
  | .enum rules => some { checks := rules.checks, definedOnly := rules.definedOnly }
  | .list rules => withItems? { checks := rules.checks } (rules.items.bind FieldRules.kind)
  | .map rules => some { checks := rules.checks }
  | .message _ => some empty

/-- The chain of the rules of a field, or `none` if a text in them cannot be decoded. -/
def ofRules? (rules : FieldRules) : Option Chain := do
  let chain ← match rules.kind with
    | none => some empty
    | some kind => ofKind? kind
  return { chain with required := rules.required }

end Chain

end ProtoSchema
