import ProtoSchema.Wire.Layout

set_option autoImplicit false

/-! # Reading validation rules

Each payload type reads the records of its message one by one. A member given again replaces the
earlier value, values of repeated members are added, and a nested message given again is read into
the earlier one. Of members that exclude each other the last one counts. -/

namespace ProtoSchema.Wire

/-! ## Numbers -/

/-- Read one record of the rules for numbers. -/
def numericStep {α : Type} (format : NumberFormat α) (skipped : Members) (depth : Nat)
    (rules : NumericRules α) (record : Record) : Except WireFault (NumericRules α) :=
  let value := format.read? record.value
  match record.field with
  | 1 => .ok { rules with const := value.or rules.const }
  | 2 => .ok { rules with upper := (value.map (Bound.mk false)).or rules.upper }
  | 3 => .ok { rules with upper := (value.map (Bound.mk true)).or rules.upper }
  | 4 => .ok { rules with lower := (value.map (Bound.mk false)).or rules.lower }
  | 5 => .ok { rules with lower := (value.map (Bound.mk true)).or rules.lower }
  | 6 => do return { rules with oneOf := ← format.append rules.oneOf record.value }
  | 7 => do return { rules with noneOf := ← format.append rules.noneOf record.value }
  | _ => (skipped.skip depth record).map fun _ => rules

/-- Read one record of the rules for integers. -/
def integerStep (format : NumberFormat Int) (depth : Nat) (rules : NumericRules Int)
    (record : Record) : Except WireFault (NumericRules Int) :=
  numericStep format (.examples 8 format.type) depth rules record

/-- Read one record of the rules for floating-point numbers. -/
def floatStep (format : NumberFormat Binary64) (depth : Nat) (rules : FloatRules)
    (record : Record) : Except WireFault FloatRules :=
  match record.field with
  | 8 => .ok { rules with finite := (boolFormat.read? record.value).getD rules.finite }
  | _ => do
    let number ← numericStep format (.examples 9 format.type) depth rules.number record
    return { rules with number }

/-- Read one record of the rules for truth values. -/
def boolStep (depth : Nat) (const : Option Bool) (record : Record) :
    Except WireFault (Option Bool) :=
  match record.field with
  | 1 => .ok ((boolFormat.read? record.value).or const)
  | _ => ((Members.examples 2 .varint).skip depth record).map fun _ => const

/-! ## Strings and bytes -/

/-- The named string formats by field number. -/
def stringFormats : List (Nat × StringFormat) :=
  [(12, .email), (13, .hostname), (14, .ip), (15, .ipv4), (16, .ipv6), (17, .uri), (18, .uriRef),
   (21, .address), (22, .uuid), (26, .ipWithLength), (27, .ipv4WithLength), (28, .ipv6WithLength),
   (29, .ipNetwork), (30, .ipv4Network), (31, .ipv6Network), (32, .hostAndPort), (33, .tuuid),
   (35, .ulid), (37, .qualifiedName), (38, .dottedName)]

/-- The choice of a string format that a record makes. There are three header patterns; any other
    number makes no choice. -/
def formatRule? (record : Record) : Option FormatRule :=
  if record.field = 24 then
    match int32Format.read? record.value with
    | some n => if 0 ≤ n ∧ n ≤ 2 then some (.header n.toNat) else none
    | none => none
  else do
    let format ← stringFormats.lookup record.field
    let on ← boolFormat.read? record.value
    return .named format on

/-- Read one record of the rules for strings. -/
def stringStep (rules : StringRules) (record : Record) : Except WireFault StringRules :=
  let text := record.value.bytes?.map RawText.ofBytes
  let size := natFormat.read? record.value
  .ok <| match record.field with
  | 1 => { rules with const := text.or rules.const }
  | 2 => { rules with minLen := size.or rules.minLen }
  | 3 => { rules with maxLen := size.or rules.maxLen }
  | 4 => { rules with minBytes := size.or rules.minBytes }
  | 5 => { rules with maxBytes := size.or rules.maxBytes }
  | 6 => { rules with pattern := text.or rules.pattern }
  | 7 => { rules with startsWith := text.or rules.startsWith }
  | 8 => { rules with endsWith := text.or rules.endsWith }
  | 9 => { rules with contains := text.or rules.contains }
  | 10 => { rules with oneOf := rules.oneOf ++ text.toList }
  | 11 => { rules with noneOf := rules.noneOf ++ text.toList }
  | 19 => { rules with len := size.or rules.len }
  | 20 => { rules with lenBytes := size.or rules.lenBytes }
  | 23 => { rules with notContains := text.or rules.notContains }
  | 25 => { rules with strict := (boolFormat.read? record.value).or rules.strict }
  | _ => { rules with format := (formatRule? record).or rules.format }

/-- The named formats of byte strings by field number. -/
def bytesFormats : List (Nat × BytesFormat) :=
  [(10, .ip), (11, .ipv4), (12, .ipv6), (15, .uuid)]

/-- The choice of a byte string format that a record makes. -/
def bytesFormat? (record : Record) : Option (BytesFormat × Bool) := do
  let format ← bytesFormats.lookup record.field
  let on ← boolFormat.read? record.value
  return (format, on)

/-- Read one record of the rules for byte strings. -/
def bytesStep (rules : BytesRules) (record : Record) : Except WireFault BytesRules :=
  let content := record.value.bytes?
  let size := natFormat.read? record.value
  .ok <| match record.field with
  | 1 => { rules with const := content.or rules.const }
  | 2 => { rules with minLen := size.or rules.minLen }
  | 3 => { rules with maxLen := size.or rules.maxLen }
  | 4 => { rules with pattern := (content.map RawText.ofBytes).or rules.pattern }
  | 5 => { rules with startsWith := content.or rules.startsWith }
  | 6 => { rules with endsWith := content.or rules.endsWith }
  | 7 => { rules with contains := content.or rules.contains }
  | 8 => { rules with oneOf := rules.oneOf ++ content.toList }
  | 9 => { rules with noneOf := rules.noneOf ++ content.toList }
  | 13 => { rules with len := size.or rules.len }
  | _ => { rules with format := (bytesFormat? record).or rules.format }

/-! ## Enums, lists and maps -/

/-- Read one record of the rules for enum values. -/
def enumStep (depth : Nat) (rules : EnumRules) (record : Record) : Except WireFault EnumRules :=
  match record.field with
  | 1 => .ok { rules with const := (int32Format.read? record.value).or rules.const }
  | 2 => .ok { rules with definedOnly := (boolFormat.read? record.value).getD rules.definedOnly }
  | 3 => do return { rules with oneOf := ← int32Format.append rules.oneOf record.value }
  | 4 => do return { rules with noneOf := ← int32Format.append rules.noneOf record.value }
  | _ => ((Members.examples 5 .varint).skip depth record).map fun _ => rules

/-- Reads a nested field rules message into earlier rules. -/
abbrev RulesReader := List UInt8 → FieldRules → Except WireFault FieldRules

/-- Read the rules nested in a record. -/
def nestedRules (nested : RulesReader) (rules : Option FieldRules) :
    WireValue → Except WireFault (Option FieldRules)
  | .bytes content => (nested content (rules.getD {})).map some
  | _ => .ok rules

/-- Read one record of the rules for lists. -/
def listStep (nested : RulesReader) (rules : ListRules FieldRules) (record : Record) :
    Except WireFault (ListRules FieldRules) :=
  match record.field with
  | 1 => .ok { rules with minItems := (natFormat.read? record.value).or rules.minItems }
  | 2 => .ok { rules with maxItems := (natFormat.read? record.value).or rules.maxItems }
  | 3 => .ok { rules with unique := (boolFormat.read? record.value).getD rules.unique }
  | 4 => do return { rules with items := ← nestedRules nested rules.items record.value }
  | _ => .ok rules

/-- Read one record of the rules for maps. -/
def mapStep (nested : RulesReader) (rules : MapRules FieldRules) (record : Record) :
    Except WireFault (MapRules FieldRules) :=
  match record.field with
  | 1 => .ok { rules with minPairs := (natFormat.read? record.value).or rules.minPairs }
  | 2 => .ok { rules with maxPairs := (natFormat.read? record.value).or rules.maxPairs }
  | 4 => do return { rules with keys := ← nestedRules nested rules.keys record.value }
  | 5 => do return { rules with values := ← nestedRules nested rules.values record.value }
  | _ => .ok rules

/-! ## Fields -/

/-- The kinds of rules by field number. -/
inductive KindTag where
  | int32 (kind : Int32Kind)
  | int64 (kind : Int64Kind)
  | float (kind : FloatKind)
  | bool | string | bytes | enum | list | map
  | message (kind : MessageRuleKind)

/-- The kind of rules with the given field number. -/
def KindTag.ofField? : Nat → Option KindTag
  | 1 => some (.float .float)
  | 2 => some (.float .double)
  | 3 => some (.int32 .int32)
  | 4 => some (.int64 .int64)
  | 5 => some (.int32 .uint32)
  | 6 => some (.int64 .uint64)
  | 7 => some (.int32 .sint32)
  | 8 => some (.int64 .sint64)
  | 9 => some (.int32 .fixed32)
  | 10 => some (.int64 .fixed64)
  | 11 => some (.int32 .sfixed32)
  | 12 => some (.int64 .sfixed64)
  | 13 => some .bool
  | 14 => some .string
  | 15 => some .bytes
  | 16 => some .enum
  | 18 => some .list
  | 19 => some .map
  | 20 => some (.message .any)
  | 21 => some (.message .duration)
  | 22 => some (.message .timestamp)
  | 28 => some (.message .fieldMask)
  | _ => none

/-- Read the rules of a kind. Earlier rules of the same kind are continued, those of another kind
    are forgotten. -/
def readKind (depth : Nat) (nested : RulesReader) (earlier : Option (KindRules FieldRules))
    (tag : KindTag) (bytes : List UInt8) : Except WireFault (KindRules FieldRules) :=
  enter depth fun depth =>
    match tag with
    | .int32 kind =>
      let start := match earlier with
        | some (.int32 k rules) => if k = kind then rules else {}
        | _ => {}
      (readFields depth (integerStep (int32KindFormat kind) depth) bytes start).map (.int32 kind)
    | .int64 kind =>
      let start := match earlier with
        | some (.int64 k rules) => if k = kind then rules else {}
        | _ => {}
      (readFields depth (integerStep (int64KindFormat kind) depth) bytes start).map (.int64 kind)
    | .float kind =>
      let start := match earlier with
        | some (.float k rules) => if k = kind then rules else {}
        | _ => {}
      (readFields depth (floatStep (floatKindFormat kind) depth) bytes start).map (.float kind)
    | .bool =>
      let start := match earlier with
        | some (.bool const) => const
        | _ => none
      (readFields depth (boolStep depth) bytes start).map .bool
    | .string =>
      let start := match earlier with
        | some (.string rules) => rules
        | _ => {}
      (readFields depth stringStep bytes start).map .string
    | .bytes =>
      let start := match earlier with
        | some (.bytes rules) => rules
        | _ => {}
      (readFields depth bytesStep bytes start).map .bytes
    | .enum =>
      let start := match earlier with
        | some (.enum rules) => rules
        | _ => {}
      (readFields depth (enumStep depth) bytes start).map .enum
    | .list =>
      let start := match earlier with
        | some (.list rules) => rules
        | _ => {}
      (readFields depth (listStep nested) bytes start).map .list
    | .map =>
      let start := match earlier with
        | some (.map rules) => rules
        | _ => {}
      (readFields depth (mapStep nested) bytes start).map .map
    | .message kind =>
      (readFields depth (fun _ => (Members.messageRules kind).skip depth) bytes ()).map fun _ =>
        .message kind

/-- Read one record of the rules of a field. -/
def fieldRulesStep (depth : Nat) (nested : RulesReader) (rules : FieldRules) (record : Record) :
    Except WireFault FieldRules :=
  match record.value with
  | .bytes content =>
    match KindTag.ofField? record.field with
    | some tag => do return { rules with kind := ← readKind depth nested rules.kind tag content }
    | none => (Members.fieldRules.skip depth record).map fun _ => rules
  | value =>
    match record.field with
    | 25 => .ok { rules with required := (boolFormat.read? value).getD rules.required }
    | _ => .ok rules

/-- Read the rules of a field into earlier rules. Rules nested in them stand two levels deeper. -/
def readFieldRules : (depth : Nat) → RulesReader
  | 0, bytes, rules => readFields 0 (fieldRulesStep 0 fun _ _ => .error .tooDeep) bytes rules
  | 1, bytes, rules => readFields 1 (fieldRulesStep 1 fun _ _ => .error .tooDeep) bytes rules
  | depth + 2, bytes, rules =>
    readFields (depth + 2) (fieldRulesStep (depth + 2) (readFieldRules depth)) bytes rules

end ProtoSchema.Wire
