import ProtoSchema.Wire.Number

set_option autoImplicit false

/-! # Members that are not read

Many members of a message have no bearing on schemas. They are skipped, but those that hold a
message or packed numbers have to be well formed all the same, at any depth. A `Layout` says which
those are; a member that no layout names may hold anything. -/

namespace ProtoSchema.Wire

/-- What a member holds, as far as it can be malformed. -/
inductive Layout where
  /-- Numbers, which may be packed into a byte string. -/
  | numbers (type : PlainType)
  /-- A message, of which the given members can be malformed in turn. -/
  | message (members : List (Nat × Layout))

/-- The members of a message that can be malformed, by field number. -/
abbrev Members := List (Nat × Layout)

/-- Check a value against a layout. A value of another wire type is no value of the member. -/
def Layout.check : (depth : Nat) → Layout → WireValue → Except WireFault Unit
  | _, numbers type, .bytes content =>
    ((NumberFormat.mk type id).readPacked content).map fun _ => ()
  | 0, message _, .bytes _ => .error .tooDeep
  | depth + 1, message members, .bytes content =>
    readFields depth (fun _ record =>
      match members.lookup record.field with
      | some layout => layout.check depth record.value
      | none => .ok ()) content ()
  | _, _, _ => .ok ()

/-- Skip a record of a message with the given members. -/
def Members.skip (members : Members) (depth : Nat) (record : Record) : Except WireFault Unit :=
  match members.lookup record.field with
  | some layout => layout.check depth record.value
  | none => .ok ()

namespace Layout

/-- A message without members that can be malformed. -/
def plain : Layout := .message []

/-- Packed numbers of variable length. -/
def varints : Layout := .numbers .varint

/-- Several members that hold plain messages. -/
def plainMembers (fields : List Nat) : Members :=
  fields.map fun field => (field, plain)

/-! ## Options -/

/-- An option that was not understood, with the parts of its name. -/
def uninterpreted : Layout := .message (plainMembers [2])

/-- The members of options: those with messages in them, and options that were not understood. -/
def optionMembers (fields : List Nat) : Members :=
  (999, uninterpreted) :: plainMembers fields

/-- Options with messages in the given members. -/
def options (fields : List Nat) : Layout := .message (optionMembers fields)

end Layout

namespace Members

open Layout

/-! ## Descriptors -/

/-- The options of a field: targets, and the rules that other rules are defined by. -/
def fieldOptions : Members :=
  (19, varints) :: (1160, .message (plainMembers [1])) :: optionMembers [20, 21, 22]

/-- The options of a message, with the rules on the message as a whole. -/
def messageOptions : Members :=
  (1159, .message (plainMembers [3, 4])) :: optionMembers [12]

/-- The options of an enum. -/
def enumOptions : Members :=
  optionMembers [7]

/-- An enum: its reserved ranges. -/
def enum : Members :=
  plainMembers [4]

/-- The value of an enum: its options. -/
def enumValue : Members :=
  [(3, options [2, 4])]

/-- A message: its extension ranges with their options, its alternatives with theirs, and its
    reserved ranges. -/
def message : Members :=
  [(5, .message [(3, options [2, 50])]), (8, .message [(2, options [1, 1159])]), (9, plain)]

/-- A file: its services with their methods, its options, the positions of its declarations, and the
    numbers of its public and weak dependencies. -/
def file : Members :=
  [(6, .message [(2, .message [(4, options [35])]), (3, options [34])]), (8, options [50]),
   (9, .message [(1, .message [(1, varints), (2, varints)])]), (10, varints), (11, varints)]

/-- A generator request: the version of the compiler. -/
def request : Members :=
  plainMembers [3]

/-! ## Rules -/

/-- The rules of a field: those written as expressions. -/
def fieldRules : Members :=
  plainMembers [23]

/-- Rules for particular messages: the messages that they compare with. -/
def messageRules : MessageRuleKind → Members
  | .any => []
  | .duration => plainMembers [2, 3, 4, 5, 6, 7, 8, 9]
  | .fieldMask => plainMembers [1, 4]
  | .timestamp => plainMembers [2, 3, 4, 5, 6, 9, 10]

/-- Examples of numbers, in the given member. -/
def examples (field : Nat) (type : PlainType) : Members :=
  [(field, .numbers type)]

end Members

end ProtoSchema.Wire
