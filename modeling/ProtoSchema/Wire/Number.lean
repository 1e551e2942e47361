import ProtoSchema.Rules.Payload
import ProtoSchema.Wire.Record

set_option autoImplicit false

/-! # Values of fields

How the value of a record becomes the value of a field. A value of another wire type than the
field's is no value of the field. The values of a repeated number may also come packed into one byte
string. -/

namespace ProtoSchema.Wire

/-! ## Numbers -/

/-- How numbers of a type are written: the wire type of one number, and what the number read from
    the wire stands for. -/
structure NumberFormat (α : Type) where
  type : PlainType
  ofWord : Nat → α

/-- The signed number with the given `bits` lowest bits. -/
def signed (bits n : Nat) : Int :=
  let low := n % Nat.pow 2 bits
  if low < Nat.pow 2 (bits - 1) then low else (low : Int) - Nat.pow 2 bits

/-- The signed number that a natural number stands for when signs alternate: 0, -1, 1, -2, …. -/
def zigzag (n : Nat) : Int :=
  if n % 2 = 0 then (n / 2 : Nat) else -((n / 2 : Nat) : Int) - 1

/-- Truth values. -/
def boolFormat : NumberFormat Bool := ⟨.varint, (· ≠ 0)⟩

/-- Natural numbers of 64 bits. -/
def natFormat : NumberFormat Nat := ⟨.varint, (· % Nat.pow 2 64)⟩

/-- Signed numbers of 32 bits, also the numbers of enum values. -/
def int32Format : NumberFormat Int := ⟨.varint, signed 32⟩

/-- The formats of the 32-bit integer kinds. -/
def int32KindFormat : Int32Kind → NumberFormat Int
  | .int32 => int32Format
  | .uint32 => ⟨.varint, fun n => (n % Nat.pow 2 32 : Nat)⟩
  | .sint32 => ⟨.varint, fun n => zigzag (n % Nat.pow 2 32)⟩
  | .fixed32 => ⟨.fixed32, fun n => (n : Nat)⟩
  | .sfixed32 => ⟨.fixed32, signed 32⟩

/-- The formats of the 64-bit integer kinds. -/
def int64KindFormat : Int64Kind → NumberFormat Int
  | .int64 => ⟨.varint, signed 64⟩
  | .uint64 => ⟨.varint, fun n => (n : Nat)⟩
  | .sint64 => ⟨.varint, zigzag⟩
  | .fixed64 => ⟨.fixed64, fun n => (n : Nat)⟩
  | .sfixed64 => ⟨.fixed64, signed 64⟩

/-- The formats of the floating-point kinds. -/
def floatKindFormat : FloatKind → NumberFormat Binary64
  | .float => ⟨.fixed32, fun n => .ofBinary32 (UInt32.ofNat n)⟩
  | .double => ⟨.fixed64, fun n => ⟨UInt64.ofNat n⟩⟩

/-- The number on the wire, if the value is of the given wire type. -/
def WireValue.word? : PlainType → WireValue → Option Nat
  | .varint, .varint n => some n
  | .fixed64, .fixed64 n => some n
  | .fixed32, .fixed32 n => some n
  | _, _ => none

namespace NumberFormat

variable {α : Type}

/-- The number that a value holds. -/
def read? (format : NumberFormat α) (value : WireValue) : Option α :=
  (value.word? format.type).map format.ofWord

/-- The numbers packed into a byte string. -/
def readPacked (format : NumberFormat α) (bytes : List UInt8) : Except WireFault (List α) :=
  if bytes.isEmpty then .ok []
  else match _h : readPlain format.type bytes with
    | .error e => .error e
    | .ok (value, rest) =>
      match format.readPacked rest with
      | .error e => .error e
      | .ok numbers => .ok ((format.read? value).toList ++ numbers)
termination_by bytes.length
decreasing_by exact length_of_readPlain _h

/-- Add what a value holds to the numbers of a repeated field. -/
def append (format : NumberFormat α) (numbers : List α) : WireValue → Except WireFault (List α)
  | .bytes content => (format.readPacked content).map (numbers ++ ·)
  | value => .ok (numbers ++ (format.read? value).toList)

end NumberFormat

/-! ## Texts and byte strings -/

/-- The text that some bytes encode. -/
def decodeText? (bytes : List UInt8) : Option String :=
  String.fromUTF8? ⟨bytes.toArray⟩

/-- The text of a field that has to be decoded. -/
def readText (bytes : List UInt8) : Except WireFault String :=
  match decodeText? bytes with
  | some s => .ok s
  | none => .error .corrupt

/-- The byte string that a value holds. -/
def WireValue.bytes? : WireValue → Option (List UInt8)
  | bytes content => some content
  | _ => none

/-! ## Nested messages -/

/-- Read a nested message with one level of nesting less. -/
def enter {α : Type} (depth : Nat) (read : Nat → Except WireFault α) : Except WireFault α :=
  match depth with
  | 0 => .error .tooDeep
  | depth + 1 => read depth

end ProtoSchema.Wire
