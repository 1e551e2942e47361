import ProtoSchema.Text.Quoted

set_option autoImplicit false

/-! # Texts given by their bytes

The names and rules of a schema file arrive as bytes, which need not be valid UTF-8. A text that
cannot be decoded is kept as it is: it differs from every decoded text, and wherever it has to be
shown it is shown by its bytes. -/

namespace ProtoSchema

/-- A text, decoded if it can be. -/
inductive RawText where
  | text (s : String)
  | undecodable (bytes : List UInt8)
deriving DecidableEq

instance : Coe String RawText := ⟨.text⟩

namespace RawText

/-- The text that some bytes encode. -/
def ofBytes (bytes : List UInt8) : RawText :=
  match String.fromUTF8? ⟨bytes.toArray⟩ with
  | some s => text s
  | none => undecodable bytes

/-- The decoded text. -/
def decoded? : RawText → Option String
  | text s => some s
  | undecodable _ => none

/-- Whether the text could not be decoded. -/
def isUndecodable (t : RawText) : Bool :=
  t.decoded?.isNone

/-- Whether there is no text. -/
def isEmpty : RawText → Bool
  | text s => s = ""
  | undecodable _ => false

/-- The text as it is shown. -/
def shown : RawText → String
  | text s => s
  | undecodable bytes => Text.quotedBytes bytes

/-- The text as a quoted name. -/
def quoted : RawText → String
  | text s => Text.quoted s
  | undecodable bytes => Text.quotedBytes bytes

/-- Whether a byte string does not come after another one in the order of dictionaries. -/
def bytesLe : List UInt8 → List UInt8 → Bool
  | [], _ => true
  | _ :: _, [] => false
  | a :: as, b :: bs => if a = b then bytesLe as bs else a.toNat < b.toNat

/-- Whether a text does not come after another one: decoded texts are in the order of their code
    points, the others after them in the order of their bytes. -/
def le : RawText → RawText → Bool
  | text a, text b => decide (a ≤ b)
  | text _, undecodable _ => true
  | undecodable _, text _ => false
  | undecodable a, undecodable b => bytesLe a b

/-- Whether some of the texts are decoded and some are not. -/
def mixed (texts : List RawText) : Bool :=
  texts.any isUndecodable && texts.any (!·.isUndecodable)

end RawText

end ProtoSchema
