import ProtoSchema.Decimal.Layout

set_option autoImplicit false

/-! # Number literals

A number that is written into a generated module: an integer or a double. -/

namespace ProtoSchema

/-- A number literal. -/
inductive Number where
  | int (n : Int)
  | double (x : Binary64)
deriving DecidableEq

namespace Number

/-- The literal as text. -/
def text : Number → String
  | int n => Decimal.intText n
  | double x => Decimal.doubleText x

/-- Whether the number is zero, of either sign. -/
def isZero : Number → Bool
  | int n => n = 0
  | double x => x.isZero

end Number

end ProtoSchema
