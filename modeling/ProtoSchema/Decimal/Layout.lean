import ProtoSchema.Decimal.Shortest

set_option autoImplicit false

/-! # Numbers as text

Integers are written in full. Other numbers are written by their significant digits, either with
the point in place or with an exponent; a `Layout` says from where to where the first form goes and
how many digits an exponent has at least. -/

namespace ProtoSchema.Decimal

/-! ## Integers -/

/-- The decimal digits of a natural number. -/
def natText (n : Nat) : String :=
  String.ofList (Nat.toDigits 10 n)

/-- An integer with its sign. -/
def intText : Int → String
  | .ofNat n => natText n
  | .negSucc n => "-" ++ natText (n + 1)

/-! ## Decimals -/

/-- How a decimal is laid out: positional for leading exponents from `least` up to, but not
    including, `limit`, and otherwise with an exponent of at least `exponentDigits` digits. -/
structure Layout where
  least : Int
  limit : Int
  exponentDigits : Nat

/-- Digits with the point after the first `whole` of them; zeros fill up on either side. -/
def positional (digits : List Char) (whole : Int) : List Char :=
  if whole ≤ 0 then '0' :: '.' :: List.replicate (-whole).toNat '0' ++ digits
  else if digits.length ≤ whole.toNat then
    digits ++ List.replicate (whole.toNat - digits.length) '0'
  else digits.take whole.toNat ++ '.' :: digits.drop whole.toNat

/-- One digit, the others after a point, and the exponent of the leading digit. -/
def scientific (exponentDigits : Nat) (digits : List Char) (leading : Int) : List Char :=
  let exponent := Nat.toDigits 10 leading.natAbs
  let tail := if digits.length ≤ 1 then [] else '.' :: digits.drop 1
  digits.take 1 ++ tail ++ 'e' :: (if leading < 0 then '-' else '+') ::
    List.replicate (exponentDigits - exponent.length) '0' ++ exponent

/-- A decimal as text. -/
def Layout.text (layout : Layout) (d : Decimal) : String :=
  let digits := Nat.toDigits 10 d.coefficient
  let leading := d.exponent + digits.length - 1
  String.ofList <|
    if layout.least ≤ leading ∧ leading < layout.limit then positional digits (leading + 1)
    else scientific layout.exponentDigits digits leading

/-- Numbers in rules are positional from `0.0001` up to sixteen digits before the point, and their
    exponents have two digits at least. -/
def ruleLayout : Layout := ⟨-4, 16, 2⟩

/-! ## Doubles -/

/-- The magnitude of `mantissa * 2 ^ exponent` if it is an integer. -/
def wholeMagnitude? (mantissa : Nat) (exponent : Int) : Option Nat :=
  let divisor := Nat.pow 2 (-exponent).toNat
  if mantissa % divisor = 0 then some (mantissa / divisor * Nat.pow 2 exponent.toNat) else none

/-- A double as a number literal: integers in full, with the zero of either sign as `0`, and other
    numbers by the shortest decimal that reads back. -/
def doubleText (x : Binary64) : String :=
  match x.decode with
  | .nan => "NaN"
  | .infinite false => "Infinity"
  | .infinite true => "-Infinity"
  | .finite sign mantissa exponent =>
    match wholeMagnitude? mantissa exponent with
    | some n => intText (if sign then -(n : Int) else n)
    | none =>
      (if sign then "-" else "") ++
        ruleLayout.text (Interval.ofBinary mantissa exponent).shortest.trim

end ProtoSchema.Decimal
