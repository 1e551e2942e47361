import ProtoSchema.Decimal.Binary64

set_option autoImplicit false

/-! # The shortest decimal that reads back

The reals that round to a given double form an interval around it. `shortest` looks, for one digit,
two digits and so on, at the two neighbours of the value on the grid of decimals with that many
significant digits, and takes the first that lies in the interval; of two it takes the nearer one,
and the even one if both are equally near. All comparisons are exact, on natural numbers. -/

namespace ProtoSchema

/-- The decimal number `coefficient * 10 ^ exponent`. -/
structure Decimal where
  coefficient : Nat
  exponent : Int
deriving DecidableEq

namespace Decimal

/-- The number of decimal digits of a natural number. -/
def digitCount (n : Nat) : Nat :=
  if n < 10 then 1 else digitCount (n / 10) + 1

/-! ## The interval of a double -/

/-- A positive double and the interval of reals that round to it. The value is
    `centre / scale` and the ends are `low / scale` and `high / scale`; they belong to the interval
    if `closed`. -/
structure Interval where
  scale : Nat
  low : Nat
  centre : Nat
  high : Nat
  closed : Bool

/-- The interval of `mantissa * 2 ^ exponent`. Its ends lie halfway to the neighbouring doubles;
    below a power of two the neighbours are half as far apart. -/
def Interval.ofBinary (mantissa : Nat) (exponent : Int) : Interval :=
  let unit := Nat.pow 2 exponent.toNat
  let gap := if mantissa = Nat.pow 2 52 ∧ Binary64.minExponent < exponent then 1 else 2
  { scale := 4 * Nat.pow 2 (-exponent).toNat
    low := (4 * mantissa - gap) * unit
    centre := 4 * mantissa * unit
    high := (4 * mantissa + 2) * unit
    closed := mantissa % 2 = 0 }

namespace Interval

/-- Whether `coefficient * 10 ^ exponent` lies in the interval. -/
def contains (i : Interval) (d : Decimal) : Bool :=
  let point := d.coefficient * Nat.pow 10 d.exponent.toNat * i.scale
  let low := i.low * Nat.pow 10 (-d.exponent).toNat
  let high := i.high * Nat.pow 10 (-d.exponent).toNat
  if i.closed then low ≤ point && point ≤ high else low < point && point < high

/-- The largest coefficient whose decimal with the given exponent is not above the centre. -/
def floorAt (i : Interval) (exponent : Int) : Nat :=
  i.centre * Nat.pow 10 (-exponent).toNat / (i.scale * Nat.pow 10 exponent.toNat)

/-- The position of the leading digit: the value is below `10 ^ magnitude` and not below a tenth of
    it. Every positive double is above `10 ^ (-324)`, so scaling by that power shows a digit. -/
def magnitude (i : Interval) : Int :=
  (digitCount (i.centre * Nat.pow 10 324 / i.scale) : Int) - 324

/-- Of a grid point below the centre and the next one above it, the nearer; on a tie the even
    one. -/
def nearer (i : Interval) (lower : Decimal) : Decimal :=
  let upper : Decimal := ⟨lower.coefficient + 1, lower.exponent⟩
  let twice := (2 * lower.coefficient + 1) * Nat.pow 10 lower.exponent.toNat * i.scale
  let centre := 2 * i.centre * Nat.pow 10 (-lower.exponent).toNat
  if centre < twice then lower
  else if twice < centre then upper
  else if lower.coefficient % 2 = 0 then lower
  else upper

/-- The decimal with the given number of significant digits that reads back as the value, if there
    is one. -/
def atDigits? (i : Interval) (digits : Nat) : Option Decimal :=
  let exponent := i.magnitude - digits
  let lower : Decimal := ⟨i.floorAt exponent, exponent⟩
  let upper : Decimal := ⟨lower.coefficient + 1, exponent⟩
  match i.contains lower, i.contains upper with
  | true, true => some (i.nearer lower)
  | true, false => some lower
  | false, true => some upper
  | false, false => none

/-- Seventeen digits tell any two doubles apart. -/
def maxDigits : Nat := 17

/-- The first decimal that reads back, with as few digits as possible. -/
def shortest (i : Interval) : Decimal :=
  ((List.range' 1 maxDigits).findSome? i.atDigits?).getD
    (i.nearer ⟨i.floorAt (i.magnitude - maxDigits), i.magnitude - maxDigits⟩)

end Interval

/-! ## Trailing zeros -/

/-- The same decimal without trailing zeros in the coefficient. -/
def trim (d : Decimal) : Decimal :=
  if _h : 0 < d.coefficient ∧ d.coefficient % 10 = 0 then
    trim ⟨d.coefficient / 10, d.exponent + 1⟩
  else d
termination_by d.coefficient
decreasing_by exact Nat.div_lt_self _h.1 (by decide)

end Decimal

end ProtoSchema
