import OpeningTimes.Decimal.Rounding
import OpeningTimes.Text.Numeral

/-!
The shortest decimal text that denotes a number with 53 binary digits.

* `Binary.covers`: the decimal numbers that are nearest to a given binary one;
* `Binary.shortest`: among them the one with the fewest places;
* `Decimal.text`: a decimal number after its passage through 53 binary digits.
-/

namespace OpeningTimes

/-- The number `coefficient / 10 ^ places`. -/
structure Decimal where
  /-- The decimal digits of the number. -/
  coefficient : Int
  /-- How many of the digits stand after the point. -/
  places : Nat
  deriving DecidableEq

/-- By how much a number of places scales a number up. -/
def Decimal.scale (places : Nat) : Nat :=
  Nat.pow 10 places

namespace Binary

/-- Whether `digits / 10 ^ places` lies so close to a number that no other binary number with 53
digits is nearer. The ends of the interval belong to the number with the even mantissa. -/
def covers (x : Binary) (places digits : Nat) : Bool :=
  let value := 4 * digits * scale x.shift
  let unit := Decimal.scale places
  let low := (4 * x.mantissa - if x.mantissa == scale 52 then 1 else 2) * unit
  let high := (4 * x.mantissa + 2) * unit
  (low < value || (low == value && x.mantissa % 2 == 0)) &&
    (value < high || (value == high && x.mantissa % 2 == 0))

/-- The digits of the decimal number nearest to a binary one among those with the given number of
places. -/
def digitsAt (x : Binary) (places : Nat) : Nat :=
  roundEven (x.mantissa * Decimal.scale places) (scale x.shift)

/-- The decimal number with the fewest places that denotes a binary number. -/
def shortest (x : Binary) : Nat × Nat :=
  let places := ((List.range (maxShift + 1)).find? fun p => x.covers p (x.digitsAt p)).getD 0
  (x.digitsAt places, places)

end Binary

namespace Decimal

/-- A number between two bounds of opposite sign, the nearer bound in place of one beyond. -/
def clamped (limit : Nat) (x : Decimal) : Decimal :=
  if x.coefficient.natAbs ≤ limit * scale x.places then x
  else if x.coefficient < 0 then ⟨-limit, 0⟩ else ⟨limit, 0⟩

/-- The text of digits and places. There is at least one digit on either side of the point, and
numbers below a ten-thousandth are written with an exponent. -/
def unsignedText (digits places : Nat) : Text :=
  let ds := Text.digits digits
  if digits != 0 && ds.length + 3 < places then
    let fraction := if ds.length == 1 then [] else '.' :: ds.drop 1
    ds.take 1 ++ fraction ++ ['e', '-'] ++ Text.padded (places + 1 - ds.length) 2
  else if places == 0 then ds ++ ['.', '0']
  else
    let filled := Text.fill (places + 1) ds
    filled.take (filled.length - places) ++ '.' :: filled.drop (filled.length - places)

/-- The shortest text of the number with 53 binary digits that is nearest to a given one. -/
def text (x : Decimal) : Text :=
  let (digits, places) := (Binary.nearest x.coefficient.natAbs (scale x.places)).shortest
  (if x.coefficient < 0 then ['-'] else []) ++ unsignedText digits places

end Decimal

end OpeningTimes
