/-!
Quotients rounded to whole numbers, and numbers rounded to 53 binary digits.

* `roundEven`: a quotient rounded to the nearest whole number, where a half goes to the even one;
* `Binary`: a number with finitely many binary digits;
* `Binary.nearest`: the number with 53 significant binary digits nearest to a quotient.
-/

namespace OpeningTimes

/-- The whole number nearest to a quotient. If two are equally near it is the even one. -/
def roundEven (num den : Nat) : Nat :=
  let below := num / den
  let rest := 2 * (num % den)
  if rest < den || (rest == den && below % 2 == 0) then below else below + 1

/-- The number `mantissa / 2 ^ shift`. -/
structure Binary where
  /-- The binary digits of the number. -/
  mantissa : Nat
  /-- How many of the digits stand after the point. -/
  shift : Nat
  deriving DecidableEq

namespace Binary

/-- No number has more binary digits than this after the point. -/
def maxShift : Nat := 1074

/-- By how much a number of digits after the point scales a number up. -/
def scale (shift : Nat) : Nat :=
  Nat.pow 2 shift

/-- The digits after the point that leave 53 significant ones of a quotient. -/
def shiftFor (num den : Nat) : Nat :=
  min maxShift (maxShift + 52 - (num * scale maxShift / den).log2)

/-- The number nearest to a quotient among those with 53 significant binary digits. -/
def nearest (num den : Nat) : Binary :=
  let shift := shiftFor num den
  ⟨roundEven (num * scale shift) den, shift⟩

end Binary

end OpeningTimes
