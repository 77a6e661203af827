import OpeningTimes.Text.Numeral

/-!
The occurrences of a weekday in a month.

* `Nth`: the first to the fifth occurrence, and the last one;
* `Nth.number`, `Nth.ofNumber?`: their numbers;
* `NthRange`: a range of occurrences, and its text.
-/

namespace OpeningTimes

/-- An occurrence of a weekday in a month. -/
inductive Nth where
  | first
  | second
  | third
  | fourth
  | fifth
  /-- The last occurrence, whichever it is. -/
  | last
  deriving DecidableEq

namespace Nth

/-- The occurrences in ascending order, the last one apart. -/
def counted : List Nth := [first, second, third, fourth, fifth]

/-- The number of an occurrence. The last one is counted from the end. -/
def number : Nth → Int
  | first => 1
  | second => 2
  | third => 3
  | fourth => 4
  | fifth => 5
  | last => -1

/-- The number of an occurrence that may be missing. -/
def numberOf : Option Nth → Int
  | none => 0
  | some n => n.number

/-- The occurrence of a number from one to five. -/
def ofNumber? (n : Int) : Option Nth :=
  counted.find? fun k => k.number == n

/-- The text of an occurrence that may be missing. -/
def text (n : Option Nth) : Text :=
  Text.numeral (numberOf n)

end Nth

/-- A range of occurrences, or a single one. -/
structure NthRange where
  /-- The first occurrence. -/
  start : Option Nth := none
  /-- The last occurrence. -/
  stop : Option Nth := none
  deriving DecidableEq

namespace NthRange

/-- Whether there is neither a first nor a last occurrence. -/
def isEmpty (r : NthRange) : Bool :=
  r.start.isNone && r.stop.isNone

/-- The text of a range of occurrences. -/
def text (r : NthRange) : Text :=
  (if r.start.isSome then Nth.text r.start else []) ++
    if r.stop.isSome then '-' :: Nth.text r.stop else []

end NthRange

end OpeningTimes
