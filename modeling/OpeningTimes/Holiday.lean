import OpeningTimes.DayOffset
import OpeningTimes.Text.Joined

/-!
Public and school holidays.

* `Holiday`: holidays of one kind, possibly shifted by days;
* `Holiday.text?`, `Holiday.textAll?`: such holidays and a list of them in a field.
-/

namespace OpeningTimes

/-- Holidays of one kind, possibly shifted. -/
structure Holiday where
  /-- Whether public holidays are meant. Otherwise these are school holidays. -/
  plural : Bool := false
  /-- The number of days by which the holidays are shifted. -/
  offset : Int := 0
  deriving DecidableEq

namespace Holiday

/-- Whether the holidays are shifted. -/
def hasOffset (h : Holiday) : Bool :=
  h.offset != 0

/-- The text of holidays. The offset of public holidays is not written. -/
def text? (h : Holiday) : Option Text :=
  if h.plural then some ['P', 'H']
  else (DayOffset.text? h.offset true).map fun offset => 'S' :: 'H' :: offset

/-- The text of a list of holidays. -/
def textAll? (holidays : List Holiday) : Option Text :=
  Text.listed? text? holidays

end Holiday

end OpeningTimes
