import OpeningTimes.CyclicSlice
import OpeningTimes.DayOffset
import OpeningTimes.Nth
import OpeningTimes.Text.Joined
import OpeningTimes.Weekday

/-!
Ranges of weekdays.

* `WeekdayRange`: a weekday, a range of weekdays, or some occurrences of a weekday;
* `WeekdayRange.days`, `WeekdayRange.covers`: the days of a range, which may run over the end of the
  week;
* `WeekdayRange.text?`, `WeekdayRange.textAll?`: a range and a list of ranges in a field.
-/

namespace OpeningTimes

/-- A weekday, on all or on some of its occurrences in a month, or a range of weekdays. -/
structure WeekdayRange where
  /-- The first day. -/
  start : Option Weekday := none
  /-- The last day. -/
  stop : Option Weekday := none
  /-- The occurrences that count. If there are none, all do. -/
  nths : List NthRange := []
  /-- The number of days by which the day is shifted. -/
  offset : Int := 0
  deriving DecidableEq

namespace WeekdayRange

/-- Whether there is neither a first nor a last day. -/
def isEmpty (r : WeekdayRange) : Bool :=
  r.start.isNone && r.stop.isNone

/-- Whether the day is shifted. -/
def hasOffset (r : WeekdayRange) : Bool :=
  r.offset != 0

/-- Whether only some occurrences count. -/
def hasNth (r : WeekdayRange) : Bool :=
  !r.nths.isEmpty

/-- The days of a range in order. One that ends before it starts runs over the end of the week. -/
def days (r : WeekdayRange) : List Weekday :=
  match r.start, r.stop with
  | none, _ => []
  | some d, none => [d]
  | some d, some e => cyclicSlice Weekday.all d.index e.index

/-- Whether a day is in the range. -/
def covers (r : WeekdayRange) : Option Weekday → Bool
  | none => false
  | some d => r.days.contains d

/-- A range with one more range of occurrences. -/
def addNth (r : WeekdayRange) (n : NthRange) : WeekdayRange :=
  { r with nths := r.nths ++ [n] }

/-- The text of a range. Occurrences and offset belong to a single day. -/
def text? (r : WeekdayRange) : Option Text :=
  if r.stop.isSome then some (Weekday.text r.start ++ '-' :: Weekday.text r.stop)
  else do
    let offset ← DayOffset.text? r.offset true
    return Weekday.text r.start ++
      ((if r.hasNth then '[' :: Text.joinWith [','] NthRange.text r.nths ++ [']'] else []) ++ offset)

/-- The text of a list of ranges. -/
def textAll? (ranges : List WeekdayRange) : Option Text :=
  Text.listed? text? ranges

end WeekdayRange

end OpeningTimes
