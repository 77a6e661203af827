import OpeningTimes.Date
import OpeningTimes.Period
import OpeningTimes.Text.Joined

/-!
Ranges of dates.

* `DateRange`: a range with a period, or one that goes on for ever;
* `DateRange.text?`, `DateRange.textAll?`: a range and a list of ranges in a field.
-/

namespace OpeningTimes

/-- A range of dates, or a single one. -/
structure DateRange where
  /-- The first date. -/
  start : Date := {}
  /-- The last date, which may be no more than a day of the month. -/
  stop : Date := {}
  /-- The number of days after which a day counts again. -/
  period : Int := 0
  /-- Whether the range goes on for ever. -/
  plus : Bool := false
  deriving DecidableEq

namespace DateRange

/-- Whether there is a first date. -/
def hasStart (r : DateRange) : Bool :=
  !r.start.isEmpty

/-- Whether there is a last date. -/
def hasStop (r : DateRange) : Bool :=
  !r.stop.isEmpty

/-- Whether there is a period. -/
def hasPeriod (r : DateRange) : Bool :=
  r.period != 0

/-- Whether there is neither a first nor a last date. -/
def isEmpty (r : DateRange) : Bool :=
  !r.hasStart && !r.hasStop

/-- The text of a range of dates. The period is written only after a last date, and that the range goes
on for ever only if there is none. -/
def text? (r : DateRange) : Option Text := do
  let start ← (if r.hasStart then r.start.text? else some [])
  if r.hasStop then
    let stop ← r.stop.text?
    let period ← Period.text? r.period
    return start ++ ('-' :: stop ++ period)
  else return start ++ if r.plus then ['+'] else []

/-- The text of a list of ranges. -/
def textAll? (ranges : List DateRange) : Option Text :=
  Text.listed? text? ranges

end DateRange

end OpeningTimes
