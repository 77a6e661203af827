import OpeningTimes.Period
import OpeningTimes.Text.Joined

/-!
Ranges of weeks of the year.

* `WeekRange`: a range with a period;
* `WeekRange.covers`: the weeks of a range;
* `WeekRange.text?`, `WeekRange.textAll?`: a range and a list of ranges in a field.
-/

namespace OpeningTimes

/-- A range of weeks, or a single one. A number that is zero is missing. -/
structure WeekRange where
  /-- The first week. -/
  start : Int := 0
  /-- The last week. -/
  stop : Int := 0
  /-- The number of weeks after which a week counts again. -/
  period : Int := 0
  deriving DecidableEq

namespace WeekRange

/-- Whether there is a first week. -/
def hasStart (r : WeekRange) : Bool :=
  r.start != 0

/-- Whether there is a last week. -/
def hasStop (r : WeekRange) : Bool :=
  r.stop != 0

/-- Whether there is a period. -/
def hasPeriod (r : WeekRange) : Bool :=
  r.period != 0

/-- Whether there is neither a first nor a last week. -/
def isEmpty (r : WeekRange) : Bool :=
  !r.hasStart && !r.hasStop

/-- Whether there is a first week and no last one. -/
def isOpen (r : WeekRange) : Bool :=
  r.hasStart && !r.hasStop

/-- The last week that can count. -/
def lastWeek (r : WeekRange) : Int :=
  if r.hasStop then r.stop else r.start

/-- Whether a week is in the range. -/
def covers (r : WeekRange) (week : Int) : Bool :=
  r.hasStart && Period.hits r.start r.lastWeek r.period week

/-- The text of a range of weeks. -/
def text? (r : WeekRange) : Option Text :=
  if r.isEmpty then some []
  else do
    let start ← Text.padded? r.start 2
    if r.hasStop then
      let stop ← Text.padded? r.stop 2
      let period ← Period.text? r.period
      return start ++ '-' :: stop ++ period
    else return start

/-- The text of a list of ranges, after the word that tells them from other numbers. -/
def textAll? (ranges : List WeekRange) : Option Text :=
  (Text.listed? text? ranges).map (['w', 'e', 'e', 'k', ' '] ++ ·)

end WeekRange

end OpeningTimes
