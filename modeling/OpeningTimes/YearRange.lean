import OpeningTimes.Period
import OpeningTimes.Text.Joined

/-!
Ranges of years.

* `YearRange`: a range with a period, or one that goes on for ever;
* `YearRange.covers`: the years of a range;
* `YearRange.text?`, `YearRange.textAll?`: a range and a list of ranges in a field.
-/

namespace OpeningTimes

/-- A range of years, or a single one. A number that is zero is missing. -/
structure YearRange where
  /-- The first year. -/
  start : Int := 0
  /-- The last year. -/
  stop : Int := 0
  /-- The number of years after which a year counts again. -/
  period : Int := 0
  /-- Whether the range goes on for ever. -/
  plus : Bool := false
  deriving DecidableEq

namespace YearRange

/-- Whether there is a first year. -/
def hasStart (r : YearRange) : Bool :=
  r.start != 0

/-- Whether there is a last year. -/
def hasStop (r : YearRange) : Bool :=
  r.stop != 0

/-- Whether there is a period. -/
def hasPeriod (r : YearRange) : Bool :=
  r.period != 0

/-- Whether there is neither a first nor a last year. -/
def isEmpty (r : YearRange) : Bool :=
  !r.hasStart && !r.hasStop

/-- Whether there is a first year and no last one. -/
def isOpen (r : YearRange) : Bool :=
  r.hasStart && !r.hasStop

/-- The last year that can count in a range that ends. -/
def lastYear (r : YearRange) : Int :=
  if r.hasStop then r.stop else r.start

/-- Whether a year is in the range. In one that goes on for ever the period does not matter. -/
def covers (r : YearRange) (year : Int) : Bool :=
  r.hasStart &&
    if r.plus && !r.hasStop then r.start ≤ year
    else Period.hits r.start r.lastYear r.period year

/-- The text of a range of years. -/
def text? (r : YearRange) : Option Text :=
  if r.isEmpty then some []
  else do
    let start ← Text.numeral? r.start
    if r.hasStop then
      let stop ← Text.numeral? r.stop
      let period ← Period.text? r.period
      return start ++ '-' :: stop ++ period
    else return start ++ if r.plus then ['+'] else []

/-- The text of a list of ranges. -/
def textAll? (ranges : List YearRange) : Option Text :=
  Text.listed? text? ranges

end YearRange

end OpeningTimes
