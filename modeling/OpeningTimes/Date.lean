import OpeningTimes.DayOffset
import OpeningTimes.Month
import OpeningTimes.Text.SpaceLatch
import OpeningTimes.Weekday

/-!
Dates, which may lack a year, a month or a day, or have a different place in every year.

* `MovableDate`: a day that moves through the year;
* `DateOffset`: a shift by weekday and by days;
* `Date`: a date, and its text.
-/

namespace OpeningTimes

/-- A day that moves through the year. -/
inductive MovableDate where
  | easter
  deriving DecidableEq

namespace MovableDate

/-- The name of a movable day. -/
def name : MovableDate → Text
  | easter => ['e', 'a', 's', 't', 'e', 'r']

/-- The text of a movable day that may be missing. -/
def text : Option MovableDate → Text
  | none => ['n', 'o', 'n', 'e']
  | some d => d.name

end MovableDate

/-- A shift to the next or to the last given weekday, and by a number of days after that. -/
structure DateOffset where
  /-- The weekday. -/
  weekday : Option Weekday := none
  /-- Whether the next one is meant, and not the last one. -/
  positive : Bool := true
  /-- The number of days. -/
  days : Int := 0
  deriving DecidableEq

namespace DateOffset

/-- Whether there is a shift to a weekday. -/
def hasWeekday (o : DateOffset) : Bool :=
  o.weekday.isSome

/-- Whether there is a shift by days. -/
def hasDays (o : DateOffset) : Bool :=
  o.days != 0

/-- Whether there is no shift. -/
def isEmpty (o : DateOffset) : Bool :=
  !o.hasDays && !o.hasWeekday

/-- A shift with another weekday in another direction. -/
def withWeekday (o : DateOffset) (weekday : Option Weekday) (positive : Bool) : DateOffset :=
  { o with weekday := weekday, positive := positive }

/-- The text of a shift. -/
def text? (o : DateOffset) : Option Text := do
  let days ← DayOffset.text? o.days o.hasWeekday
  return (if o.hasWeekday then (if o.positive then '+' else '-') :: Weekday.text o.weekday else []) ++
    days

end DateOffset

/-- A date. A year or a day that is zero is missing. -/
structure Date where
  /-- The year. -/
  year : Int := 0
  /-- The month. -/
  month : Option Month := none
  /-- The day of the month. -/
  day : Int := 0
  /-- The movable day that takes the place of month and day. -/
  movable : Option MovableDate := none
  /-- The shift of the date. -/
  offset : DateOffset := {}
  deriving DecidableEq

namespace Date

/-- Whether there is a year. -/
def hasYear (d : Date) : Bool :=
  d.year != 0

/-- Whether there is a month. -/
def hasMonth (d : Date) : Bool :=
  d.month.isSome

/-- Whether there is a day of the month. -/
def hasDay (d : Date) : Bool :=
  d.day != 0

/-- Whether the date moves through the year. -/
def isMovable (d : Date) : Bool :=
  d.movable.isSome

/-- Whether the date is shifted. -/
def hasOffset (d : Date) : Bool :=
  !d.offset.isEmpty

/-- Whether there is no date. A shift alone is none. -/
def isEmpty (d : Date) : Bool :=
  !d.hasYear && !d.hasMonth && !d.hasDay && !d.isMovable

/-- The words of a date, with spaces between them. -/
def spaced? (d : Date) : Option Spaced := do
  let year ← Spaced.wordIf? {} d.hasYear (Text.numeral? d.year)
  let day ←
    if d.isMovable then some (year.word (MovableDate.text d.movable))
    else (year.wordIf d.hasMonth (Month.text d.month)).wordIf? d.hasDay (Text.padded? d.day 2)
  day.wordIf? d.hasOffset d.offset.text?

/-- The text of a date. -/
def text? (d : Date) : Option Text :=
  d.spaced?.map (·.text)

end Date

end OpeningTimes
