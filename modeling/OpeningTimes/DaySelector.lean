import OpeningTimes.Holiday
import OpeningTimes.Weekday.Range

/-!
The weekdays and holidays that a rule selects.

* `DaySelector`: ranges of weekdays, and holidays;
* `DaySelector.covers`: the weekdays that are selected;
* `DaySelector.text?`: the selection in a field, holidays first.
-/

namespace OpeningTimes

/-- Weekdays and holidays. -/
structure DaySelector where
  /-- The ranges of weekdays. -/
  ranges : List WeekdayRange := []
  /-- The holidays. -/
  holidays : List Holiday := []
  deriving DecidableEq

namespace DaySelector

/-- Whether there are weekdays. -/
def hasWeekdays (s : DaySelector) : Bool :=
  !s.ranges.isEmpty

/-- Whether there are holidays. -/
def hasHolidays (s : DaySelector) : Bool :=
  !s.holidays.isEmpty

/-- Whether nothing is selected. -/
def isEmpty (s : DaySelector) : Bool :=
  s.ranges.isEmpty && s.holidays.isEmpty

/-- Whether a day is in one of the ranges. -/
def covers (s : DaySelector) (d : Option Weekday) : Bool :=
  s.ranges.any (·.covers d)

/-- A selection with one more range of weekdays. -/
def addRange (s : DaySelector) (r : WeekdayRange) : DaySelector :=
  { s with ranges := s.ranges ++ [r] }

/-- A selection with one more holiday. -/
def addHoliday (s : DaySelector) (h : Holiday) : DaySelector :=
  { s with holidays := s.holidays ++ [h] }

/-- The text of a selection. Holidays come before the weekdays. -/
def text? (s : DaySelector) : Option Text := do
  let holidays ← Holiday.textAll? s.holidays
  let weekdays ← WeekdayRange.textAll? s.ranges
  return holidays ++ (if s.hasWeekdays && s.hasHolidays then Text.commaSpace else []) ++ weekdays

end DaySelector

end OpeningTimes
