import OpeningTimes.Month
import OpeningTimes.Text.Numeral
import OpeningTimes.Weekday

/-!
Days of the calendar, by year, month and day of the month.

* `CalendarDay`: a day of the years from 1 to 9999;
* `CalendarDay.of?`: the day of three numbers, if there is one;
* `CalendarDay.weekday`: its day of the week.
-/

namespace OpeningTimes

/-- A day of the calendar. -/
structure CalendarDay where
  /-- The year. -/
  year : Nat
  /-- The month. -/
  month : Month
  /-- The day of the month, counted from one. -/
  day : Nat
  /-- The calendar begins with the first year. -/
  year_pos : 1 ≤ year
  /-- The calendar has years of up to four digits. -/
  year_le : year ≤ 9999
  /-- Months begin with day one. -/
  day_pos : 1 ≤ day
  /-- The month has such a day. -/
  day_le : day ≤ month.days year
  deriving DecidableEq

namespace CalendarDay

/-- The day of a year, a month and a day of the month, all counted from one. -/
def of? (year month day : Int) : Option CalendarDay :=
  match Month.ofNumber? month with
  | none => none
  | some m =>
    let y := year.toNat
    let d := day.toNat
    if h : (1 ≤ y ∧ y ≤ 9999) ∧ 1 ≤ d ∧ d ≤ m.days y then some ⟨y, m, d, h.1.1, h.1.2, h.2.1, h.2.2⟩
    else none

/-- The days of a year before a month. -/
def daysBefore (year : Nat) (month : Month) : Nat :=
  (Month.all.take (month.number - 1)).foldl (fun n m => n + m.days year) 0

/-- The days from the beginning of the first year to a day, that day included. -/
def ordinal (d : CalendarDay) : Nat :=
  let y := d.year - 1
  365 * y + y / 4 - y / 100 + y / 400 + daysBefore d.year d.month + d.day

/-- The day of the week. The first day of the first year is a Monday. -/
def weekday (d : CalendarDay) : Weekday :=
  Weekday.all.getD (d.ordinal % 7) .sunday

/-- The text of a day: year, month and day of the month. -/
def text (d : CalendarDay) : Text :=
  Text.padded d.year 4 ++ '-' :: Text.twoDigits d.month.number ++ '-' :: Text.twoDigits d.day

end CalendarDay

end OpeningTimes
