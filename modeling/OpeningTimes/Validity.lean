import OpeningTimes.Rule

/-!
Checks of what the parts of a rule mean. Parts can be put together in any way and have a text all the
same, so these checks are made only on demand.

* `Fault`: what can be wrong, and `Fault.message?`: how it is said;
* `Time.check`, `Timespan.check`, `WeekdayRange.check`, `Date.check`, `DateRange.check`,
  `YearRange.check`, `WeekRange.check`: the first fault of a part, if there is one.
-/

namespace OpeningTimes

/-- What is wrong with a part of a rule. -/
inductive Fault where
  /-- A moment is not set. -/
  | timeNotSet (name : Text)
  /-- A time on the clock is not in the day or the one after it. -/
  | timeOutOfRange (name : Text)
  | timespanWithoutStart
  | repeatingTimespanWithoutEnd
  | periodNotPositive
  | weekdayRangeWithoutStart
  /-- A range of weekdays is restricted or shifted. -/
  | notSingleWeekday
  | nthWithoutStart (entry : Text)
  | nthReversed (entry : Text)
  | dayWithoutMonth (day : Int)
  /-- The month has no such day. -/
  | noSuchDay (month : Month) (day : Int)
  | dateRangeWithoutStart
  | repeatingDateRangeWithoutEnd
  | yearRangeWithoutStart
  | yearRangeReversed (start stop : Int)
  | repeatingYearRangeWithoutEnd
  | noSuchWeek (week : Int)
  | weekRangeInvalid (start stop : Int)
  | repeatingWeekRangeWithoutEnd
  deriving DecidableEq

namespace Fault

/-- A number in a message. -/
def shown? (n : Int) : Option String :=
  (Text.numeral? n).map String.ofList

/-- The text of a fault. There is none if one of the numbers in it has too many digits. -/
def message? : Fault → Option String
  | timeNotSet name => some ("The " ++ String.ofList name ++ " is not set.")
  | timeOutOfRange name =>
    some ("The " ++ String.ofList name ++ " must be between 00:00 and 48:00.")
  | timespanWithoutStart => some "A timespan must have a beginning."
  | repeatingTimespanWithoutEnd => some "A repeating timespan must have an end."
  | periodNotPositive => some "The period of a timespan must be a positive duration."
  | weekdayRangeWithoutStart => some "A weekday range must have a first day."
  | notSingleWeekday => some "Only a single weekday can have nth entries or an offset."
  | nthWithoutStart entry =>
    some ("The nth entry " ++ String.ofList (Text.quoted entry) ++ " has no beginning.")
  | nthReversed entry =>
    some ("The nth entry " ++ String.ofList (Text.quoted entry) ++ " is not a valid range.")
  | dayWithoutMonth day => do return "The day " ++ (← shown? day) ++ " has no month."
  | noSuchDay month day => do
    return String.ofList month.name ++ " doesn't have a day " ++ (← shown? day) ++ "."
  | dateRangeWithoutStart => some "A monthday range must have a beginning."
  | repeatingDateRangeWithoutEnd => some "A repeating monthday range must have an end."
  | yearRangeWithoutStart => some "A year range must have a first year."
  | yearRangeReversed start stop => do
    return "The year range " ++ (← shown? start) ++ "-" ++ (← shown? stop) ++ " ends before it starts."
  | repeatingYearRangeWithoutEnd => some "A repeating year range must have an end."
  | noSuchWeek week => do return "The week " ++ (← shown? week) ++ " does not exist."
  | weekRangeInvalid start stop => do
    return "The week range " ++ (← shown? start) ++ "-" ++ (← shown? stop) ++ " is invalid."
  | repeatingWeekRangeWithoutEnd => some "A repeating week range must have an end."

/-- A fault on a condition. -/
def when (wrong : Bool) (fault : Fault) : Except Fault Unit :=
  if wrong then .error fault else .ok ()

end Fault

/-! ### Times -/

/-- The hours that a clock can show, which go on to the end of the next day. -/
def maxHours : Int := 48

/-- The name of a moment that has no other name. -/
def Time.defaultName : Text := ['t', 'i', 'm', 'e']

/-- The fault of a moment, which has a name in the message. -/
def Time.check (t : Time) (name : Text) : Except Fault Unit := do
  Fault.when (!t.isSet) (.timeNotSet name)
  Fault.when (t.isClock && !t.duration.withinHours maxHours) (.timeOutOfRange name)

/-- The fault of a period that is set. -/
def Timespan.checkPeriod (s : Timespan) : Except Fault Unit := do
  Fault.when (!s.hasStop) .repeatingTimespanWithoutEnd
  Fault.when (s.period.isEvent || !s.period.duration.isPositive) .periodNotPositive

/-- The first fault of a span of time. -/
def Timespan.check (s : Timespan) : Except Fault Unit := do
  Fault.when (!s.hasStart) .timespanWithoutStart
  s.start.check "beginning".toList
  if s.hasStop then s.stop.check "end".toList
  if s.hasPeriod then s.checkPeriod

/-- Whether a span of time has no fault. -/
def Timespan.isValid (s : Timespan) : Bool :=
  s.check.isOk

/-! ### Weekdays -/

/-- The first fault of a range of occurrences. -/
def NthRange.check (r : NthRange) : Except Fault Unit := do
  Fault.when r.start.isNone (.nthWithoutStart r.text)
  Fault.when
    (r.stop.isSome &&
      !(0 < Nth.numberOf r.start && Nth.numberOf r.start ≤ Nth.numberOf r.stop))
    (.nthReversed r.text)

/-- The first fault of a range of weekdays. -/
def WeekdayRange.check (r : WeekdayRange) : Except Fault Unit := do
  Fault.when r.start.isNone .weekdayRangeWithoutStart
  Fault.when (r.stop.isSome && (r.hasNth || r.hasOffset)) .notSingleWeekday
  r.nths.forM NthRange.check

/-! ### Dates -/

/-- The year whose calendar a date without a year is checked by. It has every day that any year
has. -/
def Date.anyYear : Int := 2000

/-- The fault of a date. At the end of a range a day of the month may stand alone. -/
def Date.check (d : Date) (bareDay : Bool) : Except Fault Unit :=
  if d.isMovable || !d.hasDay then .ok ()
  else
    match d.month with
    | none => Fault.when (!(bareDay && 1 ≤ d.day && d.day ≤ 31)) (.dayWithoutMonth d.day)
    | some m =>
      let days := m.days (if d.hasYear then d.year else Date.anyYear)
      Fault.when (!(1 ≤ d.day && d.day ≤ days)) (.noSuchDay m d.day)

/-- The first fault of a range of dates. -/
def DateRange.check (r : DateRange) : Except Fault Unit := do
  Fault.when (!r.hasStart) .dateRangeWithoutStart
  r.start.check false
  if r.hasStop then r.stop.check true
  else Fault.when r.hasPeriod .repeatingDateRangeWithoutEnd

/-! ### Years and weeks -/

/-- The first fault of a range of years. -/
def YearRange.check (r : YearRange) : Except Fault Unit := do
  Fault.when (!r.hasStart) .yearRangeWithoutStart
  Fault.when (r.hasStop && r.stop < r.start) (.yearRangeReversed r.start r.stop)
  Fault.when (r.hasPeriod && !r.hasStop) .repeatingYearRangeWithoutEnd

/-- The greatest number of a week. -/
def maxWeek : Int := 53

/-- The first fault of a range of weeks. -/
def WeekRange.check (r : WeekRange) : Except Fault Unit := do
  Fault.when (!(1 ≤ r.start && r.start ≤ maxWeek)) (.noSuchWeek r.start)
  if r.hasStop then
    Fault.when (!(r.start ≤ r.stop && r.stop ≤ maxWeek)) (.weekRangeInvalid r.start r.stop)
  else Fault.when r.hasPeriod .repeatingWeekRangeWithoutEnd

end OpeningTimes
