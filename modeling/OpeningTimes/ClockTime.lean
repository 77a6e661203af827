import OpeningTimes.Time

/-!
Times shown by a clock, from midnight to the minute before the next one.

* `ClockTime`: hours and minutes within their bounds;
* `ClockTime.of?`: the time of three numbers, if a clock shows it;
* `ClockTime.toTime`: the time as a moment of the day, which is always in range.
-/

namespace OpeningTimes

/-- A time shown by a clock. Its seconds do not matter here. -/
structure ClockTime where
  /-- The hours since midnight. -/
  hour : Nat
  /-- The minutes since the last hour. -/
  minute : Nat
  /-- A day has 24 hours. -/
  hour_lt : hour < 24
  /-- An hour has 60 minutes. -/
  minute_lt : minute < 60
  deriving DecidableEq

namespace ClockTime

/-- The time of hours, minutes and seconds, if a clock shows it. -/
def of? (hour minute second : Int) : Option ClockTime :=
  if 0 ≤ hour ∧ 0 ≤ minute ∧ 0 ≤ second ∧ second < 60 then
    if h : hour.toNat < 24 ∧ minute.toNat < 60 then some ⟨hour.toNat, minute.toNat, h.1, h.2⟩ else none
  else none

/-- The length of time since midnight, which is in range. -/
def duration (t : ClockTime) : Duration where
  micros := (t.hour * 60 + t.minute) * Duration.microsPerMinute
  inRange := by
    have := t.hour_lt
    have := t.minute_lt
    unfold Duration.InRange Duration.microsPerMinute Duration.microsPerDay Duration.maxDays
    omega

/-- The time as a moment of the day. -/
def toTime (t : ClockTime) : Time :=
  Time.ofDuration t.duration

end ClockTime

end OpeningTimes
