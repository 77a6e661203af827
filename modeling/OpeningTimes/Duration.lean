import OpeningTimes.Decimal.Rounding

/-!
Signed lengths of time, counted in microseconds and limited to a range of whole days.

* `Duration`: a length of time within the range;
* `Duration.ofMicros?` and the other constructors: the length, unless it is out of range;
* `Duration.add?`, `sub?`, `neg?`: arithmetic, with the same exception;
* `Duration.totalMinutes`: the whole minutes of a length of time, rounded down;
* `splitMinutes`: minutes as hours and minutes of the same sign.
-/

namespace OpeningTimes

namespace Duration

/-- The number of microseconds in a minute. -/
def microsPerMinute : Int := 60000000

/-- The number of microseconds in a day. -/
def microsPerDay : Int := 86400000000

/-- The greatest number of whole days in either direction. -/
def maxDays : Int := 999999999

/-- A length of time is in range if its whole days, rounded down, are. -/
def InRange (micros : Int) : Prop :=
  -maxDays ≤ micros / microsPerDay ∧ micros / microsPerDay ≤ maxDays

instance : DecidablePred InRange := fun _ => inferInstanceAs (Decidable (_ ∧ _))

end Duration

/-- A signed length of time within the range. -/
@[ext]
structure Duration where
  /-- The length in microseconds. -/
  micros : Int
  /-- The length is in range. -/
  inRange : Duration.InRange micros
  deriving DecidableEq

namespace Duration

/-- No time at all. -/
def zero : Duration := ⟨0, by decide⟩

instance : Inhabited Duration := ⟨zero⟩

/-- A number of microseconds as a length of time. -/
def ofMicros? (micros : Int) : Option Duration :=
  if h : InRange micros then some ⟨micros, h⟩ else none

/-- A length of time is that of a number of microseconds if it has as many. -/
theorem ofMicros?_eq_some_iff {micros : Int} {d : Duration} :
    ofMicros? micros = some d ↔ d.micros = micros := by
  constructor
  · intro h
    rw [ofMicros?] at h
    split at h <;> cases h
    rfl
  · rintro rfl
    exact dif_pos d.inRange

/-- A number of minutes as a length of time. -/
def ofMinutes? (minutes : Int) : Option Duration :=
  ofMicros? (minutes * microsPerMinute)

/-- Hours and minutes as a length of time. Only the sum has to be in range. -/
def ofHoursMinutes? (hours minutes : Int) : Option Duration :=
  ofMinutes? (hours * 60 + minutes)

/-- The sum of two lengths of time. -/
def add? (d e : Duration) : Option Duration :=
  ofMicros? (d.micros + e.micros)

/-- The difference of two lengths of time. -/
def sub? (d e : Duration) : Option Duration :=
  ofMicros? (d.micros - e.micros)

/-- The opposite length of time. -/
def neg? (d : Duration) : Option Duration :=
  ofMicros? (-d.micros)

/-- Whether a length of time in either direction is more than an hour. -/
def exceedsHour (d : Duration) : Bool :=
  3600000000 < d.micros.natAbs

/-- Whether a length of time goes neither backwards nor beyond a number of hours. -/
def withinHours (d : Duration) (hours : Int) : Bool :=
  0 ≤ d.micros && d.micros ≤ hours * 60 * microsPerMinute

/-- Whether a length of time is more than nothing. -/
def isPositive (d : Duration) : Bool :=
  0 < d.micros

/-- The whole minutes of a length of time, rounded down. They are counted after the seconds have been
rounded to 53 binary digits, which only matters near a whole minute of a very long time. -/
def totalMinutes (d : Duration) : Int :=
  let seconds := Binary.nearest d.micros.natAbs 1000000
  let unit : Int := 60 * Binary.scale seconds.shift
  if d.micros < 0 then -(seconds.mantissa : Int) / unit else seconds.mantissa / unit

end Duration

/-- Minutes as hours and the minutes left over. Both have the sign of the whole. -/
def splitMinutes (minutes : Int) : Int × Int :=
  (minutes.tdiv 60, minutes.tmod 60)

end OpeningTimes
