import OpeningTimes.CalendarDay
import OpeningTimes.ClockTime
import OpeningTimes.Decimal.Shortest
import OpeningTimes.Resolver
import OpeningTimes.Text.Joined

/-!
Events at the times that the sun has on a given day at a given place. Their computation is costly, so
its first success is kept.

* `SunTimes`: the times of the four events;
* `Sun`: what each attempt at a computation gives;
* `SolarState`: what has been learnt, and after how many attempts;
* `Solar.resolver`: the source of times;
* `Solar`: the day and the place.
-/

namespace OpeningTimes

/-- The times of the events of a day. -/
structure SunTimes where
  dawn : ClockTime
  sunrise : ClockTime
  sunset : ClockTime
  dusk : ClockTime
  deriving DecidableEq

/-- The time of an event. -/
def SunTimes.of (times : SunTimes) : Event → ClockTime
  | .dawn => times.dawn
  | .sunrise => times.sunrise
  | .sunset => times.sunset
  | .dusk => times.dusk

/-- What each attempt at the computation gives, by the number of attempts before it: the times, or the
reason why there are none. -/
abbrev Sun := Nat → Except Text SunTimes

/-- The attempts in a list, of which the last one goes on for ever. -/
def Sun.ofList (answers : List (Except Text SunTimes)) : Sun := fun n =>
  (answers[n]?.or answers.getLast?).getD (.error [])

/-- What has been learnt so far. -/
structure SolarState where
  /-- The number of attempts. -/
  calls : Nat := 0
  /-- The times, once there are any. -/
  known : Option SunTimes := none
  deriving DecidableEq

/-- A day and a place. -/
structure Solar where
  /-- The latitude in degrees. -/
  latitude : Decimal
  /-- The longitude in degrees. -/
  longitude : Decimal
  /-- The day. -/
  day : CalendarDay
  deriving DecidableEq

namespace Solar

/-- A day and a place, whose coordinates are brought back to the globe. -/
def of (latitude longitude : Decimal) (day : CalendarDay) : Solar :=
  ⟨latitude.clamped 90, longitude.clamped 180, day⟩

/-- The source of the times of a day. It makes attempts until one succeeds, and from then on answers
by that one. -/
def resolver (sun : Sun) : Resolver SolarState := fun event state =>
  match event with
  | none => (.error .notEvent, state)
  | some e =>
    match state.known with
    | some times => (.ok (times.of e).toTime, state)
    | none =>
      let calls := state.calls + 1
      match sun state.calls with
      | .error reason => (.error (.absent reason), { state with calls := calls })
      | .ok times => (.ok (times.of e).toTime, { calls := calls, known := some times })

/-- A short description: the day and the coordinates. -/
def describe (s : Solar) : Text :=
  "<SolarEventTimes ".toList ++ s.day.text ++ [' ', '('] ++ s.latitude.text ++ Text.commaSpace ++
    s.longitude.text ++ [')', '>']

end Solar

end OpeningTimes
