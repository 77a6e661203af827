import OpeningTimes.Text.Quoted
import OpeningTimes.Time

/-!
Sources of the times of events, and the moments of the day that depend on them.

* `Resolver`: what knows the times of the events, and may learn them while it is asked;
* `ResolveError`: why a moment has no time;
* `Time.resolvedMinutes`, `Time.hours`, `Time.minutes`, `Time.hoursMinutes`: the moment on the clock;
* `Resolver.clockTimes`: a list of moments on the clock.
-/

namespace OpeningTimes

/-- Why the time of an event is not known. -/
inductive ResolveError where
  /-- Nothing is there to be asked. -/
  | noResolver (event : Option Event)
  /-- Nothing has been given that could be asked. -/
  | noneGiven (event : Option Event)
  /-- The event is not among the known ones. -/
  | unknown (event : Option Event)
  /-- There is no event. -/
  | notEvent
  /-- The event does not take place. -/
  | absent (reason : Text)
  deriving DecidableEq

/-- An event as messages show it. -/
def ResolveError.shown (event : Option Event) : String :=
  String.ofList (Text.quoted (Event.text event))

/-- The text of an error. -/
def ResolveError.message : ResolveError → String
  | noResolver e => "The time of " ++ shown e ++ " requires an event time resolver."
  | noneGiven e => "No event time resolver was given to get the time of " ++ shown e ++ "."
  | unknown e => "The time of " ++ shown e ++ " is unknown."
  | notEvent => "This time is not an event."
  | absent reason => String.ofList reason

/-- A source of the times of events. It answers from its state, and an answer may change the
state. -/
abbrev Resolver (σ : Type) := Option Event → σ → Except ResolveError Time × σ

namespace Resolver

variable {σ : Type}

/-- The source that knows no event. -/
def unresolved : Resolver σ := fun event state => (.error (.noneGiven event), state)

end Resolver

namespace Time

variable {σ : Type}

/-- The minutes of a moment since midnight. Only an event has to be asked for. -/
def resolvedMinutes (t : Time) (resolver : Option (Resolver σ)) (state : σ) :
    Except ResolveError Int × σ :=
  if t.isEvent then
    match resolver with
    | none => (.error (.noResolver t.event), state)
    | some ask =>
      let (answer, next) := ask t.event state
      (answer.map fun u => u.totalMinutes + if t.isEventOffset then t.totalMinutes else 0, next)
  else (.ok t.totalMinutes, state)

/-- The hours of a moment on the clock. -/
def hours (t : Time) (resolver : Option (Resolver σ)) (state : σ) : Except ResolveError Int × σ :=
  let (minutes, next) := t.resolvedMinutes resolver state
  (minutes.map fun m => (splitMinutes m).1, next)

/-- The minutes of a moment on the clock, without the hours. -/
def minutes (t : Time) (resolver : Option (Resolver σ)) (state : σ) : Except ResolveError Int × σ :=
  let (minutes, next) := t.resolvedMinutes resolver state
  (minutes.map fun m => (splitMinutes m).2, next)

/-- The hours and the minutes of a moment on the clock, asked for one after the other. -/
def hoursMinutes (t : Time) (resolver : Option (Resolver σ)) (state : σ) :
    Except ResolveError (Int × Int) × σ :=
  match t.hours resolver state with
  | (.error e, next) => (.error e, next)
  | (.ok h, next) =>
    let (m, last) := t.minutes resolver next
    (m.map (h, ·), last)

end Time

/-- The hours and minutes of some moments, for which the same source is asked in turn. -/
def Resolver.clockTimes {σ : Type} (resolver : Resolver σ) :
    List Time → σ → List (Except ResolveError (Int × Int))
  | [], _ => []
  | t :: ts, state =>
    let (answer, next) := t.hoursMinutes (some resolver) state
    answer :: clockTimes resolver ts next

end OpeningTimes
