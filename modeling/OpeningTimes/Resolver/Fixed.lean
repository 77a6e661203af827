import OpeningTimes.Assoc
import OpeningTimes.ClockTime
import OpeningTimes.Resolver
import OpeningTimes.Text.Joined

/-!
Events at times that are given once and for all.

* `EventKey`, `EventValue`: what an event and its time can be given by;
* `FixedTimes`: the times of events in the order in which the events are first named;
* `FixedTimes.ofList?`: the table of a list of keys and values;
* `FixedTimes.resolver`: the source of times that it is.
-/

namespace OpeningTimes

/-- What an event can be given by: its name in any case, or the event. -/
inductive EventKey where
  | token (name : Text)
  | event (event : Option Event)
  deriving DecidableEq

/-- The event of a key, unless it is a name of none. -/
def EventKey.event? : EventKey → Option (Option Event)
  | token name => (Event.ofName? name).map some
  | event e => some e

/-- What the time of an event can be given by. -/
inductive EventValue where
  | clock (time : ClockTime)
  | time (time : Time)
  deriving DecidableEq

/-- The moment of a value. -/
def EventValue.toTime : EventValue → Time
  | clock t => t.toTime
  | time t => t

/-- The times of some events. -/
structure FixedTimes where
  /-- The events in the order in which they are first named, with their times. -/
  table : List (Option Event × Time) := []
  deriving DecidableEq

namespace FixedTimes

/-- The times of events with one more key and value. -/
def add? (times : FixedTimes) (key : EventKey) (value : EventValue) : Option FixedTimes :=
  key.event?.map fun e => ⟨Assoc.put e value.toTime times.table⟩

/-- The times of the events in a list of keys and values, unless a key names no event. -/
def ofList? (entries : List (EventKey × EventValue)) : Option FixedTimes :=
  entries.foldlM (fun times e => times.add? e.1 e.2) {}

/-- The source of the times. -/
def resolver {σ : Type} (times : FixedTimes) : Resolver σ := fun event state =>
  match Assoc.get? event times.table with
  | none => (.error (.unknown event), state)
  | some t => (.ok t, state)

/-- A short description, which names the events. -/
def describe (times : FixedTimes) : Text :=
  "<FixedEventTimes ".toList ++ Text.listed Event.text (times.table.map Prod.fst) ++ ['>']

end FixedTimes

end OpeningTimes
