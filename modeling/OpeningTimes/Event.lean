import OpeningTimes.Text.Letter

/-!
The events of the sun that a time can refer to.

* `Event`: the four events;
* `Event.name`, `Event.ofName?`: their names, and the event of a name in any case;
* `Event.text`: the text of an event that may be missing.
-/

namespace OpeningTimes

/-- An event of the sun. -/
inductive Event where
  | sunrise
  | sunset
  | dawn
  | dusk
  deriving DecidableEq

namespace Event

/-- All events in their usual order. -/
def all : List Event := [sunrise, sunset, dawn, dusk]

/-- The name of an event. -/
def name : Event → Text
  | sunrise => ['s', 'u', 'n', 'r', 'i', 's', 'e']
  | sunset => ['s', 'u', 'n', 's', 'e', 't']
  | dawn => ['d', 'a', 'w', 'n']
  | dusk => ['d', 'u', 's', 'k']

/-- The event of a name in any case. -/
def ofName? (s : Text) : Option Event :=
  all.find? fun e => e.name == s.map Text.small

/-- The text of an event that may be missing. -/
def text : Option Event → Text
  | none => ['N', 'o', 't', 'E', 'v', 'e', 'n', 't']
  | some e => e.name

end Event

end OpeningTimes
