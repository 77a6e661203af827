import OpeningTimes.Duration
import OpeningTimes.Event
import OpeningTimes.Text.Numeral

/-!
Moments of the day: clock times, events of the sun with or without an offset, and numbers of minutes.

* `Time`: a moment with its kind, its length of time since midnight or since the event, and the
  event;
* `Time.Consistent`: what kind, duration and event have to do with each other;
* `Time.ofHours?`, `ofHoursMinutes?`, `ofMinutes?`, `ofEvent`, `ofEvent?`: moments made of numbers and
  events;
* `Time.withEvent`, `add?`, `sub?`, `neg?`: moments made of other moments;
* `Time.text`: the text of a moment in a field.
-/

namespace OpeningTimes

/-- The kinds of moments. -/
inductive Time.Kind where
  /-- Nothing is set. -/
  | unset
  /-- A number of minutes, which serves as a period. -/
  | minutes
  /-- A time on the clock. -/
  | clock
  /-- The time of an event. -/
  | event
  /-- A time before or after an event. -/
  | eventOffset
  deriving DecidableEq

/-- A moment of the day. -/
structure Time where
  /-- The kind of the moment. -/
  kind : Time.Kind := .unset
  /-- The time since midnight, or since the event if there is one. -/
  duration : Duration := .zero
  /-- The event that the moment refers to. -/
  event : Option Event := none
  deriving DecidableEq

namespace Time

/-- What goes wrong when a moment is made of an event. -/
inductive EventError where
  /-- There is no event. -/
  | noEvent
  deriving DecidableEq

/-- The text of an error. -/
def EventError.message : EventError → String
  | noEvent => "An event time requires an event."

/-- Whether anything is set. -/
def isSet (t : Time) : Bool :=
  t.kind != .unset

/-- Whether the moment is the time of an event, or before or after one. -/
def isEvent (t : Time) : Bool :=
  t.kind == .event || t.kind == .eventOffset

/-- Whether the moment is before or after an event. -/
def isEventOffset (t : Time) : Bool :=
  t.kind == .eventOffset

/-- Whether the moment is a time on the clock. -/
def isClock (t : Time) : Bool :=
  t.kind == .clock

/-- Whether the moment is a number of minutes. -/
def isMinutes (t : Time) : Bool :=
  t.kind == .minutes

/-- Whether the moment is one of the day and not only a number of minutes. -/
def isTime (t : Time) : Bool :=
  t.isClock || t.isEvent

/-- The minutes since midnight or since the event. -/
def totalMinutes (t : Time) : Int :=
  t.duration.totalMinutes

/-- The kind of a moment decides whether it has an event and how long it may be. -/
def Consistent (t : Time) : Prop :=
  match t.kind with
  | .unset => t.duration = .zero ∧ t.event = none
  | .minutes => t.event = none ∧ t.duration.exceedsHour = false
  | .clock => t.event = none
  | .event => t.event.isSome ∧ t.duration = .zero
  | .eventOffset => t.event.isSome

/-! ### Moments from numbers and events -/

/-- A time on the clock. -/
def ofDuration (d : Duration) : Time :=
  { kind := .clock, duration := d }

/-- A time on the clock on the hour. -/
def ofHours? (hours : Int) : Option Time :=
  (Duration.ofHoursMinutes? hours 0).map ofDuration

/-- A time on the clock. -/
def ofHoursMinutes? (hours minutes : Int) : Option Time :=
  (Duration.ofHoursMinutes? hours minutes).map ofDuration

/-- The moment of a duration after some arithmetic. Hours are only ever added: what has been a time
on the clock stays one, and what exceeds an hour becomes one. -/
def promoted (d : Duration) (event : Option Event) (wasClock : Bool) : Time :=
  match event with
  | some e => { kind := .eventOffset, duration := d, event := some e }
  | none => if wasClock || d.exceedsHour then ofDuration d else { kind := .minutes, duration := d }

/-- A number of minutes. More than an hour makes it a time on the clock. -/
def ofMinutes? (minutes : Int) : Option Time :=
  (Duration.ofMinutes? minutes).map (promoted · none false)

/-- The time of an event, or a time before or after it. An offset of no length is still an offset. -/
def ofEvent (e : Event) : Option Duration → Time
  | none => { kind := .event, event := some e }
  | some d => { kind := .eventOffset, duration := d, event := some e }

/-- The time of an event that may be missing. -/
def ofEvent? (event : Option Event) (offset : Option Duration) : Except EventError Time :=
  match event with
  | none => .error .noEvent
  | some e => .ok (ofEvent e offset)

/-! ### Moments from other moments -/

/-- A moment with another event, or with none. A time on the clock becomes the offset of the event,
and an offset that loses its event becomes a time on the clock. -/
def withEvent (t : Time) : Option Event → Time
  | none =>
    match t.kind with
    | .event => {}
    | .eventOffset => ofDuration t.duration
    | _ => t
  | some e =>
    match t.kind with
    | .unset | .event => ofEvent e none
    | _ => ofEvent e (some t.duration)

/-- A moment later by another one, whose event does not matter. -/
def add? (t u : Time) : Option Time :=
  (t.duration.add? u.duration).map (promoted · t.event (t.isClock || u.isClock))

/-- A moment earlier by another one, whose event does not matter. -/
def sub? (t u : Time) : Option Time :=
  (t.duration.sub? u.duration).map (promoted · t.event (t.isClock || u.isClock))

/-- A moment with the opposite duration. -/
def neg? (t : Time) : Option Time :=
  t.duration.neg?.map ({ t with duration := · })

/-! ### Text -/

/-- The hours and minutes of a time on the clock. Both have the sign of the whole, which is taken off each
of them. -/
def clockText (minutes : Int) : Text :=
  let (hours, rest) := splitMinutes minutes
  Text.twoDigits hours.natAbs ++ ':' :: Text.twoDigits rest.natAbs

/-- The hours and minutes of an offset, whose sign is taken off before they are split. -/
def offsetText (minutes : Int) : Text :=
  let (hours, rest) := splitMinutes minutes.natAbs
  Text.twoDigits hours ++ ':' :: Text.twoDigits rest

/-- The sign of an offset. No offset counts as one forwards. -/
def signText (minutes : Int) : Text :=
  if minutes < 0 then ['-'] else ['+']

/-- The text of a moment. A length of time has so few digits that its numbers can always be written. -/
def text (t : Time) : Text :=
  match t.kind with
  | .unset => ['h', 'h', ':', 'm', 'm']
  | .minutes => Text.twoDigits t.totalMinutes.natAbs
  | .clock => clockText t.totalMinutes
  | .event => Event.text t.event
  | .eventOffset =>
    '(' :: Event.text t.event ++ signText t.totalMinutes ++ offsetText t.totalMinutes ++ [')']

end Time

end OpeningTimes
