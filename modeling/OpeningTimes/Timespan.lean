import OpeningTimes.Text.Joined
import OpeningTimes.Time

/-!
Spans of time within a day.

* `Timespan`: a beginning, an end, a period of repetition and an open end;
* `Timespan.text`, `Timespan.textAll`: a span and a list of spans in a field.
-/

namespace OpeningTimes

/-- A span of time, of which every part may be missing. -/
structure Timespan where
  /-- The beginning. -/
  start : Time := {}
  /-- The end. -/
  stop : Time := {}
  /-- The time after which something happens again. -/
  period : Time := {}
  /-- Whether the span may go on after its end. -/
  plus : Bool := false
  deriving DecidableEq

namespace Timespan

/-- Whether there is a beginning. -/
def hasStart (s : Timespan) : Bool :=
  s.start.isSet

/-- Whether there is an end. -/
def hasStop (s : Timespan) : Bool :=
  s.stop.isSet

/-- Whether there is a period. -/
def hasPeriod (s : Timespan) : Bool :=
  s.period.isSet

/-- Whether there is neither a beginning nor an end. -/
def isEmpty (s : Timespan) : Bool :=
  !s.hasStart && !s.hasStop

/-- Whether there is a beginning and no end. -/
def isOpen (s : Timespan) : Bool :=
  s.hasStart && !s.hasStop

/-- The text of a span. A span without a beginning shows its unset end all the same. -/
def text (s : Timespan) : Text :=
  s.start.text ++
    (if s.isOpen then []
     else '-' :: s.stop.text ++ if s.hasPeriod then '/' :: s.period.text else []) ++
    if s.plus then ['+'] else []

/-- The text of a list of spans. -/
def textAll (spans : List Timespan) : Text :=
  Text.listed text spans

end Timespan

end OpeningTimes
