import OpeningTimes.Text.Letter

/-!
The days of the week.

* `Weekday`: the seven days, beginning with Sunday;
* `Weekday.name`, `Weekday.ofName?`: their names of two letters, and the day of a name in any case;
* `Weekday.index`: the place of a day in the week, counted from zero;
* `Weekday.text`: the text of a day that may be missing.
-/

namespace OpeningTimes

/-- A day of the week. -/
inductive Weekday where
  | sunday
  | monday
  | tuesday
  | wednesday
  | thursday
  | friday
  | saturday
  deriving DecidableEq

namespace Weekday

/-- The week from Sunday to Saturday. -/
def all : List Weekday := [sunday, monday, tuesday, wednesday, thursday, friday, saturday]

/-- The place of a day in the week that begins with Sunday. -/
def index : Weekday → Nat
  | sunday => 0
  | monday => 1
  | tuesday => 2
  | wednesday => 3
  | thursday => 4
  | friday => 5
  | saturday => 6

/-- The two letters of a day. -/
def name : Weekday → Text
  | sunday => ['S', 'u']
  | monday => ['M', 'o']
  | tuesday => ['T', 'u']
  | wednesday => ['W', 'e']
  | thursday => ['T', 'h']
  | friday => ['F', 'r']
  | saturday => ['S', 'a']

/-- The day of a name in any case. -/
def ofName? (s : Text) : Option Weekday :=
  all.find? fun d => d.name == Text.capitalized s

/-- The text of a day that may be missing. -/
def text : Option Weekday → Text
  | none => ['n', 'o', 't', '-', 'a', '-', 'd', 'a', 'y']
  | some d => d.name

end Weekday

end OpeningTimes
