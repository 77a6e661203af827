import OpeningTimes.Text.Letter

/-!
The months of the year.

* `Month`: the twelve months;
* `Month.name`, `Month.ofName?`: their names of three letters, and the month of a name in any case;
* `Month.number`, `Month.ofNumber?`: their numbers;
* `Month.days`: the length of a month, which for February depends on the year;
* `Month.text`: the text of a month that may be missing.
-/

namespace OpeningTimes

/-- A month of the year. -/
inductive Month where
  | january
  | february
  | march
  | april
  | may
  | june
  | july
  | august
  | september
  | october
  | november
  | december
  deriving DecidableEq

/-- Whether a year has a 29 February. The rule is taken to hold for the years before it was made, and
for years before the first one. -/
def isLeapYear (year : Int) : Bool :=
  year % 4 == 0 && (year % 100 != 0 || year % 400 == 0)

namespace Month

/-- The year from January to December. -/
def all : List Month :=
  [january, february, march, april, may, june, july, august, september, october, november, december]

/-- The place of a month in the year, counted from one. -/
def number : Month → Nat
  | january => 1
  | february => 2
  | march => 3
  | april => 4
  | may => 5
  | june => 6
  | july => 7
  | august => 8
  | september => 9
  | october => 10
  | november => 11
  | december => 12

/-- The month of a number. -/
def ofNumber? (n : Int) : Option Month :=
  all.find? fun m => m.number == n

/-- The three letters of a month. -/
def name : Month → Text
  | january => ['J', 'a', 'n']
  | february => ['F', 'e', 'b']
  | march => ['M', 'a', 'r']
  | april => ['A', 'p', 'r']
  | may => ['M', 'a', 'y']
  | june => ['J', 'u', 'n']
  | july => ['J', 'u', 'l']
  | august => ['A', 'u', 'g']
  | september => ['S', 'e', 'p']
  | october => ['O', 'c', 't']
  | november => ['N', 'o', 'v']
  | december => ['D', 'e', 'c']

/-- The month of a name in any case. -/
def ofName? (s : Text) : Option Month :=
  all.find? fun m => m.name == Text.capitalized s

/-- The number of days of a month in a given year. -/
def days (m : Month) (year : Int) : Nat :=
  match m with
  | february => if isLeapYear year then 29 else 28
  | april | june | september | november => 30
  | _ => 31

/-- The text of a month that may be missing. -/
def text : Option Month → Text
  | none => ['N', 'o', 'n', 'e']
  | some m => m.name

end Month

end OpeningTimes
