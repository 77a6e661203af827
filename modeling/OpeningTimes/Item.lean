import OpeningTimes.Rule

/-!
Everything that can be asked for its text, whatever its kind.

* `Item`: a value of any kind, or a sequence of them;
* `Item.text`: its text, if it has one;
* `Item.write`: a text with the text of an item after it.
-/

namespace OpeningTimes

/-- A value of any kind. -/
inductive Item where
  | weekday (d : Option Weekday)
  | month (m : Option Month)
  | event (e : Option Event)
  | movable (d : Option MovableDate)
  | nth (n : Option Nth)
  | modifier (m : Modifier)
  | time (t : Time)
  | timespan (s : Timespan)
  | nthRange (r : NthRange)
  | weekdayRange (r : WeekdayRange)
  | holiday (h : Holiday)
  | days (s : DaySelector)
  | dateOffset (o : DateOffset)
  | date (d : Date)
  | dateRange (r : DateRange)
  | yearRange (r : YearRange)
  | weekRange (r : WeekRange)
  | rule (r : Rule)
  /-- A sequence of items. -/
  | sequence (items : List Item)
  /-- Something that has no place in a field, by the name of its kind. -/
  | foreign (kind : String)
  deriving BEq

/-- Why an item has no text. -/
inductive RenderError where
  /-- Things of that kind have no text. -/
  | notRenderable (kind : String)
  /-- Sequences of such things have no text. -/
  | notListed (kind : String)
  /-- A number has too many digits to be written. -/
  | tooManyDigits
  deriving DecidableEq

/-- The text of an error. A number that cannot be written gets none. -/
def RenderError.message? : RenderError → Option String
  | notRenderable kind =>
    some ("Can't render an object of type " ++ String.ofList (Text.quoted kind.toList) ++ ".")
  | notListed kind =>
    some ("Can't render a sequence of " ++ String.ofList (Text.quoted kind.toList) ++ ".")
  | tooManyDigits => none

namespace Item

/-- The name that messages give to the kind of an item. -/
def kind : Item → String
  | weekday _ => "Weekday"
  | month _ => "Month"
  | event _ => "Event"
  | movable _ => "VariableDate"
  | nth _ => "NthDayOfTheMonth"
  | modifier _ => "Modifier"
  | time _ => "Time"
  | timespan _ => "Timespan"
  | nthRange _ => "NthWeekdayOfTheMonthEntry"
  | weekdayRange _ => "WeekdayRange"
  | holiday _ => "Holiday"
  | days _ => "Weekdays"
  | dateOffset _ => "DateOffset"
  | date _ => "MonthDay"
  | dateRange _ => "MonthdayRange"
  | yearRange _ => "YearRange"
  | weekRange _ => "WeekRange"
  | rule _ => "RuleSequence"
  | sequence _ => "tuple"
  | foreign kind => kind

/-- The items of a sequence as values of one kind, or else the first item that is of another one. -/
def allAs {α : Type} (as? : Item → Option α) (items : List Item) : Except RenderError (List α) :=
  items.mapM fun item =>
    match as? item with
    | none => .error (.notListed item.kind)
    | some a => .ok a

/-- A text, unless one of its numbers has too many digits. -/
def written : Option Text → Except RenderError Text
  | none => .error .tooManyDigits
  | some t => .ok t

/-- The text of a sequence, which the kind of its first item decides. -/
def sequenceText (items : List Item) : Except RenderError Text :=
  match items with
  | [] => .ok []
  | timespan _ :: _ =>
    Timespan.textAll <$> allAs (fun | timespan s => some s | _ => none) items
  | weekdayRange _ :: _ => do
    written (WeekdayRange.textAll? (← allAs (fun | weekdayRange r => some r | _ => none) items))
  | holiday _ :: _ => do
    written (Holiday.textAll? (← allAs (fun | holiday h => some h | _ => none) items))
  | dateRange _ :: _ => do
    written (DateRange.textAll? (← allAs (fun | dateRange r => some r | _ => none) items))
  | yearRange _ :: _ => do
    written (YearRange.textAll? (← allAs (fun | yearRange r => some r | _ => none) items))
  | weekRange _ :: _ => do
    written (WeekRange.textAll? (← allAs (fun | weekRange r => some r | _ => none) items))
  | rule _ :: _ => do written (Rule.textAll? (← allAs (fun | rule r => some r | _ => none) items))
  | item :: _ => .error (.notListed item.kind)

/-- The text of an item. -/
def text : Item → Except RenderError Text
  | weekday d => .ok (Weekday.text d)
  | month m => .ok (Month.text m)
  | event e => .ok (Event.text e)
  | movable d => .ok (MovableDate.text d)
  | nth n => .ok (Nth.text n)
  | modifier m => .ok m.text
  | time t => .ok t.text
  | timespan s => .ok s.text
  | nthRange r => .ok r.text
  | weekdayRange r => written r.text?
  | holiday h => written h.text?
  | days s => written s.text?
  | dateOffset o => written o.text?
  | date d => written d.text?
  | dateRange r => written r.text?
  | yearRange r => written r.text?
  | weekRange r => written r.text?
  | rule r => written r.text?
  | sequence items => sequenceText items
  | foreign kind => .error (.notRenderable kind)

/-- A text with the text of an item after it. -/
def write (sink : Text) (item : Item) : Except RenderError Text :=
  (item.text).map (sink ++ ·)

end Item

end OpeningTimes
