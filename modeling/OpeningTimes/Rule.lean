import OpeningTimes.Date.Range
import OpeningTimes.DaySelector
import OpeningTimes.Text.Quoted
import OpeningTimes.Timespan
import OpeningTimes.WeekRange
import OpeningTimes.YearRange

/-!
Rules: when something is open, closed or in another state.

* `Modifier`: the state that a rule sets;
* `Rule`: selectors, a state and comments, and what separates the rule from the next one;
* `Rule.withSeparator`: a rule with another separator, of which there are three;
* `Rule.text?`, `Rule.textAll?`: a rule and a list of rules in a field. They have no text if one of the
  numbers in it would have too many digits.
-/

namespace OpeningTimes

/-- The state that a rule sets. -/
inductive Modifier where
  /-- Open, because nothing else is said. -/
  | defaultOpen
  | opened
  | closed
  | unknown
  /-- As a comment says. -/
  | comment
  deriving DecidableEq

namespace Modifier

/-- Whether a word stands for the state. -/
def isPrinted (m : Modifier) : Bool :=
  m != defaultOpen && m != comment

/-- The word for a state, if there is one. -/
def text : Modifier → Text
  | opened => ['o', 'p', 'e', 'n']
  | closed => ['c', 'l', 'o', 's', 'e', 'd']
  | unknown => ['u', 'n', 'k', 'n', 'o', 'w', 'n']
  | _ => []

end Modifier

/-- The separator that gives way to the next rule where both apply. -/
def semicolon : Text := [';']

/-- A rule. -/
structure Rule where
  /-- The years in which the rule applies. -/
  years : List YearRange := []
  /-- The dates at which it applies. -/
  dates : List DateRange := []
  /-- The weeks in which it applies. -/
  weeks : List WeekRange := []
  /-- The weekdays and holidays on which it applies. -/
  days : DaySelector := {}
  /-- The times of the day at which it applies. -/
  times : List Timespan := []
  /-- Whether the rule applies always. The selectors do not matter then. -/
  always : Bool := false
  /-- The state that the rule sets. -/
  modifier : Modifier := .defaultOpen
  /-- A text in place of the selectors, with its quotes. -/
  comment : Text := []
  /-- The text after the state, without its quotes. -/
  modifierComment : Text := []
  /-- Whether a colon follows years, dates and weeks. -/
  colon : Bool := false
  /-- What separates the rule from the next one. -/
  separator : Text := semicolon
  deriving DecidableEq

namespace Rule

/-- The separators of rules. -/
def separators : List Text := [semicolon, [','], ['|', '|']]

/-- What goes wrong when a rule gets a separator. -/
inductive SeparatorError where
  /-- The text is none of the separators. -/
  | notSeparator (text : Text)
  deriving DecidableEq

/-- The text of an error. -/
def SeparatorError.message : SeparatorError → String
  | notSeparator s =>
    "The rule separator must be one of ;, ,, ||, not " ++ String.ofList (Text.quoted s) ++ "."

/-- A rule with another separator. -/
def withSeparator (r : Rule) (separator : Text) : Except SeparatorError Rule :=
  if separators.contains separator then .ok { r with separator := separator }
  else .error (.notSeparator separator)

/-- Whether there are years. -/
def hasYears (r : Rule) : Bool :=
  !r.years.isEmpty

/-- Whether there are dates. -/
def hasDates (r : Rule) : Bool :=
  !r.dates.isEmpty

/-- Whether there are weeks. -/
def hasWeeks (r : Rule) : Bool :=
  !r.weeks.isEmpty

/-- Whether there are weekdays or holidays. -/
def hasDays (r : Rule) : Bool :=
  !r.days.isEmpty

/-- Whether there are times. -/
def hasTimes (r : Rule) : Bool :=
  !r.times.isEmpty

/-- Whether there is a text in place of the selectors. -/
def hasComment (r : Rule) : Bool :=
  !r.comment.isEmpty

/-- Whether there is a text after the state. -/
def hasModifierComment (r : Rule) : Bool :=
  !r.modifierComment.isEmpty

/-- Whether there are no selectors. -/
def isEmpty (r : Rule) : Bool :=
  !r.hasYears && !r.hasDates && !r.hasWeeks && !r.hasDays && !r.hasTimes

/-- The words that say when a rule applies. -/
def spacedSelectors? (r : Rule) : Option Spaced :=
  if r.always then some (Spaced.word {} ['2', '4', '/', '7'])
  else if r.hasComment then some (Spaced.word {} (r.comment ++ [':']))
  else do
    let years ← Spaced.wordIf? {} r.hasYears (YearRange.textAll? r.years)
    let dates ← years.wordIf? r.hasDates (DateRange.textAll? r.dates)
    let weeks ← dates.wordIf? r.hasWeeks (WeekRange.textAll? r.weeks)
    let days ← (weeks.glueIf r.colon [':']).wordIf? r.hasDays r.days.text?
    return days.wordIf r.hasTimes (Timespan.textAll r.times)

/-- The words of a rule, with spaces between them. -/
def spaced? (r : Rule) : Option Spaced := do
  let selectors ← r.spacedSelectors?
  return (selectors.wordIf r.modifier.isPrinted r.modifier.text).wordIf
    r.hasModifierComment ('"' :: r.modifierComment ++ ['"'])

/-- The text of a rule. -/
def text? (r : Rule) : Option Text :=
  r.spaced?.map (·.text)

/-- What stands between a rule and the next one. -/
def separatorText (r : Rule) : Text :=
  if r.separator == ['|', '|'] then [' ', '|', '|', ' '] else r.separator ++ [' ']

/-- The text of a list of rules, each with its own separator. -/
def textAll? (rules : List Rule) : Option Text :=
  Text.joinBy? separatorText text? rules

end Rule

end OpeningTimes
