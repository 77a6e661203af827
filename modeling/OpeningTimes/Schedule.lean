import OpeningTimes.Field

/-!
Opening times as a whole: a field, its rules, and the times in them.

* `Schedule`: a field, its rules and their canonical text;
* `Schedule.ofField`, `Schedule.ofInput`, `Schedule.ofRules`: the schedule of a field, of an input
  that may be no text, and of rules;
* `Schedule.isAlwaysOpen`: whether there is nothing to say but that it is always open;
* `Schedule.moments`: the moments that have a time on the clock.
-/

namespace OpeningTimes

/-- Why there is no schedule. -/
inductive ScheduleError where
  /-- The input is no text. -/
  | notText
  /-- The text is no field. -/
  | field (cause : FieldError)
  deriving DecidableEq

/-- The text of an error, if it has one. -/
def ScheduleError.message? : ScheduleError → Option String
  | notText => some "The field must be a string."
  | field cause => cause.message?

/-- A field, its rules and their text. There is no schedule of rules that cannot be written. -/
structure Schedule where
  /-- The field as it has been given. -/
  field : Text
  /-- The rules of the field. -/
  rules : List Rule
  /-- The canonical text. -/
  text : Text
  written : Field.write rules = .ok text
  deriving DecidableEq

namespace Schedule

/-- The schedule of a field. -/
def ofField (field : Text) : Except FieldError Schedule := do
  let checked ← Field.check field
  let rules ← Field.read checked
  match h : Field.write rules with
  | .error e => .error e
  | .ok text => .ok ⟨field, rules, text, h⟩

/-- The schedule of an input that may be no text. -/
def ofInput : Option Text → Except ScheduleError Schedule
  | none => .error .notText
  | some field => (ofField field).mapError .field

/-- The schedule of rules. Its field is their text. -/
def ofRules (rules : List Rule) : Except FieldError Schedule :=
  match h : Field.write rules with
  | .error e => .error e
  | .ok text => .ok ⟨text, rules, text, h⟩

/-- Whether a schedule says no more than that it is always open. -/
def isAlwaysOpen (s : Schedule) : Bool :=
  match s.rules with
  | [r] => r.always && (r.modifier == .defaultOpen || r.modifier == .opened)
  | _ => false

/-- The beginning and the end of each span of time in the rules. -/
def moments (s : Schedule) : List Time :=
  s.rules.flatMap fun r => r.times.flatMap fun span => [span.start, span.stop]

/-- A short description, which shows the canonical text. -/
def describe (s : Schedule) : Text :=
  "<OpeningHours ".toList ++ Text.quoted s.text ++ ['>']

end Schedule

end OpeningTimes
