import OpeningTimes.Field.Productions
import OpeningTimes.Grammar.Reading

/-!
Fields: the texts of opening times.

* `FieldError`: why a text is no field;
* `Field.read`: the rules of a field;
* `Field.check`: a field with an even number of quotes;
* `Field.write`: the text of rules;
* `Field.canonical`: the one text among those of the same rules that is written by this library.
-/

namespace OpeningTimes

/-- Why a text has no rules. -/
inductive FieldError where
  /-- A double quote is left over. -/
  | oddQuotes
  /-- The text has not the form of a field. -/
  | unreadable (field : Text)
  /-- No rules can hold what the field says. -/
  | unsupported (pattern : UnsupportedPattern)
  /-- The field has the right form and yet means nothing. -/
  | meaningless (cause : BuildError)
  /-- A number in the rules has too many digits to be written. -/
  | unwritable
  deriving DecidableEq

namespace FieldError

/-- The text of an error. A field that means nothing gets none, and rules that have no text neither. -/
def message? : FieldError → Option String
  | oddQuotes => some "This field contains an odd number of quotes."
  | unreadable field =>
    some ("The field " ++ String.ofList (Text.quoted field) ++ " could not be parsed.")
  | unsupported pattern => some pattern.message
  | meaningless _ => none
  | unwritable => none

/-- What an error of the grammar is for the whole field. -/
def ofBuildError : BuildError → FieldError
  | .unsupported pattern => unsupported pattern
  | cause => meaningless cause

end FieldError

namespace Field

/-- The rules of a field without margins. -/
def readTrimmed (s : Text) : Except FieldError (List Rule) :=
  match fieldGrammar.read? .rules s with
  | none => .error (.unreadable s)
  | some v => v.mapError FieldError.ofBuildError

/-- The rules of a field. -/
def read (field : Text) : Except FieldError (List Rule) :=
  readTrimmed (Text.trimField field)

/-- A field, unless a double quote is left over in it. -/
def check (field : Text) : Except FieldError Text :=
  if field.count '"' % 2 == 0 then .ok field else .error .oddQuotes

/-- The text of rules. -/
def write (rules : List Rule) : Except FieldError Text :=
  match Rule.textAll? rules with
  | none => .error .unwritable
  | some text => .ok text

/-- The canonical text of a field. -/
def canonical (field : Text) : Except FieldError Text := do
  let field ← check field
  let rules ← read field
  write rules

end Field

end OpeningTimes
