import OpeningTimes.Proofs.Text.Short
import OpeningTimes.Rule

/-!
Texts of rules whatever their numbers are.

A rule has a text unless one of the numbers that stand in it has too many digits. What the text would be
does not depend on that, and it is this text that the grammar is compared with.

* `DayOffset.text`, `WeekdayRange.text`, `Date.text` and their companions up to `Rule.textAll`: the text of
  a part, with numbers of any size;
* `Holiday.numbers`, `Date.numbers` and their companions: the numbers that stand in it;
* `Rule.text?_eq`, `Rule.textAll?_eq`: the text is written if these numbers are short.
-/

namespace OpeningTimes

open Text

/-! ### Offsets and periods -/

/-- The text of an offset of days. -/
def DayOffset.text (days : ℤ) (spaced : Bool) : Text :=
  if days == 0 then []
  else
    (if spaced then [' '] else []) ++ (if 0 < days then ['+'] else []) ++ Text.numeral days ++
      [' ', 'd', 'a', 'y'] ++ if 1 < days.natAbs then ['s'] else []

lemma DayOffset.text?_eq (days : ℤ) (spaced : Bool) :
    text? days spaced = whenShort [days] (text days spaced) := by
  unfold text? text
  by_cases h : days = 0
  · simp [h]
  · have h : (days == 0) = false := by simpa using h
    simp only [h, Bool.false_eq_true, if_false, numeral?_eq]
    exact whenShort_bind_pure _ _ _

/-- The text of a period. -/
def Period.text (period : ℤ) : Text :=
  if period == 0 then [] else '/' :: numeral period

lemma Period.text_zero : text 0 = [] :=
  rfl

lemma Period.text_of_ne {period : ℤ} (h : period ≠ 0) : text period = '/' :: numeral period := by
  simp [text, h]

lemma Period.text?_eq (period : ℤ) : text? period = whenShort [period] (text period) := by
  unfold text? text
  by_cases h : period = 0
  · simp [h]
  · simp [h, numeral?_eq]

/-! ### Holidays -/

namespace Holiday

/-- The text of holidays. -/
def text (h : Holiday) : Text :=
  if h.plural then ['P', 'H'] else 'S' :: 'H' :: DayOffset.text h.offset true

/-- The text of a list of holidays. -/
def textAll (holidays : List Holiday) : Text :=
  listed text holidays

/-- The numbers in the text of holidays. -/
def numbers (h : Holiday) : List ℤ :=
  if h.plural then [] else [h.offset]

lemma text?_eq (h : Holiday) : h.text? = whenShort h.numbers h.text := by
  unfold text? text numbers
  cases h.plural <;> simp [DayOffset.text?_eq]

lemma textAll?_eq (hs : List Holiday) :
    textAll? hs = whenShort (hs.flatMap numbers) (textAll hs) :=
  joinWith?_eq commaSpace text?_eq hs

end Holiday

/-! ### Weekdays -/

namespace WeekdayRange

/-- The text of a range. -/
def text (r : WeekdayRange) : Text :=
  Weekday.text r.start ++
    if r.stop.isSome then '-' :: Weekday.text r.stop
    else
      (if r.hasNth then '[' :: joinWith [','] NthRange.text r.nths ++ [']'] else []) ++
        DayOffset.text r.offset true

/-- The text of a list of ranges. -/
def textAll (ranges : List WeekdayRange) : Text :=
  listed text ranges

/-- The numbers in the text of a range, apart from the occurrences, which are never great. -/
def numbers (r : WeekdayRange) : List ℤ :=
  if r.stop.isSome then [] else [r.offset]

lemma text?_eq (r : WeekdayRange) : r.text? = whenShort r.numbers r.text := by
  unfold text? text numbers
  cases r.stop.isSome with
  | true => rfl
  | false =>
    simp only [Bool.false_eq_true, if_false, DayOffset.text?_eq]
    exact whenShort_bind_pure _ _ _

lemma textAll?_eq (rs : List WeekdayRange) :
    textAll? rs = whenShort (rs.flatMap numbers) (textAll rs) :=
  joinWith?_eq commaSpace text?_eq rs

end WeekdayRange

namespace DaySelector

/-- The text of a selection. -/
def text (s : DaySelector) : Text :=
  Holiday.textAll s.holidays ++
    (if s.hasWeekdays && s.hasHolidays then commaSpace else []) ++
    WeekdayRange.textAll s.ranges

/-- The numbers in the text of a selection. -/
def numbers (s : DaySelector) : List ℤ :=
  s.holidays.flatMap Holiday.numbers ++ s.ranges.flatMap WeekdayRange.numbers

lemma text?_eq (s : DaySelector) : s.text? = whenShort s.numbers s.text := by
  unfold text? text numbers
  rw [Holiday.textAll?_eq, WeekdayRange.textAll?_eq]
  exact whenShort_bind (whenShort_bind_pure _ _ _)

end DaySelector

/-! ### Years and weeks -/

namespace YearRange

/-- The text of a range of years. -/
def text (r : YearRange) : Text :=
  if r.isEmpty then []
  else
    numeral r.start ++
      if r.hasStop then
        '-' :: numeral r.stop ++ Period.text r.period
      else if r.plus then ['+'] else []

/-- The text of a list of ranges. -/
def textAll (ranges : List YearRange) : Text :=
  listed text ranges

/-- The numbers in the text of a range. -/
def numbers (r : YearRange) : List ℤ :=
  if r.isEmpty then [] else r.start :: if r.hasStop then [r.stop, r.period] else []

lemma text?_eq (r : YearRange) : r.text? = whenShort r.numbers r.text := by
  unfold text? text numbers
  cases r.isEmpty with
  | true => rfl
  | false =>
    cases r.hasStop with
    | true =>
      simp only [Bool.false_eq_true, if_false, if_true, numeral?_eq, Period.text?_eq]
      refine whenShort_bind (whenShort_bind ((whenShort_bind_pure _ _ _).trans ?_))
      rw [List.append_assoc]
    | false =>
      simp only [Bool.false_eq_true, if_false, numeral?_eq]
      exact whenShort_bind_pure _ _ _

lemma textAll?_eq (rs : List YearRange) :
    textAll? rs = whenShort (rs.flatMap numbers) (textAll rs) :=
  joinWith?_eq commaSpace text?_eq rs

end YearRange

namespace WeekRange

/-- The text of a range of weeks. -/
def text (r : WeekRange) : Text :=
  if r.isEmpty then []
  else
    twoDigits r.start ++
      if r.hasStop then
        '-' :: twoDigits r.stop ++ Period.text r.period
      else []

/-- The text of a list of ranges, after the word that tells them from other numbers. -/
def textAll (ranges : List WeekRange) : Text :=
  ['w', 'e', 'e', 'k', ' '] ++ listed text ranges

/-- The numbers in the text of a range. -/
def numbers (r : WeekRange) : List ℤ :=
  if r.isEmpty then [] else r.start :: if r.hasStop then [r.stop, r.period] else []

lemma text?_eq (r : WeekRange) : r.text? = whenShort r.numbers r.text := by
  unfold text? text numbers
  cases r.isEmpty with
  | true => rfl
  | false =>
    cases r.hasStop with
    | true =>
      simp only [Bool.false_eq_true, if_false, if_true, padded?_two, Period.text?_eq]
      refine whenShort_bind (whenShort_bind ((whenShort_bind_pure _ _ _).trans ?_))
      rw [List.append_assoc]
    | false =>
      simp only [Bool.false_eq_true, if_false, padded?_two, List.append_nil]
      exact whenShort_bind_pure _ _ _

lemma textAll?_eq (rs : List WeekRange) :
    textAll? rs = whenShort (rs.flatMap numbers) (textAll rs) := by
  rw [textAll?, listed?, joinWith?_eq commaSpace text?_eq rs, map_whenShort, textAll]

end WeekRange

/-! ### Dates -/

namespace DateOffset

/-- The text of a shift. -/
def text (o : DateOffset) : Text :=
  (if o.hasWeekday then (if o.positive then '+' else '-') :: Weekday.text o.weekday else []) ++
    DayOffset.text o.days o.hasWeekday

lemma text?_eq (o : DateOffset) : o.text? = whenShort [o.days] o.text := by
  rw [text?, DayOffset.text?_eq]
  exact whenShort_bind_pure _ _ _

end DateOffset

namespace Date

/-- The words of a date, with spaces between them. -/
def spaced (d : Date) : Spaced :=
  let year := Spaced.wordIf {} d.hasYear (numeral d.year)
  let day :=
    if d.isMovable then year.word (MovableDate.text d.movable)
    else (year.wordIf d.hasMonth (Month.text d.month)).wordIf d.hasDay (twoDigits d.day)
  day.wordIf d.hasOffset d.offset.text

/-- The text of a date. -/
def text (d : Date) : Text :=
  d.spaced.text

/-- The numbers in the text of a date. -/
def numbers (d : Date) : List ℤ :=
  (if d.hasYear then [d.year] else []) ++
    ((if d.isMovable then [] else if d.hasDay then [d.day] else []) ++
      if d.hasOffset then [d.offset.days] else [])

lemma spaced?_eq (d : Date) : d.spaced? = whenShort d.numbers d.spaced := by
  unfold spaced? spaced numbers
  rw [Spaced.wordIf?_eq _ _ (numeral?_eq d.year)]
  cases d.isMovable with
  | true => exact whenShort_bind (Spaced.wordIf?_eq _ _ (DateOffset.text?_eq d.offset))
  | false =>
    refine whenShort_bind ?_
    simp only [Bool.false_eq_true, if_false]
    rw [Spaced.wordIf?_eq _ _ (padded?_two d.day)]
    exact whenShort_bind (Spaced.wordIf?_eq _ _ (DateOffset.text?_eq d.offset))

lemma text?_eq (d : Date) : d.text? = whenShort d.numbers d.text := by
  rw [text?, spaced?_eq, map_whenShort, text]

end Date

namespace DateRange

/-- The text of a range of dates. -/
def text (r : DateRange) : Text :=
  (if r.hasStart then r.start.text else []) ++
    if r.hasStop then
      '-' :: r.stop.text ++ Period.text r.period
    else if r.plus then ['+'] else []

/-- The text of a list of ranges. -/
def textAll (ranges : List DateRange) : Text :=
  listed text ranges

/-- The numbers in the text of a range. -/
def numbers (r : DateRange) : List ℤ :=
  (if r.hasStart then r.start.numbers else []) ++
    if r.hasStop then r.stop.numbers ++ [r.period] else []

lemma text?_eq (r : DateRange) : r.text? = whenShort r.numbers r.text := by
  unfold text? text numbers
  have hstart : (if r.hasStart then r.start.text? else some []) =
      whenShort (if r.hasStart then r.start.numbers else [])
        (if r.hasStart then r.start.text else []) := by
    cases r.hasStart
    · rfl
    · exact r.start.text?_eq
  rw [hstart]
  refine whenShort_bind ?_
  cases r.hasStop with
  | true =>
    simp only [if_true, Date.text?_eq, Period.text?_eq]
    exact whenShort_bind (whenShort_bind_pure _ _ _)
  | false => rfl

lemma textAll?_eq (rs : List DateRange) :
    textAll? rs = whenShort (rs.flatMap numbers) (textAll rs) :=
  joinWith?_eq commaSpace text?_eq rs

end DateRange

/-! ### Rules -/

namespace Rule

/-- The words that say when a rule applies. -/
def spacedSelectors (r : Rule) : Spaced :=
  if r.always then Spaced.word {} ['2', '4', '/', '7']
  else if r.hasComment then Spaced.word {} (r.comment ++ [':'])
  else
    (((((Spaced.wordIf {} r.hasYears (YearRange.textAll r.years)).wordIf
      r.hasDates (DateRange.textAll r.dates)).wordIf
      r.hasWeeks (WeekRange.textAll r.weeks)).glueIf
      r.colon [':']).wordIf
      r.hasDays r.days.text).wordIf
      r.hasTimes (Timespan.textAll r.times)

/-- The words of a rule, with spaces between them. -/
def spaced (r : Rule) : Spaced :=
  (r.spacedSelectors.wordIf r.modifier.isPrinted r.modifier.text).wordIf
    r.hasModifierComment ('"' :: r.modifierComment ++ ['"'])

/-- The text of a rule. -/
def text (r : Rule) : Text :=
  r.spaced.text

/-- The text of a list of rules, each with its own separator. -/
def textAll (rules : List Rule) : Text :=
  joinBy separatorText text rules

/-- The numbers in the text of a rule. -/
def numbers (r : Rule) : List ℤ :=
  if r.always then [] else if r.hasComment then []
  else
    (if r.hasYears then r.years.flatMap YearRange.numbers else []) ++
      ((if r.hasDates then r.dates.flatMap DateRange.numbers else []) ++
        ((if r.hasWeeks then r.weeks.flatMap WeekRange.numbers else []) ++
          if r.hasDays then r.days.numbers else []))

lemma spacedSelectors?_eq (r : Rule) :
    r.spacedSelectors? = whenShort r.numbers r.spacedSelectors := by
  unfold spacedSelectors? spacedSelectors numbers
  cases r.always with
  | true => rfl
  | false =>
    cases r.hasComment with
    | true => rfl
    | false =>
      simp only [Bool.false_eq_true, if_false]
      rw [Spaced.wordIf?_eq _ _ (YearRange.textAll?_eq r.years)]
      refine whenShort_bind ?_
      rw [Spaced.wordIf?_eq _ _ (DateRange.textAll?_eq r.dates)]
      refine whenShort_bind ?_
      rw [Spaced.wordIf?_eq _ _ (WeekRange.textAll?_eq r.weeks)]
      refine whenShort_bind ?_
      rw [Spaced.wordIf?_eq _ _ r.days.text?_eq]
      exact whenShort_bind_pure _ _ _

/-- A rule has a text if the numbers in it are short. -/
theorem text?_eq (r : Rule) : r.text? = whenShort r.numbers r.text := by
  rw [text?, spaced?, spacedSelectors?_eq, Option.bind_eq_bind, whenShort_bind_pure, map_whenShort]
  rfl

/-- A list of rules has a text if the numbers in it are short. -/
theorem textAll?_eq (R : List Rule) : textAll? R = whenShort (R.flatMap numbers) (textAll R) :=
  joinBy?_eq separatorText text?_eq R

end Rule

end OpeningTimes
