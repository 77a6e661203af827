import OpeningTimes.Field.Terminal
import OpeningTimes.Grammar

/-!
The grammar of fields: what rules look like, and what they mean.

* `UnsupportedPattern`, `BuildError`: forms that the grammar allows and that mean nothing;
* `Nonterminal`: rules, and rules of which the first one does not begin with its times;
* the phrases from `time` over the selectors to `rule`;
* `fieldGrammar`: the grammar.

A comma joins the items of a selector, and it joins two rules only where the first one could not go on
after it and the second one does not begin with its times. So no field has two readings.
-/

namespace OpeningTimes

/-- The forms that a field may have and that no rule can hold. -/
inductive UnsupportedPattern where
  /-- Selectors after a comment that stands for the selectors. -/
  | commentSelectors
  /-- Weekdays right after holidays, which would be days in the holidays. -/
  | weekdayInHoliday
  /-- An occurrence counted from the end other than the last one. -/
  | countedFromEnd
  deriving DecidableEq

/-- The text of an error. -/
def UnsupportedPattern.message : UnsupportedPattern → String
  | commentSelectors => "<comment: small_range_selectors> pattern is not supported."
  | weekdayInHoliday =>
    "<holiday weekday> pattern (weekdays in holidays) is not supported."
  | countedFromEnd => "Only the last weekday of the month ([-1]) can be counted from the end."

/-- Why a text of the right form means nothing. -/
inductive BuildError where
  /-- No rule can hold what the form says. -/
  | unsupported (pattern : UnsupportedPattern)
  /-- A word names nothing. -/
  | unknownName (word : Text)
  /-- A number counts nothing. -/
  | unknownNumber (word : Text)
  /-- A number has too many digits to be read. -/
  | tooManyDigits
  /-- A length of time is out of range. -/
  | outOfRange
  /-- A text separates no rules. -/
  | notSeparator (word : Text)
  deriving DecidableEq

/-- The nonterminals of fields. -/
inductive Nonterminal where
  /-- Rules from some place to the end of the field. -/
  | rules
  /-- The same where the first rule does not begin with its times. -/
  | rulesNotTimed
  deriving DecidableEq

/-- A part of a field whose value has the given type. -/
abbrev Part := Phrase Terminal Nonterminal (List Rule) BuildError

namespace Part

/-- A value that may be missing, or else an error. -/
def orError {α : Type} (e : BuildError) : Option α → Except BuildError α
  | none => .error e
  | some a => .ok a

/-- A terminal of digits, whose value is the number, unless there are too many of them. -/
def number (t : Terminal) : Part Int :=
  .build (fun w => (orError .tooManyDigits (Text.number? w)).map Int.ofNat) (.terminal t)

/-- A comma and another item, any number of times. -/
abbrev listed {α : Type} (item : Part α) : Part (List α) :=
  .list .comma item

/-! ### Days -/

/-- A number with a sign. -/
def signed (sign : Text) (n : Int) : Int :=
  if sign == ['-'] then -n else n

/-- An offset of days. -/
def dayOffset : Part Int :=
  .map (fun (sign, n) => signed sign n)
    (.seq (.terminal .sign) (.before (number .number) .dayWord))

/-- A weekday. -/
def weekday : Part Weekday :=
  .build (fun w => orError (.unknownName w) (Weekday.ofName? w)) (.terminal .weekday)

/-- The occurrence of a weekday with a given number. -/
def nth : Part Nth :=
  .build (fun w => orError (.unknownNumber w) (Nth.ofNumber? (Text.number w))) (.terminal .nth)

/-- A range of occurrences. From the end only the last one can be counted. -/
def nthRange : Part NthRange :=
  .alt
    (.map (fun (n, m) => { start := some n, stop := m }) (.seq nth (.opt (.after .dash nth))))
    (.build
      (fun n =>
        if n == .first then .ok { start := some .last } else .error (.unsupported .countedFromEnd))
      (.after .dash nth))

/-- The occurrences of a weekday in brackets. -/
def nths : Part (List NthRange) :=
  .after .leftBracket (.before (listed nthRange) .rightBracket)

/-- A weekday, a range of weekdays, or some occurrences of a weekday. -/
def weekdayRange : Part WeekdayRange :=
  .alt
    (.map (fun (d, e) => { start := some d, stop := e })
      (.seq weekday (.opt (.after .dash weekday))))
    (.alt
      (.map (fun (d, ns, o) => { start := some d, nths := ns, offset := o.getD 0 })
        (.seq weekday (.seq nths (.opt dayOffset))))
      (.map (fun (d, o) => { start := some d, offset := o }) (.seq weekday dayOffset)))

/-- Weekdays. -/
def weekdays : Part (List WeekdayRange) :=
  listed weekdayRange

/-- Holidays of one kind. -/
def holiday : Part Holiday :=
  .map (fun (w, o) => { plural := w.map Text.fold == ['p', 'h'], offset := o.getD 0 })
    (.seq (.terminal .holiday) (.opt dayOffset))

/-- Holidays. -/
def holidays : Part (List Holiday) :=
  listed holiday

/-- Weekdays and holidays, which are separated by a comma. -/
def daySelector : Part DaySelector :=
  .alt
    (.map (fun (hs, ds) => { ranges := ds, holidays := hs })
      (.seq (.before holidays .comma) weekdays))
    (.alt
      (.map (fun (ds, hs) => { ranges := ds, holidays := hs })
        (.seq (.before weekdays .comma) holidays))
      (.alt
        (.map (fun hs => { holidays := hs }) holidays)
        (.alt
          (.map (fun ds => { ranges := ds }) weekdays)
          (.build (fun _ => .error (.unsupported .weekdayInHoliday)) (.seq holidays weekdays)))))

/-! ### Times -/

/-- A time on the clock. -/
def clock : Part Time :=
  .build (fun (h, m) => orError .outOfRange (Time.ofHoursMinutes? h m))
    (.seq (.before (number .hours) .colon) (number .minutes))

/-- An event. -/
def event : Part Event :=
  .build (fun w => orError (.unknownName w) (Event.ofName? w)) (.terminal .event)

/-- The time before or after an event by hours and minutes. -/
def eventOffset (e : Event) (sign : Text) (hours minutes : Int) : Except BuildError Time :=
  (orError .outOfRange (Duration.ofHoursMinutes? (signed sign hours) (signed sign minutes))).map
    fun d => Time.ofEvent e (some d)

/-- A moment of the day. -/
def time : Part Time :=
  .alt clock
    (.alt
      (.map (Time.ofEvent · none) event)
      (.build (fun (e, sign, h, m) => eventOffset e sign h m)
        (.after .leftParenthesis
          (.seq event
            (.seq (.terminal .sign)
              (.seq (.before (number .hours) .colon)
                (.before (number .minutes) .rightParenthesis)))))))

/-- The time after which something happens again: hours and minutes, or a number of minutes. -/
def period : Part Time :=
  .alt clock (.build (fun n => orError .outOfRange (Time.ofMinutes? n)) (number .number))

/-- A span of time. -/
def timespan : Part Timespan :=
  .alt
    (.map (fun t => { start := t }) time)
    (.alt
      (.map (fun t => { start := t, plus := true }) (.before time .plus))
      (.alt
        (.map (fun (t, u) => { start := t, stop := u }) (.seq time (.after .dash time)))
        (.alt
          (.map (fun (t, u) => { start := t, stop := u, plus := true })
            (.seq time (.after .dash (.before time .plus))))
          (.map (fun (t, u, p) => { start := t, stop := u, period := p })
            (.seq time (.after .dash (.seq time (.after .slash period))))))))

/-- Spans of time. -/
def times : Part (List Timespan) :=
  listed timespan

/-! ### Years, dates and weeks -/

/-- The period of a range of numbers, or none. -/
def stepOf (period : Option Int) : Int :=
  period.getD 0

/-- The period of a range of numbers. -/
def step : Part Int :=
  .after .slash (number .number)

/-- A range of years. -/
def yearRange : Part YearRange :=
  .alt
    (.map
      (fun (y, rest) =>
        match rest with
        | none => { start := y }
        | some (z, p) => { start := y, stop := z, period := stepOf p })
      (.seq (number .year) (.opt (.seq (.after .dash (number .year)) (.opt step)))))
    (.map (fun y => { start := y, plus := true }) (.before (number .year) .plus))

/-- A range of years at the beginning of a rule. A single year before a month belongs to the date. -/
def firstYearRange : Part YearRange :=
  .alt
    (.map (fun (y, z, p) => { start := y, stop := z, period := stepOf p })
      (.seq (number .year) (.seq (.after .dash (number .year)) (.opt step))))
    (.alt
      (.map (fun y => { start := y }) (number .loneYear))
      (.map (fun y => { start := y, plus := true }) (.before (number .year) .plus)))

/-- The years of a rule. -/
def years : Part (List YearRange) :=
  .map (fun (y, ys) => y :: ys) (.seq firstYearRange (.many .comma yearRange))

/-- The shift of a date. -/
def dateOffset : Part DateOffset :=
  .alt
    (.map (fun (sign, d, o) =>
        { weekday := some d, positive := sign == ['+'], days := o.getD 0 })
      (.seq (.terminal .sign) (.seq weekday (.opt dayOffset))))
    (.map (fun o => { days := o }) dayOffset)

/-- A month. -/
def month : Part Month :=
  .build (fun w => orError (.unknownName w) (Month.ofName? w)) (.terminal .month)

/-- A date. -/
def date : Part Date :=
  .alt
    (.map (fun (y, m, d, o) =>
        { year := y.getD 0, month := some m, day := d.getD 0, offset := o.getD {} })
      (.seq (.opt (number .year))
        (.seq month (.seq (.opt (number .dayNumber)) (.opt dateOffset)))))
    (.map (fun (y, _, o) => { year := y.getD 0, movable := some .easter, offset := o.getD {} })
      (.seq (.opt (number .year)) (.seq (.terminal .easter) (.opt dateOffset))))

/-- A range of dates. It may end with a day of the month alone. -/
def dateRange : Part DateRange :=
  .alt
    (.map (fun (d, e, p) => { start := d, stop := e, period := stepOf p })
      (.seq date (.seq (.after .dash date) (.opt step))))
    (.alt
      (.map (fun (d, n, p) => { start := d, stop := { day := n }, period := stepOf p })
        (.seq date (.seq (.after .dash (number .dayNumber)) (.opt step))))
      (.alt
        (.map (fun d => { start := d, plus := true }) (.before date .openEnd))
        (.map (fun d => { start := d }) date)))

/-- The dates of a rule. -/
def dates : Part (List DateRange) :=
  listed dateRange

/-- A range of weeks. -/
def weekRange : Part WeekRange :=
  .map
    (fun (w, rest) =>
      match rest with
      | none => { start := w }
      | some (v, p) => { start := w, stop := v, period := stepOf p })
    (.seq (number .weekNumber) (.opt (.seq (.after .dash (number .weekNumber)) (.opt step))))

/-- The weeks of a rule. -/
def weeks : Part (List WeekRange) :=
  .after .weekWord (listed weekRange)

/-! ### Rules -/

/-- Years, dates and weeks, of which at least one has to be there. -/
def calendarSelectors : Part Rule :=
  .alt
    (.map (fun (ys, ds, ws) => { years := ys, dates := ds.getD [], weeks := ws.getD [] })
      (.seq years (.seq (.opt dates) (.opt weeks))))
    (.alt
      (.map (fun (ds, ws) => { dates := ds, weeks := ws.getD [] }) (.seq dates (.opt weeks)))
      (.map (fun ws => { weeks := ws }) weeks))

/-- Weekdays and holidays, and times. -/
structure DayTimes where
  /-- The weekdays and holidays. -/
  days : DaySelector := {}
  /-- The times. -/
  times : List Timespan := []

/-- A rule with weekdays and times. -/
def withDayTimes (r : Rule) (s : DayTimes) : Rule :=
  { r with days := s.days, times := s.times }

/-- Weekdays or times or both. -/
def daysOrTimes : Part DayTimes :=
  .alt
    (.map (fun (ds, ts) => { days := ds, times := ts.getD [] }) (.seq daySelector (.opt times)))
    (.map (fun ts => { times := ts }) times)

/-- Times, possibly after weekdays. -/
def timesAfterDays : Part DayTimes :=
  .map (fun (ds, ts) => { days := ds.getD {}, times := ts }) (.seq (.opt daySelector) times)

/-- Weekdays and times. -/
def daysAndTimes : Part DayTimes :=
  .map (fun (ds, ts) => { days := ds, times := ts }) (.seq daySelector times)

/-- Weekdays alone. -/
def daysOnly : Part DayTimes :=
  .map (fun ds => { days := ds }) daySelector

/-- Times alone. -/
def timesOnly : Part DayTimes :=
  .map (fun ts => { times := ts }) times

/-- Selectors that end with times and do not begin with them. -/
def selectorsWithTimes : Part Rule :=
  .alt
    (.map (fun (r, s) => withDayTimes { r with colon := true } s)
      (.seq (.before calendarSelectors .colon) timesAfterDays))
    (.alt
      (.map (fun (r, s) => withDayTimes r s) (.seq calendarSelectors timesAfterDays))
      (.map (withDayTimes {}) daysAndTimes))

/-- Selectors without times, or a comment that stands for the selectors. -/
def selectorsWithoutTimes : Part Rule :=
  .alt
    (.build
      (fun (c, s) =>
        match s with
        | none => .ok { comment := c }
        | some _ => .error (.unsupported .commentSelectors))
      (.seq (.before (.terminal .comment) .colon) (.opt daysOrTimes)))
    (.alt
      (.map (fun (r, s) => withDayTimes { r with colon := true } (s.getD {}))
        (.seq (.before calendarSelectors .colon) (.opt daysOnly)))
      (.alt
        (.map (fun (r, s) => withDayTimes r (s.getD {})) (.seq calendarSelectors (.opt daysOnly)))
        (.map (withDayTimes {}) daysOnly)))

/-- The text between the quotes of a comment. -/
def unquoted (comment : Text) : Text :=
  comment.tail.dropLast

/-- A word for a state, and possibly a comment. -/
def modifierWord (t : Terminal) (m : Modifier) : Part (Modifier × Text) :=
  .map (fun (_, c) => (m, (c.map unquoted).getD []))
    (.seq (.terminal t) (.opt (.terminal .comment)))

/-- A state, or a comment that stands for one. -/
def modifier : Part (Modifier × Text) :=
  .alt (modifierWord .openWord .opened)
    (.alt (modifierWord .closedWord .closed)
      (.alt (modifierWord .unknownWord .unknown)
        (.map (fun c => (.comment, unquoted c)) (.terminal .comment))))

/-- A rule with a state and its comment. -/
def withModifier (r : Rule) (m : Modifier × Text) : Rule :=
  { r with modifier := m.1, modifierComment := m.2 }

/-- A rule with a state and its comment, if there is one. -/
def withModifier? (r : Rule) (m : Option (Modifier × Text)) : Rule :=
  (m.map (withModifier r)).getD r

/-- The rule that always applies. -/
def always : Part Rule :=
  .map (fun _ => { always := true }) (.terminal .always)

/-- A rule that does not begin with its times, and could not go on after a comma. -/
def terminatedRule : Part Rule :=
  .alt (.map (fun (r, m) => withModifier? r m) (.seq selectorsWithTimes (.opt modifier)))
    (.alt (.map (fun (r, m) => withModifier r m) (.seq selectorsWithoutTimes modifier))
      (.alt (.map (fun (r, m) => withModifier? r m) (.seq always (.opt modifier)))
        (.map (withModifier {}) modifier)))

/-- A rule that begins with its times. -/
def timesFirstRule : Part Rule :=
  .map (fun (s, m) => withModifier? (withDayTimes {} s) m) (.seq timesOnly (.opt modifier))

/-- A rule that could go on after a comma. -/
def openEndedRule : Part Rule :=
  selectorsWithoutTimes

/-- A rule. -/
def rule : Part Rule :=
  .alt terminatedRule (.alt timesFirstRule openEndedRule)

/-- A rule that could not go on after a comma. -/
def closedRule : Part Rule :=
  .alt terminatedRule timesFirstRule

/-- A rule that does not begin with its times. -/
def ruleNotTimed : Part Rule :=
  .alt terminatedRule openEndedRule

/-- A rule, what separates it from the next one, and the rules after that. -/
def joined (r : Rule) (separator : Text) (rules : List Rule) : Except BuildError (List Rule) :=
  match r.withSeparator separator with
  | .error _ => .error (.notSeparator separator)
  | .ok first => .ok (first :: rules)

/-- A rule and the rules after a separator. -/
def chain (first : Part Rule) (separator : Terminal) (next : Nonterminal) : Part (List Rule) :=
  .build (fun (r, separator, rules) => joined r separator rules)
    (.seq first (.seq (.terminal separator) (.call next)))

/-- Rules to the end of the field. -/
def rules : Part (List Rule) :=
  .alt (.map (fun r => [r]) rule)
    (.alt (chain rule .ruleSeparator .rules) (chain closedRule .comma .rulesNotTimed))

/-- Rules to the end of the field, where the first one does not begin with its times. -/
def rulesNotTimed : Part (List Rule) :=
  .alt (.map (fun r => [r]) ruleNotTimed)
    (.alt (chain ruleNotTimed .ruleSeparator .rules) (chain terminatedRule .comma .rulesNotTimed))

end Part

/-- The grammar of fields. -/
def fieldGrammar : Grammar Terminal Nonterminal (List Rule) BuildError where
  scan := Terminal.scan
  rule
    | .rules => Part.rules
    | .rulesNotTimed => Part.rulesNotTimed
  scan_shorter := Terminal.scan_shorter

end OpeningTimes
