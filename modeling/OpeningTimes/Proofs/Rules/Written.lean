import OpeningTimes.Proofs.Rules.Regular

/-!
What the text of a rule says.

A rule can hold more than its text shows. A period without an end, an end that is zero and the shift of
public holidays are not written, and a single year before a month is read as the year of the date. The
text of a rule is the text of another rule, in which nothing is left out.

* `Rule.written`: a rule as its text says it;
* `Rule.textAll_map_written`: it has the same text;
* `Rule.Legible`: the rules whose numbers and states can be read where they are written;
* `Rule.Chained.canonicalAll`: what the text of legible rules says can be held by a field.
-/

namespace OpeningTimes

open Text

/-! ### What a text says -/

/-- A range of years as its text says it. -/
def YearRange.written (r : YearRange) : YearRange :=
  if r.hasStop then r else { start := r.start, plus := r.plus }

/-- A range of weeks as its text says it. -/
def WeekRange.written (r : WeekRange) : WeekRange :=
  if r.hasStop then r else { start := r.start }

/-- A range of dates as its text says it. -/
def DateRange.written (r : DateRange) : DateRange :=
  if r.hasStop then r else { start := r.start, plus := r.plus }

/-- Holidays as their text says them. -/
def Holiday.written (h : Holiday) : Holiday :=
  if h.plural then { plural := true } else h

/-- Weekdays and holidays as their text says them. -/
def DaySelector.written (s : DaySelector) : DaySelector :=
  { s with holidays := s.holidays.map .written }

/-- A range of dates in a given year. -/
def DateRange.inYear (r : DateRange) (year : Int) : DateRange :=
  { r with start := { r.start with year := year } }

namespace Rule

/-- Years and dates, where a single year belongs to the date after it. -/
def dated : List YearRange → List DateRange → List YearRange × List DateRange
  | [y], d :: ds =>
    if y = { start := y.start } ∧ d.start.year = 0 then ([], d.inYear y.start :: ds) else ([y], d :: ds)
  | ys, ds => (ys, ds)

/-- A rule as its text says it. -/
def written (x : Rule) : Rule :=
  { x with
    years := (dated (x.years.map .written) (x.dates.map .written)).1
    dates := (dated (x.years.map .written) (x.dates.map .written)).2
    weeks := x.weeks.map .written
    days := x.days.written }

/-- The rules whose numbers and states can be read where they are written: years have four digits, there
is a week where weeks are written, there are less than a hundred hours, and a comment that stands for a
state says something. -/
structure Legible (x : Rule) : Prop where
  years : ∀ y ∈ x.years, IsYear y.start ∧ (y.stop = 0 ∨ IsYear y.stop)
  dates : ∀ d ∈ x.dates,
    (d.start.year = 0 ∨ IsYear d.start.year) ∧ (d.stop.year = 0 ∨ IsYear d.stop.year)
  weeks : ∀ w ∈ x.weeks, w.start ≠ 0 ∨ w.stop ≠ 0
  times : ∀ t ∈ x.times, ∀ u ∈ [t.start, t.stop, t.period], u.totalMinutes.natAbs < 6000
  state : x.modifier = .comment → x.modifierComment ≠ []

end Rule

/-! ### It is the same text -/

lemma YearRange.text_written (r : YearRange) : r.written.text = r.text := by
  by_cases h : r.stop = 0 <;> simp [written, text, isEmpty, hasStart, hasStop, h]

lemma WeekRange.text_written (r : WeekRange) : r.written.text = r.text := by
  by_cases h : r.stop = 0 <;> simp [written, text, isEmpty, hasStart, hasStop, h]

lemma DateRange.text_written (r : DateRange) : r.written.text = r.text := by
  have hnone : Date.isEmpty {} = true := rfl
  by_cases h : r.stop.isEmpty = true <;> simp [written, text, hasStart, hasStop, h, hnone]

lemma DateRange.start_written (r : DateRange) : r.written.start = r.start := by
  unfold written
  split <;> rfl

lemma Holiday.text_written (h : Holiday) : h.written.text = h.text := by
  by_cases hp : h.plural = true <;> simp [written, text, hp]

lemma Text.listed_map {α : Type} {text : α → Text} {f : α → α} (h : ∀ a, text (f a) = text a)
    (l : List α) : listed text (l.map f) = listed text l := by
  simp [joinWith, List.map_map, Function.comp_def, h]

lemma DaySelector.text_written (s : DaySelector) : s.written.text = s.text := by
  simp [written, text, hasWeekdays, hasHolidays, Holiday.textAll, listed_map Holiday.text_written]

lemma DaySelector.isEmpty_written (s : DaySelector) : s.written.isEmpty = s.isEmpty := by
  simp [written, isEmpty]

/-- A date that is read begins with its year, if it has one. -/
lemma Date.Regular.text_inYear {d : Date} (h : d.Regular) (hy : d.year = 0) {y : ℤ} (hne : y ≠ 0) :
    Date.text { d with year := y } = numeral y ++ ' ' :: d.text := by
  cases h with
  | day _ m _ _ =>
    obtain rfl : _ = (0 : ℤ) := hy
    rw [Date.text_day, Date.text_day]
    simp [Date.yearText, hne]
  | movable _ e _ =>
    obtain rfl : _ = (0 : ℤ) := hy
    rw [Date.text_movable, Date.text_movable]
    simp [Date.yearText, hne]

namespace Rule

variable {x : Rule} {ys : List YearRange} {ds : List DateRange}

/-- A single year before a date without a year belongs to that date. Otherwise years and dates stay as
they are. -/
lemma dated_cases (ys : List YearRange) (ds : List DateRange) :
    (∃ y d ds', ys = [{ start := y }] ∧ ds = d :: ds' ∧ d.start.year = 0 ∧
        dated ys ds = ([], d.inYear y :: ds')) ∨
      dated ys ds = (ys, ds) ∧ ∀ y, ys = [y] → y.IsLone → ∀ d ∈ ds.head?, d.start.year ≠ 0 := by
  unfold dated
  split
  · next y d ds =>
    split
    · next h => exact Or.inl ⟨y.start, d, ds, by rw [← h.1], rfl, h.2, rfl⟩
    · next h =>
      refine Or.inr ⟨rfl, ?_⟩
      rintro y' hy' hlone d' hd' hyear
      obtain rfl : y = y' := (List.cons.inj hy').1
      obtain rfl : d = d' := Option.some.inj hd'
      exact h ⟨hlone, hyear⟩
  · next h =>
    refine Or.inr ⟨rfl, ?_⟩
    rintro y rfl hlone d hd
    cases ds with
    | nil => cases hd
    | cons d' ds => exact absurd rfl (h y d' ds rfl)

lemma daysText_written (asked : Bool) : x.written.daysText asked = x.daysText asked := by
  simp [daysText, timesText, stateText, written, hasDays, hasTimes, hasModifierComment,
    DaySelector.text_written, DaySelector.isEmpty_written]

lemma weeksText_written (asked : Bool) : x.written.weeksText asked = x.weeksText asked := by
  have hw : WeekRange.textAll x.written.weeks = WeekRange.textAll x.weeks := by
    rw [WeekRange.textAll, WeekRange.textAll, written, listed_map WeekRange.text_written]
  have hhas : x.written.hasWeeks = x.hasWeeks := by simp [hasWeeks, written]
  rw [weeksText, weeksText, colonText, colonText, daysText_written, hhas, hw]
  rfl

/-- A range of dates that is read begins with the year of its first date. -/
lemma text_inYear {d : DateRange} (hd : d.start.Regular) (hyear : d.start.year = 0) {y : ℤ}
    (hy : y ≠ 0) : (d.inYear y).text = numeral y ++ ' ' :: d.text := by
  have hstart : (d.inYear y).hasStart = true := by
    simp [DateRange.hasStart, DateRange.inYear, Date.isEmpty, Date.hasYear, hy]
  have hstart' : d.hasStart = true := by simp [DateRange.hasStart, hd.isEmpty]
  have htext : (d.inYear y).start.text = numeral y ++ ' ' :: d.start.text :=
    hd.text_inYear hyear hy
  rw [DateRange.text, DateRange.text, if_pos hstart, if_pos hstart', htext, List.append_assoc]
  rfl

/-- The text of a rule says all that is in the text. -/
lemma text_written (hx : x.Regular) (hl : x.Legible) : x.written.text = x.text := by
  by_cases ha : x.always = true
  · rw [text_of_always ha, text_of_always (x := x.written) ha]
    rfl
  have ha : x.always = false := Bool.eq_false_iff.mpr ha
  by_cases hc : x.hasComment = true
  · rw [text_of_comment ha hc, text_of_comment (x := x.written) ha hc]
    rfl
  have hc : x.hasComment = false := Bool.eq_false_iff.mpr hc
  rw [text_of_selectors ha hc, text_of_selectors (x := x.written) ha hc, yearsText, yearsText,
    datesText, datesText, weeksText_written]
  have hyears : YearRange.textAll x.years = YearRange.textAll (x.years.map .written) :=
    (listed_map YearRange.text_written _).symm
  have hdates : DateRange.textAll x.dates = DateRange.textAll (x.dates.map .written) :=
    (listed_map DateRange.text_written _).symm
  have hasYears_eq : x.hasYears = !(x.years.map YearRange.written).isEmpty := by simp [hasYears]
  have hasDates_eq : x.hasDates = !(x.dates.map DateRange.written).isEmpty := by simp [hasDates]
  -- a single year is written in front of the first date, where it is the year of that date
  rcases dated_cases (x.years.map .written) (x.dates.map .written) with
    ⟨y, d, ds, hys, hds, hyear, hdated⟩ | ⟨hdated, -⟩
  · obtain ⟨y', hy', rfl⟩ : ∃ y' ∈ x.years, y'.start = y := by
      obtain ⟨y', hx', hw⟩ := List.map_eq_singleton_iff.mp hys
      exact ⟨y', by simp [hx'], by simpa [YearRange.written, apply_ite] using congrArg YearRange.start hw⟩
    obtain ⟨d', hd', hw⟩ : ∃ d' ∈ x.dates, d'.written = d := by
      have : d ∈ x.dates.map .written := by simp [hds]
      exact List.mem_map.mp this
    have hd : d.start.Regular := by
      rw [← hw, DateRange.start_written]
      exact (hx.dates d' hd').start
    have hne : y'.start ≠ 0 := (hl.years y' hy').1.ne_zero
    have hyearText : YearRange.text { start := y'.start } = numeral y'.start := by
      simp [YearRange.text, YearRange.isEmpty, YearRange.hasStart, YearRange.hasStop, hne]
    rw [hyears, hdates, hasYears_eq, hasDates_eq, hys, hds]
    simp [written, hdated, hasYears, hasDates, piece, YearRange.textAll, DateRange.textAll,
      Part.joinWith_cons, Part.tailText, hyearText, text_inYear hd hyear hne]
  · rw [hyears, hdates, hasYears_eq, hasDates_eq]
    simp [written, hdated, hasYears, hasDates]

/-- So does the text of a list of rules. -/
theorem textAll_map_written {R : List Rule} (hx : ∀ x ∈ R, x.Regular) (hl : ∀ x ∈ R, x.Legible) :
    textAll (R.map written) = textAll R := by
  induction R with
  | nil => rfl
  | cons x R ih =>
    rw [List.forall_mem_cons] at hx hl
    have hR := ih hx.2 hl.2
    cases R with
    | nil => exact text_written hx.1 hl.1
    | cons y R =>
      rw [List.map_cons] at hR
      rw [List.map_cons, List.map_cons, textAll_cons_cons, textAll_cons_cons, text_written hx.1 hl.1,
        hR]
      rfl

end Rule

/-! ### A field can hold what a text says -/

lemma YearRange.Regular.canonical {r : YearRange} (h : r.Regular) (hstart : IsYear r.start)
    (hstop : r.stop = 0 ∨ IsYear r.stop) : r.written.Canonical := by
  cases h with
  | single _ plus => exact .single hstart plus
  | @range y z p _ _ hp =>
    rcases hstop with hz | hz
    · obtain rfl : z = 0 := hz
      exact .single hstart false
    · rw [YearRange.written, if_pos (by simpa [hasStop] using hz.ne_zero)]
      exact .range hstart hz hp

lemma WeekRange.Regular.canonical {r : WeekRange} (h : r.Regular)
    (hne : r.start ≠ 0 ∨ r.stop ≠ 0) : r.written.Canonical := by
  cases h with
  | single hw => exact .single hw (hne.resolve_right (by simp))
  | @range w v p hw hv hp =>
    by_cases hzero : v = 0
    · subst hzero
      exact .single hw (hne.resolve_right (by simp))
    · rw [WeekRange.written, if_pos (by simpa [hasStop] using hzero)]
      exact .range hw hv hzero hp

lemma Date.Regular.canonical {d : Date} (h : d.Regular) (hyear : d.year = 0 ∨ IsYear d.year) :
    d.Canonical := by
  cases h with
  | day _ m hd ho => exact .day hyear m hd ho
  | movable _ e ho => exact .movable hyear e ho

lemma DateRange.Regular.canonical {r : DateRange} (h : r.Regular)
    (hstart : r.start.year = 0 ∨ IsYear r.start.year) (hstop : r.stop.year = 0 ∨ IsYear r.stop.year) :
    r.written.Canonical := by
  cases h with
  | single hd plus => exact .single (hd.canonical hstart) plus
  | toDate hd he hp =>
    rw [DateRange.written, if_pos (by simp [hasStop, he.isEmpty])]
    exact .toDate (hd.canonical hstart) (he.canonical hstop) hp
  | @toDay d n p hd hn hp =>
    by_cases hzero : n = 0
    · subst hzero
      exact .single (hd.canonical hstart) false
    · rw [DateRange.written, if_pos (by simp [hasStop, Date.isEmpty, Date.hasDay, hzero])]
      exact .toDay (hd.canonical hstart) hn hzero hp

lemma DateRange.Canonical.inYear {r : DateRange} (h : r.Canonical) {y : ℤ} (hy : IsYear y) :
    (r.inYear y).Canonical := by
  have hdate : ∀ {d : Date}, d.Canonical → Date.Canonical { d with year := y } := by
    intro d hd
    cases hd with
    | day _ m hd ho => exact .day (Or.inr hy) m hd ho
    | movable _ e ho => exact .movable (Or.inr hy) e ho
  cases h with
  | single hd plus => exact .single (hdate hd) plus
  | toDate hd he hp => exact .toDate (hdate hd) he hp
  | toDay hd hn hne hp => exact .toDay (hdate hd) hn hne hp

lemma Holiday.canonical_written {h : Holiday} (ho : isShort h.offset = true) :
    h.written.Canonical := by
  by_cases hplural : h.plural = true
  · rw [written, if_pos hplural]
    exact ⟨fun _ => rfl, isShort_zero⟩
  · rw [written, if_neg hplural]
    exact ⟨fun h => absurd h hplural, ho⟩

lemma Time.Regular.canonical {t : Time} (h : t.Regular) (hn : t.totalMinutes.natAbs < 6000) :
    t.Canonical := by
  cases h with
  | clock _ hd =>
    rw [Time.totalMinutes, Time.ofDuration, Duration.totalMinutes_eq hd] at hn
    exact .clock hn hd
  | event e => exact .event e
  | offset e _ hd =>
    rw [show (Time.ofEvent e (some _)).totalMinutes = _ from Duration.totalMinutes_eq hd] at hn
    exact .offset e hn hd

lemma Time.RegularPeriod.canonical {t : Time} (h : t.RegularPeriod)
    (hn : t.totalMinutes.natAbs < 6000) : t.CanonicalPeriod := by
  cases h with
  | clock hd =>
    rw [Time.totalMinutes, Time.ofDuration, Duration.totalMinutes_eq hd] at hn
    exact .clock hn hd
  | minutes hle hd => exact .minutes hle hd

lemma Timespan.Regular.canonical {s : Timespan} (h : s.Regular)
    (hn : ∀ t ∈ [s.start, s.stop, s.period], t.totalMinutes.natAbs < 6000) : s.Canonical := by
  cases h with
  | point ht plus => exact .point (ht.canonical (hn _ (by simp))) plus
  | range ht hu plus => exact .range (ht.canonical (hn _ (by simp))) (hu.canonical (hn _ (by simp))) plus
  | periodic ht hu hp =>
    exact .periodic (ht.canonical (hn _ (by simp))) (hu.canonical (hn _ (by simp)))
      (hp.canonical (hn _ (by simp)))

namespace Rule

variable {x : Rule} {R : List Rule}

lemma hasCalendar_written (x : Rule) : x.written.hasCalendar = x.hasCalendar := by
  rcases dated_cases (x.years.map .written) (x.dates.map .written) with
    ⟨y, d, ds, -, hds, -, hdated⟩ | ⟨hdated, -⟩
  · have hne : x.dates ≠ [] := by
      intro h
      simp [h] at hds
    simp [hasCalendar, written, hdated, hasYears, hasDates, hne]
  · simp [hasCalendar, written, hdated, hasYears, hasDates, hasWeeks]

lemma isEmpty_written (x : Rule) : x.written.isEmpty = x.isEmpty := by
  have hcalendar : ∀ y : Rule, y.isEmpty = (!y.hasCalendar && !y.hasDays && !y.hasTimes) := by
    intro y
    simp [isEmpty, hasCalendar, Bool.and_assoc]
  rw [hcalendar, hcalendar, hasCalendar_written]
  simp [written, hasDays, hasTimes, DaySelector.isEmpty_written]

lemma beginsWithTimes_written (x : Rule) : x.written.beginsWithTimes = x.beginsWithTimes := by
  rw [beginsWithTimes, beginsWithTimes, hasCalendar_written]
  simp [written, hasComment, hasDays, hasTimes, DaySelector.isEmpty_written]

/-- A rule without selectors has none in its text. -/
lemma written_of_isEmpty (h : x.isEmpty = true) :
    x.written = { x with years := [], dates := [], weeks := [], days := {}, times := [] } := by
  simp only [isEmpty, hasYears, hasDates, hasWeeks, hasTimes, Bool.and_eq_true, Bool.not_eq_true',
    Part.not_isEmpty_eq_false_iff, Part.hasDays_eq_false_iff] at h
  obtain ⟨⟨⟨⟨hy, hd⟩, hw⟩, hdays⟩, ht⟩ := h
  simp [written, hy, hd, hw, hdays, ht, dated, DaySelector.written]

/-- A state that is read is one that a field can hold, if it is legible. -/
lemma Regular.canonicalState (hx : x.Regular) (hl : x.Legible) :
    CanonicalState x.modifier x.modifierComment :=
  ⟨hx.quotes, hx.noComment, hl.state⟩

/-- What is written keeps the open end of the last dates, and what comes before the weekdays after it. -/
lemma Regular.plus_written (hx : x.Regular) : ∀ d ∈ (x.dates.map DateRange.written).getLast?,
    d.plus = true → x.weeks.map WeekRange.written = [] → x.colon = false →
      x.days.written.ranges ≠ [] → x.days.written.holidays ≠ [] := by
  intro d hd hplus hw hc hr
  rw [List.getLast?_map] at hd
  obtain ⟨d', hd', rfl⟩ := Option.map_eq_some_iff.mp hd
  have hplus' : d'.plus = true := by
    unfold DateRange.written at hplus
    split at hplus <;> exact hplus
  have := hx.plus d' hd' hplus' (by simpa using hw) hc hr
  simpa [DaySelector.written] using this

lemma Regular.canonicalSelectors (hx : x.Regular) (hl : x.Legible) : x.written.CanonicalSelectors := by
  have hyears : ∀ y ∈ x.years.map YearRange.written, y.Canonical := by
    simp only [List.mem_map, forall_exists_index, and_imp, forall_apply_eq_imp_iff₂]
    exact fun y hy => (hx.years y hy).canonical (hl.years y hy).1 (hl.years y hy).2
  have hdates : ∀ d ∈ x.dates.map DateRange.written, d.Canonical := by
    simp only [List.mem_map, forall_exists_index, and_imp, forall_apply_eq_imp_iff₂]
    exact fun d hd => (hx.dates d hd).canonical (hl.dates d hd).1 (hl.dates d hd).2
  have hweeks : ∀ w ∈ x.weeks.map WeekRange.written, w.Canonical := by
    simp only [List.mem_map, forall_exists_index, and_imp, forall_apply_eq_imp_iff₂]
    exact fun w hw => (hx.weeks w hw).canonical (hl.weeks w hw)
  have hholidays : ∀ h ∈ x.days.written.holidays, h.Canonical := by
    simp only [DaySelector.written, List.mem_map, forall_exists_index, and_imp,
      forall_apply_eq_imp_iff₂]
    exact fun h hh => Holiday.canonical_written (hx.holidays h hh)
  have htimes : ∀ t ∈ x.times, t.Canonical := fun t ht => (hx.times t ht).canonical (hl.times t ht)
  have hplus := hx.plus_written
  rcases dated_cases (x.years.map .written) (x.dates.map .written) with
    ⟨y, d, ds, hys, hds, -, hdated⟩ | ⟨hdated, hlone⟩
  · -- a single year becomes the year of the first date
    rw [hds] at hdates hplus
    rw [List.forall_mem_cons] at hdates
    have hy : IsYear y := by
      have : YearRange.Canonical { start := y } := hyears _ (by simp [hys])
      cases this <;> assumption
    refine ⟨by simp [written, hdated], ?_, hweeks, ⟨hx.days, hholidays⟩, htimes,
      by simp [written, hdated], ?_⟩
    · simp only [written, hdated]
      exact List.forall_mem_cons.mpr ⟨hdates.1.inYear hy, hdates.2⟩
    · simp only [written, hdated]
      cases ds with
      | nil =>
        rintro _ ⟨⟩
        exact hplus d rfl
      | cons e ds =>
        rw [List.getLast?_cons_cons] at hplus ⊢
        exact hplus
  · refine ⟨?_, ?_, hweeks, ⟨hx.days, hholidays⟩, htimes, ?_, ?_⟩
    all_goals simp only [written, hdated]
    · exact hyears
    · exact hdates
    · exact hlone
    · exact hplus

/-- What the text of a legible rule says can be held by a field. -/
theorem Regular.canonical (hx : x.Regular) (hl : x.Legible) : x.written.Canonical := by
  have hs := hx.canonicalState hl
  by_cases ha : x.always = true
  · obtain ⟨hempty, hc, hcolon⟩ := hx.always ha
    rw [written_of_isEmpty hempty, ha, hc, hcolon]
    exact .always hs _
  by_cases hc : x.comment = []
  · refine .selectors (Bool.eq_false_iff.mpr ha) hc (hx.canonicalSelectors hl) hs ?_ ?_
    · rw [hasCalendar_written]
      exact hx.colon
    · rw [isEmpty_written]
      exact fun hempty => hx.state hempty (Bool.eq_false_iff.mpr ha) hc
  · obtain ⟨⟨c, hq, hcomment⟩, hempty, hcolon⟩ := hx.comment hc
    rw [written_of_isEmpty hempty, Bool.eq_false_iff.mpr ha, hcomment, hcolon]
    exact .comment hq hs _

/-- What the text of legible rules says can be held by a field. -/
theorem Chained.canonicalAll (h : Chained Regular R) (hl : ∀ x ∈ R, x.Legible) :
    CanonicalAll (R.map written) := by
  induction h with
  | single hx hs => exact .single (hx.canonical (hl _ (by simp))) hs
  | cons hx hs hR ih =>
    rw [List.forall_mem_cons] at hl
    exact .cons (hx.canonical hl.1) hs (ih hl.2)
  | comma hx hs hclosed hy hR ih =>
    rw [List.forall_mem_cons] at hl
    exact .comma (hx.canonical hl.1) hs hclosed ((beginsWithTimes_written _).trans hy) (ih hl.2)

end Rule

end OpeningTimes
