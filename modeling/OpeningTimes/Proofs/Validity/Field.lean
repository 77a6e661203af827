import OpeningTimes.Proofs.Rules.Numbers
import OpeningTimes.Proofs.Rules.Placed
import OpeningTimes.Proofs.Validity.Check

/-!
What the checks find in a field that is read.

The grammar puts parts together rightly: a span has a beginning, a range of weekdays has no occurrences, and
a period comes after an end. So a fault of a part that is read is one of what it says: of the numbers on a
clock, of the order of occurrences, of the days of a month. Only a zero is read as nothing, which leaves a
repetition without its end.

* `Time.IsEventOrUpTo`, `Date.IsBeyondMonth`: what a moment may say, and what a date may not;
* `Timespan.Sound`, `WeekdayRange.Sound`, `DateRange.Unsound`: the same of spans and ranges;
* `Timespan.Regular.check_eq_ok_iff`, `WeekdayRange.Canonical.check_eq_ok_iff`,
  `DateRange.Regular.check_ne_ok_iff`: the checks find that and nothing else;
* `Part.unsound_iff`: a range of dates is unsound for what is written;
* `DateRange.Regular.isSome_message?_of_check`: a fault of its days can be said, since they are short;
* `Field.check_of_read`: so do the checks of the parts of a field.
-/

namespace OpeningTimes

open Grammar

variable {f : Fault}

/-! ### Times -/

/-- An event, with an offset or without one, or a time on the clock up to a number of hours. -/
def Time.IsEventOrUpTo (hours : ℤ) (t : Time) : Prop :=
  t.isEvent = true ∨ t.duration.micros ≤ hours * 60 * Duration.microsPerMinute

/-- A span whose moments are in the day or the one after it, and whose period is a length of time. -/
def Timespan.Sound (s : Timespan) : Prop :=
  s.start.IsEventOrUpTo 48 ∧ (s.stop.isSet = true → s.stop.IsEventOrUpTo 48) ∧
    (s.period.isSet = true → 0 < s.period.duration.micros)

namespace Time

variable {t : Time} {name : Text}

@[simp]
lemma isSet_default : isSet {} = false :=
  rfl

lemma Regular.isSet (ht : t.Regular) : t.isSet = true := by
  cases ht <;> rfl

lemma RegularPeriod.isSet (ht : t.RegularPeriod) : t.isSet = true := by
  cases ht <;> rfl

lemma RegularPeriod.isEvent (ht : t.RegularPeriod) : t.isEvent = false := by
  cases ht <;> rfl

/-- Times on the clock that are read are never negative, so only their upper bound is checked. -/
lemma Regular.check_eq_ok_iff (ht : t.Regular) : t.check name = .ok () ↔ t.IsEventOrUpTo 48 := by
  rw [Time.check_eq_ok_iff, and_iff_right ht.isSet, IsEventOrUpTo]
  cases ht with
  | @clock d n hn hd =>
    have hpos : 0 ≤ d.micros := by
      rw [hd]
      exact mul_nonneg (Int.natCast_nonneg n) (by decide)
    simp [isClock, isEvent, ofDuration, Duration.withinHours_iff, hpos, maxHours]
  | event e => simp [isClock, isEvent, ofEvent]
  | offset e hn hd => simp [isClock, isEvent, ofEvent]

end Time

namespace Timespan.Regular

variable {s : Timespan}

lemma hasStart (hs : s.Regular) : s.hasStart = true := by
  cases hs with
  | point ht | range ht | periodic ht => exact ht.isSet

/-- A span that is read has no fault but in what it says. -/
lemma check_eq_ok_iff (hs : s.Regular) : s.check = .ok () ↔ s.Sound := by
  rw [Timespan.check_eq_ok_iff, and_iff_right hs.hasStart, Sound]
  cases hs with
  | point ht plus => simp [ht.check_eq_ok_iff, hasStop, hasPeriod]
  | range ht hu plus =>
    simp [ht.check_eq_ok_iff, hu.check_eq_ok_iff, hasStop, hu.isSet, hasPeriod]
  | periodic ht hu hp =>
    simp [ht.check_eq_ok_iff, hu.check_eq_ok_iff, hasStop, hu.isSet, hasPeriod, hp.isSet,
      checkPeriod_eq_ok_iff, hp.isEvent]

/-- The faults of a span that is read. -/
lemma mem_of_check (hs : s.Regular) (h : s.check = .error f) :
    f ∈ [.timeOutOfRange "beginning".toList, .timeOutOfRange "end".toList, .periodNotPositive] := by
  rcases check_of_error hs.hasStart h with h | ⟨hstop, h⟩ | ⟨hperiod, h⟩
  · simp [Time.eq_of_check hs.hasStart h]
  · simp [Time.eq_of_check hstop h]
  · have hstop : s.hasStop = true := by
      cases hs with
      | point | range => cases hperiod
      | periodic ht hu => exact hu.isSet
    simp [eq_of_checkPeriod hstop h]

end Timespan.Regular

/-! ### Weekdays -/

/-- A range of weekdays whose occurrences are in order. -/
def WeekdayRange.Sound (r : WeekdayRange) : Prop :=
  ∀ n ∈ r.nths, n.stop.isSome = true → Nth.numberOf n.start ≤ Nth.numberOf n.stop

namespace NthRange.Canonical

variable {n : NthRange}

lemma isSome_start (hn : n.Canonical) : n.start.isSome = true := by
  cases hn <;> rfl

/-- The last occurrence, which is counted from the end, is not in a range that is read. -/
lemma check_eq_ok_iff (hn : n.Canonical) :
    n.check = .ok () ↔ (n.stop.isSome = true → Nth.numberOf n.start ≤ Nth.numberOf n.stop) := by
  rw [NthRange.check_eq_ok_iff, and_iff_right hn.isSome_start]
  cases hn with
  | single | last => simp
  | @range n k hn hk =>
    have hpos : 0 < n.number := by
      cases n with
      | last => exact absurd rfl hn
      | first | second | third | fourth | fifth => decide
    simp [Nth.numberOf, hpos]

end NthRange.Canonical

namespace WeekdayRange.Canonical

variable {r : WeekdayRange}

lemma canonical_nths (hr : r.Canonical) : ∀ n ∈ r.nths, n.Canonical := by
  cases hr with
  | range d e => simp
  | single d hns offset => exact hns

lemma single_of_stop (hr : r.Canonical) (h : r.stop.isSome = true) :
    r.hasNth = false ∧ r.hasOffset = false := by
  cases hr with
  | range d e => exact ⟨rfl, rfl⟩
  | single => cases h

/-- A range of weekdays that is read has no fault but in the order of its occurrences. -/
lemma check_eq_ok_iff (hr : r.Canonical) : r.check = .ok () ↔ r.Sound := by
  rw [WeekdayRange.check_eq_ok_iff, and_iff_right hr.isSome_start, and_iff_right hr.single_of_stop]
  exact forall₂_congr fun n hn => (hr.canonical_nths n hn).check_eq_ok_iff

/-- The faults of a range of weekdays that is read. -/
lemma exists_of_check (hr : r.Canonical) (h : r.check = .error f) :
    ∃ n ∈ r.nths, f = .nthReversed n.text := by
  obtain ⟨n, hn, h⟩ := check_of_error hr.isSome_start hr.single_of_stop h
  exact ⟨n, hn, NthRange.eq_of_check (hr.canonical_nths n hn).isSome_start h⟩

end WeekdayRange.Canonical

/-! ### Dates -/

/-- All leap years have the same months. -/
lemma Month.days_of_isLeapYear (m : Month) {year : ℤ} (h : isLeapYear year = true) :
    m.days year = m.days Date.anyYear := by
  have hany : isLeapYear Date.anyYear = true := by decide
  cases m <;> simp [days, h, hany]

lemma IsTwoDigits.one_le {n : ℤ} (hn : IsTwoDigits n) (h : n ≠ 0) : 1 ≤ n := by
  have := hn.1
  omega

/-- A date after the last day of its month. Without a year, it is after that of a leap year. -/
def Date.IsBeyondMonth (d : Date) : Prop :=
  d.day ≠ 0 ∧ ∃ m, d.month = some m ∧
    (d.year ≠ 0 → m.days d.year < d.day) ∧
    (d.year = 0 → ∀ year, isLeapYear year = true → m.days year < d.day)

/-- A range with a date that does not exist, or with a repetition that a zero leaves without an end. -/
def DateRange.Unsound (r : DateRange) : Prop :=
  r.start.IsBeyondMonth ∨ r.stop.IsBeyondMonth ∨ (∃ n, r.stop = { day := n } ∧ 31 < n) ∨
    (r.period ≠ 0 ∧ r.stop = { day := 0 })

namespace Date

variable {d : Date} {n : ℤ} {bareDay : Bool}

lemma isEmpty_day : isEmpty { day := n } = decide (n = 0) := by
  by_cases hn : n = 0 <;> simp [isEmpty, hasYear, hasMonth, hasDay, isMovable, hn]

/-- A date is beyond its month if it is after the last day of it in the year that it is checked by. -/
lemma isBeyondMonth_iff {m : Month} (hm : d.month = some m) :
    d.IsBeyondMonth ↔ d.day ≠ 0 ∧ m.days (if d.hasYear then d.year else anyYear) < d.day := by
  have hleap : (∀ year, isLeapYear year = true → m.days year < d.day) ↔ m.days anyYear < d.day :=
    ⟨fun h => h anyYear (by decide), fun h year hyear => by rwa [m.days_of_isLeapYear hyear]⟩
  by_cases hy : d.year = 0 <;> simp [IsBeyondMonth, hm, hasYear, hy, hleap]

lemma not_isBeyondMonth_of_month (hm : d.month = none) : ¬ d.IsBeyondMonth := by
  rintro ⟨-, m, h, -⟩
  rw [hm] at h
  cases h

/-- A date that is read has no fault but to be after the end of its month. -/
lemma Regular.check_eq_ok_iff (hd : d.Regular) : d.check bareDay = .ok () ↔ ¬ d.IsBeyondMonth := by
  cases hd with
  | movable hy e ho => simp [check, isMovable, not_isBeyondMonth_of_month]
  | @day y k o hy m hk ho =>
    rw [isBeyondMonth_iff rfl]
    by_cases hzero : k = 0
    · simp [check, hasDay, hzero]
    · have hpos : 1 ≤ k := hk.one_le hzero
      simp [check, isMovable, hasDay, hzero, hpos]

/-- The fault of a date that is read. -/
lemma Regular.exists_of_check (hd : d.Regular) (h : d.check bareDay = .error f) :
    ∃ m, d.month = some m ∧ f = .noSuchDay m d.day := by
  cases hd with
  | movable hy e ho => cases h
  | day hy m hk ho =>
    refine ⟨m, rfl, ?_⟩
    rw [check] at h
    split at h
    · cases h
    · exact (Fault.when_eq_error_iff.mp h).2.symm

/-- A day alone has no fault if some month has it. -/
lemma check_day_eq_ok_iff (hn : IsTwoDigits n) : check { day := n } true = .ok () ↔ n ≤ 31 := by
  by_cases hzero : n = 0
  · simp [check, hasDay, hzero]
  · have hpos : 1 ≤ n := hn.one_le hzero
    simp [check, isMovable, hasDay, hzero, hpos]

lemma eq_of_check_day (h : check { day := n } true = .error f) : f = .dayWithoutMonth n := by
  rw [check] at h
  split at h
  · cases h
  · exact (Fault.when_eq_error_iff.mp h).2.symm

end Date

namespace DateRange.Regular

variable {r : DateRange}

lemma hasStart (hr : r.Regular) : r.hasStart = true := by
  rw [DateRange.hasStart, hr.start.isEmpty, Bool.not_false]

/-- A range of dates that is read has no fault but in its dates, unless a zero takes its end away. -/
lemma check_ne_ok_iff (hr : r.Regular) : r.check ≠ .ok () ↔ r.Unsound := by
  rw [ne_eq, DateRange.check_eq_ok_iff, and_iff_right hr.hasStart, hr.start.check_eq_ok_iff,
    not_and_or, not_not, Unsound]
  refine or_congr_right ?_
  cases hr with
  | single hd plus => simp [hasStop, Date.isEmpty_day, hasPeriod, Date.not_isBeyondMonth_of_month]
  | toDate hd he hp => simp [hasStop, he.isEmpty, he.check_eq_ok_iff, he.ne_day]
  | @toDay d n p hd hn hp =>
    by_cases hzero : n = 0
    · simp [hasStop, Date.isEmpty_day, hasPeriod, Date.not_isBeyondMonth_of_month, hzero]
    · simp [hasStop, Date.isEmpty_day, Date.check_day_eq_ok_iff hn, Date.not_isBeyondMonth_of_month, hzero]

/-- The faults of a range of dates that is read. -/
lemma exists_of_check (hr : r.Regular) (h : r.check = .error f) :
    (∃ d ∈ [r.start, r.stop], ∃ m, d.month = some m ∧ f = .noSuchDay m d.day) ∨
      f = .dayWithoutMonth r.stop.day ∨ f = .repeatingDateRangeWithoutEnd := by
  rcases check_of_error hr.hasStart h with h | h | ⟨-, rfl⟩
  · exact Or.inl ⟨r.start, by simp, hr.start.exists_of_check h⟩
  · cases hr with
    | single hd plus => cases h
    | toDate hd he hp => exact Or.inl ⟨_, by simp, he.exists_of_check h⟩
    | toDay hd hn hp => exact Or.inr (Or.inl (Date.eq_of_check_day h))
  · exact Or.inr (Or.inr rfl)

/-- The days in a range of dates have no more than two digits. -/
lemma isShort_day (hr : r.Regular) : ∀ d ∈ [r.start, r.stop], Text.isShort d.day = true := by
  have hdate : ∀ {d : Date}, d.Regular → Text.isShort d.day = true := by
    intro d hd
    cases hd with
    | day hy m hn ho => exact hn.isShort
    | movable hy e ho => exact Text.isShort_zero
  rw [List.forall_mem_cons, List.forall_mem_singleton]
  refine ⟨hdate hr.start, ?_⟩
  cases hr with
  | single hd plus => exact Text.isShort_zero
  | toDate hd he hp => exact hdate he
  | toDay hd hn hp => exact hn.isShort

/-- So a fault of the range can be said. -/
lemma isSome_message?_of_check (hr : r.Regular) (h : r.check = .error f) : f.message?.isSome = true := by
  have hshown : ∀ d ∈ [r.start, r.stop], Fault.shown? d.day = some (String.ofList (Text.numeral d.day)) := by
    intro d hd
    rw [Fault.shown?, Text.numeral?, if_pos (hr.isShort_day d hd), Option.map_some]
  rcases hr.exists_of_check h with ⟨d, hd, m, -, rfl⟩ | rfl | rfl
  · rw [Fault.message?, hshown d hd]
    rfl
  · rw [Fault.message?, hshown r.stop (by simp)]
    rfl
  · rfl

end DateRange.Regular

/-- What is wrong with a range of dates that is read is wrong with what is written. Its value does not tell a
day that is a zero from no day at all, but its text does. -/
lemma Part.unsound_iff {s q : Text} {r : DateRange} (h : fieldGrammar.Derives dateRange s (.ok r) q) :
    r.Unsound ↔ r.start.IsBeyondMonth ∨ r.stop.IsBeyondMonth ∨ (∃ n, ReadsToDay s r n q ∧ 31 < n) ∨
      (r.period ≠ 0 ∧ ReadsToDay s r 0 q) := by
  have hday : (∃ n, r.stop = { day := n } ∧ 31 < n) ↔ ∃ n, ReadsToDay s r n q ∧ 31 < n :=
    exists_congr fun n => and_congr_left fun hn => (readsToDay_iff h (Or.inl (by omega))).symm
  have hzero : (r.period ≠ 0 ∧ r.stop = { day := 0 }) ↔ r.period ≠ 0 ∧ ReadsToDay s r 0 q :=
    and_congr_right fun hp => (readsToDay_iff h (Or.inr hp)).symm
  rw [DateRange.Unsound, hday, hzero]

/-! ### Fields -/

namespace Field

variable {field : Text} {R : List Rule}

/-- Parts of a field have faults only for what they say, and each fault is one of a few and can be said.

A span of time has none if its moments are events or times up to 48 hours, and its period is more than
nothing. A range of weekdays has none if its occurrences are in order. A range of dates has one if a date is
beyond the end of its month, if it ends on a day alone that no month has, or if it is repeated and the day
alone that it ends on is a zero. -/
theorem check_of_read (h : read field = .ok R) :
    ∀ x ∈ R,
      (∀ t ∈ x.times, (t.check = .ok () ↔ t.Sound) ∧ ∀ f, t.check = .error f →
        f ∈ [.timeOutOfRange "beginning".toList, .timeOutOfRange "end".toList, .periodNotPositive] ∧
          f.message?.isSome = true) ∧
      (∀ d ∈ x.days.ranges, (d.check = .ok () ↔ d.Sound) ∧ ∀ f, d.check = .error f →
        (∃ n ∈ d.nths, f = .nthReversed n.text) ∧ f.message?.isSome = true) ∧
      ∀ d ∈ x.dates, ∃ s q, s <:+: field ∧ fieldGrammar.Derives Part.dateRange s (.ok d) q ∧
        (d.check ≠ .ok () ↔ d.start.IsBeyondMonth ∨ d.stop.IsBeyondMonth ∨
          (∃ n, Part.ReadsToDay s d n q ∧ 31 < n) ∨ (d.period ≠ 0 ∧ Part.ReadsToDay s d 0 q)) ∧
        ∀ f, d.check = .error f →
          ((∃ e ∈ [d.start, d.stop], ∃ m, e.month = some m ∧ f = .noSuchDay m e.day) ∨
            f = .dayWithoutMonth d.stop.day ∨ f = .repeatingDateRangeWithoutEnd) ∧
            f.message?.isSome = true := by
  intro x hx
  have hregular : x.Regular := (chained_of_read h).forall_mem x hx
  refine ⟨fun t ht => ?_, fun d hd => ?_, fun d hd => ?_⟩
  · refine ⟨(hregular.times t ht).check_eq_ok_iff, fun f hf => ?_⟩
    have hmem := (hregular.times t ht).mem_of_check hf
    refine ⟨hmem, ?_⟩
    simp only [List.mem_cons, List.not_mem_nil, or_false] at hmem
    rcases hmem with rfl | rfl | rfl <;> rfl
  · refine ⟨(hregular.days d hd).check_eq_ok_iff, fun f hf => ?_⟩
    obtain ⟨n, hn, rfl⟩ := (hregular.days d hd).exists_of_check hf
    exact ⟨⟨n, hn, rfl⟩, rfl⟩
  · have hdate := hregular.dates d hd
    obtain ⟨s, q, hs, hread⟩ := exists_of_read_dates h x hx d hd
    refine ⟨s, q, hs, hread, ?_, fun f hf => ⟨hdate.exists_of_check hf, hdate.isSome_message?_of_check hf⟩⟩
    rw [hdate.check_ne_ok_iff, Part.unsound_iff hread]

/-- A repetition whose end is a zero, occurrences out of order, and a span that ends an hour late. -/
theorem check_of_read_three_faults :
    let d : DateRange := { start := { month := some .january, day := 1 }, period := 2 }
    let w : WeekdayRange := { start := some .monday, nths := [{ start := some .third, stop := some .first }] }
    let t : Timespan := {
      start := .ofDuration ⟨600 * Duration.microsPerMinute, by decide⟩
      stop := .ofDuration ⟨2940 * Duration.microsPerMinute, by decide⟩ }
    let x : Rule := { dates := [d], days := { ranges := [w] }, times := [t] }
    read "Jan 01-00/2 Mo[3-1] 10:00-49:00".toList = .ok [x] ∧
      (t.check = .error (.timeOutOfRange "end".toList) ∧ ¬ t.Sound) ∧
      (w.check = .error (.nthReversed "3-1".toList) ∧ ¬ w.Sound) ∧
      d.check = .error .repeatingDateRangeWithoutEnd ∧
        ∃ s q, s <:+: "Jan 01-00/2 Mo[3-1] 10:00-49:00".toList ∧ Part.ReadsToDay s d 0 q := by
  intro d w t x
  have hread : read "Jan 01-00/2 Mo[3-1] 10:00-49:00".toList = .ok [x] := by decide +kernel
  have ht : t.check = .error (.timeOutOfRange "end".toList) := by decide +kernel
  have hw : w.check = .error (.nthReversed "3-1".toList) := by decide +kernel
  have hd : d.check = .error .repeatingDateRangeWithoutEnd := by decide +kernel
  obtain ⟨htimes, hdays, hdates⟩ := check_of_read hread x (by simp)
  obtain ⟨s, q, hs, hsq, -⟩ := hdates d (by simp [x])
  refine ⟨hread, ⟨ht, fun h => ?_⟩, ⟨hw, fun h => ?_⟩, hd, s, q, hs, ?_⟩
  · have := (htimes t (by simp [x])).1.mpr h
    rw [ht] at this
    cases this
  · have := (hdays w (by simp [x])).1.mpr h
    rw [hw] at this
    cases this
  · exact (Part.readsToDay_iff hsq (Or.inr (by decide))).mpr rfl

/-- The day of a last date that is a zero takes away no more than itself. The month is left, and the
repetition has an end. -/
theorem check_of_read_february_zero :
    let d : DateRange := {
      start := { month := some .january, day := 1 }
      stop := { month := some .february }
      period := 2 }
    read "Jan 01-Feb 00/2".toList = .ok [{ dates := [d] }] ∧
      fieldGrammar.Derives Part.date "Jan 01-Feb 00/2".toList (.ok d.start) "-Feb 00/2".toList ∧
      Terminal.dash.scan "-Feb 00/2".toList = some (['-'], "Feb 00/2".toList) ∧
      fieldGrammar.Derives Part.month "Feb 00/2".toList (.ok .february) " 00/2".toList ∧
      fieldGrammar.Derives (Part.number .dayNumber) " 00/2".toList (.ok 0) "/2".toList ∧
      fieldGrammar.Derives Part.step "/2".toList (.ok d.period) [] ∧
      d.period ≠ 0 ∧ d.check = .ok () := by
  intro d
  have hmonth : ∀ {s w r m}, Terminal.month.scan s = some (w, r) → Month.ofName? w = some m →
      fieldGrammar.Derives Part.month s (.ok m) r := fun hw hm =>
    derives_build_ok.mpr ⟨_, Part.derives_scan_iff.mpr hw, Part.orError_eq_ok_iff.mpr hm⟩
  have hnumber : ∀ {t s w r} {n : ℤ}, Terminal.scan t s = some (w, r) → w.length ≤ 2 →
      n = Text.number w → fieldGrammar.Derives (Part.number t) s (.ok n) r := fun hw hlen hn =>
    Part.derives_number_ok.mpr ⟨_, hw, hlen.trans (by decide), hn⟩
  have hdate : fieldGrammar.Derives Part.date "Jan 01-Feb 00/2".toList (.ok d.start) "-Feb 00/2".toList := by
    refine Part.derives_date_ok.mpr (Or.inl ⟨none, .january, some 1, none, _, " 01-Feb 00/2".toList, _,
      derives_opt_none.mpr rfl, ?_, derives_opt_some.mpr ?_, derives_opt_none.mpr rfl, rfl⟩)
    · exact hmonth (w := "Jan".toList) (by decide +kernel) (by decide +kernel)
    · exact hnumber (w := "01".toList) (by decide +kernel) (by decide) (by decide +kernel)
  refine ⟨by decide +kernel, hdate, by decide +kernel, ?_, ?_, ?_, by decide, by decide +kernel⟩
  · exact hmonth (w := "Feb".toList) (by decide +kernel) (by decide +kernel)
  · exact hnumber (w := "00".toList) (by decide +kernel) (by decide) (by decide +kernel)
  · exact Part.derives_after_ok.mpr ⟨['/'], ['2'], by decide +kernel,
      hnumber (w := ['2']) (by decide +kernel) (by decide) (by decide +kernel)⟩

end Field

end OpeningTimes
