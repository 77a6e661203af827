import OpeningTimes.Proofs.Field.Times

/-!
Years, dates and weeks can be read in one way only.

* `Part.decisive_years`, `Part.decisive_weeks`: years and weeks, if what follows could not belong to
  them;
* `Part.SparesClock`, `Part.AfterDate`: how the day of a date is told from the hours of a time after
  it;
* `Part.decisive_date`, `Part.decisive_dates`: dates, and lists of ranges of them;
* `Part.not_begins_years_of_dates`: a year before a month belongs to the date.
-/

namespace OpeningTimes

open Grammar

namespace Part

variable {P : Text → Prop}

/-! ### Years and weeks -/

lemma decisive_step : fieldGrammar.Decisive step P :=
  ((Decisive.terminal _).seq (decisive_number _)).build _

lemma decisive_opt_step : fieldGrammar.Decisive (.opt step) (Avoids [.slash]) :=
  Decisive.opt decisive_step fun _ hb hs => hs.not_begins rfl (by decide) hb

/-- What may follow a range of years. -/
abbrev afterYearRange : Text → Prop :=
  Avoids [.dash, .plus, .slash]

/-- The end of a range of numbers, and its period. -/
lemma decisive_ending (t : Terminal) :
    fieldGrammar.Decisive (.seq (.after .dash (number t)) (.opt step)) (Avoids [.dash, .slash]) :=
  (((Decisive.terminal _).seq (decisive_number _)).build _).seq
    (decisive_opt_step.mono fun _ hr => hr.mono (by decide))

lemma decisive_yearRange : fieldGrammar.Decisive yearRange afterYearRange := by
  refine Decisive.alt ?_ (((decisive_number _).seq (.terminal _)).build _ |>.build _) ?_
  · refine ((decisive_number _).seq (Decisive.opt ?_ ?_)).build _
    · exact (decisive_ending _).mono fun r hr => hr.mono (by decide)
    · exact fun s hb hs => hs.not_begins rfl (by decide) hb
  · intro s h h'
    simp only [begins_build, begins_seq] at h h'
    refine Decisive.not_begins (decisive_number _ (P := fun _ => True)) (fun _ _ => trivial)
      (fun _ _ => trivial) (fun r hr hr' => ?_) h h'
    rcases begins_opt.mp hr with hr | hr
    · rw [begins_seq] at hr
      exact not_begins_of_opens rfl rfl (by decide) hr hr'
    · exact hr.not_begins rfl (by decide) hr'

lemma decisive_firstYearRange : fieldGrammar.Decisive firstYearRange afterYearRange := by
  refine Decisive.alt ?_ (Decisive.alt ((decisive_number _).build _)
    (((decisive_number _).seq (.terminal _)).build _ |>.build _) ?_) ?_
  · refine ((decisive_number _).seq ?_).build _
    exact (decisive_ending _).mono fun r hr => hr.mono (by decide)
  · intro s h h'
    simp only [number, begins_build, begins_seq, begins_scan] at h h'
    obtain ⟨w, r, hr, ha⟩ := h
    obtain ⟨w', r', hr', w'', q, hq, -⟩ := h'
    obtain rfl := Terminal.rest_eq_of_numerals (by decide) (by decide) hr hr'
    exact ha.not_scan (t := .plus) (by decide) hq
  · intro s h h'
    simp only [number, begins_alt, begins_build, begins_seq, begins_scan]
      at h h'
    obtain ⟨w, r, hr, w', q, hq, -⟩ := h
    rcases h' with ⟨w'', r', hr', ha⟩ | ⟨w'', r', hr', u, p, hp, -⟩
    · obtain rfl := Terminal.rest_eq_of_numerals (by decide) (by decide) hr hr'
      exact ha.not_scan (t := .dash) (by decide) hq
    · obtain rfl := Terminal.rest_eq_of_numerals (by decide) (by decide) hr hr'
      exact (Avoids.of_scan (K := [.plus]) hq (by decide)).not_scan (t := .plus) (by decide) hp

/-- What may follow the years of a rule. -/
abbrev afterYears : Text → Prop :=
  Avoids [.dash, .plus, .slash, .comma]

theorem decisive_years : fieldGrammar.Decisive years afterYears := by
  have hmany : ∀ r, fieldGrammar.Begins (.many .comma yearRange) afterYears r →
      afterYearRange r := by
    intro r hr
    rcases begins_many.mp hr with hr | ⟨w, q, hm, -⟩
    · exact hr.mono (by decide)
    · exact .of_scan (t := .comma) hm (by decide)
  refine ((decisive_firstYearRange.mono hmany).seq
    (Decisive.many (decisive_yearRange.mono hmany) ?_)).build _
  exact fun s w r hs hm => (hs.not_scan (t := .comma) (by decide) hm).elim

/-- What may follow the weeks of a rule. -/
abbrev afterWeeks : Text → Prop :=
  Avoids [.dash, .slash, .comma]

lemma decisive_weekRange : fieldGrammar.Decisive weekRange (Avoids [.dash, .slash]) :=
  ((decisive_number _).seq (Decisive.opt (decisive_ending _) fun _ hb hs =>
    hs.not_begins rfl (by decide) hb)).build _

theorem decisive_weeks : fieldGrammar.Decisive weeks afterWeeks := by
  refine ((Decisive.terminal _).seq (decisive_listed
    (decisive_weekRange.mono fun r hr => ?_) ?_)).build _
  · rcases begins_many.mp hr with hr | ⟨w, q, hm, -⟩
    · exact hr.mono (by decide)
    · exact .of_scan (t := .comma) hm (by decide)
  · exact fun s w r hs hm => (hs.not_scan (t := .comma) (by decide) hm).elim

/-! ### Dates -/

/-- A text begins with a day offset or with the shift of a date, whatever follows. -/
abbrev beginsOffset : Text → Prop :=
  fieldGrammar.Begins dateOffset fun _ => True

lemma decisive_dateOffset :
    fieldGrammar.Decisive dateOffset fun s => ¬ beginsOffset s := by
  refine Decisive.alt ?_ (decisive_dayOffset.build _) ?_
  · refine ((Decisive.terminal _).seq (decisive_weekday.seq
      (Decisive.opt decisive_dayOffset ?_))).build _
    intro s hb hs
    refine hs (begins_alt.mpr (Or.inr ?_))
    rw [begins_build]
    exact hb.mono fun _ _ => trivial
  · intro s h h'
    rw [begins_build, begins_seq] at h
    rw [dayOffset, begins_build, begins_build, begins_seq] at h'
    refine Decisive.not_begins (Decisive.terminal _ (P := fun _ => True)) (fun _ _ => trivial)
      (fun _ _ => trivial) (fun r hr hr' => ?_) h h'
    rw [begins_seq] at hr
    exact not_begins_of_opens rfl rfl (by decide) hr hr'

/-- The text does not begin with a colon and minutes, which would be the rest of a clock time. A colon
and the whole of a clock time may be there. -/
def SparesClock (s : Text) : Prop :=
  ∀ w q w' q', Terminal.colon.scan s = some (w, q) → Terminal.minutes.scan q = some (w', q') →
    Opening.of q' = .colon

lemma SparesClock.of_avoids {s : Text} (h : Avoids [.colon] s) : SparesClock s :=
  fun _ _ _ _ hc => (h.not_scan (t := .colon) (by decide) hc).elim

/-- What may follow a date: neither the rest of a clock time of which the day would be the hours, nor
a number that would be a day itself, nor a shift. -/
structure AfterDate (s : Text) : Prop where
  sparesClock : SparesClock s
  noDay : ∀ w q, Terminal.dayNumber.scan s = some (w, q) → ¬ SparesClock q
  noOffset : ¬ beginsOffset s

lemma decisive_opt_dateOffset : fieldGrammar.Decisive (.opt dateOffset) AfterDate :=
  Decisive.opt (decisive_dateOffset.mono fun _ hr => hr.noOffset)
    fun _ hb hs => hs.noOffset (hb.mono fun _ _ => trivial)

lemma SparesClock.of_begins_opt_dateOffset {s : Text}
    (h : fieldGrammar.Begins (.opt dateOffset) AfterDate s) : SparesClock s := by
  rcases begins_opt.mp h with h | h
  · exact .of_avoids (.of_begins rfl h (by decide))
  · exact h.sparesClock

/-- The day of a date and the shift after it. -/
lemma decisive_day : fieldGrammar.Decisive (.seq (.opt (number .dayNumber)) (.opt dateOffset))
    AfterDate := by
  refine (Decisive.opt (decisive_number _) ?_).seq decisive_opt_dateOffset
  intro s hb hs
  obtain ⟨w, q, hq, ho⟩ := begins_scan.mp (begins_build ▸ hb)
  have hq' : SparesClock q := .of_begins_opt_dateOffset ho
  rcases begins_opt.mp hs with hs | hs
  · exact (Avoids.of_begins (K := [.oneDigit, .twoDigits]) rfl hs (by decide)).not_scan
      (t := .dayNumber) (by decide) hq
  · exact hs.noDay w q hq hq'

theorem decisive_date : fieldGrammar.Decisive date AfterDate := by
  have hyear : fieldGrammar.Decisive (.opt (number .year)) (Avoids [.fourDigits]) :=
    Decisive.opt (decisive_number _) fun _ hb hs => hs.not_begins rfl (by decide) hb
  have hmonth : fieldGrammar.Decisive month fun _ => True := (Decisive.terminal _).build _
  refine Decisive.alt ?_ ?_ ?_
  · refine ((hyear.mono fun r hr => ?_).seq
      ((hmonth.mono fun _ _ => trivial).seq decisive_day)).build _
    rw [begins_seq] at hr
    exact .of_begins rfl hr (by decide)
  · refine ((hyear.mono fun r hr => ?_).seq
      ((Decisive.terminal _).seq decisive_opt_dateOffset)).build _
    rw [begins_seq] at hr
    exact .of_begins rfl hr (by decide)
  · intro s h h'
    simp only [begins_build, begins_seq] at h h'
    refine hyear.not_begins (fun r hr => .of_begins rfl hr (by decide))
      (fun r hr => .of_begins rfl hr (by decide)) (fun r hr hr' => ?_) h h'
    exact not_begins_of_opens rfl rfl (by decide) hr hr'

/-- What may follow a range of dates: nothing that could follow a single date, no period, and neither
a number of days nor the word for it. -/
structure AfterDateRange (s : Text) : Prop where
  avoids : Avoids [.dash, .plus, .slash, .day] s
  sparesClock : SparesClock s
  noDay : ∀ w q, Terminal.dayNumber.scan s = some (w, q) → ¬ SparesClock q
  noCount : ∀ w q, Terminal.number.scan s = some (w, q) → Avoids [.day] q

lemma AfterDate.of_afterDateRange {s : Text} (h : AfterDateRange s) : AfterDate s where
  sparesClock := h.sparesClock
  noDay := h.noDay
  noOffset := h.avoids.not_begins rfl (by decide)

/-- After a mark other than a colon a date ends, if it is not the mark of a shift. -/
lemma AfterDate.of_avoids {s : Text} (h : Avoids [.colon, .oneDigit, .twoDigits] s)
    (ho : ¬ beginsOffset s) : AfterDate s where
  sparesClock := .of_avoids (h.mono (by decide))
  noDay := fun _ _ hd => (h.not_scan (t := .dayNumber) (by decide) hd).elim
  noOffset := ho

/-- A shift is a sign and a weekday, or a sign, a number and the word for days. -/
lemma exists_of_beginsOffset {s : Text} (h : beginsOffset s) :
    ∃ w r, Terminal.sign.scan s = some (w, r) ∧
      (Opening.of r = .weekday ∨
        ∃ w' q, Terminal.number.scan r = some (w', q) ∧ Opening.of q = .day) := by
  have hday : ∀ o, (Terminal.dayWord).opens o = true → o = .day := by decide
  have hweekday : ∀ o, opens weekday o = true → o = .weekday := by decide
  simp only [beginsOffset, dateOffset, dayOffset, number, begins_alt, begins_build, begins_seq] at h
  rcases h with h | h
  · obtain ⟨w, r, hr, hb⟩ := begins_scan.mp h
    exact ⟨w, r, hr, Or.inl (hweekday _ (opens_of_begins rfl hb))⟩
  · obtain ⟨w, r, hr, hb⟩ := begins_scan.mp h
    obtain ⟨w', q, hq, hb⟩ := begins_scan.mp hb
    obtain ⟨w'', p, hp, -⟩ := begins_scan.mp hb
    exact ⟨w, r, hr, Or.inr ⟨w', q, hq, hday _ (Terminal.opens_of_scan hp)⟩⟩

/-- The part of a range after its first date, where it ends with a date. -/
abbrev toDate : Part (Date × Option Int) :=
  .seq (.after .dash date) (.opt step)

/-- The part of a range after its first date, where it ends with a day of the month. -/
abbrev toDay : Part (Int × Option Int) :=
  .seq (.after .dash (number .dayNumber)) (.opt step)

lemma AfterDateRange.of_begins_step {s : Text}
    (h : fieldGrammar.Begins (.opt step) AfterDateRange s) : Avoids [.day] s := by
  rcases begins_opt.mp h with h | h
  · exact .of_begins rfl h (by decide)
  · exact h.avoids.mono (by decide)

/-- A number before a month is a year, and no word for days follows. -/
lemma not_number_days_of_date {s w q : Text} (h : fieldGrammar.Begins date P s)
    (hn : Terminal.number.scan s = some (w, q)) : Opening.of q ≠ .day := by
  intro hq
  have hnum : Avoids [.month, .easter] s := .of_scan hn (by decide)
  simp only [date, number, begins_alt, begins_build, begins_seq] at h
  rcases h with h | h
  all_goals
    rcases begins_opt.mp h with h | h
    · obtain ⟨w', e, he, hb⟩ := begins_scan.mp (begins_build ▸ h)
      obtain rfl := Terminal.rest_eq_of_numerals (by decide) (by decide) he hn
      exact (Avoids.of_begins (K := [.day]) rfl hb (by decide)) (by simp [hq])
    · exact hnum.not_begins rfl (by decide) h

lemma AfterDate.of_toDate {s : Text} (h : fieldGrammar.Begins toDate P s) : AfterDate s := by
  refine .of_avoids (.of_begins rfl h (by decide)) fun ho => ?_
  obtain ⟨w, r, hr, hor⟩ := exists_of_beginsOffset ho
  simp only [begins_seq, begins_build] at h
  obtain ⟨w', q, hq, hd⟩ := begins_scan.mp h
  obtain rfl := Terminal.rest_eq_of_dash_of_sign hq hr
  have hopen : opens date (Opening.of q) = true := opens_of_begins rfl hd
  rcases hor with hor | ⟨u, p, hp, hor⟩
  · rw [hor] at hopen
    cases hopen
  · exact not_number_days_of_date hd hp hor

lemma AfterDate.of_toDay {s : Text} (h : fieldGrammar.Begins toDay AfterDateRange s) :
    AfterDate s := by
  refine .of_avoids (.of_begins rfl h (by decide)) fun ho => ?_
  obtain ⟨w, r, hr, hor⟩ := exists_of_beginsOffset ho
  simp only [begins_seq, begins_build, number] at h
  obtain ⟨w', q, hq, hd⟩ := begins_scan.mp h
  obtain rfl := Terminal.rest_eq_of_dash_of_sign hq hr
  obtain ⟨w'', e, he, hstep⟩ := begins_scan.mp hd
  rcases hor with hor | ⟨u, p, hp, hor⟩
  · have := Terminal.opens_of_scan he
    rw [hor] at this
    cases this
  · obtain rfl := Terminal.rest_eq_of_numerals (by decide) (by decide) he hp
    exact AfterDateRange.of_begins_step hstep (by simp [hor])

/-- A text that does not begin with a weekday, whatever white space is before it, opens with none. -/
lemma avoids_of_weekdayWords {s : Text}
    (h : Terminal.startsWith Terminal.weekdayWords (s.dropWhile Text.isSpace) = false) :
    Avoids [.weekday] s := by
  intro ho
  rw [List.mem_singleton] at ho
  have hword := Opening.contains_of_ofWord_weekday (Opening.ofWord_of_eq (by decide) ho)
  rw [Terminal.startsWith, hword] at h
  cases h

/-- A plus sign that leaves a range open is not the sign of a weekday. -/
lemma openEnd_iff {s w q : Text} (h : Terminal.openEnd.scan s = some (w, q)) :
    Terminal.plus.scan s = some (w, q) ∧ Opening.of q ≠ .weekday := by
  obtain ⟨hp, hw⟩ := Option.filter_eq_some_iff.mp h
  have ha := avoids_of_weekdayWords ((Bool.not_eq_true' _).mp hw)
  exact ⟨hp, fun ho => ha (List.mem_singleton.mpr ho)⟩

lemma AfterDate.of_openEnd {s : Text}
    (h : fieldGrammar.Begins (.terminal .openEnd) AfterDateRange s) : AfterDate s := by
  refine .of_avoids (.of_begins rfl h (by decide)) fun ho => ?_
  obtain ⟨w, r, hr, hor⟩ := exists_of_beginsOffset ho
  obtain ⟨w', q, hq, ha⟩ := begins_scan.mp h
  obtain ⟨hplus, hweekday⟩ := openEnd_iff hq
  have hsign := Terminal.scan_sign_iff.mpr (Or.inl hplus)
  obtain ⟨rfl, rfl⟩ := Prod.mk.inj (Option.some.inj (hsign.symm.trans hr))
  rcases hor with hor | ⟨u, p, hp, hor⟩
  · exact hweekday hor
  · exact ha.noCount u p hp (by simp [hor])

lemma AfterDate.of_step {s : Text}
    (h : fieldGrammar.Begins (.opt step) AfterDateRange s) : AfterDate s := by
  rcases begins_opt.mp h with h | h
  · exact .of_avoids (.of_begins rfl h (by decide)) ((Avoids.of_begins
      (K := [.plus, .dash]) rfl h (by decide)).not_begins rfl (by decide))
  · exact .of_afterDateRange h

/-- A range that ends with a date does not end with a day of the month. -/
lemma not_toDay_of_toDate {s : Text} (h : fieldGrammar.Begins toDate AfterDateRange s)
    (h' : fieldGrammar.Begins toDay AfterDateRange s) : False := by
  simp only [begins_seq, begins_build] at h h'
  refine Decisive.not_begins (Decisive.terminal _ (P := fun _ => True)) (fun _ _ => trivial)
    (fun _ _ => trivial) (fun r hr hr' => ?_) h h'
  exact not_begins_of_opens rfl rfl (by decide) hr hr'

theorem decisive_dateRange : fieldGrammar.Decisive dateRange AfterDateRange := by
  have hstep : fieldGrammar.Decisive (.opt step) AfterDateRange :=
    decisive_opt_step.mono fun r hr => hr.avoids.mono (by decide)
  refine Decisive.alt ?_ (Decisive.alt ?_ (Decisive.alt ?_ ?_ ?_) ?_) ?_
  · exact ((decisive_date.mono fun r => AfterDate.of_toDate).seq
      ((((Decisive.terminal _).seq (decisive_date.mono fun r => AfterDate.of_step)).build _).seq
        hstep)).build _
  · exact ((decisive_date.mono fun r => AfterDate.of_toDay).seq
      ((((Decisive.terminal _).seq (decisive_number _)).build _).seq hstep)).build _
  · exact (((decisive_date.mono fun r => AfterDate.of_openEnd).seq (.terminal _)).build _).build _
  · exact (decisive_date.mono fun r => AfterDate.of_afterDateRange).build _
  -- no two of the four forms begin alike, because they begin with a date and differ after it
  · intro s h h'
    simp only [begins_build, begins_seq] at h h'
    exact decisive_date.not_begins (fun r => AfterDate.of_openEnd)
      (fun r => AfterDate.of_afterDateRange)
      (fun r hr hr' => hr'.avoids.not_begins rfl (by decide) hr) h h'
  · intro s h h'
    rw [begins_build, begins_seq] at h
    rcases begins_alt.mp h' with h' | h'
    · rw [begins_build, begins_build, begins_seq] at h'
      exact decisive_date.not_begins (fun r => AfterDate.of_toDay)
        (fun r => AfterDate.of_openEnd)
        (fun r hr hr' => not_begins_of_opens rfl rfl (by decide) hr hr') h h'
    · rw [begins_build] at h'
      exact decisive_date.not_begins (fun r => AfterDate.of_toDay)
        (fun r => AfterDate.of_afterDateRange)
        (fun r hr hr' => hr'.avoids.not_begins rfl (by decide) hr) h h'
  · intro s h h'
    rw [begins_build, begins_seq] at h
    rw [begins_alt, begins_alt] at h'
    rcases h' with h' | h' | h'
    · rw [begins_build, begins_seq] at h'
      exact decisive_date.not_begins (fun r => AfterDate.of_toDate)
        (fun r => AfterDate.of_toDay) (fun r => not_toDay_of_toDate) h h'
    · rw [begins_build, begins_build, begins_seq] at h'
      exact decisive_date.not_begins (fun r => AfterDate.of_toDate)
        (fun r => AfterDate.of_openEnd)
        (fun r hr hr' => not_begins_of_opens rfl rfl (by decide) hr hr') h h'
    · rw [begins_build] at h'
      exact decisive_date.not_begins (fun r => AfterDate.of_toDate)
        (fun r => AfterDate.of_afterDateRange)
        (fun r hr hr' => hr'.avoids.not_begins rfl (by decide) hr) h h'

/-- What may follow the dates of a rule. -/
structure AfterDates (s : Text) : Prop extends AfterDateRange s where
  noComma : Avoids [.comma] s

lemma AfterDateRange.of_comma {s w q : Text} (h : Terminal.comma.scan s = some (w, q)) :
    AfterDateRange s := by
  have hc : Avoids [.dash, .plus, .slash, .day, .colon, .oneDigit, .twoDigits, .fourDigits,
      .digits] s := .of_scan h (by decide)
  exact ⟨hc.mono (by decide), .of_avoids (hc.mono (by decide)),
    fun _ _ hd => (hc.not_scan (t := .dayNumber) (by decide) hd).elim,
    fun _ _ hd => (hc.not_scan (t := .number) (by decide) hd).elim⟩

theorem decisive_dates : fieldGrammar.Decisive dates AfterDates := by
  refine decisive_listed (decisive_dateRange.mono fun r hr => ?_) ?_
  · rcases begins_many.mp hr with hr | ⟨w, q, hm, -⟩
    · exact hr.toAfterDateRange
    · exact .of_comma hm
  · exact fun s w r hs hm => (hs.noComma.not_scan (t := .comma) (by decide) hm).elim

/-! ### Years before dates -/

/-- A date begins with a year before a month or a movable day, or else with one of these. -/
lemma opening_of_begins_date {s : Text} (h : fieldGrammar.Begins date P s) :
    Opening.of s ∈ [.month, .easter] ∨
      ∃ w r, Terminal.year.scan s = some (w, r) ∧ Opening.of r ∈ [.month, .easter] := by
  have hmonth : ∀ o, opens month o = true → o ∈ [.month, .easter] := by decide
  have heaster : ∀ o, Terminal.easter.opens o = true → o ∈ [.month, .easter] := by decide
  simp only [date, begins_alt, begins_build, begins_seq] at h
  rcases h with h | h
  · rcases begins_opt.mp h with h | h
    · obtain ⟨w, r, hr, hb⟩ := begins_scan.mp (begins_build ▸ h)
      exact Or.inr ⟨w, r, hr, hmonth _ (opens_of_begins rfl hb)⟩
    · exact Or.inl (hmonth _ (opens_of_begins rfl h))
  · rcases begins_opt.mp h with h | h
    · obtain ⟨w, r, hr, hb⟩ := begins_scan.mp (begins_build ▸ h)
      obtain ⟨w', q, hq, -⟩ := begins_scan.mp hb
      exact Or.inr ⟨w, r, hr, heaster _ (Terminal.opens_of_scan hq)⟩
    · obtain ⟨w', q, hq, -⟩ := begins_scan.mp h
      exact Or.inl (heaster _ (Terminal.opens_of_scan hq))

/-- A text that does not begin with a month or a movable day, whatever white space is before it, opens
with none. -/
lemma avoids_of_monthWords {s : Text}
    (h : Terminal.startsWith (Terminal.monthWords ++ Terminal.movableWords)
      (s.dropWhile Text.isSpace) = false) : Avoids [.month, .easter] s := by
  intro ho
  have hword := Opening.ofWord_of_eq (by revert ho; generalize Opening.of s = o; revert o; decide)
    (rfl : Opening.of s = _)
  have : (Terminal.monthWords ++ Terminal.movableWords).contains
      (((s.dropWhile Text.isSpace).takeWhile Text.isLetter).map Text.fold) = true := by
    rw [List.contains_iff_mem, List.mem_append]
    simp only [List.mem_cons, List.not_mem_nil, or_false] at ho
    rcases ho with ho | ho
    · exact Or.inl (List.contains_iff_mem.mp (Opening.contains_of_ofWord_month (hword.trans ho)))
    · exact Or.inr (List.contains_iff_mem.mp (Opening.contains_of_ofWord_easter (hword.trans ho)))
  rw [Terminal.startsWith, this] at h
  cases h

/-- No month and no movable day follows a single year at the beginning of a rule. -/
lemma avoids_of_loneYear {s w r : Text} (h : Terminal.loneYear.scan s = some (w, r)) :
    Avoids [.month, .easter] r :=
  avoids_of_monthWords ((Bool.not_eq_true' _).mp (Option.filter_eq_some_iff.mp h).2)

/-- Years begin with a year that does not stand before a month. -/
lemma exists_of_begins_years {s : Text} (h : fieldGrammar.Begins years P s) :
    ∃ w r, Terminal.year.scan s = some (w, r) ∧ Avoids [.month, .easter] r := by
  simp only [years, firstYearRange, number, begins_alt, begins_build, begins_seq] at h
  rcases h with h | h | h
  · obtain ⟨w, r, hr, hb⟩ := begins_scan.mp h
    exact ⟨w, r, hr, .of_begins rfl hb (by decide)⟩
  · obtain ⟨w, r, hr, -⟩ := begins_scan.mp h
    exact ⟨w, r, (Option.filter_eq_some_iff.mp hr).1, avoids_of_loneYear hr⟩
  · obtain ⟨w, r, hr, hb⟩ := begins_scan.mp h
    exact ⟨w, r, hr, .of_begins rfl hb (by decide)⟩

lemma begins_date_of_dateRange {s : Text} (h : fieldGrammar.Begins dateRange P s) :
    fieldGrammar.Begins date (fun _ => True) s := by
  simp only [dateRange, begins_alt, begins_build, begins_seq] at h
  rcases h with h | h | h | h <;> exact h.mono fun _ _ => trivial

/-- A single year before a month belongs to the date, so years and dates never begin alike. -/
theorem not_begins_years_of_dates {Q : Text → Prop} {s : Text}
    (h : fieldGrammar.Begins years P s) (h' : fieldGrammar.Begins dates Q s) : False := by
  obtain ⟨w, r, hr, ha⟩ := exists_of_begins_years h
  rw [dates, begins_build, begins_seq] at h'
  rcases opening_of_begins_date (begins_date_of_dateRange h') with ho | ⟨w', r', hr', ho⟩
  · exact (Avoids.of_scan (K := [.month, .easter]) hr (by decide)) ho
  · obtain rfl := Terminal.rest_eq_of_numerals (by decide) (by decide) hr hr'
    exact ha ho

end Part

end OpeningTimes
