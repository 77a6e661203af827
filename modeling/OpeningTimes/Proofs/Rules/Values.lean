import OpeningTimes.Proofs.Canonical.Fixpoint

/-!
The values that the parts of a field can have.

A field is read without asking whether it makes sense: a clock may show `99:99`, and a year may be
`0000`. What the digits of a number allow is all that is known, and it is the same for every field.

* `Time.Regular`, `Timespan.Regular`, `YearRange.Regular`, `WeekRange.Regular`, `Date.Regular`,
  `DateRange.Regular`: the values that are read;
* `Part.regular_of_derives_timespan` and its companions: no others are.
-/

namespace OpeningTimes

open Grammar Text

/-! ### The values that are read -/

/-- The moments that are read: clock times and offsets of at most 99 hours and 99 minutes, and
events. -/
inductive Time.Regular : Time → Prop where
  | clock {d : Duration} {n : ℕ} (hn : n ≤ 6039) (hd : d.IsMinutes n) : Regular (ofDuration d)
  | event (e : Event) : Regular (ofEvent e none)
  | offset {d : Duration} {n : ℤ} (e : Event) (hn : n.natAbs ≤ 6039) (hd : d.IsMinutes n) :
    Regular (ofEvent e (some d))

/-- The periods that are read. Up to an hour they are numbers of minutes, or times on the clock if they
are written as such. -/
inductive Time.RegularPeriod : Time → Prop where
  | clock {d : Duration} {n : ℕ} (hd : d.IsMinutes n) : RegularPeriod (ofDuration d)
  | minutes {d : Duration} {n : ℕ} (hn : n ≤ 60) (hd : d.IsMinutes n) :
    RegularPeriod { kind := .minutes, duration := d }

/-- The spans of time that are read. There is a period only after an end, and only if the span does not
go on after it. -/
inductive Timespan.Regular : Timespan → Prop where
  | point {t : Time} (ht : t.Regular) (plus : Bool) : Regular { start := t, plus := plus }
  | range {t u : Time} (ht : t.Regular) (hu : u.Regular) (plus : Bool) :
    Regular { start := t, stop := u, plus := plus }
  | periodic {t u p : Time} (ht : t.Regular) (hu : u.Regular) (hp : p.RegularPeriod) :
    Regular { start := t, stop := u, period := p }

/-- The numbers that four digits denote. -/
def IsFourDigits (y : ℤ) : Prop :=
  0 ≤ y ∧ y ≤ 9999

/-- The ranges of years that are read. -/
inductive YearRange.Regular : YearRange → Prop where
  | single {y : ℤ} (hy : IsFourDigits y) (plus : Bool) : Regular { start := y, plus := plus }
  | range {y z p : ℤ} (hy : IsFourDigits y) (hz : IsFourDigits z) (hp : IsPeriod p) :
    Regular { start := y, stop := z, period := p }

/-- The ranges of weeks that are read. -/
inductive WeekRange.Regular : WeekRange → Prop where
  | single {w : ℤ} (hw : IsTwoDigits w) : Regular { start := w }
  | range {w v p : ℤ} (hw : IsTwoDigits w) (hv : IsTwoDigits v) (hp : IsPeriod p) :
    Regular { start := w, stop := v, period := p }

/-- The dates that are read. -/
inductive Date.Regular : Date → Prop where
  | day {y d : ℤ} {o : DateOffset} (hy : IsFourDigits y) (m : Month) (hd : IsTwoDigits d)
    (ho : o.Canonical) : Regular { year := y, month := some m, day := d, offset := o }
  | movable {y : ℤ} {o : DateOffset} (hy : IsFourDigits y) (e : MovableDate) (ho : o.Canonical) :
    Regular { year := y, movable := some e, offset := o }

/-- The ranges of dates that are read. The last date may be no more than a day, which may be zero and
then is none. -/
inductive DateRange.Regular : DateRange → Prop where
  | single {d : Date} (hd : d.Regular) (plus : Bool) : Regular { start := d, plus := plus }
  | toDate {d e : Date} {p : ℤ} (hd : d.Regular) (he : e.Regular) (hp : IsPeriod p) :
    Regular { start := d, stop := e, period := p }
  | toDay {d : Date} {n p : ℤ} (hd : d.Regular) (hn : IsTwoDigits n) (hp : IsPeriod p) :
    Regular { start := d, stop := { day := n }, period := p }

lemma DateRange.Regular.start {r : DateRange} (h : r.Regular) : r.start.Regular := by
  cases h <;> assumption

lemma Date.Regular.isEmpty {d : Date} (h : d.Regular) : d.isEmpty = false := by
  cases h <;> simp [Date.isEmpty, Date.hasMonth, Date.isMovable]

namespace Part

variable {s r : Text}

/-! ### Numbers that are read -/

/-- A number that is read has at most as many digits as its terminal allows. -/
lemma bounded_of_derives_number {t : Terminal} {few many : ℕ} (hf : 0 < few)
    (ht : ∀ s, t.lexeme s = Terminal.digits few many s) {k : ℤ}
    (h : fieldGrammar.Derives (number t) s (.ok k) r) : 0 ≤ k ∧ k < 10 ^ many := by
  obtain ⟨w, hw, -, rfl⟩ := derives_number_ok.mp h
  have hscan : Terminal.digits few many (skipBlanks s) = some (w, r) := (ht _).symm.trans hw
  obtain ⟨-, hlen, -⟩ := Terminal.exists_digit_of_digits hf hscan
  have : Text.number w < 10 ^ many := (number_lt w).trans_le (Nat.pow_le_pow_right (by decide) hlen)
  exact ⟨Int.natCast_nonneg _, by exact_mod_cast this⟩

lemma isFourDigits_of_derives_year {y : ℤ} (h : fieldGrammar.Derives (number .year) s (.ok y) r) :
    IsFourDigits y := by
  have := bounded_of_derives_number (by decide) (fun _ => rfl) h
  unfold IsFourDigits
  omega

lemma isTwoDigits_of_derives {t : Terminal} (ht : t ∈ [Terminal.dayNumber, .weekNumber, .hours]) {k : ℤ}
    (h : fieldGrammar.Derives (number t) s (.ok k) r) : IsTwoDigits k := by
  simp only [List.mem_cons, List.not_mem_nil, or_false] at ht
  have hlex : ∀ s, t.lexeme s = Terminal.digits 1 2 s := by
    rcases ht with rfl | rfl | rfl <;> exact fun _ => rfl
  exact bounded_of_derives_number (by decide) hlex h

lemma isTwoDigits_of_derives_minutes {k : ℤ}
    (h : fieldGrammar.Derives (number .minutes) s (.ok k) r) : IsTwoDigits k :=
  bounded_of_derives_number (by decide)
    (fun s => (rfl : Terminal.lexeme .minutes s = Terminal.digits 2 2 s)) h

/-- Every period of years, weeks or days that is read can be written. -/
lemma isPeriod_of_derives_opt_step {o : Option ℤ} (h : fieldGrammar.Derives (.opt step) s (.ok o) r) :
    IsPeriod (stepOf o) := by
  cases o with
  | none => exact ⟨le_rfl, isShort_zero⟩
  | some k =>
    obtain ⟨w, p, -, hk⟩ := derives_after_ok.mp (derives_opt_some.mp h)
    exact ⟨nonneg_of_derives_number hk, isShort_of_derives_number hk⟩

/-! ### Times that are read -/

/-- A time of at most 99 hours and 99 minutes on the clock. -/
lemma exists_minutes_of_derives_clock {t : Time} (h : fieldGrammar.Derives clock s (.ok t) r) :
    ∃ (n : ℕ) (d : Duration), n ≤ 6039 ∧ d.IsMinutes n ∧ t = .ofDuration d := by
  obtain ⟨⟨a, k⟩, hseq, ht⟩ := derives_build_ok.mp h
  obtain ⟨q, ha, hk⟩ := derives_seq_ok.mp hseq
  obtain ⟨p, w, ha', -⟩ := derives_before_iff.mp ha
  obtain ⟨ha0, hau⟩ := isTwoDigits_of_derives (by simp) ha'
  obtain ⟨hk0, hku⟩ := isTwoDigits_of_derives_minutes hk
  obtain ⟨d, hd, rfl⟩ := Option.map_eq_some_iff.mp (orError_eq_ok_iff.mp ht)
  refine ⟨(a * 60 + k).toNat, d, by omega, ?_, rfl⟩
  rw [Int.toNat_of_nonneg (by omega)]
  exact Duration.ofHoursMinutes?_eq_some_iff.mp hd

/-- The sign of hours and minutes is the sign of the whole. -/
lemma signed_add (sign : Text) (h k : ℤ) :
    signed sign h * 60 + signed sign k = signed sign (h * 60 + k) := by
  unfold signed
  split
  · ring
  · rfl

lemma regular_of_derives_time {t : Time} (h : fieldGrammar.Derives time s (.ok t) r) :
    t.Regular := by
  rcases derives_alt.mp h with hc | h
  · obtain ⟨n, d, hn, hd, rfl⟩ := exists_minutes_of_derives_clock hc
    exact .clock hn hd
  rcases derives_alt.mp h with he | ho
  · obtain ⟨e, -, rfl⟩ := derives_map_ok.mp he
    exact .event e
  · obtain ⟨⟨e, sign, h, k⟩, hseq, ht⟩ := derives_build_ok.mp ho
    obtain ⟨d, hd, rfl⟩ := exists_of_eventOffset ht
    obtain ⟨_, p, -, hseq⟩ := derives_after_ok.mp hseq
    obtain ⟨q, -, hseq⟩ := derives_seq_ok.mp hseq
    obtain ⟨e', -, hseq⟩ := derives_seq_ok.mp hseq
    obtain ⟨u, hh, hk⟩ := derives_seq_ok.mp hseq
    obtain ⟨_, _, hh', -⟩ := derives_before_iff.mp hh
    obtain ⟨_, _, hk', -⟩ := derives_before_iff.mp hk
    obtain ⟨hh0, hhu⟩ := isTwoDigits_of_derives (by simp) hh'
    obtain ⟨hk0, hku⟩ := isTwoDigits_of_derives_minutes hk'
    refine .offset e ?_ (Duration.ofHoursMinutes?_eq_some_iff.mp hd)
    rw [signed_add, natAbs_signed]
    omega

lemma regular_of_derives_period {p : Time} (h : fieldGrammar.Derives period s (.ok p) r) :
    p.RegularPeriod := by
  rcases derives_period_ok.mp h with hc | ⟨n, -, hp⟩
  · obtain ⟨n, d, -, hd, rfl⟩ := exists_minutes_of_derives_clock hc
    exact .clock hd
  · obtain ⟨d, hd, rfl⟩ := ofMinutes?_eq_some_iff.mp hp
    split
    · exact .clock hd
    · exact .minutes (by omega) hd

lemma regular_of_derives_timespan {x : Timespan} (h : fieldGrammar.Derives timespan s (.ok x) r) :
    x.Regular := by
  rcases derives_timespan_ok.mp h with ⟨t, ht, rfl⟩ | ⟨t, q, w, ht, -, rfl⟩ |
    ⟨t, u, q, w, p, ht, -, hu, rfl⟩ | ⟨t, u, q, w, p, e, w', ht, -, hu, -, rfl⟩ |
    ⟨t, u, y, q, w, p, e, w', e', ht, -, hu, -, hy, rfl⟩
  · exact .point (regular_of_derives_time ht) false
  · exact .point (regular_of_derives_time ht) true
  · exact .range (regular_of_derives_time ht) (regular_of_derives_time hu) false
  · exact .range (regular_of_derives_time ht) (regular_of_derives_time hu) true
  · exact .periodic (regular_of_derives_time ht) (regular_of_derives_time hu)
      (regular_of_derives_period hy)

/-! ### Years, dates and weeks that are read -/

lemma regular_of_readsYears {P : Text → Prop} {x : YearRange} (h : ReadsYears P s x r) :
    x.Regular := by
  rcases h with ⟨y, hy, -, rfl⟩ | ⟨y, q, w, hy, -, rfl⟩ | ⟨y, z, o, q, w, p, e, hy, -, hz, ho, rfl⟩
  · exact .single (isFourDigits_of_derives_year hy) false
  · exact .single (isFourDigits_of_derives_year hy) true
  · exact .range (isFourDigits_of_derives_year hy) (isFourDigits_of_derives_year hz)
      (isPeriod_of_derives_opt_step ho)

lemma regular_of_derives_years {xs : List YearRange} (h : fieldGrammar.Derives years s (.ok xs) r) :
    ∀ x ∈ xs, x.Regular := by
  obtain ⟨⟨x, xs⟩, hseq, rfl⟩ := derives_map_ok.mp h
  obtain ⟨q, hx, hxs⟩ := derives_seq_ok.mp hseq
  exact List.forall_mem_cons.mpr ⟨regular_of_readsYears (derives_firstYearRange_ok.mp hx),
    forall_of_derives_many (fun _ _ _ h => regular_of_readsYears (derives_yearRange_ok.mp h)) hxs⟩

/-- Every shift that is read can be written. -/
lemma canonical_of_opt_dateOffset {o : Option DateOffset}
    (h : fieldGrammar.Derives (.opt dateOffset) s (.ok o) r) : (o.getD {}).Canonical := by
  cases o with
  | none => exact ⟨fun _ => rfl, isShort_zero⟩
  | some o =>
    rcases derives_dateOffset_ok.mp (derives_opt_some.mp h) with ⟨_, _, d, _, _, -, -, ho, rfl⟩ |
      ⟨n, hn, rfl⟩
    · exact ⟨nofun, isShort_of_derives_opt_dayOffset ho⟩
    · exact ⟨fun _ => rfl, isShort_of_derives_dayOffset hn⟩

lemma regular_of_derives_date {d : Date} (h : fieldGrammar.Derives date s (.ok d) r) :
    d.Regular := by
  have hyear : ∀ {y : Option ℤ} {s q}, fieldGrammar.Derives (.opt (number .year)) s (.ok y) q →
      IsFourDigits (y.getD 0) := by
    intro y s q h
    cases y with
    | none => exact ⟨le_rfl, by decide⟩
    | some y => exact isFourDigits_of_derives_year (derives_opt_some.mp h)
  rcases derives_date_ok.mp h with ⟨y, mo, d, o, _, _, _, hy, -, hd, ho, rfl⟩ |
    ⟨y, o, _, _, _, hy, -, ho, rfl⟩
  · refine .day (hyear hy) mo ?_ (canonical_of_opt_dateOffset ho)
    cases d with
    | none => exact ⟨le_rfl, by decide⟩
    | some d => exact isTwoDigits_of_derives (by simp) (derives_opt_some.mp hd)
  · exact .movable (hyear hy) .easter (canonical_of_opt_dateOffset ho)

lemma regular_of_derives_dateRange {x : DateRange}
    (h : fieldGrammar.Derives dateRange s (.ok x) r) : x.Regular := by
  rcases derives_dateRange_ok.mp h with ⟨d, e, o, _, _, _, _, hd, -, he, ho, rfl⟩ |
    ⟨d, n, o, _, _, _, _, hd, -, hn, ho, rfl⟩ | ⟨d, _, _, hd, -, rfl⟩ | ⟨d, hd, rfl⟩
  · exact .toDate (regular_of_derives_date hd) (regular_of_derives_date he)
      (isPeriod_of_derives_opt_step ho)
  · exact .toDay (regular_of_derives_date hd) (isTwoDigits_of_derives (by simp) hn)
      (isPeriod_of_derives_opt_step ho)
  · exact .single (regular_of_derives_date hd) true
  · exact .single (regular_of_derives_date hd) false

lemma regular_of_derives_weekRange {x : WeekRange}
    (h : fieldGrammar.Derives weekRange s (.ok x) r) : x.Regular := by
  rcases derives_weekRange_ok.mp h with ⟨w, hw, rfl⟩ | ⟨w, v, o, _, _, _, _, hw, -, hv, ho, rfl⟩
  · exact .single (isTwoDigits_of_derives (by simp) hw)
  · exact .range (isTwoDigits_of_derives (by simp) hw) (isTwoDigits_of_derives (by simp) hv)
      (isPeriod_of_derives_opt_step ho)

lemma regular_of_derives_weeks {xs : List WeekRange} (h : fieldGrammar.Derives weeks s (.ok xs) r) :
    ∀ x ∈ xs, x.Regular := by
  obtain ⟨w, q, -, h⟩ := derives_after_ok.mp h
  exact (forall_of_derives_listed (fun _ _ _ => regular_of_derives_weekRange) h).2

end Part

end OpeningTimes
