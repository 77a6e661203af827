import OpeningTimes.Proofs.Canonical.Years

/-!
Dates that a field can hold, and how they are read.

* `DateOffset.Canonical`, `Date.Canonical`, `DateRange.Canonical`: what a field can hold;
* `Part.derives_date_iff`, `Part.derives_dateRange_iff`: the text of a date or a range of dates is read
  as that if and only if a field can hold it;
* `Part.derives_dates_iff`: the same for the dates of a rule.

A plus sign after a date would belong to a weekday after it.
-/

namespace OpeningTimes

open Grammar Text

/-! ### What a field can hold -/

/-- The shifts that a field can hold. Without a weekday there is no direction. -/
structure DateOffset.Canonical (o : DateOffset) : Prop where
  positive : o.weekday = none → o.positive = true
  short : isShort o.days = true

/-- The dates that a field can hold. -/
inductive Date.Canonical : Date → Prop where
  | day {y d : ℤ} {o : DateOffset} (hy : y = 0 ∨ IsYear y) (m : Month) (hd : IsTwoDigits d)
    (ho : o.Canonical) : Canonical { year := y, month := some m, day := d, offset := o }
  | movable {y : ℤ} {o : DateOffset} (hy : y = 0 ∨ IsYear y) (e : MovableDate) (ho : o.Canonical) :
    Canonical { year := y, movable := some e, offset := o }

/-- The ranges of dates that a field can hold. The last date may be no more than a day. -/
inductive DateRange.Canonical : DateRange → Prop where
  | single {d : Date} (hd : d.Canonical) (plus : Bool) : Canonical { start := d, plus := plus }
  | toDate {d e : Date} {p : ℤ} (hd : d.Canonical) (he : e.Canonical) (hp : IsPeriod p) :
    Canonical { start := d, stop := e, period := p }
  | toDay {d : Date} {n p : ℤ} (hd : d.Canonical) (hn : IsTwoDigits n) (hne : n ≠ 0)
    (hp : IsPeriod p) :
    Canonical { start := d, stop := { day := n }, period := p }

namespace Date

/-- The dates that can be read, with years and days of any number of digits. -/
inductive Written : Date → Prop where
  | day {y : ℤ} (hy : 0 ≤ y) (m : Month) (d : ℤ) (o : DateOffset) :
    Written { year := y, month := some m, day := d, offset := o }
  | movable {y : ℤ} (hy : 0 ≤ y) (e : MovableDate) (o : DateOffset) :
    Written { year := y, movable := some e, offset := o }

lemma Canonical.written {d : Date} (h : d.Canonical) : d.Written := by
  have hyear : ∀ {y : ℤ}, y = 0 ∨ IsYear y → 0 ≤ y := by
    rintro y (rfl | hy)
    · exact le_rfl
    · exact hy.nonneg
  cases h with
  | day hy m hd ho => exact .day (hyear hy) m _ _
  | movable hy e ho => exact .movable (hyear hy) e _

lemma Written.isEmpty {d : Date} (h : d.Written) : d.isEmpty = false := by
  cases h <;> simp [Date.isEmpty, hasMonth, isMovable]

lemma Written.year_nonneg {d : Date} (h : d.Written) : 0 ≤ d.year := by
  cases h <;> assumption

end Date

/-! ### The texts of dates -/

namespace Date

/-- The text of the year of a date. -/
def yearText (y : ℤ) : Text :=
  if y != 0 then numeral y ++ [' '] else []

/-- The text of the day of a date. -/
def dayText (d : ℤ) : Text :=
  if d != 0 then ' ' :: twoDigits d else []

/-- The text of the shift of a date. -/
def offsetText (o : DateOffset) : Text :=
  if o.isEmpty then [] else ' ' :: o.text

lemma text_day (y : ℤ) (m : Month) (d : ℤ) (o : DateOffset) :
    text { year := y, month := some m, day := d, offset := o } =
      yearText y ++ (m.name ++ (dayText d ++ offsetText o)) := by
  by_cases hy : y = 0 <;> by_cases hd : d = 0 <;> by_cases ho : o.isEmpty = true <;>
    simp [text, spaced, Spaced.wordIf, Spaced.word, SpaceLatch.ask, SpaceLatch.space, hasYear,
      isMovable, hasMonth, hasDay, hasOffset, Month.text, yearText, dayText, offsetText, hy, hd, ho]

lemma text_movable (y : ℤ) (e : MovableDate) (o : DateOffset) :
    text { year := y, movable := some e, offset := o } =
      yearText y ++ (e.name ++ offsetText o) := by
  by_cases hy : y = 0 <;> by_cases ho : o.isEmpty = true <;>
    simp [text, spaced, Spaced.wordIf, Spaced.word, SpaceLatch.ask, SpaceLatch.space, hasYear,
      isMovable, hasOffset, MovableDate.text, yearText, offsetText, hy, ho]

end Date

/-! ### The names of months and movable days -/

lemma Month.ofName?_name (mo : Month) : Month.ofName? mo.name = some mo := by
  cases mo <;> decide

lemma Month.isWord_name (mo : Month) : Terminal.IsWord Terminal.monthWords mo.name := by
  cases mo <;> decide

lemma MovableDate.isWord_name (e : MovableDate) : Terminal.IsWord Terminal.movableWords e.name := by
  cases e
  decide

namespace Part

variable {m r : Text}

/-! ### Shifts -/

/-- The two forms of a shift. -/
lemma derives_dateOffset_ok {s : Text} {x : DateOffset} :
    fieldGrammar.Derives dateOffset s (.ok x) r ↔
      (∃ sign q d p o, Terminal.sign.scan s = some (sign, q) ∧
        fieldGrammar.Derives weekday q (.ok d) p ∧ fieldGrammar.Derives (.opt dayOffset) p (.ok o) r ∧
        x = { weekday := some d, positive := sign == ['+'], days := o.getD 0 }) ∨
      ∃ n, fieldGrammar.Derives dayOffset s (.ok n) r ∧ x = { days := n } := by
  constructor
  · intro h
    rcases derives_alt.mp h with h | h
    · obtain ⟨⟨sign, d, o⟩, hseq, rfl⟩ := derives_map_ok.mp h
      obtain ⟨q, hs, hq⟩ := derives_seq_ok.mp hseq
      obtain ⟨p, hd, ho⟩ := derives_seq_ok.mp hq
      exact Or.inl ⟨sign, q, d, p, o, derives_scan_iff.mp hs, hd, ho, rfl⟩
    · obtain ⟨n, hn, rfl⟩ := derives_map_ok.mp h
      exact Or.inr ⟨n, hn, rfl⟩
  · rintro (⟨sign, q, d, p, o, hs, hd, ho, rfl⟩ | ⟨n, hn, rfl⟩)
    · exact .left (derives_map_ok.mpr ⟨(sign, d, o), derives_seq_ok.mpr
        ⟨q, derives_scan_iff.mpr hs, derives_seq_ok.mpr ⟨p, hd, ho⟩⟩, rfl⟩)
    · exact .right (derives_map_ok.mpr ⟨n, hn, rfl⟩)

/-- The text of a shift to a weekday. -/
lemma offsetText_weekday (d : Weekday) (positive : Bool) (n : ℤ) :
    Date.offsetText { weekday := some d, positive := positive, days := n } =
      ' ' :: (if positive then '+' else '-') :: (d.name ++ DayOffset.text n true) := by
  simp [Date.offsetText, DateOffset.isEmpty, DateOffset.hasWeekday, DateOffset.text, Weekday.text]

/-- The text of a shift by days. -/
lemma offsetText_days {n : ℤ} (hn : n ≠ 0) (positive : Bool) :
    Date.offsetText { positive := positive, days := n } = ' ' :: DayOffset.text n false := by
  simp [Date.offsetText, DateOffset.isEmpty, DateOffset.hasWeekday, DateOffset.hasDays,
    DateOffset.text, hn]

/-- The text of a shift that may be missing is read as what it is, if no number of days follows. -/
lemma derives_opt_dateOffset_iff {x : DateOffset} (hm : Breaks m)
    (ha : ¬ fieldGrammar.Begins dayOffset (fun _ => True) m) :
    (∃ o, fieldGrammar.Derives (.opt dateOffset) (Date.offsetText x ++ m) (.ok o) r ∧
      o.getD {} = x) ↔ x.Canonical ∧ r = m := by
  have hsign : ∀ {b : Bool} {s w q}, Terminal.sign.scan (' ' :: (if b then '+' else '-') :: s) =
      some (w, q) ↔ w = [if b then '+' else '-'] ∧ q = s := by
    intro b s w q
    rw [scan_space]
    exact scan_sign_iff (by cases b <;> simp)
  have hpositive : ∀ b : Bool, ([if b then '+' else '-'] == ['+']) = b := by
    decide
  constructor
  · rintro ⟨_ | o, h, rfl⟩
    · exact ⟨⟨fun _ => rfl, isShort_zero⟩, derives_opt_none.mp h⟩
    · change fieldGrammar.Derives (.opt dateOffset) (Date.offsetText o ++ m) (.ok (some o)) r at h
      change o.Canonical ∧ r = m
      rcases derives_dateOffset_ok.mp (derives_opt_some.mp h) with
        ⟨sign, q, d, p, o, hs, hd, ho, rfl⟩ | ⟨n, hn, rfl⟩
      · -- a shift to a weekday, possibly with days after it
        rw [offsetText_weekday, List.cons_append, List.cons_append, List.append_assoc] at hs
        obtain ⟨-, rfl⟩ := hsign.mp hs
        obtain ⟨-, rfl⟩ := (derives_weekday_iff (breaks_dayOffset_text _ hm)).mp hd
        obtain ⟨hshort, hr⟩ := (derives_opt_dayOffset_iff true hm ha).mp ⟨o, ho, rfl⟩
        exact ⟨⟨nofun, hshort⟩, hr⟩
      · -- a shift by days alone, which is not written if there are none
        have hn0 : n ≠ 0 := by
          rintro rfl
          exact ha ⟨_, r, hn, trivial⟩
        rw [offsetText_days hn0, List.cons_append, derives_space_iff rfl,
          derives_dayOffset_iff hn0 false hm] at hn
        exact ⟨⟨fun _ => rfl, hn.1⟩, hn.2.2⟩
  · rintro ⟨⟨hpos, hshort⟩, rfl⟩
    obtain ⟨_ | d, positive, n⟩ := x
    · obtain rfl : positive = true := hpos rfl
      by_cases hn0 : n = 0
      · subst hn0
        exact ⟨none, derives_opt_none.mpr rfl, rfl⟩
      · refine ⟨some { days := n }, derives_opt_some.mpr (derives_dateOffset_ok.mpr
          (Or.inr ⟨n, ?_, rfl⟩)), rfl⟩
        rw [offsetText_days hn0, List.cons_append, derives_space_iff rfl]
        exact (derives_dayOffset_iff hn0 false hm).mpr ⟨hshort, rfl, rfl⟩
    · obtain ⟨o, ho, rfl⟩ := (derives_opt_dayOffset_iff true hm ha).mpr ⟨hshort, rfl⟩
      rw [offsetText_weekday, List.cons_append, List.cons_append, List.append_assoc]
      refine ⟨some { weekday := some d, positive := positive, days := o.getD 0 }, derives_opt_some.mpr
        (derives_dateOffset_ok.mpr (Or.inl ⟨_, _, d, _, o, hsign.mpr ⟨rfl, rfl⟩,
          (derives_weekday_iff (breaks_dayOffset_text _ hm)).mpr ⟨rfl, rfl⟩, ho, ?_⟩)), rfl⟩
      rw [hpositive]

/-! ### Dates -/

/-- What may follow a date in a written text: its end, no number other than the hours of a clock time,
and no number of days. -/
structure EndsDate (m : Text) : Prop where
  breaks : Breaks m
  sparesClock : SparesClock m
  noDay : ∀ w q, Terminal.dayNumber.scan m = some (w, q) → ¬ SparesClock q
  noOffset : ¬ fieldGrammar.Begins dayOffset (fun _ => True) m

/-- A shift that is written begins with a sign. -/
lemma exists_sign_of_offsetText {o : DateOffset} (ho : o.isEmpty = false) :
    ∃ c s, c ∈ ['+', '-'] ∧ Date.offsetText o = ' ' :: c :: s := by
  obtain ⟨_ | d, positive, n⟩ := o
  · have hn : n ≠ 0 := by simpa [DateOffset.isEmpty, DateOffset.hasDays, DateOffset.hasWeekday] using ho
    rw [offsetText_days hn, ← List.append_nil (DayOffset.text n false), dayOffset_text_eq hn]
    refine ⟨dayOffsetSign n, _, ?_, rfl⟩
    unfold dayOffsetSign
    split <;> simp
  · rw [offsetText_weekday]
    exact ⟨_, _, by cases positive <;> simp, rfl⟩

lemma avoids_offsetText {o : DateOffset} (ho : o.isEmpty = false) :
    Avoids [.colon, .oneDigit, .twoDigits] (Date.offsetText o ++ m) := by
  obtain ⟨c, s, hc, hs⟩ := exists_sign_of_offsetText ho
  have hmark : ∀ c ∈ ['+', '-'], isBlank c = false ∧ isDigit c = false ∧ isLetter c = false ∧
      Opening.ofMark c ∉ [.colon, .oneDigit, .twoDigits] := by
    decide
  obtain ⟨hb, hd, hl, hm⟩ := hmark c hc
  rw [hs]
  exact .space (.cons hb hd hl hm)

lemma offsetText_of_isEmpty {o : DateOffset} (ho : o.isEmpty = true) : Date.offsetText o = [] :=
  if_pos ho

lemma breaks_offsetText (o : DateOffset) (hm : Breaks m) : Breaks (Date.offsetText o ++ m) := by
  cases ho : o.isEmpty with
  | true => rwa [offsetText_of_isEmpty ho]
  | false =>
    obtain ⟨c, s, -, hs⟩ := exists_sign_of_offsetText ho
    rw [hs]
    exact breaks_cons rfl rfl

/-- The day of a date is read as that day, if no other number follows that would be a day. -/
lemma derives_opt_day_iff {d : ℤ} {s q : Text} (hs : Breaks s) (hq : SparesClock q)
    (hn : ∀ w q, Terminal.dayNumber.scan s = some (w, q) → ¬ SparesClock q) :
    (∃ o : Option ℤ, fieldGrammar.Derives (.opt (number .dayNumber)) (Date.dayText d ++ s) (.ok o) q ∧
      o.getD 0 = d) ↔ IsTwoDigits d ∧ q = s := by
  by_cases hd : d = 0
  · subst hd
    constructor
    · rintro ⟨_ | k, h, -⟩
      · exact ⟨⟨le_rfl, by decide⟩, derives_opt_none.mp h⟩
      · obtain ⟨w, hw, -, -⟩ := derives_number_ok.mp (derives_opt_some.mp h)
        exact absurd hq (hn _ _ hw)
    · exact fun h => ⟨none, derives_opt_none.mpr h.2, rfl⟩
  · have htext : Date.dayText d ++ s = ' ' :: (twoDigits d ++ s) := by
      simp [Date.dayText, hd]
    rw [htext]
    constructor
    · rintro ⟨_ | k, h, rfl⟩
      · exact absurd rfl hd
      · have hk := (derives_space_iff rfl).mp (derives_opt_some.mp h)
        obtain ⟨hd', -, rfl⟩ := (derives_isTwoDigits_iff rfl (nonneg_of_derives_number hk) hs).mp hk
        exact ⟨hd', rfl⟩
    · rintro ⟨hd', rfl⟩
      exact ⟨some d, derives_opt_some.mpr ((derives_space_iff rfl).mpr
        ((derives_isTwoDigits_iff rfl hd'.1 hs).mpr ⟨hd', rfl, rfl⟩)), rfl⟩

/-- The year of a date is read as that year, if no other year follows. -/
lemma derives_opt_year_iff {y : ℤ} {s q : Text} (hs : Avoids [.fourDigits] s) :
    (∃ o : Option ℤ, fieldGrammar.Derives (.opt (number .year)) (Date.yearText y ++ s) (.ok o) q ∧
      o.getD 0 = y) ↔ (y = 0 ∨ IsYear y) ∧ q = (if y = 0 then s else ' ' :: s) := by
  by_cases hy : y = 0
  · subst hy
    constructor
    · rintro ⟨_ | k, h, -⟩
      · exact ⟨Or.inl rfl, derives_opt_none.mp h⟩
      · exact (hs.not_begins (g := number .year) (P := fun _ => True) rfl (by decide)
          ⟨_, q, derives_opt_some.mp h, trivial⟩).elim
    · exact fun h => ⟨none, derives_opt_none.mpr h.2, rfl⟩
  · have htext : Date.yearText y ++ s = numeral y ++ ' ' :: s := by
      simp [Date.yearText, hy]
    have hb : Breaks (' ' :: s) := breaks_cons rfl rfl
    rw [htext, if_neg hy]
    constructor
    · rintro ⟨_ | k, h, rfl⟩
      · exact absurd rfl hy
      · have hk := derives_opt_some.mp h
        obtain ⟨hy', -, rfl⟩ := (derives_year_iff (nonneg_of_derives_number hk) hb).mp hk
        exact ⟨Or.inr hy', rfl⟩
    · rintro ⟨hy', rfl⟩
      have hy' := hy'.resolve_left hy
      exact ⟨some y, derives_opt_some.mpr ((derives_year_iff hy'.nonneg hb).mpr ⟨hy', rfl, rfl⟩), rfl⟩

/-- The two forms of a date. -/
lemma derives_date_ok {s : Text} {x : Date} :
    fieldGrammar.Derives date s (.ok x) r ↔
      (∃ y mo d o q p e, fieldGrammar.Derives (.opt (number .year)) s (.ok y) q ∧
        fieldGrammar.Derives month q (.ok mo) p ∧
        fieldGrammar.Derives (.opt (number .dayNumber)) p (.ok d) e ∧
        fieldGrammar.Derives (.opt dateOffset) e (.ok o) r ∧
        x = { year := y.getD 0, month := some mo, day := d.getD 0, offset := o.getD {} }) ∨
      ∃ y o q w p, fieldGrammar.Derives (.opt (number .year)) s (.ok y) q ∧
        Terminal.easter.scan q = some (w, p) ∧ fieldGrammar.Derives (.opt dateOffset) p (.ok o) r ∧
        x = { year := y.getD 0, movable := some .easter, offset := o.getD {} } := by
  constructor
  · intro h
    rcases derives_alt.mp h with h | h
    · obtain ⟨⟨y, mo, d, o⟩, hseq, rfl⟩ := derives_map_ok.mp h
      obtain ⟨q, hy, hq⟩ := derives_seq_ok.mp hseq
      obtain ⟨p, hmo, hp⟩ := derives_seq_ok.mp hq
      obtain ⟨e, hd, ho⟩ := derives_seq_ok.mp hp
      exact Or.inl ⟨y, mo, d, o, q, p, e, hy, hmo, hd, ho, rfl⟩
    · obtain ⟨⟨y, w, o⟩, hseq, rfl⟩ := derives_map_ok.mp h
      obtain ⟨q, hy, hq⟩ := derives_seq_ok.mp hseq
      obtain ⟨p, hw, ho⟩ := derives_seq_ok.mp hq
      exact Or.inr ⟨y, o, q, w, p, hy, derives_scan_iff.mp hw, ho, rfl⟩
  · rintro (⟨y, mo, d, o, q, p, e, hy, hmo, hd, ho, rfl⟩ | ⟨y, o, q, w, p, hy, hw, ho, rfl⟩)
    · exact .left (derives_map_ok.mpr ⟨(y, mo, d, o), derives_seq_ok.mpr
        ⟨q, hy, derives_seq_ok.mpr ⟨p, hmo, derives_seq_ok.mpr ⟨e, hd, ho⟩⟩⟩, rfl⟩)
    · exact .right (derives_map_ok.mpr ⟨(y, w, o), derives_seq_ok.mpr
        ⟨q, hy, derives_seq_ok.mpr ⟨p, derives_scan_iff.mpr hw, ho⟩⟩, rfl⟩)

/-- The name of a month is read as that month, after the space that may follow a year. -/
lemma derives_month_iff {y : ℤ} {a b : Month} (hm : Breaks m) :
    fieldGrammar.Derives month (if y = 0 then a.name ++ m else ' ' :: (a.name ++ m)) (.ok b) r ↔
      b = a ∧ r = m := by
  have h : fieldGrammar.Derives month (a.name ++ m) (.ok b) r ↔ b = a ∧ r = m :=
    derives_name_iff a.ofName?_name (t := .month) rfl a.isWord_name hm
  split
  · exact h
  · rw [derives_space_iff rfl, h]

/-- The name of a movable day is read as it is, after the space that may follow a year. -/
lemma scan_easter_iff {y : ℤ} {e : MovableDate} {w : Text} (hm : Breaks m) :
    Terminal.easter.scan (if y = 0 then e.name ++ m else ' ' :: (e.name ++ m)) = some (w, r) ↔
      w = e.name ∧ r = m := by
  have h : Terminal.easter.scan (e.name ++ m) = some (w, r) ↔ w = e.name ∧ r = m :=
    Terminal.scan_word_iff rfl e.isWord_name hm
  split
  · exact h
  · rw [scan_space, h]

lemma opening_month (mo : Month) (hm : Breaks m) : Opening.of (mo.name ++ m) = .month :=
  Terminal.opening_of_isWord (t := .month) rfl mo.isWord_name hm (by decide)

lemma opening_easter (e : MovableDate) (hm : Breaks m) : Opening.of (e.name ++ m) = .easter :=
  Terminal.opening_of_isWord (t := .easter) rfl e.isWord_name hm (by decide)

lemma breaks_dayText (d : ℤ) {s : Text} (hs : Breaks s) : Breaks (Date.dayText d ++ s) := by
  unfold Date.dayText
  split
  · exact breaks_cons rfl rfl
  · exact hs

lemma avoids_fourDigits_month (mo : Month) (hm : Breaks m) : Avoids [.fourDigits] (mo.name ++ m) := by
  rw [Avoids, opening_month mo hm]
  decide

lemma avoids_fourDigits_easter (e : MovableDate) (hm : Breaks m) :
    Avoids [.fourDigits] (e.name ++ m) := by
  rw [Avoids, opening_easter e hm]
  decide

/-- No day is read from the shift of a date or from what follows the date. -/
lemma EndsDate.noDay_offsetText (hm : EndsDate m) (o : DateOffset) (w q : Text)
    (h : Terminal.dayNumber.scan (Date.offsetText o ++ m) = some (w, q)) : ¬ SparesClock q := by
  cases ho : o.isEmpty with
  | true =>
    rw [offsetText_of_isEmpty ho] at h
    exact hm.noDay w q h
  | false =>
    exact (((avoids_offsetText ho).mono (L := [.oneDigit, .twoDigits]) (by decide)).not_scan
      (t := .dayNumber) (by decide) h).elim

/-- A shift of a date, whether it is there or not, does not make a clock time of the day before it. -/
lemma sparesClock_of_opt_dateOffset {s : Text} {o : Option DateOffset} (hr : AfterDate r)
    (h : fieldGrammar.Derives (.opt dateOffset) s (.ok o) r) : SparesClock s :=
  .of_begins_opt_dateOffset ⟨_, r, h, hr⟩

/-- A date that is read from its own text is one that a field can hold. -/
lemma canonical_of_derives_date {x : Date} (hm : EndsDate m) (hr : AfterDate r)
    (h : fieldGrammar.Derives date (x.text ++ m) (.ok x) r) : x.Canonical ∧ r = m := by
  have hoffset := fun o => breaks_offsetText o hm.breaks
  rcases derives_date_ok.mp h with ⟨y, mo, d, o, q, p, e, hy, hmo, hd, ho, rfl⟩ |
    ⟨y, o, q, w, p, hy, hw, ho, rfl⟩
  · rw [Date.text_day] at hy
    simp only [List.append_assoc] at hy
    have hb := breaks_dayText (d.getD 0) (hoffset (o.getD {}))
    obtain ⟨hy', rfl⟩ := (derives_opt_year_iff (avoids_fourDigits_month mo hb)).mp ⟨y, hy, rfl⟩
    obtain ⟨-, rfl⟩ := (derives_month_iff hb).mp hmo
    obtain ⟨hd', rfl⟩ := (derives_opt_day_iff (hoffset _) (sparesClock_of_opt_dateOffset hr ho)
      (hm.noDay_offsetText _)).mp ⟨d, hd, rfl⟩
    obtain ⟨ho', rfl⟩ := (derives_opt_dateOffset_iff hm.breaks hm.noOffset).mp ⟨o, ho, rfl⟩
    exact ⟨.day hy' mo hd' ho', rfl⟩
  · rw [Date.text_movable] at hy
    simp only [List.append_assoc] at hy
    obtain ⟨hy', rfl⟩ :=
      (derives_opt_year_iff (avoids_fourDigits_easter .easter (hoffset (o.getD {})))).mp ⟨y, hy, rfl⟩
    obtain ⟨-, rfl⟩ := (scan_easter_iff (hoffset _)).mp hw
    obtain ⟨ho', rfl⟩ := (derives_opt_dateOffset_iff hm.breaks hm.noOffset).mp ⟨o, ho, rfl⟩
    exact ⟨.movable hy' .easter ho', rfl⟩

/-- A date that a field can hold is read from its own text. -/
lemma derives_date_of_canonical {x : Date} (hm : EndsDate m) (hr : AfterDate m) (hx : x.Canonical) :
    fieldGrammar.Derives date (x.text ++ m) (.ok x) m := by
  have hoffset := fun o => breaks_offsetText o hm.breaks
  rw [derives_date_ok]
  cases hx with
  | @day y d o hy mo hd ho =>
    have hb := breaks_dayText d (hoffset o)
    obtain ⟨o, ho', rfl⟩ := (derives_opt_dateOffset_iff hm.breaks hm.noOffset).mpr ⟨ho, rfl⟩
    obtain ⟨d, hd', rfl⟩ := (derives_opt_day_iff (hoffset _) (sparesClock_of_opt_dateOffset hr ho')
      (hm.noDay_offsetText _)).mpr ⟨hd, rfl⟩
    obtain ⟨y, hy', rfl⟩ := (derives_opt_year_iff (avoids_fourDigits_month mo hb)).mpr ⟨hy, rfl⟩
    rw [Date.text_day]
    simp only [List.append_assoc]
    exact Or.inl ⟨y, mo, d, o, _, _, _, hy', (derives_month_iff hb).mpr ⟨rfl, rfl⟩, hd', ho', rfl⟩
  | @movable y o hy e ho =>
    obtain ⟨o, ho', rfl⟩ := (derives_opt_dateOffset_iff hm.breaks hm.noOffset).mpr ⟨ho, rfl⟩
    obtain ⟨y, hy', rfl⟩ :=
      (derives_opt_year_iff (avoids_fourDigits_easter e (hoffset (o.getD {})))).mpr ⟨hy, rfl⟩
    rw [Date.text_movable]
    simp only [List.append_assoc]
    exact Or.inr ⟨y, o, _, _, _, hy', (scan_easter_iff (hoffset _)).mpr ⟨rfl, rfl⟩, ho',
      by cases e; rfl⟩

/-- The text of a date is read as that date if and only if a field can hold it. -/
theorem derives_date_iff {x : Date} (hm : EndsDate m) (hr : AfterDate r) :
    fieldGrammar.Derives date (x.text ++ m) (.ok x) r ↔ x.Canonical ∧ r = m := by
  constructor
  · exact canonical_of_derives_date hm hr
  · rintro ⟨hx, rfl⟩
    exact derives_date_of_canonical hm hr hx

/-! ### Ranges of dates -/

/-- What may follow a range of dates in a written text. -/
structure EndsDates (m : Text) : Prop where
  breaks : Breaks m
  after : AfterDateRange m

/-- No weekday stands at the beginning of a text, whatever white space is before it. -/
def EndsOpen (m : Text) : Prop :=
  Terminal.startsWith Terminal.weekdayWords (m.dropWhile isSpace) = false

lemma EndsDates.comma {s : Text} : EndsDates (',' :: s) where
  breaks := breaks_cons rfl rfl
  after := .of_comma ((scan_cons_iff (t := .comma) rfl rfl).mpr ⟨rfl, rfl⟩)

lemma EndsDates.endsDate (h : EndsDates m) : EndsDate m where
  breaks := h.breaks
  sparesClock := h.after.sparesClock
  noDay := h.after.noDay
  noOffset := (h.after.avoids.mono (L := [.plus, .dash]) (by decide)).not_begins rfl (by decide)

/-- After a sign a date ends, if no number of days follows. -/
lemma EndsDate.sign {c : Char} {s : Text} (hc : c ∈ ['+', '-'])
    (hs : ∀ w q, Terminal.number.scan s = some (w, q) → Avoids [.day] q) : EndsDate (c :: s) := by
  have hmark : ∀ c ∈ ['+', '-'], isBlank c = false ∧ isDigit c = false ∧ isLetter c = false ∧
      Opening.ofMark c ∉ [.colon, .oneDigit, .twoDigits] := by
    decide
  obtain ⟨hb, hd, hl, ho⟩ := hmark c hc
  have ha : Avoids [.colon, .oneDigit, .twoDigits] (c :: s) := .cons hb hd hl ho
  refine ⟨breaks_cons hd hl, .of_avoids (ha.mono (by decide)),
    fun w q h => ((ha.mono (L := [.oneDigit, .twoDigits]) (by decide)).not_scan (t := .dayNumber)
      (by decide) h).elim, fun h => ?_⟩
  simp only [dayOffset, number, begins_build, begins_seq] at h
  obtain ⟨w, q, hw, hn⟩ := begins_scan.mp h
  obtain ⟨-, rfl⟩ := (scan_sign_iff hc).mp hw
  obtain ⟨w', q', hw', hd⟩ := begins_scan.mp hn
  exact (hs w' q' hw').not_begins (g := .terminal .dayWord) rfl (by decide) hd

lemma EndsDates.endsDate_periodText (h : EndsDates m) (p : ℤ) : EndsDate (Period.text p ++ m) := by
  by_cases hp : p = 0
  · subst hp
    exact h.endsDate
  · have ha : ∀ {s}, Avoids [.colon, .oneDigit, .twoDigits, .plus, .dash] ('/' :: s) :=
      .cons rfl rfl rfl (by decide)
    rw [Period.text_of_ne hp]
    exact ⟨breaks_cons rfl rfl, .of_avoids (ha.mono (by decide)),
      fun w q hq => ((ha.mono (L := [.oneDigit, .twoDigits]) (by decide)).not_scan
        (t := .dayNumber) (by decide) hq).elim,
      (ha.mono (L := [.plus, .dash]) (by decide)).not_begins rfl (by decide)⟩

/-- A date that has been read is one that can be. -/
lemma written_of_derives_date {d : Date} {s : Text} (h : fieldGrammar.Derives date s (.ok d) r) :
    d.Written := by
  have hyear : ∀ {y : Option ℤ} {s q}, fieldGrammar.Derives (.opt (number .year)) s (.ok y) q →
      0 ≤ y.getD 0 := by
    rintro (_ | y) s q h
    · exact le_rfl
    · exact nonneg_of_derives_number (derives_opt_some.mp h)
  rcases derives_date_ok.mp h with ⟨y, mo, d, o, _, _, _, hy, -, -, -, rfl⟩ |
      ⟨y, o, _, _, _, hy, -, -, rfl⟩
  · exact .day (hyear hy) mo _ _
  · exact .movable (hyear hy) .easter _

/-- The text of a date is that of its year and something that opens with a month or a movable day. -/
lemma exists_text_of_written {d : Date} (h : d.Written) :
    ∃ s, d.text = Date.yearText d.year ++ s ∧
      ∀ m, Breaks m → Opening.of (s ++ m) ∈ [.month, .easter] := by
  cases h with
  | day hy mo d o =>
    refine ⟨_, Date.text_day _ mo d o, fun m hm => ?_⟩
    simp only [List.append_assoc]
    rw [opening_month mo (breaks_dayText _ (breaks_offsetText _ hm))]
    decide
  | movable hy e o =>
    refine ⟨_, Date.text_movable _ e o, fun m hm => ?_⟩
    simp only [List.append_assoc]
    rw [opening_easter _ (breaks_offsetText _ hm)]
    decide

/-- The text of a date does not begin with a number of days. -/
lemma avoids_day_of_dateText {d : Date} {s w q : Text} (hs : Breaks s) (hd : d.Written)
    (hn : Terminal.number.scan (d.text ++ s) = some (w, q)) : Avoids [.day] q := by
  obtain ⟨u, hu, ho⟩ := exists_text_of_written hd
  rw [hu, List.append_assoc] at hn
  by_cases hy0 : d.year = 0
  · rw [hy0] at hn
    exact ((Avoids.of_mem (L := Opening.numbers) (ho s hs) (by decide)).not_scan (t := .number)
      (by decide) hn).elim
  · obtain ⟨n, hn0⟩ := Int.eq_ofNat_of_zero_le hd.year_nonneg
    rw [Date.yearText, if_pos (bne_iff_ne.mpr hy0), hn0, numeral_natCast,
      List.append_assoc, List.singleton_append, Terminal.scan_number_iff
      (fun c => isDigit_of_mem_digits) digits_ne_nil (breaks_cons rfl rfl)] at hn
    rw [hn.2]
    exact .space (.of_mem (ho s hs) (by decide))

/-- The four forms of a range of dates. -/
lemma derives_dateRange_ok {s : Text} {x : DateRange} :
    fieldGrammar.Derives dateRange s (.ok x) r ↔
      (∃ d e o q w p u, fieldGrammar.Derives date s (.ok d) q ∧ Terminal.dash.scan q = some (w, p) ∧
        fieldGrammar.Derives date p (.ok e) u ∧ fieldGrammar.Derives (.opt step) u (.ok o) r ∧
        x = { start := d, stop := e, period := stepOf o }) ∨
      (∃ d n o q w p u, fieldGrammar.Derives date s (.ok d) q ∧ Terminal.dash.scan q = some (w, p) ∧
        fieldGrammar.Derives (number .dayNumber) p (.ok n) u ∧
        fieldGrammar.Derives (.opt step) u (.ok o) r ∧
        x = { start := d, stop := { day := n }, period := stepOf o }) ∨
      (∃ d q w, fieldGrammar.Derives date s (.ok d) q ∧ Terminal.openEnd.scan q = some (w, r) ∧
        x = { start := d, plus := true }) ∨
      ∃ d, fieldGrammar.Derives date s (.ok d) r ∧ x = { start := d } := by
  constructor
  · intro h
    rcases derives_alt.mp h with h | h
    · obtain ⟨⟨d, e, o⟩, hseq, rfl⟩ := derives_map_ok.mp h
      obtain ⟨q, hd, hq⟩ := derives_seq_ok.mp hseq
      obtain ⟨u, he, ho⟩ := derives_seq_ok.mp hq
      obtain ⟨w, p, hw, he'⟩ := derives_after_ok.mp he
      exact Or.inl ⟨d, e, o, q, w, p, u, hd, hw, he', ho, rfl⟩
    rcases derives_alt.mp h with h | h
    · obtain ⟨⟨d, n, o⟩, hseq, rfl⟩ := derives_map_ok.mp h
      obtain ⟨q, hd, hq⟩ := derives_seq_ok.mp hseq
      obtain ⟨u, hn, ho⟩ := derives_seq_ok.mp hq
      obtain ⟨w, p, hw, hn'⟩ := derives_after_ok.mp hn
      exact Or.inr (Or.inl ⟨d, n, o, q, w, p, u, hd, hw, hn', ho, rfl⟩)
    rcases derives_alt.mp h with h | h
    · obtain ⟨d, hd, rfl⟩ := derives_map_ok.mp h
      obtain ⟨q, w, hd', hw⟩ := derives_before_iff.mp hd
      exact Or.inr (Or.inr (Or.inl ⟨d, q, w, hd', hw, rfl⟩))
    · obtain ⟨d, hd, rfl⟩ := derives_map_ok.mp h
      exact Or.inr (Or.inr (Or.inr ⟨d, hd, rfl⟩))
  · rintro (⟨d, e, o, q, w, p, u, hd, hw, he, ho, rfl⟩ | ⟨d, n, o, q, w, p, u, hd, hw, hn, ho, rfl⟩ |
      ⟨d, q, w, hd, hw, rfl⟩ | ⟨d, hd, rfl⟩)
    · exact .left (derives_map_ok.mpr ⟨(d, e, o), derives_seq_ok.mpr ⟨q, hd, derives_seq_ok.mpr
        ⟨u, derives_after_ok.mpr ⟨w, p, hw, he⟩, ho⟩⟩, rfl⟩)
    · exact .right (.left (derives_map_ok.mpr ⟨(d, n, o), derives_seq_ok.mpr ⟨q, hd,
        derives_seq_ok.mpr ⟨u, derives_after_ok.mpr ⟨w, p, hw, hn⟩, ho⟩⟩, rfl⟩))
    · exact .right (.right (.left (derives_map_ok.mpr
        ⟨d, derives_before_iff.mpr ⟨q, w, hd, hw⟩, rfl⟩)))
    · exact .right (.right (.right (derives_map_ok.mpr ⟨d, hd, rfl⟩)))

end Part

namespace DateRange

variable {d e : Date}

lemma text_single (hd : d.isEmpty = false) (plus : Bool) :
    text { start := d, plus := plus } = d.text ++ if plus then ['+'] else [] := by
  simp [text, hasStart, hasStop, hd, show Date.isEmpty {} = true from rfl]

lemma text_toDate (hd : d.isEmpty = false) (he : e.isEmpty = false) (p : ℤ) :
    text { start := d, stop := e, period := p } = d.text ++ '-' :: (e.text ++ Period.text p) := by
  simp [text, hasStart, hasStop, hd, he]

lemma text_toDay (hd : d.isEmpty = false) {n : ℤ} (hn : n ≠ 0) (p : ℤ) :
    text { start := d, stop := { day := n }, period := p } =
      d.text ++ '-' :: (twoDigits n ++ Period.text p) := by
  have hne : Date.isEmpty { day := n } = false := by
    simp [Date.isEmpty, Date.hasDay, hn]
  have htext : Date.text { day := n } = twoDigits n := by
    simp [Date.text, Date.spaced, Date.hasYear, Date.isMovable, Date.hasMonth, Date.hasDay,
      Date.hasOffset, DateOffset.isEmpty, DateOffset.hasDays, DateOffset.hasWeekday, hn,
      Spaced.wordIf, Spaced.word, SpaceLatch.ask, SpaceLatch.space]
  rw [text_toDate hd hne, htext]

lemma text_toDay_zero (hd : d.isEmpty = false) (p : ℤ) :
    text { start := d, period := p } = d.text := by
  simp [text, hasStart, hasStop, hd, show Date.isEmpty {} = true from rfl]

end DateRange

namespace Part

variable {m r : Text}

/-- A plus sign leaves a range open if no weekday follows. -/
lemma scan_openEnd_iff {w : Text} :
    Terminal.openEnd.scan ('+' :: m) = some (w, r) ↔ EndsOpen m ∧ w = ['+'] ∧ r = m := by
  have hscan : ∀ {s}, Terminal.openEnd.scan s = some (w, r) ↔
      Terminal.plus.scan s = some (w, r) ∧ EndsOpen r := by
    intro s
    unfold EndsOpen
    rw [← Bool.not_eq_true']
    exact Option.filter_eq_some_iff
  rw [hscan, scan_cons_iff (t := .plus) rfl rfl]
  constructor
  · rintro ⟨⟨rfl, rfl⟩, hr⟩
    exact ⟨hr, rfl, rfl⟩
  · rintro ⟨hr, rfl, rfl⟩
    exact ⟨⟨rfl, rfl⟩, hr⟩

/-- A day of the month at the end of a range is no number of days. -/
lemma avoids_day_of_dayNumber {n p : ℤ} {w q : Text} (hn : 0 ≤ n) (hm : EndsDates m)
    (h : Terminal.number.scan (twoDigits n ++ (Period.text p ++ m)) = some (w, q)) : Avoids [.day] q := by
  obtain ⟨n, rfl⟩ := Int.eq_ofNat_of_zero_le hn
  rw [twoDigits, padded_natCast, Terminal.scan_number_iff (fun c => isDigit_of_mem_fill) fill_ne_nil
    (breaks_periodText p hm.breaks)] at h
  rw [h.2]
  by_cases hp : p = 0
  · subst hp
    exact hm.after.avoids.mono (by decide)
  · rw [Period.text_of_ne hp]
    exact .cons rfl rfl rfl (by decide)

/-- After a date there may be a dash and another date. -/
lemma EndsDates.endsDate_toDate {e : Date} (hm : EndsDates m) (he : e.Written) (p : ℤ) :
    EndsDate ('-' :: (e.text ++ (Period.text p ++ m))) :=
  .sign (by decide) fun _ _ => avoids_day_of_dateText (breaks_periodText _ hm.breaks) he

/-- Or a dash and a day. -/
lemma EndsDates.endsDate_toDay {n : ℤ} (hm : EndsDates m) (hn : 0 ≤ n) (p : ℤ) :
    EndsDate ('-' :: (twoDigits n ++ (Period.text p ++ m))) :=
  .sign (by decide) fun _ _ => avoids_day_of_dayNumber hn hm

/-- A range of dates that is read from its own text is one that a field can hold. -/
lemma canonical_of_derives_dateRange {x : DateRange} (hm : EndsDates m) (hr : AfterDateRange r)
    (h : fieldGrammar.Derives dateRange (x.text ++ m) (.ok x) r) :
    (x.Canonical ∧ (x.plus = true → EndsOpen m)) ∧ r = m := by
  have hstep : Avoids [.slash] m := hm.after.avoids.mono (by decide)
  have hplus : EndsDate ('+' :: m) := .sign (by decide) hm.after.noCount
  rcases derives_dateRange_ok.mp h with ⟨d, e, o, q, w, p, u, hd, hw, he, ho, rfl⟩ |
    ⟨d, n, o, q, w, p, u, hd, hw, hn, ho, rfl⟩ | ⟨d, q, w, hd, hw, rfl⟩ | ⟨d, hd, rfl⟩
  · have hq : AfterDate q := .of_toDate (P := fun _ => True) ⟨_, r, derives_seq_ok.mpr
      ⟨u, derives_after_ok.mpr ⟨w, p, hw, he⟩, ho⟩, trivial⟩
    have hu : AfterDate u := .of_step ⟨_, r, ho, hr⟩
    have hdash := hm.endsDate_toDate (written_of_derives_date he) (stepOf o)
    rw [DateRange.text_toDate (written_of_derives_date hd).isEmpty (written_of_derives_date he).isEmpty,
      List.append_assoc, List.cons_append, List.append_assoc, derives_date_iff hdash hq] at hd
    obtain ⟨hd', rfl⟩ := hd
    obtain ⟨-, rfl⟩ := (scan_cons_iff (t := .dash) rfl rfl).mp hw
    obtain ⟨he', rfl⟩ := (derives_date_iff (hm.endsDate_periodText _) hu).mp he
    obtain ⟨hp, rfl⟩ := (derives_opt_step_iff hm.breaks hstep).mp ⟨o, ho, rfl⟩
    exact ⟨⟨.toDate hd' he' hp, nofun⟩, rfl⟩
  · have hq : AfterDate q := .of_toDay ⟨_, r, derives_seq_ok.mpr
      ⟨u, derives_after_ok.mpr ⟨w, p, hw, hn⟩, ho⟩, hr⟩
    have hn0 := nonneg_of_derives_number hn
    by_cases hne : n = 0
    · -- the day is not written, so that no dash would follow the date
      subst hne
      rw [DateRange.text_toDay_zero (written_of_derives_date hd).isEmpty,
        derives_date_iff hm.endsDate hq] at hd
      obtain ⟨-, rfl⟩ := hd
      exact ((hm.after.avoids.mono (L := [.dash]) (by decide)).not_scan (t := .dash) (by decide)
        hw).elim
    · have hdash : EndsDate ('-' :: (twoDigits n ++ (Period.text (stepOf o) ++ m))) :=
        .sign (by decide) fun w q => avoids_day_of_dayNumber hn0 hm
      rw [DateRange.text_toDay (written_of_derives_date hd).isEmpty hne, List.append_assoc,
        List.cons_append, List.append_assoc, derives_date_iff hdash hq] at hd
      obtain ⟨hd, rfl⟩ := hd
      obtain ⟨-, rfl⟩ := (scan_cons_iff (t := .dash) rfl rfl).mp hw
      obtain ⟨hn', -, rfl⟩ := (derives_isTwoDigits_iff rfl hn0 (breaks_periodText _ hm.breaks)).mp hn
      obtain ⟨hp, rfl⟩ := (derives_opt_step_iff hm.breaks hstep).mp ⟨o, ho, rfl⟩
      exact ⟨⟨.toDay hd hn' hne hp, nofun⟩, rfl⟩
  · have hq : AfterDate q := .of_openEnd ⟨_, r, derives_scan_iff.mpr hw, hr⟩
    rw [DateRange.text_single (written_of_derives_date hd).isEmpty, if_pos rfl, List.append_assoc,
      List.singleton_append, derives_date_iff hplus hq] at hd
    obtain ⟨hd, rfl⟩ := hd
    obtain ⟨hopen, -, rfl⟩ := scan_openEnd_iff.mp hw
    exact ⟨⟨.single hd true, fun _ => hopen⟩, rfl⟩
  · rw [DateRange.text_single (written_of_derives_date hd).isEmpty, if_neg (by decide), List.append_nil,
      derives_date_iff hm.endsDate (.of_afterDateRange hr)] at hd
    exact ⟨⟨.single hd.1 false, nofun⟩, hd.2⟩

/-- A range of dates that a field can hold is read from its own text. -/
lemma derives_dateRange_of_canonical {x : DateRange} (hm : EndsDates r) (hr : AfterDateRange r)
    (hx : x.Canonical) (hopen : x.plus = true → EndsOpen r) :
    fieldGrammar.Derives dateRange (x.text ++ r) (.ok x) r := by
  have hstep : Avoids [.slash] r := hm.after.avoids.mono (by decide)
  have hplus : EndsDate ('+' :: r) := .sign (by decide) hm.after.noCount
  rw [derives_dateRange_ok]
  cases hx with
  | @single d hd plus =>
    rw [DateRange.text_single hd.written.isEmpty]
    cases plus with
    | false =>
      rw [if_neg (by decide), List.append_nil]
      exact Or.inr (Or.inr (Or.inr ⟨d, (derives_date_iff hm.endsDate (.of_afterDateRange hr)).mpr
        ⟨hd, rfl⟩, rfl⟩))
    | true =>
      have hw := scan_openEnd_iff.mpr ⟨hopen rfl, rfl, rfl⟩
      have hq : AfterDate ('+' :: r) := .of_openEnd ⟨_, r, derives_scan_iff.mpr hw, hr⟩
      rw [if_pos rfl, List.append_assoc]
      exact Or.inr (Or.inr (Or.inl ⟨d, '+' :: r, _, (derives_date_iff hplus hq).mpr ⟨hd, rfl⟩, hw,
        rfl⟩))
  | @toDate d e p hd he hp =>
    rw [DateRange.text_toDate hd.written.isEmpty he.written.isEmpty, List.append_assoc,
      List.cons_append, List.append_assoc]
    -- from the end backwards, because each part is read only before what follows it
    obtain ⟨o, ho, rfl⟩ := (derives_opt_step_iff hm.breaks hstep).mpr ⟨hp, rfl⟩
    have he' := (derives_date_iff (hm.endsDate_periodText _) (.of_step ⟨_, r, ho, hr⟩)).mpr ⟨he, rfl⟩
    have hw := fun s => (scan_cons_iff (t := .dash) (c := '-') (m := s) rfl rfl).mpr ⟨rfl, rfl⟩
    have hq : AfterDate ('-' :: (e.text ++ (Period.text (stepOf o) ++ r))) :=
      .of_toDate (P := fun _ => True) ⟨_, r, derives_seq_ok.mpr
        ⟨_, derives_after_ok.mpr ⟨_, _, hw _, he'⟩, ho⟩, trivial⟩
    have hdash := hm.endsDate_toDate he.written (stepOf o)
    exact Or.inl ⟨d, e, o, _, _, _, _, (derives_date_iff hdash hq).mpr ⟨hd, rfl⟩, hw _, he', ho, rfl⟩
  | @toDay d n p hd hn hne hp =>
    rw [DateRange.text_toDay hd.written.isEmpty hne, List.append_assoc, List.cons_append,
      List.append_assoc]
    obtain ⟨o, ho, rfl⟩ := (derives_opt_step_iff hm.breaks hstep).mpr ⟨hp, rfl⟩
    have hn' := (derives_isTwoDigits_iff (t := .dayNumber) rfl hn.1 (breaks_periodText (stepOf o) hm.breaks)).mpr
      ⟨hn, rfl, rfl⟩
    have hw := fun s => (scan_cons_iff (t := .dash) (c := '-') (m := s) rfl rfl).mpr ⟨rfl, rfl⟩
    have hq : AfterDate ('-' :: (twoDigits n ++ (Period.text (stepOf o) ++ r))) :=
      .of_toDay ⟨_, r, derives_seq_ok.mpr ⟨_, derives_after_ok.mpr ⟨_, _, hw _, hn'⟩, ho⟩, hr⟩
    have hdash := hm.endsDate_toDay hn.1 (stepOf o)
    exact Or.inr (Or.inl ⟨d, n, o, _, _, _, _, (derives_date_iff hdash hq).mpr ⟨hd, rfl⟩, hw _, hn',
      ho, rfl⟩)

/-- The text of a range of dates is read as that range if and only if a field can hold it, and no
weekday follows the plus sign of an open one. -/
theorem derives_dateRange_iff {x : DateRange} (hm : EndsDates m) (hr : AfterDateRange r) :
    fieldGrammar.Derives dateRange (x.text ++ m) (.ok x) r ↔
      (x.Canonical ∧ (x.plus = true → EndsOpen m)) ∧ r = m := by
  refine ⟨canonical_of_derives_dateRange hm hr, ?_⟩
  rintro ⟨⟨hx, hopen⟩, rfl⟩
  exact derives_dateRange_of_canonical hm hr hx hopen

/-- Only the last range of a list may have to do with what follows the list. -/
lemma eachBefore_dates_iff {xs : List DateRange} :
    EachBefore commaSpace DateRange.text
        (fun x m => x.Canonical ∧ (x.plus = true → EndsOpen m)) m xs ↔
      (∀ x ∈ xs, x.Canonical) ∧ ∀ x ∈ xs.getLast?, x.plus = true → EndsOpen m := by
  induction xs with
  | nil => simp [EachBefore]
  | cons x xs ih =>
    rw [EachBefore, ih, List.forall_mem_cons]
    cases xs with
    | nil => simp [tailText]
    | cons y ys =>
      have hcomma : EndsOpen (tailText commaSpace DateRange.text (y :: ys) ++ m) := rfl
      rw [List.getLast?_cons_cons]
      simp only [hcomma, imp_true_iff, and_true, and_assoc]

/-- The text of dates is read as these dates if and only if a field can hold each of them, and no
weekday follows the plus sign of the last one. -/
theorem derives_dates_iff {xs : List DateRange} (hm : EndsDates m) (hr : AfterDateRange r) :
    fieldGrammar.Derives dates (DateRange.textAll xs ++ m) (.ok xs) r ↔
      xs ≠ [] ∧ (∀ x ∈ xs, x.Canonical) ∧
        (∀ x ∈ xs.getLast?, x.plus = true → EndsOpen m) ∧ r = m := by
  have hlist := derives_listed_iff (l := xs) (m := m) (r := r)
    (G := fun x m => x.Canonical ∧ (x.plus = true → EndsOpen m)) (f := DateRange.text)
    (g := dateRange) (Or.inr rfl) rfl (fun _ => EndsDates.comma)
    (fun _ _ _ h => AfterDateRange.of_comma h) (fun hm hr => derives_dateRange_iff hm hr) hm hr
  rw [eachBefore_dates_iff, and_assoc] at hlist
  exact hlist

end Part

end OpeningTimes
