import OpeningTimes.Proofs.Canonical.Days
import OpeningTimes.Proofs.Canonical.Times
import OpeningTimes.Proofs.Field.Calendar

/-!
Years and weeks that a field can hold, and how they are read.

* `YearRange.Canonical`, `WeekRange.Canonical`: what a field can hold;
* `IsPeriod`, `Part.derives_opt_step_iff`: the period of a range;
* `Part.derives_years_iff`, `Part.derives_weeks_iff`: the text of years or weeks is read as these if and
  only if a field can hold them.

A year that stands alone at the beginning of a rule would belong to a month after it.
-/

namespace OpeningTimes

open Grammar Text

/-! ### What a field can hold -/

/-- The years that a field can hold: they have four digits. -/
def IsYear (y : ℤ) : Prop :=
  1000 ≤ y ∧ y ≤ 9999

lemma IsYear.nonneg {y : ℤ} (hy : IsYear y) : 0 ≤ y := by
  unfold IsYear at hy
  omega

lemma IsYear.ne_zero {y : ℤ} (hy : IsYear y) : y ≠ 0 := by
  unfold IsYear at hy
  omega

/-- The periods that a field can hold: they are short and not negative. No period counts as zero. -/
def IsPeriod (p : ℤ) : Prop :=
  0 ≤ p ∧ isShort p = true

/-- The ranges of years that a field can hold. -/
inductive YearRange.Canonical : YearRange → Prop where
  | single {y : ℤ} (hy : IsYear y) (plus : Bool) : Canonical { start := y, plus := plus }
  | range {y z p : ℤ} (hy : IsYear y) (hz : IsYear z) (hp : IsPeriod p) :
    Canonical { start := y, stop := z, period := p }

/-- A single year. -/
def YearRange.IsLone (x : YearRange) : Prop :=
  x = { start := x.start }

/-- The numbers of weeks and of days that a field can hold: they have two digits. -/
def IsTwoDigits (n : ℤ) : Prop :=
  0 ≤ n ∧ n < 100

/-- The ranges of weeks that a field can hold. -/
inductive WeekRange.Canonical : WeekRange → Prop where
  | single {w : ℤ} (hw : IsTwoDigits w) (hne : w ≠ 0) : Canonical { start := w }
  | range {w v p : ℤ} (hw : IsTwoDigits w) (hv : IsTwoDigits v) (hne : v ≠ 0) (hp : IsPeriod p) :
    Canonical { start := w, stop := v, period := p }

namespace Part

variable {m r : Text}

/-! ### Periods -/

lemma breaks_periodText (p : ℤ) (hm : Breaks m) : Breaks (Period.text p ++ m) := by
  unfold Period.text
  split
  · exact hm
  · exact breaks_cons rfl rfl

/-- The text of a period is read as that period if and only if a field can hold it. -/
lemma derives_opt_step_iff {p : ℤ} (hm : Breaks m) (ha : Avoids [.slash] m) :
    (∃ o, fieldGrammar.Derives (.opt step) (Period.text p ++ m) (.ok o) r ∧ stepOf o = p) ↔
      IsPeriod p ∧ r = m := by
  have hnumber : ∀ {s k}, fieldGrammar.Derives step ('/' :: s) (.ok k) r ↔
      fieldGrammar.Derives (number .number) s (.ok k) r := derives_after_iff (t := .slash) rfl rfl
  by_cases hp : p = 0
  · subst hp
    rw [Period.text_zero, List.nil_append]
    constructor
    · rintro ⟨_ | k, h, -⟩
      · exact ⟨⟨le_rfl, isShort_zero⟩, derives_opt_none.mp h⟩
      · exact (ha.not_begins (g := step) (P := fun _ => True) rfl (by decide)
          ⟨_, r, derives_opt_some.mp h, trivial⟩).elim
    · exact fun h => ⟨none, derives_opt_none.mpr h.2, rfl⟩
  rw [Period.text_of_ne hp, List.cons_append]
  constructor
  · rintro ⟨_ | k, h, rfl⟩
    · exact absurd rfl hp
    · have hk := hnumber.mp (derives_opt_some.mp h)
      obtain ⟨n, hn⟩ := exists_of_derives_number hk
      have hstep : stepOf (some k) = n := hn
      rw [hstep, numeral_natCast, derives_numeral_iff hm] at hk
      exact ⟨hstep ▸ ⟨Int.natCast_nonneg n, hk.1⟩, hk.2.2⟩
  · rintro ⟨⟨h0, hshort⟩, rfl⟩
    obtain ⟨n, rfl⟩ := Int.eq_ofNat_of_zero_le h0
    rw [numeral_natCast]
    exact ⟨some n, derives_opt_some.mpr (hnumber.mpr
      ((derives_numeral_iff hm).mpr ⟨hshort, rfl, rfl⟩)), rfl⟩

/-! ### Years -/

/-- A year is read as that year if it has four digits. -/
lemma derives_year_iff {y k : ℤ} (hy : 0 ≤ y) (hm : Breaks m) :
    fieldGrammar.Derives (number .year) (numeral y ++ m) (.ok k) r ↔ IsYear y ∧ k = y ∧ r = m := by
  obtain ⟨n, rfl⟩ := Int.eq_ofNat_of_zero_le hy
  rw [numeral_natCast, derives_digits_iff rfl (by decide) (fun c => isDigit_of_mem_digits) digits_ne_nil
    hm, number_digits]
  have hlen := length_digits_eq_iff (n := n) (k := 3) (by decide)
  refine and_congr_left fun _ => ?_
  unfold IsYear
  omega

lemma nonneg_of_derives_number {t : Terminal} {s : Text} {k : ℤ}
    (h : fieldGrammar.Derives (number t) s (.ok k) r) : 0 ≤ k := by
  obtain ⟨n, rfl⟩ := exists_of_derives_number h
  exact Int.natCast_nonneg n

/-- A text does not begin with the year zero, which is never written. -/
def NoZeroYear (m : Text) : Prop :=
  ∀ r, ¬ fieldGrammar.Derives (number .year) m (.ok 0) r

/-- A text begins with a range of years, where something may be asked of what follows a single
year. -/
def ReadsYears (P : Text → Prop) (s : Text) (x : YearRange) (r : Text) : Prop :=
  (∃ y, fieldGrammar.Derives (number .year) s (.ok y) r ∧ P r ∧ x = { start := y }) ∨
    (∃ y q w, fieldGrammar.Derives (number .year) s (.ok y) q ∧ Terminal.plus.scan q = some (w, r) ∧
      x = { start := y, plus := true }) ∨
    ∃ y z o q w p e, fieldGrammar.Derives (number .year) s (.ok y) q ∧
      Terminal.dash.scan q = some (w, p) ∧ fieldGrammar.Derives (number .year) p (.ok z) e ∧
      fieldGrammar.Derives (.opt step) e (.ok o) r ∧
      x = { start := y, stop := z, period := stepOf o }

lemma derives_yearRange_ok {s : Text} {x : YearRange} :
    fieldGrammar.Derives yearRange s (.ok x) r ↔ ReadsYears (fun _ => True) s x r := by
  constructor
  · intro h
    rcases derives_alt.mp h with h | h
    · obtain ⟨⟨y, rest⟩, hseq, rfl⟩ := derives_map_ok.mp h
      obtain ⟨q, hy, hq⟩ := derives_seq_ok.mp hseq
      cases rest with
      | none =>
        obtain rfl := derives_opt_none.mp hq
        exact Or.inl ⟨y, hy, trivial, rfl⟩
      | some zo =>
        obtain ⟨z, o⟩ := zo
        obtain ⟨e, hz, ho⟩ := derives_seq_ok.mp (derives_opt_some.mp hq)
        obtain ⟨w, p, hw, hz'⟩ := derives_after_ok.mp hz
        exact Or.inr (Or.inr ⟨y, z, o, q, w, p, e, hy, hw, hz', ho, rfl⟩)
    · obtain ⟨y, hy, rfl⟩ := derives_map_ok.mp h
      obtain ⟨q, w, hq, hw⟩ := derives_before_iff.mp hy
      exact Or.inr (Or.inl ⟨y, q, w, hq, hw, rfl⟩)
  · rintro (⟨y, hy, -, rfl⟩ | ⟨y, q, w, hy, hw, rfl⟩ | ⟨y, z, o, q, w, p, e, hy, hw, hz, ho, rfl⟩)
    · exact .left (derives_map_ok.mpr ⟨(y, none), derives_seq_ok.mpr
        ⟨r, hy, derives_opt_none.mpr rfl⟩, rfl⟩)
    · exact .right (derives_map_ok.mpr ⟨y, derives_before_iff.mpr ⟨q, w, hy, hw⟩, rfl⟩)
    · exact .left (derives_map_ok.mpr ⟨(y, some (z, o)), derives_seq_ok.mpr
        ⟨q, hy, derives_opt_some.mpr (derives_seq_ok.mpr
          ⟨e, derives_after_ok.mpr ⟨w, p, hw, hz⟩, ho⟩)⟩, rfl⟩)

/-- No month and no movable day stands at the beginning of a text, whatever white space is before
it. -/
def EndsLone (m : Text) : Prop :=
  Terminal.startsWith (Terminal.monthWords ++ Terminal.movableWords) (m.dropWhile isSpace) = false

lemma derives_loneYear_iff {s : Text} {y : ℤ} :
    fieldGrammar.Derives (number .loneYear) s (.ok y) r ↔
      fieldGrammar.Derives (number .year) s (.ok y) r ∧ EndsLone r := by
  have hscan : ∀ {w}, Terminal.loneYear.scan s = some (w, r) ↔
      Terminal.year.scan s = some (w, r) ∧ EndsLone r := by
    intro w
    unfold EndsLone
    rw [← Bool.not_eq_true']
    exact Option.filter_eq_some_iff
  simp only [derives_number_ok, hscan]
  constructor
  · rintro ⟨w, ⟨h, hr⟩, hy⟩
    exact ⟨⟨w, h, hy⟩, hr⟩
  · rintro ⟨⟨w, h, hy⟩, hr⟩
    exact ⟨w, ⟨h, hr⟩, hy⟩

lemma derives_firstYearRange_ok {s : Text} {x : YearRange} :
    fieldGrammar.Derives firstYearRange s (.ok x) r ↔ ReadsYears EndsLone s x r := by
  constructor
  · intro h
    rcases derives_alt.mp h with h | h
    · obtain ⟨⟨y, z, o⟩, hseq, rfl⟩ := derives_map_ok.mp h
      obtain ⟨q, hy, hq⟩ := derives_seq_ok.mp hseq
      obtain ⟨e, hz, ho⟩ := derives_seq_ok.mp hq
      obtain ⟨w, p, hw, hz'⟩ := derives_after_ok.mp hz
      exact Or.inr (Or.inr ⟨y, z, o, q, w, p, e, hy, hw, hz', ho, rfl⟩)
    rcases derives_alt.mp h with h | h
    · obtain ⟨y, hy, rfl⟩ := derives_map_ok.mp h
      obtain ⟨hy', hr⟩ := derives_loneYear_iff.mp hy
      exact Or.inl ⟨y, hy', hr, rfl⟩
    · obtain ⟨y, hy, rfl⟩ := derives_map_ok.mp h
      obtain ⟨q, w, hq, hw⟩ := derives_before_iff.mp hy
      exact Or.inr (Or.inl ⟨y, q, w, hq, hw, rfl⟩)
  · rintro (⟨y, hy, hr, rfl⟩ | ⟨y, q, w, hy, hw, rfl⟩ | ⟨y, z, o, q, w, p, e, hy, hw, hz, ho, rfl⟩)
    · exact .right (.left (derives_map_ok.mpr ⟨y, derives_loneYear_iff.mpr ⟨hy, hr⟩, rfl⟩))
    · exact .right (.right (derives_map_ok.mpr ⟨y, derives_before_iff.mpr ⟨q, w, hy, hw⟩, rfl⟩))
    · exact .left (derives_map_ok.mpr ⟨(y, z, o), derives_seq_ok.mpr
        ⟨q, hy, derives_seq_ok.mpr ⟨e, derives_after_ok.mpr ⟨w, p, hw, hz⟩, ho⟩⟩, rfl⟩)

end Part

namespace YearRange

lemma text_single {y : ℤ} (hy : y ≠ 0) (plus : Bool) :
    text { start := y, plus := plus } = numeral y ++ if plus then ['+'] else [] := by
  simp [text, isEmpty, hasStart, hasStop, hy]

lemma text_range {y z : ℤ} (hz : z ≠ 0) (p : ℤ) :
    text { start := y, stop := z, period := p } =
      numeral y ++ '-' :: (numeral z ++ Period.text p) := by
  simp [text, isEmpty, hasStart, hasStop, hz]

lemma text_range_zero {y : ℤ} (hy : y ≠ 0) (p : ℤ) :
    text { start := y, period := p } = numeral y := by
  simp [text, isEmpty, hasStart, hasStop, hy]

end YearRange

namespace Part

variable {m r : Text}

/-- What may follow a range of years in a written text. -/
structure EndsYears (m : Text) : Prop where
  breaks : Breaks m
  avoids : afterYearRange m
  noZero : NoZeroYear m

lemma EndsYears.cons {c : Char} {s : Text} (hc : c ∈ [',', ':']) : EndsYears (c :: s) := by
  have hmark : ∀ c ∈ [',', ':'], isBlank c = false ∧ isDigit c = false ∧ isLetter c = false ∧
      Opening.ofMark c ∉ [.dash, .plus, .slash] ∧ Opening.ofMark c ∉ [.fourDigits] := by
    decide
  obtain ⟨hb, hd, hl, ho, hy⟩ := hmark c hc
  refine ⟨breaks_cons hd hl, .cons hb hd hl ho, fun r h => ?_⟩
  exact (Avoids.cons hb hd hl hy).not_begins (g := number .year) (P := fun _ => True) rfl (by decide)
    ⟨_, r, h, trivial⟩

/-- A range of years that is read from its own text is one that a field can hold. -/
lemma canonical_of_readsYears {P : Text → Prop} {x : YearRange} (hm : EndsYears m)
    (h : ReadsYears P (x.text ++ m) x r) : (x.Canonical ∧ (x.IsLone → P m)) ∧ r = m := by
  obtain ⟨hb, ha, hz⟩ := hm
  rcases h with ⟨y, hy, hP, rfl⟩ | ⟨y, q, w, hy, hw, rfl⟩ | ⟨y, z, o, q, w, p, e, hy, hw, hz', ho, rfl⟩
  · have hy0 : y ≠ 0 := by
      rintro rfl
      exact hz _ hy
    rw [YearRange.text_single hy0, if_neg (by decide), List.append_nil,
      derives_year_iff (nonneg_of_derives_number hy) hb] at hy
    obtain ⟨hyear, -, rfl⟩ := hy
    exact ⟨⟨.single hyear false, fun _ => hP⟩, rfl⟩
  · have hy0 : y ≠ 0 := by
      rintro rfl
      exact hz _ hy
    rw [YearRange.text_single hy0, if_pos rfl, List.append_assoc, List.singleton_append,
      derives_year_iff (nonneg_of_derives_number hy) (breaks_cons rfl rfl)] at hy
    obtain ⟨hyear, -, rfl⟩ := hy
    refine ⟨⟨.single hyear true, fun h => ?_⟩, ((scan_cons_iff (t := .plus) rfl rfl).mp hw).2⟩
    cases congrArg YearRange.plus h
  · by_cases hz0 : z = 0
    · -- the last year is not written, so that no dash would follow the first one
      subst hz0
      have hy0 : y ≠ 0 := by
        rintro rfl
        exact hz _ hy
      rw [YearRange.text_range_zero hy0, derives_year_iff (nonneg_of_derives_number hy) hb] at hy
      obtain ⟨-, -, rfl⟩ := hy
      exact (ha.not_scan (t := .dash) (by decide) hw).elim
    · rw [YearRange.text_range hz0, List.append_assoc, List.cons_append, List.append_assoc,
        derives_year_iff (nonneg_of_derives_number hy) (breaks_cons rfl rfl)] at hy
      obtain ⟨hyear, -, rfl⟩ := hy
      obtain ⟨-, rfl⟩ := (scan_cons_iff (t := .dash) rfl rfl).mp hw
      obtain ⟨hyear', -, rfl⟩ :=
        (derives_year_iff (nonneg_of_derives_number hz') (breaks_periodText _ hb)).mp hz'
      obtain ⟨hp, rfl⟩ := (derives_opt_step_iff hb (ha.mono (by decide))).mp ⟨o, ho, rfl⟩
      exact ⟨⟨.range hyear hyear' hp, fun h => absurd (congrArg YearRange.stop h) hz0⟩, rfl⟩

/-- A range of years that a field can hold is read from its own text. -/
lemma readsYears_of_canonical {P : Text → Prop} {x : YearRange} (hm : EndsYears m)
    (hx : x.Canonical) (hP : x.IsLone → P m) : ReadsYears P (x.text ++ m) x m := by
  obtain ⟨hb, ha, -⟩ := hm
  cases hx with
  | @single y hy plus =>
    have hyear := fun {m} => derives_year_iff (m := m) (r := m) (k := y) hy.nonneg
    rw [YearRange.text_single hy.ne_zero]
    cases plus with
    | false =>
      refine Or.inl ⟨y, ?_, hP rfl, rfl⟩
      rw [if_neg (by decide), List.append_nil]
      exact (hyear hb).mpr ⟨hy, rfl, rfl⟩
    | true =>
      refine Or.inr (Or.inl ⟨y, '+' :: m, ['+'], ?_, (scan_cons_iff rfl rfl).mpr ⟨rfl, rfl⟩, rfl⟩)
      rw [if_pos rfl, List.append_assoc]
      exact (hyear (breaks_cons rfl rfl)).mpr ⟨hy, rfl, rfl⟩
  | @range y z p hy hz' hp =>
    obtain ⟨o, ho, rfl⟩ := (derives_opt_step_iff hb (ha.mono (by decide))).mpr ⟨hp, rfl⟩
    rw [YearRange.text_range hz'.ne_zero, List.append_assoc, List.cons_append, List.append_assoc]
    exact Or.inr (Or.inr ⟨y, z, o, _, _, _, _,
      (derives_year_iff hy.nonneg (breaks_cons rfl rfl)).mpr ⟨hy, rfl, rfl⟩,
      (scan_cons_iff rfl rfl).mpr ⟨rfl, rfl⟩,
      (derives_year_iff hz'.nonneg (breaks_periodText _ hb)).mpr ⟨hz', rfl, rfl⟩, ho, rfl⟩)

/-- The text of a range of years is read as that range if and only if a field can hold it. -/
lemma readsYears_iff {P : Text → Prop} {x : YearRange} (hm : EndsYears m) :
    ReadsYears P (x.text ++ m) x r ↔ (x.Canonical ∧ (x.IsLone → P m)) ∧ r = m := by
  constructor
  · exact canonical_of_readsYears hm
  · rintro ⟨⟨hx, hP⟩, rfl⟩
    exact readsYears_of_canonical hm hx hP

/-- The text of years is read as these years if and only if a field can hold each of them, and no month
follows a single one. -/
theorem derives_years_iff {xs : List YearRange} (hm : EndsYears m) :
    fieldGrammar.Derives years (YearRange.textAll xs ++ m) (.ok xs) r ↔
      xs ≠ [] ∧ (∀ x ∈ xs, x.Canonical) ∧ (∀ x, xs = [x] → x.IsLone → EndsLone m) ∧ r = m := by
  cases xs with
  | nil =>
    refine iff_of_false (fun h => ?_) (fun h => h.1 rfl)
    obtain ⟨⟨x, xs⟩, -, hx⟩ := derives_map_ok.mp h
    cases hx
  | cons x xs =>
    have hfollow : ∀ s, EndsYears (',' :: s) := fun s => .cons (by decide)
    have htail : EndsYears (tailText commaSpace YearRange.text xs ++ m) :=
      follow_tailText (Or.inr rfl) hfollow hm xs
    -- only a year that is alone in the list can be taken for the one of a date
    have hlone : (x.IsLone → EndsLone (tailText commaSpace YearRange.text xs ++ m)) ↔
        ∀ y, x :: xs = [y] → y.IsLone → EndsLone m := by
      cases xs with
      | nil =>
        constructor
        · rintro h y hy
          obtain rfl := (List.cons.inj hy).1
          exact h
        · exact fun h => h x rfl
      | cons y ys => exact iff_of_true (fun _ => rfl) (fun _ h => by cases h)
    have hmany := derives_many_iff (r := r) (l := xs) (G := fun x _ => x.Canonical)
      (F := EndsYears) (A := fun _ => True) (f := YearRange.text) (g := yearRange)
      (Or.inr rfl) rfl hfollow (fun _ _ _ _ => trivial)
      (fun {x m r} hm _ => by
        rw [derives_yearRange_ok, readsYears_iff hm]
        simp only [imp_true_iff, and_true]) hm trivial
    rw [eachBefore_iff] at hmany
    rw [YearRange.textAll, Text.listed, joinWith_cons, List.append_assoc, years, derives_map_ok]
    constructor
    · rintro ⟨⟨a, as⟩, hseq, he⟩
      obtain ⟨rfl, rfl⟩ := List.cons.inj he
      obtain ⟨q, ha, has⟩ := derives_seq_ok.mp hseq
      obtain ⟨⟨hx, hl⟩, rfl⟩ := (readsYears_iff htail).mp (derives_firstYearRange_ok.mp ha)
      obtain ⟨hxs, rfl⟩ := hmany.mp has
      exact ⟨by simp, List.forall_mem_cons.mpr ⟨hx, hxs⟩, hlone.mp hl, rfl⟩
    · rintro ⟨-, hxs, hl, rfl⟩
      obtain ⟨hx, hxs⟩ := List.forall_mem_cons.mp hxs
      exact ⟨(x, xs), derives_seq_ok.mpr ⟨_, derives_firstYearRange_ok.mpr
        ((readsYears_iff htail).mpr ⟨⟨hx, hlone.mpr hl⟩, rfl⟩), hmany.mpr ⟨hxs, rfl⟩⟩, rfl⟩

end Part

/-! ### Weeks -/

namespace WeekRange

lemma text_single {w : ℤ} (hw : w ≠ 0) : text { start := w } = twoDigits w := by
  simp [text, isEmpty, hasStart, hasStop, hw]

lemma text_range {w v : ℤ} (hv : v ≠ 0) (p : ℤ) :
    text { start := w, stop := v, period := p } =
      twoDigits w ++ '-' :: (twoDigits v ++ Period.text p) := by
  simp [text, isEmpty, hasStart, hasStop, hv]

lemma text_range_zero {w : ℤ} (hw : w ≠ 0) (p : ℤ) :
    text { start := w, period := p } = twoDigits w := by
  simp [text, isEmpty, hasStart, hasStop, hw]

end WeekRange

namespace Part

variable {m r : Text}

/-- The number of a week or of a day is read as that number if it has two digits. -/
lemma derives_isTwoDigits_iff {t : Terminal} (ht : t.lexeme = Terminal.digits 1 2) {n k : ℤ} (hn : 0 ≤ n)
    (hm : Breaks m) :
    fieldGrammar.Derives (number t) (twoDigits n ++ m) (.ok k) r ↔ IsTwoDigits n ∧ k = n ∧ r = m := by
  obtain ⟨n, rfl⟩ := Int.eq_ofNat_of_zero_le hn
  rw [twoDigits, padded_natCast, derives_twoDigits_iff (by decide) ht hm]
  refine and_congr_left fun _ => ?_
  unfold IsTwoDigits
  omega

/-- What may follow a range of weeks in a written text: its end, and no number other than the hours of
a clock time. -/
structure EndsWeeks (m : Text) : Prop where
  breaks : Breaks m
  avoids : Avoids [.dash, .slash] m
  noWeek : ∀ w q, Terminal.weekNumber.scan m = some (w, q) → ¬ SparesClock q

lemma EndsWeeks.cons {c : Char} {s : Text} (hc : c ∈ [',', ':']) : EndsWeeks (c :: s) := by
  have hmark : ∀ c ∈ [',', ':'], isBlank c = false ∧ isDigit c = false ∧ isLetter c = false ∧
      Opening.ofMark c ∉ [.dash, .slash] ∧ Opening.ofMark c ∉ [.oneDigit, .twoDigits] := by
    decide
  obtain ⟨hb, hd, hl, ho, hn⟩ := hmark c hc
  refine ⟨breaks_cons hd hl, .cons hb hd hl ho, fun w q h => ?_⟩
  exact ((Avoids.cons hb hd hl hn).not_scan (t := .weekNumber) (by decide) h).elim

/-- The two forms of a range of weeks. -/
lemma derives_weekRange_ok {s : Text} {x : WeekRange} :
    fieldGrammar.Derives weekRange s (.ok x) r ↔
      (∃ w, fieldGrammar.Derives (number .weekNumber) s (.ok w) r ∧ x = { start := w }) ∨
      ∃ w v o q u p e, fieldGrammar.Derives (number .weekNumber) s (.ok w) q ∧
        Terminal.dash.scan q = some (u, p) ∧
        fieldGrammar.Derives (number .weekNumber) p (.ok v) e ∧
        fieldGrammar.Derives (.opt step) e (.ok o) r ∧
        x = { start := w, stop := v, period := stepOf o } := by
  constructor
  · intro h
    obtain ⟨⟨w, rest⟩, hseq, rfl⟩ := derives_map_ok.mp h
    obtain ⟨q, hw, hq⟩ := derives_seq_ok.mp hseq
    cases rest with
    | none =>
      obtain rfl := derives_opt_none.mp hq
      exact Or.inl ⟨w, hw, rfl⟩
    | some vo =>
      obtain ⟨v, o⟩ := vo
      obtain ⟨e, hv, ho⟩ := derives_seq_ok.mp (derives_opt_some.mp hq)
      obtain ⟨u, p, hu, hv'⟩ := derives_after_ok.mp hv
      exact Or.inr ⟨w, v, o, q, u, p, e, hw, hu, hv', ho, rfl⟩
  · rintro (⟨w, hw, rfl⟩ | ⟨w, v, o, q, u, p, e, hw, hu, hv, ho, rfl⟩)
    · exact derives_map_ok.mpr ⟨(w, none), derives_seq_ok.mpr
        ⟨r, hw, derives_opt_none.mpr rfl⟩, rfl⟩
    · exact derives_map_ok.mpr ⟨(w, some (v, o)), derives_seq_ok.mpr
        ⟨q, hw, derives_opt_some.mpr (derives_seq_ok.mpr
          ⟨e, derives_after_ok.mpr ⟨u, p, hu, hv⟩, ho⟩)⟩, rfl⟩

/-- The text of a range of weeks is read as that range if and only if a field can hold it. -/
lemma derives_weekRange_iff {x : WeekRange} (hm : EndsWeeks m) (hr : SparesClock r) :
    fieldGrammar.Derives weekRange (x.text ++ m) (.ok x) r ↔ x.Canonical ∧ r = m := by
  obtain ⟨hb, ha, hn⟩ := hm
  have hstep : Avoids [.slash] m := ha.mono (by decide)
  have hdash : ∀ {s}, Breaks ('-' :: s) := breaks_cons rfl rfl
  have hnone : ∀ {k q}, SparesClock q → ¬ fieldGrammar.Derives (number .weekNumber) m (.ok k) q := by
    intro k q hq h
    obtain ⟨w, hw, -, -⟩ := derives_number_ok.mp h
    exact hn _ _ hw hq
  rw [derives_weekRange_ok]
  constructor
  · rintro (⟨w, hw, rfl⟩ | ⟨w, v, o, q, u, p, e, hw, hu, hv, ho, rfl⟩)
    · have hw0 : w ≠ 0 := by
        rintro rfl
        exact hnone hr hw
      rw [WeekRange.text_single hw0, derives_isTwoDigits_iff rfl (nonneg_of_derives_number hw) hb] at hw
      exact ⟨.single hw.1 hw0, hw.2.2⟩
    · by_cases hv0 : v = 0
      · -- the last week is not written, so that no dash would follow the first one
        subst hv0
        have hw0 : w ≠ 0 := by
          rintro rfl
          exact hnone (.of_avoids (.of_scan hu (by decide))) hw
        rw [WeekRange.text_range_zero hw0,
          derives_isTwoDigits_iff rfl (nonneg_of_derives_number hw) hb] at hw
        obtain ⟨-, -, rfl⟩ := hw
        exact (ha.not_scan (t := .dash) (by decide) hu).elim
      · rw [WeekRange.text_range hv0, List.append_assoc, List.cons_append, List.append_assoc,
          derives_isTwoDigits_iff rfl (nonneg_of_derives_number hw) hdash] at hw
        obtain ⟨hweek, -, rfl⟩ := hw
        obtain ⟨-, rfl⟩ := (scan_cons_iff (t := .dash) rfl rfl).mp hu
        obtain ⟨hweek', -, rfl⟩ :=
          (derives_isTwoDigits_iff rfl (nonneg_of_derives_number hv) (breaks_periodText _ hb)).mp hv
        obtain ⟨hp, rfl⟩ := (derives_opt_step_iff hb hstep).mp ⟨o, ho, rfl⟩
        exact ⟨.range hweek hweek' hv0 hp, rfl⟩
  · rintro ⟨hx, rfl⟩
    cases hx with
    | single hw hne =>
      rw [WeekRange.text_single hne]
      exact Or.inl ⟨_, (derives_isTwoDigits_iff rfl hw.1 hb).mpr ⟨hw, rfl, rfl⟩, rfl⟩
    | range hw hv hne hp =>
      obtain ⟨o, ho, rfl⟩ := (derives_opt_step_iff hb hstep).mpr ⟨hp, rfl⟩
      rw [WeekRange.text_range hne, List.append_assoc, List.cons_append, List.append_assoc]
      exact Or.inr ⟨_, _, o, _, _, _, _,
        (derives_isTwoDigits_iff rfl hw.1 hdash).mpr ⟨hw, rfl, rfl⟩,
        (scan_cons_iff rfl rfl).mpr ⟨rfl, rfl⟩,
        (derives_isTwoDigits_iff rfl hv.1 (breaks_periodText _ hb)).mpr ⟨hv, rfl, rfl⟩, ho, rfl⟩

/-- The text of weeks is read as these weeks if and only if a field can hold each of them. -/
theorem derives_weeks_iff {xs : List WeekRange} (hm : EndsWeeks m) (hr : SparesClock r) :
    fieldGrammar.Derives weeks (WeekRange.textAll xs ++ m) (.ok xs) r ↔
      xs ≠ [] ∧ (∀ x ∈ xs, x.Canonical) ∧ r = m := by
  have hcomma : ∀ s w q, Terminal.comma.scan s = some (w, q) → SparesClock s :=
    fun s w q h => .of_avoids (.of_scan h (by decide))
  have hscan : ∀ {s w q}, Terminal.weekWord.scan ('w' :: 'e' :: 'e' :: 'k' :: ' ' :: s) = some (w, q) ↔
      w = Terminal.week ∧ q = ' ' :: s := by
    intro s w q
    have hfold : (['w', 'e', 'e', 'k'].map fold == Terminal.week) = true := by decide
    rw [Terminal.scan, Terminal.skipBlanks_cons rfl, Terminal.lexeme]
    simp only [List.take_succ_cons, List.take_zero, hfold, if_true, List.drop_succ_cons,
      List.drop_zero, Option.some.injEq, Prod.mk.injEq]
    exact and_congr eq_comm eq_comm
  have hlist := derives_listed_iff (l := xs) (m := m) (r := r) (G := fun x _ => x.Canonical)
    (f := WeekRange.text) (g := weekRange) (Or.inr rfl) rfl
    (fun s => EndsWeeks.cons (c := ',') (by decide)) hcomma
    (fun hm hr => derives_weekRange_iff hm hr) hm hr
  rw [eachBefore_iff] at hlist
  rw [← hlist, weeks, derives_after_ok]
  simp only [WeekRange.textAll, List.cons_append, List.nil_append, hscan]
  constructor
  · rintro ⟨_, _, ⟨-, rfl⟩, h⟩
    exact (derives_space_iff rfl).mp h
  · exact fun h => ⟨_, _, ⟨rfl, rfl⟩, (derives_space_iff rfl).mpr h⟩

end Part

end OpeningTimes
