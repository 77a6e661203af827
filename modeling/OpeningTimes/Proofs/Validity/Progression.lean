import OpeningTimes.Proofs.Validity.Check

/-!
The years and the weeks of a range without a fault.

They are the numbers from the first one on in steps of the period, as far as the range goes. The numbers may
be negative, and so may the period, whose direction makes no difference. Without a period there are no gaps,
and it is never divided by.

* `Period.step`, `Period.Reaches`: the numbers from a first one on;
* `Period.hits_iff`: the numbers that count are those of them that come before the end;
* `Period.hits?`, `YearRange.covers?`, `WeekRange.covers?`: the same questions where a division by zero has
  no answer;
* `Period.hits?_eq`: they have an answer all the same;
* `covers_iff_of_check`: the years and the weeks of a range.
-/

namespace OpeningTimes

/-! ### Numbers in steps -/

namespace Period

variable {start stop period n : ℤ}

/-- The distance from a number to the next one. Without a period all numbers count. -/
def step (period : ℤ) : ℤ :=
  if period = 0 then 1 else |period|

/-- A number comes after the first one by any number of steps. -/
def Reaches (start period n : ℤ) : Prop :=
  ∃ k : ℕ, n = start + k * step period

lemma step_pos (period : ℤ) : 0 < step period := by
  rw [step]
  split
  · exact one_pos
  · next h => exact abs_pos.mpr h

/-- No step goes back. -/
lemma Reaches.le (h : Reaches start period n) : start ≤ n := by
  obtain ⟨k, rfl⟩ := h
  have := mul_nonneg (Int.natCast_nonneg k) (step_pos period).le
  omega

lemma reaches_self (start period : ℤ) : Reaches start period start :=
  ⟨0, by simp⟩

/-- What comes after the first number by a multiple of the step comes after it by some steps. -/
lemma reaches_iff : Reaches start period n ↔ start ≤ n ∧ step period ∣ n - start := by
  constructor
  · intro h
    refine ⟨h.le, ?_⟩
    obtain ⟨k, rfl⟩ := h
    exact ⟨k, by ring⟩
  · rintro ⟨hle, k, hk⟩
    have hk0 : 0 ≤ k := nonneg_of_mul_nonneg_right (hk ▸ sub_nonneg.mpr hle) (step_pos period)
    refine ⟨k.toNat, ?_⟩
    rw [Int.toNat_of_nonneg hk0, mul_comm, ← hk]
    ring

/-- The numbers that count are those that the steps reach before the end. -/
lemma hits_iff : hits start stop period n = true ↔ Reaches start period n ∧ n ≤ stop := by
  have hdvd : (period == 0 || (n - start) % period == 0) = true ↔ step period ∣ n - start := by
    rw [step]
    by_cases h : period = 0
    · simp [h]
    · simp [h]
  rw [hits, Bool.and_eq_true, hdvd, reaches_iff, Bool.and_eq_true, decide_eq_true_iff, decide_eq_true_iff]
  tauto

/-! ### Divisions -/

/-- The remainder of a division, which has the sign of the divisor. By zero nothing can be divided. -/
def remainder? (n divisor : ℤ) : Option ℤ :=
  if divisor = 0 then none else some (n.fmod divisor)

/-- Whether a number counts, if that can be told. Nothing is divided before the bounds and the period have
been looked at. -/
def hits? (start stop period n : ℤ) : Option Bool :=
  if ¬ (start ≤ n ∧ n ≤ stop) then some false
  else if period = 0 then some true
  else (remainder? (n - start) period).map (· == 0)

/-- It can always be told. -/
lemma hits?_eq (start stop period n : ℤ) : hits? start stop period n = some (hits start stop period n) := by
  rw [hits?, hits]
  by_cases hn : start ≤ n ∧ n ≤ stop
  · by_cases h : period = 0
    · simp [hn, h]
    · have hmod : ((n - start).fmod period == 0) = ((n - start) % period == 0) := by
        rw [Bool.eq_iff_iff, beq_iff_eq, beq_iff_eq, ← Int.dvd_iff_fmod_eq_zero, Int.dvd_iff_emod_eq_zero]
      simp [hn, h, remainder?, hmod]
  · rw [if_pos hn]
    rcases not_and_or.mp hn with h | h <;> simp [h]

end Period

/-- Whether a year is in a range, if that can be told. -/
def YearRange.covers? (r : YearRange) (year : ℤ) : Option Bool :=
  if !r.hasStart then some false
  else if r.plus && !r.hasStop then some (decide (r.start ≤ year))
  else Period.hits? r.start r.lastYear r.period year

/-- Whether a week is in a range, if that can be told. -/
def WeekRange.covers? (r : WeekRange) (week : ℤ) : Option Bool :=
  if !r.hasStart then some false else Period.hits? r.start r.lastWeek r.period week

lemma YearRange.covers?_eq (r : YearRange) (year : ℤ) : r.covers? year = some (r.covers year) := by
  rw [covers?, covers, Period.hits?_eq]
  cases r.hasStart <;> simp
  split <;> rfl

lemma WeekRange.covers?_eq (r : WeekRange) (week : ℤ) : r.covers? week = some (r.covers week) := by
  rw [covers?, covers, Period.hits?_eq]
  cases r.hasStart <;> rfl

/-! ### Ranges -/

/-- The years of a range. Only one that goes on for ever has no bound, and it has no period. -/
lemma YearRange.covers_iff {r : YearRange} (h : r.check = .ok ()) {year : ℤ} :
    r.covers year = true ↔ Period.Reaches r.start r.period year ∧
      (r.stop ≠ 0 → year ≤ r.stop) ∧ (r.stop = 0 → r.plus = false → year ≤ r.start) := by
  obtain ⟨hstart, -, hperiod⟩ := check_eq_ok_iff.mp h
  by_cases hstop : r.stop = 0
  · have hzero : r.period = 0 := by_contra fun hp => hperiod hp hstop
    cases hplus : r.plus with
    | true =>
      simp [covers, hasStart, hasStop, hstart, hstop, hplus, Period.reaches_iff, hzero, Period.step]
    | false => simp [covers, hasStart, hasStop, hstart, hstop, hplus, lastYear, Period.hits_iff]
  · simp [covers, hasStart, hasStop, hstart, hstop, lastYear, Period.hits_iff]

/-- The weeks of a range. -/
lemma WeekRange.covers_iff {r : WeekRange} (h : r.check = .ok ()) {week : ℤ} :
    r.covers week = true ↔ Period.Reaches r.start r.period week ∧
      (r.stop ≠ 0 → week ≤ r.stop) ∧ (r.stop = 0 → week ≤ r.start) := by
  obtain ⟨⟨hstart, -⟩, -, -⟩ := check_eq_ok_iff.mp h
  have hne : r.start ≠ 0 := by omega
  by_cases hstop : r.stop = 0 <;>
    simp [covers, hasStart, hasStop, hne, hstop, lastWeek, Period.hits_iff]

/-- A range without a fault has the years, or the weeks, that follow its first one in steps of its period as
far as the range goes. The first one is among them, and all weeks are weeks of a year. Whether a number is
in a range can be told of any range and any number: nothing is ever divided by zero. -/
theorem covers_iff_of_check :
    (∀ r : YearRange, r.check = .ok () →
      (∀ year, r.covers year = true ↔ Period.Reaches r.start r.period year ∧
        (r.stop ≠ 0 → year ≤ r.stop) ∧ (r.stop = 0 → r.plus = false → year ≤ r.start)) ∧
      r.covers r.start = true) ∧
    (∀ r : WeekRange, r.check = .ok () →
      (∀ week, r.covers week = true ↔ Period.Reaches r.start r.period week ∧
        (r.stop ≠ 0 → week ≤ r.stop) ∧ (r.stop = 0 → week ≤ r.start)) ∧
      r.covers r.start = true ∧ ∀ week, r.covers week = true → 1 ≤ week ∧ week ≤ 53) ∧
    (∀ (r : YearRange) year, r.covers? year = some (r.covers year)) ∧
    ∀ (r : WeekRange) week, r.covers? week = some (r.covers week) := by
  refine ⟨fun r hr => ⟨fun year => r.covers_iff hr, ?_⟩, fun r hr => ⟨fun week => r.covers_iff hr, ?_, ?_⟩,
    YearRange.covers?_eq, WeekRange.covers?_eq⟩
  · obtain ⟨-, hle, -⟩ := YearRange.check_eq_ok_iff.mp hr
    exact (r.covers_iff hr).mpr ⟨Period.reaches_self _ _, hle, fun _ _ => le_rfl⟩
  · obtain ⟨-, hle, -⟩ := WeekRange.check_eq_ok_iff.mp hr
    exact (r.covers_iff hr).mpr ⟨Period.reaches_self _ _, fun hstop => (hle hstop).1, fun _ => le_rfl⟩
  · intro week hweek
    obtain ⟨⟨hstart, hmax⟩, hle, -⟩ := WeekRange.check_eq_ok_iff.mp hr
    obtain ⟨hreaches, hstop, hsingle⟩ := (r.covers_iff hr).mp hweek
    have hlow : r.start ≤ week := hreaches.le
    refine ⟨hstart.trans hlow, ?_⟩
    by_cases h : r.stop = 0
    · exact (hsingle h).trans hmax
    · exact (hstop h).trans (hle h).2

/-- Every fourth year across the beginning of the count, and every other week from the second one on. -/
theorem covers_iff_of_check_fourth :
    let r : YearRange := { start := -7, stop := 5, period := -4 }
    let s : WeekRange := { start := 2, stop := 53, period := 2 }
    r.check = .ok () ∧ r.covers (-7) = true ∧ r.covers (-3) = true ∧ Period.Reaches (-7) (-4) (-3) ∧
      s.check = .ok () ∧ s.covers 2 = true ∧ ∀ week, s.covers week = true → 1 ≤ week ∧ week ≤ 53 := by
  intro r s
  have hr : r.check = .ok () := by decide
  have hs : s.check = .ok () := by decide
  have hthird : r.covers (-3) = true := by decide
  obtain ⟨hyears, hweeks, -⟩ := covers_iff_of_check
  obtain ⟨hcovers, hstart⟩ := hyears r hr
  exact ⟨hr, hstart, hthird, ((hcovers (-3)).mp hthird).1, hs, (hweeks s hs).2⟩

end OpeningTimes
