import OpeningTimes.Validity
import Mathlib

/-!
What the checks of the parts of a rule find.

A check is a list of smaller checks, of which the first one that fails decides. So a part has no fault if
no smaller check finds one, and a fault of the part is the fault that one of them finds.

* `Fault.when_eq_ok_iff`, `Fault.andThen_eq_ok_iff` and their companions for faults: checks one after the
  other;
* `Time.check_eq_ok_iff`, `Timespan.check_eq_ok_iff`, `WeekdayRange.check_eq_ok_iff`,
  `DateRange.check_eq_ok_iff`, `YearRange.check_eq_ok_iff`, `WeekRange.check_eq_ok_iff`: the parts without
  a fault;
* `Time.eq_of_check`, `Timespan.check_of_error`, `WeekdayRange.check_of_error`,
  `DateRange.check_of_error`: where a fault comes from.
-/

namespace OpeningTimes

/-! ### Checks one after the other -/

namespace Fault

variable {wrong : Bool} {fault f : Fault} {x y : Except Fault Unit} {α : Type} {check : α → Except Fault Unit}
  {xs : List α}

@[simp]
lemma when_eq_ok_iff : Fault.when wrong fault = .ok () ↔ wrong = false := by
  cases wrong <;> simp [Fault.when]

@[simp]
lemma when_eq_error_iff : Fault.when wrong fault = .error f ↔ wrong = true ∧ fault = f := by
  cases wrong <;> simp [Fault.when]

/-- Two checks find no fault if neither does. -/
@[simp]
lemma andThen_eq_ok_iff : (x >>= fun _ => y) = .ok () ↔ x = .ok () ∧ y = .ok () := by
  cases x <;> simp [bind, Except.bind]

/-- The second check is made only if the first one finds no fault. -/
@[simp]
lemma andThen_eq_error_iff :
    (x >>= fun _ => y) = .error f ↔ x = .error f ∨ x = .ok () ∧ y = .error f := by
  cases x <;> simp [bind, Except.bind]

@[simp]
lemma pure_eq_ok : (pure () : Except Fault Unit) = .ok () :=
  rfl

/-- Checks of the items of a list find no fault if no item has one. -/
lemma forM_eq_ok_iff : forM xs check = .ok () ↔ ∀ x ∈ xs, check x = .ok () := by
  induction xs with
  | nil => simp
  | cons x xs ih => rw [List.forM_cons, andThen_eq_ok_iff, ih, List.forall_mem_cons]

/-- The fault of a list is the fault of an item. -/
lemma exists_of_forM (h : forM xs check = .error f) : ∃ x ∈ xs, check x = .error f := by
  induction xs with
  | nil => cases h
  | cons x xs ih =>
    rw [List.forM_cons, andThen_eq_error_iff] at h
    rcases h with h | ⟨-, h⟩
    · exact ⟨x, List.mem_cons_self, h⟩
    · obtain ⟨z, hz, hf⟩ := ih h
      exact ⟨z, List.mem_cons_of_mem x hz, hf⟩

end Fault

/-! ### Times -/

lemma Duration.withinHours_iff {d : Duration} {hours : ℤ} :
    d.withinHours hours = true ↔ 0 ≤ d.micros ∧ d.micros ≤ hours * 60 * microsPerMinute := by
  simp [withinHours]

namespace Time

variable {t : Time} {name : Text} {f : Fault}

lemma check_eq_ok_iff :
    t.check name = .ok () ↔ t.isSet = true ∧ (t.isClock = true → t.duration.withinHours maxHours = true) := by
  simp [check]

/-- The fault of a moment that is set is that its clock does not show it. -/
lemma eq_of_check (ht : t.isSet = true) (h : t.check name = .error f) : f = .timeOutOfRange name := by
  simp only [check, Fault.andThen_eq_error_iff, Fault.when_eq_error_iff, ht] at h
  rcases h with ⟨hset, -⟩ | ⟨-, -, rfl⟩
  · cases hset
  · rfl

end Time

namespace Timespan

variable {s : Timespan} {f : Fault}

lemma check_eq_ok_iff :
    s.check = .ok () ↔
      s.hasStart = true ∧ s.start.check "beginning".toList = .ok () ∧
        (s.hasStop = true → s.stop.check "end".toList = .ok ()) ∧
        (s.hasPeriod = true → s.checkPeriod = .ok ()) := by
  rw [check]
  cases s.hasStop <;> cases s.hasPeriod <;> simp

/-- The fault of a span with a beginning is that of a moment or of the period. -/
lemma check_of_error (hs : s.hasStart = true) (h : s.check = .error f) :
    s.start.check "beginning".toList = .error f ∨
      (s.hasStop = true ∧ s.stop.check "end".toList = .error f) ∨
      (s.hasPeriod = true ∧ s.checkPeriod = .error f) := by
  have hperiod : (if s.hasPeriod = true then s.checkPeriod else pure ()) = .error f →
      s.hasPeriod = true ∧ s.checkPeriod = .error f := by
    intro h
    split at h
    · next hp => exact ⟨hp, h⟩
    · cases h
  simp only [check, hs, Fault.andThen_eq_error_iff, Fault.when_eq_error_iff] at h
  rcases h with ⟨hnone, -⟩ | ⟨-, h | ⟨-, h⟩⟩
  · cases hnone
  · exact Or.inl h
  · refine Or.inr ?_
    split at h
    · next hstop =>
      rcases Fault.andThen_eq_error_iff.mp h with h | ⟨-, h⟩
      · exact Or.inl ⟨hstop, h⟩
      · exact Or.inr (hperiod h)
    · exact Or.inr (hperiod h)

/-- A period has no fault if the span ends and the period is a length of time. -/
lemma checkPeriod_eq_ok_iff :
    s.checkPeriod = .ok () ↔
      s.hasStop = true ∧ s.period.isEvent = false ∧ 0 < s.period.duration.micros := by
  simp [checkPeriod, Duration.isPositive]

lemma eq_of_checkPeriod (hs : s.hasStop = true) (h : s.checkPeriod = .error f) : f = .periodNotPositive := by
  simp only [checkPeriod, Fault.andThen_eq_error_iff, Fault.when_eq_error_iff, hs] at h
  rcases h with ⟨hstop, -⟩ | ⟨-, -, rfl⟩
  · cases hstop
  · rfl

end Timespan

/-! ### Weekdays -/

namespace NthRange

variable {n : NthRange} {f : Fault}

lemma check_eq_ok_iff :
    n.check = .ok () ↔
      n.start.isSome = true ∧ (n.stop.isSome = true →
        0 < Nth.numberOf n.start ∧ Nth.numberOf n.start ≤ Nth.numberOf n.stop) := by
  cases hstart : n.start <;> simp [check, hstart]

lemma eq_of_check (hn : n.start.isSome = true) (h : n.check = .error f) : f = .nthReversed n.text := by
  simp only [check, Fault.andThen_eq_error_iff, Fault.when_eq_error_iff] at h
  rcases h with ⟨hstart, -⟩ | ⟨-, -, rfl⟩
  · rw [Option.isNone_iff_eq_none] at hstart
    rw [hstart] at hn
    cases hn
  · rfl

end NthRange

namespace WeekdayRange

variable {r : WeekdayRange} {f : Fault}

lemma check_eq_ok_iff :
    r.check = .ok () ↔
      r.start.isSome = true ∧ (r.stop.isSome = true → r.hasNth = false ∧ r.hasOffset = false) ∧
        ∀ n ∈ r.nths, n.check = .ok () := by
  cases hstart : r.start <;> simp [check, Fault.forM_eq_ok_iff, hstart]

/-- The fault of a range that is put together rightly is that of a range of occurrences. -/
lemma check_of_error (hstart : r.start.isSome = true)
    (hsingle : r.stop.isSome = true → r.hasNth = false ∧ r.hasOffset = false) (h : r.check = .error f) :
    ∃ n ∈ r.nths, n.check = .error f := by
  simp only [check, Fault.andThen_eq_error_iff, Fault.when_eq_error_iff, List.forM_eq_forM] at h
  rcases h with ⟨hnone, -⟩ | ⟨-, ⟨hboth, -⟩ | ⟨-, h⟩⟩
  · rw [Option.isNone_iff_eq_none] at hnone
    rw [hnone] at hstart
    cases hstart
  · rw [Bool.and_eq_true, Bool.or_eq_true] at hboth
    obtain ⟨hnth, hoffset⟩ := hsingle hboth.1
    rcases hboth.2 with h | h
    · exact absurd h (Bool.eq_false_iff.mp hnth)
    · exact absurd h (Bool.eq_false_iff.mp hoffset)
  · exact Fault.exists_of_forM h

end WeekdayRange

/-! ### Dates -/

namespace DateRange

variable {r : DateRange} {f : Fault}

lemma check_eq_ok_iff :
    r.check = .ok () ↔
      r.hasStart = true ∧ r.start.check false = .ok () ∧
        (if r.hasStop then r.stop.check true = .ok () else r.hasPeriod = false) := by
  rw [check]
  cases r.hasStop <;> simp

/-- The fault of a range with a first date is that of a date, or that nothing ends a repetition. -/
lemma check_of_error (hr : r.hasStart = true) (h : r.check = .error f) :
    r.start.check false = .error f ∨ r.stop.check true = .error f ∨
      (r.hasPeriod = true ∧ f = .repeatingDateRangeWithoutEnd) := by
  simp only [check, hr, Fault.andThen_eq_error_iff, Fault.when_eq_error_iff] at h
  rcases h with ⟨hnone, -⟩ | ⟨-, h | ⟨-, h⟩⟩
  · cases hnone
  · exact Or.inl h
  · split at h
    · exact Or.inr (Or.inl h)
    · obtain ⟨hperiod, rfl⟩ := Fault.when_eq_error_iff.mp h
      exact Or.inr (Or.inr ⟨hperiod, rfl⟩)

end DateRange

/-! ### Years and weeks -/

/-- A range of years has no fault if it has a first year, does not end before it, and is repeated only if it
ends. -/
lemma YearRange.check_eq_ok_iff {r : YearRange} :
    r.check = .ok () ↔
      r.start ≠ 0 ∧ (r.stop ≠ 0 → r.start ≤ r.stop) ∧ (r.period ≠ 0 → r.stop ≠ 0) := by
  simp [check, hasStart, hasStop, hasPeriod]

/-- A range of weeks has no fault if the year has all its weeks in this order, and if it is repeated only
if it ends. -/
lemma WeekRange.check_eq_ok_iff {r : WeekRange} :
    r.check = .ok () ↔
      (1 ≤ r.start ∧ r.start ≤ maxWeek) ∧
        (r.stop ≠ 0 → r.start ≤ r.stop ∧ r.stop ≤ maxWeek) ∧ (r.period ≠ 0 → r.stop ≠ 0) := by
  rw [check]
  by_cases h : r.stop = 0 <;> simp [hasStop, hasPeriod, h]

end OpeningTimes
