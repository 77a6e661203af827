import OpeningTimes.DaySelector
import Mathlib

/-!
Slices in cyclic order, and the days of the week that a range covers.

A slice that runs over the end of a list goes on at its beginning. So it is the beginning of the list after
a rotation, and its items are counted around the list. The days of a range are such a slice of the week.

* `cyclicDistance`: the number of items from one place forward to another one;
* `cyclicSlice_eq_take_rotate`: a slice is the beginning of a rotated list;
* `length_cyclicSlice`, `getElem?_cyclicSlice`, `mem_cyclicSlice_iff`: its items;
* `Weekday.daysUntil`: the number of days from a day forward to another one;
* `WeekdayRange.Includes`, `WeekdayRange.covers_iff`: a range covers the days that come no later after its
  first day than its last day does;
* `cyclicSlice_and_covers_iff`: the items of a slice, and the days of a selection.
-/

namespace OpeningTimes

variable {α : Type} {items : List α} {x : α} {start stop length : ℕ}

/-! ### Slices -/

/-- The number of items from one place of a list forward to another one. -/
def cyclicDistance (length start stop : ℕ) : ℕ :=
  if start ≤ stop then stop - start else length - start + stop

/-- Places are counted around the list. -/
lemma cyclicDistance_eq_emod (hstart : start < length) (hstop : stop < length) :
    (cyclicDistance length start stop : ℤ) = ((stop : ℤ) - start) % length := by
  rw [cyclicDistance]
  split
  · rw [Int.emod_eq_of_lt (by omega) (by omega)]
    omega
  · rw [← Int.add_emod_right, Int.emod_eq_of_lt (by omega) (by omega)]
    omega

lemma cyclicDistance_lt (hstart : start < length) (hstop : stop < length) :
    cyclicDistance length start stop < length := by
  rw [cyclicDistance]
  split <;> omega

/-- An index that is not beyond the end of a list means itself. -/
lemma bound_natCast (hstart : start ≤ length) : bound length start = start := by
  rw [bound, if_neg (by omega), Int.toNat_natCast, min_eq_right hstart]

/-- A slice is the beginning of a rotated list. -/
lemma cyclicSlice_eq_take_rotate (hstart : start < items.length) (hstop : stop < items.length) :
    cyclicSlice items start stop =
      (items.rotate start).take (cyclicDistance items.length start stop + 1) := by
  have hlast : bound items.length ((stop + 1 : ℕ) : ℤ) = stop + 1 := bound_natCast hstop
  have hdrop : (items.drop start).length = items.length - start := List.length_drop
  simp only [cyclicSlice, ← Nat.cast_succ, Nat.succ_eq_add_one, bound_natCast hstart.le, hlast, Nat.cast_le]
  rw [List.rotate_eq_drop_append_take hstart.le, cyclicDistance]
  by_cases h : start ≤ stop
  · -- the slice ends before the list does
    rw [if_pos h, if_pos h, slice, List.drop_take, List.take_append_of_le_length (by omega)]
    congr 1
    omega
  · -- the slice takes all items up to the end, and goes on at the beginning
    have hall : (items.drop start).take (items.length - start + stop + 1) = items.drop start :=
      List.take_of_length_le (by omega)
    rw [if_neg h, if_neg h, List.take_append, hall, List.take_take, hdrop]
    congr 2
    omega

lemma length_cyclicSlice (hstart : start < items.length) (hstop : stop < items.length) :
    (cyclicSlice items start stop).length = cyclicDistance items.length start stop + 1 := by
  have hlt := cyclicDistance_lt hstart hstop
  rw [cyclicSlice_eq_take_rotate hstart hstop, List.length_take, List.length_rotate]
  omega

/-- The items of a slice are counted around the list. -/
lemma getElem?_cyclicSlice (hstart : start < items.length) (hstop : stop < items.length) {i : ℕ}
    (hi : i ≤ cyclicDistance items.length start stop) :
    (cyclicSlice items start stop)[i]? = items[(start + i) % items.length]? := by
  have hlt := cyclicDistance_lt hstart hstop
  rw [cyclicSlice_eq_take_rotate hstart hstop, List.getElem?_take_of_lt (by omega),
    List.getElem?_rotate (by omega), add_comm]

/-- An item is in a slice if it is not too far from the first one. -/
lemma mem_cyclicSlice_iff (hstart : start < items.length) (hstop : stop < items.length) :
    x ∈ cyclicSlice items start stop ↔
      ∃ i ≤ cyclicDistance items.length start stop, items[(start + i) % items.length]? = some x := by
  rw [List.mem_iff_getElem?]
  constructor
  · rintro ⟨i, hi⟩
    have hlt : i < (cyclicSlice items start stop).length := (List.getElem?_eq_some_iff.mp hi).1
    have hle : i ≤ cyclicDistance items.length start stop := by
      rw [length_cyclicSlice hstart hstop] at hlt
      omega
    exact ⟨i, hle, (getElem?_cyclicSlice hstart hstop hle).symm.trans hi⟩
  · rintro ⟨i, hle, hi⟩
    exact ⟨i, (getElem?_cyclicSlice hstart hstop hle).trans hi⟩

/-! ### Days of the week -/

namespace Weekday

variable {a b d : Weekday}

/-- The number of days from a day forward to another one. -/
def daysUntil (d e : Weekday) : ℤ :=
  ((e.index : ℤ) - d.index) % 7

lemma length_all : all.length = 7 :=
  rfl

lemma index_lt (d : Weekday) : d.index < 7 := by
  cases d <;> decide

lemma getElem?_all_iff {k : ℕ} : all[k]? = some d ↔ k = d.index := by
  have hall : all[d.index]? = some d := by cases d <;> rfl
  have hnodup : all.Nodup := by decide
  constructor
  · intro h
    exact (List.getElem?_inj (List.getElem?_eq_some_iff.mp h).1 hnodup).mp (h.trans hall.symm)
  · rintro rfl
    exact hall

/-- Only the day itself is no day away. -/
lemma daysUntil_le_zero_iff : a.daysUntil d ≤ 0 ↔ d = a := by
  have hindex : d = a ↔ a.index = d.index := by
    rw [← getElem?_all_iff, getElem?_all_iff.mpr rfl, Option.some.injEq, eq_comm]
  have ha := a.index_lt
  have hd := d.index_lt
  rw [hindex, daysUntil]
  omega

/-- The days of a slice of the week come no later after its first day than its last day does. -/
lemma mem_cyclicSlice_all_iff :
    d ∈ cyclicSlice all a.index b.index ↔ a.daysUntil d ≤ a.daysUntil b := by
  have ha := a.index_lt
  have hd := d.index_lt
  have hdistance : (cyclicDistance 7 a.index b.index : ℤ) = a.daysUntil b :=
    cyclicDistance_eq_emod ha b.index_lt
  rw [mem_cyclicSlice_iff (show a.index < all.length from ha) b.index_lt, ← hdistance]
  simp only [getElem?_all_iff, length_all, daysUntil]
  constructor
  · rintro ⟨i, hi, h⟩
    omega
  · intro h
    exact ⟨(((d.index : ℤ) - a.index) % 7).toNat, by omega, by omega⟩

end Weekday

namespace WeekdayRange

variable {r : WeekdayRange} {d : Weekday}

/-- A day comes no later after the first day of a range than the last day does. A range without a last day
ends with its first one. -/
def Includes (r : WeekdayRange) (d : Weekday) : Prop :=
  ∃ first, r.start = some first ∧ first.daysUntil d ≤ r.stop.elim 0 first.daysUntil

lemma covers_iff : r.covers (some d) = true ↔ r.Includes d := by
  rw [covers, List.contains_iff_mem, days, Includes]
  cases hstart : r.start with
  | none => simp
  | some a =>
    cases hstop : r.stop with
    | none => simp [Weekday.daysUntil_le_zero_iff]
    | some b =>
      simp only [Option.some.injEq, exists_eq_left', Option.elim_some]
      exact Weekday.mem_cyclicSlice_all_iff

end WeekdayRange

/-- A slice has as many items as there are from its first place forward to its last one, both included, and
its items are counted around the list. So a selection covers the days that one of its ranges includes. -/
theorem cyclicSlice_and_covers_iff (hstart : start < items.length) (hstop : stop < items.length) :
    ((cyclicSlice items start stop).length : ℤ) = ((stop : ℤ) - start) % items.length + 1 ∧
      (∀ i < (cyclicSlice items start stop).length,
        (cyclicSlice items start stop)[i]? = items[(start + i) % items.length]?) ∧
      ∀ (s : DaySelector) (d : Weekday), s.covers (some d) = true ↔ ∃ r ∈ s.ranges, r.Includes d := by
  refine ⟨?_, fun i hi => ?_, fun s d => ?_⟩
  · rw [length_cyclicSlice hstart hstop, Nat.cast_succ, cyclicDistance_eq_emod hstart hstop]
  · rw [length_cyclicSlice hstart hstop] at hi
    exact getElem?_cyclicSlice hstart hstop (by omega)
  · simp only [DaySelector.covers, List.any_eq_true, WeekdayRange.covers_iff]

/-- From Friday to Monday there are four days, the third of which is Sunday. A selection of these days covers
Sunday and does not cover Tuesday. -/
theorem cyclicSlice_and_covers_iff_friday :
    let days := cyclicSlice Weekday.all (5 : ℕ) (1 : ℕ)
    let s : DaySelector := { ranges := [{ start := some .friday, stop := some .monday }] }
    5 < Weekday.all.length ∧ 1 < Weekday.all.length ∧ days.length = 4 ∧ days[2]? = some .sunday ∧
      s.covers (some .sunday) = true ∧ ¬ s.covers (some .tuesday) = true := by
  intro days s
  have hstart : 5 < Weekday.all.length := by decide
  have hstop : 1 < Weekday.all.length := by decide
  obtain ⟨hlength, hitems, hcovers⟩ := cyclicSlice_and_covers_iff hstart hstop
  have hfour : days.length = 4 := Int.ofNat_inj.mp (hlength.trans (by decide))
  refine ⟨hstart, hstop, hfour, ?_, (hcovers s .sunday).mpr ?_, fun htuesday => ?_⟩
  · exact hitems 2 (by rw [hfour]; decide)
  · exact ⟨_, List.mem_singleton_self _, .friday, rfl, by decide⟩
  · obtain ⟨r, hr, first, hfirst, hle⟩ := (hcovers s .tuesday).mp htuesday
    obtain rfl := List.mem_singleton.mp hr
    obtain rfl := Option.some.inj hfirst
    exact absurd hle (by decide)

end OpeningTimes
