import OpeningTimes.Proofs.Rules.Regular

/-!
The numbers in the rules of a field.

A rule has a text if its numbers are short. Those of a field are, since each of them has been read from at
least as many digits as it has, and so whatever is read can be written.

* `Rule.Regular.isShort_of_mem_numbers`: the numbers of a regular rule are short;
* `Field.textAll?_of_read`: the rules of a field have a text;
* `Field.canonicalAll_iff_exists_text`: the rules that a field can hold are exactly those that have a text
  and are read from it.
-/

namespace OpeningTimes

open Text

/-! ### The numbers of a rule -/

lemma IsFourDigits.isShort {y : ℤ} (hy : IsFourDigits y) : isShort y = true := by
  unfold IsFourDigits at hy
  exact isShort_of_lt (show y.natAbs < 10 ^ 4 by omega) (by decide)

lemma IsTwoDigits.isShort {n : ℤ} (hn : IsTwoDigits n) : isShort n = true := by
  unfold IsTwoDigits at hn
  exact isShort_of_lt (show n.natAbs < 10 ^ 2 by omega) (by decide)

lemma YearRange.Regular.isShort_of_mem_numbers {r : YearRange} (h : r.Regular) :
    ∀ n ∈ r.numbers, isShort n = true := by
  cases h with
  | single hy plus =>
    unfold YearRange.numbers
    split <;> simp [YearRange.hasStop, hy.isShort]
  | range hy hz hp =>
    unfold YearRange.numbers
    split
    · simp
    · split <;> simp [hy.isShort, hz.isShort, hp.2]

lemma WeekRange.Regular.isShort_of_mem_numbers {r : WeekRange} (h : r.Regular) :
    ∀ n ∈ r.numbers, isShort n = true := by
  cases h with
  | single hw =>
    unfold WeekRange.numbers
    split <;> simp [WeekRange.hasStop, hw.isShort]
  | range hw hv hp =>
    unfold WeekRange.numbers
    split
    · simp
    · split <;> simp [hw.isShort, hv.isShort, hp.2]

/-- The numbers of a date are its year, its day and its shift. -/
lemma Date.isShort_of_mem_numbers {d : Date} (hyear : isShort d.year = true)
    (hday : isShort d.day = true) (hoffset : isShort d.offset.days = true) :
    ∀ n ∈ d.numbers, isShort n = true := by
  have hone : ∀ {b : Bool} {k : ℤ}, isShort k = true → ∀ n ∈ if b then [k] else [], isShort n = true := by
    intro b k hk
    cases b <;> simp [hk]
  rw [Date.numbers, List.forall_mem_append, List.forall_mem_append]
  refine ⟨hone hyear, ?_, hone hoffset⟩
  split
  · simp
  · exact hone hday

lemma Date.Regular.isShort_of_mem_numbers {d : Date} (h : d.Regular) :
    ∀ n ∈ d.numbers, isShort n = true := by
  cases h with
  | day hy m hd ho => exact Date.isShort_of_mem_numbers hy.isShort hd.isShort ho.short
  | movable hy e ho => exact Date.isShort_of_mem_numbers hy.isShort isShort_zero ho.short

lemma DateRange.Regular.isShort_of_mem_numbers {r : DateRange} (h : r.Regular) :
    ∀ n ∈ r.numbers, isShort n = true := by
  have hstart := h.start.isShort_of_mem_numbers
  have hstop : r.hasStop = true →
      (∀ n ∈ r.stop.numbers, isShort n = true) ∧ isShort r.period = true := by
    intro hstop
    cases h with
    | single _ plus => cases hstop
    | toDate _ he hp => exact ⟨he.isShort_of_mem_numbers, hp.2⟩
    | toDay _ hn hp =>
      exact ⟨Date.isShort_of_mem_numbers isShort_zero hn.isShort isShort_zero, hp.2⟩
  rw [DateRange.numbers, List.forall_mem_append]
  constructor
  · split
    · exact hstart
    · simp
  · split
    · next h =>
      rw [List.forall_mem_append, List.forall_mem_singleton]
      exact hstop h
    · simp

lemma WeekdayRange.Canonical.isShort_of_mem_numbers {r : WeekdayRange} (h : r.Canonical) :
    ∀ n ∈ r.numbers, isShort n = true := by
  cases h with
  | range d e => simp [WeekdayRange.numbers]
  | single d hns ho => simp [WeekdayRange.numbers, ho]

lemma Holiday.isShort_of_mem_numbers {h : Holiday} (ho : isShort h.offset = true) :
    ∀ n ∈ h.numbers, isShort n = true := by
  unfold Holiday.numbers
  split <;> simp [ho]

/-- The numbers of a regular rule are short. -/
theorem Rule.Regular.isShort_of_mem_numbers {x : Rule} (h : x.Regular) :
    ∀ n ∈ x.numbers, isShort n = true := by
  have hflat : ∀ {α : Type} {b : Bool} {l : List α} {numbers : α → List ℤ},
      (∀ a ∈ l, ∀ n ∈ numbers a, isShort n = true) →
        ∀ n ∈ if b then l.flatMap numbers else [], isShort n = true := by
    intro α b l numbers hl n hn
    cases b with
    | true =>
      obtain ⟨a, ha, hn⟩ := List.mem_flatMap.mp hn
      exact hl a ha n hn
    | false => cases hn
  unfold Rule.numbers
  split
  · simp
  split
  · simp
  simp only [List.forall_mem_append]
  refine ⟨hflat fun y hy => (h.years y hy).isShort_of_mem_numbers,
    hflat fun d hd => (h.dates d hd).isShort_of_mem_numbers,
    hflat fun w hw => (h.weeks w hw).isShort_of_mem_numbers, ?_⟩
  split
  · rw [DaySelector.numbers, List.forall_mem_append]
    exact ⟨hflat (b := true) fun a ha => Holiday.isShort_of_mem_numbers (h.holidays a ha),
      hflat (b := true) fun d hd => (h.days d hd).isShort_of_mem_numbers⟩
  · simp

namespace Field

variable {field t : Text} {R : List Rule}

/-! ### What is read can be written -/

/-- The rules of a field have a text. -/
theorem textAll?_of_read (h : read field = .ok R) : Rule.textAll? R = some (Rule.textAll R) := by
  rw [Rule.textAll?_eq, whenShort_eq_some_iff]
  refine ⟨fun n hn => ?_, rfl⟩
  obtain ⟨x, hx, hn⟩ := List.mem_flatMap.mp hn
  exact ((regular_of_read h).2 x hx).isShort_of_mem_numbers n hn

lemma write_of_read (h : read field = .ok R) : write R = .ok (Rule.textAll R) := by
  rw [write, textAll?_of_read h]

/-- A text of rules is what they would say whatever their numbers are. -/
lemma eq_textAll_of_textAll? (h : Rule.textAll? R = some t) : t = Rule.textAll R := by
  rw [Rule.textAll?_eq, whenShort_eq_some_iff] at h
  exact h.2.symm

/-- The rules that a field can hold are exactly those that have a text and are read from it. It makes no
difference to them whether the margins of the text are dropped first. -/
theorem canonicalAll_iff_exists_text (R : List Rule) :
    Rule.CanonicalAll R ↔ ∃ t, Rule.textAll? R = some t ∧ readTrimmed t = .ok R ∧ read t = .ok R := by
  constructor
  · intro h
    have hread := (read_textAll_iff R).mp h
    exact ⟨_, textAll?_of_read hread.2, hread⟩
  · rintro ⟨t, ht, hread⟩
    obtain rfl := eq_textAll_of_textAll? ht
    exact (read_textAll_iff R).mpr hread

/-- School holidays are shifted by a short number of days, or else they have no text and are not read from
any. -/
lemma schoolHoliday_cases (n : ℤ) :
    let R : List Rule := [{ days := { holidays := [{ offset := n }] } }]
    (isShort n = true → Rule.CanonicalAll R) ∧
      (isShort n = false → Rule.textAll? R = none ∧ ∀ field, read field ≠ .ok R) := by
  intro R
  refine ⟨fun hn => ?_, fun hn => ⟨?_, fun field h => ?_⟩⟩
  · refine .single (.selectors rfl rfl ⟨by simp, by simp, by simp, ⟨by simp, ?_⟩, by simp, by simp, by simp⟩
      ⟨by simp, by simp, nofun⟩ nofun nofun) rfl
    exact List.forall_mem_singleton.mpr ⟨nofun, hn⟩
  · have hnumbers : R.flatMap Rule.numbers = [n] := rfl
    simp [Rule.textAll?_eq, whenShort, hnumbers, hn]
  · have hx := (regular_of_read h).2 _ (List.mem_singleton_self _)
    have := hx.holidays _ (List.mem_singleton_self _)
    simp [hn] at this

/-- School holidays can be shifted by as many days as 4300 nines denote. One day more, and they have no text
and are not read from any. -/
theorem textAll?_eq_none_of_schoolHoliday :
    let R (n : ℤ) : List Rule := [{ days := { holidays := [{ offset := n }] } }]
    Rule.CanonicalAll (R (10 ^ maxDigits - 1)) ∧ Rule.textAll? (R (10 ^ maxDigits)) = none ∧
      ∀ field, read field ≠ .ok (R (10 ^ maxDigits)) := by
  intro R
  have hpow : ((10 ^ maxDigits : ℕ) : ℤ) = 10 ^ maxDigits := Nat.cast_pow 10 maxDigits
  have hpos : 0 < 10 ^ maxDigits := Nat.pow_pos (by decide)
  have hshort : isShort (10 ^ maxDigits - 1) = true := by
    rw [isShort_iff, ← hpow]
    omega
  have hlong : isShort (10 ^ maxDigits) = false := by
    rw [Bool.eq_false_iff, ne_eq, isShort_iff, ← hpow]
    omega
  exact ⟨(schoolHoliday_cases _).1 hshort, (schoolHoliday_cases _).2 hlong⟩

end Field

end OpeningTimes
