import OpeningTimes.Time
import Mathlib

/-!
Sums and differences of many moments.

A moment without an event becomes a time on the clock when it meets one, or when it is more than an hour
long, and it stays one even if it gets shorter again. So the kind of a sum is not told by its duration
alone, but by all the durations on the way.

* `Time.Step`, `Time.run?`: adding and subtracting moments one after the other;
* `Time.microsAfter`: the signed sum of the durations;
* `Time.MeetsHours`: what makes a moment a time on the clock on the way;
* `Time.RunsTo`: the duration, the event and the kind of the result;
* `Time.runsTo_next?`: the result of a single step;
* `Time.RunsTo.cons`: the result of one more step before some others;
* `Time.run?_eq_some_iff`: a run has exactly this result, and has it whenever it stays in range.
-/

namespace OpeningTimes.Time

/-- A step from a moment to another one. -/
inductive Step where
  /-- Later by a moment. -/
  | later (u : Time)
  /-- Earlier by a moment. -/
  | earlier (u : Time)

namespace Step

/-- The moment that is added or subtracted. -/
def operand : Step → Time
  | later u => u
  | earlier u => u

/-- The signed duration of a step. -/
def micros : Step → ℤ
  | later u => u.duration.micros
  | earlier u => -u.duration.micros

/-- A moment after a step, unless it is out of range. -/
def next? (t : Time) : Step → Option Time
  | later u => t.add? u
  | earlier u => t.sub? u

end Step

/-- A moment after some steps, unless one of them is out of range. -/
def run? (t : Time) (steps : List Step) : Option Time :=
  steps.foldlM Step.next? t

/-- The duration of a moment with the signed durations of some steps. -/
def microsAfter (t : Time) (steps : List Step) : ℤ :=
  t.duration.micros + (steps.map Step.micros).sum

/-- A moment is a time on the clock, meets one among some steps, or is more than an hour long after the
first of them, after the first two, and so on. -/
def MeetsHours (t : Time) (steps : List Step) : Prop :=
  t.isClock = true ∨ (∃ s ∈ steps, s.operand.isClock = true) ∨
    ∃ p, p <+: steps ∧ p ≠ [] ∧ 60 * Duration.microsPerMinute < |t.microsAfter p|

/-- What some steps make of a moment. The events of the steps do not matter. -/
structure RunsTo (t : Time) (steps : List Step) (u : Time) : Prop where
  inRange : ∀ p, p <+: steps → Duration.InRange (t.microsAfter p)
  micros : u.duration.micros = t.microsAfter steps
  event : u.event = t.event
  offset : t.event ≠ none → u.kind = .eventOffset
  clock : t.event = none → t.MeetsHours steps → u.kind = .clock
  minutes : t.event = none → ¬ t.MeetsHours steps → u.kind = .minutes

variable {t u v : Time} {s : Step} {steps : List Step}

/-! ### Sums on the way -/

/-- The sums on the way are that of no step, and those of the first step and some of the others. -/
lemma forall_prefix_cons_iff {P : List Step → Prop} :
    (∀ p, p <+: s :: steps → P p) ↔ P [] ∧ ∀ p, p <+: steps → P (s :: p) := by
  simp only [← List.mem_inits, List.inits_cons, List.forall_mem_cons, List.forall_mem_map]

lemma exists_prefix_cons_iff {P : List Step → Prop} :
    (∃ p, p <+: s :: steps ∧ P p) ↔ P [] ∨ ∃ p, p <+: steps ∧ P (s :: p) := by
  simp [← List.mem_inits]

/-- The durations after a step are those of the moment that it makes. -/
lemma microsAfter_cons (h : v.duration.micros = t.microsAfter [s]) (steps : List Step) :
    t.microsAfter (s :: steps) = v.microsAfter steps := by
  rw [microsAfter, microsAfter, h]
  simp [microsAfter, add_assoc]

lemma microsAfter_nil (t : Time) : t.microsAfter [] = t.duration.micros := by
  rw [microsAfter, List.map_nil, List.sum_nil, add_zero]

/-! ### A single step -/

/-- Later and earlier differ in the sign of the duration only. -/
lemma next?_eq (t : Time) (s : Step) :
    s.next? t = (Duration.ofMicros? (t.microsAfter [s])).map
      (promoted · t.event (t.isClock || s.operand.isClock)) := by
  cases s with
  | later w => simp [Step.next?, add?, Duration.add?, microsAfter, Step.micros, Step.operand]
  | earlier w =>
    simp [Step.next?, sub?, Duration.sub?, microsAfter, Step.micros, Step.operand, sub_eq_add_neg]

lemma exceedsHour_eq_true_iff {d : Duration} :
    d.exceedsHour = true ↔ 60 * Duration.microsPerMinute < |d.micros| := by
  rw [Duration.exceedsHour, Duration.microsPerMinute, decide_eq_true_iff, Int.abs_eq_natAbs]
  omega

/-- There is one step to meet hours in, and one duration after it. -/
lemma meetsHours_singleton :
    t.MeetsHours [s] ↔ t.isClock = true ∨ s.operand.isClock = true ∨
      60 * Duration.microsPerMinute < |t.microsAfter [s]| := by
  rw [MeetsHours, exists_prefix_cons_iff]
  simp

/-- The result of a single step. -/
lemma runsTo_next? (h : s.next? t = some v) : t.RunsTo [s] v := by
  rw [next?_eq] at h
  obtain ⟨d, hd, rfl⟩ := Option.map_eq_some_iff.mp h
  have hmicros : d.micros = t.microsAfter [s] := Duration.ofMicros?_eq_some_iff.mp hd
  have hrange : ∀ p, p <+: [s] → Duration.InRange (t.microsAfter p) := by
    rw [forall_prefix_cons_iff, microsAfter_nil]
    refine ⟨t.duration.inRange, fun p hp => ?_⟩
    rw [List.prefix_nil.mp hp, ← hmicros]
    exact d.inRange
  have hmeets : t.MeetsHours [s] ↔ (t.isClock || s.operand.isClock || d.exceedsHour) = true := by
    rw [meetsHours_singleton, ← hmicros, ← exceedsHour_eq_true_iff]
    simp [or_assoc]
  cases he : t.event with
  | some e => exact ⟨hrange, hmicros, he.symm, fun _ => rfl, by simp [he], by simp [he]⟩
  | none =>
    rw [promoted]
    split
    · next hclock =>
      exact ⟨hrange, hmicros, he.symm, by simp [he], fun _ _ => rfl,
        fun _ hn => absurd (hmeets.mpr hclock) hn⟩
    · next hclock =>
      exact ⟨hrange, hmicros, he.symm, by simp [he], fun _ hm => absurd (hmeets.mp hm) hclock,
        fun _ _ => rfl⟩

/-! ### A run -/

/-- Hours are met in the first step or in the others. -/
lemma meetsHours_cons (h : v.duration.micros = t.microsAfter [s])
    (hclock : v.isClock = true ↔ t.MeetsHours [s]) :
    t.MeetsHours (s :: steps) ↔ v.MeetsHours steps := by
  have hprefix : (∃ p, p <+: s :: steps ∧ p ≠ [] ∧ 60 * Duration.microsPerMinute < |t.microsAfter p|) ↔
      60 * Duration.microsPerMinute < |t.microsAfter [s]| ∨
        ∃ p, p <+: steps ∧ p ≠ [] ∧ 60 * Duration.microsPerMinute < |v.microsAfter p| := by
    rw [exists_prefix_cons_iff]
    constructor
    · rintro (⟨hne, -⟩ | ⟨p, hp, -, hm⟩)
      · exact absurd rfl hne
      · cases p with
        | nil => exact Or.inl hm
        | cons r p => exact Or.inr ⟨r :: p, hp, List.cons_ne_nil r p, microsAfter_cons h _ ▸ hm⟩
    · rintro (hm | ⟨p, hp, -, hm⟩)
      · exact Or.inr ⟨[], List.nil_prefix, List.cons_ne_nil s [], hm⟩
      · exact Or.inr ⟨p, hp, List.cons_ne_nil s p, (microsAfter_cons h p).symm ▸ hm⟩
  rw [MeetsHours, hprefix, MeetsHours, hclock, meetsHours_singleton]
  simp only [List.mem_cons, exists_eq_or_imp, or_assoc, or_left_comm]

/-- One more step before some others. -/
lemma RunsTo.cons (h : t.RunsTo [s] v) (hu : v.RunsTo steps u) : t.RunsTo (s :: steps) u := by
  have hmeets : t.event = none → (t.MeetsHours (s :: steps) ↔ v.MeetsHours steps) := by
    intro he
    refine meetsHours_cons h.micros ⟨fun hv => ?_, fun hm => ?_⟩
    · by_contra hm
      rw [isClock, h.minutes he hm] at hv
      cases hv
    · rw [isClock, h.clock he hm]
      rfl
  refine ⟨?_, ?_, hu.event.trans h.event, fun he => hu.offset (h.event ▸ he), ?_, ?_⟩
  · refine forall_prefix_cons_iff.mpr ⟨h.inRange [] List.nil_prefix, fun p hp => ?_⟩
    rw [microsAfter_cons h.micros]
    exact hu.inRange p hp
  · rw [microsAfter_cons h.micros]
    exact hu.micros
  · exact fun he hm => hu.clock (h.event.trans he) ((hmeets he).mp hm)
  · exact fun he hm => hu.minutes (h.event.trans he) (mt (hmeets he).mpr hm)

lemma run?_cons_eq_some_iff :
    t.run? (s :: steps) = some u ↔ ∃ v, s.next? t = some v ∧ v.run? steps = some u := by
  rw [run?, List.foldlM_cons]
  exact Option.bind_eq_some_iff

/-- The result of a run. -/
lemma runsTo_of_run? (h : t.run? (s :: steps) = some u) : t.RunsTo (s :: steps) u := by
  induction steps generalizing t s with
  | nil =>
    obtain ⟨v, hv, hu⟩ := run?_cons_eq_some_iff.mp h
    obtain rfl : v = u := Option.some.inj hu
    exact runsTo_next? hv
  | cons s' steps ih =>
    obtain ⟨v, hv, hu⟩ := run?_cons_eq_some_iff.mp h
    exact (runsTo_next? hv).cons (ih hu)

/-- A run has a result if it stays in range. -/
lemma exists_run? (h : ∀ p, p <+: steps → Duration.InRange (t.microsAfter p)) :
    ∃ u, t.run? steps = some u := by
  induction steps generalizing t with
  | nil => exact ⟨t, rfl⟩
  | cons s steps ih =>
    obtain ⟨-, hsteps⟩ := forall_prefix_cons_iff.mp h
    obtain ⟨v, hv⟩ : ∃ v, s.next? t = some v := by
      rw [next?_eq, Duration.ofMicros?, dif_pos (hsteps [] List.nil_prefix)]
      exact ⟨_, rfl⟩
    obtain ⟨u, hu⟩ := ih (t := v) fun p hp => by
      rw [← microsAfter_cons (runsTo_next? hv).micros]
      exact hsteps p hp
    exact ⟨u, run?_cons_eq_some_iff.mpr ⟨v, hv, hu⟩⟩

/-- Nothing else could be the result. -/
lemma RunsTo.unique (hu : t.RunsTo steps u) (hv : t.RunsTo steps v) : u = v := by
  have hkind : u.kind = v.kind := by
    by_cases he : t.event = none
    · by_cases hm : t.MeetsHours steps
      · exact (hu.clock he hm).trans (hv.clock he hm).symm
      · exact (hu.minutes he hm).trans (hv.minutes he hm).symm
    · exact (hu.offset he).trans (hv.offset he).symm
  have hduration : u.duration = v.duration := Duration.ext (hu.micros.trans hv.micros.symm)
  have hevent : u.event = v.event := hu.event.trans hv.event.symm
  rcases u with ⟨kind, duration, event⟩
  rcases v with ⟨kind', duration', event'⟩
  rw [Time.mk.injEq]
  exact ⟨hkind, hduration, hevent⟩

/-- At least one step makes the moment whose duration is the sum, whose event is that of the first moment,
and whose kind remembers whether there have been hours on the way. It does so unless a sum on the way is out
of range. -/
theorem run?_eq_some_iff : t.run? (s :: steps) = some u ↔ t.RunsTo (s :: steps) u := by
  constructor
  · exact runsTo_of_run?
  · intro h
    obtain ⟨v, hv⟩ := exists_run? h.inRange
    rw [hv, (runsTo_of_run? hv).unique h]

/-- More than an hour on the way makes a time on the clock of what is less than an hour in the end. -/
example :
    (do (← ofMinutes? 30).run? [.later (← ofMinutes? 40), .earlier (← ofMinutes? 50)]) =
      ofHoursMinutes? 0 20 := by decide

end OpeningTimes.Time
