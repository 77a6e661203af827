import OpeningTimes.Time
import Mathlib

/-!
The kinds of the moments that can be made.

A moment is a record of a kind, a duration and an event, and nothing in the record ties the three
together. What ties them together is how moments are made: of numbers, of events and of other moments.

* `Time.Reachable`: the moments that are made by the constructors and the operations, in any order and
  any number of times;
* `Time.consistent_promoted`, `Time.Consistent.withEvent`, `Time.Consistent.neg`: no single step makes
  a moment whose kind does not go with its duration and its event;
* `Time.Reachable.consistent`, `Time.Consistent.reachable`: what a run of steps makes, and how to make it;
* `Time.reachable_iff_consistent`: the moments that can be made are the consistent ones.
-/

namespace OpeningTimes.Time

variable {t u : Time}

/-- The moments that can be made. A step that is out of range makes none, and neither does one without
the event that it asks for. -/
inductive Reachable : Time → Prop where
  | unset : Reachable {}
  | ofHours {hours : ℤ} {t : Time} (h : ofHours? hours = some t) : Reachable t
  | ofHoursMinutes {hours minutes : ℤ} {t : Time} (h : ofHoursMinutes? hours minutes = some t) :
    Reachable t
  | ofMinutes {minutes : ℤ} {t : Time} (h : ofMinutes? minutes = some t) : Reachable t
  | ofEvent {event : Option Event} {offset : Option Duration} {t : Time}
    (h : ofEvent? event offset = .ok t) : Reachable t
  | withEvent {t : Time} (ht : Reachable t) (event : Option Event) : Reachable (t.withEvent event)
  | add {t u v : Time} (ht : Reachable t) (hu : Reachable u) (h : t.add? u = some v) : Reachable v
  | sub {t u v : Time} (ht : Reachable t) (hu : Reachable u) (h : t.sub? u = some v) : Reachable v
  | neg {t u : Time} (ht : Reachable t) (h : t.neg? = some u) : Reachable u

/-! ### Every step makes a consistent moment -/

lemma consistent_ofDuration (d : Duration) : (ofDuration d).Consistent :=
  rfl

/-- A sum that is not promoted to a time on the clock is at most an hour. -/
lemma consistent_promoted (d : Duration) (e : Option Event) (wasClock : Bool) :
    (promoted d e wasClock).Consistent := by
  cases e with
  | some e => rfl
  | none =>
    rw [promoted]
    split
    · exact consistent_ofDuration d
    · next h =>
      rw [Bool.or_eq_true, not_or, Bool.not_eq_true, Bool.not_eq_true] at h
      exact ⟨rfl, h.2⟩

lemma consistent_ofEvent (e : Event) (o : Option Duration) : (ofEvent e o).Consistent := by
  cases o with
  | none => exact ⟨rfl, rfl⟩
  | some d => rfl

/-- An event that comes or goes takes the kind with it. -/
lemma Consistent.withEvent (h : t.Consistent) (e : Option Event) : (t.withEvent e).Consistent := by
  cases e with
  | none =>
    rw [Time.withEvent]
    split
    · exact ⟨rfl, rfl⟩
    · exact consistent_ofDuration _
    · exact h
  | some e =>
    rw [Time.withEvent]
    split <;> exact consistent_ofEvent e _

/-- The opposite of no time at all is no time at all, and what is at most an hour in one direction is so
in the other. -/
lemma Consistent.neg (h : t.Consistent) (hu : t.neg? = some u) : u.Consistent := by
  obtain ⟨d, hd, rfl⟩ := Option.map_eq_some_iff.mp hu
  have hmicros : d.micros = -t.duration.micros := Duration.ofMicros?_eq_some_iff.mp hd
  have hzero : t.duration = .zero → d = .zero := by
    intro hz
    rw [hz] at hmicros
    exact Duration.ext hmicros
  have hexceeds : d.exceedsHour = t.duration.exceedsHour := by
    rw [Duration.exceedsHour, Duration.exceedsHour, hmicros, Int.natAbs_neg]
  rcases t with ⟨kind, duration, event⟩
  cases kind with
  | unset => exact ⟨hzero h.1, h.2⟩
  | minutes => exact ⟨h.1, hexceeds.trans h.2⟩
  | clock => exact h
  | event => exact ⟨h.1, hzero h.2⟩
  | eventOffset => exact h

/-- What can be made is consistent. -/
lemma Reachable.consistent (h : t.Reachable) : t.Consistent := by
  induction h with
  | unset => exact ⟨rfl, rfl⟩
  | ofHours h =>
    obtain ⟨d, -, rfl⟩ := Option.map_eq_some_iff.mp h
    exact consistent_ofDuration d
  | ofHoursMinutes h =>
    obtain ⟨d, -, rfl⟩ := Option.map_eq_some_iff.mp h
    exact consistent_ofDuration d
  | ofMinutes h =>
    obtain ⟨d, -, rfl⟩ := Option.map_eq_some_iff.mp h
    exact consistent_promoted d none false
  | @ofEvent event offset t h =>
    cases event with
    | none => cases h
    | some e =>
      obtain rfl := Except.ok.inj h
      exact consistent_ofEvent e offset
  | withEvent _ event ih => exact ih.withEvent event
  | add _ _ h _ _ =>
    obtain ⟨d, -, rfl⟩ := Option.map_eq_some_iff.mp h
    exact consistent_promoted d _ _
  | sub _ _ h _ _ =>
    obtain ⟨d, -, rfl⟩ := Option.map_eq_some_iff.mp h
    exact consistent_promoted d _ _
  | neg _ h ih => exact ih.neg h

/-! ### Every consistent moment can be made -/

lemma zero_add? (d : Duration) : Duration.zero.add? d = some d :=
  Duration.ofMicros?_eq_some_iff.mpr (Int.zero_add d.micros).symm

/-- Any duration is the offset of an event. -/
lemma reachable_offset (e : Event) (d : Duration) : (ofEvent e (some d)).Reachable :=
  .ofEvent (show ofEvent? (some e) (some d) = .ok (ofEvent e (some d)) from rfl)

/-- What is consistent can be made. -/
lemma Consistent.reachable (h : t.Consistent) : t.Reachable := by
  rcases t with ⟨kind, d, event⟩
  cases kind with
  | unset =>
    obtain ⟨rfl, rfl⟩ : d = .zero ∧ event = none := h
    exact .unset
  | minutes =>
    -- an offset that is added to nothing leaves its event behind
    obtain ⟨rfl, hd⟩ : event = none ∧ d.exceedsHour = false := h
    refine .add .unset (reachable_offset .sunrise d) ?_
    rw [add?, show (ofEvent Event.sunrise (some d)).duration = d from rfl, zero_add?]
    simp [promoted, isClock, ofEvent, hd]
  | clock =>
    obtain rfl : event = none := h
    exact .withEvent (reachable_offset .sunrise d) none
  | event =>
    obtain ⟨hsome, rfl⟩ : event.isSome ∧ d = .zero := h
    obtain ⟨e, rfl⟩ := Option.isSome_iff_exists.mp hsome
    exact .ofEvent (show ofEvent? (some e) none = .ok (ofEvent e none) from rfl)
  | eventOffset =>
    obtain ⟨e, rfl⟩ := Option.isSome_iff_exists.mp h
    exact reachable_offset e d

/-- The moments that can be made are those whose kind goes with their duration and their event. -/
theorem reachable_iff_consistent : t.Reachable ↔ t.Consistent :=
  ⟨Reachable.consistent, Consistent.reachable⟩

end OpeningTimes.Time
