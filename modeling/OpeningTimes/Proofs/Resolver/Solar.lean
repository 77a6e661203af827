import OpeningTimes.Resolver.Solar
import Mathlib

/-!
How often the times of the sun are computed.

Every attempt at the computation may fail, and the first one that succeeds is kept for ever. So there are
as many attempts as there are questions until then, and all answers are those of one attempt.

* `Resolver.after`: what a source has learnt from some questions;
* `Sun.FirstSuccess`: the first attempt that succeeds;
* `Solar.Answers`: the answer to one more question, by what the attempts before it have given;
* `SolarState.After`: the invariant of a run: either all attempts have failed, or the first success is
  known and has been the last attempt;
* `SolarState.After.resolver`, `SolarState.after_questions`: a question keeps it, and so do any questions;
* `Solar.answers_after`: the law of the answers, of the number of attempts, and of the time of a moment.
-/

namespace OpeningTimes

/-- What a source knows after some questions. -/
def Resolver.after {σ : Type} (resolver : Resolver σ) (events : List (Option Event)) (state : σ) : σ :=
  events.foldl (fun s e => (resolver e s).2) state

/-- An attempt gives times, and no attempt before it does. -/
structure Sun.FirstSuccess (sun : Sun) (n : ℕ) (times : SunTimes) : Prop where
  success : sun n = .ok times
  failure : ∀ j < n, ∃ reason, sun j = .error reason

/-- The answer to a question and what is known after it. Without an event nothing is attempted. With one,
there is an attempt if and only if all attempts so far have failed. -/
inductive Solar.Answers (sun : Sun) (s : SolarState) :
    Option Event → Except ResolveError Time × SolarState → Prop where
  | noEvent : Answers sun s none (.error .notEvent, s)
  | known {e : Event} {n : ℕ} {times : SunTimes} (hn : n < s.calls) (h : sun n = .ok times) :
    Answers sun s (some e) (.ok (times.of e).toTime, s)
  | failure {e : Event} {reason : Text} (hs : ∀ j < s.calls, ∃ reason, sun j = .error reason)
    (h : sun s.calls = .error reason) :
    Answers sun s (some e) (.error (.absent reason), { s with calls := s.calls + 1 })
  | success {e : Event} {times : SunTimes} (hs : ∀ j < s.calls, ∃ reason, sun j = .error reason)
    (h : sun s.calls = .ok times) :
    Answers sun s (some e) (.ok (times.of e).toTime, { calls := s.calls + 1, known := some times })

/-- What is known after some questions about events. -/
inductive SolarState.After (sun : Sun) (k : ℕ) : SolarState → Prop where
  | failing (h : ∀ j < k, ∃ reason, sun j = .error reason) : After sun k { calls := k }
  | known {n : ℕ} {times : SunTimes} (hn : n < k) (h : sun.FirstSuccess n times) :
    After sun k { calls := n + 1, known := some times }

variable {sun : Sun} {s : SolarState} {k n : ℕ} {times : SunTimes} {reason : Text}

/-! ### The first success -/

lemma Sun.ne_ok_of_error (h : sun n = .error reason) : sun n ≠ .ok times := by
  rw [h]
  exact nofun

/-- No attempt that succeeds comes before the first one. -/
lemma Sun.FirstSuccess.le (h : sun.FirstSuccess n times) {m : ℕ} {times' : SunTimes}
    (hm : sun m = .ok times') : n ≤ m := by
  by_contra hlt
  obtain ⟨reason, hreason⟩ := h.failure m (not_le.mp hlt)
  exact ne_ok_of_error hreason hm

lemma Sun.FirstSuccess.unique (h : sun.FirstSuccess n times) {m : ℕ} {times' : SunTimes}
    (h' : sun.FirstSuccess m times') : n = m :=
  Nat.le_antisymm (h.le h'.success) (h'.le h.success)

/-! ### A single question -/

namespace SolarState.After

/-- A question about an event keeps the invariant. -/
lemma resolver (h : After sun k s) (e : Event) :
    After sun (k + 1) (Solar.resolver sun (some e) s).2 := by
  cases h with
  | known hn h => exact .known (Nat.lt_succ_of_lt hn) h
  | failing h =>
    simp only [Solar.resolver]
    split
    · next reason hreason =>
      refine .failing fun j hj => ?_
      rcases Nat.lt_succ_iff_lt_or_eq.mp hj with hj | rfl
      · exact h j hj
      · exact ⟨reason, hreason⟩
    · next times htimes => exact .known (Nat.lt_succ_self k) ⟨htimes, h⟩

/-- The answer to a question is the one that the attempts so far ask for. -/
lemma answers (h : After sun k s) (event : Option Event) :
    Solar.Answers sun s event (Solar.resolver sun event s) := by
  cases event with
  | none => exact .noEvent
  | some e =>
    cases h with
    | @known n times hn h => exact .known (Nat.lt_succ_self n) h.success
    | failing h =>
      simp only [Solar.resolver]
      split
      · next hreason => exact .failure h hreason
      · next htimes => exact .success h htimes

/-- There are as many attempts as questions until the first success, and none after it. -/
lemma calls_eq_min (h : After sun k s) (hn : sun.FirstSuccess n times) : s.calls = min k (n + 1) := by
  cases h with
  | failing h =>
    have hk : k ≤ n := by
      by_contra hlt
      obtain ⟨reason, hreason⟩ := h n (not_le.mp hlt)
      exact Sun.ne_ok_of_error hreason hn.success
    exact (min_eq_left (Nat.le_succ_of_le hk)).symm
  | known hlt h =>
    rw [h.unique hn] at hlt ⊢
    exact (min_eq_right hlt).symm

/-- Without a success there are as many attempts as questions. -/
lemma calls_eq (h : After sun k s) (hsun : ∀ n, ∃ reason, sun n = .error reason) : s.calls = k := by
  cases h with
  | failing => rfl
  | @known n times _ h =>
    obtain ⟨reason, hreason⟩ := hsun n
    exact absurd h.success (Sun.ne_ok_of_error hreason)

/-- An answer is that of the first success, which is known from then on. -/
lemma exists_of_ok (h : After sun k s) {event : Option Event} {t : Time} {s' : SolarState}
    (ht : Solar.resolver sun event s = (.ok t, s')) :
    ∃ e n times, event = some e ∧ sun.FirstSuccess n times ∧ t = (times.of e).toTime ∧
      s'.known = some times := by
  cases event with
  | none => cases ht
  | some e =>
    cases h with
    | @known n times _ h =>
      cases ht
      exact ⟨e, n, times, rfl, h, rfl, rfl⟩
    | failing h =>
      simp only [Solar.resolver] at ht
      split at ht
      · cases ht
      · next times htimes =>
        cases ht
        exact ⟨e, k, times, rfl, ⟨htimes, h⟩, rfl, rfl⟩

end SolarState.After

/-! ### The time of a moment -/

namespace Time

variable {σ : Type} {ask : Resolver σ} {state next : σ} {t u : Time}

/-- A moment is resolved by two questions. If the second answer is the first one once more, hours and
minutes are parts of the same number. -/
lemma hoursMinutes_of_ok (ht : t.isEvent = true) (h : ask t.event state = (.ok u, next))
    (hagain : ask t.event next = (.ok u, next)) :
    t.hoursMinutes (some ask) state =
      (.ok (splitMinutes (u.totalMinutes + if t.isEventOffset then t.totalMinutes else 0)), next) := by
  simp [hoursMinutes, hours, minutes, resolvedMinutes, ht, h, hagain, Except.map]

/-- Without a first answer there is no second question. -/
lemma hoursMinutes_of_error {error : ResolveError} (ht : t.isEvent = true)
    (h : ask t.event state = (.error error, next)) :
    t.hoursMinutes (some ask) state = (.error error, next) := by
  simp [hoursMinutes, hours, resolvedMinutes, ht, h, Except.map]

end Time

/-- The hours and the minutes of a moment come from the first success. -/
lemma SolarState.After.exists_of_hoursMinutes (hs : After sun k s) {t : Time} (ht : t.isEvent = true)
    {h m : ℤ} {s' : SolarState}
    (hresult : t.hoursMinutes (some (Solar.resolver sun)) s = (.ok (h, m), s')) :
    ∃ e n times, t.event = some e ∧ sun.FirstSuccess n times ∧
      (h, m) = splitMinutes ((times.of e).toTime.totalMinutes +
        if t.isEventOffset then t.totalMinutes else 0) := by
  rcases hanswer : Solar.resolver sun t.event s with ⟨_ | u, next⟩
  · rw [Time.hoursMinutes_of_error ht hanswer] at hresult
    cases hresult
  · obtain ⟨e, n, times, he, hn, rfl, hknown⟩ := hs.exists_of_ok hanswer
    have hagain : Solar.resolver sun t.event next = (.ok (times.of e).toTime, next) := by
      rw [he, Solar.resolver, hknown]
    rw [Time.hoursMinutes_of_ok ht hanswer hagain] at hresult
    exact ⟨e, n, times, he, hn, (Except.ok.inj (congrArg Prod.fst hresult)).symm⟩

/-! ### Any questions -/

/-- Questions without an event do not count. -/
lemma SolarState.after_questions (sun : Sun) (events : List (Option Event)) :
    After sun (events.countP Option.isSome) ((Solar.resolver sun).after events {}) := by
  induction events using List.reverseRecOn with
  | nil => exact .failing nofun
  | append_singleton events event ih =>
    rw [Resolver.after, List.foldl_append, List.countP_append]
    cases event with
    | none => exact ih
    | some e => exact ih.resolver e

/-- After any questions the next one is answered as the attempts so far ask for. There have been as many
attempts as questions about events, but not more than it takes to succeed once. The hours and the minutes
of a moment are those of a single attempt, the first one that succeeds. -/
theorem Solar.answers_after (sun : Sun) (events : List (Option Event)) :
    let s := (resolver sun).after events {}
    (∀ event, Answers sun s event (resolver sun event s)) ∧
      (∀ n times, sun.FirstSuccess n times → s.calls = min (events.countP Option.isSome) (n + 1)) ∧
      ((∀ n, ∃ reason, sun n = .error reason) → s.calls = events.countP Option.isSome) ∧
      ∀ t : Time, t.isEvent = true → ∀ h m s',
        t.hoursMinutes (some (resolver sun)) s = (.ok (h, m), s') →
          ∃ e n times, t.event = some e ∧ sun.FirstSuccess n times ∧
            (h, m) = splitMinutes ((times.of e).toTime.totalMinutes +
              if t.isEventOffset then t.totalMinutes else 0) := by
  intro s
  have hs : SolarState.After sun (events.countP Option.isSome) s :=
    SolarState.after_questions sun events
  exact ⟨hs.answers, fun n times => hs.calls_eq_min, hs.calls_eq,
    fun t ht h m s' => hs.exists_of_hoursMinutes ht⟩

/-- The first attempt fails and the second one succeeds. There is no third one, and the hours and the
minutes of a moment before dusk are those of the second one. -/
theorem Solar.answers_after_failure :
    let times : SunTimes :=
      { dawn := ⟨6, 30, by decide, by decide⟩, sunrise := ⟨7, 0, by decide, by decide⟩
        sunset := ⟨18, 0, by decide, by decide⟩, dusk := ⟨18, 30, by decide, by decide⟩ }
    let sun := Sun.ofList [.error "polar night".toList, .ok times]
    let events := [some .dawn, none, some .dusk, some .dawn]
    let s := (resolver sun).after events {}
    let t := Time.ofEvent .dusk (some ⟨-45 * Duration.microsPerMinute, by decide⟩)
    Answers sun s (some .dusk) (resolver sun (some .dusk) s) ∧
      sun.FirstSuccess 1 times ∧ s.calls = min 3 2 ∧
      t.hoursMinutes (some (resolver sun)) s = (.ok (17, 45), s) ∧
      ∃ e n times, t.event = some e ∧ sun.FirstSuccess n times ∧
        (17, 45) = splitMinutes ((times.of e).toTime.totalMinutes +
          if t.isEventOffset then t.totalMinutes else 0) := by
  intro times sun events s t
  obtain ⟨hanswers, hcalls, -, hmoment⟩ := answers_after sun events
  have hfirst : sun.FirstSuccess 1 times := by
    refine ⟨rfl, fun j hj => ?_⟩
    obtain rfl : j = 0 := Nat.lt_one_iff.mp hj
    exact ⟨_, rfl⟩
  have hresult : t.hoursMinutes (some (resolver sun)) s = (.ok (17, 45), s) := by decide +kernel
  exact ⟨hanswers (some .dusk), hfirst, hcalls 1 times hfirst, hresult, hmoment t rfl 17 45 s hresult⟩

end OpeningTimes
