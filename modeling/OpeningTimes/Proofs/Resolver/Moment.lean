import OpeningTimes.Proofs.Canonical.Times
import OpeningTimes.Proofs.Resolver.Solar
import OpeningTimes.Proofs.Time.Arithmetic
import OpeningTimes.Proofs.Time.Kinds
import OpeningTimes.Resolver.Fixed

/-!
The hours and the minutes of a moment.

They are the two parts of one number of minutes, which is counted from midnight. An offset may lead back
beyond midnight, and then neither part is positive. What is added to a moment is added to this number,
although the moment may become one of another kind.

* `ClockParts`, `clockParts_splitMinutes`: hours and minutes of one number, with its sign;
* `Resolver.Always`: a source that does not change its mind about an event;
* `Time.CountedFrom`: where the minutes of a moment begin, at midnight or at an event;
* `Time.Shows`: the number whose parts a moment shows whenever it is asked for them;
* `Time.CountedFrom.resolvedMinutes`: a single question is answered by the sum;
* `Time.CountedFrom.next`: a moment and a later or an earlier one begin at the same place;
* `Time.shows_of_countedFrom`: what a moment shows, and what later and earlier ones show.
-/

namespace OpeningTimes

/-! ### Hours and minutes of a number -/

/-- Hours and minutes make up a number, and neither of them has the opposite sign. -/
structure ClockParts (n h m : ℤ) : Prop where
  sum : 60 * h + m = n
  minutes_lt : |m| < 60
  nonneg : 0 ≤ n → 0 ≤ h ∧ 0 ≤ m
  nonpos : n ≤ 0 → h ≤ 0 ∧ m ≤ 0

/-- The parts of the opposite number are the opposite parts. -/
lemma ClockParts.neg {n h m : ℤ} (hn : ClockParts n h m) : ClockParts (-n) (-h) (-m) := by
  obtain ⟨hsum, hlt, hpos, hneg⟩ := hn
  refine ⟨by omega, (abs_neg m).symm ▸ hlt, fun h => ?_, fun h => ?_⟩ <;> omega

lemma clockParts_splitMinutes (n : ℤ) : ClockParts n (splitMinutes n).1 (splitMinutes n).2 := by
  have hnonneg : ∀ n : ℤ, 0 ≤ n → ClockParts n (splitMinutes n).1 (splitMinutes n).2 := by
    intro n hn
    rw [splitMinutes, Int.tdiv_eq_ediv_of_nonneg hn, Int.tmod_eq_emod_of_nonneg hn]
    refine ⟨by omega, ?_, by omega, by omega⟩
    rw [abs_of_nonneg (by omega)]
    omega
  rcases le_total 0 n with hn | hn
  · exact hnonneg n hn
  · have hneg := (hnonneg (-n) (by omega)).neg
    rwa [splitMinutes, Int.neg_tdiv, Int.neg_tmod, neg_neg, neg_neg, neg_neg] at hneg

/-! ### Sources that do not change their mind -/

variable {σ : Type} {ask : Resolver σ} {resolver : Option (Resolver σ)} {state : σ}
  {event : Option Event} {t u : Time} {k n : ℤ}

/-- Whatever else is asked, the answer about an event is the same. -/
def Resolver.Always (ask : Resolver σ) (event : Option Event) (u : Time) (state : σ) : Prop :=
  ∀ events, (ask event (ask.after events state)).1 = .ok u

/-- What is known after some questions. Where nothing can be asked, nothing is learnt. -/
def Resolver.stateAfter (resolver : Option (Resolver σ)) (events : List (Option Event)) (state : σ) : σ :=
  resolver.elim state fun ask => ask.after events state

/-- More questions do not change the answer. -/
lemma Resolver.Always.after (h : ask.Always event u state) (events : List (Option Event)) :
    ask.Always event u (ask.after events state) := by
  intro more
  rw [Resolver.after, Resolver.after, ← List.foldl_append]
  exact h (events ++ more)

namespace Time

/-- The minutes of a moment are counted from midnight, or from the time that a source always gives for its
event. -/
inductive CountedFrom (resolver : Option (Resolver σ)) (state : σ) (t : Time) : ℤ → Prop where
  | midnight (ht : t.isEvent = false) : CountedFrom resolver state t 0
  | event {ask : Resolver σ} {u : Time} {k : ℤ} (ht : t.isEvent = true) (hask : resolver = some ask)
    (hu : ask.Always t.event u state) (hk : u.duration.IsMinutes k) : CountedFrom resolver state t k

/-- Whatever is asked before, the hours and the minutes of a moment are the parts of a number, alone and
together. -/
def Shows (t : Time) (resolver : Option (Resolver σ)) (state : σ) (n : ℤ) : Prop :=
  ∃ h m, ClockParts n h m ∧ ∀ events,
    let s := Resolver.stateAfter resolver events state
    (t.hours resolver s).1 = .ok h ∧ (t.minutes resolver s).1 = .ok m ∧
      (t.hoursMinutes resolver s).1 = .ok (h, m)

/-- A moment that can be made has an event if and only if its kind asks for one. -/
lemma Consistent.isEvent_iff (h : t.Consistent) : t.isEvent = true ↔ t.event ≠ none := by
  rcases t with ⟨kind, duration, event⟩
  cases kind with
  | unset => exact iff_of_false nofun (not_not.mpr h.2)
  | minutes => exact iff_of_false nofun (not_not.mpr h.1)
  | clock => exact iff_of_false nofun (not_not.mpr h)
  | event => exact iff_of_true rfl (Option.isSome_iff_ne_none.mp h.1)
  | eventOffset => exact iff_of_true rfl (Option.isSome_iff_ne_none.mp h)

/-- An event without an offset has no minutes of its own. -/
lemma Consistent.ownMinutes_eq (h : t.Consistent) (ht : t.isEvent = true) :
    (if t.isEventOffset then t.totalMinutes else 0) = t.totalMinutes := by
  cases hkind : t.kind with
  | event =>
    rw [Consistent, hkind] at h
    have hminutes : t.duration.IsMinutes 0 := by
      rw [h.2, Duration.IsMinutes, zero_mul]
      rfl
    rw [isEventOffset, hkind, if_neg (by decide)]
    exact (Duration.totalMinutes_eq hminutes).symm
  | eventOffset =>
    rw [isEventOffset, hkind]
    exact if_pos rfl
  | unset | minutes | clock =>
    rw [isEvent, hkind] at ht
    cases ht

/-! ### Questions about a moment -/

lemma resolvedMinutes_of_not_isEvent (ht : t.isEvent = false) :
    t.resolvedMinutes resolver state = (.ok t.totalMinutes, state) := by
  simp [Time.resolvedMinutes, ht]

lemma resolvedMinutes_of_isEvent (ht : t.isEvent = true) :
    t.resolvedMinutes (some ask) state =
      ((ask t.event state).1.map fun u => u.totalMinutes + if t.isEventOffset then t.totalMinutes else 0,
        (ask t.event state).2) := by
  simp [Time.resolvedMinutes, ht]

/-- If a number is the answer to two questions in a row, hours and minutes are its parts. -/
lemma parts_of_resolvedMinutes (h : (t.resolvedMinutes resolver state).1 = .ok n)
    (hagain : (t.resolvedMinutes resolver (t.resolvedMinutes resolver state).2).1 = .ok n) :
    (t.hours resolver state).1 = .ok (splitMinutes n).1 ∧
      (t.minutes resolver state).1 = .ok (splitMinutes n).2 ∧
      (t.hoursMinutes resolver state).1 = .ok (splitMinutes n) := by
  rcases hfirst : t.resolvedMinutes resolver state with ⟨answer, next⟩
  rw [hfirst] at h hagain
  obtain rfl : answer = .ok n := h
  have hhours : t.hours resolver state = (.ok (splitMinutes n).1, next) := by
    rw [hours, hfirst]
    rfl
  refine ⟨by rw [hhours], by rw [minutes, hfirst]; rfl, ?_⟩
  rw [hoursMinutes, hhours]
  dsimp only at hagain ⊢
  rw [minutes]
  dsimp only
  rw [hagain]
  rfl

/-! ### Where the minutes of a moment begin -/

namespace CountedFrom

/-- Questions do not change where a moment begins. -/
lemma after (h : t.CountedFrom resolver state k) (events : List (Option Event)) :
    t.CountedFrom resolver (Resolver.stateAfter resolver events state) k := by
  cases h with
  | midnight ht => exact .midnight ht
  | event ht hask hu hk =>
    subst hask
    exact .event ht rfl (hu.after events) hk

/-- Moments with the same event begin at the same place. -/
lemma congr (h : t.CountedFrom resolver state k) (hkind : u.isEvent = t.isEvent)
    (hevent : u.event = t.event) : u.CountedFrom resolver state k := by
  cases h with
  | midnight ht => exact .midnight (hkind.trans ht)
  | event ht hask hu hk => exact .event (hkind.trans ht) hask (hevent ▸ hu) hk

/-- A question is answered by the minutes of the moment and those where it begins, and it leaves these as
they are. -/
lemma resolvedMinutes (h : t.CountedFrom resolver state k) (ht : t.Consistent)
    (hn : t.duration.IsMinutes n) :
    (t.resolvedMinutes resolver state).1 = .ok (k + n) ∧
      t.CountedFrom resolver (t.resolvedMinutes resolver state).2 k := by
  have htotal : t.totalMinutes = n := Duration.totalMinutes_eq hn
  cases h with
  | midnight hevent =>
    rw [resolvedMinutes_of_not_isEvent hevent, htotal, zero_add]
    exact ⟨rfl, .midnight hevent⟩
  | @event ask u k hevent hask hu hk =>
    subst hask
    have hanswer : (ask t.event state).1 = .ok u := hu []
    rw [resolvedMinutes_of_isEvent hevent, hanswer, ht.ownMinutes_eq hevent, htotal,
      ← Duration.totalMinutes_eq hk]
    exact ⟨rfl, .event hevent rfl (hu.after [t.event]) (by rwa [Duration.totalMinutes_eq hk])⟩

/-- A later or an earlier moment begins where the moment does. -/
lemma next (h : t.CountedFrom resolver state k) (ht : t.Consistent) {s : Step}
    (hu : s.next? t = some u) : u.Consistent ∧ u.CountedFrom resolver state k := by
  have hruns : t.RunsTo [s] u := runsTo_next? hu
  have hconsistent : u.Consistent := by
    rw [next?_eq] at hu
    obtain ⟨d, -, rfl⟩ := Option.map_eq_some_iff.mp hu
    exact consistent_promoted d _ _
  refine ⟨hconsistent, h.congr ?_ hruns.event⟩
  rw [Bool.eq_iff_iff, hconsistent.isEvent_iff, ht.isEvent_iff, hruns.event]

/-- A moment shows its own minutes and those where it begins. -/
lemma shows (h : t.CountedFrom resolver state k) (ht : t.Consistent) (hn : t.duration.IsMinutes n) :
    t.Shows resolver state (k + n) := by
  refine ⟨_, _, clockParts_splitMinutes (k + n), fun events => ?_⟩
  obtain ⟨hfirst, hkept⟩ := (h.after events).resolvedMinutes ht hn
  exact parts_of_resolvedMinutes hfirst (hkept.resolvedMinutes ht hn).1

/-- A step adds its minutes to what a moment shows, unless it is out of range. -/
lemma exists_next (h : t.CountedFrom resolver state k) (ht : t.Consistent)
    (hn : t.duration.IsMinutes n) (s : Step) {m : ℤ} (hm : s.micros = m * Duration.microsPerMinute)
    (hrange : Duration.InRange (t.microsAfter [s])) :
    ∃ u, s.next? t = some u ∧ u.Shows resolver state (k + n + m) := by
  obtain ⟨u, hu⟩ : ∃ u, s.next? t = some u := by
    rw [next?_eq, Duration.ofMicros?, dif_pos hrange]
    exact ⟨_, rfl⟩
  obtain ⟨hconsistent, hfrom⟩ := h.next ht hu
  have hminutes : u.duration.IsMinutes (n + m) := by
    rw [Duration.IsMinutes, (runsTo_next? hu).micros, microsAfter, hn, List.map_singleton,
      List.sum_singleton, hm, add_mul]
  refine ⟨u, hu, ?_⟩
  rw [add_assoc]
  exact hfrom.shows hconsistent hminutes

end CountedFrom

/-- A moment shows the sum of its own minutes and those where it begins, in two parts of which neither has
the opposite sign. What is later or earlier by some minutes shows as many minutes more or less, unless it
is out of range. The event of what is added or subtracted does not matter. -/
theorem shows_of_countedFrom (ht : t.Reachable) (hfrom : t.CountedFrom resolver state k)
    (hn : t.duration.IsMinutes n) :
    t.Shows resolver state (k + n) ∧
      ∀ (b : Time) (m : ℤ), b.duration.IsMinutes m →
        (Duration.InRange (t.duration.micros + b.duration.micros) →
          ∃ u, t.add? b = some u ∧ u.Shows resolver state (k + n + m)) ∧
        (Duration.InRange (t.duration.micros - b.duration.micros) →
          ∃ u, t.sub? b = some u ∧ u.Shows resolver state (k + n - m)) := by
  have hconsistent : t.Consistent := ht.consistent
  refine ⟨hfrom.shows hconsistent hn, fun b m hm => ⟨fun hrange => ?_, fun hrange => ?_⟩⟩
  · exact hfrom.exists_next hconsistent hn (.later b) hm (by simpa [microsAfter, Step.micros] using hrange)
  · have hneg : (Step.earlier b).micros = -m * Duration.microsPerMinute := by
      rw [Step.micros, hm, neg_mul]
    exact hfrom.exists_next hconsistent hn (.earlier b) hneg
      (by simpa [microsAfter, Step.micros, sub_eq_add_neg] using hrange)

/-- Seven hours before a sunrise at half past six are on the day before. An hour later it is after midnight,
and an hour earlier there is an hour more before it. -/
theorem shows_of_countedFrom_sunrise :
    let sunrise : ClockTime := ⟨6, 30, by decide, by decide⟩
    let ask : Resolver Unit := FixedTimes.resolver ⟨[(some .sunrise, sunrise.toTime)]⟩
    let t := ofEvent .sunrise (some ⟨-420 * Duration.microsPerMinute, by decide⟩)
    let b := ofEvent .dusk (some ⟨60 * Duration.microsPerMinute, by decide⟩)
    t.Reachable ∧ t.CountedFrom (some ask) () 390 ∧ t.duration.IsMinutes (-420) ∧
      b.duration.IsMinutes 60 ∧ t.Shows (some ask) () (-30) ∧
      (t.hoursMinutes (some ask) ()).1 = .ok (0, -30) ∧
      (∃ u, t.add? b = some u ∧ u.Shows (some ask) () 30) ∧
      ∃ u, t.sub? b = some u ∧ u.Shows (some ask) () (-90) := by
  intro sunrise ask t b
  have ht : t.Reachable := reachable_offset .sunrise _
  have hfrom : t.CountedFrom (some ask) () 390 := .event rfl rfl (fun _ => rfl) rfl
  have hn : t.duration.IsMinutes (-420) := rfl
  have hm : b.duration.IsMinutes 60 := rfl
  obtain ⟨hshows, hsteps⟩ := shows_of_countedFrom ht hfrom hn
  obtain ⟨hadd, hsub⟩ := hsteps b 60 hm
  exact ⟨ht, hfrom, hn, hm, hshows, by decide +kernel, hadd (by decide), hsub (by decide)⟩

end Time

end OpeningTimes
