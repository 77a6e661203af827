import OpeningTimes.Resolver.Fixed
import Mathlib

/-!
Tables of the times of events, made of keys and values.

Several keys may name the same event: the event itself, and its name in any case. The table has the event
once, where it is first named, and with the value that it is last given.

* `Assoc.get?_put`, `Assoc.keys_put`: what a new value for a key does to the values and to the keys of a table;
* `EventValue.Reads`: the moment that a value stands for;
* `FixedTimes.named`, `FixedTimes.LastNaming`: the events that are named, and the last value of an event;
* `FixedTimes.Merges`: the invariant of a run through the keys;
* `FixedTimes.Merges.add`, `FixedTimes.merges_of_ofList?`: one more key keeps it, and so do all keys;
* `FixedTimes.ofList?_eq_none_iff_and_merges`: when there is no table, and what a table answers.
-/

namespace OpeningTimes

/-! ### Tables -/

namespace Assoc

variable {κ α : Type} [DecidableEq κ] {key k : κ} {value : α}

/-- A new value for a key changes no other value. -/
lemma get?_put (key k : κ) (value : α) (table : List (κ × α)) :
    get? k (put key value table) = if key = k then some value else get? k table := by
  induction table with
  | nil => rfl
  | cons entry table ih =>
    rw [put]
    by_cases hkey : entry.1 = key
    · subst hkey
      by_cases hk : entry.1 = k <;> simp [get?, hk]
    · by_cases hk : entry.1 = k
      · subst hk
        simp [get?, hkey, Ne.symm hkey]
      · simp [get?, hkey, hk, ih]

/-- A new value for a key changes the keys only if the key is new. Then it is the last one. -/
lemma keys_put (key : κ) (value : α) (table : List (κ × α)) :
    (put key value table).map Prod.fst =
      if key ∈ table.map Prod.fst then table.map Prod.fst else table.map Prod.fst ++ [key] := by
  induction table with
  | nil => rfl
  | cons entry table ih =>
    rw [put]
    by_cases hkey : entry.1 = key
    · simp [hkey]
    · simp only [hkey, if_false, List.map_cons, ih, List.mem_cons, Ne.symm hkey, false_or]
      split <;> rfl

/-- What is no key has no value. -/
lemma get?_eq_none_iff (k : κ) (table : List (κ × α)) :
    get? k table = none ↔ k ∉ table.map Prod.fst := by
  induction table with
  | nil => simp [get?]
  | cons entry table ih =>
    by_cases hk : entry.1 = k
    · simp [get?, hk]
    · simp [get?, hk, Ne.symm hk, ih]

end Assoc

/-! ### Keys and values -/

/-- A value stands for a moment: a time shown by a clock for the moment of its hours and minutes, and a
moment for itself. -/
inductive EventValue.Reads : EventValue → Time → Prop where
  | clock {c : ClockTime} {t : Time} (h : Time.ofHoursMinutes? c.hour c.minute = some t) : Reads (.clock c) t
  | time (t : Time) : Reads (.time t) t

lemma EventValue.reads_toTime (value : EventValue) : value.Reads value.toTime := by
  cases value with
  | time t => exact .time t
  | clock c =>
    refine .clock ?_
    have hduration : Duration.ofHoursMinutes? c.hour c.minute = some c.duration :=
      Duration.ofMicros?_eq_some_iff.mpr rfl
    rw [Time.ofHoursMinutes?, hduration]
    rfl

/-- A key names no event if it is a name that no event has in small letters. -/
lemma EventKey.event?_eq_none_iff {key : EventKey} :
    key.event? = none ↔ ∃ name, key = .token name ∧ ∀ e : Event, e.name ≠ name.map Text.small := by
  have hall : ∀ e : Event, e ∈ Event.all := by
    intro e
    cases e <;> decide
  cases key with
  | event e => simp [event?]
  | token name => simp [event?, Event.ofName?, hall]

namespace FixedTimes

/-- A list of keys and values. -/
abbrev Entries := List (EventKey × EventValue)

/-- The events that the keys name, as often as they name them. -/
def named (entries : Entries) : List (Option Event) :=
  entries.filterMap fun x => x.1.event?

/-- Among the keys that name an event, the last one has the given value. -/
def LastNaming (entries : Entries) (e : Option Event) (value : EventValue) : Prop :=
  ∃ before key after, entries = before ++ (key, value) :: after ∧ key.event? = some e ∧
    e ∉ named after

/-- The events of a table in their order. -/
def events (times : FixedTimes) : List (Option Event) :=
  times.table.map Prod.fst

/-- A table has each event that is named, in the order in which the events are first named, and with the
last value of each. -/
structure Merges (entries : Entries) (times : FixedTimes) : Prop where
  value : ∀ e v, LastNaming entries e v → Assoc.get? e times.table = some v.toTime
  mem : ∀ e, e ∈ times.events ↔ e ∈ named entries
  order : times.events.Pairwise fun e f => (named entries).idxOf e < (named entries).idxOf f

variable {entries : Entries} {key : EventKey} {value v : EventValue} {e f : Option Event}
  {times : FixedTimes}

/-! ### One more key -/

lemma named_append_singleton (h : key.event? = some e) :
    named (entries ++ [(key, value)]) = named entries ++ [e] := by
  simp [named, h]

/-- The last key decides about its own event, and about no other one. -/
lemma lastNaming_append_singleton (h : key.event? = some e) :
    LastNaming (entries ++ [(key, value)]) f v ↔ if e = f then value = v else LastNaming entries f v := by
  constructor
  · rintro ⟨before, k, after, heq, hk, hafter⟩
    rcases List.eq_nil_or_concat after with rfl | ⟨after', x, rfl⟩
    · obtain ⟨-, hlast⟩ := List.append_inj' heq rfl
      obtain ⟨rfl, rfl⟩ := Prod.mk.inj (List.singleton_inj.mp hlast)
      rw [if_pos (Option.some.inj (h.symm.trans hk))]
    · have hsplit : entries ++ [(key, value)] = (before ++ (k, v) :: after') ++ [x] := by
        rw [heq, List.concat_eq_append, List.append_assoc, List.cons_append]
      obtain ⟨rfl, hlast⟩ := List.append_inj' hsplit rfl
      obtain rfl := List.singleton_inj.mp hlast
      rw [List.concat_eq_append, named_append_singleton h, List.mem_append, List.mem_singleton, not_or]
        at hafter
      rw [if_neg (Ne.symm hafter.2)]
      exact ⟨before, k, after', rfl, hk, hafter.1⟩
  · intro hlast
    split at hlast
    · next hef =>
      subst hef hlast
      exact ⟨entries, key, [], rfl, h, List.not_mem_nil⟩
    · next hef =>
      obtain ⟨before, k, after, rfl, hk, hafter⟩ := hlast
      refine ⟨before, k, after ++ [(key, value)], ?_, hk, ?_⟩
      · rw [List.append_assoc, List.cons_append]
      · rw [named_append_singleton h, List.mem_append, List.mem_singleton, not_or]
        exact ⟨hafter, Ne.symm hef⟩

/-- One more key keeps the invariant. A new event comes after all others, and the place of an event that is
there already does not change. -/
lemma Merges.add (h : Merges entries times) (hkey : key.event? = some e) :
    Merges (entries ++ [(key, value)]) ⟨Assoc.put e value.toTime times.table⟩ := by
  have hevents : events ⟨Assoc.put e value.toTime times.table⟩ =
      if e ∈ times.events then times.events else times.events ++ [e] := by
    unfold events
    convert Assoc.keys_put e value.toTime times.table
  have hkept : times.events.Pairwise fun f g =>
      (named entries ++ [e]).idxOf f < (named entries ++ [e]).idxOf g := by
    refine h.order.imp_of_mem fun hf hg hlt => ?_
    rwa [List.idxOf_append_of_mem ((h.mem _).mp hf), List.idxOf_append_of_mem ((h.mem _).mp hg)]
  refine ⟨fun f v hv => ?_, fun f => ?_, ?_⟩
  · rw [lastNaming_append_singleton hkey] at hv
    rw [Assoc.get?_put]
    split at hv
    · next hef => rw [if_pos hef, hv]
    · next hef => rw [if_neg hef, h.value f v hv]
  · rw [hevents, named_append_singleton hkey, List.mem_append, List.mem_singleton, ← h.mem]
    split
    · next he => exact ⟨Or.inl, fun hf => hf.elim id fun hf => hf ▸ he⟩
    · rw [List.mem_append, List.mem_singleton]
  · rw [hevents, named_append_singleton hkey]
    split
    · exact hkept
    · next he =>
      refine List.pairwise_append.mpr ⟨hkept, List.pairwise_singleton _ _, fun f hf g hg => ?_⟩
      obtain rfl := List.mem_singleton.mp hg
      have hnew : g ∉ named entries := mt (h.mem g).mpr he
      have hold : f ∈ named entries := (h.mem f).mp hf
      rw [List.idxOf_append_of_mem hold, List.idxOf_append_of_notMem hnew]
      exact Nat.lt_add_right _ (List.idxOf_lt_length_of_mem hold)

/-! ### All keys -/

lemma ofList?_append_singleton (entries : Entries) (key : EventKey) (value : EventValue) :
    ofList? (entries ++ [(key, value)]) = (ofList? entries).bind (·.add? key value) := by
  simp [ofList?, List.foldlM_append]

/-- A single key that names no event is enough for there to be no table. -/
lemma ofList?_eq_none_iff : ofList? entries = none ↔ ∃ x ∈ entries, x.1.event? = none := by
  induction entries using List.reverseRecOn with
  | nil => simp [ofList?]
  | append_singleton entries x ih =>
    have hsplit : (∃ y ∈ entries ++ [x], y.1.event? = none) ↔
        ofList? entries = none ∨ x.1.event? = none := by
      simp [ih, or_and_right, exists_or]
    rw [hsplit, ofList?_append_singleton]
    cases ofList? entries with
    | none => simp
    | some times => simp [add?]

/-- Every run through the keys keeps the invariant. -/
lemma merges_of_ofList? (h : ofList? entries = some times) : Merges entries times := by
  induction entries using List.reverseRecOn generalizing times with
  | nil =>
    obtain rfl := Option.some.inj h
    exact ⟨by simp [LastNaming], by simp [events, named], List.Pairwise.nil⟩
  | append_singleton entries x ih =>
    rw [ofList?_append_singleton] at h
    obtain ⟨before, hbefore, hadd⟩ := Option.bind_eq_some_iff.mp h
    obtain ⟨e, he, rfl⟩ := Option.map_eq_some_iff.mp hadd
    exact (ih hbefore).add he

/-- An event that is named is named for a last time. -/
lemma exists_lastNaming (h : e ∈ named entries) : ∃ v, LastNaming entries e v := by
  induction entries with
  | nil => cases h
  | cons x entries ih =>
    by_cases he : e ∈ named entries
    · obtain ⟨v, before, k, after, rfl, hk, hafter⟩ := ih he
      exact ⟨v, x :: before, k, after, rfl, hk, hafter⟩
    · refine ⟨x.2, [], x.1, entries, rfl, ?_, he⟩
      obtain ⟨y, hy, hname⟩ := List.mem_filterMap.mp h
      rcases List.mem_cons.mp hy with rfl | hy
      · exact hname
      · exact absurd (List.mem_filterMap.mpr ⟨y, hy, hname⟩) he

/-- Keys and values have a table unless a key is a name of no event. The table answers a question about an
event by the last value given for it, and it is at a loss if and only if no key names the event. It has
each event once, in the order in which they are first named. -/
theorem ofList?_eq_none_iff_and_merges {σ : Type} (entries : Entries) :
    (ofList? entries = none ↔
      ∃ name v, (EventKey.token name, v) ∈ entries ∧ ∀ e : Event, e.name ≠ name.map Text.small) ∧
      ∀ times, ofList? entries = some times →
        (∀ e v, LastNaming entries e v →
          ∃ t, v.Reads t ∧ ∀ state : σ, times.resolver e state = (.ok t, state)) ∧
        (∀ e (state : σ) error, (times.resolver e state).1 = .error error ↔
          error = .unknown e ∧ e ∉ named entries) ∧
        times.events.Nodup ∧ (∀ e, e ∈ times.events ↔ e ∈ named entries) ∧
        times.events.Pairwise fun e f => (named entries).idxOf e < (named entries).idxOf f := by
  constructor
  · simp only [ofList?_eq_none_iff, EventKey.event?_eq_none_iff]
    constructor
    · rintro ⟨⟨key, v⟩, hv, name, rfl, hname⟩
      exact ⟨name, v, hv, hname⟩
    · rintro ⟨name, v, hv, hname⟩
      exact ⟨_, hv, name, rfl, hname⟩
  · intro times htimes
    have hmerges : Merges entries times := merges_of_ofList? htimes
    have hanswer : ∀ e v, LastNaming entries e v → ∀ state : σ,
        times.resolver e state = (.ok v.toTime, state) := by
      intro e v hv state
      rw [resolver, hmerges.value e v hv]
    refine ⟨fun e v hv => ⟨v.toTime, v.reads_toTime, hanswer e v hv⟩, fun e state error => ?_, ?_,
      hmerges.mem, hmerges.order⟩
    · by_cases he : e ∈ named entries
      · obtain ⟨v, hv⟩ := exists_lastNaming he
        simp [hanswer e v hv, he]
      · have hnone : Assoc.get? e times.table = none :=
          (Assoc.get?_eq_none_iff e times.table).mpr (mt (hmerges.mem e).mp he)
        simp [resolver, hnone, he, eq_comm]
    · exact hmerges.order.imp fun hlt heq => by simp [heq] at hlt

/-- The sunrise is named twice in different cases, before and after dusk. It stays before dusk and has its
later value. -/
theorem merges_of_sunrise_twice :
    let early : ClockTime := ⟨6, 0, by decide, by decide⟩
    let late : ClockTime := ⟨7, 45, by decide, by decide⟩
    let dusk := Time.ofDuration ⟨1200 * Duration.microsPerMinute, by decide⟩
    let entries : Entries := [(.token "Sunrise".toList, .clock early), (.event (some .dusk), .time dusk),
      (.token "SUNRISE".toList, .clock late)]
    let times : FixedTimes := ⟨[(some .sunrise, late.toTime), (some .dusk, dusk)]⟩
    ofList? entries = some times ∧ LastNaming entries (some .sunrise) (.clock late) ∧
      (∃ t, (EventValue.clock late).Reads t ∧
        ∀ state : Unit, times.resolver (some .sunrise) state = (.ok t, state)) ∧
      (times.resolver (some .dawn) ()).1 = .error (.unknown (some .dawn)) ∧
      times.events.Nodup := by
  intro early late dusk entries times
  have htimes : ofList? entries = some times := by decide
  have hlast : LastNaming entries (some .sunrise) (.clock late) :=
    ⟨entries.take 2, _, [], rfl, by decide, List.not_mem_nil⟩
  obtain ⟨hvalue, herror, hnodup, -⟩ := (ofList?_eq_none_iff_and_merges entries).2 times htimes
  exact ⟨htimes, hlast, hvalue _ _ hlast, (herror _ () _).mpr ⟨rfl, by decide⟩, hnodup⟩

end FixedTimes

end OpeningTimes
