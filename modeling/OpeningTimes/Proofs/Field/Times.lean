import OpeningTimes.Proofs.Field.Days

/-!
Times can be read in one way only.

* `Terminal.numerals`, `Terminal.eq_of_scan_numeral`: all terminals of digits take the same digits;
* `Part.decisive_time`, `Part.decisive_timespan`, `Part.decisive_times`: moments, spans and lists of
  spans, if what follows could not belong to them.
-/

namespace OpeningTimes

open Grammar

namespace Terminal

/-- The terminals of digits, except for the one of a single digit. -/
def numerals : List Terminal :=
  [year, loneYear, dayNumber, weekNumber, hours, minutes, number]

/-- A terminal of digits takes all digits that there are. -/
lemma eq_of_scan_numeral {t : Terminal} (ht : t ∈ numerals) {s w r : Text}
    (h : t.scan s = some (w, r)) :
    w = (Text.skipBlanks s).takeWhile Text.isDigit ∧
      r = (Text.skipBlanks s).dropWhile Text.isDigit := by
  unfold scan at h
  generalize Text.skipBlanks s = s at h
  have key : ∀ {few many : ℕ}, digits few many s = some (w, r) →
      w = s.takeWhile Text.isDigit ∧ r = s.dropWhile Text.isDigit := by
    intro few many hd
    simp only [digits] at hd
    split at hd
    · obtain ⟨rfl, rfl⟩ := Prod.mk.inj (Option.some.inj hd)
      exact ⟨rfl, rfl⟩
    · cases hd
  simp only [numerals, List.mem_cons, List.not_mem_nil, or_false] at ht
  rcases ht with rfl | rfl | rfl | rfl | rfl | rfl | rfl
  case inr.inl => exact key (Option.filter_eq_some_iff.mp h).1
  all_goals exact key h

/-- Two terminals of digits leave the same rest. -/
lemma rest_eq_of_numerals {t u : Terminal} (ht : t ∈ numerals) (hu : u ∈ numerals)
    {s w r w' r' : Text} (h : t.scan s = some (w, r)) (h' : u.scan s = some (w', r')) : r = r' := by
  rw [(eq_of_scan_numeral ht h).2, (eq_of_scan_numeral hu h').2]

end Terminal

namespace Part

variable {P : Text → Prop}

lemma decisive_clock : fieldGrammar.Decisive clock P :=
  ((((decisive_number _).seq (.terminal _)).build _).seq (decisive_number _)).build _

lemma decisive_event : fieldGrammar.Decisive event P :=
  (Decisive.terminal _).build _

theorem decisive_time : fieldGrammar.Decisive time P := by
  refine Decisive.alt decisive_clock (Decisive.alt (decisive_event.build _) ?_ ?_) ?_
  · have hend : fieldGrammar.Decisive (.before (number .minutes) .rightParenthesis) P :=
      ((decisive_number _).seq (.terminal _)).build _
    have hclock : fieldGrammar.Decisive (.seq (.before (number .hours) .colon)
        (.before (number .minutes) .rightParenthesis)) P :=
      (((decisive_number _).seq (.terminal _)).build _).seq hend
    exact (((Decisive.terminal _).seq
      (decisive_event.seq ((Decisive.terminal _).seq hclock))).build _).build _
  · exact fun s h h' => not_begins_of_opens rfl rfl (by decide) h h'
  · exact fun s h h' => not_begins_of_opens rfl rfl (by decide) h h'

/-- What may follow a period: no colon, which would make a clock time of a number. -/
lemma decisive_period : fieldGrammar.Decisive period (Avoids [.colon]) := by
  refine Decisive.alt decisive_clock ((decisive_number _).build _) ?_
  intro s h h'
  simp only [clock, number, begins_build, begins_seq, begins_scan] at h h'
  obtain ⟨w, r, hr, w', r', hc, -⟩ := h
  obtain ⟨w'', q, hq, ha⟩ := h'
  obtain rfl := Terminal.rest_eq_of_numerals (by decide) (by decide) hr hq
  exact ha.not_scan (t := .colon) (by decide) hc

/-- What may follow a span of time: nothing that could be a part of it. -/
abbrev afterTimespan : Text → Prop :=
  Avoids [.plus, .dash, .slash, .colon]

theorem decisive_timespan : fieldGrammar.Decisive timespan afterTimespan := by
  have hperiod : fieldGrammar.Decisive period afterTimespan :=
    decisive_period.mono fun r hr => hr.mono (by decide)
  -- two forms that go on differently after the same moment
  have hsame : ∀ {P Q : Text → Prop} {s}, (∀ r, P r → Q r → False) →
      fieldGrammar.Begins time P s → fieldGrammar.Begins time Q s → False :=
    fun hn h h' => Decisive.not_begins (decisive_time (P := fun _ => True)) (fun _ _ => trivial)
      (fun _ _ => trivial) hn h h'
  refine Decisive.alt (decisive_time.build _) (Decisive.alt ?_ (Decisive.alt ?_
    (Decisive.alt ?_ ?_ ?_) ?_) ?_) ?_
  · exact ((decisive_time.seq (.terminal _)).build _).build _
  · exact (decisive_time.seq (((Decisive.terminal _).seq decisive_time).build _)).build _
  · exact (decisive_time.seq (((Decisive.terminal _).seq
      ((decisive_time.seq (.terminal _)).build _)).build _)).build _
  · exact (decisive_time.seq (((Decisive.terminal _).seq
      (decisive_time.seq (((Decisive.terminal _).seq hperiod).build _))).build _)).build _
  · -- both forms have an end, after which there is a plus sign or a slash
    intro s h h'
    simp only [begins_build, begins_seq] at h h'
    refine hsame (fun r hr hr' => ?_) h h'
    obtain ⟨w, q, hq, hb⟩ := begins_scan.mp hr
    obtain ⟨w', q', hq', hb'⟩ := begins_scan.mp hr'
    obtain ⟨rfl, rfl⟩ := Prod.mk.inj (Option.some.inj (hq.symm.trans hq'))
    exact hsame (fun p hp hp' => not_begins_of_opens rfl rfl (by decide) hp hp') hb hb'
  · intro s h h'
    simp only [begins_alt, begins_build, begins_seq] at h h'
    rcases h' with h' | h'
    all_goals
      refine hsame (fun r hr hr' => ?_) h h'
      obtain ⟨w, q, hq, hb⟩ := begins_scan.mp hr
      obtain ⟨w', q', hq', hb'⟩ := begins_scan.mp hr'
      obtain ⟨rfl, rfl⟩ := Prod.mk.inj (Option.some.inj (hq.symm.trans hq'))
      exact hsame (fun p hp hp' => hp.not_begins rfl (by decide) hp') hb hb'
  · intro s h h'
    simp only [begins_alt, begins_build, begins_seq] at h h'
    rcases h' with h' | h' | h'
    all_goals exact hsame (fun r hr hr' => not_begins_of_opens rfl rfl (by decide) hr hr') h h'
  · intro s h h'
    simp only [begins_alt, begins_build, begins_seq] at h h'
    rcases h' with h' | h' | h' | h'
    all_goals exact hsame (fun r hr hr' => hr.not_begins rfl (by decide) hr') h h'

/-- What may follow spans of time: nothing that could follow a single one, and no further time. -/
def AfterTimes (s : Text) : Prop :=
  afterTimespan s ∧
    ∀ w r, Terminal.comma.scan s = some (w, r) → ¬ fieldGrammar.Begins time (fun _ => True) r

lemma begins_time_of_timespan {s : Text} (h : fieldGrammar.Begins timespan P s) :
    fieldGrammar.Begins time (fun _ => True) s := by
  simp only [timespan, begins_alt, begins_build, begins_seq] at h
  rcases h with h | h | h | h | h <;> exact h.mono fun _ _ => trivial

theorem decisive_times : fieldGrammar.Decisive times AfterTimes := by
  refine decisive_listed (decisive_timespan.mono fun r hr => ?_) ?_
  · rcases begins_many.mp hr with hr | ⟨w, q, hm, -⟩
    · exact hr.1
    · exact .of_scan (t := .comma) hm (by decide)
  · exact fun s w r hs hm hb => hs.2 w r hm (begins_time_of_timespan hb)

end Part

end OpeningTimes
