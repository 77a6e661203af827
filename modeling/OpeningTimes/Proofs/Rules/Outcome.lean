import OpeningTimes.Proofs.Grammar.Failure
import OpeningTimes.Proofs.Rules.Joined
import OpeningTimes.Proofs.Rules.Meaning

/-!
What comes of reading a field.

A value that cannot be built is one of a word that names nothing, of a number that counts nothing or has too
many digits, or of a length of time that is out of range, or else the form is one that no rule can hold. If
all terminals of a field mean something, only the last of these is left. That a number is small is not
enough for this: zeros in front of it are digits too.

* `Part.Meaningful`: a part of which no value fails, unless its form is not supported;
* `Part.meaningful_time`, `Part.meaningful_rule` and their companions: every part is one;
* `Part.derives_rules_error`: an offset that cannot be built is an error of the rules;
* `Field.read_of_long_offset`: a field whose offset has too many digits means nothing;
* `Field.read_of_intelligible`: an intelligible field has rules, or is not readable, or is not supported.
-/

namespace OpeningTimes

open Grammar Text

/-- The error of a form that no rule can hold. -/
def BuildError.IsUnsupported (e : BuildError) : Prop :=
  ∃ p, e = .unsupported p

namespace Part

/-- A part of which no value fails in an intelligible text, unless its form is not supported. -/
abbrev Meaningful {α : Type} (g : Part α) : Prop :=
  fieldGrammar.FailsOnly Intelligible BuildError.IsUnsupported g

variable {α β : Type} {t : Terminal}

/-! ### Values that can be built -/

/-- A value that can be built in every case does not fail. -/
lemma Meaningful.build {f : α → Except BuildError β} {g : Part α} (hg : Meaningful g)
    (hf : ∀ s a r, Intelligible s → fieldGrammar.Derives g s (.ok a) r → ∃ b, f a = .ok b) :
    Meaningful (.build f g) := by
  refine ⟨hg, fun s a r e hs hd he => ?_⟩
  obtain ⟨b, hb⟩ := hf s a r hs hd
  rw [hb] at he
  cases he

/-- The value of a terminal that means something. -/
lemma meaningful_terminal {f : Text → Option α} {e : Text → BuildError}
    (ht : ∀ w, t.Means w → ∃ a, f w = some a) :
    Meaningful (.build (fun w => orError (e w) (f w)) (.terminal t)) := by
  refine Meaningful.build trivial fun s w r hs hd => ?_
  obtain ⟨a, ha⟩ := ht w (Terminal.means_of_scan hs (derives_scan_iff.mp hd))
  exact ⟨a, orError_eq_ok_iff.mpr ha⟩

/-- The number of a terminal that means something. -/
lemma meaningful_number (ht : t ∈ Terminal.numerals) : Meaningful (number t) := by
  refine Meaningful.build trivial fun s w r hs hd => ?_
  have hmeans := Terminal.means_of_scan hs (derives_scan_iff.mp hd)
  obtain ⟨n, hn⟩ : ∃ n, number? w = some n := by
    simp only [Terminal.numerals, List.mem_cons, List.not_mem_nil, or_false] at ht
    rcases ht with rfl | rfl | rfl | rfl | rfl | rfl | rfl
    case inl | inr.inl | inr.inr.inl | inr.inr.inr.inl => exact hmeans
    all_goals exact hmeans.imp fun n h => h.1
  exact ⟨n, by rw [hn]; rfl⟩

lemma meaningful_weekday : Meaningful weekday :=
  meaningful_terminal (t := .weekday) fun _ h => h

lemma meaningful_month : Meaningful month :=
  meaningful_terminal (t := .month) fun _ h => h

lemma meaningful_event : Meaningful event :=
  meaningful_terminal (t := .event) fun _ h => h

lemma meaningful_nth : Meaningful nth :=
  meaningful_terminal (t := .nth) (f := fun w => Nth.ofNumber? (Text.number w)) fun _ h => h

/-- Hours and minutes of two digits are a length of time. -/
lemma exists_ofHoursMinutes {h k : ℤ} (hh : IsTwoDigits h) (hk : IsTwoDigits k) (sign : Text) :
    ∃ d, Duration.ofHoursMinutes? (signed sign h) (signed sign k) = some d := by
  obtain ⟨hh0, hhu⟩ := hh
  obtain ⟨hk0, hku⟩ := hk
  have hlen := natAbs_signed sign (h * 60 + k)
  rw [← signed_add] at hlen
  exact Duration.exists_ofMinutes (by omega) (by omega)

lemma meaningful_clock : Meaningful clock := by
  refine Meaningful.build (by simp (disch := decide) [meaningful_number]) ?_
  rintro s ⟨h, k⟩ r - hd
  obtain ⟨q, hh, hk⟩ := derives_seq_ok.mp hd
  obtain ⟨_, _, hh, -⟩ := derives_before_iff.mp hh
  obtain ⟨d, hd⟩ := exists_ofHoursMinutes (isTwoDigits_of_derives (by simp) hh)
    (isTwoDigits_of_derives_minutes hk) []
  have hunsigned : ∀ n, signed [] n = n := fun _ => rfl
  rw [hunsigned, hunsigned] at hd
  exact ⟨_, orError_eq_ok_iff.mpr (by rw [Time.ofHoursMinutes?, hd, Option.map_some])⟩

lemma meaningful_time : Meaningful time := by
  refine ⟨meaningful_clock, failsOnly_map.mpr meaningful_event, ?_⟩
  refine Meaningful.build (by simp (disch := decide) [meaningful_number, meaningful_event]) ?_
  rintro s ⟨e, sign, h, k⟩ r - hd
  obtain ⟨_, p, -, hd⟩ := derives_after_ok.mp hd
  obtain ⟨q, -, hd⟩ := derives_seq_ok.mp hd
  obtain ⟨p, -, hd⟩ := derives_seq_ok.mp hd
  obtain ⟨q, hh, hk⟩ := derives_seq_ok.mp hd
  obtain ⟨_, _, hh, -⟩ := derives_before_iff.mp hh
  obtain ⟨_, _, hk, -⟩ := derives_before_iff.mp hk
  obtain ⟨d, hd⟩ := exists_ofHoursMinutes (isTwoDigits_of_derives (by simp) hh)
    (isTwoDigits_of_derives_minutes hk) sign
  have hvalue : eventOffset e sign h k = .ok (Time.ofEvent e (some d)) := by
    rw [eventOffset, orError_eq_ok_iff.mpr hd]
    rfl
  exact ⟨_, hvalue⟩

lemma meaningful_period : Meaningful period := by
  refine ⟨meaningful_clock, Meaningful.build (meaningful_number (by decide)) fun s k r hs hd => ?_⟩
  obtain ⟨w, hw, -, rfl⟩ := derives_number_ok.mp hd
  obtain ⟨n, hn, t, ht⟩ : Terminal.number.Means w := Terminal.means_of_scan hs hw
  rw [← (number?_eq_some_iff.mp hn).2] at ht
  exact ⟨t, orError_eq_ok_iff.mpr ht⟩

/-- The rules after a separator. -/
lemma meaningful_chain {first : Part Rule} {next : Nonterminal} (hfirst : Meaningful first)
    (ht : t ∈ [Terminal.ruleSeparator, .comma]) : Meaningful (chain first t next) := by
  refine Meaningful.build (by simp [hfirst]) ?_
  rintro s ⟨x, w, S⟩ r hs hd
  obtain ⟨q, hx, hd⟩ := derives_seq_ok.mp hd
  obtain ⟨p, hw, -⟩ := derives_seq_ok.mp hd
  have hq : Intelligible q := hx.kept (fun _ _ _ _ => Terminal.intelligible_of_scan) hs
  have hmeans := Terminal.means_of_scan hq (derives_scan_iff.mp hw)
  have hsep : w ∈ Rule.separators := by
    simp only [List.mem_cons, List.not_mem_nil, or_false] at ht
    rcases ht with rfl | rfl <;> exact hmeans
  exact ⟨_, joined_eq_ok_iff.mpr ⟨hsep, rfl⟩⟩

/-! ### Forms that are not supported -/

lemma isUnsupported_of_eq {p : UnsupportedPattern} {e : BuildError}
    (h : (.error (.unsupported p) : Except BuildError α) = .error e) : e.IsUnsupported :=
  ⟨p, (Except.error.inj h).symm⟩

lemma meaningful_nthRange : Meaningful nthRange := by
  refine ⟨by simp [meaningful_nth], by simp [meaningful_nth], fun s n r e _ _ he => ?_⟩
  dsimp only at he
  split at he
  · cases he
  · exact isUnsupported_of_eq he

lemma meaningful_weekdays : Meaningful weekdays := by
  simp (disch := decide) [weekdays, weekdayRange, nths, dayOffset, meaningful_number, meaningful_weekday,
    meaningful_nthRange]

lemma meaningful_daySelector : Meaningful daySelector := by
  have hholidays : Meaningful holidays := by
    simp (disch := decide) [holidays, holiday, dayOffset, meaningful_number]
  have hweekdays := meaningful_weekdays
  refine ⟨by simp [hholidays, hweekdays], by simp [hholidays, hweekdays], by simp [hholidays],
    by simp [hweekdays], ⟨hholidays, hweekdays⟩, fun s a r e _ _ he => isUnsupported_of_eq he⟩

lemma meaningful_times : Meaningful times := by
  simp [times, timespan, meaningful_time, meaningful_period]

lemma meaningful_calendarSelectors : Meaningful calendarSelectors := by
  simp (disch := decide) [calendarSelectors, years, firstYearRange, yearRange, dates, dateRange, date,
    dateOffset, dayOffset, weeks, weekRange, step, meaningful_number, meaningful_weekday, meaningful_month]

lemma meaningful_selectorsWithoutTimes : Meaningful selectorsWithoutTimes := by
  refine ⟨⟨?_, ?_⟩, ?_⟩
  · simp [daysOrTimes, meaningful_daySelector, meaningful_times]
  · rintro s ⟨c, o⟩ r e - - he
    cases o with
    | none => cases he
    | some d => exact isUnsupported_of_eq he
  · simp [daysOnly, meaningful_calendarSelectors, meaningful_daySelector]

/-! ### Rules -/

lemma meaningful_terminatedRule : Meaningful terminatedRule := by
  have htimes : Meaningful selectorsWithTimes := by
    simp [selectorsWithTimes, timesAfterDays, daysAndTimes, meaningful_calendarSelectors,
      meaningful_daySelector, meaningful_times]
  simp [terminatedRule, modifier, modifierWord, always, htimes, meaningful_selectorsWithoutTimes]

lemma meaningful_timesFirstRule : Meaningful timesFirstRule := by
  simp [timesFirstRule, timesOnly, modifier, modifierWord, meaningful_times]

/-- Rules of which every terminal means something fail in no way but in an unsupported form. -/
theorem meaningful_rule (n : Nonterminal) : Meaningful (fieldGrammar.rule n) := by
  have hfirst : Meaningful n.first ∧ Meaningful n.firstClosed := by
    cases n <;> simp [Nonterminal.first, Nonterminal.firstClosed, rule, closedRule, ruleNotTimed,
      openEndedRule, meaningful_terminatedRule, meaningful_timesFirstRule,
      meaningful_selectorsWithoutTimes]
  rw [rule_eq]
  exact ⟨failsOnly_map.mpr hfirst.1, meaningful_chain hfirst.1 (by simp),
    meaningful_chain hfirst.2 (by simp)⟩

/-! ### Numbers with too many digits -/

section TooManyDigits

variable {s q r w : Text} {e : BuildError}

/-- A number with too many digits cannot be built. -/
lemma derives_number_error (h : t.scan s = some (w, r)) (hlen : maxDigits < w.length) :
    fieldGrammar.Derives (number t) s (.error .tooManyDigits) r := by
  have hnone : number? w = none := if_neg (by omega)
  refine derives_build.mpr ⟨.ok w, derives_scan_iff.mpr h, ?_⟩
  rw [Except.bind, hnone]
  rfl

/-- An offset whose number has too many digits cannot be built. -/
lemma derives_dayOffset_error (hw : ∀ c ∈ w, isDigit c = true) (hlen : maxDigits < w.length) :
    fieldGrammar.Derives dayOffset ('+' :: (w ++ " days".toList)) (.error .tooManyDigits) [] := by
  have hne : w ≠ [] := List.ne_nil_of_length_pos (by omega)
  have hbreaks : Breaks " days".toList := breaks_cons (by decide) (by decide)
  have hsign : Terminal.sign.scan ('+' :: (w ++ " days".toList)) =
      some (['+'], w ++ " days".toList) :=
    (scan_sign_iff (by decide)).mpr ⟨rfl, rfl⟩
  have hnumber : Terminal.number.scan (w ++ " days".toList) = some (w, " days".toList) :=
    (Terminal.scan_number_iff hw hne hbreaks).mpr ⟨rfl, rfl⟩
  have hday : Terminal.dayWord.scan " days".toList = some ("days".toList, []) := by decide
  exact ((derives_scan_iff.mpr hsign).seq_error_right
    ((derives_number_error hnumber hlen).seq_error_left (derives_scan_iff.mpr hday)).build_error).build_error

/-- An offset that cannot be built is an error of the rules. -/
lemma derives_rules_error {d : Weekday} (hday : fieldGrammar.Derives weekday s (.ok d) q)
    (hoffset : fieldGrammar.Derives dayOffset q (.error e) r) :
    fieldGrammar.Derives rules s (.error e) r := by
  have hrange : fieldGrammar.Derives weekdayRange s (.error e) r :=
    .right (.right (hday.seq_error_right hoffset).build_error)
  have hweekdays : fieldGrammar.Derives weekdays s (.error e) r :=
    (hrange.seq_error_left .done).build_error
  have hdays : fieldGrammar.Derives daySelector s (.error e) r :=
    .right (.right (.right (.left hweekdays.build_error)))
  have hselectors : fieldGrammar.Derives selectorsWithoutTimes s (.error e) r :=
    .right (.right (.right hdays.build_error.build_error))
  have hrule : fieldGrammar.Derives rule s (.error e) r := .right (.right hselectors)
  exact .left hrule.build_error

end TooManyDigits

end Part

namespace Field

variable {f w : Text}

/-- A field means nothing if the number of its offset has too many digits, whatever the number is. -/
lemma read_of_long_offset (hw : ∀ c ∈ w, isDigit c = true) (hlen : maxDigits < w.length) :
    read ("Mo +".toList ++ (w ++ " days".toList)) = .error (.meaningless .tooManyDigits) := by
  let f := "Mo +".toList ++ (w ++ " days".toList)
  have htrim : trimField f = f := by
    refine trimField_eq_self (fun c hc => ?_) fun c hc => ?_
    · obtain rfl : 'M' = c := Option.some.inj hc
      decide
    · rw [List.getLast?_append_of_ne_nil _ (by simp), List.getLast?_append_of_ne_nil _ (by decide)] at hc
      obtain rfl : 's' = c := Option.some.inj hc
      decide
  have hday : fieldGrammar.Derives Part.weekday f (.ok .monday) (" +".toList ++ (w ++ " days".toList)) :=
    (Part.derives_name_iff (w := ['M', 'o']) (by decide) rfl (by decide)
      (breaks_cons (by decide) (by decide))).mpr ⟨rfl, rfl⟩
  have hoffset : fieldGrammar.Derives Part.dayOffset (" +".toList ++ (w ++ " days".toList))
      (.error .tooManyDigits) [] :=
    (Part.derives_space_iff rfl).mpr (Part.derives_dayOffset_error hw hlen)
  have hdenotes : fieldGrammar.Denotes .rules (trimField f) (.error .tooManyDigits) := by
    rw [htrim]
    exact ⟨[], .call (Part.derives_rules_error hday hoffset), rfl⟩
  rw [read, readTrimmed, (read?_eq_some_iff guarded_fieldGrammar fun _ _ => denotes_unique).mpr hdenotes]
  rfl

/-- In an intelligible field every terminal means something, wherever it stands. So the field has rules,
or it is not readable, or one of its forms is not supported. -/
theorem read_of_intelligible (hf : Intelligible f) :
    (∀ (t : Terminal) (s w r : Text), s <:+: f → t.scan s = some (w, r) → t.Means w) ∧
      ((∃ R, R ≠ [] ∧ read f = .ok R) ∨ read f = .error (.unreadable (trimField f)) ∨
        ∃ p, read f = .error (.unsupported p)) := by
  refine ⟨fun t s w r hs => Terminal.means_of_scan (hf.of_infix hs), ?_⟩
  have htrim : Intelligible (trimField f) := by
    obtain ⟨a, b, hsplit, -⟩ := exists_margins f
    exact hf.of_infix ⟨a, b, hsplit.symm⟩
  rcases read_unreadable_or f with hread | ⟨v, ⟨r, hd, -⟩, hread⟩
  · exact Or.inr (Or.inl hread)
  have hd := derives_call.mp hd
  cases v with
  | ok R => exact Or.inl ⟨R, Part.ne_nil_of_rule hd, hread⟩
  | error e =>
    obtain ⟨p, rfl⟩ := hd.failsOnly (fun _ _ _ _ => Terminal.intelligible_of_scan)
      Part.meaningful_rule (Part.meaningful_rule _) htrim e rfl
    exact Or.inr (Or.inr ⟨p, hread⟩)

/-- The Kelvin sign is the only letter that is not one of the alphabet and yet a part of names. -/
theorem read_of_intelligible_dusk :
    let f := "Mo dus\u212a".toList
    Intelligible f ∧ (∀ (t : Terminal) (s w r : Text), s <:+: f → t.scan s = some (w, r) → t.Means w) ∧
      ((∃ R, R ≠ [] ∧ read f = .ok R) ∨ read f = .error (.unreadable (trimField f)) ∨
        ∃ p, read f = .error (.unsupported p)) := by
  intro f
  have hf : Intelligible f := by
    have hlen : ∀ w, w <:+: f → w.length ≤ 7 := fun w hw => hw.length_le
    refine ⟨by decide, fun w hw _ => ?_, fun w hw _ => (hlen w hw).trans (by decide)⟩
    exact (number_lt w).trans_le ((Nat.pow_le_pow_right (by decide) (hlen w hw)).trans (by decide))
  exact ⟨hf, read_of_intelligible hf⟩

/-- A number that is written with zeros alone is nought, and yet it cannot be read if these are too many.
So a field can mean nothing although its letters are its own ones and its numbers are small. -/
theorem read_of_long_offset_zeros :
    let f := "Mo +".toList ++ (List.replicate 4301 '0' ++ " days".toList)
    (∀ c ∈ f, c ∉ foreign) ∧
      (∀ w, w <:+: f → (∀ c ∈ w, isDigit c = true) → number w < 1440000000000) ∧
      read f = .error (.meaningless .tooManyDigits) ∧
      ¬((∃ R, R ≠ [] ∧ read f = .ok R) ∨ read f = .error (.unreadable (trimField f)) ∨
        ∃ p, read f = .error (.unsupported p)) := by
  intro f
  have hchar : ∀ c ∈ f, c ∈ "Mo + days0".toList := by
    intro c hc
    simp only [f, List.mem_append, List.mem_replicate] at hc
    rcases hc with hc | ⟨-, rfl⟩ | hc
    · exact (by decide : "Mo +".toList ⊆ "Mo + days0".toList) hc
    · decide
    · exact (by decide : " days".toList ⊆ "Mo + days0".toList) hc
  have hread : read f = .error (.meaningless .tooManyDigits) :=
    read_of_long_offset (fun c hc => by rw [List.eq_of_mem_replicate hc]; decide)
      (by rw [List.length_replicate]; decide)
  refine ⟨fun c hc => ?_, fun w hw hdigit => ?_, hread, ?_⟩
  · exact (by decide : ∀ c ∈ "Mo + days0".toList, c ∉ foreign) c (hchar c hc)
  · -- all digits of the field are zeros
    have hzero : ∀ c ∈ w, c = '0' := fun c hc =>
      (by decide : ∀ c ∈ "Mo + days0".toList, isDigit c = true → c = '0') c (hchar c (hw.subset hc))
        (hdigit c hc)
    rw [List.eq_replicate_of_mem hzero, number_replicate_zero]
    decide
  · rw [hread]
    rintro (⟨R, -, h⟩ | h | ⟨p, h⟩) <;> cases h

end Field

end OpeningTimes
