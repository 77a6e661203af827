import OpeningTimes.Proofs.Canonical.Scan

/-!
Times that a field can hold, and how they are read.

* `Duration.IsMinutes`, `Duration.totalMinutes_eq`: a length of whole minutes is counted exactly;
* `Time.Canonical`, `Timespan.Canonical`: the moments and the spans that a field can hold;
* `Part.derives_time_iff`, `Part.derives_timespan_iff`, `Part.derives_times_iff`: the text of a span is
  read as that span if and only if a field can hold it.
-/

namespace OpeningTimes

open Grammar Text

/-! ### Lengths of time -/

namespace Duration

/-- A length of time is a number of whole minutes. -/
def IsMinutes (d : Duration) (n : ℤ) : Prop :=
  d.micros = n * microsPerMinute

lemma ofMinutes?_eq_some_iff {n : ℤ} {d : Duration} : ofMinutes? n = some d ↔ d.IsMinutes n :=
  ofMicros?_eq_some_iff

/-- A length of time made of hours and minutes has so many minutes. -/
lemma ofHoursMinutes?_eq_some_iff {h k : ℤ} {d : Duration} :
    ofHoursMinutes? h k = some d ↔ d.IsMinutes (h * 60 + k) :=
  ofMinutes?_eq_some_iff

/-- The minutes of the least and of the greatest length of time. The least one is a whole number of days,
and the greatest one is short of another day. -/
lemma inRange_minutes_iff {n : ℤ} :
    InRange (n * microsPerMinute) ↔ -1439999998560 ≤ n ∧ n < 1440000000000 := by
  rw [InRange, microsPerMinute, microsPerDay, maxDays]
  omega

/-- A number of minutes within these bounds is a length of time. -/
lemma exists_ofMinutes {n : ℤ} (hl : -1439999998560 ≤ n) (hu : n < 1440000000000) :
    ∃ d, ofMinutes? n = some d :=
  ⟨⟨_, inRange_minutes_iff.mpr ⟨hl, hu⟩⟩, ofMinutes?_eq_some_iff.mpr rfl⟩

/-- A quotient without a remainder is not rounded. -/
lemma roundEven_mul {n den : ℕ} (hd : 0 < den) : roundEven (n * den) den = n := by
  rw [roundEven, Nat.mul_div_cancel n hd, Nat.mul_mod_left]
  simp [hd]

/-- Whole minutes are counted exactly, however many there are. -/
lemma totalMinutes_eq {d : Duration} {n : ℤ} (h : d.IsMinutes n) : d.totalMinutes = n := by
  have habs : d.micros.natAbs = n.natAbs * 60 * 1000000 := by
    rw [h, microsPerMinute]
    omega
  have hscale : 0 < Binary.scale (Binary.shiftFor d.micros.natAbs 1000000) :=
    Nat.pow_pos (by decide)
  have hmantissa : (Binary.nearest d.micros.natAbs 1000000).mantissa =
      n.natAbs * (60 * Binary.scale (Binary.shiftFor d.micros.natAbs 1000000)) := by
    rw [Binary.nearest]
    conv_lhs => rw [habs]
    rw [show ∀ k : ℕ, n.natAbs * 60 * 1000000 * k = n.natAbs * (60 * k) * 1000000 by
      intro k; ring]
    rw [roundEven_mul (by decide), habs]
  have hunit : (0 : ℤ) < 60 * Binary.scale (Binary.shiftFor d.micros.natAbs 1000000) := by
    omega
  have hsign : d.micros < 0 ↔ n < 0 := by
    rw [h, microsPerMinute]
    omega
  rw [totalMinutes, hmantissa]
  simp only [Binary.nearest, Nat.cast_mul, Nat.cast_ofNat, hsign]
  split
  · rw [← neg_mul, Int.mul_ediv_cancel _ hunit.ne']
    omega
  · rw [Int.mul_ediv_cancel _ hunit.ne']
    omega

end Duration

/-! ### Moments -/

namespace Time

/-- The moments that a field can hold: clock times and offsets below a hundred hours, in whole
minutes. -/
inductive Canonical : Time → Prop where
  | clock {d : Duration} {n : ℕ} (hn : n < 6000) (hd : d.IsMinutes n) : Canonical (ofDuration d)
  | event (e : Event) : Canonical (ofEvent e none)
  | offset {d : Duration} {n : ℤ} (e : Event) (hn : n.natAbs < 6000) (hd : d.IsMinutes n) :
    Canonical (ofEvent e (some d))

/-- The periods that a field can hold: clock times, and numbers of minutes up to an hour. -/
inductive CanonicalPeriod : Time → Prop where
  | clock {d : Duration} {n : ℕ} (hn : n < 6000) (hd : d.IsMinutes n) :
    CanonicalPeriod (ofDuration d)
  | minutes {d : Duration} {n : ℕ} (hn : n ≤ 60) (hd : d.IsMinutes n) :
    CanonicalPeriod { kind := .minutes, duration := d }

/-- The moments that can be read: clock times and offsets in whole minutes, however many. -/
inductive WholeMinutes : Time → Prop where
  | clock {d : Duration} {n : ℕ} (hd : d.IsMinutes n) : WholeMinutes (ofDuration d)
  | event (e : Event) : WholeMinutes (ofEvent e none)
  | offset {d : Duration} {n : ℤ} (e : Event) (hd : d.IsMinutes n) :
    WholeMinutes (ofEvent e (some d))

lemma Canonical.wholeMinutes {t : Time} (h : t.Canonical) : t.WholeMinutes := by
  cases h with
  | clock _ hd => exact .clock hd
  | event e => exact .event e
  | offset e _ hd => exact .offset e hd

lemma WholeMinutes.isSet {t : Time} (h : t.WholeMinutes) : t.isSet = true := by
  cases h <;> rfl

/-- The hours and the minutes of a clock time are shown with two digits, or more. -/
lemma clockText_eq (n : ℤ) :
    clockText n = fill 2 (digits (n.natAbs / 60)) ++ ':' :: fill 2 (digits (n.natAbs % 60)) := by
  have hh : (n.tdiv 60).natAbs = n.natAbs / 60 := Int.natAbs_tdiv n 60
  have hm : (n.tmod 60).natAbs = n.natAbs % 60 := Int.natAbs_tmod n 60
  simp only [clockText, splitMinutes, twoDigits, hh, hm, padded_natCast]

/-- A number of minutes is shown without its sign, whether it is taken off before the hours are split off or
after that. -/
lemma clockText_congr {n m : ℤ} (h : m.natAbs = n.natAbs) : clockText m = clockText n := by
  rw [clockText_eq, clockText_eq, h]

/-- An offset shows its hours and minutes as a clock does. -/
lemma offsetText_eq (n : ℤ) : offsetText n = clockText n := by
  have hh : ((n.natAbs : ℤ).tdiv 60).natAbs = (n.natAbs : ℤ).tdiv 60 :=
    Int.natAbs_of_nonneg (Int.tdiv_nonneg (Int.natCast_nonneg _) (by decide))
  have hm : ((n.natAbs : ℤ).tmod 60).natAbs = (n.natAbs : ℤ).tmod 60 :=
    Int.natAbs_of_nonneg (Int.tmod_nonneg _ (Int.natCast_nonneg _))
  calc offsetText n = clockText n.natAbs := by simp only [offsetText, clockText, splitMinutes, hh, hm]
    _ = clockText n := clockText_congr (Int.natAbs_natCast _)

end Time

/-! ### The names of events -/

lemma Event.ofName?_name (e : Event) : Event.ofName? e.name = some e := by
  cases e <;> decide

lemma Event.isWord_name (e : Event) : Terminal.IsWord Terminal.eventWords e.name := by
  cases e <;> decide

namespace Part

variable {m r : Text}

/-- The text of a number of minutes is read as hours and minutes below a hundred hours. -/
lemma derives_hoursMinutes_iff {β : Type} {g : Part β} {n : ℤ} {h : ℤ} {b : β} :
    fieldGrammar.Derives (.seq (.before (number .hours) .colon) g)
      (fill 2 (digits (n.natAbs / 60)) ++ ':' :: m) (.ok (h, b)) r ↔
      n.natAbs < 6000 ∧ h = (n.natAbs / 60 : ℕ) ∧ fieldGrammar.Derives g m (.ok b) r := by
  have hb : Breaks (':' :: m) := breaks_cons rfl rfl
  simp only [derives_seq_ok, derives_before_iff,
    derives_twoDigits_iff (t := .hours) (by decide) rfl hb]
  constructor
  · rintro ⟨p, ⟨_, w, ⟨hn, rfl, rfl⟩, hc⟩, hg⟩
    obtain ⟨rfl, rfl⟩ := (scan_cons_iff (t := .colon) rfl rfl).mp hc
    exact ⟨by omega, rfl, hg⟩
  · rintro ⟨hn, rfl, hg⟩
    exact ⟨m, ⟨_, _, ⟨by omega, rfl, rfl⟩, (scan_cons_iff (t := .colon) rfl rfl).mpr ⟨rfl, rfl⟩⟩, hg⟩

lemma derives_minutes_iff {n : ℕ} {k : ℤ} (hm : Breaks m) :
    fieldGrammar.Derives (number .minutes) (fill 2 (digits (n % 60)) ++ m) (.ok k) r ↔
      k = (n % 60 : ℕ) ∧ r = m := by
  have h : n % 60 < 100 := by omega
  rw [derives_twoDigits_iff (t := .minutes) le_rfl rfl hm]
  simp only [h, true_and]

/-- The text of a clock time is read as that time if it is below a hundred hours. -/
lemma derives_clock_iff {n : ℤ} {t : Time} (hm : Breaks m) :
    fieldGrammar.Derives clock (Time.clockText n ++ m) (.ok t) r ↔
      n.natAbs < 6000 ∧ (∃ d : Duration, d.IsMinutes n.natAbs ∧ t = .ofDuration d) ∧ r = m := by
  rw [Time.clockText_eq, List.append_assoc, List.cons_append, clock]
  simp only [derives_build_ok, Prod.exists, derives_hoursMinutes_iff, derives_minutes_iff hm,
    orError_eq_ok_iff, Time.ofHoursMinutes?, Option.map_eq_some_iff]
  constructor
  · rintro ⟨h, k, ⟨hn, rfl, rfl, rfl⟩, d, hd, rfl⟩
    have := Duration.ofHoursMinutes?_eq_some_iff.mp hd
    exact ⟨hn, ⟨d, by rwa [show (n.natAbs : ℤ) = (n.natAbs / 60 : ℕ) * 60 + (n.natAbs % 60 : ℕ) by
      omega], rfl⟩, rfl⟩
  · rintro ⟨hn, ⟨d, hd, rfl⟩, rfl⟩
    refine ⟨_, _, ⟨hn, rfl, rfl, rfl⟩, d, ?_, rfl⟩
    rw [Duration.ofHoursMinutes?_eq_some_iff]
    rwa [show (n.natAbs / 60 : ℕ) * 60 + (n.natAbs % 60 : ℕ) = (n.natAbs : ℤ) by omega]

/-- The name of an event is read as that event. -/
lemma derives_event_iff {e e' : Event} (hm : Breaks m) :
    fieldGrammar.Derives event (e.name ++ m) (.ok e') r ↔ e' = e ∧ r = m :=
  derives_name_iff e.ofName?_name (t := .event) rfl e.isWord_name hm

lemma opening_event (e : Event) (hm : Breaks m) : Opening.of (e.name ++ m) = .event :=
  Terminal.opening_of_isWord (t := .event) rfl e.isWord_name hm (by decide)

/-- A time before or after an event, in parentheses. -/
abbrev offset : Part Time :=
  .build (fun (e, sign, h, m) => eventOffset e sign h m)
    (.after .leftParenthesis
      (.seq event
        (.seq (.terminal .sign)
          (.seq (.before (number .hours) .colon) (.before (number .minutes) .rightParenthesis)))))

lemma exists_of_eventOffset {e : Event} {sign : Text} {h k : ℤ} {t : Time}
    (ht : eventOffset e sign h k = .ok t) :
    ∃ d, Duration.ofHoursMinutes? (signed sign h) (signed sign k) = some d ∧
      t = .ofEvent e (some d) := by
  unfold eventOffset at ht
  cases hd : Duration.ofHoursMinutes? (signed sign h) (signed sign k) with
  | none =>
    rw [hd] at ht
    cases ht
  | some d =>
    rw [hd] at ht
    exact ⟨d, rfl, (Except.ok.inj ht).symm⟩

/-- A number of minutes is what its sign, its hours and its minutes say. -/
lemma signed_signText (n : ℤ) :
    signed (Time.signText n) (n.natAbs / 60 : ℕ) * 60 + signed (Time.signText n) (n.natAbs % 60 : ℕ) =
      n := by
  unfold Time.signText
  split
  · simp only [signed, beq_self_eq_true, if_true]
    omega
  · have : (['+'] == ['-']) = false := by decide
    simp only [signed, this, Bool.false_eq_true, if_false]
    omega

/-- The text of an offset is read as that offset if it is below a hundred hours. -/
lemma derives_offset_iff {e : Event} {n : ℤ} {t : Time} :
    fieldGrammar.Derives offset
      ('(' :: (e.name ++ (Time.signText n ++ (Time.clockText n ++ ')' :: m)))) (.ok t) r ↔
      n.natAbs < 6000 ∧ (∃ d : Duration, d.IsMinutes n ∧ t = .ofEvent e (some d)) ∧ r = m := by
  obtain ⟨c, hsign, hc⟩ : ∃ c, Time.signText n = [c] ∧ c ∈ ['+', '-'] := by
    unfold Time.signText
    split <;> simp
  have hb : ∀ {s}, Breaks (c :: s) := by
    simp only [List.mem_cons, List.not_mem_nil, or_false] at hc
    rcases hc with rfl | rfl <;> exact breaks_cons rfl rfl
  have hp : Breaks (')' :: m) := breaks_cons rfl rfl
  have hscan : ∀ {w q}, fieldGrammar.scan .sign (c :: w) = some q ↔ q = ([c], w) := by
    intro w q
    rw [Prod.ext_iff]
    exact scan_sign_iff hc
  rw [hsign, List.singleton_append, Time.clockText_eq, List.append_assoc, List.cons_append]
  simp only [derives_build_ok, Prod.exists, derives_after_iff (t := .leftParenthesis) rfl rfl]
  constructor
  · -- the event, the sign, the hours and the minutes are read one after the other
    rintro ⟨e', sign, h, k, hseq, ht⟩
    obtain ⟨q, he, h₁⟩ := derives_seq_ok.mp hseq
    obtain ⟨rfl, rfl⟩ := (derives_event_iff hb).mp he
    obtain ⟨q, hs, h₂⟩ := derives_seq_ok.mp h₁
    obtain ⟨rfl, rfl⟩ := Prod.mk.inj (hscan.mp (derives_scan_iff.mp hs))
    obtain ⟨hn, rfl, h₃⟩ := derives_hoursMinutes_iff.mp h₂
    obtain ⟨q, w, hk, hq⟩ := derives_before_iff.mp h₃
    obtain ⟨rfl, rfl⟩ := (derives_minutes_iff hp).mp hk
    obtain ⟨-, rfl⟩ := (scan_cons_iff (t := .rightParenthesis) rfl rfl).mp hq
    obtain ⟨d, hd, rfl⟩ := exists_of_eventOffset ht
    have hmin := Duration.ofHoursMinutes?_eq_some_iff.mp hd
    rw [← hsign, signed_signText] at hmin
    exact ⟨hn, ⟨d, hmin, rfl⟩, rfl⟩
  · rintro ⟨hn, ⟨d, hd, rfl⟩, rfl⟩
    refine ⟨e, [c], (n.natAbs / 60 : ℕ), (n.natAbs % 60 : ℕ), ?_, ?_⟩
    · refine derives_seq_ok.mpr ⟨_, (derives_event_iff hb).mpr ⟨rfl, rfl⟩, derives_seq_ok.mpr
        ⟨_, derives_scan_iff.mpr (hscan.mpr rfl), derives_hoursMinutes_iff.mpr ⟨hn, rfl, ?_⟩⟩⟩
      exact derives_before_iff.mpr ⟨_, _, (derives_minutes_iff hp).mpr ⟨rfl, rfl⟩,
        (scan_cons_iff (t := .rightParenthesis) rfl rfl).mpr ⟨rfl, rfl⟩⟩
    · -- the sign is given back to the minutes as a whole
      have hmin := signed_signText n
      have hsome : Duration.ofHoursMinutes? (signed (Time.signText n) (n.natAbs / 60 : ℕ))
          (signed (Time.signText n) (n.natAbs % 60 : ℕ)) = some d := by
        rw [Duration.ofHoursMinutes?_eq_some_iff, hmin]
        exact hd
      rw [← hsign, eventOffset, hsome]
      rfl

lemma exists_of_derives_number {t : Terminal} {s : Text} {k : ℤ}
    (h : fieldGrammar.Derives (number t) s (.ok k) r) : ∃ n : ℕ, k = n := by
  obtain ⟨w, -, -, rfl⟩ := derives_number_ok.mp h
  exact ⟨_, rfl⟩

/-- A clock time that is read is a number of whole minutes. -/
lemma exists_of_derives_clock {s : Text} {t : Time} (h : fieldGrammar.Derives clock s (.ok t) r) :
    ∃ (n : ℕ) (d : Duration), d.IsMinutes n ∧ t = .ofDuration d := by
  obtain ⟨⟨h, k⟩, hseq, ht⟩ := derives_build_ok.mp h
  obtain ⟨q, hh, hk⟩ := derives_seq_ok.mp hseq
  obtain ⟨p, w, hh', -⟩ := derives_before_iff.mp hh
  obtain ⟨a, rfl⟩ := exists_of_derives_number hh'
  obtain ⟨b, rfl⟩ := exists_of_derives_number hk
  obtain ⟨d, hd, rfl⟩ := Option.map_eq_some_iff.mp (orError_eq_ok_iff.mp ht)
  exact ⟨a * 60 + b, d, by simpa using Duration.ofHoursMinutes?_eq_some_iff.mp hd, rfl⟩

/-- An offset that is read is a number of whole minutes. -/
lemma exists_of_derives_offset {s : Text} {t : Time} (h : fieldGrammar.Derives offset s (.ok t) r) :
    ∃ (n : ℤ) (e : Event) (d : Duration), d.IsMinutes n ∧ t = .ofEvent e (some d) := by
  obtain ⟨⟨e, sign, h, k⟩, -, ht⟩ := derives_build_ok.mp h
  obtain ⟨d, hd, rfl⟩ := exists_of_eventOffset ht
  exact ⟨_, e, d, Duration.ofHoursMinutes?_eq_some_iff.mp hd, rfl⟩

/-- A moment that is read is one of whole minutes. -/
lemma wholeMinutes_of_derives_time {s : Text} {t : Time}
    (h : fieldGrammar.Derives time s (.ok t) r) : t.WholeMinutes := by
  rcases derives_alt.mp h with hc | h
  · obtain ⟨n, d, hd, rfl⟩ := exists_of_derives_clock hc
    exact .clock hd
  rcases derives_alt.mp h with he | ho
  · obtain ⟨e, -, rfl⟩ := derives_map_ok.mp he
    exact .event e
  · obtain ⟨n, e, d, hd, rfl⟩ := exists_of_derives_offset ho
    exact .offset e hd

lemma text_ofDuration {d : Duration} {n : ℕ} (hd : d.IsMinutes n) :
    (Time.ofDuration d).text = Time.clockText n :=
  congrArg Time.clockText (Duration.totalMinutes_eq hd)

/-- The text of a moment is read as that moment if and only if a field can hold it. -/
theorem derives_time_iff {t : Time} (hm : Breaks m) :
    fieldGrammar.Derives time (t.text ++ m) (.ok t) r ↔ t.Canonical ∧ r = m := by
  have hoffset : ∀ {e : Event} {d : Duration} {n : ℤ}, d.IsMinutes n →
      (Time.ofEvent e (some d)).text ++ m =
        '(' :: (e.name ++ (Time.signText n ++ (Time.clockText n ++ ')' :: m))) := by
    intro e d n hd
    have hn : (Time.ofEvent e (some d)).totalMinutes = n := Duration.totalMinutes_eq hd
    simp only [Time.text, Time.ofEvent, Event.text, Time.offsetText_eq] at hn ⊢
    simp [hn]
  constructor
  · intro h
    rcases derives_alt.mp h with hc | h
    · obtain ⟨n, d, hd, rfl⟩ := exists_of_derives_clock hc
      rw [text_ofDuration hd, derives_clock_iff hm] at hc
      exact ⟨.clock hc.1 hd, hc.2.2⟩
    rcases derives_alt.mp h with he | ho
    · obtain ⟨e, he', rfl⟩ := derives_map_ok.mp he
      exact ⟨.event e, ((derives_event_iff hm).mp he').2⟩
    · obtain ⟨n, e, d, hd, rfl⟩ := exists_of_derives_offset ho
      rw [hoffset hd, derives_offset_iff] at ho
      exact ⟨.offset e ho.1 hd, ho.2.2⟩
  · rintro ⟨ht, rfl⟩
    cases ht with
    | clock hn hd =>
      rw [text_ofDuration hd]
      exact .left ((derives_clock_iff hm).mpr ⟨hn, ⟨_, hd, rfl⟩, rfl⟩)
    | event e =>
      exact .right (.left (derives_map_ok.mpr ⟨e, (derives_event_iff hm).mpr ⟨rfl, rfl⟩, rfl⟩))
    | offset e hn hd =>
      rw [hoffset hd]
      exact .right (.right (derives_offset_iff.mpr ⟨hn, ⟨_, hd, rfl⟩, rfl⟩))

/-! ### Periods and spans -/

lemma exceedsHour_iff {d : Duration} {n : ℕ} (hd : d.IsMinutes n) :
    d.exceedsHour = true ↔ 60 < n := by
  have hm : d.micros = n * 60000000 := hd
  rw [Duration.exceedsHour, decide_eq_true_iff, hm]
  omega

/-- A number of minutes is a clock time if it exceeds an hour. -/
lemma ofMinutes?_eq_some_iff {n : ℕ} {p : Time} :
    Time.ofMinutes? n = some p ↔ ∃ d : Duration, d.IsMinutes n ∧
      p = if 60 < n then .ofDuration d else { kind := .minutes, duration := d } := by
  simp only [Time.ofMinutes?, Option.map_eq_some_iff, Duration.ofMinutes?_eq_some_iff]
  refine exists_congr fun d => and_congr_right fun hd => ?_
  rw [Time.promoted, Bool.false_or, eq_comm]
  simp only [exceedsHour_iff hd]

/-- A period is a clock time or a number of minutes. -/
lemma derives_period_ok {s : Text} {p : Time} :
    fieldGrammar.Derives period s (.ok p) r ↔
      fieldGrammar.Derives clock s (.ok p) r ∨
      ∃ n : ℕ, fieldGrammar.Derives (number .number) s (.ok n) r ∧ Time.ofMinutes? n = some p := by
  constructor
  · intro h
    rcases derives_alt.mp h with hc | h
    · exact Or.inl hc
    · obtain ⟨k, hk, hp⟩ := derives_build_ok.mp h
      obtain ⟨n, rfl⟩ := exists_of_derives_number hk
      exact Or.inr ⟨n, hk, orError_eq_ok_iff.mp hp⟩
  · rintro (hc | ⟨n, hn, hp⟩)
    · exact .left hc
    · exact .right (derives_build_ok.mpr ⟨n, hn, orError_eq_ok_iff.mpr hp⟩)

lemma text_minutes {d : Duration} {n : ℕ} (hd : d.IsMinutes n) :
    Time.text { kind := .minutes, duration := d } = fill 2 (digits n) := by
  have hn : Time.totalMinutes { kind := .minutes, duration := d } = n := Duration.totalMinutes_eq hd
  simp only [Time.text, hn, Int.natAbs_natCast, twoDigits, padded_natCast]

/-- A short number of minutes is read with all of its digits. -/
lemma derives_fill_iff {n : ℕ} {k : ℤ} (hm : Breaks m) :
    fieldGrammar.Derives (number .number) (fill 2 (digits n) ++ m) (.ok k) r ↔
      isShort n = true ∧ k = n ∧ r = m := by
  have hlength : (fill 2 (digits n)).length ≤ maxDigits ↔ isShort n = true := by
    rw [length_fill, ← length_digits_le_maxDigits]
    simp [maxDigits]
  rw [derives_number_iff (fun c => isDigit_of_mem_fill) fill_ne_nil hm, number_fill, hlength]

/-- A clock time is no number, and only its hours would be read as one. -/
lemma not_derives_number_clockText {n : ℕ} (hn : n ≠ 0) :
    ¬ fieldGrammar.Derives (number .number) (Time.clockText n ++ m) (.ok n) r := by
  intro h
  rw [Time.clockText_eq, List.append_assoc, List.cons_append, derives_fill_iff (breaks_cons rfl rfl)] at h
  omega

/-- The text of a period is read as that period if and only if a field can hold it. -/
lemma derives_period_iff {p : Time} (hm : Breaks m) :
    fieldGrammar.Derives period (p.text ++ m) (.ok p) r ↔ p.CanonicalPeriod ∧ r = m := by
  rw [derives_period_ok]
  constructor
  · rintro (hc | ⟨n, hn, hp⟩)
    · obtain ⟨-, d, -, rfl⟩ := exists_of_derives_clock hc
      obtain ⟨ht, hr⟩ := (derives_time_iff hm).mp (.left hc)
      cases ht with
      | clock hn hd => exact ⟨.clock hn hd, hr⟩
    · obtain ⟨d, hd, rfl⟩ := ofMinutes?_eq_some_iff.mp hp
      split at hn
      · next hlt =>
        rw [text_ofDuration hd] at hn
        exact (not_derives_number_clockText (by omega) hn).elim
      · next hle =>
        rw [text_minutes hd, derives_fill_iff hm] at hn
        rw [if_neg hle]
        exact ⟨.minutes (by omega) hd, hn.2.2⟩
  · rintro ⟨hp, rfl⟩
    cases hp with
    | clock hn hd =>
      rw [text_ofDuration hd]
      exact Or.inl ((derives_clock_iff hm).mpr ⟨hn, ⟨_, hd, rfl⟩, rfl⟩)
    | @minutes d n hn hd =>
      have hshort : isShort n = true := isShort_of_lt (show (n : ℤ).natAbs < 10 ^ 2 by omega) (by decide)
      rw [text_minutes hd]
      exact Or.inr ⟨n, (derives_fill_iff hm).mpr ⟨hshort, rfl, rfl⟩,
        ofMinutes?_eq_some_iff.mpr ⟨d, hd, (if_neg (by omega)).symm⟩⟩

end Part

namespace Timespan

/-- The spans that a field can hold: a moment or a range, which may have an open end, or a range with
a period. -/
inductive Canonical : Timespan → Prop where
  | point {t : Time} (ht : t.Canonical) (plus : Bool) : Canonical { start := t, plus := plus }
  | range {t u : Time} (ht : t.Canonical) (hu : u.Canonical) (plus : Bool) :
    Canonical { start := t, stop := u, plus := plus }
  | periodic {t u p : Time} (ht : t.Canonical) (hu : u.Canonical) (hp : p.CanonicalPeriod) :
    Canonical { start := t, stop := u, period := p }

variable {t u p : Time}

lemma text_point (ht : t.isSet = true) (plus : Bool) :
    Timespan.text { start := t, plus := plus } = t.text ++ if plus then ['+'] else [] := by
  simp [text, isOpen, hasStart, hasStop, ht, show Time.isSet {} = false from rfl]

lemma text_range (hu : u.isSet = true) (plus : Bool) :
    Timespan.text { start := t, stop := u, plus := plus } =
      t.text ++ '-' :: u.text ++ if plus then ['+'] else [] := by
  simp [text, isOpen, hasStop, hasPeriod, hu, show Time.isSet {} = false from rfl]

lemma text_periodic (hu : u.isSet = true) (hp : p.isSet = true) :
    Timespan.text { start := t, stop := u, period := p } =
      t.text ++ '-' :: u.text ++ '/' :: p.text := by
  simp [text, isOpen, hasStop, hasPeriod, hu, hp]

end Timespan

namespace Part

lemma isSet_of_canonicalPeriod {p : Time} (h : p.CanonicalPeriod) : p.isSet = true := by
  cases h <;> rfl

lemma isSet_of_derives_time {s : Text} {t : Time} (h : fieldGrammar.Derives time s (.ok t) r) :
    t.isSet = true :=
  (wholeMinutes_of_derives_time h).isSet

lemma isSet_of_derives_period {s : Text} {p : Time}
    (h : fieldGrammar.Derives period s (.ok p) r) : p.isSet = true := by
  rcases derives_period_ok.mp h with hc | ⟨n, -, hp⟩
  · obtain ⟨-, d, -, rfl⟩ := exists_of_derives_clock hc
    rfl
  · obtain ⟨d, -, rfl⟩ := ofMinutes?_eq_some_iff.mp hp
    split <;> rfl

/-- The five forms of a span. -/
lemma derives_timespan_ok {s : Text} {x : Timespan} :
    fieldGrammar.Derives timespan s (.ok x) r ↔
      (∃ t, fieldGrammar.Derives time s (.ok t) r ∧ x = { start := t }) ∨
      (∃ t q w, fieldGrammar.Derives time s (.ok t) q ∧ Terminal.plus.scan q = some (w, r) ∧
        x = { start := t, plus := true }) ∨
      (∃ t u q w p, fieldGrammar.Derives time s (.ok t) q ∧ Terminal.dash.scan q = some (w, p) ∧
        fieldGrammar.Derives time p (.ok u) r ∧ x = { start := t, stop := u }) ∨
      (∃ t u q w p e w', fieldGrammar.Derives time s (.ok t) q ∧
        Terminal.dash.scan q = some (w, p) ∧ fieldGrammar.Derives time p (.ok u) e ∧
        Terminal.plus.scan e = some (w', r) ∧ x = { start := t, stop := u, plus := true }) ∨
      ∃ t u y q w p e w' e', fieldGrammar.Derives time s (.ok t) q ∧
        Terminal.dash.scan q = some (w, p) ∧ fieldGrammar.Derives time p (.ok u) e ∧
        Terminal.slash.scan e = some (w', e') ∧ fieldGrammar.Derives period e' (.ok y) r ∧
        x = { start := t, stop := u, period := y } := by
  constructor
  · -- the five forms, in the order of the grammar: a moment alone
    intro h
    rcases derives_alt.mp h with h | h
    · obtain ⟨t, ht, rfl⟩ := derives_map_ok.mp h
      exact Or.inl ⟨t, ht, rfl⟩
    -- a moment and an open end
    rcases derives_alt.mp h with h | h
    · obtain ⟨t, htq, rfl⟩ := derives_map_ok.mp h
      obtain ⟨q, w, ht, hw⟩ := derives_before_iff.mp htq
      exact Or.inr (Or.inl ⟨t, q, w, ht, hw, rfl⟩)
    -- two moments
    rcases derives_alt.mp h with h | h
    · obtain ⟨⟨t, u⟩, hseq, rfl⟩ := derives_map_ok.mp h
      obtain ⟨q, ht, hq⟩ := derives_seq_ok.mp hseq
      obtain ⟨w, p, hw, hu⟩ := derives_after_ok.mp hq
      exact Or.inr (Or.inr (Or.inl ⟨t, u, q, w, p, ht, hw, hu, rfl⟩))
    -- two moments, the second one with an open end or with a period
    rcases derives_alt.mp h with h | h
    · obtain ⟨⟨t, u⟩, hseq, rfl⟩ := derives_map_ok.mp h
      obtain ⟨q, ht, hq⟩ := derives_seq_ok.mp hseq
      obtain ⟨w, p, hw, hp⟩ := derives_after_ok.mp hq
      obtain ⟨e, w', hu, hw'⟩ := derives_before_iff.mp hp
      exact Or.inr (Or.inr (Or.inr (Or.inl ⟨t, u, q, w, p, e, w', ht, hw, hu, hw', rfl⟩)))
    · obtain ⟨⟨t, u, y⟩, hseq, rfl⟩ := derives_map_ok.mp h
      obtain ⟨q, ht, hq⟩ := derives_seq_ok.mp hseq
      obtain ⟨w, p, hw, hp⟩ := derives_after_ok.mp hq
      obtain ⟨e, hu, he⟩ := derives_seq_ok.mp hp
      obtain ⟨w', e', hw', hy⟩ := derives_after_ok.mp he
      exact Or.inr (Or.inr (Or.inr (Or.inr
        ⟨t, u, y, q, w, p, e, w', e', ht, hw, hu, hw', hy, rfl⟩)))
  · -- each form is one of the alternatives of the grammar
    rintro (⟨t, ht, rfl⟩ | ⟨t, q, w, ht, hw, rfl⟩ | ⟨t, u, q, w, p, ht, hw, hu, rfl⟩ |
      ⟨t, u, q, w, p, e, w', ht, hw, hu, hw', rfl⟩ |
      ⟨t, u, y, q, w, p, e, w', e', ht, hw, hu, hw', hy, rfl⟩)
    · exact .left (derives_map_ok.mpr ⟨t, ht, rfl⟩)
    · exact .right (.left (derives_map_ok.mpr ⟨t, derives_before_iff.mpr ⟨q, w, ht, hw⟩, rfl⟩))
    · exact .right (.right (.left (derives_map_ok.mpr ⟨(t, u), derives_seq_ok.mpr
        ⟨q, ht, derives_after_ok.mpr ⟨w, p, hw, hu⟩⟩, rfl⟩)))
    · exact .right (.right (.right (.left (derives_map_ok.mpr ⟨(t, u), derives_seq_ok.mpr
        ⟨q, ht, derives_after_ok.mpr ⟨w, p, hw, derives_before_iff.mpr ⟨e, w', hu, hw'⟩⟩⟩, rfl⟩))))
    · exact .right (.right (.right (.right (derives_map_ok.mpr ⟨(t, u, y), derives_seq_ok.mpr
        ⟨q, ht, derives_after_ok.mpr ⟨w, p, hw, derives_seq_ok.mpr
          ⟨e, hu, derives_after_ok.mpr ⟨w', e', hw', hy⟩⟩⟩⟩, rfl⟩))))

/-- A moment in a span ends at the mark that follows it. -/
lemma derives_time_before_iff {t : Time} {c : Char} {s q : Text} (hc : c ∈ ['+', '-', '/']) :
    fieldGrammar.Derives time (t.text ++ c :: s) (.ok t) q ↔ t.Canonical ∧ q = c :: s := by
  have hmark : ∀ c ∈ ['+', '-', '/'], isDigit c = false ∧ isLetter c = false := by decide
  obtain ⟨hd, hl⟩ := hmark c hc
  exact derives_time_iff (breaks_cons hd hl)

/-- A span that is read from its own text is one that a field can hold. -/
lemma canonical_of_derives_timespan {s : Timespan} (hm : Breaks m)
    (h : fieldGrammar.Derives timespan (s.text ++ m) (.ok s) r) : s.Canonical ∧ r = m := by
  rcases derives_timespan_ok.mp h with ⟨t, ht, rfl⟩ | ⟨t, q, w, ht, hw, rfl⟩ |
    ⟨t, u, q, w, p, ht, hw, hu, rfl⟩ | ⟨t, u, q, w, p, e, w', ht, hw, hu, hw', rfl⟩ |
    ⟨t, u, y, q, w, p, e, w', e', ht, hw, hu, hw', hy, rfl⟩
  · rw [Timespan.text_point (isSet_of_derives_time ht)] at ht
    simp only [Bool.false_eq_true, if_false, List.append_nil, derives_time_iff hm] at ht
    exact ⟨.point ht.1 false, ht.2⟩
  · rw [Timespan.text_point (isSet_of_derives_time ht), if_pos rfl, List.append_assoc] at ht
    obtain ⟨hc, rfl⟩ := (derives_time_before_iff (by decide)).mp ht
    exact ⟨.point hc true, ((scan_cons_iff (t := .plus) rfl rfl).mp hw).2⟩
  · rw [Timespan.text_range (isSet_of_derives_time hu)] at ht
    simp only [Bool.false_eq_true, if_false, List.append_nil, List.append_assoc, List.cons_append] at ht
    obtain ⟨hc, rfl⟩ := (derives_time_before_iff (by decide)).mp ht
    obtain ⟨-, rfl⟩ := (scan_cons_iff (t := .dash) rfl rfl).mp hw
    obtain ⟨hc', rfl⟩ := (derives_time_iff hm).mp hu
    exact ⟨.range hc hc' false, rfl⟩
  · rw [Timespan.text_range (isSet_of_derives_time hu)] at ht
    simp only [if_true, List.append_assoc, List.cons_append, List.nil_append] at ht
    obtain ⟨hc, rfl⟩ := (derives_time_before_iff (by decide)).mp ht
    obtain ⟨-, rfl⟩ := (scan_cons_iff (t := .dash) rfl rfl).mp hw
    obtain ⟨hc', rfl⟩ := (derives_time_before_iff (by decide)).mp hu
    exact ⟨.range hc hc' true, ((scan_cons_iff (t := .plus) rfl rfl).mp hw').2⟩
  · rw [Timespan.text_periodic (isSet_of_derives_time hu) (isSet_of_derives_period hy)] at ht
    simp only [List.append_assoc, List.cons_append] at ht
    obtain ⟨hc, rfl⟩ := (derives_time_before_iff (by decide)).mp ht
    obtain ⟨-, rfl⟩ := (scan_cons_iff (t := .dash) rfl rfl).mp hw
    obtain ⟨hc', rfl⟩ := (derives_time_before_iff (by decide)).mp hu
    obtain ⟨-, rfl⟩ := (scan_cons_iff (t := .slash) rfl rfl).mp hw'
    obtain ⟨hp, rfl⟩ := (derives_period_iff hm).mp hy
    exact ⟨.periodic hc hc' hp, rfl⟩

/-- A span that a field can hold is read from its own text. -/
lemma derives_timespan_of_canonical {s : Timespan} (hm : Breaks m) (hs : s.Canonical) :
    fieldGrammar.Derives timespan (s.text ++ m) (.ok s) m := by
  rw [derives_timespan_ok]
  cases hs with
  | @point t ht plus =>
    rw [Timespan.text_point ht.wholeMinutes.isSet]
    cases plus with
    | false =>
      refine Or.inl ⟨t, ?_, rfl⟩
      simpa using (derives_time_iff hm).mpr ⟨ht, rfl⟩
    | true =>
      refine Or.inr (Or.inl ⟨t, '+' :: m, _, ?_, (scan_cons_iff rfl rfl).mpr ⟨rfl, rfl⟩, rfl⟩)
      simpa using (derives_time_before_iff (by decide)).mpr ⟨ht, rfl⟩
  | @range t u ht hu plus =>
    rw [Timespan.text_range hu.wholeMinutes.isSet]
    cases plus with
    | false =>
      refine Or.inr (Or.inr (Or.inl ⟨t, u, '-' :: (u.text ++ m), _, _, ?_,
        (scan_cons_iff rfl rfl).mpr ⟨rfl, rfl⟩, (derives_time_iff hm).mpr ⟨hu, rfl⟩, rfl⟩))
      simpa using (derives_time_before_iff (by decide)).mpr ⟨ht, rfl⟩
    | true =>
      refine Or.inr (Or.inr (Or.inr (Or.inl ⟨t, u, '-' :: (u.text ++ '+' :: m), _, _, _, _, ?_,
        (scan_cons_iff rfl rfl).mpr ⟨rfl, rfl⟩, (derives_time_before_iff (by decide)).mpr ⟨hu, rfl⟩,
        (scan_cons_iff rfl rfl).mpr ⟨rfl, rfl⟩, rfl⟩)))
      simpa using (derives_time_before_iff (by decide)).mpr ⟨ht, rfl⟩
  | @periodic t u p ht hu hp =>
    rw [Timespan.text_periodic hu.wholeMinutes.isSet (isSet_of_canonicalPeriod hp)]
    refine Or.inr (Or.inr (Or.inr (Or.inr ⟨t, u, p, '-' :: (u.text ++ '/' :: (p.text ++ m)), _, _,
      _, _, _, ?_, (scan_cons_iff rfl rfl).mpr ⟨rfl, rfl⟩,
      (derives_time_before_iff (by decide)).mpr ⟨hu, rfl⟩,
      (scan_cons_iff rfl rfl).mpr ⟨rfl, rfl⟩, (derives_period_iff hm).mpr ⟨hp, rfl⟩, rfl⟩)))
    simpa using (derives_time_before_iff (by decide)).mpr ⟨ht, rfl⟩

/-- The text of a span is read as that span if and only if a field can hold it. -/
theorem derives_timespan_iff {s : Timespan} (hm : Breaks m) :
    fieldGrammar.Derives timespan (s.text ++ m) (.ok s) r ↔ s.Canonical ∧ r = m := by
  constructor
  · exact canonical_of_derives_timespan hm
  · rintro ⟨hs, rfl⟩
    exact derives_timespan_of_canonical hm hs

/-- The text of spans is read as these spans if and only if a field can hold each of them. -/
theorem derives_times_iff {ss : List Timespan} (hm : Breaks m) :
    fieldGrammar.Derives times (Timespan.textAll ss ++ m) (.ok ss) r ↔
      ss ≠ [] ∧ (∀ s ∈ ss, s.Canonical) ∧ r = m := by
  exact derives_listed_iff_forall (Or.inr rfl) rfl (fun _ => breaks_cons rfl rfl)
    (fun hm => derives_timespan_iff hm) hm

end Part

end OpeningTimes
