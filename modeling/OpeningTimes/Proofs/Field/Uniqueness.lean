import OpeningTimes.Field
import OpeningTimes.Proofs.Field.Rules
import OpeningTimes.Proofs.Grammar.Reading

/-!
No field has two readings.

* `Part.AfterOpen`, `Part.AfterClosed`: what may follow rules that could go on after a comma, and
  rules that could not;
* `Part.decisive_tail`, `Part.decisive_front`: both halves of a rule can be read in one way only;
* `Part.ReadsRule`, `Part.ReadsRule.unique`: so can a rule with what follows it;
* `Part.unique_of_derives_rules`, `Field.denotes_unique`: so can a whole field;
* `Field.read_eq_ok_iff_and_unique`: the reader finds the one value that the grammar gives to a field.
-/

namespace OpeningTimes

open Grammar

namespace Part

variable {α : Type} {P : Text → Prop} {s r : Text}

/-- The openings of a part that may be missing are its own ones and those of what follows. -/
lemma opening_of_begins_opt {g : Part α} (hg : g.consumes = true) {K L : List Opening}
    (hP : ∀ r, P r → Opening.of r ∈ K) (hos : ∀ o, o ∈ K ∨ opens g o = true → o ∈ L)
    (h : fieldGrammar.Begins (.opt g) P s) : Opening.of s ∈ L := by
  rcases begins_opt.mp h with h | h
  · exact hos _ (Or.inr (opens_of_begins hg h))
  · exact hos _ (Or.inl (hP s h))

/-! ### What follows a rule -/

/-- What may follow a rule that could go on after a comma: its end. -/
def AfterOpen (s : Text) : Prop :=
  Opening.of s ∈ [.nothing, .semicolon, .bar]

/-- What may follow a rule that could not go on after a comma: its end, or a comma and another rule
that does not begin with its times. -/
def AfterClosed (s : Text) : Prop :=
  AfterOpen s ∨
    ∃ w r, Terminal.comma.scan s = some (w, r) ∧ ¬ fieldGrammar.Begins time (fun _ => True) r

lemma AfterClosed.opening (h : AfterClosed s) :
    Opening.of s ∈ [.nothing, .semicolon, .bar, .comma] := by
  rcases h with h | ⟨w, r, hm, -⟩
  · exact List.mem_append_left [.comma] h
  · have hcomma : ∀ o, Terminal.comma.opens o = true → o ∈ [.nothing, .semicolon, .bar, .comma] := by
      decide
    exact hcomma _ (Terminal.opens_of_scan hm)

lemma AfterTimes.of_opt_modifier (h : fieldGrammar.Begins (.opt modifier) AfterClosed s) :
    AfterTimes s := by
  have hopen := opening_of_begins_opt (L := [.nothing, .semicolon, .bar, .comma, .opened, .closed,
    .unknown, .quote]) rfl (fun _ => AfterClosed.opening) (by decide) h
  refine ⟨.of_mem hopen (by decide), fun w r hm hb => ?_⟩
  rcases begins_opt.mp h with h | h | ⟨w', r', hm', hn⟩
  · exact (Avoids.of_begins (K := [.comma]) rfl h (by decide)).not_scan (t := .comma) (by decide) hm
  · exact (Avoids.of_mem (L := [.comma]) h (by decide)).not_scan (t := .comma) (by decide) hm
  · obtain ⟨rfl, rfl⟩ := Prod.mk.inj (Option.some.inj (hm.symm.trans hm'))
    exact hn hb

/-! ### The second half of a rule -/

lemma decisive_modifierWord (t : Terminal) (m : Modifier) :
    fieldGrammar.Decisive (modifierWord t m) (Avoids [.quote]) :=
  ((Decisive.terminal _).seq (Decisive.opt (Decisive.terminal _) fun _ hb hs =>
    hs.not_begins rfl (by decide) hb)).build _

lemma decisive_modifier : fieldGrammar.Decisive modifier AfterClosed := by
  have hword : ∀ t m, fieldGrammar.Decisive (modifierWord t m) AfterClosed := fun t m =>
    (decisive_modifierWord t m).mono fun r hr => .of_mem hr.opening (by decide)
  refine Decisive.alt (hword _ _) (Decisive.alt (hword _ _) (Decisive.alt (hword _ _)
    ((Decisive.terminal _).build _) ?_) ?_) ?_
  all_goals exact fun s h h' => not_begins_of_opens rfl rfl (by decide) h h'

theorem decisive_tail : fieldGrammar.Decisive tail AfterClosed := by
  refine Decisive.alt ?_ (decisive_modifier.build _) ?_
  · refine ((decisive_times.mono fun r => AfterTimes.of_opt_modifier).seq
      (Decisive.opt decisive_modifier ?_)).build _
    exact fun s hb hs => (Avoids.of_mem (L := [.opened, .closed, .unknown, .quote]) hs.opening
      (by decide)).not_begins rfl (by decide) hb
  · exact fun s h h' => not_begins_of_opens rfl rfl (by decide) h h'

/-! ### The first half of a rule -/

/-- What may follow the first half of a rule: the second half, or the end of a rule that could go on
after a comma. -/
def AfterFront (s : Text) : Prop :=
  fieldGrammar.Begins tail AfterClosed s ∨ AfterOpen s

/-- The openings of what follows the first half of a rule. -/
def frontEnds : List Opening :=
  [.nothing, .semicolon, .bar, .oneDigit, .twoDigits, .event, .leftParenthesis, .opened, .closed,
    .unknown, .quote]

lemma AfterFront.opening (h : AfterFront s) : Opening.of s ∈ frontEnds := by
  have htail : ∀ o, opens tail o = true → o ∈ frontEnds := by decide
  rcases h with h | h
  · exact htail _ (opens_of_begins rfl h)
  · exact List.mem_append_left _ h

/-- What follows a moment that is not the end of it is no colon. -/
lemma opening_of_times (h : fieldGrammar.Begins times P s)
    (hP : ∀ r, P r → Opening.of r ≠ .colon) :
    fieldGrammar.Begins time (fun r => Opening.of r ≠ .colon) s := by
  have hmany : ∀ r, fieldGrammar.Begins (.many .comma timespan) P r → Opening.of r ≠ .colon := by
    intro r hr
    rcases begins_many.mp hr with hr | ⟨w, q, hm, -⟩
    · exact hP r hr
    · have := Avoids.of_scan (K := [.colon]) (t := .comma) hm (by decide)
      simpa [Avoids] using this
  have hmark : ∀ {β} {g : Part β} {Q r}, g.consumes = true → opens g .colon = false →
      fieldGrammar.Begins g Q r → Opening.of r ≠ .colon := by
    intro β g Q r hg ho hr hc
    have := opens_of_begins hg hr
    rw [hc, ho] at this
    cases this
  rw [times, begins_build, begins_seq] at h
  simp only [timespan, begins_alt, begins_build, begins_seq] at h
  rcases h with h | h | h | h | h
  · exact h.mono hmany
  all_goals exact h.mono fun r hr => hmark rfl rfl hr

/-- Digits at the beginning of times are the hours of a clock time, after which there is a colon, and
no further colon after the minutes. -/
lemma exists_clock_of_times (h : fieldGrammar.Begins times P s)
    (hP : ∀ r, P r → Opening.of r ≠ .colon) {t : Terminal} (ht : t ∈ Terminal.numerals) {w q : Text}
    (hq : t.scan s = some (w, q)) :
    ∃ w' p w'' e, Terminal.colon.scan q = some (w', p) ∧ Terminal.minutes.scan p = some (w'', e) ∧
      Opening.of e ≠ .colon := by
  have hnum : ∀ t ∈ Terminal.numerals, ∀ o ∈ [.event, .leftParenthesis],
      Terminal.opens t o = false := by
    decide
  have hd : Avoids [.event, .leftParenthesis] s := .of_scan hq (hnum t ht)
  have ht' := opening_of_times h hP
  simp only [time, clock, number, begins_alt, begins_build, begins_seq] at ht'
  rcases ht' with h | h | h
  · obtain ⟨w₁, q', hq', h⟩ := begins_scan.mp h
    obtain rfl := Terminal.rest_eq_of_numerals ht (by decide) hq hq'
    obtain ⟨w₂, p, hp, h⟩ := begins_scan.mp h
    obtain ⟨w₃, e, he, hc⟩ := begins_scan.mp h
    exact ⟨w₂, p, w₃, e, hp, he, hc⟩
  · exact (hd.not_begins rfl (by decide) h).elim
  · exact (hd.not_begins (g := .terminal .leftParenthesis) rfl (by decide) h).elim

/-- The same for what follows the first half of a rule. -/
lemma AfterFront.exists_clock (h : AfterFront s) {t : Terminal} (ht : t ∈ Terminal.numerals)
    {w q : Text} (hq : t.scan s = some (w, q)) :
    ∃ w' p w'' e, Terminal.colon.scan q = some (w', p) ∧ Terminal.minutes.scan p = some (w'', e) ∧
      Opening.of e ≠ .colon := by
  have hnum : ∀ t ∈ Terminal.numerals,
      ∀ o ∈ [.nothing, .semicolon, .bar, .opened, .closed, .unknown, .quote],
      Terminal.opens t o = false := by
    decide
  have hd : Avoids [.nothing, .semicolon, .bar, .opened, .closed, .unknown, .quote] s :=
    .of_scan hq (hnum t ht)
  rcases h with h | h
  · simp only [tail, begins_alt, begins_build, begins_seq] at h
    rcases h with h | h
    · refine exists_clock_of_times h (fun r hr hc => ?_) ht hq
      have := opening_of_begins_opt (L := [.nothing, .semicolon, .bar, .comma, .opened, .closed,
        .unknown, .quote]) rfl (fun _ => AfterClosed.opening) (by decide) hr
      rw [hc] at this
      exact absurd this (by decide)
    · exact (hd.not_begins rfl (by decide) h).elim
  · exact (hd.mono (L := [.nothing, .semicolon, .bar]) (by decide) h).elim

/-- The days of a rule and what follows them. -/
abbrev beginsDays : Text → Prop :=
  fieldGrammar.Begins (.opt daySelector) AfterFront

/-- A colon before the days of a rule and what follows it. -/
abbrev beginsColon : Text → Prop :=
  fieldGrammar.Begins (.opt (.terminal .colon)) beginsDays

/-- The weeks of a rule and what follows them. -/
abbrev beginsWeeks : Text → Prop :=
  fieldGrammar.Begins (.opt weeks) beginsColon

/-- The dates of a rule and what follows them. -/
abbrev beginsDates : Text → Prop :=
  fieldGrammar.Begins (.opt dates) beginsWeeks

lemma opening_of_beginsDays (h : beginsDays s) :
    Opening.of s ∈ .weekday :: .holiday :: frontEnds :=
  opening_of_begins_opt rfl (fun _ => AfterFront.opening) (by decide) h

lemma opening_of_beginsColon (h : beginsColon s) :
    Opening.of s ∈ .colon :: .weekday :: .holiday :: frontEnds :=
  opening_of_begins_opt rfl (fun _ => opening_of_beginsDays) (by decide) h

lemma opening_of_beginsWeeks (h : beginsWeeks s) :
    Opening.of s ∈ .week :: .colon :: .weekday :: .holiday :: frontEnds :=
  opening_of_begins_opt rfl (fun _ => opening_of_beginsColon) (by decide) h

lemma opening_of_beginsDates (h : beginsDates s) :
    Opening.of s ∈ .month :: .easter :: .fourDigits :: .week :: .colon :: .weekday :: .holiday ::
      frontEnds :=
  opening_of_begins_opt rfl (fun _ => opening_of_beginsWeeks) (by decide) h

/-- Digits at the days of a rule are in its times. -/
lemma afterFront_of_beginsDays {t : Terminal} (ht : t ∈ Terminal.numerals) {w q : Text}
    (hq : t.scan s = some (w, q)) (h : beginsDays s) : AfterFront s := by
  have hnum : ∀ t ∈ Terminal.numerals, ∀ o ∈ [.weekday, .holiday], Terminal.opens t o = false := by
    decide
  rcases begins_opt.mp h with h | h
  · exact ((Avoids.of_scan hq (hnum t ht)).not_begins rfl (by decide) h).elim
  · exact h

/-- Digits at the weeks of a rule are in its times. -/
lemma afterFront_of_beginsWeeks {t : Terminal} (ht : t ∈ Terminal.numerals) {w q : Text}
    (hq : t.scan s = some (w, q)) (h : beginsWeeks s) : AfterFront s := by
  have hnum : ∀ t ∈ Terminal.numerals, ∀ o ∈ [.week, .colon], Terminal.opens t o = false := by
    decide
  have hd := Avoids.of_scan hq (hnum t ht)
  rcases begins_opt.mp h with h | h
  · exact ((hd.mono (L := [.week]) (by decide)).not_begins rfl (by decide) h).elim
  rcases begins_opt.mp h with h | h
  · exact ((hd.mono (L := [.colon]) (by decide)).not_begins rfl (by decide) h).elim
  · exact afterFront_of_beginsDays ht hq h

/-- The day of a date is told from the hours of the times of the rule, and from the minutes of a
clock time of which it would be the hours. -/
lemma AfterDates.of_beginsWeeks (h : beginsWeeks s) : AfterDates s where
  avoids := .of_mem (opening_of_beginsWeeks h) (by decide)
  noComma := .of_mem (opening_of_beginsWeeks h) (by decide)
  sparesClock := by
    intro w q w' q' hc hm
    have hcolon : Avoids [.week, .weekday, .holiday, .nothing, .semicolon, .bar, .oneDigit,
        .twoDigits, .event, .leftParenthesis, .opened, .closed, .unknown, .quote] s :=
      .of_scan hc (by decide)
    rcases begins_opt.mp h with h | h
    · exact ((hcolon.mono (L := [.week]) (by decide)).not_begins rfl (by decide) h).elim
    rcases begins_opt.mp h with h | h
    · obtain ⟨w₁, q₁, hc₁, h⟩ := begins_scan.mp h
      obtain ⟨rfl, rfl⟩ := Prod.mk.inj (Option.some.inj (hc.symm.trans hc₁))
      have hf := afterFront_of_beginsDays (by decide) hm h
      obtain ⟨w₂, p, w₃, e, hp, -, -⟩ := hf.exists_clock (by decide) hm
      have hopen : ∀ o, Terminal.colon.opens o = true → o = .colon := by decide
      exact hopen _ (Terminal.opens_of_scan hp)
    · exact absurd (opening_of_beginsDays h) (hcolon.mono (by decide))
  noDay := by
    intro w q hq hs
    have hf := afterFront_of_beginsWeeks (by decide) hq h
    obtain ⟨w₁, p, w₂, e, hp, he, hc⟩ := hf.exists_clock (by decide) hq
    exact hc (hs _ _ _ _ hp he)
  noCount := by
    intro w q hq
    have hf := afterFront_of_beginsWeeks (by decide) hq h
    obtain ⟨w₁, p, -, -, hp, -, -⟩ := hf.exists_clock (by decide) hq
    exact .of_scan hp (by decide)

lemma decisive_looseSelectors : fieldGrammar.Decisive looseSelectors AfterFront := by
  refine ((Decisive.opt (decisive_years.mono fun r hr => ?_) ?_).seq
    ((Decisive.opt (decisive_dates.mono fun r hr => ?_) ?_).seq
      ((Decisive.opt (decisive_weeks.mono fun r hr => ?_) ?_).seq
        ((Decisive.opt (Decisive.terminal _) ?_).seq
          (Decisive.opt (decisive_daySelector.mono fun r hr => ?_) ?_))))).build _
  -- for each selector: what comes next may follow it, and does not begin as the selector would
  · simp only [begins_seq] at hr
    exact .of_mem (opening_of_beginsDates hr) (by decide)
  · intro s hb hs
    simp only [begins_seq] at hs
    rcases begins_opt.mp hs with hs | hs
    · exact not_begins_years_of_dates hb hs
    · exact (Avoids.of_mem (L := [.fourDigits]) (opening_of_beginsWeeks hs) (by decide)).not_begins
        rfl (by decide) hb
  · simp only [begins_seq] at hr
    exact .of_beginsWeeks hr
  · intro s hb hs
    simp only [begins_seq] at hs
    exact (Avoids.of_mem (L := [.month, .easter, .fourDigits]) (opening_of_beginsWeeks hs)
      (by decide)).not_begins rfl (by decide) hb
  · simp only [begins_seq] at hr
    exact .of_mem (opening_of_beginsColon hr) (by decide)
  · intro s hb hs
    simp only [begins_seq] at hs
    exact (Avoids.of_mem (L := [.week]) (opening_of_beginsColon hs) (by decide)).not_begins
      rfl (by decide) hb
  · intro s hb hs
    exact (Avoids.of_mem (L := [.colon]) (opening_of_beginsDays hs) (by decide)).not_begins
      rfl (by decide) hb
  · exact .of_mem hr.opening (by decide)
  · intro s hb hs
    exact (Avoids.of_mem (L := [.weekday, .holiday]) hs.opening (by decide)).not_begins
      rfl (by decide) hb

/-- Where no selectors are there, what follows them is at the same place. -/
lemma afterFront_of_looseSelectors (h : fieldGrammar.Begins looseSelectors AfterFront s)
    (hs : Avoids [.month, .easter, .fourDigits, .week, .colon, .weekday, .holiday] s) :
    AfterFront s := by
  simp only [looseSelectors, begins_build, begins_seq] at h
  rcases begins_opt.mp h with h | h
  · exact ((hs.mono (L := [.fourDigits]) (by decide)).not_begins rfl (by decide) h).elim
  rcases begins_opt.mp h with h | h
  · exact ((hs.mono (L := [.month, .easter, .fourDigits]) (by decide)).not_begins rfl (by decide)
      h).elim
  rcases begins_opt.mp h with h | h
  · exact ((hs.mono (L := [.week]) (by decide)).not_begins rfl (by decide) h).elim
  rcases begins_opt.mp h with h | h
  · exact ((hs.mono (L := [.colon]) (by decide)).not_begins rfl (by decide) h).elim
  rcases begins_opt.mp h with h | h
  · exact ((hs.mono (L := [.weekday, .holiday]) (by decide)).not_begins rfl (by decide) h).elim
  · exact h

/-- A rule that always applies begins with digits after which there is a slash. -/
lemma exists_slash_of_always {w : Text} (h : Terminal.always.scan s = some (w, r)) :
    ∃ w' q, Terminal.number.scan s = some (w', q) ∧ Opening.of q = .slash := by
  obtain ⟨hs, -⟩ := Terminal.eq_append_of_literal h
  have h2 : Text.isDigit '2' = true := by decide
  have h4 : Text.isDigit '4' = true := by decide
  have hslash : Text.isDigit '/' = false := by decide
  refine ⟨['2', '4'], ['/', '7'] ++ r, ?_, ?_⟩
  · simp [Terminal.scan, Terminal.lexeme, Terminal.digits, hs, h2, h4, hslash]
  · have hletter : Text.isLetter '/' = false := by decide
    have hblank : Text.isBlank '/' = false := by decide
    simp [Opening.of, Text.skipBlanks, hblank, Opening.ofBare, hslash, hletter, Opening.ofMark]

/-- What follows the first half of a rule does not look like a rule that always applies. -/
lemma AfterFront.not_always (h : AfterFront s) {w : Text} :
    Terminal.always.scan s ≠ some (w, r) := by
  intro ha
  obtain ⟨w', q, hq, hslash⟩ := exists_slash_of_always ha
  obtain ⟨w₁, p, -, -, hp, -, -⟩ := h.exists_clock (by decide) hq
  exact (Avoids.of_scan (K := [.slash]) hp (by decide)) (by simp [hslash])

/-- A comment before a colon stands for the selectors, and not for a state. -/
lemma AfterFront.not_comment (h : AfterFront s) :
    ¬ fieldGrammar.Begins (.before (.terminal .comment) .colon) P s := by
  intro hc
  rw [begins_build, begins_seq] at hc
  have hq : Avoids [.nothing, .semicolon, .bar, .oneDigit, .twoDigits, .event, .leftParenthesis,
      .opened, .closed, .unknown] s := .of_begins rfl hc (by decide)
  obtain ⟨w, q, hq', hcolon⟩ := begins_scan.mp hc
  rcases h with h | h
  · simp only [tail, modifier, begins_alt, begins_build, begins_seq] at h
    rcases h with h | h | h | h | h
    · exact (hq.mono (L := [.oneDigit, .twoDigits, .event, .leftParenthesis]) (by decide)).not_begins
        rfl (by decide) h
    · exact (hq.mono (L := [.opened]) (by decide)).not_begins rfl (by decide) h
    · exact (hq.mono (L := [.closed]) (by decide)).not_begins rfl (by decide) h
    · exact (hq.mono (L := [.unknown]) (by decide)).not_begins rfl (by decide) h
    · obtain ⟨w', q', hq'', ha⟩ := begins_scan.mp h
      obtain ⟨rfl, rfl⟩ := Prod.mk.inj (Option.some.inj (hq'.symm.trans hq''))
      exact (Avoids.of_mem (L := [.colon]) ha.opening (by decide)).not_begins rfl (by decide) hcolon
  · exact hq.mono (L := [.nothing, .semicolon, .bar]) (by decide) h

/-- A text that looks like a rule that always applies does not begin with selectors. -/
lemma not_begins_of_always {w : Text} (ha : Terminal.always.scan s = some (w, r)) :
    ¬ fieldGrammar.Begins looseSelectors AfterFront s :=
  fun h => (afterFront_of_looseSelectors h (.of_scan ha (by decide))).not_always ha

theorem decisive_front : fieldGrammar.Decisive front AfterFront := by
  refine Decisive.alt ((Decisive.terminal _).build _) (Decisive.alt ?_ decisive_looseSelectors ?_) ?_
  · refine ((((Decisive.terminal _).seq (.terminal _)).build _).seq (Decisive.opt
      (decisive_daySelector.mono fun r hr => .of_mem hr.opening (by decide)) ?_)).build _
    exact fun s hb hs => (Avoids.of_mem (L := [.weekday, .holiday]) hs.opening
      (by decide)).not_begins rfl (by decide) hb
  · intro s h h'
    simp only [begins_build, begins_seq] at h
    have hloose := afterFront_of_looseSelectors h' (.of_begins (g := .terminal .comment) rfl h
      (by decide))
    refine hloose.not_comment (P := fun _ => True) ?_
    simp only [begins_build, begins_seq]
    exact h.mono fun q hq => hq.mono fun _ _ => trivial
  · intro s h h'
    rw [begins_build] at h
    obtain ⟨w, r, ha, -⟩ := begins_scan.mp h
    rcases begins_alt.mp h' with h' | h'
    · simp only [begins_build, begins_seq] at h'
      exact not_begins_of_opens (g := .terminal .always) (h := .terminal .comment) rfl rfl (by decide)
        h h'
    · exact not_begins_of_always ha h'

/-! ### A rule and what follows it -/

/-- A text begins with a rule, and what follows may follow this form of rule. -/
def ReadsRule (s : Text) (v : Except BuildError Rule) (r : Text) : Prop :=
  (fieldGrammar.Derives flatClosed s v r ∧ AfterClosed r) ∨
    (fieldGrammar.Derives flatOpen s v r ∧ AfterOpen r) ∨
    (fieldGrammar.Derives always s v r ∧ AfterClosed r)

/-- What follows a rule does not begin with its times or its state. -/
lemma AfterClosed.not_tail (h : AfterClosed s) : ¬ fieldGrammar.Begins tail P s :=
  (Avoids.of_mem (L := [.oneDigit, .twoDigits, .event, .leftParenthesis, .opened, .closed,
    .unknown, .quote]) h.opening (by decide)).not_begins rfl (by decide)

/-- A text that looks like a rule that always applies begins with no other first half of a rule. -/
lemma eq_of_always {f : Except BuildError Front} {w q : Text}
    (ha : Terminal.always.scan s = some (w, q)) (hf : fieldGrammar.Derives front s f r)
    (hr : AfterFront r) : f = .ok .always ∧ r = q := by
  rcases derives_alt.mp hf with h | h
  · obtain ⟨_, h', rfl⟩ := derives_build.mp h
    obtain ⟨w', hw, rfl⟩ := derives_terminal.mp h'
    obtain ⟨rfl, rfl⟩ := Prod.mk.inj (Option.some.inj (ha.symm.trans hw))
    exact ⟨rfl, rfl⟩
  rcases derives_alt.mp h with h | h
  · have hb : fieldGrammar.Begins (.seq (.before (.terminal .comment) .colon) (.opt daySelector))
        AfterFront s := by
      obtain ⟨a, h', -⟩ := derives_build.mp h
      exact ⟨a, r, h', hr⟩
    rw [begins_seq, begins_build, begins_seq] at hb
    exact ((Avoids.of_scan (K := [.quote]) ha (by decide)).not_begins (g := .terminal .comment) rfl
      (by decide) hb).elim
  · exact (not_begins_of_always ha ⟨f, r, h, hr⟩).elim

namespace ReadsRule

lemma eq_of_always {v w : Except BuildError Rule} {q : Text}
    (hd : fieldGrammar.Derives always s v r) (hr : AfterClosed r) (h : ReadsRule s w q) :
    v = w ∧ r = q := by
  obtain ⟨_, ha', rfl⟩ := derives_build.mp hd
  obtain ⟨u, ha, rfl⟩ := derives_terminal.mp ha'
  rcases h with ⟨h, hq⟩ | ⟨h, hq⟩ | ⟨h, hq⟩
  · obtain ⟨_, h', rfl⟩ := derives_build.mp h
    obtain ⟨f, p, t, hf, ht, rfl⟩ := derives_seq.mp h'
    obtain ⟨rfl, rfl⟩ := Part.eq_of_always ha hf (Or.inl ⟨t, q, ht, hq⟩)
    exact (hr.not_tail (P := AfterClosed) ⟨t, q, ht, hq⟩).elim
  · obtain ⟨f, hf, rfl⟩ := derives_build.mp h
    obtain ⟨rfl, rfl⟩ := Part.eq_of_always ha hf (Or.inr hq)
    exact ⟨rfl, rfl⟩
  · obtain ⟨_, h', rfl⟩ := derives_build.mp h
    obtain ⟨u', ha'', rfl⟩ := derives_terminal.mp h'
    obtain ⟨rfl, rfl⟩ := Prod.mk.inj (Option.some.inj (ha.symm.trans ha''))
    exact ⟨rfl, rfl⟩

/-- A text begins with one rule only, of one length only. -/
theorem unique {v w : Except BuildError Rule} {q : Text} (h : ReadsRule s v r)
    (h' : ReadsRule s w q) : v = w ∧ r = q := by
  have hcross : ∀ {f p t r q}, fieldGrammar.Derives front s f p → fieldGrammar.Derives tail p t r →
      AfterClosed r → ∀ {f'}, fieldGrammar.Derives front s f' q → AfterOpen q → False := by
    intro f p t r q hf ht hr f' hf' hq
    obtain ⟨rfl, rfl⟩ := decisive_front hf (Or.inl ⟨t, r, ht, hr⟩) hf' (Or.inr hq)
    exact AfterClosed.not_tail (P := AfterClosed) (Or.inl hq) ⟨t, r, ht, hr⟩
  rcases h with ⟨h, hr⟩ | ⟨h, hr⟩ | ⟨h, hr⟩
  · rcases h' with ⟨h', hq⟩ | ⟨h', hq⟩ | ⟨h', hq⟩
    · have hflat : fieldGrammar.Decisive flatClosed AfterClosed :=
        ((decisive_front.mono fun p hp => Or.inl hp).seq decisive_tail).build _
      exact hflat h hr h' hq
    · obtain ⟨_, hs, rfl⟩ := derives_build.mp h
      obtain ⟨f, p, t, hf, ht, rfl⟩ := derives_seq.mp hs
      obtain ⟨f', hf', rfl⟩ := derives_build.mp h'
      exact (hcross hf ht hr hf' hq).elim
    · obtain ⟨rfl, rfl⟩ := eq_of_always h' hq (Or.inl ⟨h, hr⟩)
      exact ⟨rfl, rfl⟩
  · rcases h' with ⟨h', hq⟩ | ⟨h', hq⟩ | ⟨h', hq⟩
    · obtain ⟨f, hf, rfl⟩ := derives_build.mp h
      obtain ⟨_, hs, rfl⟩ := derives_build.mp h'
      obtain ⟨f', p, t, hf', ht, rfl⟩ := derives_seq.mp hs
      exact (hcross hf' ht hq hf hr).elim
    · have hflat : fieldGrammar.Decisive flatOpen AfterOpen :=
        (decisive_front.mono fun p hp => Or.inr hp).build _
      exact hflat h hr h' hq
    · obtain ⟨rfl, rfl⟩ := eq_of_always h' hq (Or.inr (Or.inl ⟨h, hr⟩))
      exact ⟨rfl, rfl⟩
  · exact eq_of_always h hr h'

lemma of_closedRule {v : Except BuildError Rule} (h : fieldGrammar.Derives closedRule s v r)
    (hr : AfterClosed r) : ReadsRule s v r := by
  rcases derives_flat_of_closedRule h with h | h
  · exact Or.inl ⟨h, hr⟩
  · exact Or.inr (Or.inr ⟨h, hr⟩)

lemma of_rule {v : Except BuildError Rule} (h : fieldGrammar.Derives rule s v r)
    (hr : AfterOpen r) : ReadsRule s v r := by
  rcases derives_alt.mp h with h | h
  · exact of_closedRule (.left h) (Or.inl hr)
  rcases derives_alt.mp h with h | h
  · exact of_closedRule (.right h) (Or.inl hr)
  rcases derives_flat_of_openEndedRule h with h | h
  · exact Or.inl ⟨h, Or.inl hr⟩
  · exact Or.inr (Or.inl ⟨h, hr⟩)

end ReadsRule

/-! ### The rules of a field -/

lemma derives_rule_of_ruleNotTimed {v : Except BuildError Rule}
    (h : fieldGrammar.Derives ruleNotTimed s v r) : fieldGrammar.Derives rule s v r := by
  rcases derives_alt.mp h with h | h
  · exact .left h
  · exact .right (.right h)

/-- Rules of which the first one does not begin with its times are rules. -/
lemma derives_rules_of_rulesNotTimed {v : Except BuildError (List Rule)}
    (h : fieldGrammar.Derives rulesNotTimed s v r) : fieldGrammar.Derives rules s v r := by
  rcases derives_alt.mp h with h | h
  · obtain ⟨a, hd, rfl⟩ := derives_build.mp h
    exact .left (.build (derives_rule_of_ruleNotTimed hd))
  rcases derives_alt.mp h with h | h
  · obtain ⟨_, hs, rfl⟩ := derives_build.mp h
    obtain ⟨a, q, b, hd, hb, rfl⟩ := derives_seq.mp hs
    exact .right (.left (.build (.seq (derives_rule_of_ruleNotTimed hd) hb)))
  · obtain ⟨_, hs, rfl⟩ := derives_build.mp h
    obtain ⟨a, q, b, hd, hb, rfl⟩ := derives_seq.mp hs
    exact .right (.right (.build (.seq (.left hd) hb)))

lemma not_time_of_always {w : Text} (ha : Terminal.always.scan s = some (w, r)) :
    ¬ fieldGrammar.Begins time P s := by
  intro h
  obtain ⟨w', q, hq, hslash⟩ := exists_slash_of_always ha
  have hd : Avoids [.event, .leftParenthesis] s := .of_scan ha (by decide)
  simp only [time, clock, number, begins_alt, begins_build, begins_seq] at h
  rcases h with h | h | h
  · obtain ⟨w₁, q', hq', h⟩ := begins_scan.mp h
    obtain rfl := Terminal.rest_eq_of_numerals (by decide) (by decide) hq hq'
    obtain ⟨w₂, p, hp, -⟩ := begins_scan.mp h
    exact (Avoids.of_scan (K := [.slash]) hp (by decide)) (by simp [hslash])
  · exact hd.not_begins rfl (by decide) h
  · exact hd.not_begins (g := .terminal .leftParenthesis) rfl (by decide) h

/-- A rule that does not begin with its times begins with no time at all. -/
lemma not_time_of_ruleNotTimed (h : fieldGrammar.Begins ruleNotTimed P s) :
    ¬ fieldGrammar.Begins time (fun _ => True) s := by
  intro ht
  simp only [ruleNotTimed, terminatedRule, begins_alt] at h
  rcases h with (h | h | h | h) | h
  · exact not_begins_of_opens rfl rfl (by decide) ht h
  · exact not_begins_of_opens rfl rfl (by decide) ht h
  · simp only [always, begins_build, begins_seq] at h
    obtain ⟨w, q, ha, -⟩ := begins_scan.mp h
    exact not_time_of_always ha ht
  · exact not_begins_of_opens rfl rfl (by decide) ht h
  · exact not_begins_of_opens rfl rfl (by decide) ht h

lemma not_time_of_rulesNotTimed (h : fieldGrammar.Begins rulesNotTimed P s) :
    ¬ fieldGrammar.Begins time (fun _ => True) s := by
  simp only [rulesNotTimed, chain, begins_alt, begins_build, begins_seq] at h
  rcases h with h | h | h
  · exact not_time_of_ruleNotTimed h
  · exact not_time_of_ruleNotTimed h
  · exact not_time_of_ruleNotTimed (begins_alt.mpr (Or.inl h))

/-- Nothing but blanks may follow any rule. -/
lemma opening_of_all_isBlank (hr : r.all Text.isBlank = true) : Opening.of r = .nothing := by
  have h : Text.skipBlanks r = [] := by
    rw [Text.skipBlanks, List.dropWhile_eq_nil_iff]
    exact List.all_eq_true.mp hr
  rw [Opening.of, h, Opening.ofBare]

/-- Rules are one rule, or one rule, a separator and rules. -/
lemma exists_of_rules {v : Except BuildError (List Rule)} (h : fieldGrammar.Derives rules s v r)
    (hr : AfterOpen r) :
    ∃ a q, opens rule (Opening.of s) = true ∧ ReadsRule s a q ∧
      ((v = a.map ([·]) ∧ q = r) ∨
        ∃ t w p vs, t ∈ [Terminal.ruleSeparator, .comma] ∧ t.scan q = some (w, p) ∧
          fieldGrammar.Derives (.call .rules) p vs r ∧
          v = (Value.both a (Value.both (.ok w) vs)).bind fun (r, separator, rules) =>
            joined r separator rules) := by
  have hsep : ∀ o, Terminal.ruleSeparator.opens o = true → o ∈ [.nothing, .semicolon, .bar] := by
    decide
  have hopens : ∀ {a q}, fieldGrammar.Derives rule s a q → opens rule (Opening.of s) = true :=
    fun hd => opens_of_begins (P := fun _ => True) rfl ⟨_, _, hd, trivial⟩
  rcases derives_alt.mp h with h | h
  · obtain ⟨a, hd, rfl⟩ := derives_build.mp h
    exact ⟨a, r, hopens hd, .of_rule hd hr, Or.inl ⟨by rcases a with e | a <;> rfl, rfl⟩⟩
  rcases derives_alt.mp h with h | h
  · obtain ⟨_, hs, rfl⟩ := derives_build.mp h
    obtain ⟨a, q, _, hd, hs', rfl⟩ := derives_seq.mp hs
    obtain ⟨_, p, vs, hm, hn, rfl⟩ := derives_seq.mp hs'
    obtain ⟨w, hw, rfl⟩ := derives_terminal.mp hm
    exact ⟨a, q, hopens hd, .of_rule hd (hsep _ (Terminal.opens_of_scan hw)),
      Or.inr ⟨.ruleSeparator, w, p, vs, by simp, hw, hn, rfl⟩⟩
  · obtain ⟨_, hs, rfl⟩ := derives_build.mp h
    obtain ⟨a, q, _, hd, hs', rfl⟩ := derives_seq.mp hs
    obtain ⟨_, p, vs, hm, hn, rfl⟩ := derives_seq.mp hs'
    obtain ⟨w, hw, rfl⟩ := derives_terminal.mp hm
    have hn' : fieldGrammar.Derives rulesNotTimed p vs r := derives_call.mp hn
    have hd' : fieldGrammar.Derives rule s a q := by
      rcases derives_alt.mp hd with hd | hd
      · exact .left hd
      · exact .right (.left hd)
    refine ⟨a, q, hopens hd', .of_closedRule hd (Or.inr ⟨w, p, hw, ?_⟩), Or.inr ⟨.comma, w, p, vs,
      by simp, hw, .call (derives_rules_of_rulesNotTimed hn'), rfl⟩⟩
    exact not_time_of_rulesNotTimed (P := fun _ => True) ⟨vs, r, hn', trivial⟩

/-- All readings of a text as rules, with nothing but blanks left, have the same value. -/
theorem unique_of_derives_rules {r' : Text} {v w : Except BuildError (List Rule)}
    (h : fieldGrammar.Derives rules s v r) (hr : r.all Text.isBlank = true)
    (h' : fieldGrammar.Derives rules s w r') (hr' : r'.all Text.isBlank = true) : v = w := by
  induction hl : s.length using Nat.strong_induction_on generalizing s v w with
  | _ n ih =>
    have hend : ∀ {r : Text}, r.all Text.isBlank = true → AfterOpen r := fun hr => by
      simp [AfterOpen, opening_of_all_isBlank hr]
    obtain ⟨a, q, -, ha, hv⟩ := exists_of_rules h (hend hr)
    obtain ⟨b, q', -, hb, hw⟩ := exists_of_rules h' (hend hr')
    obtain ⟨rfl, rfl⟩ := ha.unique hb
    have hnone : ∀ {t w p}, t ∈ [Terminal.ruleSeparator, .comma] → t.scan q = some (w, p) →
        Opening.of q ≠ .nothing := by
      intro t w p ht hs hq
      have hopen : ∀ t ∈ [Terminal.ruleSeparator, .comma], Terminal.opens t .nothing = false := by
        decide
      have := Terminal.opens_of_scan hs
      rw [hq, hopen t ht] at this
      cases this
    rcases hv with ⟨rfl, rfl⟩ | ⟨t, u, p, vs, ht, hs, hd, rfl⟩
    · rcases hw with ⟨rfl, -⟩ | ⟨t, u, p, vs, ht, hs, -⟩
      · rfl
      · exact (hnone ht hs (opening_of_all_isBlank hr)).elim
    · rcases hw with ⟨-, rfl⟩ | ⟨t', u', p', vs', ht', hs', hd', rfl⟩
      · exact (hnone ht hs (opening_of_all_isBlank hr')).elim
      · -- the mark after the rule tells which separator it is
        have htt : t = t' := by
          have hopen : ∀ t ∈ [Terminal.ruleSeparator, .comma],
              ∀ t' ∈ [Terminal.ruleSeparator, .comma], ∀ o, Terminal.opens t o = true →
                Terminal.opens t' o = true → t = t' := by
            decide
          exact hopen t ht t' ht' _ (Terminal.opens_of_scan hs) (Terminal.opens_of_scan hs')
        subst htt
        obtain ⟨rfl, rfl⟩ := Prod.mk.inj (Option.some.inj (hs.symm.trans hs'))
        have hlt : p.length < n := by
          have hq : q.length ≤ s.length := by
            rcases ha with ⟨hf, -⟩ | ⟨hf, -⟩ | ⟨hf, -⟩ <;> exact hf.length_le
          have := Terminal.scan_shorter hs
          omega
        rw [ih p.length hlt (derives_call.mp hd) (derives_call.mp hd') rfl]

end Part

/-! ### Reading a field -/

/-- Before each call in the grammar there is a separator. -/
lemma guarded_fieldGrammar (x : Nonterminal) : (fieldGrammar.rule x).guarded = true := by
  cases x <;> rfl

namespace Field

/-- No text has two values. -/
lemma denotes_unique {s : Text} {v w : Except BuildError (List Rule)}
    (h : fieldGrammar.Denotes .rules s v) (h' : fieldGrammar.Denotes .rules s w) : v = w := by
  obtain ⟨r, hd, hr⟩ := h
  obtain ⟨r', hd', hr'⟩ := h'
  exact Part.unique_of_derives_rules (derives_call.mp hd) hr (derives_call.mp hd') hr'

/-- The reader finds the rules that the grammar gives to the text. -/
lemma readTrimmed_eq_ok_iff {s : Text} {R : List Rule} :
    readTrimmed s = .ok R ↔ fieldGrammar.Denotes .rules s (.ok R) := by
  rw [← read?_eq_some_iff guarded_fieldGrammar fun v w => denotes_unique]
  unfold readTrimmed
  cases hv : fieldGrammar.read? .rules s with
  | none => simp
  | some v => cases v <;> simp [Except.mapError]

/-- The reader of a field finds the rules that the grammar gives to the text without its margins. -/
lemma read_eq_ok_iff {field : Text} {R : List Rule} :
    read field = .ok R ↔ fieldGrammar.Denotes .rules (Text.trimField field) (.ok R) :=
  readTrimmed_eq_ok_iff

/-- A field is not readable, or what is read is a value that the grammar gives to it. -/
lemma read_unreadable_or (field : Text) :
    read field = .error (.unreadable (Text.trimField field)) ∨
      ∃ v, fieldGrammar.Denotes .rules (Text.trimField field) v ∧
        read field = v.mapError FieldError.ofBuildError := by
  rw [read, readTrimmed]
  cases hv : fieldGrammar.read? .rules (Text.trimField field) with
  | none => exact Or.inl rfl
  | some v => exact Or.inr ⟨v, denotes_of_read? hv, rfl⟩

/-- A field is read as some rules if and only if the grammar gives these rules to it, and the grammar
gives one value at most to any text. -/
theorem read_eq_ok_iff_and_unique (field : Text) :
    (∀ R, read field = .ok R ↔ fieldGrammar.Denotes .rules (Text.trimField field) (.ok R)) ∧
      ∀ s v w, fieldGrammar.Denotes .rules s v → fieldGrammar.Denotes .rules s w → v = w :=
  ⟨fun _ => read_eq_ok_iff, fun _ _ _ => denotes_unique⟩

end Field

end OpeningTimes
