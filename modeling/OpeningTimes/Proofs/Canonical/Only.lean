import OpeningTimes.Proofs.Canonical.Margins

/-!
No other rules are read from their own text.

* `Part.written_of_derives_dateRange` and its companions: what is known of all values that are read;
* `Part.exists_of_readsRule`: a rule that is read is what stands before its times, its times and its
  state;
* `Part.good_of_looseSelectors`: selectors that are read from their own text are ones that a field can
  hold;
* `Part.canonical_of_readsRule`: so are whole rules.
-/

namespace OpeningTimes

open Grammar Text

namespace Part

variable {s m p q r : Text} {x : Rule}

/-! ### What is known of all values that are read -/

lemma written_of_derives_dateRange {d : DateRange} (h : fieldGrammar.Derives dateRange s (.ok d) r) :
    d.start.Written := by
  rcases derives_dateRange_ok.mp h with ⟨d, e, o, _, _, _, _, hd, -, -, -, rfl⟩ |
    ⟨d, n, o, _, _, _, _, hd, -, -, -, rfl⟩ | ⟨d, _, _, hd, -, rfl⟩ | ⟨d, hd, rfl⟩
  all_goals exact written_of_derives_date hd

lemma wholeMinutes_of_derives_timespan {t : Timespan}
    (h : fieldGrammar.Derives timespan s (.ok t) r) : t.start.WholeMinutes := by
  rcases derives_timespan_ok.mp h with ⟨t, ht, rfl⟩ | ⟨t, _, _, ht, -, rfl⟩ |
    ⟨t, u, _, _, _, ht, -, -, rfl⟩ | ⟨t, u, _, _, _, _, _, ht, -, -, -, rfl⟩ |
    ⟨t, u, y, _, _, _, _, _, _, ht, -, -, -, -, rfl⟩
  all_goals exact wholeMinutes_of_derives_time ht

lemma ne_nil_of_derives_years {ys : List YearRange} (h : fieldGrammar.Derives years s (.ok ys) r) :
    ys ≠ [] := by
  obtain ⟨_, -, rfl⟩ := derives_map_ok.mp h
  exact List.cons_ne_nil _ _

lemma ne_nil_of_derives_weeks {ws : List WeekRange} (h : fieldGrammar.Derives weeks s (.ok ws) r) :
    ws ≠ [] := by
  obtain ⟨w, q, -, h⟩ := derives_after_ok.mp h
  exact ne_nil_of_derives_listed h

/-! ### The parts of a rule that is read -/

/-- What stands before the times of a rule, its times and its state make up the rule. Times after a rule
that always applies, or after a comment in place of the selectors, are never part of a rule. -/
inductive Makes : Front → Option (List Timespan) → Option (Modifier × Text) → Rule → Prop where
  | always (ts : Option (List Timespan)) (y : Option (Modifier × Text)) :
    Makes .always ts y (withModifier? { always := true } y)
  | comment (c : Text) (y : Option (Modifier × Text)) :
    Makes (.comment c none) none y (withModifier? { comment := c } y)
  | selectors (ys : Option (List YearRange)) (ds : Option (List DateRange))
    (ws : Option (List WeekRange)) (c : Bool) (days : Option DaySelector)
    (ts : Option (List Timespan)) (y : Option (Modifier × Text)) :
    Makes (.selectors ys ds ws c days) ts y
      (withModifier? { selected ys ds ws c days with times := ts.getD [] } y)

lemma makes_of_assembled {f : Front} {t : Option Tail} (h : assembled f t = .ok x) :
    Makes f (t.bind Prod.fst) (t.bind Prod.snd) x := by
  cases f with
  | always =>
    obtain rfl := Except.ok.inj h
    exact .always _ _
  | comment c days =>
    cases days with
    | some d => cases h
    | none =>
      rcases t with _ | ⟨_ | ts, y⟩
      · obtain rfl := Except.ok.inj h
        exact .comment c none
      · obtain rfl := Except.ok.inj h
        exact .comment c y
      · cases h
  | selectors ys ds ws c days =>
    obtain rfl := Except.ok.inj h
    exact .selectors ys ds ws c days _ _

/-- Times and a state are both parts that may be missing. -/
lemma exists_of_opt_tail {t : Option Tail} (h : fieldGrammar.Derives (.opt tail) p (.ok t) q) :
    ∃ e, fieldGrammar.Derives (.opt times) p (.ok (t.bind Prod.fst)) e ∧
      fieldGrammar.Derives (.opt modifier) e (.ok (t.bind Prod.snd)) q := by
  cases t with
  | none =>
    obtain rfl := derives_opt_none.mp h
    exact ⟨_, derives_opt_none.mpr rfl, derives_opt_none.mpr rfl⟩
  | some t =>
    rcases derives_alt.mp (derives_opt_some.mp h) with h' | h'
    · obtain ⟨⟨ts, y⟩, hs, rfl⟩ := derives_map_ok.mp h'
      obtain ⟨e, ht, hy⟩ := derives_seq_ok.mp hs
      exact ⟨e, derives_opt_some.mpr ht, hy⟩
    · obtain ⟨y, hy, rfl⟩ := derives_map_ok.mp h'
      exact ⟨p, derives_opt_none.mpr rfl, derives_opt_some.mpr hy⟩

/-- Selectors are no rule that always applies, and no comment. -/
lemma looseSelectors_of_front {ys : Option (List YearRange)} {ds : Option (List DateRange)}
    {ws : Option (List WeekRange)} {c : Bool} {days : Option DaySelector}
    (h : fieldGrammar.Derives front s (.ok (.selectors ys ds ws c days)) p) :
    fieldGrammar.Derives looseSelectors s (.ok (.selectors ys ds ws c days)) p := by
  rcases derives_alt.mp h with h | h
  · obtain ⟨_, -, he⟩ := derives_map_ok.mp h
    cases he
  rcases derives_alt.mp h with h | h
  · obtain ⟨_, -, he⟩ := derives_map_ok.mp h
    cases he
  · exact h

/-- A comment in place of the selectors is quoted, and a colon follows it. -/
lemma exists_of_front_comment {w : Text} (h : fieldGrammar.Derives front s (.ok (.comment w none)) p) :
    ∃ q c, Terminal.comment.scan s = some (w, q) ∧ Terminal.colon.scan q = some (c, p) := by
  rcases derives_alt.mp h with h | h
  · obtain ⟨_, -, he⟩ := derives_map_ok.mp h
    cases he
  rcases derives_alt.mp h with h | h
  · obtain ⟨⟨w', d⟩, hs, he⟩ := derives_map_ok.mp h
    obtain ⟨rfl, rfl⟩ := Front.comment.inj he
    obtain ⟨u, hw, hd⟩ := derives_seq_ok.mp hs
    obtain rfl := derives_opt_none.mp hd
    obtain ⟨v, k, hw, hcolon⟩ := derives_before_iff.mp hw
    exact ⟨v, k, derives_scan_iff.mp hw, hcolon⟩
  · obtain ⟨_, -, he⟩ := derives_map_ok.mp h
    cases he

/-- A rule that is read is what stands before its times, its times and its state. -/
lemma exists_of_readsRule (h : ReadsRule s (.ok x) q) :
    ∃ f ts y p e, Makes f ts y x ∧ fieldGrammar.Derives front s (.ok f) p ∧
      fieldGrammar.Derives (.opt times) p (.ok ts) e ∧
      fieldGrammar.Derives (.opt modifier) e (.ok y) q ∧ (f = .always ∨ AfterFront p) := by
  have hmake : ∀ {f t p}, assembled f t = .ok x → fieldGrammar.Derives front s (.ok f) p →
      fieldGrammar.Derives (.opt tail) p (.ok t) q → (f = .always ∨ AfterFront p) →
      ∃ f ts y p e, Makes f ts y x ∧ fieldGrammar.Derives front s (.ok f) p ∧
        fieldGrammar.Derives (.opt times) p (.ok ts) e ∧
        fieldGrammar.Derives (.opt modifier) e (.ok y) q ∧ (f = .always ∨ AfterFront p) := by
    intro f t p hx hf ht hp
    obtain ⟨e, hts, hy⟩ := exists_of_opt_tail ht
    exact ⟨f, _, _, p, e, makes_of_assembled hx, hf, hts, hy, hp⟩
  rcases h with ⟨h, hq⟩ | ⟨h, hq⟩ | ⟨h, -⟩
  · obtain ⟨⟨f, t⟩, h, hx⟩ := derives_build_ok.mp h
    obtain ⟨p, hf, ht⟩ := derives_seq_ok.mp h
    exact hmake hx hf (derives_opt_some.mpr ht) (Or.inr (Or.inl ⟨_, q, ht, hq⟩))
  · obtain ⟨f, hf, hx⟩ := derives_build_ok.mp h
    exact hmake hx hf (derives_opt_none.mpr rfl) (Or.inr (Or.inr hq))
  · obtain ⟨w, hw, rfl⟩ := derives_map_ok.mp h
    exact hmake (f := .always) (t := none) rfl (.left (derives_map_ok.mpr ⟨w, hw, rfl⟩))
      (derives_opt_none.mpr rfl) (Or.inl rfl)

lemma modifier_of_makes {f : Front} {ts : Option (List Timespan)} {y : Option (Modifier × Text)}
    (h : Makes f ts y x) : y.getD (.defaultOpen, []) = (x.modifier, x.modifierComment) := by
  cases h <;> cases y <;> rfl

/-! ### Selectors that are read from their own text -/

/-- A part that may be missing and is read from its own text is good, and nothing is left of it. -/
lemma good_of_opt_piece {α : Type} {g : Part α} {a d : α} {o : Option α} {asked b : Bool} {w : Text}
    {C : Prop} (hg : g.consumes = true) (hb : b = false ↔ a = d)
    (hd : ∀ s r, ¬ fieldGrammar.Derives g s (.ok d) r) (h0 : a = d → C)
    (hC : b = true → fieldGrammar.Derives g (w ++ m) (.ok a) r → C ∧ r = m)
    (h : fieldGrammar.Derives (.opt g) (Rule.piece asked b w ++ m) (.ok o) r) (ho : o.getD d = a) :
    C ∧ r = m := by
  rcases derives_or_of_opt_piece hg hb hd h ho with ⟨rfl, rfl⟩ | ⟨rfl, h'⟩
  · exact ⟨h0 (hb.mp rfl), rfl⟩
  · exact hC rfl h'

lemma not_isEmpty_eq_false_iff {α : Type} {xs : List α} : (!xs.isEmpty) = false ↔ xs = [] := by
  simp

lemma hasDays_eq_false_iff : x.hasDays = false ↔ x.days = {} := by
  rcases hx : x.days with ⟨ds, hs⟩
  simp [Rule.hasDays, DaySelector.isEmpty, hx]

section Selectors

variable {ys : Option (List YearRange)} {ds : Option (List DateRange)} {ws : Option (List WeekRange)}
  {days : Option DaySelector}

/-- The dates, weeks and days that are read have the form that dates, weeks and days are written in. -/
lemma written_of_derives {c : Bool} {ts : Option (List Timespan)} {e : Text}
    (hf : fieldGrammar.Derives looseSelectors s (.ok (.selectors ys ds ws c days)) p)
    (hts : fieldGrammar.Derives (.opt times) p (.ok ts) e) (hd : ds.getD [] = x.dates)
    (hdays : days.getD {} = x.days) (ht : ts.getD [] = x.times) : x.Written := by
  obtain ⟨p₁, p₂, p₃, p₄, o, -, hds, -, -, hds', -⟩ := derives_looseSelectors_ok.mp hf
  refine ⟨?_, ?_, ?_⟩
  · rw [← hd]
    cases ds with
    | none => simp
    | some ds =>
      exact (forall_of_derives_listed (fun _ _ _ => written_of_derives_dateRange)
        (derives_opt_some.mp hds)).2
  · rw [← hdays]
    cases days with
    | none => simp
    | some d =>
      exact fun y hy => ((canonical_of_derives_daySelector (derives_opt_some.mp hds')).2.1 y hy).isSome_start
  · rw [← ht]
    cases ts with
    | none => simp
    | some ts =>
      exact (forall_of_derives_listed (fun _ _ _ => wholeMinutes_of_derives_timespan)
        (derives_opt_some.mp hts)).2

variable {b : Bool}

/-- Years that are read from the text of a rule are ones that a field can hold, and no date without a
year follows a single one. -/
lemma good_of_years (hw : x.Written) (hm : EndsRule m)
    (h : fieldGrammar.Derives (.opt years) (x.yearsText ++ m) (.ok ys) r) (hy : ys.getD [] = x.years) :
    ((∀ y ∈ x.years, y.Canonical) ∧
      ∀ y, x.years = [y] → y.IsLone → ∀ d ∈ x.dates.head?, d.start.year ≠ 0) ∧
      r = x.datesText x.hasYears ++ m := by
  rw [Rule.yearsText, List.append_assoc] at h
  refine good_of_opt_piece rfl not_isEmpty_eq_false_iff (fun _ _ h => ne_nil_of_derives_years h rfl)
    (fun h => by simp [h]) (fun hb h => ?_) h hy
  rw [show x.hasYears = true from hb] at h ⊢
  obtain ⟨-, hc, hl, hr⟩ := (derives_years_iff (endsYears_datesText hw hm)).mp h
  exact ⟨⟨hc, fun y hy hlone => (endsLone_datesText_iff hw hm).mp (hl y hy hlone)⟩, hr⟩

/-- Dates that are read from the text of a rule are ones that a field can hold, and weekdays do not
follow an open end. -/
lemma good_of_dates (hw : x.Written) (hm : EndsRule m) (hr : beginsWeeks r)
    (h : fieldGrammar.Derives (.opt dates) (x.datesText b ++ m) (.ok ds) r)
    (hd : ds.getD [] = x.dates) :
    ((∀ d ∈ x.dates, d.Canonical) ∧
      ∀ d ∈ x.dates.getLast?, d.plus = true → x.weeks = [] → x.colon = false →
        x.days.ranges ≠ [] → x.days.holidays ≠ []) ∧
      r = x.weeksText (b || x.hasDates) ++ m := by
  rw [Rule.datesText, List.append_assoc] at h
  refine good_of_opt_piece rfl not_isEmpty_eq_false_iff (fun _ _ h => ne_nil_of_derives_listed h rfl)
    (fun h => by simp [h]) (fun hb h => ?_) h hd
  rw [show x.hasDates = true from hb, Bool.or_true] at h ⊢
  have hends : EndsDates (x.weeksText true ++ m) := (rest_weeksText hw hm).endsDates (by decide)
  obtain ⟨-, hc, hl, hr'⟩ := (derives_dates_iff hends
    (AfterDates.of_beginsWeeks hr).toAfterDateRange).mp h
  exact ⟨⟨hc, fun d hd hplus => (endsOpen_weeksText_iff hw hm).mp (hl d hd hplus)⟩, hr'⟩

/-- Weeks that are read from the text of a rule are ones that a field can hold. -/
lemma good_of_weeks (hw : x.Written) (hm : EndsRule m) (hr : beginsColon r)
    (h : fieldGrammar.Derives (.opt weeks) (x.weeksText b ++ m) (.ok ws) r)
    (hwk : ws.getD [] = x.weeks) :
    (∀ w ∈ x.weeks, w.Canonical) ∧ r = x.colonText (b || x.hasWeeks) ++ m := by
  rw [Rule.weeksText, List.append_assoc] at h
  refine good_of_opt_piece rfl not_isEmpty_eq_false_iff (fun _ _ h => ne_nil_of_derives_weeks h rfl)
    (fun h => by simp [h]) (fun hb h => ?_) h hwk
  rw [show x.hasWeeks = true from hb, Bool.or_true] at h ⊢
  have hspares : SparesClock r :=
    (AfterDates.of_beginsWeeks (begins_opt.mpr (Or.inr hr))).sparesClock
  obtain ⟨-, hc, hr'⟩ := (derives_weeks_iff ((rest_colonText hw hm).endsWeeks (by decide))
    hspares).mp h
  exact ⟨hc, hr'⟩

/-- The colon of a rule is read if and only if it is written. -/
lemma eq_of_colon {o : Option Text}
    (h : fieldGrammar.Derives (.opt (.terminal .colon)) (x.colonText b ++ m) (.ok o) r)
    (ho : o.isSome = x.colon) : r = x.daysText b ++ m := by
  rw [Rule.colonText, ← ho] at h
  cases o with
  | none => exact derives_opt_none.mp h
  | some w =>
    exact ((scan_cons_iff (t := .colon) rfl rfl).mp (derives_scan_iff.mp (derives_opt_some.mp h))).2

/-- Weekdays and holidays that are read from the text of a rule are ones that a field can hold. -/
lemma good_of_days (hw : x.Written) (hm : EndsRule m)
    (h : fieldGrammar.Derives (.opt daySelector) (x.daysText b ++ m) (.ok days) r)
    (hdays : days.getD {} = x.days) :
    x.days.Canonical ∧ r = x.timesText (b || x.hasDays) ++ m := by
  rw [Rule.daysText, List.append_assoc] at h
  refine good_of_opt_piece rfl hasDays_eq_false_iff
    (fun _ _ h => absurd (canonical_of_derives_daySelector h).1 (by decide)) (fun h => ?_)
    (fun hb h => ?_) h hdays
  · rw [h]
    exact ⟨by simp, by simp⟩
  · rw [hb, Bool.or_true] at h ⊢
    obtain ⟨⟨-, hc⟩, hr⟩ :=
      (derives_daySelector_iff ((rest_timesText hw hm).endsDays (by decide))).mp h
    exact ⟨hc, hr⟩

/-- Times that are read from the text of a rule are ones that a field can hold. -/
lemma good_of_times {ts : Option (List Timespan)} (hm : EndsRule m)
    (h : fieldGrammar.Derives (.opt times) (x.timesText b ++ m) (.ok ts) r)
    (ht : ts.getD [] = x.times) :
    (∀ t ∈ x.times, t.Canonical) ∧ r = x.stateText (b || x.hasTimes) ++ m := by
  rw [Rule.timesText, List.append_assoc] at h
  refine good_of_opt_piece rfl not_isEmpty_eq_false_iff (fun _ _ h => ne_nil_of_derives_listed h rfl)
    (fun h => by simp [h]) (fun hb h => ?_) h ht
  rw [show x.hasTimes = true from hb, Bool.or_true] at h ⊢
  exact ((derives_times_iff (rest_stateText x hm).breaks).mp h).2

/-- What stands before the state of a rule and is read from its own text is what a field can hold. -/
lemma good_of_looseSelectors {ts : Option (List Timespan)} {e : Text} (hw : x.Written)
    (hm : EndsRule m)
    (hf : fieldGrammar.Derives looseSelectors (x.yearsText ++ m)
      (.ok (.selectors ys ds ws x.colon days)) p)
    (hts : fieldGrammar.Derives (.opt times) p (.ok ts) e) (hp : AfterFront p)
    (hy : ys.getD [] = x.years) (hd : ds.getD [] = x.dates) (hwk : ws.getD [] = x.weeks)
    (hdays : days.getD {} = x.days) (ht : ts.getD [] = x.times) :
    x.CanonicalSelectors ∧
      e = x.stateText (x.hasYears || x.hasDates || x.hasWeeks || x.hasDays || x.hasTimes) ++ m := by
  obtain ⟨p₁, p₂, p₃, p₄, o, hys, hds, hws, ho, hdays', hcolon⟩ := derives_looseSelectors_ok.mp hf
  -- what is left of the text begins as what may follow the part before it
  have hbdays : beginsDays p₄ := ⟨_, p, hdays', hp⟩
  have hbcolon : beginsColon p₃ := ⟨_, p₄, ho, hbdays⟩
  have hbweeks : beginsWeeks p₂ := ⟨_, p₃, hws, hbcolon⟩
  obtain ⟨⟨hcy, hlone⟩, rfl⟩ := good_of_years hw hm hys hy
  obtain ⟨⟨hcd, hplus⟩, rfl⟩ := good_of_dates hw hm hbweeks hds hd
  obtain ⟨hcw, rfl⟩ := good_of_weeks hw hm hbcolon hws hwk
  obtain rfl := eq_of_colon ho hcolon
  obtain ⟨hcdays, rfl⟩ := good_of_days hw hm hdays' hdays
  obtain ⟨hct, rfl⟩ := good_of_times hm hts ht
  exact ⟨⟨hcy, hcd, hcw, hcdays, hct, hlone, hplus⟩, rfl⟩

end Selectors

/-! ### Rules that are read from their own text -/

lemma withModifier?_eq {y : Option (Modifier × Text)} (hx : x.modifier = .defaultOpen)
    (hc : x.modifierComment = []) :
    withModifier? x y =
      { x with
        modifier := (y.getD (.defaultOpen, [])).1
        modifierComment := (y.getD (.defaultOpen, [])).2 } := by
  cases y with
  | none =>
    rw [Option.getD_none, ← hx, ← hc]
    rfl
  | some y => rfl

/-- No times are read where a state is written. -/
lemma eq_of_times_stateText {ts : Option (List Timespan)} (hm : EndsRule m)
    (h : fieldGrammar.Derives (.opt times) (x.stateText true ++ m) (.ok ts) r) :
    r = x.stateText true ++ m := by
  cases ts with
  | none => exact derives_opt_none.mp h
  | some ts =>
    have ha : Avoids [.oneDigit, .twoDigits, .event, .leftParenthesis] (x.stateText true ++ m) :=
      (rest_stateText x hm).avoids (by decide)
    exact (ha.not_begins (g := times) (P := fun _ => True) rfl (by decide)
      ⟨_, r, derives_opt_some.mp h, trivial⟩).elim

lemma canonical_of_reads_always {state : Modifier} {c : Text} {ts : Option (List Timespan)}
    {y : Option (Modifier × Text)} {e : Text} (hm : EndsRule m)
    (hx : x = { always := true, modifier := state, modifierComment := c })
    (hy : y.getD (.defaultOpen, []) = (x.modifier, x.modifierComment))
    (hf : fieldGrammar.Derives front (x.text ++ m) (.ok .always) p)
    (hts : fieldGrammar.Derives (.opt times) p (.ok ts) e)
    (hmod : fieldGrammar.Derives (.opt modifier) e (.ok y) q) : x.Canonical ∧ q = m := by
  have hp : p = x.stateText true ++ m := by
    rcases derives_alt.mp hf with h | h
    · obtain ⟨w, hw, -⟩ := derives_map_ok.mp h
      rw [Rule.text_of_always (by rw [hx]), List.append_assoc] at hw
      exact (scan_always_iff.mp (derives_scan_iff.mp hw)).2
    rcases derives_alt.mp h with h | h
    · obtain ⟨_, -, he⟩ := derives_map_ok.mp h
      cases he
    · obtain ⟨_, -, he⟩ := derives_map_ok.mp h
      cases he
  subst hp
  obtain rfl := eq_of_times_stateText hm hts
  obtain ⟨hs, rfl⟩ := canonicalState_of_derives hm hmod hy
  subst hx
  exact ⟨.always hs _, rfl⟩

lemma canonical_of_reads_comment {w : Text} {state : Modifier} {c : Text}
    {y : Option (Modifier × Text)} (hm : EndsRule m)
    (hx : x = { comment := w, modifier := state, modifierComment := c })
    (hy : y.getD (.defaultOpen, []) = (x.modifier, x.modifierComment))
    (hf : fieldGrammar.Derives front (x.text ++ m) (.ok (.comment w none)) p)
    (hmod : fieldGrammar.Derives (.opt modifier) p (.ok y) q) : x.Canonical ∧ q = m := by
  obtain ⟨v, k, hscan, hcolon⟩ := exists_of_front_comment hf
  obtain ⟨a, rfl, ha⟩ := exists_of_scan_comment hscan
  have htext : x.text ++ m = '"' :: a ++ '"' :: ':' :: (x.stateText true ++ m) := by
    rw [Rule.text_of_comment (by rw [hx]) (by rw [hx]; rfl), hx]
    simp
  rw [htext, Terminal.scan_comment_iff ha] at hscan
  obtain ⟨-, rfl⟩ := hscan
  obtain ⟨-, rfl⟩ := (scan_cons_iff (t := .colon) rfl rfl).mp hcolon
  obtain ⟨hcanonical, rfl⟩ := canonicalState_of_derives hm hmod hy
  subst hx
  exact ⟨.comment ha hcanonical _, rfl⟩

/-- A rule without years, dates and weeks is written from its colon on. -/
lemma yearsText_of_hasCalendar (h : x.hasCalendar = false) : x.yearsText = x.colonText false := by
  obtain ⟨hyd, hw⟩ := Bool.or_eq_false_iff.mp h
  obtain ⟨hy, hd⟩ := Bool.or_eq_false_iff.mp hyd
  simp [Rule.yearsText, Rule.datesText, Rule.weeksText, hy, hd, hw, Rule.piece]

lemma canonical_of_reads_selectors {ys : Option (List YearRange)} {ds : Option (List DateRange)}
    {ws : Option (List WeekRange)} {days : Option DaySelector} {ts : Option (List Timespan)}
    {y : Option (Modifier × Text)} {e : Text} (hm : EndsRule m) (ha : x.always = false)
    (hc : x.comment = []) (ho : opens rule (Opening.of (x.text ++ m)) = true)
    (hf : fieldGrammar.Derives front (x.text ++ m) (.ok (.selectors ys ds ws x.colon days)) p)
    (hts : fieldGrammar.Derives (.opt times) p (.ok ts) e)
    (hmod : fieldGrammar.Derives (.opt modifier) e (.ok y) q) (hp : AfterFront p)
    (hy : ys.getD [] = x.years) (hd : ds.getD [] = x.dates) (hwk : ws.getD [] = x.weeks)
    (hdays : days.getD {} = x.days) (ht : ts.getD [] = x.times)
    (hstate : y.getD (.defaultOpen, []) = (x.modifier, x.modifierComment)) :
    x.Canonical ∧ q = m := by
  have hcomment : x.hasComment = false := by simp [Rule.hasComment, hc]
  rw [Rule.text_of_selectors ha hcomment] at hf ho
  have hloose := looseSelectors_of_front hf
  have hw := written_of_derives hloose hts hd hdays ht
  obtain ⟨hsel, rfl⟩ := good_of_looseSelectors hw hm hloose hts hp hy hd hwk hdays ht
  obtain ⟨hs, rfl⟩ := canonicalState_of_derives hm hmod hstate
  -- a colon at the very beginning, or no text at all, is no rule
  have hcolon : x.colon = true → x.hasCalendar = true := by
    intro hcolon
    by_contra hcal
    have htext : x.yearsText ++ q = ':' :: (x.daysText false ++ q) := by
      rw [yearsText_of_hasCalendar (by simpa using hcal), Rule.colonText, hcolon]
      rfl
    rw [htext, Opening.of_cons rfl rfl rfl] at ho
    exact absurd ho (by decide)
  refine ⟨.selectors ha hc hsel hs hcolon fun hempty hdefault => ?_, rfl⟩
  have hcal : x.hasCalendar = false := by
    simp only [Rule.isEmpty, Bool.and_eq_true, Bool.not_eq_true'] at hempty
    simp [Rule.hasCalendar, hempty]
  have hnocolon : x.colon = false := Bool.eq_false_iff.mpr fun h => by simp [hcolon h] at hcal
  have htext : x.yearsText = [] := by
    simp only [Rule.isEmpty, Bool.and_eq_true, Bool.not_eq_true'] at hempty
    have hc := hs.noComment hdefault
    rw [yearsText_of_hasCalendar hcal]
    simp [Rule.colonText, Rule.daysText, Rule.timesText, Rule.stateText, hempty, hnocolon, hdefault,
      Modifier.isPrinted, Rule.hasModifierComment, hc, Rule.piece]
  rw [htext, List.nil_append] at ho
  have hends : ∀ o ∈ ruleEnds, opens rule o = false := by decide
  rw [hends _ (rest_of_endsRule hm).opening] at ho
  cases ho

/-- Only a rule that a field can hold is read from its own text. -/
theorem canonical_of_readsRule (h : ReadsRule (x.text ++ m) (.ok x) q)
    (ho : opens rule (Opening.of (x.text ++ m)) = true) (hm : EndsRule m) : x.Canonical ∧ q = m := by
  obtain ⟨f, ts, y, p, e, hmakes, hf, hts, hmod, hp⟩ := exists_of_readsRule h
  have hstate := modifier_of_makes hmakes
  cases hmakes with
  | always ts y => exact canonical_of_reads_always hm (withModifier?_eq rfl rfl) hstate hf hts hmod
  | comment c y =>
    obtain rfl := derives_opt_none.mp hts
    exact canonical_of_reads_comment hm (withModifier?_eq rfl rfl) hstate hf hmod
  | selectors ys ds ws c days ts y =>
    have hp : AfterFront p := hp.resolve_left nofun
    cases y with
    | none => exact canonical_of_reads_selectors hm rfl rfl ho hf hts hmod hp rfl rfl rfl rfl rfl rfl
    | some y => exact canonical_of_reads_selectors hm rfl rfl ho hf hts hmod hp rfl rfl rfl rfl rfl rfl

end Part

end OpeningTimes
