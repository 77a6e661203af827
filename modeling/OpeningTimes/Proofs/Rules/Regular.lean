import OpeningTimes.Proofs.Rules.Values

/-!
What is known of the rules of a field.

A rule is a record whose parts could be anything, and nothing but the grammar ties them together. Each
rule of a field is read by itself (`Part.ReadsRule`), so what ties its parts together is shown of a
single rule, and what ties it to its neighbours by an induction on the list.

* `Rule.Regular`: what holds of every rule that is read;
* `Part.regular_of_readsRule`: it does;
* `Part.chained_of_derives`: rules that are read are such rules one after the other;
* `Field.regular_of_read`: the rules of a field are regular, and there is at least one;
* `Field.separators_of_read`: where a comma may stand between the rules of a field.
-/

namespace OpeningTimes

open Grammar Text

/-- What holds of every rule that is read: of its parts one by one, and of what they have to do with
each other. -/
structure Rule.Regular (x : Rule) : Prop where
  years : ∀ y ∈ x.years, y.Regular
  dates : ∀ d ∈ x.dates, d.Regular
  weeks : ∀ w ∈ x.weeks, w.Regular
  days : ∀ d ∈ x.days.ranges, d.Canonical
  /-- The offsets of holidays are short. Public holidays may have one, which is not written. -/
  holidays : ∀ h ∈ x.days.holidays, isShort h.offset = true
  times : ∀ t ∈ x.times, t.Regular
  /-- A rule that always applies has no selectors. -/
  always : x.always = true → x.isEmpty = true ∧ x.comment = [] ∧ x.colon = false
  /-- A comment that stands for the selectors is quoted, and stands for all of them. -/
  comment : x.comment ≠ [] →
    (∃ c, '"' ∉ c ∧ x.comment = '"' :: c ++ ['"']) ∧ x.isEmpty = true ∧ x.colon = false
  /-- A colon follows years, dates or weeks. -/
  colon : x.colon = true → x.hasCalendar = true
  quotes : '"' ∉ x.modifierComment
  /-- A text after the state needs a state. -/
  noComment : x.modifier = .defaultOpen → x.modifierComment = []
  /-- A rule that says nothing else has a state. -/
  state : x.isEmpty = true → x.always = false → x.comment = [] → x.modifier ≠ .defaultOpen
  /-- The plus sign of an open range of dates is not the one before a weekday. -/
  plus : ∀ d ∈ x.dates.getLast?, d.plus = true → x.weeks = [] → x.colon = false →
    x.days.ranges ≠ [] → x.days.holidays ≠ []

namespace Part

variable {s p q r : Text} {x y : Rule} {R : List Rule}

/-! ### A single rule -/

lemma afterClosed_of_readsRule {v : Except BuildError Rule} (h : ReadsRule s v q) : AfterClosed q := by
  rcases h with ⟨-, h⟩ | ⟨-, h⟩ | ⟨-, h⟩
  · exact h
  · exact Or.inl h
  · exact h

/-- A rule does not begin where another one ends. -/
lemma ne_of_readsRule {v : Except BuildError Rule} (h : ReadsRule s v q)
    (ho : opens rule (Opening.of s) = true) : q ≠ s := by
  have hends : ∀ o ∈ [.nothing, .semicolon, .bar, .comma], opens rule o = false := by decide
  rintro rfl
  rw [hends _ (afterClosed_of_readsRule h).opening] at ho
  cases ho

/-- A state that is read has no quotes in its comment, and is not the default one. -/
lemma state_of_opt_modifier {o : Option (Modifier × Text)}
    (h : fieldGrammar.Derives (.opt modifier) s (.ok o) r) :
    '"' ∉ (o.getD (.defaultOpen, [])).2 ∧
      ((o.getD (.defaultOpen, [])).1 = .defaultOpen → o = none) := by
  cases o with
  | none => exact ⟨by simp, fun _ => rfl⟩
  | some y =>
    have h := derives_opt_some.mp h
    refine ⟨?_, fun he => absurd he (ne_defaultOpen_of_derives_modifier h)⟩
    rcases derives_modifier_ok.mp h with ⟨t, state, w, p, o, -, -, ho, rfl⟩ | ⟨w, hw, rfl⟩
    · cases o with
      | none => simp
      | some c =>
        obtain ⟨c', rfl, hc⟩ := exists_of_scan_comment (derives_scan_iff.mp (derives_opt_some.mp ho))
        rwa [Option.map_some, Option.getD_some, Option.getD_some, unquoted_quoted]
    · obtain ⟨c, rfl, hc⟩ := exists_of_scan_comment hw
      rwa [Option.getD_some, unquoted_quoted]

/-- A range of dates that is left open is not followed by a weekday. -/
lemma endsOpen_of_derives_dates {ds : List DateRange} (h : fieldGrammar.Derives dates s (.ok ds) r) :
    ∀ d ∈ ds.getLast?, d.plus = true → EndsOpen r := by
  have hrange : ∀ {s r d}, fieldGrammar.Derives dateRange s (.ok d) r → d.plus = true → EndsOpen r := by
    intro s r d h hplus
    rcases derives_dateRange_ok.mp h with ⟨d, e, o, _, _, _, _, -, -, -, -, rfl⟩ |
      ⟨d, n, o, _, _, _, _, -, -, -, -, rfl⟩ | ⟨d, _, _, -, hw, rfl⟩ | ⟨d, -, rfl⟩
    · cases hplus
    · cases hplus
    · exact (Bool.not_eq_true' _).mp (Option.filter_eq_some_iff.mp hw).2
    · cases hplus
  have hmany : ∀ {ds : List DateRange} {d s q}, fieldGrammar.Derives dateRange s (.ok d) q →
      fieldGrammar.Derives (.many .comma dateRange) q (.ok ds) r →
      ∀ e ∈ (d :: ds).getLast?, e.plus = true → EndsOpen r := by
    intro ds
    induction ds with
    | nil =>
      intro d s q hd hds e he
      obtain rfl := derives_many_nil.mp hds
      obtain rfl : d = e := by simpa using he
      exact hrange hd
    | cons d' ds ih =>
      intro d s q _ hds e he
      obtain ⟨_, p, u, -, hd', hds'⟩ := derives_many_cons.mp hds
      rw [List.getLast?_cons_cons] at he
      exact ih hd' hds' e he
  obtain ⟨⟨d, ds⟩, hseq, rfl⟩ := derives_map_ok.mp h
  obtain ⟨q, hd, hds⟩ := derives_seq_ok.mp hseq
  exact hmany hd hds

section Selectors

variable {ys : Option (List YearRange)} {ds : Option (List DateRange)} {ws : Option (List WeekRange)}
  {c : Bool} {days : Option DaySelector}

/-- Where no years, dates and weeks are read, and no colon, the days are what comes first. -/
lemma eq_of_looseSelectors
    (h : fieldGrammar.Derives looseSelectors s (.ok (.selectors ys ds ws c days)) p)
    (ho : opens rule (Opening.of s) = true) (hy : ys.getD [] = []) (hd : ds.getD [] = [])
    (hw : ws.getD [] = []) : c = false ∧ (days.getD {} = {} → p = s) := by
  obtain ⟨p₁, p₂, p₃, p₄, o, hys, hds, hws, hcolon, hdays, rfl⟩ := derives_looseSelectors_ok.mp h
  have h₁ : p₁ = s := by
    cases ys with
    | none => exact derives_opt_none.mp hys
    | some ys => exact absurd hy (ne_nil_of_derives_years (derives_opt_some.mp hys))
  have h₂ : p₂ = p₁ := by
    cases ds with
    | none => exact derives_opt_none.mp hds
    | some ds => exact absurd hd (ne_nil_of_derives_listed (derives_opt_some.mp hds))
  have h₃ : p₃ = p₂ := by
    cases ws with
    | none => exact derives_opt_none.mp hws
    | some ws => exact absurd hw (ne_nil_of_derives_weeks (derives_opt_some.mp hws))
  subst h₁ h₂ h₃
  have hc : o = none := by
    cases o with
    | none => rfl
    | some w =>
      have hopen : ∀ o, Terminal.colon.opens o = true → opens rule o = false := by decide
      have hscan := derives_scan_iff.mp (derives_opt_some.mp hcolon)
      rw [hopen _ (Terminal.opens_of_scan hscan)] at ho
      cases ho
  subst hc
  refine ⟨rfl, fun hne => ?_⟩
  obtain rfl := derives_opt_none.mp hcolon
  cases days with
  | none => exact derives_opt_none.mp hdays
  | some d =>
    obtain rfl : d = {} := hne
    exact absurd (canonical_of_derives_daySelector (derives_opt_some.mp hdays)).1 (by decide)

/-- After a range of dates without an end there are no weekdays, unless weeks, a colon or holidays come
first. -/
lemma holidays_ne_nil_of_looseSelectors
    (h : fieldGrammar.Derives looseSelectors s (.ok (.selectors ys ds ws c days)) p) :
    ∀ d ∈ (ds.getD []).getLast?, d.plus = true → ws.getD [] = [] → c = false →
      (days.getD {}).ranges ≠ [] → (days.getD {}).holidays ≠ [] := by
  obtain ⟨p₁, p₂, p₃, p₄, o, -, hds, hws, hcolon, hdays, rfl⟩ := derives_looseSelectors_ok.mp h
  intro d hd hplus hw hc hr hh
  have hends : EndsOpen p₂ := by
    cases ds with
    | none => cases hd
    | some ds => exact endsOpen_of_derives_dates (derives_opt_some.mp hds) d hd hplus
  have h₃ : p₃ = p₂ := by
    cases ws with
    | none => exact derives_opt_none.mp hws
    | some ws => exact absurd hw (ne_nil_of_derives_weeks (derives_opt_some.mp hws))
  have h₄ : p₄ = p₃ := by
    cases o with
    | none => exact derives_opt_none.mp hcolon
    | some w => cases hc
  subst h₃ h₄
  cases days with
  | none => exact hr rfl
  | some d =>
    rcases derives_daySelector_ok.mp (derives_opt_some.mp hdays) with
      ⟨hs, ds, q, w, e, hhol, -, -, rfl⟩ | ⟨ds, hs, q, w, e, -, -, hhol, rfl⟩ | ⟨hs, hhol, rfl⟩ |
      ⟨ds, hd, rfl⟩
    · exact ne_nil_of_derives_listed hhol hh
    · exact ne_nil_of_derives_listed hhol hh
    · exact ne_nil_of_derives_listed hhol hh
    · exact (avoids_of_weekdayWords hends).not_begins (g := weekdays) rfl (by decide)
        ⟨_, p, hd, trivial⟩ (P := fun _ => True)

/-- The values of selectors, and the last of their dates. -/
lemma regular_of_looseSelectors
    (h : fieldGrammar.Derives looseSelectors s (.ok (.selectors ys ds ws c days)) p) :
    (∀ y ∈ ys.getD [], y.Regular) ∧ (∀ d ∈ ds.getD [], d.Regular) ∧ (∀ w ∈ ws.getD [], w.Regular) ∧
      (∀ d ∈ (days.getD {}).ranges, d.Canonical) ∧
      (∀ h ∈ (days.getD {}).holidays, isShort h.offset = true) ∧
      ∀ d ∈ (ds.getD []).getLast?, d.plus = true → ws.getD [] = [] → c = false →
        (days.getD {}).ranges ≠ [] → (days.getD {}).holidays ≠ [] := by
  obtain ⟨p₁, p₂, p₃, p₄, o, hys, hds, hws, -, hdays, -⟩ := derives_looseSelectors_ok.mp h
  have hdays' : (∀ d ∈ (days.getD {}).ranges, d.Canonical) ∧
      ∀ h ∈ (days.getD {}).holidays, isShort h.offset = true := by
    cases days with
    | none => simp
    | some d => exact (canonical_of_derives_daySelector (derives_opt_some.mp hdays)).2
  refine ⟨?_, ?_, ?_, hdays'.1, hdays'.2, holidays_ne_nil_of_looseSelectors h⟩
  · cases ys with
    | none => simp
    | some ys => exact regular_of_derives_years (derives_opt_some.mp hys)
  · cases ds with
    | none => simp
    | some ds =>
      exact (forall_of_derives_listed (fun _ _ _ => regular_of_derives_dateRange)
        (derives_opt_some.mp hds)).2
  · cases ws with
    | none => simp
    | some ws => exact regular_of_derives_weeks (derives_opt_some.mp hws)

end Selectors

/-- A rule that is read is regular. -/
theorem regular_of_readsRule (h : ReadsRule s (.ok x) q) (ho : opens rule (Opening.of s) = true) :
    x.Regular := by
  obtain ⟨f, ts, y, p, e, hmakes, hf, hts, hmod, -⟩ := exists_of_readsRule h
  -- what is known of the state does not depend on what stands before it
  obtain ⟨hquotes, hdefault⟩ := state_of_opt_modifier hmod
  have hnoComment : (y.getD (.defaultOpen, [])).1 = .defaultOpen →
      (y.getD (.defaultOpen, [])).2 = [] := by
    intro hy
    rw [hdefault hy]
    rfl
  cases hmakes with
  | always ts y =>
    rw [withModifier?_eq rfl rfl]
    refine ⟨by simp, by simp, by simp, by simp, by simp, by simp, fun _ => ⟨rfl, rfl, rfl⟩,
      fun h => absurd rfl h, nofun, hquotes, hnoComment, nofun, by simp⟩
  | comment c y =>
    rw [withModifier?_eq rfl rfl]
    obtain ⟨u, k, hscan, -⟩ := exists_of_front_comment hf
    obtain ⟨a, rfl, ha⟩ := exists_of_scan_comment hscan
    refine ⟨by simp, by simp, by simp, by simp, by simp, by simp, nofun,
      fun _ => ⟨⟨a, ha, rfl⟩, rfl, rfl⟩, nofun, hquotes, hnoComment, fun _ _ => nofun, by simp⟩
  | selectors ys ds ws c days ts y =>
    rw [withModifier?_eq rfl rfl]
    have hloose := looseSelectors_of_front hf
    obtain ⟨hy, hd, hw, hdays, hholidays, hplus⟩ := regular_of_looseSelectors hloose
    refine ⟨hy, hd, hw, hdays, hholidays, ?_, nofun, fun h => absurd rfl h, ?_, hquotes, hnoComment, ?_,
      hplus⟩
    · cases ts with
      | none => simp
      | some ts =>
        exact (forall_of_derives_listed (fun _ _ _ => regular_of_derives_timespan)
          (derives_opt_some.mp hts)).2
    · -- without years, dates and weeks no colon is read
      intro hc
      by_contra hcal
      simp only [Rule.hasCalendar, Rule.hasYears, Rule.hasDates, Rule.hasWeeks, selected,
        Bool.not_eq_true, Bool.or_eq_false_iff, not_isEmpty_eq_false_iff] at hcal
      have hcolon := (eq_of_looseSelectors hloose ho hcal.1.1 hcal.1.2 hcal.2).1
      rw [show c = true from hc] at hcolon
      cases hcolon
    · -- a rule that says nothing would end where it begins
      intro hempty _ _ hmodifier
      simp only [Rule.isEmpty, Bool.and_eq_true, Bool.not_eq_true'] at hempty
      obtain ⟨⟨⟨⟨hy, hd⟩, hw⟩, hdays⟩, htimes⟩ := hempty
      have hp := (eq_of_looseSelectors hloose ho (not_isEmpty_eq_false_iff.mp hy)
        (not_isEmpty_eq_false_iff.mp hd) (not_isEmpty_eq_false_iff.mp hw)).2
        (hasDays_eq_false_iff.mp hdays)
      have he : e = p := by
        cases ts with
        | none => exact derives_opt_none.mp hts
        | some ts =>
          have hne : ts ≠ [] := ne_nil_of_derives_listed (derives_opt_some.mp hts)
          exact absurd (not_isEmpty_eq_false_iff.mp htimes) hne
      have hq : q = e := by
        rw [hdefault hmodifier] at hmod
        exact derives_opt_none.mp hmod
      exact ne_of_readsRule h ho (hq.trans (he.trans hp))

/-- A rule that is not read from a time does not begin with its times. -/
lemma beginsWithTimes_of_readsRule (h : ReadsRule s (.ok x) q)
    (ho : opens rule (Opening.of s) = true)
    (hs : ¬ fieldGrammar.Begins time (fun _ => True) s) : x.beginsWithTimes = false := by
  obtain ⟨f, ts, y, p, e, hmakes, hf, hts, -, -⟩ := exists_of_readsRule h
  cases hmakes with
  | always ts y =>
    rw [withModifier?_eq rfl rfl]
    rfl
  | comment c y =>
    rw [withModifier?_eq rfl rfl]
    simp [Rule.beginsWithTimes, Rule.hasTimes]
  | selectors ys ds ws c days ts y =>
    rw [withModifier?_eq rfl rfl]
    by_contra hb
    simp only [Rule.beginsWithTimes, Rule.hasCalendar, Bool.not_eq_false, Bool.and_eq_true,
      Bool.not_eq_true', Bool.or_eq_false_iff] at hb
    obtain ⟨⟨⟨-, ⟨hy, hd⟩, hw⟩, hdays⟩, htimes⟩ := hb
    have hp := (eq_of_looseSelectors (looseSelectors_of_front hf) ho (not_isEmpty_eq_false_iff.mp hy)
      (not_isEmpty_eq_false_iff.mp hd) (not_isEmpty_eq_false_iff.mp hw)).2
      (hasDays_eq_false_iff.mp hdays)
    subst hp
    cases ts with
    | none => cases htimes
    | some ts =>
      have htime : fieldGrammar.Begins times (fun _ => True) p :=
        ⟨_, e, derives_opt_some.mp hts, trivial⟩
      exact hs (begins_time_of_times htime)

/-! ### The rules of a field -/

/-- A separator that is no comma is one of the other two. -/
lemma mem_of_scan_ruleSeparator {w : Text} (h : Terminal.ruleSeparator.scan s = some (w, r)) :
    w ∈ [semicolon, ['|', '|']] := by
  rcases Option.or_eq_some_iff.mp h with h | ⟨-, h⟩
  · obtain ⟨-, rfl⟩ := Terminal.eq_append_of_literal h
    simp [semicolon]
  · obtain ⟨-, rfl⟩ := Terminal.eq_append_of_literal h
    simp

/-- Rules that are read are regular rules one after the other. Where they are not read from a time, the
first one does not begin with its times. -/
theorem chained_of_derives (h : fieldGrammar.Derives rules s (.ok R) r) (hr : AfterOpen r) :
    Rule.Chained Rule.Regular R ∧
      (¬ fieldGrammar.Begins time (fun _ => True) s → ∀ x ∈ R.head?, x.beginsWithTimes = false) := by
  induction R generalizing s with
  | nil =>
    obtain ⟨x, q, -, -, ⟨hR, -⟩ | ⟨t, w, p, S, -, -, -, -, hR⟩⟩ := exists_of_rules_ok h hr
    all_goals cases hR
  | cons x R ih =>
    obtain ⟨x', q, ho, hread, ⟨hR, rfl⟩ | ⟨t, w, p, S, ht, -, hw, hS, hR⟩⟩ := exists_of_rules_ok h hr
    · obtain ⟨rfl, rfl⟩ := List.cons.inj hR
      refine ⟨.single (regular_of_readsRule hread ho) (separator_of_readsRule hread), fun hs => ?_⟩
      rintro y ⟨⟩
      exact beginsWithTimes_of_readsRule hread ho hs
    · -- the separator is set afterwards, and no condition is about it
      obtain ⟨rfl, rfl⟩ := List.cons.inj hR
      have hx := regular_of_readsRule hread ho
      have hx' : Rule.Regular { x' with separator := w } :=
        ⟨hx.years, hx.dates, hx.weeks, hx.days, hx.holidays, hx.times, hx.always, hx.comment, hx.colon,
          hx.quotes, hx.noComment, hx.state, hx.plus⟩
      obtain ⟨hchained, hbegins⟩ := ih hS
      refine ⟨?_, fun hs => ?_⟩
      · cases hchained' : R with
        | nil =>
          rw [hchained'] at hchained
          cases hchained
        | cons y R =>
          subst hchained'
          simp only [List.mem_cons, List.not_mem_nil, or_false] at ht
          rcases ht with rfl | rfl
          · exact .cons hx' (mem_of_scan_ruleSeparator hw) hchained
          · -- the rule would go on after the comma if it could
            have hq : Opening.of q = .comma := by
              have : ∀ o, Terminal.comma.opens o = true → o = .comma := by decide
              exact this _ (Terminal.opens_of_scan hw)
            obtain ⟨rfl, -⟩ := (Terminal.scan_mark_iff (t := .comma) rfl).mp hw
            refine .comma hx' rfl (isClosed_of_readsRule (x := x') hread hq) ?_ hchained
            refine hbegins ?_ y rfl
            rcases afterClosed_of_readsRule hread with hopen | ⟨w, p', hw', hn⟩
            · rw [AfterOpen, hq] at hopen
              exact absurd hopen (by decide)
            · obtain ⟨-, rfl⟩ := Prod.mk.inj (Option.some.inj (hw.symm.trans hw'))
              exact hn
      · rintro y ⟨⟩
        exact beginsWithTimes_of_readsRule (x := x') hread ho hs

end Part

namespace Rule.Chained

variable {P : Rule → Prop} {R : List Rule}

lemma ne_nil (h : Chained P R) : R ≠ [] := by
  cases h <;> exact List.cons_ne_nil _ _

lemma forall_mem (h : Chained P R) : ∀ x ∈ R, P x := by
  induction h with
  | single hx hs => exact List.forall_mem_singleton.mpr hx
  | cons hx hs hR ih => exact List.forall_mem_cons.mpr ⟨hx, ih⟩
  | comma hx hs hclosed hy hR ih => exact List.forall_mem_cons.mpr ⟨hx, ih⟩

lemma separator_mem (h : Chained P R) : ∀ x ∈ R, x.separator ∈ separators := by
  induction h with
  | single hx hs =>
    rw [List.forall_mem_singleton, hs]
    decide
  | cons hx hs hR ih =>
    have : ∀ w ∈ [semicolon, ['|', '|']], w ∈ separators := by decide
    exact List.forall_mem_cons.mpr ⟨this _ hs, ih⟩
  | comma hx hs hclosed hy hR ih =>
    refine List.forall_mem_cons.mpr ⟨?_, ih⟩
    rw [hs]
    decide

lemma separator_getLast (h : Chained P R) : ∀ x ∈ R.getLast?, x.separator = semicolon := by
  induction h with
  | single hx hs =>
    rintro y ⟨⟩
    exact hs
  | cons hx hs hR ih => rwa [List.getLast?_cons_cons]
  | comma hx hs hclosed hy hR ih => rwa [List.getLast?_cons_cons]

/-- Where a comma stands after a rule there is another one, and it could not go on with it. -/
lemma exists_of_comma (h : Chained P R) {i : ℕ} {x : Rule} (hi : R[i]? = some x)
    (hx : x.separator = [',']) :
    x.isClosed = true ∧ ∃ y, R[i + 1]? = some y ∧ y.beginsWithTimes = false := by
  induction h generalizing i with
  | single _ hs =>
    cases i with
    | zero =>
      obtain rfl := Option.some.inj hi
      rw [hs] at hx
      exact absurd hx (by decide)
    | succ i => cases hi
  | cons _ hs hR ih =>
    cases i with
    | zero =>
      obtain rfl := Option.some.inj hi
      rw [hx] at hs
      exact absurd hs (by decide)
    | succ i => exact ih hi
  | comma _ hs hclosed hy hR ih =>
    cases i with
    | zero =>
      obtain rfl := Option.some.inj hi
      exact ⟨hclosed, _, rfl, hy⟩
    | succ i => exact ih hi

end Rule.Chained

namespace Field

variable {field : Text} {R : List Rule}

/-- The rules of a field are regular rules one after the other. -/
lemma chained_of_read (h : read field = .ok R) : Rule.Chained Rule.Regular R := by
  obtain ⟨r, hd, hr⟩ := read_eq_ok_iff.mp h
  refine (Part.chained_of_derives (derives_call.mp hd) ?_).1
  rw [Part.AfterOpen, Part.opening_of_all_isBlank hr]
  decide

/-- Every field that is read has a rule, and its rules are regular. -/
theorem regular_of_read (h : read field = .ok R) : R ≠ [] ∧ ∀ x ∈ R, x.Regular :=
  ⟨(chained_of_read h).ne_nil, (chained_of_read h).forall_mem⟩

/-- Two rules that are read are regular. -/
theorem regular_of_read_always_monday :
    let R : List Rule := [{ always := true, modifier := .opened, separator := [','] },
      { days := { ranges := [{ start := some .monday }] } }]
    read "24/7 open, Mo".toList = .ok R ∧ R ≠ [] ∧ ∀ x ∈ R, x.Regular := by
  intro R
  have hR : read "24/7 open, Mo".toList = .ok R := by decide +kernel
  exact ⟨hR, regular_of_read hR⟩

/-- Every rule of a field has one of the three separators, and the last one has the default. A comma
stands only after a rule that applies always, has times or has a state, and there is another rule after
it, which does not begin with its times. -/
theorem separators_of_read (h : read field = .ok R) :
    (∀ x ∈ R, x.separator ∈ Rule.separators) ∧ (∀ x ∈ R.getLast?, x.separator = semicolon) ∧
      ∀ (i : ℕ) (x : Rule), R[i]? = some x → x.separator = [','] →
        (x.always = true ∨ x.times ≠ [] ∨ x.modifier ≠ .defaultOpen) ∧
          ∃ y, R[i + 1]? = some y ∧
            (y.times = [] ∨ y.years ≠ [] ∨ y.dates ≠ [] ∨ y.weeks ≠ [] ∨ y.days ≠ {}) := by
  have hchained := chained_of_read h
  refine ⟨hchained.separator_mem, hchained.separator_getLast, fun i x hi hx => ?_⟩
  obtain ⟨hclosed, y, hy, hbegins⟩ := hchained.exists_of_comma hi hx
  refine ⟨?_, y, hy, ?_⟩
  · simpa [Rule.isClosed, Rule.hasTimes, or_assoc] using hclosed
  · have hregular := hchained.forall_mem y (List.mem_of_getElem? hy)
    have hempty : y.isEmpty = true → y.times = [] := by
      simp +contextual [Rule.isEmpty, Rule.hasTimes]
    by_contra hnone
    simp only [not_or, not_not] at hnone
    obtain ⟨ht, hyears, hdates, hweeks, hdays⟩ := hnone
    have ha : y.always = false := Bool.eq_false_iff.mpr fun ha => ht (hempty (hregular.always ha).1)
    have hc : y.comment = [] := by_contra fun hc => ht (hempty (hregular.comment hc).2.1)
    have hd := Part.hasDays_eq_false_iff.mpr hdays
    simp [Rule.beginsWithTimes, Rule.hasCalendar, Rule.hasComment, Rule.hasYears, Rule.hasDates,
      Rule.hasWeeks, Rule.hasTimes, ha, hc, hyears, hdates, hweeks, hd, ht] at hbegins

/-- A comma between two rules that are read. -/
theorem separators_of_read_always_monday :
    let x : Rule := { always := true, modifier := .opened, separator := [','] }
    let y : Rule := { days := { ranges := [{ start := some .monday }] } }
    read "24/7 open, Mo".toList = .ok [x, y] ∧ x.separator = [','] ∧
      (x.always = true ∨ x.times ≠ [] ∨ x.modifier ≠ .defaultOpen) := by
  intro x y
  have hR : read "24/7 open, Mo".toList = .ok [x, y] := by decide +kernel
  exact ⟨hR, rfl, ((separators_of_read hR).2.2 0 x rfl rfl).1⟩

end Field

end OpeningTimes
