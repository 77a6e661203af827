import OpeningTimes.Proofs.Field.Context
import OpeningTimes.Proofs.Rules.Regular

/-!
Fields that are put together.

Two fields with a separator between them are read as the rules of the one and then the rules of the
other. A semicolon and two bars always separate them. A comma does only where the first field could not
go on after it and the second one does not begin with times.

* `Part.derives_joined`: the rules of a field go on in front of a separator and other rules;
* `Field.read_joined`: fields that are put together are read as the rules of both.
-/

namespace OpeningTimes

open Grammar Text

/-! ### The first rule of some rules -/

namespace Nonterminal

/-- The rules that a list of rules may begin with. -/
def first : Nonterminal → Part Rule
  | rules => Part.rule
  | rulesNotTimed => Part.ruleNotTimed

/-- Those of them that could not go on after a comma. -/
def firstClosed : Nonterminal → Part Rule
  | rules => Part.closedRule
  | rulesNotTimed => Part.terminatedRule

end Nonterminal

namespace Part

variable {s m p q r e g : Text} {x y : Rule} {R S : List Rule} {n : Nonterminal}

/-- Rules are a rule, or a rule and rules after a separator. -/
lemma rule_eq (n : Nonterminal) :
    fieldGrammar.rule n =
      .alt (.map (fun x => [x]) n.first)
        (.alt (chain n.first .ruleSeparator .rules) (chain n.firstClosed .comma .rulesNotTimed)) := by
  cases n <;> rfl

/-- A list of rules that is read is not empty. -/
lemma ne_nil_of_rule (h : fieldGrammar.Derives (fieldGrammar.rule n) s (.ok R) r) : R ≠ [] := by
  rw [rule_eq] at h
  rcases derives_alt.mp h with h | h
  · obtain ⟨x, -, rfl⟩ := derives_map_ok.mp h
    exact List.cons_ne_nil _ _
  rcases derives_alt.mp h with h | h
  all_goals
    obtain ⟨x, q, w, p, S, -, -, -, -, rfl⟩ := derives_chain_iff.mp h
    exact List.cons_ne_nil _ _

/-- A rule that could go on after a comma has neither times nor a state. -/
lemma isClosed_of_openEndedRule (h : fieldGrammar.Derives openEndedRule s (.ok x) r) :
    x.isClosed = false := by
  have hcalendar : ∀ {s r y}, fieldGrammar.Derives calendarSelectors s (.ok y) r →
      y.always = false ∧ y.modifier = .defaultOpen := by
    intro s r y h
    obtain ⟨ys, p, ds, q, ws, -, -, -, hv⟩ := exists_of_calendarSelectors h
    cases hb : Value.both ys (Value.both ds ws) with
    | error b =>
      rw [hb] at hv
      cases hv
    | ok b =>
      rw [hb] at hv
      obtain rfl := Except.ok.inj hv
      exact ⟨rfl, rfl⟩
  have hdays : ∀ {s r d}, fieldGrammar.Derives (.opt daysOnly) s (.ok d) r → (d.getD {}).times = [] := by
    intro s r d h
    cases d with
    | none => rfl
    | some d =>
      obtain ⟨_, -, rfl⟩ := derives_map_ok.mp (derives_opt_some.mp h)
      rfl
  have hopen : ∀ {y : Rule} {d : DayTimes} {c : Bool}, y.always = false → y.modifier = .defaultOpen →
      d.times = [] → (withDayTimes { y with colon := c } d).isClosed = false := by
    intro y d c ha hm ht
    simp [Rule.isClosed, Rule.hasTimes, withDayTimes, ha, hm, ht]
  -- a comment that stands for the selectors
  rcases derives_alt.mp h with h | h
  · obtain ⟨⟨c, o⟩, -, hx⟩ := derives_build_ok.mp h
    cases o with
    | none =>
      obtain rfl := Except.ok.inj hx
      rfl
    | some d => cases hx
  -- years, dates and weeks, with a colon or without one, and days alone
  rcases derives_alt.mp h with h | h
  · obtain ⟨⟨y, d⟩, hseq, rfl⟩ := derives_map_ok.mp h
    obtain ⟨q, hy, hd⟩ := derives_seq_ok.mp hseq
    obtain ⟨p, w, hy, -⟩ := derives_before_iff.mp hy
    exact hopen (hcalendar hy).1 (hcalendar hy).2 (hdays hd)
  rcases derives_alt.mp h with h | h
  · obtain ⟨⟨y, d⟩, hseq, rfl⟩ := derives_map_ok.mp h
    obtain ⟨q, hy, hd⟩ := derives_seq_ok.mp hseq
    exact hopen (c := y.colon) (hcalendar hy).1 (hcalendar hy).2 (hdays hd)
  · obtain ⟨d, hd, rfl⟩ := derives_map_ok.mp h
    obtain ⟨_, -, rfl⟩ := derives_map_ok.mp hd
    rfl

/-- A rule that begins with its times has times and no other selectors. -/
lemma beginsWithTimes_of_timesFirstRule (h : fieldGrammar.Derives timesFirstRule s (.ok x) r) :
    x.beginsWithTimes = true := by
  obtain ⟨⟨d, y⟩, hseq, rfl⟩ := derives_map_ok.mp h
  obtain ⟨q, hd, -⟩ := derives_seq_ok.mp hseq
  obtain ⟨ts, hts, rfl⟩ := derives_map_ok.mp hd
  have hne := ne_nil_of_derives_listed hts
  change (withModifier? (withDayTimes {} { times := ts }) y).beginsWithTimes = true
  rw [withModifier?_eq rfl rfl]
  simp [Rule.beginsWithTimes, Rule.hasComment, Rule.hasCalendar, Rule.hasYears, Rule.hasDates,
    Rule.hasWeeks, Rule.hasDays, DaySelector.isEmpty, Rule.hasTimes, withDayTimes, hne]

/-- What a rule says shows that it could not go on after a comma. -/
lemma firstClosed_of_first (h : fieldGrammar.Derives n.first s (.ok x) r) (hx : x.isClosed = true) :
    fieldGrammar.Derives n.firstClosed s (.ok x) r := by
  have hopen : ¬ fieldGrammar.Derives openEndedRule s (.ok x) r := by
    intro h
    rw [isClosed_of_openEndedRule h] at hx
    cases hx
  cases n with
  | rules =>
    rcases derives_alt.mp h with h | h
    · exact .left h
    · exact .right ((derives_alt.mp h).resolve_right hopen)
  | rulesNotTimed => exact (derives_alt.mp h).resolve_right hopen

/-- What rules say shows that they do not begin with times. -/
lemma rulesNotTimed_of_rules (h : fieldGrammar.Derives rules s (.ok (x :: R)) r)
    (hx : x.beginsWithTimes = false) : fieldGrammar.Derives rulesNotTimed s (.ok (x :: R)) r := by
  have htimes : ∀ {q y}, y.beginsWithTimes = false →
      ¬ fieldGrammar.Derives timesFirstRule s (.ok y) q := by
    intro q y hy h
    rw [beginsWithTimes_of_timesFirstRule h] at hy
    cases hy
  have hrule : ∀ {q y}, y.beginsWithTimes = false → fieldGrammar.Derives rule s (.ok y) q →
      fieldGrammar.Derives ruleNotTimed s (.ok y) q := by
    intro q y hy h
    rcases derives_alt.mp h with h | h
    · exact .left h
    · exact .right ((derives_alt.mp h).resolve_left (htimes hy))
  rcases derives_alt.mp h with h | h
  · obtain ⟨y, hy, hR⟩ := derives_map_ok.mp h
    obtain ⟨rfl, rfl⟩ := List.cons.inj hR
    exact .left (derives_map_ok.mpr ⟨_, hrule hx hy, rfl⟩)
  rcases derives_alt.mp h with h | h
  · obtain ⟨y, q, w, p, S, hy, hw, hS, hsep, hR⟩ := derives_chain_iff.mp h
    obtain ⟨rfl, rfl⟩ := List.cons.inj hR
    exact .right (.left (derives_chain_iff.mpr ⟨y, q, w, p, R, hrule hx hy, hw, hS, hsep, rfl⟩))
  · obtain ⟨y, q, w, p, S, hy, hw, hS, hsep, hR⟩ := derives_chain_iff.mp h
    obtain ⟨rfl, rfl⟩ := List.cons.inj hR
    have hy' := (derives_alt.mp hy).resolve_right (htimes (y := y) hx)
    exact .right (.right (derives_chain_iff.mpr ⟨y, q, w, p, R, hy', hw, hS, hsep, rfl⟩))

/-! ### Rules in front of other rules -/

/-- A separator and rules that are read after it. The comma needs a rule before it that could not go on,
and rules after it that do not begin with times. -/
inductive Continues (closed : Bool) (w : Text) (S : List Rule) (m e : Text) : Prop where
  | separator {p : Text} (hw : Terminal.ruleSeparator.scan m = some (w, p))
    (hS : fieldGrammar.Derives rules p (.ok S) e) : Continues closed w S m e
  | comma {p : Text} (hclosed : closed = true) (hw : Terminal.comma.scan m = some (w, p))
    (hS : fieldGrammar.Derives rulesNotTimed p (.ok S) e) : Continues closed w S m e

/-- Rules with nothing but blanks after them go on in front of a separator and other rules. -/
theorem derives_joined {w : Text}
    (h : fieldGrammar.Derives (fieldGrammar.rule n) s (.ok (R ++ [x])) r)
    (hr : r.all isBlank = true) (hm : StandsApart m) (hsep : w ∈ Rule.separators)
    (hgo : Continues x.isClosed w S m e) :
    fieldGrammar.Derives (fieldGrammar.rule n) (s ++ m)
      (.ok (R ++ { x with separator := w } :: S)) e := by
  induction R generalizing s n with
  | nil =>
    -- the last rule of the first field gets the separator
    rw [rule_eq] at h ⊢
    have hfirst : fieldGrammar.Derives n.first s (.ok x) r := by
      rcases derives_alt.mp h with h | h
      · obtain ⟨y, hy, hR⟩ := derives_map_ok.mp h
        obtain rfl := List.singleton_inj.mp hR
        exact hy
      rcases derives_alt.mp h with h | h
      all_goals
        obtain ⟨y, q, w, p, S, -, -, hS, -, hR⟩ := derives_chain_iff.mp h
        exact absurd (List.cons.inj hR).2.symm (ne_nil_of_rule hS)
    have hscan : ∀ t : Terminal, t.scan (r ++ m) = t.scan m := by
      intro t
      rw [Terminal.scan, Terminal.scan, skipBlanks, List.dropWhile_append_of_pos]
      · rfl
      · exact List.all_eq_true.mp hr
    cases hgo with
    | separator hw hS =>
      exact .right (.left (derives_chain_iff.mpr
        ⟨x, r ++ m, w, _, S, derives_append hm hfirst, (hscan _).trans hw, hS, hsep, rfl⟩))
    | comma hclosed hw hS =>
      exact .right (.right (derives_chain_iff.mpr
        ⟨x, r ++ m, w, _, S, derives_append hm (firstClosed_of_first hfirst hclosed),
          (hscan _).trans hw, hS, hsep, rfl⟩))
  | cons y R ih =>
    -- the rules before it keep theirs
    rw [rule_eq] at h ⊢
    rcases derives_alt.mp h with h | h
    · obtain ⟨z, -, hR⟩ := derives_map_ok.mp h
      exact absurd (List.cons.inj hR).2.symm (by simp)
    rcases derives_alt.mp h with h | h
    · obtain ⟨z, q, u, p, T, hz, hu, hT, husep, hR⟩ := derives_chain_iff.mp h
      obtain ⟨rfl, rfl⟩ := List.cons.inj hR
      exact .right (.left (derives_chain_iff.mpr ⟨z, q ++ m, u, p ++ m, _, derives_append hm hz,
        Terminal.scan_append hm hu, ih hT, husep, rfl⟩))
    · obtain ⟨z, q, u, p, T, hz, hu, hT, husep, hR⟩ := derives_chain_iff.mp h
      obtain ⟨rfl, rfl⟩ := List.cons.inj hR
      exact .right (.right (derives_chain_iff.mpr ⟨z, q ++ m, u, p ++ m, _, derives_append hm hz,
        Terminal.scan_append hm hu, ih hT, husep, rfl⟩))

/-- A separator begins with neither a word nor a number. -/
lemma standsApart_separatorText (hs : x.separator ∈ Rule.separators) :
    StandsApart (x.separatorText ++ s) := by
  simp only [Rule.separators, List.mem_cons, List.not_mem_nil, or_false] at hs
  rcases hs with hs | hs | hs
  all_goals
    rw [Rule.separatorText, hs]
    exact breaks_cons rfl rfl

end Part

namespace Field

variable {f g : Text} {R S : List Rule} {x y : Rule}

/-- A field that is read is not empty. -/
lemma ne_nil_of_read (hf : trimField f = f) (hR : read f = .ok R) : f ≠ [] := by
  obtain ⟨r, hd, -⟩ := read_eq_ok_iff.mp hR
  rw [hf] at hd
  exact List.length_pos_iff.mp (Nat.zero_lt_of_lt ((derives_call.mp hd).length_lt rfl))

/-- Fields with a separator between them are read as the rules of both, if the separator may stand
there. -/
lemma read_joined_of_mem {w : Text} (hf : trimField f = f) (hg : trimField g = g)
    (hR : read f = .ok (R ++ [x])) (hS : read g = .ok (y :: S)) (hw : w ∈ Rule.separators)
    (hcomma : w = [','] → x.isClosed = true ∧ y.beginsWithTimes = false) :
    read (f ++ Rule.separatorText { x with separator := w } ++ g) =
      .ok (R ++ { x with separator := w } :: y :: S) := by
  have htrim := trimField_append (m := Rule.separatorText { x with separator := w }) hf hg
    (ne_nil_of_read hf hR) (ne_nil_of_read hg hS)
  obtain ⟨r, hd, hr⟩ := read_eq_ok_iff.mp hR
  obtain ⟨e, hd', he⟩ := read_eq_ok_iff.mp hS
  rw [hf] at hd
  rw [hg] at hd'
  refine read_eq_ok_iff.mpr ⟨e, ?_, he⟩
  rw [htrim, List.append_assoc]
  have hgo : Part.Continues x.isClosed w (y :: S)
      (Rule.separatorText { x with separator := w } ++ g) e := by
    by_cases hc : w = [',']
    · obtain ⟨hclosed, hy⟩ := hcomma hc
      exact .comma hclosed
        ((Part.scan_separatorText_iff (x := { x with separator := w }) hw (by simp)).mpr
          ⟨by simp [hc], rfl, rfl⟩)
        ((Part.derives_space_iff rfl).mpr (Part.rulesNotTimed_of_rules (derives_call.mp hd') hy))
    · exact .separator
        ((Part.scan_separatorText_iff (x := { x with separator := w }) hw (by simp)).mpr
          ⟨by simp [hc], rfl, rfl⟩)
        ((Part.derives_space_iff rfl).mpr (derives_call.mp hd'))
  exact .call (Part.derives_joined (derives_call.mp hd) hr
    (Part.standsApart_separatorText (x := { x with separator := w }) hw) hw hgo)

/-- Fields that are put together are read as the rules of the one and then the rules of the other. A
semicolon and two bars always separate them, and a comma does where the last rule of the first field
applies always, has times or has a state, and the first rule of the second one does not begin with its
times. -/
theorem read_joined (hf : trimField f = f) (hg : trimField g = g) (hR : read f = .ok (R ++ [x]))
    (hS : read g = .ok (y :: S)) :
    read (f ++ [';', ' '] ++ g) = .ok (R ++ { x with separator := semicolon } :: y :: S) ∧
      read (f ++ [' ', '|', '|', ' '] ++ g) =
        .ok (R ++ { x with separator := ['|', '|'] } :: y :: S) ∧
      ((x.always = true ∨ x.times ≠ [] ∨ x.modifier ≠ .defaultOpen) →
        (y.times = [] ∨ y.years ≠ [] ∨ y.dates ≠ [] ∨ y.weeks ≠ [] ∨ y.days ≠ {}) →
          read (f ++ [',', ' '] ++ g) = .ok (R ++ { x with separator := [','] } :: y :: S)) := by
  refine ⟨read_joined_of_mem hf hg hR hS (w := semicolon) (by decide) fun h => absurd h (by decide),
    read_joined_of_mem hf hg hR hS (w := ['|', '|']) (by decide) fun h => absurd h (by decide),
    fun hx hy => ?_⟩
  refine read_joined_of_mem hf hg hR hS (w := [',']) (by decide) fun _ => ⟨?_, ?_⟩
  · simpa [Rule.isClosed, Rule.hasTimes, or_assoc] using hx
  · have hdays : y.days ≠ {} → y.hasDays = true := fun h =>
      Bool.eq_true_of_not_eq_false fun hd => h (Part.hasDays_eq_false_iff.mp hd)
    rcases hy with h | h | h | h | h
    · simp [Rule.beginsWithTimes, Rule.hasTimes, h]
    · simp [Rule.beginsWithTimes, Rule.hasCalendar, Rule.hasYears, h]
    · simp [Rule.beginsWithTimes, Rule.hasCalendar, Rule.hasDates, h]
    · simp [Rule.beginsWithTimes, Rule.hasCalendar, Rule.hasWeeks, h]
    · simp [Rule.beginsWithTimes, hdays h]

/-- A rule that is closed on Mondays, and the rule that is always open. -/
theorem read_joined_monday_always :
    let x : Rule := { days := { ranges := [{ start := some .monday }] }, modifier := .closed }
    let y : Rule := { always := true }
    read "Mo off".toList = .ok [x] ∧ read "24/7".toList = .ok [y] ∧
      read "Mo off, 24/7".toList = .ok [{ x with separator := [','] }, y] := by
  intro x y
  have hx : read "Mo off".toList = .ok ([] ++ [x]) := by decide +kernel
  have hy : read "24/7".toList = .ok [y] := by decide +kernel
  exact ⟨hx, hy, (read_joined (by decide +kernel) (by decide +kernel) hx hy).2.2
    (Or.inr (Or.inr (by simp [x]))) (Or.inl rfl)⟩

end Field

end OpeningTimes
