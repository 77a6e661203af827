import OpeningTimes.Proofs.Canonical.Margins

/-!
Lists of rules that a field can hold.

* `Rule.Chained`, `Rule.CanonicalAll`: rules with their separators, and what a field can hold;
* `Part.ReadAll`, `Part.readAll_of_canonicalAll`: the text of such a list is read as that list;
* `Field.read_textAll`: so is the text of such a list as a field.
-/

namespace OpeningTimes

open Grammar Text

namespace Rule

/-- Rules one after the other, each of which has a property. After the last rule the default separator
is noted. A comma stands only where the rule before it could not go on and the rule after it does not
begin with its times. -/
inductive Chained (P : Rule → Prop) : List Rule → Prop where
  | single {x : Rule} (hx : P x) (hs : x.separator = semicolon) : Chained P [x]
  | cons {x y : Rule} {R : List Rule} (hx : P x) (hs : x.separator ∈ [semicolon, ['|', '|']])
    (hR : Chained P (y :: R)) : Chained P (x :: y :: R)
  | comma {x y : Rule} {R : List Rule} (hx : P x) (hs : x.separator = [','])
    (hclosed : x.isClosed = true) (hy : y.beginsWithTimes = false) (hR : Chained P (y :: R)) :
    Chained P (x :: y :: R)

/-- The lists of rules that a field can hold. -/
abbrev CanonicalAll (R : List Rule) : Prop :=
  Chained Canonical R

lemma textAll_cons_cons (x y : Rule) (R : List Rule) :
    textAll (x :: y :: R) = x.text ++ (x.separatorText ++ textAll (y :: R)) := by
  simp [textAll, Text.joinBy]

end Rule

namespace Part

variable {s m r : Text} {x y : Rule} {R : List Rule}

/-! ### Separators -/

/-- A separator may follow a rule. -/
lemma endsRule_separatorText (hs : x.separator ∈ Rule.separators) :
    EndsRule (x.separatorText ++ s) := by
  simp only [Rule.separators, List.mem_cons, List.not_mem_nil, or_false] at hs
  rcases hs with hs | hs | hs
  · rw [Rule.separatorText, hs]
    exact .semicolon _
  · rw [Rule.separatorText, hs]
    exact .comma _
  · rw [Rule.separatorText, hs]
    exact .bars _

/-- A separator is read as what it is. -/
lemma scan_separatorText_iff (hs : x.separator ∈ Rule.separators) {t : Terminal}
    (ht : t ∈ [Terminal.ruleSeparator, .comma]) {w p : Text} :
    t.scan (x.separatorText ++ s) = some (w, p) ↔
      (t = .comma ↔ x.separator = [',']) ∧ w = x.separator ∧ p = ' ' :: s := by
  simp only [List.mem_cons, List.not_mem_nil, or_false] at ht
  simp only [Rule.separators, List.mem_cons, List.not_mem_nil, or_false] at hs
  rcases ht with rfl | rfl <;> rcases hs with hs | hs | hs <;>
    simp [Rule.separatorText, hs, Terminal.scan, Terminal.lexeme, Terminal.literal, semicolon,
      skipBlanks, isBlank, eq_comm]

/-! ### Rules that a field can hold are read -/

namespace ReadAs

lemma closedRule (h : ReadAs x m) (hx : x.isClosed = true) :
    fieldGrammar.Derives closedRule (x.text ++ m) (.ok { x with separator := semicolon }) m := by
  cases hb : x.beginsWithTimes with
  | true => exact .right (h.timesFirst hb)
  | false => exact .left (h.terminated hb hx)

lemma ruleNotTimed (h : ReadAs x m) (hx : x.beginsWithTimes = false) :
    fieldGrammar.Derives ruleNotTimed (x.text ++ m) (.ok { x with separator := semicolon }) m := by
  cases hc : x.isClosed with
  | true => exact .left (h.terminated hx hc)
  | false => exact .right (h.openEnded hc)

lemma rule (h : ReadAs x m) :
    fieldGrammar.Derives rule (x.text ++ m) (.ok { x with separator := semicolon }) m := by
  cases hb : x.beginsWithTimes with
  | true => exact .right (.left (h.timesFirst hb))
  | false => exact derives_rule_of_ruleNotTimed (h.ruleNotTimed hb)

end ReadAs

lemma joined_eq_ok_iff {w : Text} {S : List Rule} :
    joined x w S = .ok R ↔ w ∈ Rule.separators ∧ R = { x with separator := w } :: S := by
  unfold joined Rule.withSeparator
  by_cases hw : w ∈ Rule.separators
  · rw [if_pos (List.contains_iff_mem.mpr hw)]
    simp [hw, eq_comm]
  · rw [if_neg fun h => hw (List.contains_iff_mem.mp h)]
    simp [hw]

/-- Rules with a separator after the first one are that rule with its separator, and other rules. -/
lemma derives_chain_iff {first : Part Rule} {t : Terminal} {next : Nonterminal} :
    fieldGrammar.Derives (chain first t next) s (.ok R) r ↔
      ∃ x q w p S, fieldGrammar.Derives first s (.ok x) q ∧ t.scan q = some (w, p) ∧
        fieldGrammar.Derives (fieldGrammar.rule next) p (.ok S) r ∧ w ∈ Rule.separators ∧
        R = { x with separator := w } :: S := by
  constructor
  · intro h
    obtain ⟨⟨x, w, S⟩, hseq, hjoined⟩ := derives_build_ok.mp h
    obtain ⟨q, hx, hseq⟩ := derives_seq_ok.mp hseq
    obtain ⟨p, hw, hS⟩ := derives_seq_ok.mp hseq
    exact ⟨x, q, w, p, S, hx, derives_scan_iff.mp hw, derives_call.mp hS, joined_eq_ok_iff.mp hjoined⟩
  · rintro ⟨x, q, w, p, S, hx, hw, hS, hjoined⟩
    exact derives_build_ok.mpr ⟨(x, w, S), derives_seq_ok.mpr ⟨q, hx, derives_seq_ok.mpr
      ⟨p, derives_scan_iff.mpr hw, .call hS⟩⟩, joined_eq_ok_iff.mpr hjoined⟩

/-- A rule, its separator and the rules after that are so many rules. -/
lemma derives_chain {first : Part Rule} {t : Terminal} {next : Nonterminal}
    (ht : t ∈ [Terminal.ruleSeparator, .comma]) (hs : x.separator ∈ Rule.separators)
    (hsep : t = .comma ↔ x.separator = [',']) {S : List Rule}
    (hnext : (fieldGrammar.rule next).consumes = true)
    (hx : fieldGrammar.Derives first (x.text ++ (x.separatorText ++ s))
      (.ok { x with separator := semicolon }) (x.separatorText ++ s))
    (hS : fieldGrammar.Derives (fieldGrammar.rule next) s (.ok S) r) :
    fieldGrammar.Derives (chain first t next) (x.text ++ (x.separatorText ++ s)) (.ok (x :: S)) r :=
  derives_chain_iff.mpr ⟨_, _, _, _, S, hx, (scan_separatorText_iff hs ht).mpr ⟨hsep, rfl, rfl⟩,
    (derives_space_iff hnext).mpr hS, hs, rfl⟩

/-- A text is read as a list of rules, also where that list must not begin with times. -/
structure ReadAll (R : List Rule) (s : Text) : Prop where
  rules : fieldGrammar.Derives rules s (.ok R) []
  rulesNotTimed : (∀ x ∈ R.head?, x.beginsWithTimes = false) →
    fieldGrammar.Derives rulesNotTimed s (.ok R) []

/-- Rules that a field can hold are read from their own text. -/
theorem readAll_of_canonicalAll (h : Rule.CanonicalAll R) : ReadAll R (Rule.textAll R) := by
  induction h with
  | @single x hx hs =>
    have hread := readAs_of_canonical hx .nil
    have hvalue : { x with separator := semicolon } = x := by rw [← hs]
    have htext : Rule.textAll [x] = x.text ++ [] := by simp [Rule.textAll, Text.joinBy]
    rw [htext]
    refine ⟨.left (derives_map_ok.mpr ⟨_, hread.rule, by rw [hvalue]⟩), fun hb => ?_⟩
    exact .left (derives_map_ok.mpr ⟨_, hread.ruleNotTimed (hb x rfl), by rw [hvalue]⟩)
  | @cons x y R hx hs _ ih =>
    have hsep : x.separator ∈ Rule.separators := by
      have : ∀ w ∈ [semicolon, ['|', '|']], w ∈ Rule.separators := by decide
      exact this _ hs
    have hcomma : Terminal.ruleSeparator = .comma ↔ x.separator = [','] := by
      have : ∀ w ∈ [semicolon, ['|', '|']], Terminal.ruleSeparator = .comma ↔ w = [','] := by decide
      exact this _ hs
    have hread := readAs_of_canonical hx (endsRule_separatorText (s := Rule.textAll (y :: R)) hsep)
    rw [Rule.textAll_cons_cons]
    refine ⟨.right (.left (derives_chain (by simp) hsep hcomma rfl hread.rule ih.rules)), fun hb => ?_⟩
    exact .right (.left (derives_chain (by simp) hsep hcomma rfl (hread.ruleNotTimed (hb x rfl))
      ih.rules))
  | @comma x y R hx hs hclosed hy _ ih =>
    have hsep : x.separator ∈ Rule.separators := by
      rw [hs]
      decide
    have hread := readAs_of_canonical hx (endsRule_separatorText (s := Rule.textAll (y :: R)) hsep)
    -- after a comma the rules go on only if the next one does not begin with its times
    have hnext := ih.rulesNotTimed fun z hz => by
      obtain rfl : y = z := by simpa using hz
      exact hy
    rw [Rule.textAll_cons_cons]
    refine ⟨.right (.right (derives_chain (by simp) hsep (by simp [hs]) rfl
      (hread.closedRule hclosed) hnext)), fun hb => ?_⟩
    exact .right (.right (derives_chain (by simp) hsep (by simp [hs]) rfl
      (hread.terminated (hb x rfl) hclosed) hnext))

end Part

namespace Field

/-- The text of rules that a field can hold ends with no margin and has an even number of quotes. -/
lemma taken_textAll {R : List Rule} (h : Rule.CanonicalAll R) :
    EndsPlain (Rule.textAll R) ∧ Even ((Rule.textAll R).count '"') := by
  have htext : ∀ {x : Rule} {m : Text}, x.Canonical → EndsRule m →
      EndsPlain x.text ∧ Even (x.text.count '"') := by
    intro x m hx hm
    obtain ⟨u, hu, htaken⟩ := Part.taken_of_derives_rule (Part.readAs_of_canonical hx hm).rule
    rwa [List.append_cancel_right hu]
  -- no separator has a quote in it
  have hsep : ∀ w ∈ Rule.separators,
      Even ((Rule.separatorText { separator := w }).count '"') := by
    decide
  have hcons : ∀ {x y : Rule} {R : List Rule}, x.Canonical → x.separator ∈ Rule.separators →
      Rule.CanonicalAll (y :: R) →
      EndsPlain (Rule.textAll (y :: R)) ∧ Even ((Rule.textAll (y :: R)).count '"') →
      EndsPlain (Rule.textAll (x :: y :: R)) ∧ Even ((Rule.textAll (x :: y :: R)).count '"') := by
    intro x y R hx hs hR ih
    have hne : Rule.textAll (y :: R) ≠ [] :=
      List.length_pos_iff.mp ((Part.readAll_of_canonicalAll hR).rules.length_lt rfl)
    rw [Rule.textAll_cons_cons, ← List.append_assoc]
    refine ⟨?_, ?_⟩
    · intro c hc
      rw [List.getLast?_append_of_ne_nil _ hne] at hc
      exact ih.1 c hc
    · rw [List.count_append, List.count_append]
      exact ((htext hx .nil).2.add (hsep _ hs)).add ih.2
  induction h with
  | @single x hx hs =>
    simpa [Rule.textAll, Text.joinBy] using htext hx .nil
  | @cons x y R hx hs hR ih =>
    have : ∀ w ∈ [semicolon, ['|', '|']], w ∈ Rule.separators := by decide
    exact hcons hx (this _ hs) hR ih
  | @comma x y R hx hs _ _ hR ih => exact hcons hx (by rw [hs]; decide) hR ih

/-- The rules that a field can hold are the ones that are read from their own text. -/
lemma read_textAll {R : List Rule} (h : Rule.CanonicalAll R) : read (Rule.textAll R) = .ok R := by
  have hread := (Part.readAll_of_canonicalAll h).rules
  have hsemi : Opening.of (Rule.textAll R) ≠ .semicolon := by
    have hopen : ∀ o, Part.opens Part.rules o = true → o ≠ .semicolon := by decide
    exact hopen _ (Part.opens_of_begins (P := fun _ => True) rfl ⟨_, _, hread, trivial⟩)
  rw [read_eq_ok_iff, Text.trimField_of_endsPlain (taken_textAll h).1]
  exact ⟨[], .call ((Part.derives_dropMargins_iff rfl hsemi).mpr hread), rfl⟩

end Field

end OpeningTimes
