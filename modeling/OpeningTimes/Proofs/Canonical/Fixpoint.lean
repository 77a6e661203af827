import OpeningTimes.Proofs.Canonical.Field
import OpeningTimes.Proofs.Canonical.Only

/-!
Texts that are canonical already.

* `Part.canonicalAll_of_derives`: only rules that a field can hold are read from their own text;
* `Field.read_textAll_iff`: these rules, and no others, are read from their own text.
-/

namespace OpeningTimes

open Grammar Text

namespace Part

variable {s m p q r : Text} {x y : Rule} {R : List Rule}

/-! ### Lists of rules that are read from their own text -/

/-- A rule that is read has the default separator. -/
lemma separator_of_readsRule (h : ReadsRule s (.ok x) q) : x.separator = semicolon := by
  obtain ⟨f, ts, y, p, e, hmakes, -⟩ := exists_of_readsRule h
  cases hmakes <;> cases y <;> rfl

/-- Rules that are read are one rule, or one rule with its separator and rules. -/
lemma exists_of_rules_ok (h : fieldGrammar.Derives rules s (.ok R) r) (hr : AfterOpen r) :
    ∃ x q, opens rule (Opening.of s) = true ∧ ReadsRule s (.ok x) q ∧
      ((R = [x] ∧ q = r) ∨
        ∃ t w p S, t ∈ [Terminal.ruleSeparator, .comma] ∧ w ∈ Rule.separators ∧
          t.scan q = some (w, p) ∧ fieldGrammar.Derives rules p (.ok S) r ∧
          R = { x with separator := w } :: S) := by
  obtain ⟨a, q, ho, ha, ⟨hv, rfl⟩ | ⟨t, w, p, vs, ht, hw, hS, hv⟩⟩ := exists_of_rules h hr
  · rcases a with e | x
    · cases hv
    · obtain rfl := Except.ok.inj hv
      exact ⟨x, q, ho, ha, Or.inl ⟨rfl, rfl⟩⟩
  · rcases a with e | x
    · cases hv
    rcases vs with e | S
    · cases hv
    obtain ⟨hsep, hR⟩ := joined_eq_ok_iff.mp hv.symm
    exact ⟨x, q, ho, ha, Or.inr ⟨t, w, p, S, ht, hsep, hw, derives_call.mp hS, hR⟩⟩

/-- Before a comma there is a rule that could not go on. -/
lemma isClosed_of_readsRule (h : ReadsRule s (.ok x) q) (hq : Opening.of q = .comma) :
    x.isClosed = true := by
  rcases h with ⟨h, -⟩ | ⟨-, hq'⟩ | ⟨h, -⟩
  · obtain ⟨⟨f, t⟩, h, hx⟩ := derives_build_ok.mp h
    obtain ⟨p, -, ht⟩ := derives_seq_ok.mp h
    have hmakes := makes_of_assembled hx
    rcases derives_alt.mp ht with ht | ht
    · obtain ⟨⟨ts, y⟩, hts, rfl⟩ := derives_map_ok.mp ht
      obtain ⟨e, hts, -⟩ := derives_seq_ok.mp hts
      have hne : ts ≠ [] :=
        ne_nil_of_derives_listed hts
      cases hmakes with
      | always => cases y <;> rfl
      | selectors => cases y <;> simp [Rule.isClosed, withModifier?, withModifier, Rule.hasTimes, hne]
    · obtain ⟨y, hy, rfl⟩ := derives_map_ok.mp ht
      have hstate := modifier_of_makes hmakes
      have hmod : x.modifier ≠ .defaultOpen := by
        rw [← (Prod.mk.inj hstate).1]
        exact ne_defaultOpen_of_derives_modifier hy
      simp [Rule.isClosed, hmod]
  · rw [AfterOpen, hq] at hq'
    exact absurd hq' (by decide)
  · obtain ⟨w, -, rfl⟩ := derives_map_ok.mp h
    rfl

lemma text_withSeparator {w : Text} : ({ x with separator := w } : Rule).text = x.text :=
  rfl

/-- What a field can hold does not depend on what separates a rule from the next one. -/
lemma canonical_withSeparator {w : Text} (h : x.Canonical) :
    Rule.Canonical { x with separator := w } := by
  cases h with
  | always hs sep => exact .always hs w
  | comment hc hs sep => exact .comment hc hs w
  | selectors ha hc hx hs hcolon hne =>
    exact .selectors ha hc ⟨hx.years, hx.dates, hx.weeks, hx.days, hx.times, hx.lone, hx.plus⟩ hs
      hcolon hne

/-- The text of rules begins with the first one of them. -/
lemma exists_text_of_canonicalAll (h : Rule.CanonicalAll (y :: R)) :
    ∃ m, Rule.textAll (y :: R) = y.text ++ m ∧ EndsRule m ∧ y.Canonical := by
  cases h with
  | single hx hs => exact ⟨[], by simp [Rule.textAll, Text.joinBy], .nil, hx⟩
  | cons hx hs hR =>
    have : ∀ w ∈ [semicolon, ['|', '|']], w ∈ Rule.separators := by decide
    exact ⟨_, Rule.textAll_cons_cons _ _ _, endsRule_separatorText (this _ hs), hx⟩
  | comma hx hs hclosed hy hR =>
    exact ⟨_, Rule.textAll_cons_cons _ _ _, endsRule_separatorText (by rw [hs]; decide), hx⟩

/-- Times begin with a time. -/
lemma begins_time_of_times {P : Text → Prop} (h : fieldGrammar.Begins times P s) :
    fieldGrammar.Begins time (fun _ => True) s := by
  simp only [times, timespan, begins_build, begins_seq, begins_alt] at h
  rcases h with h | h | h | h | h
  all_goals exact h.mono fun _ _ => trivial

/-- A rule that begins with its times begins with a time. -/
lemma begins_time_of_timesFirst {P : Text → Prop} (h : fieldGrammar.Begins timesFirstRule P s) :
    fieldGrammar.Begins time (fun _ => True) s := by
  simp only [timesFirstRule, timesOnly, begins_build, begins_seq] at h
  exact begins_time_of_times h

/-- After a rule and a comma there is no time. -/
lemma not_begins_time_of_comma {w : Text} (h : ReadsRule s (.ok x) q) (hq : Opening.of q = .comma)
    (hw : Terminal.comma.scan q = some (w, ' ' :: p)) :
    ¬ fieldGrammar.Begins time (fun _ => True) p := by
  have hclosed : AfterClosed q := by
    rcases h with ⟨-, h⟩ | ⟨-, h⟩ | ⟨-, h⟩
    · exact h
    · exact Or.inl h
    · exact h
  rcases hclosed with h | ⟨w', r, hr, hn⟩
  · rw [AfterOpen, hq] at h
    exact absurd h (by decide)
  · obtain ⟨-, rfl⟩ := Prod.mk.inj (Option.some.inj (hw.symm.trans hr))
    rintro ⟨v, r, hd, hP⟩
    exact hn ⟨v, r, (derives_space_iff rfl).mpr hd, hP⟩

/-- Only rules that a field can hold are read from their own text, and nothing is left of it. -/
theorem canonicalAll_of_derives (h : fieldGrammar.Derives rules (Rule.textAll R) (.ok R) r)
    (hr : AfterOpen r) : Rule.CanonicalAll R ∧ r = [] := by
  induction R generalizing r with
  | nil => exact absurd (h.length_lt rfl) (by simp [Rule.textAll, Text.joinBy])
  | cons x R ih =>
    obtain ⟨x', q, ho, hread, ⟨hR, rfl⟩ | ⟨t, w, p, S, ht, hsep, hw, hS, hR⟩⟩ :=
      exists_of_rules_ok h hr
    · obtain ⟨rfl, rfl⟩ := List.cons.inj hR
      have htext : Rule.textAll [x] = x.text ++ [] := by simp [Rule.textAll, Text.joinBy]
      rw [htext] at hread ho
      obtain ⟨hx, rfl⟩ := canonical_of_readsRule hread ho .nil
      exact ⟨.single hx (separator_of_readsRule hread), rfl⟩
    · obtain ⟨rfl, rfl⟩ := List.cons.inj hR
      have hne : R ≠ [] := by
        obtain ⟨-, -, -, -, ⟨rfl, -⟩ | ⟨-, -, -, -, -, -, -, -, rfl⟩⟩ := exists_of_rules_ok hS hr
        all_goals exact List.cons_ne_nil _ _
      obtain ⟨y, R, rfl⟩ := List.exists_cons_of_ne_nil hne
      -- the first rule is read from its own text, and so is what separates it from the next one
      rw [Rule.textAll_cons_cons, text_withSeparator] at hread ho
      have hends := endsRule_separatorText (x := { x' with separator := w })
        (s := Rule.textAll (y :: R)) hsep
      obtain ⟨hx, rfl⟩ := canonical_of_readsRule hread ho hends
      obtain ⟨hcomma, -, rfl⟩ := (scan_separatorText_iff hsep ht).mp hw
      obtain ⟨hcanonical, rfl⟩ := ih ((derives_space_iff rfl).mp hS) hr
      refine ⟨?_, rfl⟩
      have hx' := canonical_withSeparator (w := w) hx
      simp only [List.mem_cons, List.not_mem_nil, or_false] at ht
      rcases ht with rfl | rfl
      · refine .cons hx' ?_ hcanonical
        have : ∀ w ∈ Rule.separators, ¬ (Terminal.ruleSeparator = .comma ↔ w = [',']) ∨
            w ∈ [semicolon, ['|', '|']] := by decide
        exact (this w hsep).resolve_left fun h => h hcomma
      · have hs : w = [','] := hcomma.mp rfl
        have hopening : Opening.of (({ x' with separator := w } : Rule).separatorText ++
            Rule.textAll (y :: R)) = .comma := by
          rw [Rule.separatorText, hs]
          exact Opening.of_cons rfl rfl rfl
        refine .comma hx' hs (isClosed_of_readsRule (x := x') hread hopening) ?_ hcanonical
        -- times after the comma would belong to the first rule
        obtain ⟨m, htext, hm, hy⟩ := exists_text_of_canonicalAll hcanonical
        rw [Bool.eq_false_iff]
        intro hb
        have htime := begins_time_of_timesFirst (P := fun _ => True)
          ⟨_, m, (readAs_of_canonical hy hm).timesFirst hb, trivial⟩
        rw [← htext] at htime
        exact not_begins_time_of_comma hread hopening hw htime

end Part

namespace Field

/-- The rules that a field can hold are exactly those that are read from their own text. It makes no
difference to them whether the margins of the text are dropped first. -/
theorem read_textAll_iff (R : List Rule) :
    Rule.CanonicalAll R ↔
      readTrimmed (Rule.textAll R) = .ok R ∧ read (Rule.textAll R) = .ok R := by
  constructor
  · intro h
    have hread := (Part.readAll_of_canonicalAll h).rules
    exact ⟨readTrimmed_eq_ok_iff.mpr ⟨[], .call hread, rfl⟩, read_textAll h⟩
  · rintro ⟨h, -⟩
    obtain ⟨r, hd, hr⟩ := readTrimmed_eq_ok_iff.mp h
    have hopen : Part.AfterOpen r := by
      rw [Part.AfterOpen, Part.opening_of_all_isBlank hr]
      decide
    exact (Part.canonicalAll_of_derives (derives_call.mp hd) hopen).1

end Field

end OpeningTimes
