import OpeningTimes.Proofs.Rules.Values

/-!
Where the dates of a field stand in it.

The rules of a field say what has been read, but not how it was written: a day that is zero is the same as
none. What is written is told by the place in the field where it stands, and every derivation goes on with
what is left of the text, so that every part of it is read from the end of the field on.

* `Grammar.Derives.suffix`: a derivation leaves the end of the text;
* `Part.ReadsToDay`: a range of dates whose last date is written as a day alone;
* `Part.readsToDay_iff`: such a range, where that day is more than nothing or there is a period;
* `Field.exists_of_read_dates`: every range of dates of a field is read from a piece of it.
-/

namespace OpeningTimes

open Grammar Text

variable {s r : Text}

/-! ### The end of the text -/

/-- A derivation leaves the end of the text. -/
lemma Grammar.Derives.suffix {α : Type} {g : Part α} {v : Except BuildError α}
    (h : fieldGrammar.Derives g s v r) : r <:+ s :=
  h.kept (T := (· <:+ s)) (fun _ _ _ _ hs hscan => (Terminal.suffix_of_scan hscan).trans hs)
    List.suffix_rfl

/-! ### Ranges that end on a day -/

/-- A date that is read is more than a day. -/
lemma Date.Regular.ne_day {d : Date} {n : ℤ} (hd : d.Regular) : d ≠ { day := n } := by
  cases hd <;> simp

namespace Part

/-- A text is read as a range of dates, and what is written as the last date is the day `n` alone. -/
def ReadsToDay (s : Text) (x : DateRange) (n : ℤ) (r : Text) : Prop :=
  ∃ d o q w p u, fieldGrammar.Derives date s (.ok d) q ∧ Terminal.dash.scan q = some (w, p) ∧
    fieldGrammar.Derives (number .dayNumber) p (.ok n) u ∧
    fieldGrammar.Derives (.opt step) u (.ok o) r ∧
    x = { start := d, stop := { day := n }, period := stepOf o }

/-- The last date of a range is a day alone if it is written so. Nothing has to be written for a day that is
zero, unless there is a period. -/
lemma readsToDay_iff {x : DateRange} {n : ℤ} (h : fieldGrammar.Derives dateRange s (.ok x) r)
    (hn : n ≠ 0 ∨ x.period ≠ 0) : ReadsToDay s x n r ↔ x.stop = { day := n } := by
  constructor
  · rintro ⟨d, o, q, w, p, u, -, -, -, -, rfl⟩
    rfl
  · intro hstop
    rcases derives_dateRange_ok.mp h with ⟨d, e, o, _, _, _, _, -, -, he, -, rfl⟩ |
      ⟨d, k, o, q, w, p, u, hd, hw, hk, ho, rfl⟩ | ⟨d, _, _, -, -, rfl⟩ | ⟨d, -, rfl⟩
    · exact absurd hstop (regular_of_derives_date he).ne_day
    · obtain rfl : k = n := by simpa using hstop
      exact ⟨d, o, q, w, p, u, hd, hw, hk, ho, rfl⟩
    all_goals
      obtain rfl : 0 = n := by simpa using hstop
      simp at hn

/-! ### The places of the dates -/

variable {x : Rule} {R : List Rule}

/-- Every item of a list is read from the end of the text on. -/
lemma exists_of_derives_listed {α : Type} {g : Part α} {xs : List α}
    (h : fieldGrammar.Derives (listed g) s (.ok xs) r) :
    ∀ x ∈ xs, ∃ p q, p <:+ s ∧ fieldGrammar.Derives g p (.ok x) q := by
  have hmany : ∀ {s : Text} {xs : List α}, fieldGrammar.Derives (.many .comma g) s (.ok xs) r →
      ∀ x ∈ xs, ∃ p q, p <:+ s ∧ fieldGrammar.Derives g p (.ok x) q := by
    intro s xs
    induction xs generalizing s with
    | nil => simp
    | cons x xs ih =>
      intro h
      obtain ⟨w, p, q, hw, hx, hxs⟩ := derives_many_cons.mp h
      have hp : p <:+ s := Terminal.suffix_of_scan (t := .comma) hw
      refine List.forall_mem_cons.mpr ⟨⟨p, q, hp, hx⟩, fun y hy => ?_⟩
      obtain ⟨p', q', hp', hy'⟩ := ih hxs y hy
      exact ⟨p', q', hp'.trans (hx.suffix.trans hp), hy'⟩
  obtain ⟨⟨x, xs⟩, hseq, rfl⟩ := derives_map_ok.mp h
  obtain ⟨q, hx, hxs⟩ := derives_seq_ok.mp hseq
  refine List.forall_mem_cons.mpr ⟨⟨s, q, List.suffix_rfl, hx⟩, fun y hy => ?_⟩
  obtain ⟨p', q', hp', hy'⟩ := hmany hxs y hy
  exact ⟨p', q', hp'.trans hx.suffix, hy'⟩

/-- The dates of a rule stand between its years and its weeks. -/
lemma exists_of_readsRule_dates (h : ReadsRule s (.ok x) r) :
    ∀ d ∈ x.dates, ∃ p q, p <:+ s ∧ fieldGrammar.Derives dateRange p (.ok d) q := by
  obtain ⟨f, ts, y, p, e, hmakes, hf, -⟩ := exists_of_readsRule h
  cases hmakes with
  | always | comment => simp [withModifier?_eq]
  | selectors ys ds ws c days ts y =>
    rw [withModifier?_eq rfl rfl]
    obtain ⟨p₁, p₂, -, -, -, hys, hds, -⟩ := derives_looseSelectors_ok.mp (looseSelectors_of_front hf)
    intro d hd
    cases ds with
    | none => cases hd
    | some ds =>
      obtain ⟨p', q', hp', hd'⟩ := exists_of_derives_listed (derives_opt_some.mp hds) d hd
      exact ⟨p', q', hp'.trans hys.suffix, hd'⟩

lemma suffix_of_readsRule {v : Except BuildError Rule} (h : ReadsRule s v r) : r <:+ s := by
  rcases h with ⟨h, -⟩ | ⟨h, -⟩ | ⟨h, -⟩ <;> exact h.suffix

/-- The dates of rules that are read stand one after the other. -/
lemma exists_of_derives_rules_dates (h : fieldGrammar.Derives rules s (.ok R) r) (hr : AfterOpen r) :
    ∀ x ∈ R, ∀ d ∈ x.dates, ∃ p q, p <:+ s ∧ fieldGrammar.Derives dateRange p (.ok d) q := by
  induction R generalizing s with
  | nil => simp
  | cons x R ih =>
    obtain ⟨x', q, -, hread, hR⟩ := exists_of_rules_ok h hr
    have hx' := exists_of_readsRule_dates hread
    rcases hR with ⟨hR, rfl⟩ | ⟨t, w, p, S, -, -, hw, hS, hR⟩
    · obtain ⟨rfl, rfl⟩ := List.cons.inj hR
      exact List.forall_mem_singleton.mpr hx'
    · obtain ⟨rfl, rfl⟩ := List.cons.inj hR
      refine List.forall_mem_cons.mpr ⟨hx', fun y hy d hd => ?_⟩
      have hp : p <:+ s := (Terminal.suffix_of_scan hw).trans (suffix_of_readsRule hread)
      obtain ⟨p', q', hp', hd'⟩ := ih hS y hy d hd
      exact ⟨p', q', hp'.trans hp, hd'⟩

end Part

/-- Every range of dates of a field is read from a piece of it. -/
lemma Field.exists_of_read_dates {field : Text} {R : List Rule} (h : read field = .ok R) :
    ∀ x ∈ R, ∀ d ∈ x.dates,
      ∃ s q, s <:+: field ∧ fieldGrammar.Derives Part.dateRange s (.ok d) q := by
  obtain ⟨r, hd, hr⟩ := read_eq_ok_iff.mp h
  have hopen : Part.AfterOpen r := by
    rw [Part.AfterOpen, Part.opening_of_all_isBlank hr]
    decide
  obtain ⟨a, b, hsplit, -⟩ := exists_margins field
  have htrim : trimField field <:+: field := ⟨a, b, hsplit.symm⟩
  intro x hx d hd'
  obtain ⟨s, q, hs, hsq⟩ := Part.exists_of_derives_rules_dates (derives_call.mp hd) hopen x hx d hd'
  exact ⟨s, q, hs.isInfix.trans htrim, hsq⟩

end OpeningTimes
