import OpeningTimes.Proofs.Field.Opening

/-!
Terminals taken apart.

A terminal is a piece at the beginning of the text. What follows it matters in three ways only: a number
ends where no digit follows, a word ends where no letter follows, and a look ahead finds a word or not.

* `Terminal.word_eq_some_iff`, `Terminal.digits_eq_some_iff` and their companions: what is read as a word
  or as a number, and what follows it;
* `Terminal.forall_of_lexeme`: a terminal consists of digits, letters and its own marks;
* `Terminal.even_count_of_lexeme`: its quotes come in pairs;
* `LooksLike`, `Terminal.lexeme_of_looksLike`: a terminal is read as before in front of a text that looks
  the same to it.
-/

namespace OpeningTimes

open Text

namespace Terminal

variable {t : Terminal} {s w r m : Text}

/-! ### What is read -/

lemma eq_append_of_lexeme (h : t.lexeme s = some (w, r)) : s = w ++ r ∧ w ≠ [] := by
  have hs := splits_lexeme t s
  rwa [h] at hs

/-- A terminal leaves the end of the text. -/
lemma suffix_of_scan (h : t.scan s = some (w, r)) : r <:+ s := by
  obtain ⟨hsplit, -⟩ := eq_append_of_lexeme (t := t) h
  have hr : r <:+ skipBlanks s := hsplit ▸ List.suffix_append w r
  exact hr.trans (List.dropWhile_suffix _)

lemma literal_append (l m : Text) : literal l (l ++ m) = some (l, m) := by
  simp [literal]

/-- A word is all letters up to the first character that is none. -/
lemma word_eq_some_iff {words : List Text} :
    word words s = some (w, r) ↔
      s = w ++ r ∧ (∀ c ∈ w, isLetter c = true) ∧ (∀ c ∈ r.head?, isLetter c = false) ∧
        w.map fold ∈ words := by
  constructor
  · intro h
    unfold word startsWith at h
    split at h
    · next hs =>
      obtain ⟨rfl, rfl⟩ := Prod.mk.inj (Option.some.inj h)
      refine ⟨List.takeWhile_append_dropWhile.symm, fun c hc => List.mem_takeWhile_imp hc,
        fun c hc => ?_, List.contains_iff_mem.mp hs⟩
      have := List.head?_dropWhile_not isLetter s
      rwa [Option.mem_def.mp hc] at this
    · cases h
  · rintro ⟨rfl, hw, hr, hmem⟩
    obtain ⟨htake, hdrop⟩ := takeWhile_append_of_head hw hr
    rw [word, startsWith, htake, hdrop, if_pos (List.contains_iff_mem.mpr hmem)]

/-- A number is all digits up to the first character that is none. -/
lemma digits_eq_some_iff {few many : ℕ} :
    digits few many s = some (w, r) ↔
      s = w ++ r ∧ (∀ c ∈ w, isDigit c = true) ∧ (∀ c ∈ r.head?, isDigit c = false) ∧
        few ≤ w.length ∧ w.length ≤ many := by
  constructor
  · intro h
    unfold digits at h
    simp only at h
    split at h
    · next hs =>
      obtain ⟨rfl, rfl⟩ := Prod.mk.inj (Option.some.inj h)
      simp only [Bool.and_eq_true, decide_eq_true_eq] at hs
      refine ⟨List.takeWhile_append_dropWhile.symm, fun c hc => List.mem_takeWhile_imp hc,
        fun c hc => ?_, hs⟩
      have := List.head?_dropWhile_not isDigit s
      rwa [Option.mem_def.mp hc] at this
    · cases h
  · rintro ⟨rfl, hw, hr, hfew, hmany⟩
    obtain ⟨htake, hdrop⟩ := takeWhile_append_of_head hw hr
    simp only [digits, htake, hdrop, decide_eq_true hfew, decide_eq_true hmany, Bool.and_self, if_true]

/-- The number of an occurrence is a single digit from one to five. -/
lemma nthDigit_eq_some_iff :
    nthDigit s = some (w, r) ↔
      ∃ c, w = [c] ∧ s = c :: r ∧ ('1' ≤ c && c ≤ '5') = true ∧ ∀ d ∈ r.head?, isDigit d = false := by
  constructor
  · intro h
    unfold nthDigit at h
    split at h
    · cases h
    · next c u =>
      split at h
      · next hc =>
        obtain ⟨rfl, rfl⟩ := Prod.mk.inj (Option.some.inj h)
        rw [Bool.and_eq_true] at hc
        refine ⟨c, rfl, rfl, hc.1, fun d hd => ?_⟩
        simpa [Option.mem_def.mp hd] using hc.2
      · cases h
  · rintro ⟨c, rfl, rfl, hc, hr⟩
    rw [nthDigit, if_pos]
    rw [hc, Bool.true_and, Bool.not_eq_true', Option.any_eq_false]
    exact hr

/-- The word for weeks is four letters, whatever follows them. -/
lemma week_eq_some_iff :
    lexeme .weekWord s = some (w, r) ↔ s = w ++ r ∧ w.map fold = week := by
  rw [lexeme]
  constructor
  · intro h
    split at h
    · next hw =>
      obtain ⟨rfl, rfl⟩ := Prod.mk.inj (Option.some.inj h)
      exact ⟨(List.take_append_drop 4 s).symm, beq_iff_eq.mp hw⟩
    · cases h
  · rintro ⟨rfl, hw⟩
    have hlen : w.length = 4 := by simpa [week] using congrArg List.length hw
    rw [List.take_left' hlen, List.drop_left' hlen, if_pos (beq_iff_eq.mpr hw)]

/-- The marks that a terminal may consist of, digits included. -/
def marks : Terminal → Text
  | ruleSeparator => [';', '|']
  | comma => [',']
  | colon => [':']
  | dash => ['-']
  | slash => ['/']
  | plus | openEnd => ['+']
  | leftBracket => ['[']
  | rightBracket => [']']
  | leftParenthesis => ['(']
  | rightParenthesis => [')']
  | always => ['2', '4', '/', '7']
  | sign => ['+', '-']
  | _ => []

/-- A terminal other than a comment consists of digits, letters and its own marks. -/
lemma forall_of_lexeme {p : Char → Bool} (hdigit : ∀ c, isDigit c = true → p c = true)
    (hletter : ∀ c, isLetter c = true → p c = true) (hmark : ∀ c ∈ t.marks, p c = true)
    (ht : t ≠ comment) (h : t.lexeme s = some (w, r)) : ∀ c ∈ w, p c = true := by
  have hliteral : ∀ {l u : Text}, (∀ c ∈ l, c ∈ t.marks) → literal l u = some (w, r) →
      ∀ c ∈ w, p c = true := by
    intro l u hl h
    obtain ⟨-, rfl⟩ := eq_append_of_literal h
    exact fun c hc => hmark c (hl c hc)
  have hdigits : ∀ {few many : ℕ}, digits few many s = some (w, r) → ∀ c ∈ w, p c = true :=
    fun h c hc => hdigit c ((digits_eq_some_iff.mp h).2.1 c hc)
  cases t
  case comment => exact absurd rfl ht
  case comma | colon | dash | slash | plus | leftBracket | rightBracket | leftParenthesis
      | rightParenthesis | always =>
    exact hliteral (fun _ h => h) h
  case openEnd => exact hliteral (fun _ h => h) (Option.filter_eq_some_iff.mp h).1
  case ruleSeparator | sign =>
    rcases Option.or_eq_some_iff.mp h with h | ⟨-, h⟩
    · exact hliteral (by simp [marks]) h
    · exact hliteral (by simp [marks]) h
  case nth =>
    obtain ⟨c, rfl, -, hc, -⟩ := nthDigit_eq_some_iff.mp h
    exact List.forall_mem_singleton.mpr (hdigit c (isDigit_of_nthDigit hc))
  case weekWord =>
    intro c hc
    have hlower : ∀ c ∈ week, c.isLower = true := by decide
    exact hletter c (hlower _ ((week_eq_some_iff.mp h).2 ▸ List.mem_map_of_mem hc))
  case year | dayNumber | weekNumber | hours | minutes | number => exact hdigits h
  case loneYear => exact hdigits (Option.filter_eq_some_iff.mp h).1
  case month | easter | weekday | holiday | dayWord | event | openWord | closedWord
      | unknownWord =>
    exact fun c hc => hletter c ((word_eq_some_iff.mp h).2.1 c hc)

/-- A terminal has no quotes in it, unless it is a comment. -/
lemma quote_not_mem_of_lexeme (ht : t ≠ comment) (h : t.lexeme s = some (w, r)) : '"' ∉ w := by
  have hmarks : ∀ c ∈ t.marks, (c != '"') = true := by
    cases t <;> decide
  have hne : ∀ c ∈ w, (c != '"') = true := by
    refine forall_of_lexeme (p := (· != '"')) ?_ ?_ hmarks ht h
    all_goals
      rintro c hc
      rw [bne_iff_ne]
      rintro rfl
      exact absurd hc (by decide)
  exact not_mem_of_forall hne (by decide)

/-- The quotes of a terminal come in pairs. -/
lemma even_count_of_lexeme (h : t.lexeme s = some (w, r)) : Even (w.count '"') := by
  by_cases ht : t = comment
  · subst ht
    obtain ⟨c, hc, rfl, -⟩ := exists_of_quotation h
    have hcount : ('"' :: c ++ ['"']).count '"' = 2 := by
      simp [List.count_eq_zero.mpr hc]
    rw [hcount]
    exact even_two
  · rw [List.count_eq_zero.mpr (quote_not_mem_of_lexeme ht h)]
    exact Even.zero

end Terminal

/-! ### What follows -/

/-- A text that looks the same as another one to a terminal before it. -/
structure LooksLike (m r : Text) : Prop where
  digit : (∀ c ∈ r.head?, isDigit c = false) → ∀ c ∈ m.head?, isDigit c = false
  letter : (∀ c ∈ r.head?, isLetter c = false) → ∀ c ∈ m.head?, isLetter c = false
  ahead : ∀ words, Terminal.startsWith words (m.dropWhile isSpace) =
    Terminal.startsWith words (r.dropWhile isSpace)

namespace Terminal

variable {t : Terminal} {w r m : Text}

/-- A terminal is read as before in front of a text that looks the same to it. -/
theorem lexeme_of_looksLike (hm : LooksLike m r) (h : t.lexeme (w ++ r) = some (w, r)) :
    t.lexeme (w ++ m) = some (w, m) := by
  have hliteral : ∀ {l : Text}, literal l (w ++ r) = some (w, r) →
      literal l (w ++ m) = some (w, m) := by
    intro l h
    obtain ⟨-, rfl⟩ := eq_append_of_literal h
    exact literal_append w m
  have hdigits : ∀ {few many many' : ℕ}, w.length ≤ many' →
      digits few many (w ++ r) = some (w, r) → digits few many' (w ++ m) = some (w, m) := by
    intro few many many' hmany h
    obtain ⟨-, hw, hr, hfew, -⟩ := digits_eq_some_iff.mp h
    exact digits_eq_some_iff.mpr ⟨rfl, hw, hm.digit hr, hfew, hmany⟩
  -- what follows matters to numbers and words, and to the terminals that look ahead
  cases t
  case comma | colon | dash | slash | plus | leftBracket | rightBracket | leftParenthesis
      | rightParenthesis | always =>
    exact hliteral h
  case ruleSeparator | sign =>
    rcases Option.or_eq_some_iff.mp h with h | ⟨-, h⟩
    · exact Option.or_eq_some_iff.mpr (Or.inl (hliteral h))
    · refine Option.or_eq_some_iff.mpr (Or.inr ⟨?_, hliteral h⟩)
      obtain ⟨-, rfl⟩ := eq_append_of_literal h
      rfl
  case openEnd =>
    obtain ⟨h, hahead⟩ := Option.filter_eq_some_iff.mp h
    refine Option.filter_eq_some_iff.mpr ⟨hliteral h, ?_⟩
    simpa only [hm.ahead] using hahead
  case comment =>
    obtain ⟨c, hc, rfl, -⟩ := exists_of_quotation h
    rw [List.append_assoc, List.singleton_append]
    exact quotation_append hc
  case nth =>
    obtain ⟨c, rfl, -, hc, hr⟩ := nthDigit_eq_some_iff.mp h
    exact nthDigit_eq_some_iff.mpr ⟨c, rfl, rfl, hc, hm.digit hr⟩
  case weekWord => exact week_eq_some_iff.mpr ⟨rfl, (week_eq_some_iff.mp h).2⟩
  case number => exact hdigits (by simp) h
  case year | dayNumber | weekNumber | hours | minutes =>
    exact hdigits (digits_eq_some_iff.mp h).2.2.2.2 h
  case loneYear =>
    obtain ⟨h, hahead⟩ := Option.filter_eq_some_iff.mp h
    refine Option.filter_eq_some_iff.mpr ⟨hdigits (digits_eq_some_iff.mp h).2.2.2.2 h, ?_⟩
    simpa only [hm.ahead] using hahead
  case month | easter | weekday | holiday | dayWord | event | openWord | closedWord
      | unknownWord =>
    obtain ⟨-, hw, hr, hmem⟩ := word_eq_some_iff.mp h
    exact word_eq_some_iff.mpr ⟨rfl, hw, hm.letter hr, hmem⟩

end Terminal

end OpeningTimes
