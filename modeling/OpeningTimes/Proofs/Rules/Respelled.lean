import OpeningTimes.Proofs.Rules.Numbers
import OpeningTimes.Proofs.Rules.Steady
import OpeningTimes.Proofs.Text.Spelling

/-!
Fields in another spelling.

Case does not matter outside of comments, and neither does the script of a digit. Two terminals ask for
digits of the first script, and these stand for themselves.

* `Terminal.exists_lexeme_of_respelled`: a terminal is read from a text in any spelling;
* `Field.read_respelled`: fields in different spellings have the same rules and the same canonical text.
-/

namespace OpeningTimes

open Grammar Text

namespace Terminal

variable {t : Terminal} {s u w r l : Text} {words : List Text} {few many : ℕ}

/-- Marks and digits of the first script are read as they are. -/
lemma exists_literal_of_respelled (h : Respelled s u) (hs : literal l s = some (w, r))
    (hl : ∀ c ∈ l, c.isDigit = true ∨ isLetter c = false ∧ isDigit c = false) (hq : '"' ∉ l) :
    ∃ q, literal l u = some (w, q) ∧ Respelled r q := by
  obtain ⟨rfl, rfl⟩ := eq_append_of_literal hs
  obtain ⟨v, q, rfl, hv, hrest⟩ := h.exists_of_append hq
  obtain rfl := eq_of_forall_spells hv hl
  exact ⟨q, by simp [literal], hrest⟩

/-- A look ahead finds the same words. -/
lemma startsWith_of_respelled (h : Respelled s u) :
    startsWith words (u.dropWhile isSpace) = startsWith words (s.dropWhile isSpace) := by
  obtain ⟨-, h⟩ := h.span isSpace_of_spells rfl
  obtain ⟨h, -⟩ := h.span isLetter_of_spells (by decide)
  rw [startsWith, startsWith,
    map_eq_of_spells (fun h hc => (fold_of_spells h hc).1) h fun c hc => List.mem_takeWhile_imp hc]

lemma exists_word_of_respelled (h : Respelled s u) (hs : word words s = some (w, r)) :
    ∃ v q, word words u = some (v, q) ∧ List.Forall₂ Spells w v ∧ (∀ c ∈ w, isLetter c = true) ∧
      Respelled r q := by
  obtain ⟨hw, hr⟩ := h.span isLetter_of_spells (by decide)
  have hall : ∀ c ∈ s.takeWhile isLetter, isLetter c = true := fun c hc => List.mem_takeWhile_imp hc
  have hfold := map_eq_of_spells (fun h hc => (fold_of_spells h hc).1) hw hall
  unfold word startsWith at hs ⊢
  rw [hfold]
  split at hs
  · next hword =>
    obtain ⟨rfl, rfl⟩ := Prod.mk.inj (Option.some.inj hs)
    exact ⟨_, _, if_pos hword, hw, hall, hr⟩
  · cases hs

lemma exists_digits_of_respelled (h : Respelled s u) (hs : digits few many s = some (w, r)) :
    ∃ v q, digits few many u = some (v, q) ∧ number? v = number? w ∧ Respelled r q := by
  obtain ⟨hw, hr⟩ := h.span isDigit_of_spells (by decide)
  have hall : ∀ c ∈ s.takeWhile isDigit, isDigit c = true := fun c hc => List.mem_takeWhile_imp hc
  unfold digits at hs ⊢
  simp only [← hw.length_eq]
  simp only at hs
  split at hs
  · next hlen =>
    obtain ⟨rfl, rfl⟩ := Prod.mk.inj (Option.some.inj hs)
    exact ⟨_, _, if_pos hlen, number?_of_spells hw hall, hr⟩
  · cases hs

lemma exists_nthDigit_of_respelled (h : Respelled s u) (hs : nthDigit s = some (w, r)) :
    ∃ q, nthDigit u = some (w, q) ∧ Respelled r q := by
  unfold nthDigit at hs
  split at hs
  · cases hs
  · next c s =>
    split at hs
    · next hc =>
      obtain ⟨rfl, rfl⟩ := Prod.mk.inj (Option.some.inj hs)
      rw [Bool.and_eq_true] at hc
      have hdigit : c.isDigit = true := by
        have hc := hc.1
        simp only [Bool.and_eq_true, decide_eq_true_eq] at hc
        exact Char.isDigit_iff_toNat.mpr ⟨le_trans (by decide) hc.1, le_trans hc.2 (by decide)⟩
      have hquote : '"' ∉ [c] := by
        rw [List.mem_singleton]
        rintro rfl
        exact absurd hdigit (by decide)
      obtain ⟨v, q, rfl, hv, hrest⟩ := h.exists_of_append hquote
      obtain rfl := eq_of_forall_spells hv (by simp [hdigit])
      refine ⟨q, ?_, hrest⟩
      rw [List.singleton_append, nthDigit, if_pos]
      rw [hrest.head isDigit_of_spells, Bool.and_eq_true]
      exact hc
    · cases hs

lemma exists_week_of_respelled (h : Respelled s u) (hs : lexeme .weekWord s = some (w, r)) :
    ∃ v q, lexeme .weekWord u = some (v, q) ∧ Respelled r q := by
  simp only [lexeme] at hs ⊢
  split at hs
  · next hw =>
    obtain ⟨rfl, rfl⟩ := Prod.mk.inj (Option.some.inj hs)
    rw [beq_iff_eq] at hw
    have hall : ∀ c ∈ s.take 4, isLetter c = true := by
      intro c hc
      have hmem : fold c ∈ week := hw ▸ List.mem_map_of_mem hc
      have hlower : ∀ c ∈ week, c.isLower = true := by decide
      exact hlower _ hmem
    have hquote : '"' ∉ s.take 4 := fun hmem => absurd (hall _ hmem) (by decide)
    rw [← List.take_append_drop 4 s] at h
    obtain ⟨v, q, rfl, hv, hrest⟩ := h.exists_of_append hquote
    have hfold := map_eq_of_spells (fun h hc => (fold_of_spells h hc).1) hv hall
    have hlen : v.length = 4 := by
      have := congrArg List.length (hfold.trans hw)
      simpa [week] using this
    refine ⟨v, q, ?_, hrest⟩
    rw [List.take_left' hlen, List.drop_left' hlen, if_pos (by rw [hfold, hw]; rfl)]
  · cases hs

/-- A terminal is read from a text in any spelling, and says the same. -/
theorem exists_lexeme_of_respelled (h : Respelled s u) (hs : t.lexeme s = some (w, r)) :
    ∃ v q, t.lexeme u = some (v, q) ∧ t.Agree w v ∧ Respelled r q := by
  cases t
  -- marks are spelled in one way only
  case comma =>
    obtain ⟨q, hu, hr⟩ := exists_literal_of_respelled h hs (by decide) (by decide)
    exact ⟨w, q, hu, rfl, hr⟩
  case colon | dash | slash | plus | leftBracket | rightBracket | leftParenthesis
      | rightParenthesis | always =>
    obtain ⟨q, hu, hr⟩ := exists_literal_of_respelled h hs (by decide) (by decide)
    exact ⟨w, q, hu, trivial, hr⟩
  case ruleSeparator | sign =>
    rcases Option.or_eq_some_iff.mp hs with hs | ⟨-, hs⟩
    · obtain ⟨q, hu, hr⟩ := exists_literal_of_respelled h hs (by decide) (by decide)
      exact ⟨w, q, Option.or_eq_some_iff.mpr (Or.inl hu), rfl, hr⟩
    · obtain ⟨q, hu, hr⟩ := exists_literal_of_respelled h hs (by decide) (by decide)
      refine ⟨w, q, Option.or_eq_some_iff.mpr (Or.inr ⟨?_, hu⟩), rfl, hr⟩
      obtain ⟨rfl, -⟩ := eq_append_of_literal hu
      rfl
  -- the look ahead finds the same words in the rest, which is respelled
  case openEnd =>
    obtain ⟨hs, hahead⟩ := Option.filter_eq_some_iff.mp hs
    obtain ⟨q, hu, hr⟩ := exists_literal_of_respelled h hs (by decide) (by decide)
    refine ⟨w, q, Option.filter_eq_some_iff.mpr ⟨hu, ?_⟩, trivial, hr⟩
    simpa only [startsWith_of_respelled hr] using hahead
  -- a comment is kept as it is
  case comment =>
    obtain ⟨c, hc, rfl, rfl⟩ := exists_of_quotation hs
    obtain ⟨q, rfl, hr⟩ := h.exists_of_comment hc
    exact ⟨_, q, quotation_append hc, rfl, hr⟩
  case nth =>
    obtain ⟨q, hu, hr⟩ := exists_nthDigit_of_respelled h hs
    exact ⟨w, q, hu, rfl, hr⟩
  case weekWord =>
    obtain ⟨v, q, hu, hr⟩ := exists_week_of_respelled h hs
    exact ⟨v, q, hu, trivial, hr⟩
  -- digits keep their number, and as many of them are there
  case year | dayNumber | weekNumber | hours | minutes =>
    exact exists_digits_of_respelled h hs
  case number =>
    rw [lexeme, h.length_eq]
    exact exists_digits_of_respelled h hs
  case loneYear =>
    obtain ⟨hs, hahead⟩ := Option.filter_eq_some_iff.mp hs
    obtain ⟨v, q, hu, hv, hr⟩ := exists_digits_of_respelled h hs
    refine ⟨v, q, Option.filter_eq_some_iff.mpr ⟨hu, ?_⟩, hv, hr⟩
    simpa only [startsWith_of_respelled hr] using hahead
  -- a name is looked up regardless of case, each kind in its own way
  case month | weekday =>
    obtain ⟨v, q, hu, hv, hw, hr⟩ := exists_word_of_respelled h hs
    exact ⟨v, q, hu, capitalized_of_spells hv hw, hr⟩
  case holiday =>
    obtain ⟨v, q, hu, hv, hw, hr⟩ := exists_word_of_respelled h hs
    exact ⟨v, q, hu, map_eq_of_spells (fun h hc => (fold_of_spells h hc).1) hv hw, hr⟩
  case event =>
    obtain ⟨v, q, hu, hv, hw, hr⟩ := exists_word_of_respelled h hs
    exact ⟨v, q, hu, map_eq_of_spells (fun h hc => (fold_of_spells h hc).2.1) hv hw, hr⟩
  case easter | dayWord | openWord | closedWord | unknownWord =>
    obtain ⟨v, q, hu, -, -, hr⟩ := exists_word_of_respelled h hs
    exact ⟨v, q, hu, trivial, hr⟩

lemma carries_respelled (t : Terminal) :
    fieldGrammar.Carries Respelled t.Agree (.terminal t) := by
  intro s u r w h hd
  obtain ⟨-, hblank⟩ := h.span isBlank_of_spells rfl
  obtain ⟨v, q, hu, hagree, hr⟩ :=
    exists_lexeme_of_respelled hblank (Part.derives_scan_iff.mp hd)
  exact ⟨v, q, Part.derives_scan_iff.mpr hu, hagree, hr⟩

end Terminal

namespace Field

variable {f g : Text} {R : List Rule}

/-- Nothing but a quote that is left over keeps a field with rules from having a canonical text. -/
lemma canonical_of_read (hR : read f = .ok R) :
    canonical f = if f.count '"' % 2 == 0 then .ok (Rule.textAll R) else .error .oddQuotes := by
  by_cases hq : (f.count '"' % 2 == 0) = true
  · simp only [canonical, check, if_pos hq, hR, bind, Except.bind, write_of_read hR]
  · simp only [canonical, check, if_neg hq, bind, Except.bind]

/-- Fields in different spellings have the same rules, and therefore the same canonical text. -/
theorem read_respelled (h : Respelled f g) (hR : read f = .ok R) :
    read g = .ok R ∧ canonical g = canonical f := by
  have hblank : ∀ r r', Respelled r r' → r.all isBlank = true → r'.all isBlank = true := by
    intro r r' h hr
    have hdrop := (h.span isBlank_of_spells rfl).2
    rw [List.dropWhile_eq_nil_iff.mpr (List.all_eq_true.mp hr)] at hdrop
    rw [List.all_eq_true, ← List.dropWhile_eq_nil_iff]
    exact List.length_eq_zero_iff.mp hdrop.length_eq
  have hread := read_of_related Terminal.carries_respelled hblank h.trimField hR
  exact ⟨hread, by rw [canonical_of_read hread, canonical_of_read hR, h.count_eq]⟩

/-- A small letter and a digit of the first script stand for the same as others do. -/
theorem read_respelled_week :
    let x : Rule := { weeks := [{ start := 1 }], modifier := .comment, modifierComment := ['M', 'o'] }
    read "Week １ \"Mo\"".toList = .ok [x] ∧ read "week 1 \"Mo\"".toList = .ok [x] := by
  intro x
  have hR : read "Week １ \"Mo\"".toList = .ok [x] := by decide +kernel
  have h : Respelled "Week １ \"Mo\"".toList "week 1 \"Mo\"".toList :=
    .outside (by decide) (.small (by decide)) (.outside (by decide) .same (.outside (by decide) .same
      (.outside (by decide) .same (.outside (by decide) .same
        (.outside (by decide) (.digit (by decide) (by decide) (by decide)) (.refl _ _))))))
  exact ⟨hR, (read_respelled h hR).1⟩

end Field

end OpeningTimes
