import OpeningTimes.Proofs.Field.Lexeme

/-!
Texts in front of other texts.

What is read from a text depends on what follows only where a word or a number could be longer, or where
a look ahead finds a word. So a text is read as before in front of any text that begins with neither.

* `StandsApart`: the texts that begin with neither a word nor a number;
* `StandsApart.looksLike`: in front of such a text any text looks as before;
* `Terminal.scan_append`, `Part.derives_append`: terminals and phrases are read as before in front of
  such a text.
-/

namespace OpeningTimes

open Grammar Text

/-! ### Texts that stand apart -/

/-- A text that begins with neither a word nor a number, whatever white space is before it. -/
def StandsApart (m : Text) : Prop :=
  Breaks (m.dropWhile isSpace)

namespace StandsApart

variable {m u : Text}

lemma breaks (hm : StandsApart m) : Breaks m := by
  cases m with
  | nil => exact breaks_nil
  | cons c m =>
    by_cases hc : isSpace c = true
    · refine breaks_cons (Bool.eq_false_iff.mpr fun hd => ?_) (Bool.eq_false_iff.mpr fun hl => ?_)
      · rw [isSpace_eq_false_of_isDigit hd] at hc
        cases hc
      · rw [isSpace_eq_false_of_isLetter hl] at hc
        cases hc
    · rwa [StandsApart, List.dropWhile_cons_of_neg hc] at hm

/-- What is taken from the beginning of a text does not reach beyond its end. -/
lemma takeWhile_append {p : Char → Bool} (hm : ∀ c ∈ m.head?, p c = false) :
    (u ++ m).takeWhile p = u.takeWhile p ∧ (u ++ m).dropWhile p = u.dropWhile p ++ m := by
  induction u with
  | nil => exact takeWhile_append_of_head (w := []) (by simp) hm
  | cons c u ih =>
    by_cases hc : p c = true
    · rw [List.cons_append, List.takeWhile_cons_of_pos hc, List.takeWhile_cons_of_pos hc, ih.1,
        List.dropWhile_cons_of_pos hc, List.dropWhile_cons_of_pos hc, ih.2]
      exact ⟨rfl, rfl⟩
    · rw [List.cons_append, List.takeWhile_cons_of_neg hc, List.takeWhile_cons_of_neg hc,
        List.dropWhile_cons_of_neg hc, List.dropWhile_cons_of_neg hc]
      exact ⟨rfl, rfl⟩

lemma letters_append (hm : StandsApart m) :
    (u ++ m).takeWhile isLetter = u.takeWhile isLetter ∧
      (u ++ m).dropWhile isLetter = u.dropWhile isLetter ++ m :=
  takeWhile_append fun c hc => (hm.breaks c hc).2

/-- A look ahead finds the same words. -/
lemma startsWith_append (hm : StandsApart m) {words : List Text} :
    Terminal.startsWith words ((u ++ m).dropWhile isSpace) =
      Terminal.startsWith words (u.dropWhile isSpace) := by
  induction u with
  | nil =>
    have hletters := (takeWhile_append (u := []) (p := isLetter) fun c hc => (hm c hc).2).1
    rw [List.nil_append, List.dropWhile_nil, Terminal.startsWith, Terminal.startsWith]
    rw [List.nil_append] at hletters
    rw [hletters]
  | cons c u ih =>
    by_cases hc : isSpace c = true
    · rw [List.cons_append, List.dropWhile_cons_of_pos hc, List.dropWhile_cons_of_pos hc]
      exact ih
    · rw [List.cons_append, List.dropWhile_cons_of_neg hc, List.dropWhile_cons_of_neg hc,
        Terminal.startsWith, Terminal.startsWith, ← List.cons_append, hm.letters_append.1]

/-- In front of a text that stands apart a text looks as before. -/
lemma looksLike (hm : StandsApart m) (r : Text) : LooksLike (r ++ m) r := by
  cases r with
  | nil =>
    exact ⟨fun _ c hc => (hm.breaks c hc).1, fun _ c hc => (hm.breaks c hc).2,
      fun words => hm.startsWith_append⟩
  | cons c r => exact ⟨id, id, fun words => hm.startsWith_append⟩

end StandsApart

/-! ### What is read in front of such a text -/

namespace Terminal

variable {t : Terminal} {s w r m : Text}

/-- A terminal is read as before in front of a text that stands apart. -/
lemma lexeme_append (hm : StandsApart m) (h : t.lexeme s = some (w, r)) :
    t.lexeme (s ++ m) = some (w, r ++ m) := by
  obtain ⟨rfl, -⟩ := eq_append_of_lexeme h
  rw [List.append_assoc]
  exact lexeme_of_looksLike (hm.looksLike r) h

lemma scan_append (hm : StandsApart m) (h : t.scan s = some (w, r)) :
    t.scan (s ++ m) = some (w, r ++ m) := by
  have hne : skipBlanks s ≠ [] := by
    obtain ⟨hs, hw⟩ := eq_append_of_lexeme (t := t) h
    rw [hs]
    exact List.append_ne_nil_of_left_ne_nil hw r
  have hskip : skipBlanks (s ++ m) = skipBlanks s ++ m := by
    rw [skipBlanks, List.dropWhile_append, if_neg]
    · rfl
    · rw [List.isEmpty_iff]
      exact hne
  rw [scan, hskip]
  exact lexeme_append hm h

end Terminal

namespace Part

variable {α : Type} {g : Part α} {s r : Text} {v : Except BuildError α}

/-- A part is read as before in front of a text that stands apart. -/
lemma derives_append {m : Text} (hm : StandsApart m) (h : fieldGrammar.Derives g s v r) :
    fieldGrammar.Derives g (s ++ m) v (r ++ m) := by
  induction h with
  | terminal h => exact .terminal (Terminal.scan_append hm h)
  | call _ ih => exact .call ih
  | build _ ih => exact .build ih
  | seq _ _ ihg ihh => exact .seq ihg ihh
  | left _ ih => exact .left ih
  | right _ ih => exact .right ih
  | present _ ih => exact .present ih
  | absent => exact .absent
  | done => exact .done
  | more h _ _ ihg iht => exact .more (Terminal.scan_append hm h) ihg iht

end Part

end OpeningTimes
