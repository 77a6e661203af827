import OpeningTimes.Proofs.Rules.Steady
import OpeningTimes.Proofs.Text.Spacing

/-!
Fields with other blanks.

Blanks between two terminals are skipped. What a terminal sees of them is that a word or a number ends
there, and a look ahead skips them as well. So it does not matter how many blanks there are and which
ones, as long as there are some.

* `RespacedFrom.looksLike`: other blanks look the same to a terminal before them;
* `Terminal.carries_respaced`: a terminal is read from a text with other blanks;
* `Field.read_respaced`: fields with other blanks between their words have the same rules.
-/

namespace OpeningTimes

open Grammar Text

/-- Other blanks look the same to a terminal before them. -/
lemma RespacedFrom.looksLike {s u : Text} (h : RespacedFrom false s u) : LooksLike u s := by
  have hdigit : ∀ c, isBlank c = true → isDigit c = false := fun c hc =>
    Bool.eq_false_iff.mpr fun hd => by simp [Terminal.isBlank_eq_false_of_isDigit hd] at hc
  have hletter : ∀ c, isBlank c = true → isLetter c = false := fun c hc =>
    Bool.eq_false_iff.mpr fun hl => by simp [Terminal.isBlank_eq_false_of_isLetter hl] at hc
  refine ⟨h.head hdigit, h.head hletter, fun words => ?_⟩
  have hspace := h.dropWhile (p := isSpace) (fun _ => isSpace_of_isBlank) rfl
  rw [Terminal.startsWith, Terminal.startsWith, hspace.takeWhile_eq hletter]

namespace Terminal

lemma Agree.refl (t : Terminal) (w : Text) : t.Agree w w := by
  cases t <;> first | rfl | trivial

/-- A terminal has neither quotes nor blanks in it, if it is no comment. -/
lemma not_quote_of_lexeme {t : Terminal} {s w r : Text} (ht : t ≠ comment)
    (h : t.lexeme s = some (w, r)) : ∀ c ∈ w, c ≠ '"' ∧ isBlank c = false := by
  have hmarks : ∀ c ∈ t.marks, (!isBlank c) = true := by
    cases t <;> decide
  have hblank : ∀ c ∈ w, (!isBlank c) = true :=
    forall_of_lexeme (p := fun c => !isBlank c) (fun c hc => by simp [isBlank_eq_false_of_isDigit hc])
      (fun c hc => by simp [isBlank_eq_false_of_isLetter hc]) hmarks ht h
  intro c hc
  refine ⟨?_, (Bool.not_eq_true' _).mp (hblank c hc)⟩
  rintro rfl
  exact quote_not_mem_of_lexeme ht h hc

/-- A terminal is read from a text with other blanks, and is the same there. -/
lemma carries_respaced (t : Terminal) :
    fieldGrammar.Carries (RespacedFrom false) t.Agree (.terminal t) := by
  intro s s' r w h hd
  have hskip : RespacedFrom false (skipBlanks s) (skipBlanks s') := h.dropWhile (fun _ h => h) rfl
  have hs : t.lexeme (skipBlanks s) = some (w, r) := Part.derives_scan_iff.mp hd
  suffices hread : ∃ r', t.lexeme (skipBlanks s') = some (w, r') ∧ RespacedFrom false r r' by
    obtain ⟨r', hs', hr⟩ := hread
    exact ⟨w, r', Part.derives_scan_iff.mpr hs', Agree.refl t w, hr⟩
  by_cases ht : t = comment
  · subst ht
    obtain ⟨c, hc, rfl, hsplit⟩ := exists_of_quotation hs
    rw [hsplit] at hskip
    obtain ⟨q, hq, hr⟩ := hskip.exists_of_comment hc
    rw [hq]
    exact ⟨q, quotation_append hc, hr⟩
  · obtain ⟨hsplit, -⟩ := eq_append_of_lexeme hs
    rw [hsplit] at hskip hs
    obtain ⟨q, hq, hr⟩ := hskip.exists_of_append (not_quote_of_lexeme ht hs)
    rw [hq]
    exact ⟨q, lexeme_of_looksLike hr.looksLike hs, hr⟩

end Terminal

/-- A field without margins has none with other blanks between its words. -/
lemma Respaced.trimField_eq {s u : Text} (h : Respaced s u) (hs : trimField s = s) :
    trimField u = u := by
  refine trimField_eq_self ?_ fun c hc => endsPlain_trimField s c (by rwa [hs, ← h.getLast?_eq])
  intro c hc
  rw [h.head?_eq] at hc
  obtain ⟨r, rfl⟩ := List.head?_eq_some_iff.mp hc
  exact isMargin_head_of_trimField hs

namespace Field

variable {f g : Text} {R : List Rule}

/-- Fields with other blanks between their words have the same rules. -/
theorem read_respaced (hf : trimField f = f) (h : Respaced f g) (hR : read f = .ok R) :
    read g = .ok R := by
  have hblank : ∀ r r', RespacedFrom false r r' → r.all isBlank = true → r'.all isBlank = true := by
    intro r r' h hr
    have hdrop := h.dropWhile (p := isBlank) (fun _ h => h) rfl
    rw [List.dropWhile_eq_nil_iff.mpr (List.all_eq_true.mp hr)] at hdrop
    rw [List.all_eq_true, ← List.dropWhile_eq_nil_iff]
    exact hdrop.eq_nil
  refine read_of_related Terminal.carries_respaced hblank ?_ hR
  rw [hf, h.trimField_eq hf]
  exact h.respacedFrom

/-- Other blanks between two words are read as a single space is. -/
theorem read_respaced_monday :
    let x : Rule := { days := { ranges := [{ start := some .monday }] }, modifier := .closed }
    trimField "Mo off".toList = "Mo off".toList ∧ read "Mo off".toList = .ok [x] ∧
      read "Mo\t\n off".toList = .ok [x] := by
  intro x
  have hf : trimField "Mo off".toList = "Mo off".toList := by decide +kernel
  have hR : read "Mo off".toList = .ok [x] := by decide +kernel
  have hwords : RespacedFrom false ['M', 'o', ' ', 'o', 'f', 'f']
      ['M', 'o', '\t', '\n', ' ', 'o', 'f', 'f'] :=
    .outside (by decide) rfl (.outside (by decide) rfl (.blanks (b := [' ']) (by decide)
      (List.cons_ne_nil '\t' ['\n', ' ']) (by decide) (by decide) rfl (.refl false ['o', 'f', 'f'])))
  have h : Respaced "Mo off".toList "Mo\t\n off".toList :=
    .intro (b := []) (s := ['M', 'o', ' ', 'o', 'f', 'f']) (by simp) (by simp [isBlank]) hwords
  exact ⟨hf, hR, read_respaced hf h hR⟩

end Field

end OpeningTimes
