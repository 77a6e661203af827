import OpeningTimes.Text.Digit
import OpeningTimes.Text.Letter
import Mathlib

/-!
Digits, letters and blanks are different characters.

* `Text.decidableForallMem`: what holds of all characters of a text can be decided;
* `Text.isLetter_iff`: the code points of letters;
* `Text.isLetter_eq_false_of_isDigit`, `Text.isSpace_eq_false_of_isLetter` and their companions: no
  character is of two kinds.
-/

namespace OpeningTimes.Text

/-- What holds of all characters of a text is decided one character after the other, and not by looking
at all characters there are. -/
instance (priority := 2000) decidableForallMem {p : Char → Prop} [DecidablePred p] (s : Text) :
    Decidable (∀ c ∈ s, p c) :=
  List.decidableBAll p s

/-- A character without a quality is not in a text of characters with that quality. -/
lemma not_mem_of_forall {s : Text} {p : Char → Bool} {c : Char} (h : ∀ d ∈ s, p d = true)
    (hc : p c = false) : c ∉ s := by
  intro hmem
  rw [h c hmem] at hc
  cases hc

lemma beq_ofNat (c : Char) {n : ℕ} (hn : n.isValidChar) :
    (c == Char.ofNat n) = decide (c.toNat = n) := by
  rw [Bool.eq_iff_iff, beq_iff_eq, decide_eq_true_iff]
  constructor
  · rintro rfl
    simp [Char.ofNat, hn, Char.ofNatAux, Char.toNat]
  · rintro rfl
    simp

/-- The characters with a small letter among `a` to `z`, foreign ones apart. -/
lemma isLower_toLower_iff {c : Char} :
    c.toLower.isLower = true ↔
      (65 ≤ c.toNat ∧ c.toNat ≤ 90) ∨ (97 ≤ c.toNat ∧ c.toNat ≤ 122) := by
  have hA : 'A'.val.toNat = 65 := rfl
  have hZ : 'Z'.val.toNat = 90 := rfl
  have ha : 'a'.val.toNat = 97 := rfl
  have hz : 'z'.val.toNat = 122 := rfl
  have hd : ('a'.val - 'A'.val).toNat = 32 := rfl
  have hc : c.val.toNat = c.toNat := rfl
  simp only [Char.isLower, Bool.and_eq_true, decide_eq_true_eq, ge_iff_le, Char.toLower,
    UInt32.le_iff_toNat_le, ha, hz]
  split
  · next h =>
    simp only [hA, hZ, hc] at h
    simp only [UInt32.toNat_add, hd, hc]
    omega
  · next h =>
    simp only [hA, hZ, hc] at h
    simp only [hc]
    omega

/-- The code points of letters. -/
lemma isLetter_iff {c : Char} :
    isLetter c = true ↔
      (65 ≤ c.toNat ∧ c.toNat ≤ 90) ∨ (97 ≤ c.toNat ∧ c.toNat ≤ 122) ∨
        c.toNat = 0x17f ∨ c.toNat = 0x212a ∨ c.toNat = 0x130 ∨ c.toNat = 0x131 := by
  unfold isLetter fold longS kelvin dottedI dotlessI
  rw [beq_ofNat c (by decide), beq_ofNat c (by decide), beq_ofNat c (by decide),
    beq_ofNat c (by decide)]
  simp only [decide_eq_true_eq, Bool.or_eq_true]
  split
  · next h => simp [h]
  split
  · next h => simp [h]
  split
  · next h => rcases h with h | h <;> simp [h]
  · rw [isLower_toLower_iff]
    omega

/-- No digit is a letter. -/
lemma isLetter_eq_false_of_isDigit {c : Char} (h : isDigit c = true) : isLetter c = false := by
  simp only [isDigit, List.any_eq_true, Bool.and_eq_true, decide_eq_true_eq] at h
  obtain ⟨z, hz, h⟩ := h
  have hzero : ∀ z ∈ digitZeros, z = 0x30 ∨ 0x660 ≤ z ∧ (z + 10 ≤ 0x212a ∨ 0x212a < z) := by
    decide
  have := hzero z hz
  rw [Bool.eq_false_iff, ne_eq, isLetter_iff]
  omega

lemma isDigit_eq_false_of_isLetter {c : Char} (h : isLetter c = true) : isDigit c = false := by
  rw [Bool.eq_false_iff]
  intro hd
  rw [isLetter_eq_false_of_isDigit hd] at h
  exact Bool.false_ne_true h

/-- No letter is white space. -/
lemma isSpace_eq_false_of_isLetter {c : Char} (h : isLetter c = true) : isSpace c = false := by
  rw [isLetter_iff] at h
  rw [Bool.eq_false_iff]
  simp only [isSpace, ne_eq, Bool.or_eq_true, Bool.and_eq_true, decide_eq_true_eq, beq_iff_eq]
  omega

/-- No digit is white space. -/
lemma isSpace_eq_false_of_isDigit {c : Char} (h : isDigit c = true) : isSpace c = false := by
  simp only [isDigit, List.any_eq_true, Bool.and_eq_true, decide_eq_true_eq] at h
  obtain ⟨z, hz, h⟩ := h
  have hzero : ∀ z ∈ digitZeros, z = 0x30 ∨ (0x660 ≤ z ∧ z + 10 ≤ 0x1680) ∨
      (0x1681 ≤ z ∧ z + 10 ≤ 0x2000) ∨ 0x3001 ≤ z := by
    decide
  have := hzero z hz
  rw [Bool.eq_false_iff]
  simp only [isSpace, ne_eq, Bool.or_eq_true, Bool.and_eq_true, decide_eq_true_eq, beq_iff_eq]
  omega

/-- A blank is white space. -/
lemma isSpace_of_isBlank {c : Char} (h : isBlank c = true) : isSpace c = true := by
  simp only [isBlank, Bool.or_eq_true, beq_iff_eq] at h
  rcases h with (((rfl | rfl) | rfl) | rfl) | rfl <;> decide

/-- White space of any kind before a letter is nothing but blanks, if there are only blanks. -/
lemma dropWhile_isSpace_of_isLetter {s : Text} {c : Char} {r : Text} (hs : skipBlanks s = c :: r)
    (hc : isLetter c = true) : s.dropWhile isSpace = c :: r := by
  induction s with
  | nil => simp [skipBlanks] at hs
  | cons d s ih =>
    by_cases hd : isBlank d = true
    · rw [List.dropWhile_cons_of_pos (isSpace_of_isBlank hd)]
      exact ih (by rwa [skipBlanks, List.dropWhile_cons_of_pos hd] at hs)
    · rw [skipBlanks, List.dropWhile_cons_of_neg hd] at hs
      obtain ⟨rfl, rfl⟩ := List.cons.inj hs
      rw [List.dropWhile_cons_of_neg (by simp [isSpace_eq_false_of_isLetter hc])]

end OpeningTimes.Text
