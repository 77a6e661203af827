import OpeningTimes.Proofs.Text.Numeral

/-!
Integers that fill a width.

An integer is written with zeros between its sign and its digits, so that the text is as wide as it is
wanted. Neither the zeros nor the width get lost or become a part of the integer: the text can be read, and
it says how great the integer is.

* `Text.eq_of_number_eq`: digits are told by how many they are and by the number that they denote;
* `Text.integer?`: the integer that a text denotes;
* `Text.Fills`: the texts of a width that denote an integer;
* `Text.fills_iff`: there is exactly one of them;
* `Text.padded?_eq_some_iff`: it is written if neither the integer nor the width is too great;
* `Text.padded?_fills`: what is written fills the width, and two integers are never written alike.
-/

namespace OpeningTimes.Text

variable {n m : ℤ} {width : ℕ} {s t w w' : Text}

/-! ### Digits -/

lemma le_length_fill {k : ℕ} : width ≤ (fill width (digits k)).length := by
  rw [length_fill]
  exact le_max_left _ _

lemma IsDigits.head?_ne (hw : IsDigits w) : w.head? ≠ some '-' := by
  intro hhead
  have hdash := hw.isDigit '-' (List.mem_of_mem_head? hhead)
  exact absurd hdash (by decide)

/-- The last digit is the least significant one. -/
lemma number_concat {c : Char} (hc : c.isDigit = true) :
    number (w ++ [c]) = 10 * number w + (c.toNat - 48) := by
  rw [number, List.foldl_append, ← number, List.foldl_cons, List.foldl_nil,
    (digitValue?_of_isDigit hc).2, Option.getD_some]

/-- Digits are told by how many they are and by the number that they denote. -/
lemma eq_of_number_eq (hw : ∀ c ∈ w, c.isDigit = true) (hw' : ∀ c ∈ w', c.isDigit = true)
    (hlength : w.length = w'.length) (hnumber : number w = number w') : w = w' := by
  -- the last digits are equal because the numbers are equal modulo ten
  induction w using List.reverseRecOn generalizing w' with
  | nil => exact (List.length_eq_zero_iff.mp hlength.symm).symm
  | append_singleton w c ih =>
    obtain rfl | ⟨v, d, rfl⟩ := w'.eq_nil_or_concat'
    · simp at hlength
    · have hc : c.isDigit = true := hw c (by simp)
      have hd : d.isDigit = true := hw' d (by simp)
      have hcv : 48 ≤ c.toNat ∧ c.toNat ≤ 57 := Char.isDigit_iff_toNat.mp hc
      have hdv : 48 ≤ d.toNat ∧ d.toNat ≤ 57 := Char.isDigit_iff_toNat.mp hd
      rw [number_concat hc, number_concat hd] at hnumber
      have hlast : c.toNat = d.toNat := by omega
      have hfirst : w = v := by
        refine ih (fun x hx => hw x (by simp [hx])) (fun x hx => hw' x (by simp [hx])) ?_ (by omega)
        simpa using hlength
      rw [hfirst, Char.toNat_inj.mp hlast]

/-! ### Reading an integer -/

/-- The natural number that a text of digits denotes. -/
def natural? (s : Text) : Option ℕ :=
  if s ≠ [] ∧ ∀ c ∈ s, isDigit c = true then some (number s) else none

/-- The integer that a text denotes: digits, or digits after a minus sign. -/
def integer? : Text → Option ℤ
  | '-' :: s => (natural? s).map fun k : ℕ => -(k : ℤ)
  | s => (natural? s).map fun k : ℕ => (k : ℤ)

lemma IsDigits.natural? (hw : IsDigits w) : natural? w = some (number w) :=
  if_pos ⟨hw.ne_nil, fun c hc => (digitValue?_of_isDigit (hw.isDigit c hc)).1⟩

lemma IsDigits.integer? (hw : IsDigits w) : integer? w = some (number w : ℤ) := by
  rw [Text.integer?, hw.natural?, Option.map_some]
  rintro s rfl
  exact hw.head?_ne rfl

lemma IsDigits.integer?_minus (hw : IsDigits w) : Text.integer? ('-' :: w) = some (-(number w : ℤ)) := by
  rw [Text.integer?, hw.natural?, Option.map_some]

/-! ### Texts of a width -/

/-- A text of some width that denotes an integer. It has digits up to the width, or more if the integer has
more of them. A minus sign stands before the digits of a negative integer, and counts as a place. -/
structure Fills (n : ℤ) (width : ℕ) (s : Text) : Prop where
  length : s.length = max width (numeral n).length
  digits : ∃ w, IsDigits w ∧ s = if n < 0 then '-' :: w else w
  integer : integer? s = some n

/-- What is written fills the width. -/
lemma fills_padded (n : ℤ) (width : ℕ) : Fills n width (padded n width) := by
  have hdigits : ∀ k : ℕ, IsDigits (fill k (digits n.natAbs)) := fun k => isDigits_digits.fill
  by_cases hn : n < 0
  · have htext : padded n width = '-' :: fill (width - 1) (digits n.natAbs) := if_pos hn
    refine ⟨?_, ⟨_, hdigits (width - 1), htext.trans (if_pos hn).symm⟩, ?_⟩
    · rw [htext, numeral, if_pos hn, List.length_cons, List.length_cons, length_fill]
      omega
    · rw [htext, (hdigits _).integer?_minus, number_fill]
      congr 1
      omega
  · have htext : padded n width = fill width (digits n.natAbs) := if_neg hn
    refine ⟨?_, ⟨_, hdigits width, htext.trans (if_neg hn).symm⟩, ?_⟩
    · rw [htext, numeral, if_neg hn, length_fill]
    · rw [htext, (hdigits _).integer?, number_fill]
      congr 1
      omega

/-- Nothing else fills the width. -/
lemma Fills.unique (hs : Fills n width s) (ht : Fills n width t) : s = t := by
  obtain ⟨w, hw, rfl⟩ := hs.digits
  obtain ⟨w', hw', rfl⟩ := ht.digits
  have hlength := hs.length.trans ht.length.symm
  have hinteger := hs.integer.trans ht.integer.symm
  by_cases hn : n < 0
  · simp only [if_pos hn, List.length_cons, hw.integer?_minus, hw'.integer?_minus,
      Option.some.injEq] at hlength hinteger
    rw [eq_of_number_eq hw.isDigit hw'.isDigit (by omega) (by omega)]
  · simp only [if_neg hn, hw.integer?, hw'.integer?, Option.some.injEq] at hlength hinteger
    rw [eq_of_number_eq hw.isDigit hw'.isDigit hlength (by omega)]

/-- There is exactly one text that fills the width. -/
lemma fills_iff : Fills n width s ↔ s = padded n width := by
  constructor
  · exact fun hs => hs.unique (fills_padded n width)
  · rintro rfl
    exact fills_padded n width

/-- An integer is never written like another one. -/
lemma padded_inj : padded m width = padded n width ↔ m = n := by
  constructor
  · intro h
    have hm := (fills_padded m width).integer
    rw [h, (fills_padded n width).integer] at hm
    exact (Option.some.inj hm).symm
  · rintro rfl
    rfl

/-- An integer is written with exactly as many digits as there are places if and only if it is not negative
and not too great. -/
lemma isDigits_padded_iff (hwidth : 0 < width) :
    IsDigits (padded n width) ∧ (padded n width).length = width ↔ 0 ≤ n ∧ n < 10 ^ width := by
  by_cases hn : n < 0
  · have hminus : (padded n width).head? = some '-' := by
      rw [padded, if_pos hn, List.head?_cons]
    exact iff_of_false (fun h => h.1.head?_ne hminus) (by omega)
  · lift n to ℕ using not_lt.mp hn
    have hlength := length_digits_le_iff (n := n) hwidth
    have hpow : (n : ℤ) < 10 ^ width ↔ n < 10 ^ width := by exact_mod_cast Iff.rfl
    rw [padded_natCast, length_fill, hpow, ← hlength]
    constructor
    · rintro ⟨-, h⟩
      omega
    · rintro ⟨-, h⟩
      exact ⟨isDigits_digits.fill, by omega⟩

/-! ### What is written -/

/-- An integer is written unless it has too many digits or the width is none. -/
lemma padded?_eq_some_iff {width : ℤ} :
    padded? n width = some s ↔
      (n.natAbs < 10 ^ maxDigits ∧ 0 ≤ width ∧ width ≤ maxWidth) ∧ padded n width.toNat = s := by
  rw [← isShort_iff, padded?]
  split
  · next h =>
    simp only [Bool.and_eq_true, decide_eq_true_eq] at h
    simp [h]
  · next h =>
    simp only [Bool.and_eq_true, decide_eq_true_eq] at h
    simp only [reduceCtorEq, false_iff]
    exact fun hs => h ⟨hs.1.2, hs.1.1⟩

/-- A one with too many zeros after it is not written. -/
lemma padded?_pow {d : ℕ} {width : ℤ} (hd : maxDigits ≤ d) : padded? (10 ^ d) width = none := by
  rw [Option.eq_none_iff_forall_ne_some]
  intro s hs
  have hlt := (padded?_eq_some_iff.mp hs).1.1
  rw [Int.natAbs_pow] at hlt
  exact absurd hlt (not_lt.mpr (Nat.pow_le_pow_right (by decide) hd))

/-- An integer that is wanted in some width has a text if and only if neither of them is too great and the
width is not negative. The text is the only one that fills the width. Integers that are written alike are
equal, and those that are not negative and have no more digits than there are places have as many digits in
their text. -/
theorem padded?_fills (n width : ℤ) :
    ((∃ s, padded? n width = some s) ↔
      n.natAbs < 10 ^ maxDigits ∧ 0 ≤ width ∧ width ≤ maxWidth) ∧
    ∀ s, padded? n width = some s →
      (∀ t, Fills n width.toNat t ↔ t = s) ∧ (∀ m, padded? m width = some s ↔ m = n) ∧
        (0 < width → (IsDigits s ∧ s.length = width ↔ 0 ≤ n ∧ n < 10 ^ width.toNat)) := by
  refine ⟨⟨fun ⟨s, hs⟩ => (padded?_eq_some_iff.mp hs).1, fun h => ?_⟩, fun s hs => ?_⟩
  · exact ⟨_, padded?_eq_some_iff.mpr ⟨h, rfl⟩⟩
  · have htext := hs
    obtain ⟨⟨-, hwidth, -⟩, rfl⟩ := padded?_eq_some_iff.mp hs
    refine ⟨fun t => fills_iff, fun m => ⟨fun hm => ?_, ?_⟩, fun hpos => ?_⟩
    · exact padded_inj.mp (padded?_eq_some_iff.mp hm).2
    · rintro rfl
      exact htext
    · lift width to ℕ using hwidth
      rw [← isDigits_padded_iff (by omega), Int.toNat_natCast, Nat.cast_inj]

/-- Seven has three places if it is wanted in three, and no other integer has the same text there. -/
theorem padded?_fills_seven :
    padded? 7 3 = some ['0', '0', '7'] ∧ 0 < (3 : ℤ) ∧ IsDigits ['0', '0', '7'] ∧
      ∀ m, padded? m 3 = some ['0', '0', '7'] → m = 7 := by
  have htext : padded? 7 3 = some ['0', '0', '7'] := by decide
  obtain ⟨-, hunique, hplaces⟩ := (padded?_fills 7 3).2 _ htext
  exact ⟨htext, by decide, ((hplaces (by decide)).mpr (by decide)).1, fun m => (hunique m).mp⟩

/-- Five has no text in a width that is too great, and neither has a one with too many zeros after it in any
width. -/
theorem padded?_eq_none_of_great :
    padded? 5 (2 ^ 63) = none ∧ padded? (10 ^ maxDigits) 2 = none :=
  ⟨by decide, padded?_pow le_rfl⟩

/-- The sign takes one of the places. -/
example : padded? (-7) 3 = some ['-', '0', '7'] := by decide

end OpeningTimes.Text
