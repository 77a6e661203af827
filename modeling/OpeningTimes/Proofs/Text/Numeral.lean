import OpeningTimes.Proofs.Text.Character
import OpeningTimes.Text.Numeral

/-!
Numbers as they are written and read.

* `Text.Breaks`: a text before which every word and every number ends;
* `Text.IsDigits`: a text of digits of the first script;
* `Text.isDigit_of_mem_digits`, `Text.number_digits`: a number is written with digits that denote it;
* `Text.number_fill`, `Text.length_fill`: the same with zeros in front;
* `Text.number_lt`: a number is bounded by how many digits it has;
* `Text.isShort_iff`: the numbers that are not too great to be read and written.
-/

namespace OpeningTimes.Text

variable {w m : Text} {n : ℕ}

/-! ### Where a word ends -/

/-- A text that begins with neither a digit nor a letter. -/
def Breaks (m : Text) : Prop :=
  ∀ c ∈ m.head?, isDigit c = false ∧ isLetter c = false

lemma breaks_nil : Breaks [] := by
  simp [Breaks]

lemma breaks_cons {c : Char} (hd : isDigit c = false) (hl : isLetter c = false) :
    Breaks (c :: m) := by
  simp [Breaks, hd, hl]

/-- Everything at the beginning of a text has a property, and what follows begins without it. -/
lemma takeWhile_append_of_head {p : Char → Bool} (hw : ∀ c ∈ w, p c = true)
    (hm : ∀ c ∈ m.head?, p c = false) :
    (w ++ m).takeWhile p = w ∧ (w ++ m).dropWhile p = m := by
  have hm' : m.takeWhile p = [] ∧ m.dropWhile p = m := by
    cases m with
    | nil => exact ⟨rfl, rfl⟩
    | cons c m =>
      have hc : ¬ p c = true := by simpa using hm c (by simp)
      exact ⟨List.takeWhile_cons_of_neg hc, List.dropWhile_cons_of_neg hc⟩
  rw [List.takeWhile_append_of_pos hw, List.dropWhile_append_of_pos hw, hm'.1, hm'.2]
  exact ⟨List.append_nil w, rfl⟩

lemma takeWhile_isDigit_append (hw : ∀ c ∈ w, isDigit c = true) (hm : Breaks m) :
    (w ++ m).takeWhile isDigit = w ∧ (w ++ m).dropWhile isDigit = m :=
  takeWhile_append_of_head hw fun c hc => (hm c hc).1

lemma takeWhile_isLetter_append (hw : ∀ c ∈ w, isLetter c = true) (hm : Breaks m) :
    (w ++ m).takeWhile isLetter = w ∧ (w ++ m).dropWhile isLetter = m :=
  takeWhile_append_of_head hw fun c hc => (hm c hc).2

/-! ### Digits -/

/-- The ten digits of the first script stand for their places in it. -/
lemma digitValue?_of_isDigit {c : Char} (h : c.isDigit = true) :
    isDigit c = true ∧ digitValue? c = some (c.toNat - 48) := by
  have h0 : 48 ≤ c.toNat ∧ c.toNat ≤ 57 := Char.isDigit_iff_toNat.mp h
  have hz : (decide (0x30 ≤ c.toNat) && decide (c.toNat < 0x30 + 10)) = true := by
    simp only [Bool.and_eq_true, decide_eq_true_eq]
    omega
  refine ⟨List.any_eq_true.mpr ⟨0x30, by decide, hz⟩, ?_⟩
  have hfind : (digitZeros.find? fun z => z ≤ c.toNat && c.toNat < z + 10) = some 0x30 :=
    List.find?_cons_of_pos hz
  rw [digitValue?, hfind]
  rfl

lemma digits_ne_nil : digits n ≠ [] :=
  Nat.toDigits_ne_nil

/-- A text of digits from `0` to `9`, of which there is at least one. -/
structure IsDigits (w : Text) : Prop where
  ne_nil : w ≠ []
  isDigit : ∀ c ∈ w, c.isDigit = true

lemma isDigits_digits : IsDigits (digits n) :=
  ⟨digits_ne_nil, fun _ hc => Nat.isDigit_of_mem_toDigits (by decide) (by decide) hc⟩

/-- Zeros in front of digits are digits. -/
lemma IsDigits.fill {k : ℕ} (hw : IsDigits w) : IsDigits (fill k w) := by
  refine ⟨List.append_ne_nil_of_right_ne_nil _ hw.ne_nil, fun c hc => ?_⟩
  rcases List.mem_append.mp hc with hc | hc
  · rw [List.eq_of_mem_replicate hc]
    decide
  · exact hw.isDigit c hc

lemma isDigit_of_mem_digits {c : Char} (h : c ∈ digits n) : isDigit c = true :=
  (digitValue?_of_isDigit (isDigits_digits.isDigit c h)).1

/-- A text of digits of the first script denotes the number that they are. -/
lemma number_eq_ofDigitChars (h : ∀ c ∈ w, c.isDigit = true) :
    number w = Nat.ofDigitChars 10 w 0 := by
  unfold number Nat.ofDigitChars
  refine List.foldl_ext _ _ _ fun a c hc => ?_
  rw [(digitValue?_of_isDigit (h c hc)).2]
  rfl

/-- A number is written with digits that denote it. -/
lemma number_digits : number (digits n) = n := by
  rw [number_eq_ofDigitChars isDigits_digits.isDigit]
  exact Nat.ofDigitChars_ten_toDigits

lemma length_digits_le_iff {k : ℕ} (hk : 0 < k) : (digits n).length ≤ k ↔ n < 10 ^ k :=
  Nat.length_toDigits_le_iff (by decide) hk

/-- How many digits a number has tells how great it is. -/
lemma length_digits_eq_iff {k : ℕ} (hk : 0 < k) :
    (digits n).length = k + 1 ↔ 10 ^ k ≤ n ∧ n < 10 ^ (k + 1) := by
  have h := length_digits_le_iff (n := n) hk
  have h' := length_digits_le_iff (n := n) (Nat.succ_pos k)
  omega

/-! ### Integers -/

lemma numeral_natCast : numeral (n : ℤ) = digits n := by
  rw [numeral, if_neg (by omega), Int.natAbs_natCast]

lemma padded_natCast {k : ℕ} : padded (n : ℤ) k = fill k (digits n) := by
  rw [padded, if_neg (by omega), Int.natAbs_natCast]

lemma isDigit_of_mem_fill {c : Char} {k : ℕ} (h : c ∈ fill k (digits n)) : isDigit c = true :=
  (digitValue?_of_isDigit (isDigits_digits.fill.isDigit c h)).1

/-- Zeros alone denote nought. -/
lemma number_replicate_zero {k : ℕ} : number (List.replicate k '0') = 0 := by
  have hzero : ∀ c ∈ List.replicate k '0', c.isDigit = true := by
    intro c hc
    rw [List.eq_of_mem_replicate hc]
    decide
  rw [number_eq_ofDigitChars hzero, Nat.ofDigitChars_replicate_zero, Nat.mul_zero]

/-- Zeros in front of a number do not change what it denotes. -/
lemma number_fill {k : ℕ} : number (fill k (digits n)) = n := by
  rw [number_eq_ofDigitChars isDigits_digits.fill.isDigit, fill, Nat.ofDigitChars_append,
    Nat.ofDigitChars_replicate_zero, Nat.mul_zero]
  exact Nat.ofDigitChars_ten_toDigits

lemma length_fill {k : ℕ} : (fill k (digits n)).length = max k (digits n).length := by
  rw [fill, List.length_append, List.length_replicate]
  omega

/-- A number has two places if and only if it is below a hundred. -/
lemma length_fill_two : (fill 2 (digits n)).length = 2 ↔ n < 100 := by
  have h := length_digits_le_iff (n := n) (k := 2) (by decide)
  rw [length_fill]
  omega

lemma fill_ne_nil {k : ℕ} : fill k (digits n) ≠ [] := by
  simp [fill, digits_ne_nil]

/-! ### Short numbers -/

lemma getD_digitValue?_le (c : Char) : (digitValue? c).getD 0 ≤ 9 := by
  unfold digitValue?
  cases h : digitZeros.find? fun z => z ≤ c.toNat && c.toNat < z + 10 with
  | none => simp
  | some z =>
    have := List.find?_some h
    simp only [Bool.and_eq_true, decide_eq_true_eq] at this
    simp only [Option.map_some, Option.getD_some]
    omega

/-- A number is bounded by how many digits it has. -/
lemma number_lt (s : Text) : number s < 10 ^ s.length := by
  have hstep : ∀ (s : Text) (n k : ℕ), n < 10 ^ k →
      s.foldl (fun n c => 10 * n + (digitValue? c).getD 0) n < 10 ^ (k + s.length) := by
    intro s
    induction s with
    | nil => exact fun n k h => h
    | cons c s ih =>
      intro n k h
      have hc := getD_digitValue?_le c
      have := ih (10 * n + (digitValue? c).getD 0) (k + 1) (by rw [pow_succ]; omega)
      rwa [show k + 1 + s.length = k + (c :: s).length by simp; omega] at this
  have := hstep s 0 0 (by decide)
  rwa [Nat.zero_add] at this

lemma number?_eq_some_iff : number? w = some n ↔ w.length ≤ maxDigits ∧ number w = n := by
  simp [number?]

/-- A number has few enough digits if it is below a power of ten. -/
lemma isShort_iff {k : ℤ} : isShort k = true ↔ k.natAbs < 10 ^ maxDigits := by
  rw [isShort, decide_eq_true_eq]
  exact length_digits_le_iff (by decide)

lemma isShort_natAbs {k : ℤ} : isShort k.natAbs = isShort k := by
  rw [isShort, Int.natAbs_natCast, isShort]

/-- A number is short if its digits are few enough to be read. -/
lemma length_digits_le_maxDigits : (digits n).length ≤ maxDigits ↔ isShort n = true := by
  rw [isShort, Int.natAbs_natCast, decide_eq_true_eq]

/-- A number below a power of ten that has few digits is short. -/
lemma isShort_of_lt {k : ℤ} {d : ℕ} (hk : k.natAbs < 10 ^ d) (hd : d ≤ maxDigits) :
    isShort k = true :=
  isShort_iff.mpr (hk.trans_le (Nat.pow_le_pow_right (by decide) hd))

/-- A number that few digits denote is short. -/
lemma isShort_number (hw : w.length ≤ maxDigits) : isShort (number w) = true :=
  isShort_of_lt (number_lt w) hw

lemma isShort_zero : isShort 0 = true := by
  decide

end OpeningTimes.Text
