import OpeningTimes.Proofs.Text.Numeral
import OpeningTimes.Text.Joined

/-!
Texts without spaces and quotes.

Most of what is written of a rule is made of visible characters of the basic script, of which the quote
alone has a meaning of its own.

* `Text.isMark`: these characters;
* `Text.Marked`: the texts made of them;
* `Text.marked_digits`, `Text.marked_numeral`, `Text.marked_padded`: written numbers are such texts.
-/

namespace OpeningTimes.Text

/-- The visible characters of the basic script but the quote. -/
def isMark (c : Char) : Bool :=
  0x20 < c.toNat && c.toNat < 0x7f && c != '"'

/-- A text without spaces and quotes, which may be empty. -/
def Marked (s : Text) : Prop :=
  ∀ c ∈ s, isMark c = true

instance : DecidablePred Marked := fun s => inferInstanceAs (Decidable (∀ c ∈ s, isMark c = true))

variable {s a b : Text}

/-- Marks are visible, and they are no quotes. -/
lemma of_isMark {c : Char} (h : isMark c = true) :
    c.toNat < 128 ∧ isSpace c = false ∧ c ≠ ' ' ∧ c ≠ '"' := by
  simp only [isMark, Bool.and_eq_true, decide_eq_true_eq, bne_iff_ne, ne_eq] at h
  obtain ⟨⟨hlow, hhigh⟩, hquote⟩ := h
  refine ⟨by omega, ?_, ?_, hquote⟩
  · rw [Bool.eq_false_iff]
    simp only [isSpace, ne_eq, Bool.or_eq_true, Bool.and_eq_true, decide_eq_true_eq, beq_iff_eq]
    omega
  · rintro rfl
    exact absurd hlow (by decide)

lemma Marked.quote_not_mem (h : Marked s) : '"' ∉ s := fun hmem =>
  (of_isMark (h _ hmem)).2.2.2 rfl

@[simp] lemma marked_nil : Marked [] :=
  nofun

@[simp] lemma marked_cons {m : Char} : Marked (m :: s) ↔ isMark m = true ∧ Marked s :=
  List.forall_mem_cons

@[simp] lemma marked_append : Marked (a ++ b) ↔ Marked a ∧ Marked b :=
  List.forall_mem_append

lemma marked_joinWith {α : Type} {sep : Text} {f : α → Text} (hsep : Marked sep)
    (hf : ∀ x, Marked (f x)) (xs : List α) : Marked (joinWith sep f xs) := by
  induction xs with
  | nil => exact marked_nil
  | cons x xs ih =>
    cases xs with
    | nil => simpa [joinWith] using hf x
    | cons y ys =>
      rw [joinWith_cons_cons]
      exact marked_append.mpr ⟨hf x, marked_append.mpr ⟨hsep, ih⟩⟩

/-! ### Numbers -/

@[simp] lemma marked_digits (n : ℕ) : Marked (digits n) := by
  intro c hc
  have hbounds : 48 ≤ c.toNat ∧ c.toNat ≤ 57 := Char.isDigit_iff_toNat.mp (isDigits_digits.isDigit c hc)
  have hquote : c ≠ '"' := by
    rintro rfl
    exact absurd hbounds (by decide)
  simp only [isMark, Bool.and_eq_true, decide_eq_true_eq, bne_iff_ne]
  exact ⟨by omega, hquote⟩

@[simp] lemma marked_numeral (n : ℤ) : Marked (numeral n) := by
  rw [numeral]
  split
  · exact marked_cons.mpr ⟨rfl, marked_digits _⟩
  · exact marked_digits _

@[simp] lemma marked_padded (n : ℤ) (k : ℕ) : Marked (padded n k) := by
  have hfill : ∀ k m, Marked (fill k (digits m)) := by
    intro k m
    refine marked_append.mpr ⟨fun c hc => ?_, marked_digits m⟩
    rw [List.eq_of_mem_replicate hc]
    rfl
  rw [padded]
  split
  · exact marked_cons.mpr ⟨rfl, hfill _ _⟩
  · exact hfill _ _

lemma numeral_ne_nil (n : ℤ) : numeral n ≠ [] := by
  rw [numeral]
  split <;> simp [digits_ne_nil]

lemma padded_ne_nil (n : ℤ) (k : ℕ) : padded n k ≠ [] := by
  rw [padded]
  split <;> simp [fill_ne_nil]

end OpeningTimes.Text
