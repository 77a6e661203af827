import OpeningTimes.Proofs.Text.Numeral
import OpeningTimes.Text.Joined
import OpeningTimes.Text.SpaceLatch

/-!
Texts that exist if their numbers are short.

A number with too many digits is not written, and then no text exists that would hold it. So a text with
numbers in it is known by two things: how it would read whatever its numbers are, and which numbers these
are.

* `Text.whenShort`: a value that exists if some numbers are short;
* `Text.numeral?_eq`, `Text.padded?_two`: numbers are such texts;
* `Text.joinWith?_eq`, `Text.joinBy?_eq`, `Spaced.wordIf?_eq`: what is made of such texts is one.
-/

namespace OpeningTimes

namespace Text

/-! ### Values that exist if some numbers are short -/

variable {α β : Type}

/-- A value that exists if all of some numbers are short. -/
def whenShort (numbers : List ℤ) (a : α) : Option α :=
  if numbers.all isShort then some a else none

lemma whenShort_eq_some_iff {numbers : List ℤ} {a b : α} :
    whenShort numbers a = some b ↔ (∀ n ∈ numbers, isShort n = true) ∧ a = b := by
  rw [whenShort, ← List.all_eq_true]
  split
  · next h => simp [h]
  · next h => simp [h]

@[simp] lemma whenShort_nil (a : α) : whenShort [] a = some a :=
  rfl

@[simp] lemma whenShort_zero (a : α) : whenShort [0] a = some a := by
  simp [whenShort, isShort_zero]

@[simp] lemma map_whenShort (f : α → β) (numbers : List ℤ) (a : α) :
    (whenShort numbers a).map f = whenShort numbers (f a) := by
  unfold whenShort
  split <;> rfl

/-- One value after another one exists if the numbers of both are short. -/
lemma whenShort_bind {numbers more : List ℤ} {a : α} {b : β} {f : α → Option β}
    (hf : f a = whenShort more b) :
    (whenShort numbers a).bind f = whenShort (numbers ++ more) b := by
  unfold whenShort at hf ⊢
  rw [List.all_append]
  cases numbers.all isShort with
  | true => exact hf
  | false => rfl

@[simp] lemma whenShort_bind_pure (numbers : List ℤ) (a : α) (f : α → β) :
    ((whenShort numbers a).bind fun a => pure (f a)) = whenShort numbers (f a) := by
  unfold whenShort
  split <;> rfl

/-- Values of a list exist if the numbers of all of them are short. -/
lemma mapM_whenShort {f? : α → Option β} {numbers : α → List ℤ} {f : α → β}
    (hf : ∀ x, f? x = whenShort (numbers x) (f x)) (items : List α) :
    items.mapM f? = whenShort (items.flatMap numbers) (items.map f) := by
  induction items with
  | nil => rfl
  | cons x items ih =>
    rw [List.mapM_cons, hf, ih, List.flatMap_cons]
    exact whenShort_bind (whenShort_bind_pure _ _ _)

/-! ### Numbers -/

lemma numeral?_eq (n : ℤ) : numeral? n = whenShort [n] (numeral n) := by
  simp [numeral?, whenShort]

lemma padded?_two (n : ℤ) : padded? n 2 = whenShort [n] (twoDigits n) := by
  have hwidth : (decide ((0 : ℤ) ≤ 2) && decide ((2 : ℤ) ≤ maxWidth)) = true := by decide
  rw [padded?, hwidth]
  simp [whenShort]

/-! ### Lists -/

section Lists

variable {text? : α → Option Text} {numbers : α → List ℤ} {text : α → Text}

lemma joinWith?_eq (separator : Text) (htext : ∀ x, text? x = whenShort (numbers x) (text x))
    (items : List α) :
    joinWith? separator text? items =
      whenShort (items.flatMap numbers) (joinWith separator text items) := by
  rw [joinWith?, mapM_whenShort htext, map_whenShort, joinWith]

/-- The texts of the items, each but the last one followed by the separator it asks for. -/
def joinBy (separator text : α → Text) : List α → Text
  | [] => []
  | [item] => text item
  | item :: next :: items => text item ++ separator item ++ joinBy separator text (next :: items)

lemma joinBy?_eq (separator : α → Text) (htext : ∀ x, text? x = whenShort (numbers x) (text x))
    (items : List α) :
    joinBy? separator text? items =
      whenShort (items.flatMap numbers) (joinBy separator text items) := by
  induction items with
  | nil => rfl
  | cons x items ih =>
    cases items with
    | nil => simp [joinBy?, joinBy, htext]
    | cons y items =>
      rw [joinBy?, htext, ih, joinBy, List.flatMap_cons]
      exact whenShort_bind (whenShort_bind_pure _ _ _)

end Lists

end Text

/-! ### Words -/

namespace Spaced

/-- A word that is not wanted asks for no number. -/
lemma wordIf?_eq (s : Spaced) (wanted : Bool) {w? : Option Text} {numbers : List ℤ} {w : Text}
    (hw : w? = Text.whenShort numbers w) :
    s.wordIf? wanted w? = Text.whenShort (if wanted then numbers else []) (s.wordIf wanted w) := by
  cases wanted <;> simp [wordIf?, wordIf, hw]

end Spaced

end OpeningTimes
