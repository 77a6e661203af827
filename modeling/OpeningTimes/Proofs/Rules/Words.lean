import OpeningTimes.Proofs.Rules.Text
import OpeningTimes.Proofs.Text.Marks

/-!
The words of a rule.

Names, numbers, moments and ranges of numbers are written without a space between their parts, and a name
or a moment is never written as nothing.

* `Weekday.marked_text`, `Month.marked_text`, `MovableDate.marked_text`, `Event.marked_text`: names;
* `Time.marked_text`, `Timespan.marked_text`: moments and spans of time;
* `YearRange.marked_text`, `WeekRange.marked_text`, `NthRange.marked_text`: ranges of numbers.
-/

namespace OpeningTimes

open Text

/-! ### Names -/

lemma Weekday.marked_text (d : Option Weekday) : Marked (text d) := by
  rcases d with _ | d
  · decide
  · cases d <;> decide

lemma Weekday.text_ne_nil (d : Option Weekday) : text d ≠ [] := by
  rcases d with _ | d
  · decide
  · cases d <;> decide

lemma Month.marked_text (m : Option Month) : Marked (text m) := by
  rcases m with _ | m
  · decide
  · cases m <;> decide

lemma Month.text_ne_nil (m : Option Month) : text m ≠ [] := by
  rcases m with _ | m
  · decide
  · cases m <;> decide

lemma MovableDate.marked_text (m : Option MovableDate) : Marked (text m) := by
  rcases m with _ | m
  · decide
  · cases m
    decide

lemma MovableDate.text_ne_nil (m : Option MovableDate) : text m ≠ [] := by
  rcases m with _ | m
  · decide
  · cases m
    decide

lemma Event.marked_text (e : Option Event) : Marked (text e) := by
  rcases e with _ | e
  · decide
  · cases e <;> decide

lemma Event.text_ne_nil (e : Option Event) : text e ≠ [] := by
  rcases e with _ | e
  · decide
  · cases e <;> decide

/-! ### Moments -/

lemma Time.marked_text (t : Time) : Marked t.text := by
  have hclock : ∀ n, Marked (clockText n) := fun n =>
    marked_append.mpr ⟨marked_padded _ 2, marked_cons.mpr ⟨rfl, marked_padded _ 2⟩⟩
  have hoffset : ∀ n, Marked (offsetText n) := fun n =>
    marked_append.mpr ⟨marked_padded _ 2, marked_cons.mpr ⟨rfl, marked_padded _ 2⟩⟩
  have hsign : ∀ n, Marked (signText n) := by
    intro n
    rw [signText]
    split <;> decide
  have hunset : Marked ['h', 'h', ':', 'm', 'm'] := by decide
  rw [text]
  cases t.kind with
  | unset => exact hunset
  | minutes => exact marked_padded _ 2
  | clock => exact hclock _
  | event => exact Event.marked_text t.event
  | eventOffset => simp [isMark, hoffset, hsign, Event.marked_text]

lemma Time.text_ne_nil (t : Time) : t.text ≠ [] := by
  rw [text]
  cases t.kind <;> simp [clockText, Event.text_ne_nil, padded_ne_nil]

lemma Timespan.marked_text (s : Timespan) : Marked s.text := by
  rw [text]
  split_ifs <;> simp [isMark, Time.marked_text]

/-! ### Ranges of numbers -/

lemma Period.marked_text (p : ℤ) : Marked (text p) := by
  rw [text]
  split_ifs <;> simp [isMark]

lemma YearRange.marked_text (y : YearRange) : Marked y.text := by
  rw [text]
  split_ifs <;> simp [isMark, Period.marked_text]

lemma WeekRange.marked_text (w : WeekRange) : Marked w.text := by
  rw [text]
  split_ifs <;> simp [isMark, Period.marked_text]

lemma NthRange.marked_text (n : NthRange) : Marked n.text := by
  rw [text, Nth.text, Nth.text]
  split_ifs <;> simp [isMark]

end OpeningTimes
