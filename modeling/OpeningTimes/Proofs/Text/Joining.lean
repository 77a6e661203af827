import OpeningTimes.Rule
import Mathlib

/-!
Texts of lists that are put together.

Between two items stands what the first one of them asks for, and nothing follows the last item. So the
text of a list is made of the texts of its parts, wherever it is cut, and one item decides about no more
than the text between it and the next one. If one of the items has no text, the list has none either,
however it is cut.

* `Text.joinBy?_append`: the text of two lists, one after the other;
* `Text.joinWith?_eq_joinBy?`: a fixed separator is one that every item asks for;
* `Text.Pass`, `Text.Pass.after?`: a single pass over the items, in which the separator of an item waits for
  the next one, and what is known on the way;
* `Text.Pass.foldlM_add?`: the pass makes the text of the list;
* `Rule.textAll?_append_cons`: a list of rules, cut after one of them;
* `Text.joinBy?_append_and_textAll?`: these laws together.
-/

namespace OpeningTimes

namespace Text

variable {α : Type} {separator : α → Text} {text? : α → Option Text} {xs ys : List α}

/-! ### Parts of a list -/

lemma joinBy?_cons (x : α) (hxs : xs ≠ []) :
    joinBy? separator text? (x :: xs) = do
      let first ← text? x
      let rest ← joinBy? separator text? xs
      return first ++ separator x ++ rest := by
  obtain ⟨y, ys, rfl⟩ := List.exists_cons_of_ne_nil hxs
  rw [joinBy?]

/-- The text of two lists, one after the other. -/
lemma joinBy?_append (hx : xs ≠ []) (hy : ys ≠ []) :
    joinBy? separator text? (xs ++ ys) = do
      let first ← joinBy? separator text? xs
      let rest ← joinBy? separator text? ys
      return first ++ separator (xs.getLast hx) ++ rest := by
  induction xs with
  | nil => exact absurd rfl hx
  | cons x xs ih =>
    by_cases hxs : xs = []
    · subst hxs
      exact joinBy?_cons x hy
    · have hne : xs ++ ys ≠ [] := List.append_ne_nil_of_left_ne_nil hxs ys
      rw [List.cons_append, joinBy?_cons x hne, ih hxs, joinBy?_cons x hxs, List.getLast_cons hxs]
      simp only [bind_assoc, pure_bind, List.append_assoc]

/-- A fixed separator is one that every item asks for. -/
lemma joinWith?_eq_joinBy? (separator : Text) (text? : α → Option Text) (items : List α) :
    joinWith? separator text? items = joinBy? (fun _ => separator) text? items := by
  induction items with
  | nil => rfl
  | cons x xs ih =>
    cases xs with
    | nil => cases h : text? x <;> simp [joinWith?, joinBy?, h]
    | cons y ys =>
      rw [joinBy?, ← ih, joinWith?, joinWith?, List.mapM_cons, List.mapM_cons]
      cases text? x with
      | none => rfl
      | some u =>
        cases text? y with
        | none => rfl
        | some v => cases ys.mapM text? <;> simp [List.intercalate]

/-! ### A single pass -/

/-- A text that is made in a single pass over some items. -/
structure Pass where
  /-- What has been written. -/
  written : Text := []
  /-- What the last item asked for. It waits for the next item. -/
  pending : Option Text := none

namespace Pass

/-- One more item, after what the item before it asked for. -/
def add? (separator : α → Text) (text? : α → Option Text) (p : Pass) (x : α) : Option Pass :=
  (text? x).map fun w => ⟨p.written ++ p.pending.getD [] ++ w, some (separator x)⟩

/-- What is known after some items: their text is written, and the separator of the last one waits. -/
def after? (separator : α → Text) (text? : α → Option Text) (items : List α) : Option Pass :=
  (joinBy? separator text? items).map fun w => ⟨w, items.getLast?.map separator⟩

/-- One more item. -/
lemma after?_concat (items : List α) (x : α) :
    after? separator text? (items ++ [x]) =
      (after? separator text? items).bind fun p => p.add? separator text? x := by
  unfold after?
  by_cases hitems : items = []
  · subst hitems
    simp [joinBy?, add?]
  · rw [joinBy?_append hitems (List.cons_ne_nil x []), joinBy?, List.getLast?_concat,
      List.getLast?_eq_getLast_of_ne_nil hitems]
    cases joinBy? separator text? items with
    | none => rfl
    | some w => cases h : text? x <;> simp [add?, h]

/-- All items. -/
lemma foldlM_add? (items : List α) :
    items.foldlM (add? separator text?) {} = after? separator text? items := by
  induction items using List.reverseRecOn with
  | nil => rfl
  | append_singleton items x ih =>
    rw [List.foldlM_append, ih, after?_concat]
    simp

end Pass

end Text

namespace Rule

/-- A list of rules, cut after one of them. -/
lemma textAll?_append_cons (rules : List Rule) (x : Rule) {next : List Rule} (hnext : next ≠ []) :
    textAll? (rules ++ x :: next) = do
      let first ← textAll? (rules ++ [x])
      let rest ← textAll? next
      return first ++ x.separatorText ++ rest := by
  have hne : rules ++ [x] ≠ [] := List.append_ne_nil_of_right_ne_nil rules (List.cons_ne_nil x [])
  rw [List.append_cons, textAll?, Text.joinBy?_append hne hnext, List.getLast_append_singleton]
  rfl

/-- What separates the last rule from a next one is not written. -/
lemma textAll?_append_singleton (rules : List Rule) (x : Rule) (separator : Text) :
    textAll? (rules ++ [{ x with separator := separator }]) = textAll? (rules ++ [x]) := by
  by_cases hrules : rules = []
  · subst hrules
    rfl
  · rw [textAll?, textAll?, Text.joinBy?_append hrules (List.cons_ne_nil _ _),
      Text.joinBy?_append hrules (List.cons_ne_nil _ _)]
    rfl

end Rule

/-- The text of two lists, one after the other, is that of both with the separator of the last item of the
first list between them, and there is none if one of the lists has none. It is made in a single pass as well,
and a fixed separator is one that every item asks for. So the separator of the last rule does not matter, and
that of another rule matters only for the text between it and the next one. -/
theorem Text.joinBy?_append_and_textAll? {α : Type} :
    (∀ (separator : α → Text) (text? : α → Option Text) (xs ys : List α) (hx : xs ≠ []), ys ≠ [] →
      joinBy? separator text? (xs ++ ys) = do
        let first ← joinBy? separator text? xs
        let rest ← joinBy? separator text? ys
        return first ++ separator (xs.getLast hx) ++ rest) ∧
    (∀ (separator : α → Text) (text? : α → Option Text) (items : List α),
      (items.foldlM (Pass.add? separator text?) {}).map Pass.written = joinBy? separator text? items) ∧
    (∀ (separator : Text) (text? : α → Option Text) (items : List α),
      joinWith? separator text? items = joinBy? (fun _ => separator) text? items) ∧
    ∀ (rules : List Rule) (x : Rule) (separator : Text),
      let y := { x with separator := separator }
      Rule.textAll? (rules ++ [y]) = Rule.textAll? (rules ++ [x]) ∧
        ∀ next, next ≠ [] →
          Rule.textAll? (rules ++ y :: next) = do
            let first ← Rule.textAll? (rules ++ [x])
            let rest ← Rule.textAll? next
            return first ++ y.separatorText ++ rest := by
  refine ⟨fun _ _ _ _ hx hy => joinBy?_append hx hy, fun separator text? items => ?_,
    joinWith?_eq_joinBy?, fun rules x separator => ⟨?_, fun next hnext => ?_⟩⟩
  · rw [Pass.foldlM_add?, Pass.after?, Option.map_map]
    exact Option.map_id'
  · exact Rule.textAll?_append_singleton rules x separator
  · rw [Rule.textAll?_append_cons rules _ hnext, Rule.textAll?_append_singleton]

/-- A rule for Mondays with two bars after it, and a rule that applies always. -/
theorem Text.joinBy?_append_and_textAll?_monday :
    let x : Rule := { days := { ranges := [{ start := some .monday }] } }
    let y : Rule := { x with separator := ['|', '|'] }
    let next : List Rule := [{ always := true }]
    [y] ≠ [] ∧ next ≠ [] ∧
      joinBy? Rule.separatorText Rule.text? ([y] ++ next) = (do
        let first ← Rule.textAll? [y]
        let rest ← Rule.textAll? next
        return first ++ [' ', '|', '|', ' '] ++ rest) ∧
      Rule.textAll? (y :: next) = (do
        let first ← Rule.textAll? [x]
        let rest ← Rule.textAll? next
        return first ++ [' ', '|', '|', ' '] ++ rest) ∧
      Rule.textAll? (y :: next) = some "Mo || 24/7".toList := by
  intro x y next
  have hy : [y] ≠ [] := List.cons_ne_nil y []
  have hnext : next ≠ [] := List.cons_ne_nil _ []
  obtain ⟨happend, -, -, hrules⟩ := joinBy?_append_and_textAll? (α := Rule)
  exact ⟨hy, hnext, happend _ _ [y] next hy hnext, (hrules [] x ['|', '|']).2 next hnext,
    by decide +kernel⟩

end OpeningTimes
