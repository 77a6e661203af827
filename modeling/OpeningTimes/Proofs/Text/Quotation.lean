import OpeningTimes.Text.Basic
import Mathlib

/-!
The texts between quotes.

The quotes of a text open and close a quotation in turn. An empty quotation says nothing and does not
count.

* `Text.quotations`: what is between the first and the second quote, the third and the fourth, and so on;
* `Text.Quotes`: a text whose quotes come in pairs, with the quotations between them;
* `Text.Quotes.append`: quotations stand one after the other where texts do;
* `Text.Quotes.quotations_eq`, `Text.Quotes.even_count`: the quotations of such a text, and its quotes.
-/

namespace OpeningTimes.Text

/-- The second item of a list, the fourth, and so on. -/
def everySecond {α : Type} : List α → List α
  | _ :: x :: xs => x :: everySecond xs
  | _ => []

/-- The texts between the first and the second quote, the third and the fourth, and so on, without the
empty ones. -/
def quotations (s : Text) : List Text :=
  (everySecond (s.splitOn '"')).filter fun c => !c.isEmpty

/-- What a single quotation says, which is nothing if it is empty. -/
def stated (c : Text) : List Text :=
  [c].filter fun c => !c.isEmpty

/-- A text whose quotes come in pairs, with the quotations between them. -/
inductive Quotes : Text → List Text → Prop where
  | plain {s : Text} (hs : '"' ∉ s) : Quotes s []
  | quotation {a c s : Text} {cs : List Text} (ha : '"' ∉ a) (hc : '"' ∉ c) (hs : Quotes s cs) :
    Quotes (a ++ '"' :: (c ++ '"' :: s)) (stated c ++ cs)

namespace Quotes

variable {s u a c : Text} {cs ds : List Text}

lemma plain_append (ha : '"' ∉ a) (h : Quotes s cs) : Quotes (a ++ s) cs := by
  have happ : ∀ {b : Text}, '"' ∉ b → '"' ∉ a ++ b := fun hb => by simp [ha, hb]
  cases h with
  | plain hs => exact .plain (happ hs)
  | quotation hb hc hs =>
    rw [← List.append_assoc]
    exact .quotation (happ hb) hc hs

/-- Where two texts stand one after the other, so do their quotations. -/
theorem append (hs : Quotes s cs) (hu : Quotes u ds) : Quotes (s ++ u) (cs ++ ds) := by
  induction hs with
  | plain ha => exact hu.plain_append ha
  | quotation ha hc _ ih =>
    rw [List.append_assoc, List.append_assoc, List.cons_append, List.append_assoc, List.cons_append]
    exact .quotation ha hc ih

/-- A text between two quotes is one quotation. -/
lemma quoted (hc : '"' ∉ c) : Quotes ('"' :: c ++ ['"']) (stated c) := by
  have h := Quotes.quotation (a := []) (s := []) (by simp) hc (.plain (by simp))
  rwa [List.append_nil, List.nil_append] at h

/-- The quotations of a text whose quotes come in pairs are what is between the quotes of each pair. -/
theorem quotations_eq (h : Quotes s cs) : quotations s = cs := by
  have hsplit : ∀ {a : Text} (u : Text), '"' ∉ a →
      (a ++ '"' :: u).splitOn '"' = a :: u.splitOn '"' := by
    intro a u ha
    rw [List.splitOn_eq_splitOnP, List.splitOn_eq_splitOnP]
    refine List.splitOnP_append_cons_of_forall_mem (fun c hc => ?_) '"' (by simp) u
    exact beq_false_of_ne fun he => ha (he ▸ hc)
  induction h with
  | @plain s hs =>
    have hone : s.splitOn '"' = [s] := by
      rw [List.splitOn_eq_splitOnP]
      exact List.splitOnP_eq_singleton fun c hc => beq_false_of_ne fun he => hs (he ▸ hc)
    rw [quotations, hone]
    rfl
  | @quotation a c s cs ha hc _ ih =>
    rw [quotations, hsplit _ ha, hsplit _ hc, everySecond, ← List.singleton_append, List.filter_append,
      ← ih]
    rfl

lemma even_count (h : Quotes s cs) : Even (s.count '"') := by
  induction h with
  | plain hs =>
    rw [List.count_eq_zero.mpr hs]
    exact Even.zero
  | @quotation a c s cs ha hc _ ih =>
    rw [List.count_append, List.count_cons_self, List.count_append, List.count_cons_self,
      List.count_eq_zero.mpr ha, List.count_eq_zero.mpr hc]
    have htwo : 0 + (0 + (s.count '"' + 1) + 1) = s.count '"' + 2 := by omega
    rw [htwo]
    exact ih.add even_two

end Quotes

end OpeningTimes.Text
