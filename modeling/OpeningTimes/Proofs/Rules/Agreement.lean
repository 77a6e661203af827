import OpeningTimes.Proofs.Rules.Comments

/-!
The ways to read a field agree.

A field can be read for its rules, for its canonical text, or for a schedule. Only the last two count the
quotes first. But the grammar takes quotes in pairs alone, so nothing is lost by that.

* `Part.odd_count_of_derives`: what is left of a text with a quote left over has one left over;
* `Field.read_of_odd`: such a text is not readable;
* `Field.read_agrees`: rules, canonical text and schedule are those of the same field, or all fail alike.
-/

namespace OpeningTimes

open Grammar Text

/-- If a quote is left over in a text, it is left over in what any of its parts leaves. -/
lemma Part.odd_count_of_derives {α : Type} {g : Part α} {s r : Text} {v : Except BuildError α}
    (h : fieldGrammar.Derives g s v r) (hs : Odd (s.count '"')) : Odd (r.count '"') := by
  refine h.kept (T := fun s => Odd (s.count '"')) (fun t s w r hs h => ?_) hs
  obtain ⟨b, hb, rfl, -⟩ := Terminal.exists_blanks_of_scan h
  have hblank : b.count '"' = 0 := List.count_eq_zero.mpr (not_mem_of_forall hb rfl)
  rw [List.count_append, List.count_append, hblank, zero_add] at hs
  exact (Nat.odd_add'.mp hs).mpr (Terminal.even_count_of_lexeme (t := t) h)

namespace Field

variable {f : Text}

lemma count_trimField (f : Text) : (trimField f).count '"' = f.count '"' := by
  obtain ⟨a, b, hf, hmargin⟩ := exists_margins f
  have ha : a.count '"' = 0 :=
    List.count_eq_zero.mpr (not_mem_of_forall (fun c hc => hmargin c (Or.inl hc)) rfl)
  have hb : b.count '"' = 0 :=
    List.count_eq_zero.mpr (not_mem_of_forall (fun c hc => hmargin c (Or.inr hc)) rfl)
  conv_rhs => rw [hf]
  rw [List.count_append, List.count_append, ha, hb, zero_add, add_zero]

/-- A field in which a quote is left over is not readable. -/
lemma read_of_odd (hf : Odd (f.count '"')) : read f = .error (.unreadable (trimField f)) := by
  refine (read_unreadable_or f).resolve_right ?_
  rintro ⟨v, ⟨r, hd, hr⟩, -⟩
  have hodd := Part.odd_count_of_derives hd (by rwa [count_trimField])
  have hzero : r.count '"' = 0 :=
    List.count_eq_zero.mpr (not_mem_of_forall (List.all_eq_true.mp hr) rfl)
  rw [hzero] at hodd
  exact absurd hodd (by decide)

/-- The field of a schedule of rules is their text. -/
lemma ofRules_eq_ok {R : List Rule} {t : Text} (ht : write R = .ok t) :
    Schedule.ofRules R = .ok ⟨t, R, t, ht⟩ := by
  unfold Schedule.ofRules
  split
  · next h => cases ht.symm.trans h
  · next h =>
    obtain rfl := Except.ok.inj (ht.symm.trans h)
    rfl

/-- Where a quote is left over in a field, all ways to read it fail, and the ones that count the quotes
say so. Otherwise they all fail alike, or the field has rules, and all of them lead to the same canonical
text, in which no quote is left over. -/
theorem read_agrees (f : Text) :
    (Odd (f.count '"') ∧ read f = .error (.unreadable (trimField f)) ∧
      canonical f = .error .oddQuotes ∧ Schedule.ofInput (some f) = .error (.field .oddQuotes)) ∨
    (Even (f.count '"') ∧ ∃ e, read f = .error e ∧ canonical f = .error e ∧
      Schedule.ofInput (some f) = .error (.field e)) ∨
    (Even (f.count '"') ∧ ∃ (R : List Rule) (t : Text) (h : write R = .ok t),
      read f = .ok R ∧ canonical f = .ok t ∧ Schedule.ofInput (some f) = .ok ⟨f, R, t, h⟩ ∧
      Schedule.ofRules R = .ok ⟨t, R, t, h⟩ ∧ Even (t.count '"')) := by
  rcases Nat.even_or_odd (f.count '"') with heven | hodd
  · have hcheck := check_of_even heven
    cases hR : read f with
    | error e =>
      refine Or.inr (Or.inl ⟨heven, e, rfl, ?_, ?_⟩)
      · simp [canonical, hcheck, hR, bind, Except.bind]
      · simp [Schedule.ofInput, Schedule.ofField, hcheck, hR, bind, Except.bind, Except.mapError]
    | ok R =>
      have hwrite := write_of_read hR
      refine Or.inr (Or.inr ⟨heven, R, Rule.textAll R, hwrite, rfl, ?_, ?_, ofRules_eq_ok hwrite, ?_⟩)
      · exact canonical_eq_ok_iff.mpr ⟨hcheck, R, hR, rfl⟩
      · rw [Schedule.ofInput, ofField_eq_ok hcheck hR hwrite]
        rfl
      · exact (Rule.quotes_textAll (chained_of_read hR)).even_count
  · have hcheck := check_of_odd hodd
    refine Or.inl ⟨hodd, read_of_odd hodd, ?_, ?_⟩
    · simp [canonical, hcheck, bind, Except.bind]
    · simp [Schedule.ofInput, Schedule.ofField, hcheck, bind, Except.bind, Except.mapError]

end Field

end OpeningTimes
