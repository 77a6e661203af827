import OpeningTimes.Proofs.Text.Marks
import OpeningTimes.Proofs.Text.Quotation
import OpeningTimes.Text.SpaceLatch

/-!
The layout of a written text: words with single spaces between them.

A text is built of words and quotations, which either touch or have a space between them. What is between
quotes may be anything, so the layout is one of what is outside of them.

* `Text.outside`: a text without what is between its quotes;
* `Text.LaidOut`: the layout of a text;
* `Text.laidOut_word`, `Text.laidOut_quotation`: what a text is built of;
* `Text.LaidOut.append`, `Text.LaidOut.space`: how it is built;
* `Spaced.LaidOut`: the invariant of a text under construction, which every step keeps.
-/

namespace OpeningTimes

namespace Text

/-- What is outside of the quotations of a text, with the quotes. It has to be said whether the text begins
between quotes. -/
def outsideFrom (inside : Bool) : Text → Text
  | [] => []
  | c :: s =>
    if c = '"' then c :: outsideFrom (!inside) s
    else if inside then outsideFrom inside s
    else c :: outsideFrom inside s

/-- A text without what is between its quotes. The quotes are left, so characters that are neighbours
have been neighbours before. -/
abbrev outside (s : Text) : Text :=
  outsideFrom false s

/-- A text has a layout if it is not empty, begins and ends without a space, and if between its quotations
there are only characters of the basic script, of which the only blank is the space, and nowhere two spaces
in a row. -/
structure LaidOut (s : Text) : Prop where
  quotes : ∃ cs, Quotes s cs
  ne_nil : s ≠ []
  head : ∀ c ∈ s.head?, c ≠ ' '
  last : ∀ c ∈ s.getLast?, c ≠ ' '
  ascii : ∀ c ∈ outside s, c.toNat < 128
  blank : ∀ c ∈ outside s, isSpace c = true → c = ' '
  single : (outside s).IsChain fun c d => c = ' ' → d ≠ ' '

variable {s a b c w : Text} {cs : List Text}

/-! ### What is outside of quotations -/

lemma outsideFrom_append_of_not_mem (ha : '"' ∉ a) (inside : Bool) (s : Text) :
    outsideFrom inside (a ++ s) = (if inside then [] else a) ++ outsideFrom inside s := by
  induction a with
  | nil => simp
  | cons c a ih =>
    simp only [List.mem_cons, not_or] at ha
    rw [List.cons_append, outsideFrom, if_neg (Ne.symm ha.1), ih ha.2]
    cases inside <;> rfl

/-- Between quotes there is nothing left. -/
lemma outside_quotation (ha : '"' ∉ a) (hc : '"' ∉ c) (s : Text) :
    outside (a ++ '"' :: (c ++ '"' :: s)) = a ++ '"' :: '"' :: outside s := by
  rw [outside, outsideFrom_append_of_not_mem ha, outsideFrom, if_pos rfl, Bool.not_false,
    outsideFrom_append_of_not_mem hc, outsideFrom, if_pos rfl]
  rfl

lemma outside_of_not_mem (hs : '"' ∉ s) : outside s = s := by
  have := outsideFrom_append_of_not_mem hs false []
  rwa [List.append_nil, if_neg Bool.false_ne_true, outsideFrom, List.append_nil] at this

/-- Where quotes come in pairs the next text begins outside of them. -/
lemma Quotes.outside_append (h : Quotes a cs) (b : Text) : outside (a ++ b) = outside a ++ outside b := by
  induction h with
  | plain ha =>
    rw [outside_of_not_mem ha]
    exact outsideFrom_append_of_not_mem ha false b
  | @quotation a c s cs ha hc _ ih =>
    have happend : (a ++ '"' :: (c ++ '"' :: s)) ++ b = a ++ '"' :: (c ++ '"' :: (s ++ b)) := by simp
    rw [happend, outside_quotation ha hc, outside_quotation ha hc, ih]
    simp

lemma head?_outside (s : Text) : (outside s).head? = s.head? := by
  cases s with
  | nil => rfl
  | cons c s =>
    rw [outside, outsideFrom]
    split
    · rfl
    · rfl

lemma Quotes.getLast?_outside (h : Quotes s cs) : (outside s).getLast? = s.getLast? := by
  induction h with
  | plain hs => rw [outside_of_not_mem hs]
  | @quotation a c s cs ha hc _ ih =>
    rw [outside_quotation ha hc]
    simp [List.getLast?_append, List.getLast?_cons, ih]

/-! ### What a text is built of -/

/-- A word of marks. -/
lemma laidOut_word (hne : w ≠ []) (hw : Marked w) : LaidOut w := by
  have hquote : '"' ∉ w := hw.quote_not_mem
  have hblank : ∀ c ∈ w, c ≠ ' ' := fun c hc => (of_isMark (hw c hc)).2.2.1
  refine ⟨⟨[], .plain hquote⟩, hne, fun c hc => hblank c (List.mem_of_mem_head? hc),
    fun c hc => hblank c (List.mem_of_mem_getLast? hc), ?_, ?_, ?_⟩
  all_goals rw [outside_of_not_mem hquote]
  · exact fun c hc => (of_isMark (hw c hc)).1
  · intro c hc hspace
    rw [(of_isMark (hw c hc)).2.1] at hspace
    cases hspace
  · exact (List.pairwise_of_forall_mem_list fun c hc d _ h => absurd h (hblank c hc)).isChain

/-- Anything between two quotes. -/
lemma laidOut_quotation (hc : '"' ∉ c) : LaidOut ('"' :: c ++ ['"']) := by
  have houtside : outside ('"' :: c ++ ['"']) = ['"', '"'] :=
    outside_quotation (a := []) (by simp) hc []
  refine ⟨⟨_, .quoted hc⟩, by simp, by simp, ?_, ?_, ?_, ?_⟩
  · rw [List.getLast?_concat]
    simp
  all_goals rw [houtside]
  · simp
  · decide
  · simp

/-! ### How a text is built -/

namespace LaidOut

/-- Two texts that touch. -/
lemma append (ha : LaidOut a) (hb : LaidOut b) : LaidOut (a ++ b) := by
  obtain ⟨cs, hcs⟩ := ha.quotes
  obtain ⟨ds, hds⟩ := hb.quotes
  refine ⟨⟨_, hcs.append hds⟩, by simp [ha.ne_nil], ?_, ?_, ?_, ?_, ?_⟩
  · rw [List.head?_append_of_ne_nil _ ha.ne_nil]
    exact ha.head
  · rw [List.getLast?_append_of_ne_nil _ hb.ne_nil]
    exact hb.last
  all_goals rw [hcs.outside_append]
  · exact List.forall_mem_append.mpr ⟨ha.ascii, hb.ascii⟩
  · exact List.forall_mem_append.mpr ⟨ha.blank, hb.blank⟩
  · refine List.isChain_append.mpr ⟨ha.single, hb.single, fun x _ y hy _ => ?_⟩
    rw [head?_outside] at hy
    exact hb.head y hy

/-- Two texts with a space between them. -/
lemma space (ha : LaidOut a) (hb : LaidOut b) : LaidOut (a ++ ' ' :: b) := by
  obtain ⟨cs, hcs⟩ := ha.quotes
  obtain ⟨ds, hds⟩ := hb.quotes
  have houtside : outside (a ++ ' ' :: b) = outside a ++ ' ' :: outside b :=
    hcs.outside_append (' ' :: b)
  have hquote : '"' ∉ [' '] := by decide
  refine ⟨⟨_, hcs.append (hds.plain_append hquote)⟩, by simp, ?_, ?_, ?_, ?_, ?_⟩
  · rw [List.head?_append_of_ne_nil _ ha.ne_nil]
    exact ha.head
  · rw [List.getLast?_append_of_ne_nil _ (List.cons_ne_nil ' ' b),
      List.getLast?_cons_of_ne_nil hb.ne_nil]
    exact hb.last
  all_goals rw [houtside]
  · exact List.forall_mem_append.mpr ⟨ha.ascii, List.forall_mem_cons.mpr ⟨by decide, hb.ascii⟩⟩
  · exact List.forall_mem_append.mpr ⟨ha.blank, List.forall_mem_cons.mpr ⟨fun _ => rfl, hb.blank⟩⟩
  · refine List.isChain_append.mpr ⟨ha.single, List.isChain_cons.mpr ⟨fun y hy _ => ?_, hb.single⟩,
      fun x hx _ _ hspace => ?_⟩
    · rw [head?_outside] at hy
      exact hb.head y hy
    · rw [hcs.getLast?_outside] at hx
      exact absurd hspace (ha.last x hx)

/-- A mark in front. -/
lemma cons {m : Char} (hm : isMark m = true) (hs : LaidOut s) : LaidOut (m :: s) :=
  (laidOut_word (List.cons_ne_nil m []) (marked_cons.mpr ⟨hm, marked_nil⟩)).append hs

/-- A list of texts. -/
lemma listed {α : Type} {f : α → Text} {xs : List α} (hne : xs ≠ []) (hf : ∀ x ∈ xs, LaidOut (f x)) :
    LaidOut (Text.listed f xs) := by
  have hcomma : LaidOut [','] := laidOut_word (by simp) (by decide)
  induction xs with
  | nil => exact absurd rfl hne
  | cons x xs ih =>
    rw [List.forall_mem_cons] at hf
    cases xs with
    | nil => simpa [joinWith] using hf.1
    | cons y ys =>
      have hcons : Text.listed f (x :: y :: ys) = f x ++ [','] ++ ' ' :: Text.listed f (y :: ys) := by
        rw [Text.listed, joinWith_cons_cons, List.append_assoc]
        rfl
      rw [hcons]
      exact (hf.1.append hcomma).space (ih (List.cons_ne_nil y ys) hf.2)

end LaidOut

end Text

/-! ### Texts under construction -/

namespace Spaced

/-- A text under construction has a layout once it has been begun, and the latch tells whether it has. -/
structure LaidOut (s : Spaced) : Prop where
  idle : s.latch.asked = false → s.text = []
  begun : s.latch.asked = true → Text.LaidOut s.text

variable {s : Spaced} {w : Text} {wanted : Bool}

lemma laidOut_empty : LaidOut {} :=
  ⟨fun _ => rfl, nofun⟩

/-- A word begins the text or stands after a space. -/
lemma LaidOut.word (hs : s.LaidOut) (hw : Text.LaidOut w) : (s.word w).LaidOut := by
  refine ⟨nofun, fun _ => ?_⟩
  cases hasked : s.latch.asked with
  | false =>
    have htext : (s.word w).text = w := by
      simp [Spaced.word, SpaceLatch.ask, SpaceLatch.space, hasked, hs.idle hasked]
    rwa [htext]
  | true =>
    have htext : (s.word w).text = s.text ++ ' ' :: w := by
      simp [Spaced.word, SpaceLatch.ask, SpaceLatch.space, hasked]
    rw [htext]
    exact (hs.begun hasked).space hw

lemma LaidOut.wordIf (hs : s.LaidOut) (hw : wanted = true → Text.LaidOut w) :
    (s.wordIf wanted w).LaidOut := by
  cases wanted with
  | false => exact hs
  | true => exact hs.word (hw rfl)

/-- What touches the last word needs one. -/
lemma LaidOut.glueIf (hs : s.LaidOut) (hasked : wanted = true → s.latch.asked = true)
    (hw : Text.LaidOut w) : (s.glueIf wanted w).LaidOut := by
  cases wanted with
  | false => exact hs
  | true =>
    refine ⟨fun h => ?_, fun h => (hs.begun h).append hw⟩
    have hlatch : (s.glueIf true w).latch.asked = s.latch.asked := rfl
    rw [hlatch, hasked rfl] at h
    cases h

end Spaced

end OpeningTimes
