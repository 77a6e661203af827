import OpeningTimes.Proofs.Text.Character

/-!
Other blanks between the same words.

Where there are blanks in a text there could be any others, but there could not be none. In a comment
every character stands for itself.

* `RespacedFrom`: a text with other blanks before some of its characters;
* `Respaced`: a text with other blanks between its first and its last character that is none;
* `RespacedFrom.exists_of_append`, `RespacedFrom.takeWhile_eq`, `RespacedFrom.dropWhile`: the parts of
  such a text;
* `Respaced.respacedFrom`, `Respaced.head?_eq`, `Respaced.getLast?_eq`: both ends stay as they are.
-/

namespace OpeningTimes

open Text

/-- A text with other blanks. Each of its runs of blanks is another run of blanks, and none of them gets
lost. The blanks at its end stay as they are, and so does what stands between two quotes. It is given
whether the text begins inside of a comment. -/
inductive RespacedFrom : Bool → Text → Text → Prop where
  | ending {inside : Bool} {b : Text} (hb : ∀ c ∈ b, isBlank c = true) : RespacedFrom inside b b
  | quote {inside : Bool} {s u : Text} (hs : RespacedFrom (!inside) s u) :
    RespacedFrom inside ('"' :: s) ('"' :: u)
  | inside {c : Char} {s u : Text} (hc : c ≠ '"') (hs : RespacedFrom true s u) :
    RespacedFrom true (c :: s) (c :: u)
  | outside {c : Char} {s u : Text} (hc : c ≠ '"') (hblank : isBlank c = false)
    (hs : RespacedFrom false s u) : RespacedFrom false (c :: s) (c :: u)
  | blanks {b b' : Text} {c : Char} {s u : Text} (hne : b ≠ []) (hne' : b' ≠ [])
    (hb : ∀ d ∈ b, isBlank d = true) (hb' : ∀ d ∈ b', isBlank d = true) (hc : isBlank c = false)
    (hs : RespacedFrom false (c :: s) (c :: u)) : RespacedFrom false (b ++ c :: s) (b' ++ c :: u)

/-- A text with other blanks between its words. The blanks at both of its ends stay as they are. -/
inductive Respaced : Text → Text → Prop where
  | intro {b s u : Text} (hb : ∀ c ∈ b, isBlank c = true) (hs : ∀ c ∈ s.head?, isBlank c = false)
    (h : RespacedFrom false s u) : Respaced (b ++ s) (b ++ u)

namespace RespacedFrom

variable {inside : Bool} {s u w r : Text} {c : Char} {p : Char → Bool}

/-! ### The beginning of such a text -/

/-- A character that is neither a quote nor a blank stays in its place. -/
lemma exists_of_cons (h : RespacedFrom false (c :: s) u) (hc : c ≠ '"') (hblank : isBlank c = false) :
    ∃ v, u = c :: v ∧ RespacedFrom false s v := by
  generalize hx : c :: s = x at h
  cases h with
  | ending hb =>
    subst hx
    rw [hb c (by simp)] at hblank
    cases hblank
  | quote _ => exact absurd (List.cons.inj hx).1 hc
  | outside _ _ hs =>
    obtain ⟨rfl, rfl⟩ := List.cons.inj hx
    exact ⟨_, rfl, hs⟩
  | @blanks b _ _ _ _ hne _ hb _ _ _ =>
    obtain ⟨d, b, rfl⟩ := List.exists_cons_of_ne_nil hne
    obtain ⟨rfl, -⟩ := List.cons.inj hx
    rw [hb c (by simp)] at hblank
    cases hblank

/-- A word or a number at the beginning of a text stays as it is. -/
lemma exists_of_append (h : RespacedFrom false (w ++ r) u)
    (hw : ∀ c ∈ w, c ≠ '"' ∧ isBlank c = false) : ∃ q, u = w ++ q ∧ RespacedFrom false r q := by
  induction w generalizing u with
  | nil => exact ⟨u, rfl, h⟩
  | cons c w ih =>
    rw [List.forall_mem_cons] at hw
    obtain ⟨v, rfl, hv⟩ := h.exists_of_cons hw.1.1 hw.1.2
    obtain ⟨q, rfl, hq⟩ := ih hv hw.2
    exact ⟨q, rfl, hq⟩

/-- A quote stays in its place. -/
lemma exists_of_quote (h : RespacedFrom inside ('"' :: s) u) :
    ∃ v, u = '"' :: v ∧ RespacedFrom (!inside) s v := by
  generalize hx : '"' :: s = x at h
  cases h with
  | ending hb =>
    subst hx
    exact absurd (hb '"' (by simp)) (by decide)
  | quote hs =>
    obtain ⟨-, rfl⟩ := List.cons.inj hx
    exact ⟨_, rfl, hs⟩
  | inside hc _ | outside hc _ _ => exact absurd (List.cons.inj hx).1.symm hc
  | @blanks b _ _ _ _ hne _ hb _ _ _ =>
    obtain ⟨d, b, rfl⟩ := List.exists_cons_of_ne_nil hne
    obtain ⟨rfl, -⟩ := List.cons.inj hx
    exact absurd (hb '"' (by simp)) (by decide)

/-- A comment at the beginning of a text stays as it is. -/
lemma exists_of_comment (h : RespacedFrom false ('"' :: w ++ '"' :: r) u) (hw : '"' ∉ w) :
    ∃ q, u = '"' :: w ++ '"' :: q ∧ RespacedFrom false r q := by
  obtain ⟨v, hv, hs⟩ := exists_of_quote (s := w ++ '"' :: r) h
  suffices hrest : ∃ q, v = w ++ '"' :: q ∧ RespacedFrom false r q by
    obtain ⟨q, rfl, hq⟩ := hrest
    exact ⟨q, hv, hq⟩
  clear hv h
  induction w generalizing v with
  | nil => exact exists_of_quote hs
  | cons c w ih =>
    rw [List.mem_cons, not_or] at hw
    generalize hx : c :: w ++ '"' :: r = x at hs
    cases hs with
    | ending hb => exact absurd (hb '"' (hx ▸ by simp)) (by decide)
    | quote _ => exact absurd (List.cons.inj hx).1.symm hw.1
    | inside _ hs =>
      obtain ⟨rfl, rfl⟩ := List.cons.inj hx
      obtain ⟨q, rfl, hq⟩ := ih hw.2 _ hs
      exact ⟨q, rfl, hq⟩

/-- Where no quality of a blank is looked for, the same characters are found. -/
lemma takeWhile_eq (h : RespacedFrom inside s u) (hp : ∀ c, isBlank c = true → p c = false) :
    u.takeWhile p = s.takeWhile p := by
  have hnone : ∀ {b m : Text}, b ≠ [] → (∀ c ∈ b, isBlank c = true) → (b ++ m).takeWhile p = [] := by
    intro b m hne hb
    obtain ⟨c, b, rfl⟩ := List.exists_cons_of_ne_nil hne
    exact List.takeWhile_cons_of_neg (by simp [hp c (hb c (by simp))])
  induction h with
  | ending => rfl
  | quote _ ih | inside _ _ ih | outside _ _ _ ih => rw [List.takeWhile_cons, List.takeWhile_cons, ih]
  | blanks hne hne' hb hb' _ _ _ => rw [hnone hne hb, hnone hne' hb']

/-- A quality that no blank has is one of the first character, or is not. -/
lemma head (h : RespacedFrom inside s u) (hp : ∀ c, isBlank c = true → p c = false)
    (hs : ∀ c ∈ s.head?, p c = false) : ∀ c ∈ u.head?, p c = false := by
  cases h with
  | ending => exact hs
  | quote | inside | outside => exact hs
  | @blanks _ b' _ _ _ _ hne' _ hb' _ _ =>
    obtain ⟨c, b', rfl⟩ := List.exists_cons_of_ne_nil hne'
    rintro d ⟨⟩
    exact hp c (hb' c (by simp))

/-- What is left after all characters of a quality that every blank has is a text with other blanks. -/
lemma dropWhile (h : RespacedFrom false s u) (hp : ∀ c, isBlank c = true → p c = true)
    (hq : p '"' = false) : RespacedFrom false (s.dropWhile p) (u.dropWhile p) := by
  generalize hi : false = inside at h
  induction h with
  | ending hb => exact .ending fun c hc => hb c ((List.dropWhile_sublist p).subset hc)
  | quote hs _ =>
    subst hi
    rw [List.dropWhile_cons_of_neg (by simp [hq]), List.dropWhile_cons_of_neg (by simp [hq])]
    exact .quote hs
  | inside => cases hi
  | @outside c s u hc hblank hs ih =>
    by_cases hpc : p c = true
    · rw [List.dropWhile_cons_of_pos hpc, List.dropWhile_cons_of_pos hpc]
      exact ih rfl
    · rw [List.dropWhile_cons_of_neg hpc, List.dropWhile_cons_of_neg hpc]
      exact .outside hc hblank hs
  | blanks _ _ hb hb' _ _ ih =>
    rw [List.dropWhile_append_of_pos fun c hc => hp c (hb c hc),
      List.dropWhile_append_of_pos fun c hc => hp c (hb' c hc)]
    exact ih rfl

/-- No blank has to change. -/
lemma refl (inside : Bool) (s : Text) : RespacedFrom inside s s := by
  induction s generalizing inside with
  | nil => exact .ending (by simp)
  | cons c s ih =>
    by_cases hc : c = '"'
    · subst hc
      exact .quote (ih _)
    cases inside with
    | true => exact .inside hc (ih true)
    | false =>
      by_cases hblank : isBlank c = true
      · have hrun : ∀ d ∈ c :: s.takeWhile isBlank, isBlank d = true :=
          List.forall_mem_cons.mpr ⟨hblank, fun d hd => List.mem_takeWhile_imp hd⟩
        have hrest := (ih false).dropWhile (p := isBlank) (fun _ h => h) rfl
        rw [← List.takeWhile_append_dropWhile (p := isBlank) (l := s), ← List.cons_append]
        cases hd : s.dropWhile isBlank with
        | nil =>
          rw [List.append_nil]
          exact .ending hrun
        | cons d r =>
          have hhead := List.head?_dropWhile_not isBlank s
          rw [hd] at hhead hrest
          exact .blanks (List.cons_ne_nil _ _) (List.cons_ne_nil _ _) hrun hrun hhead hrest
      · exact .outside hc (Bool.eq_false_iff.mpr hblank) (ih false)

/-! ### Both ends of such a text -/

/-- A text that begins with no blank begins with the same character. -/
lemma head?_eq (h : RespacedFrom inside s u) (hs : ∀ c ∈ s.head?, isBlank c = false) :
    u.head? = s.head? := by
  cases h with
  | ending | quote | inside | outside => rfl
  | blanks hne _ hb _ _ _ =>
    obtain ⟨c, b, rfl⟩ := List.exists_cons_of_ne_nil hne
    have := hs c rfl
    rw [hb c (by simp)] at this
    cases this

lemma getLast?_eq (h : RespacedFrom inside s u) : u.getLast? = s.getLast? := by
  induction h with
  | ending => rfl
  | quote _ ih | inside _ _ ih | outside _ _ _ ih => rw [List.getLast?_cons, List.getLast?_cons, ih]
  | blanks _ _ _ _ _ _ ih =>
    rw [List.getLast?_append_of_ne_nil _ (List.cons_ne_nil _ _),
      List.getLast?_append_of_ne_nil _ (List.cons_ne_nil _ _), ih]

lemma eq_nil (h : RespacedFrom inside [] u) : u = [] := by
  rw [← List.getLast?_eq_none_iff, h.getLast?_eq]
  rfl

end RespacedFrom

namespace Respaced

variable {s u : Text}

/-- The blanks at the beginning are a run of blanks like the others. -/
lemma respacedFrom (h : Respaced s u) : RespacedFrom false s u := by
  obtain @⟨b, s, u, hb, hs, h⟩ := h
  cases s with
  | nil =>
    obtain rfl := h.eq_nil
    rw [List.append_nil]
    exact .ending hb
  | cons c s =>
    have hc : isBlank c = false := hs c rfl
    obtain ⟨v, rfl⟩ : ∃ v, u = c :: v := by
      have := h.head?_eq hs
      exact List.head?_eq_some_iff.mp this
    by_cases hne : b = []
    · subst hne
      exact h
    · exact .blanks hne hne hb hb hc h

lemma head?_eq (h : Respaced s u) : u.head? = s.head? := by
  obtain @⟨b, s, u, -, hs, h⟩ := h
  rw [List.head?_append, List.head?_append, h.head?_eq hs]

lemma getLast?_eq (h : Respaced s u) : u.getLast? = s.getLast? :=
  h.respacedFrom.getLast?_eq

end Respaced

end OpeningTimes
