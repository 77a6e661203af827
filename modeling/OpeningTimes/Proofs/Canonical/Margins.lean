import OpeningTimes.Proofs.Canonical.Rule
import OpeningTimes.Proofs.Field.Lexeme

/-!
The margins of a field.

* `Phrase.only`, `Grammar.Derives.exists_taken`: what is true of the texts of terminals is true of what a
  phrase without calls takes away, if it goes over to texts that are put together;
* `Terminal.isPlain_of_scan`: a terminal has no margins and no quotes in it, if it is neither a comment
  nor a separator of rules;
* `Part.taken_of_derives_rule`: a rule ends with no margin, and has an even number of quotes in it;
* `Text.trimField_of_endsPlain`, `Part.derives_dropMargins_iff`: a field that ends with no margin means the
  same with and without the margins before it.
-/

namespace OpeningTimes

open Grammar Text

/-! ### What a phrase takes away -/

/-- Whether a phrase has no calls, and all its terminals have a property. -/
def Phrase.only {τ ν ρ ε : Type} (p : τ → Bool) : {α : Type} → Phrase τ ν ρ ε α → Bool
  | _, .terminal t => p t
  | _, .call _ => false
  | _, .build _ g => g.only p
  | _, .seq g h => g.only p && h.only p
  | _, .alt g h => g.only p && h.only p
  | _, .opt g => g.only p
  | _, .many mark g => p mark && g.only p

/-- A property of texts that goes over to texts that are put together is one of what a phrase takes
away, if it is one of what each terminal takes away. -/
lemma Grammar.Derives.exists_taken {τ ν ρ ε α : Type} {G : Grammar τ ν ρ ε} {p : τ → Bool}
    {C : Text → Prop} (hnil : C []) (happ : ∀ u v, C u → C v → C (u ++ v))
    (hp : ∀ t s w r, p t = true → G.scan t s = some (w, r) → ∃ u, s = u ++ r ∧ C u)
    {g : Phrase τ ν ρ ε α} {s r : Text} {v : Except ε α} (h : G.Derives g s v r)
    (hg : g.only p = true) : ∃ u, s = u ++ r ∧ C u := by
  have htrans : ∀ {s q r : Text}, (∃ u, s = u ++ q ∧ C u) → (∃ u, q = u ++ r ∧ C u) →
      ∃ u, s = u ++ r ∧ C u := by
    rintro s q r ⟨u, rfl, hu⟩ ⟨v, rfl, hv⟩
    exact ⟨u ++ v, by simp, happ u v hu hv⟩
  induction h with
  | terminal h => exact hp _ _ _ _ hg h
  | call _ => cases hg
  | build _ ih => exact ih hg
  | seq _ _ ihg ihh =>
    simp only [Phrase.only, Bool.and_eq_true] at hg
    exact htrans (ihg hg.1) (ihh hg.2)
  | left _ ih =>
    simp only [Phrase.only, Bool.and_eq_true] at hg
    exact ih hg.1
  | right _ ih =>
    simp only [Phrase.only, Bool.and_eq_true] at hg
    exact ih hg.2
  | present _ ih => exact ih hg
  | absent => exact ⟨[], rfl, hnil⟩
  | done => exact ⟨[], rfl, hnil⟩
  | more hm _ _ ihg iht =>
    have hg' := hg
    simp only [Phrase.only, Bool.and_eq_true] at hg'
    exact htrans (htrans (hp _ _ _ _ hg'.1 hm) (ihg hg'.2)) (iht hg)

/-! ### What a terminal takes away -/

/-- Whether a character is neither a margin nor a quote. -/
def isPlain (c : Char) : Bool :=
  !isMargin c && c != '"'

/-- No margin is at the end of a text. -/
def EndsPlain (s : Text) : Prop :=
  ∀ c ∈ s.getLast?, isMargin c = false

lemma EndsPlain.append {s u : Text} (hs : EndsPlain s) (hu : EndsPlain u) : EndsPlain (s ++ u) := by
  intro c hc
  rw [List.getLast?_append, Option.mem_def] at hc
  rcases Option.or_eq_some_iff.mp hc with h | ⟨-, h⟩
  · exact hu c h
  · exact hs c h

namespace Terminal

variable {t : Terminal} {s w r : Text}

lemma isPlain_of_isSpace {c : Char} (hs : isSpace c = false) (hc : c ∉ [';', '"']) :
    isPlain c = true := by
  rw [isPlain, Bool.and_eq_true, Bool.not_eq_true', Bool.eq_false_iff, bne_iff_ne]
  refine ⟨fun hm => ?_, fun h => hc (by simp [h])⟩
  simp only [isMargin, Bool.or_eq_true, beq_iff_eq] at hm
  rcases hm with ((rfl | rfl) | rfl) | rfl
  · exact absurd hs (by decide)
  · exact absurd hs (by decide)
  · exact absurd hs (by decide)
  · exact hc (by simp)

lemma isPlain_of_isDigit {c : Char} (h : isDigit c = true) : isPlain c = true := by
  have hmark : ∀ c ∈ [';', '"'], isDigit c = false := by decide
  refine isPlain_of_isSpace (isSpace_eq_false_of_isDigit h) fun hc => ?_
  rw [hmark c hc] at h
  cases h

lemma isPlain_of_isLetter {c : Char} (h : isLetter c = true) : isPlain c = true := by
  have hmark : ∀ c ∈ [';', '"'], isLetter c = false := by decide
  refine isPlain_of_isSpace (isSpace_eq_false_of_isLetter h) fun hc => ?_
  rw [hmark c hc] at h
  cases h

/-- A terminal has no margins and no quotes in it, if it is neither a comment nor a separator of
rules. -/
lemma isPlain_of_scan (ht : t ∉ [comment, ruleSeparator]) (h : t.scan s = some (w, r)) :
    ∀ c ∈ w, isPlain c = true := by
  rw [List.mem_cons, List.mem_singleton, not_or] at ht
  have hmarks : ∀ c ∈ t.marks, isPlain c = true := by
    cases t
    case ruleSeparator => exact absurd rfl ht.2
    all_goals decide
  exact forall_of_lexeme (fun _ => isPlain_of_isDigit) (fun _ => isPlain_of_isLetter) hmarks ht.1 h

/-- A terminal takes away blanks and its own text. -/
lemma exists_blanks_of_scan (h : t.scan s = some (w, r)) :
    ∃ b : Text, (∀ c ∈ b, isBlank c = true) ∧ s = b ++ w ++ r ∧ w ≠ [] := by
  obtain ⟨hs, hw⟩ := eq_append_of_lexeme (t := t) h
  refine ⟨s.takeWhile isBlank, fun c hc => List.mem_takeWhile_imp hc, ?_, hw⟩
  rw [List.append_assoc, ← hs]
  exact List.takeWhile_append_dropWhile.symm

/-- A terminal takes away a text that ends with no margin and has an even number of quotes, unless it is
a separator of rules. -/
lemma taken_of_scan (ht : t ≠ .ruleSeparator) (h : t.scan s = some (w, r)) :
    ∃ u, s = u ++ r ∧ EndsPlain u ∧ Even (u.count '"') := by
  obtain ⟨b, hb, rfl, hne⟩ := exists_blanks_of_scan h
  have hquote : b.count '"' = 0 := List.count_eq_zero.mpr (not_mem_of_forall hb rfl)
  have hlast : ∀ {u : Text}, w = u → u ≠ [] → (∀ c ∈ u.getLast?, isMargin c = false) →
      EndsPlain (b ++ w) := by
    rintro u rfl hne hu c hc
    rw [List.getLast?_append_of_ne_nil _ hne] at hc
    exact hu c hc
  refine ⟨b ++ w, rfl, ?_, ?_⟩
  · by_cases hc : t = .comment
    · subst hc
      obtain ⟨c, rfl, -⟩ := Part.exists_of_scan_comment h
      refine hlast rfl (by simp) fun d hd => ?_
      rw [List.getLast?_append_of_ne_nil _ (by simp)] at hd
      obtain rfl : '"' = d := by simpa using hd
      decide
    · refine hlast rfl hne fun c hmem => ?_
      have := isPlain_of_scan (by simp [hc, ht]) h c (List.mem_of_getLast? hmem)
      rw [isPlain, Bool.and_eq_true, Bool.not_eq_true'] at this
      exact this.1
  · rw [List.count_append, hquote, zero_add]
    exact even_count_of_lexeme (t := t) h

end Terminal

namespace Part

variable {s r : Text}

/-- A rule ends with no margin, and has an even number of quotes in it. -/
lemma taken_of_derives_rule {v : Except BuildError Rule} (h : fieldGrammar.Derives rule s v r) :
    ∃ u, s = u ++ r ∧ EndsPlain u ∧ Even (u.count '"') := by
  refine h.exists_taken (p := (· != .ruleSeparator)) (C := fun u => EndsPlain u ∧ Even (u.count '"'))
    ⟨nofun, Even.zero⟩ ?_ (fun t s w r ht h => Terminal.taken_of_scan (bne_iff_ne.mp ht) h) rfl
  rintro u v ⟨hu, hu'⟩ ⟨hv, hv'⟩
  exact ⟨hu.append hv, by rw [List.count_append]; exact hu'.add hv'⟩

end Part

/-! ### Margins around a field -/

/-- Where no margin is at the end of a field, only those before it are dropped. -/
lemma Text.trimField_of_endsPlain {s : Text} (hs : EndsPlain s) :
    trimField s = s.dropWhile isMargin := by
  rw [trimField]
  cases hd : (s.dropWhile isMargin).reverse with
  | nil => rw [List.reverse_eq_nil_iff.mp hd, List.dropWhile_nil, List.reverse_nil]
  | cons c u =>
    have hdrop : s.dropWhile isMargin = u.reverse ++ [c] := by
      rw [← List.reverse_cons, ← hd, List.reverse_reverse]
    have hsplit : s = s.takeWhile isMargin ++ (u.reverse ++ [c]) := by
      rw [← hdrop, List.takeWhile_append_dropWhile]
    have hc : isMargin c = false := by
      refine hs c ?_
      rw [hsplit, ← List.append_assoc, List.getLast?_append_of_ne_nil _ (by simp)]
      simp
    rw [List.dropWhile_cons_of_neg (by simp [hc]), hdrop, List.reverse_cons]

/-- A field is what is left of it between its margins. -/
lemma Text.exists_margins (s : Text) :
    ∃ a b : Text, s = a ++ trimField s ++ b ∧ ∀ c, c ∈ a ∨ c ∈ b → isMargin c = true := by
  let u := (s.dropWhile isMargin).reverse
  refine ⟨s.takeWhile isMargin, (u.takeWhile isMargin).reverse, ?_, ?_⟩
  · have hu : trimField s ++ (u.takeWhile isMargin).reverse = s.dropWhile isMargin := by
      rw [trimField, ← List.reverse_append, List.takeWhile_append_dropWhile, List.reverse_reverse]
    rw [List.append_assoc, hu, List.takeWhile_append_dropWhile]
  · rintro c (hc | hc)
    · exact List.mem_takeWhile_imp hc
    · exact List.mem_takeWhile_imp (List.mem_reverse.mp hc)

/-- No margin is left at the end of a field. -/
lemma Text.endsPlain_trimField (s : Text) : EndsPlain (trimField s) := by
  intro c hc
  rw [trimField, List.getLast?_reverse] at hc
  have := List.head?_dropWhile_not isMargin ((s.dropWhile isMargin).reverse)
  rw [hc] at this
  exact this

/-- A field without margins begins with none. -/
lemma Text.isMargin_head_of_trimField {c : Char} {s : Text} (h : trimField (c :: s) = c :: s) :
    isMargin c = false := by
  by_contra hc
  have hle : (trimField (c :: s)).length ≤ s.length := by
    rw [trimField, List.length_reverse]
    refine (List.dropWhile_sublist _).length_le.trans ?_
    rw [List.length_reverse, List.dropWhile_cons_of_pos (by simpa using hc)]
    exact (List.dropWhile_sublist _).length_le
  rw [h, List.length_cons] at hle
  omega

/-- A field that neither begins nor ends with a margin stays as it is. -/
lemma Text.trimField_eq_self {s : Text} (hs : ∀ c ∈ s.head?, isMargin c = false) (h : EndsPlain s) :
    trimField s = s := by
  rw [trimField_of_endsPlain h]
  cases s with
  | nil => rfl
  | cons c s => exact List.dropWhile_cons_of_neg (by simp [hs c rfl])

/-- Fields without margins have none when they are put together. -/
lemma Text.trimField_append {s u m : Text} (hs : trimField s = s) (hu : trimField u = u) (hne : s ≠ [])
    (hne' : u ≠ []) : trimField (s ++ m ++ u) = s ++ m ++ u := by
  refine trimField_eq_self (fun c hc => ?_) fun c hc => ?_
  · obtain ⟨d, s, rfl⟩ := List.exists_cons_of_ne_nil hne
    obtain rfl : d = c := by simpa using hc
    exact isMargin_head_of_trimField hs
  · rw [List.getLast?_append_of_ne_nil _ hne'] at hc
    exact (hu ▸ endsPlain_trimField u) c hc

namespace Part

variable {α : Type} {g : Part α} {s r : Text} {v : Except BuildError α}

/-- Margins before a text that does not open with a semicolon are nothing but blanks. -/
lemma skipBlanks_dropMargins (hs : Opening.of s ≠ .semicolon) :
    skipBlanks (s.dropWhile isMargin) = skipBlanks s := by
  induction s with
  | nil => rfl
  | cons c s ih =>
    by_cases hc : isMargin c = true
    · rw [List.dropWhile_cons_of_pos hc]
      by_cases hb : isBlank c = true
      · have hskip : skipBlanks (c :: s) = skipBlanks s := List.dropWhile_cons_of_pos hb
        rw [hskip]
        exact ih (by rwa [Opening.of, ← hskip])
      · have hsemi : c = ';' := by
          simp only [isMargin, Bool.or_eq_true, beq_iff_eq] at hc
          rcases hc with ((rfl | rfl) | rfl) | rfl
          · exact absurd rfl hb
          · exact absurd rfl hb
          · exact absurd rfl hb
          · rfl
        subst hsemi
        exact absurd (Opening.of_cons rfl rfl rfl) hs
    · rw [List.dropWhile_cons_of_neg hc]

/-- Margins before a part do not matter, unless there is a semicolon among them. -/
lemma derives_dropMargins_iff (hg : g.consumes = true) (hs : Opening.of s ≠ .semicolon) :
    fieldGrammar.Derives g (s.dropWhile isMargin) v r ↔ fieldGrammar.Derives g s v r :=
  derives_congr hg (skipBlanks_dropMargins hs)

end Part

end OpeningTimes
