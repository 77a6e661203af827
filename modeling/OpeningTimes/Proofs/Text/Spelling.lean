import OpeningTimes.Proofs.Text.Numeral

/-!
Different spellings of the same text.

A letter may be small or capital, and a digit of any script may be the same digit of the first one. In
a comment every character stands for itself.

* `Text.Spells`: the characters that may stand in the place of another one;
* `Text.fold_of_spells`, `Text.digitValue?_of_spells`: it is the same letter or digit;
* `RespelledFrom`, `Respelled`: a text in another spelling;
* `Respelled.exists_of_append`, `Respelled.span`: its parts are in another spelling as well;
* `Respelled.trimField`: so is a field without its margins.
-/

namespace OpeningTimes

namespace Text

/-- The characters that may stand in the place of another one: a letter of the alphabet in either case,
and the digit of the first script in the place of any digit of the same value. -/
inductive Spells (c : Char) : Char → Prop where
  | same : Spells c c
  | small (hc : c.isAlpha = true) : Spells c c.toLower
  | capital (hc : c.isAlpha = true) : Spells c c.toUpper
  | digit {d : Char} (hc : isDigit c = true) (hd : d.isDigit = true)
    (hv : digitValue? d = digitValue? c) : Spells c d

variable {c d : Char} {w u : Text}

/-- What holds of the letters of the alphabet one by one holds of all of them. -/
lemma forall_isAlpha {P : Char → Prop}
    (h : ∀ n < 128, (Char.ofNat n).isAlpha = true → P (Char.ofNat n)) :
    ∀ c : Char, c.isAlpha = true → P c := by
  intro c hc
  have hlt : c.toNat < 128 := by
    have hZ : c.toNat ≤ 90 ∨ c.toNat ≤ 122 := by
      simp only [Char.isAlpha, Char.isUpper, Char.isLower, Bool.or_eq_true, Bool.and_eq_true,
        decide_eq_true_eq] at hc
      exact hc.imp (fun h => h.2) fun h => h.2
    omega
  have := h c.toNat hlt
  rw [Char.ofNat_toNat] at this
  exact this hc

/-- The letters of the alphabet in either case. -/
lemma of_isAlpha (hc : c.isAlpha = true) :
    isLetter c = true ∧ ∀ d ∈ [c.toLower, c.toUpper],
      isLetter d = true ∧ fold d = fold c ∧ small d = small c ∧ capital d = capital c := by
  exact forall_isAlpha
    (P := fun c => isLetter c = true ∧ ∀ d ∈ [c.toLower, c.toUpper],
      isLetter d = true ∧ fold d = fold c ∧ small d = small c ∧ capital d = capital c)
    (by decide +kernel) c hc

lemma isLetter_of_spells (h : Spells c d) : isLetter d = isLetter c := by
  cases h with
  | same => rfl
  | small hc => rw [(of_isAlpha hc).1, ((of_isAlpha hc).2 _ (by simp)).1]
  | capital hc => rw [(of_isAlpha hc).1, ((of_isAlpha hc).2 _ (by simp)).1]
  | digit hc hd _ =>
    rw [isLetter_eq_false_of_isDigit hc, isLetter_eq_false_of_isDigit (digitValue?_of_isDigit hd).1]

lemma isDigit_of_spells (h : Spells c d) : isDigit d = isDigit c := by
  have hletter : ∀ {d}, isLetter c = true → isLetter d = true → isDigit d = isDigit c := by
    intro d hc hd
    rw [isDigit_eq_false_of_isLetter hc, isDigit_eq_false_of_isLetter hd]
  cases h with
  | same => rfl
  | small hc => exact hletter (of_isAlpha hc).1 ((of_isAlpha hc).2 _ (by simp)).1
  | capital hc => exact hletter (of_isAlpha hc).1 ((of_isAlpha hc).2 _ (by simp)).1
  | digit hc hd _ => rw [hc, (digitValue?_of_isDigit hd).1]

/-- A letter stands for the same letter in any spelling. -/
lemma fold_of_spells (h : Spells c d) (hc : isLetter c = true) :
    fold d = fold c ∧ small d = small c ∧ capital d = capital c := by
  cases h with
  | same => exact ⟨rfl, rfl, rfl⟩
  | small hc => exact ((of_isAlpha hc).2 _ (by simp)).2
  | capital hc => exact ((of_isAlpha hc).2 _ (by simp)).2
  | digit hd => rw [isLetter_eq_false_of_isDigit hd] at hc; cases hc

/-- A digit has the same value in any spelling. -/
lemma digitValue?_of_spells (h : Spells c d) (hc : isDigit c = true) :
    digitValue? d = digitValue? c := by
  cases h with
  | same => rfl
  | small ha => rw [isDigit_eq_false_of_isLetter (of_isAlpha ha).1] at hc; cases hc
  | capital ha => rw [isDigit_eq_false_of_isLetter (of_isAlpha ha).1] at hc; cases hc
  | digit _ _ hv => exact hv

/-- A character that is no letter and no digit stands for itself. -/
lemma eq_of_spells (h : Spells c d) (hl : isLetter c = false) (hd : isDigit c = false) : d = c := by
  cases h with
  | same => rfl
  | small hc => rw [(of_isAlpha hc).1] at hl; cases hl
  | capital hc => rw [(of_isAlpha hc).1] at hl; cases hl
  | digit hc => rw [hc] at hd; cases hd

/-- So does a digit of the first script. -/
lemma eq_of_spells_digit (h : Spells c d) (hc : c.isDigit = true) : d = c := by
  have hdigit := (digitValue?_of_isDigit hc).1
  cases h with
  | same => rfl
  | small ha => rw [isDigit_eq_false_of_isLetter (of_isAlpha ha).1] at hdigit; cases hdigit
  | capital ha => rw [isDigit_eq_false_of_isLetter (of_isAlpha ha).1] at hdigit; cases hdigit
  | digit _ hd hv =>
    rw [(digitValue?_of_isDigit hd).2, (digitValue?_of_isDigit hc).2] at hv
    have hd' : 48 ≤ d.toNat := (Char.isDigit_iff_toNat.mp hd).1
    have hc' : 48 ≤ c.toNat := (Char.isDigit_iff_toNat.mp hc).1
    have := Option.some.inj hv
    exact Char.toNat_inj.mp (by omega)

/-- What neither a letter nor a digit is does not depend on the spelling. -/
lemma kind_of_spells {p : Char → Bool} (hl : ∀ c, isLetter c = true → p c = false)
    (hd : ∀ c, isDigit c = true → p c = false) (h : Spells c d) : p d = p c := by
  by_cases hc : isLetter c = true
  · rw [hl c hc, hl d ((isLetter_of_spells h).trans hc)]
  by_cases hc' : isDigit c = true
  · rw [hd c hc', hd d ((isDigit_of_spells h).trans hc')]
  · rw [eq_of_spells h (Bool.eq_false_iff.mpr hc) (Bool.eq_false_iff.mpr hc')]

lemma isSpace_of_spells (h : Spells c d) : isSpace d = isSpace c :=
  kind_of_spells (fun _ => isSpace_eq_false_of_isLetter) (fun _ => isSpace_eq_false_of_isDigit) h

/-- The blanks and the margins are among a few characters, none of which is a letter or a digit. -/
lemma kind_of_spells_of_mem {p : Char → Bool} {l : Text} (hp : ∀ c, p c = true → c ∈ l)
    (hl : ∀ c ∈ l, isLetter c = false ∧ isDigit c = false) (h : Spells c d) : p d = p c := by
  refine kind_of_spells (fun c hc => Bool.eq_false_iff.mpr fun hp' => ?_)
    (fun c hc => Bool.eq_false_iff.mpr fun hp' => ?_) h
  · rw [(hl c (hp c hp')).1] at hc
    cases hc
  · rw [(hl c (hp c hp')).2] at hc
    cases hc

lemma isBlank_of_spells (h : Spells c d) : isBlank d = isBlank c :=
  kind_of_spells_of_mem (l := [' ', '\t', '\x0c', '\r', '\n'])
    (fun c hc => by simpa [isBlank, or_assoc] using hc) (by decide) h

lemma isMargin_of_spells (h : Spells c d) : isMargin d = isMargin c :=
  kind_of_spells_of_mem (l := [' ', '\n', '\t', ';'])
    (fun c hc => by simpa [isMargin, or_assoc] using hc) (by decide) h

/-! ### Words and numbers -/

/-- A text of marks and digits of the first script stands for itself. -/
lemma eq_of_forall_spells (h : List.Forall₂ Spells w u)
    (hw : ∀ c ∈ w, c.isDigit = true ∨ isLetter c = false ∧ isDigit c = false) : u = w := by
  induction h with
  | nil => rfl
  | cons hc _ ih =>
    rw [List.forall_mem_cons] at hw
    rw [ih hw.2, hw.1.elim (eq_of_spells_digit hc) fun h => eq_of_spells hc h.1 h.2]

/-- A word has the same letters in any spelling. -/
lemma map_eq_of_spells {f : Char → Char} (hf : ∀ {c d}, Spells c d → isLetter c = true → f d = f c)
    (h : List.Forall₂ Spells w u) (hw : ∀ c ∈ w, isLetter c = true) : u.map f = w.map f := by
  induction h with
  | nil => rfl
  | cons hc _ ih =>
    rw [List.forall_mem_cons] at hw
    rw [List.map_cons, List.map_cons, hf hc hw.1, ih hw.2]

lemma forall_mem_of_spells {p : Char → Bool} (hp : ∀ {c d}, Spells c d → p d = p c)
    (h : List.Forall₂ Spells w u) (hw : ∀ c ∈ w, p c = true) : ∀ d ∈ u, p d = true := by
  induction h with
  | nil => exact nofun
  | cons hc _ ih =>
    rw [List.forall_mem_cons] at hw ⊢
    exact ⟨(hp hc).trans hw.1, ih hw.2⟩

lemma capitalized_of_spells (h : List.Forall₂ Spells w u) (hw : ∀ c ∈ w, isLetter c = true) :
    capitalized u = capitalized w := by
  cases h with
  | nil => rfl
  | cons hc hs =>
    rw [List.forall_mem_cons] at hw
    rw [capitalized, capitalized, (fold_of_spells hc hw.1).2.2,
      map_eq_of_spells (fun h hc => (fold_of_spells h hc).2.1) hs hw.2]

/-- A number has the same value in any spelling. -/
lemma number_of_spells (h : List.Forall₂ Spells w u) (hw : ∀ c ∈ w, isDigit c = true) :
    number u = number w := by
  have hstep : ∀ n : ℕ, u.foldl (fun n c => 10 * n + (digitValue? c).getD 0) n =
      w.foldl (fun n c => 10 * n + (digitValue? c).getD 0) n := by
    induction h with
    | nil => exact fun _ => rfl
    | cons hc _ ih =>
      rw [List.forall_mem_cons] at hw
      intro n
      rw [List.foldl_cons, List.foldl_cons, digitValue?_of_spells hc hw.1]
      exact ih hw.2 _
  exact hstep 0

/-- It also has as many digits, so that it is read in any spelling or in none. -/
lemma number?_of_spells (h : List.Forall₂ Spells w u) (hw : ∀ c ∈ w, isDigit c = true) :
    number? u = number? w := by
  rw [number?, number?, h.length_eq, number_of_spells h hw]

end Text

open Text

/-! ### Texts -/

/-- A character is left out at the end of a text only with all characters after it. -/
lemma Text.rdropWhile_cons {p : Char → Bool} (c : Char) (s : Text) :
    (c :: s).rdropWhile p =
      if s.rdropWhile p = [] ∧ p c = true then [] else c :: s.rdropWhile p := by
  by_cases hs : s.reverse.dropWhile p = []
  · have hdrop : (c :: s).rdropWhile p = [c].rdropWhile p := by
      simp [List.rdropWhile, List.dropWhile_append, hs]
    rw [hdrop, List.rdropWhile_singleton]
    simp [List.rdropWhile, hs]
  · rw [if_neg (by simp [List.rdropWhile, hs])]
    simp [List.rdropWhile, List.dropWhile_append, hs]

/-- A text in another spelling. What stands between two quotes is a comment, and stays as it is. It is
given whether the text begins inside of a comment. -/
inductive RespelledFrom : Bool → Text → Text → Prop where
  | nil (inside : Bool) : RespelledFrom inside [] []
  | quote {inside : Bool} {s u : Text} (hs : RespelledFrom (!inside) s u) :
    RespelledFrom inside ('"' :: s) ('"' :: u)
  | inside {c : Char} {s u : Text} (hc : c ≠ '"') (hs : RespelledFrom true s u) :
    RespelledFrom true (c :: s) (c :: u)
  | outside {c d : Char} {s u : Text} (hc : c ≠ '"') (hd : Spells c d) (hs : RespelledFrom false s u) :
    RespelledFrom false (c :: s) (d :: u)

/-- A text in another spelling, comments apart. -/
abbrev Respelled (s u : Text) : Prop :=
  RespelledFrom false s u

namespace RespelledFrom

variable {b : Bool} {s u w r : Text} {p : Char → Bool}

/-- A quality of characters that is the same in any spelling is one of the first character. -/
lemma head (h : RespelledFrom b s u) (hp : ∀ {c d}, Spells c d → p d = p c) :
    u.head?.any p = s.head?.any p := by
  cases h with
  | nil => rfl
  | quote => rfl
  | inside => rfl
  | outside _ hd _ => exact hp hd

/-- Every text is in its own spelling. -/
lemma refl (b : Bool) (s : Text) : RespelledFrom b s s := by
  induction s generalizing b with
  | nil => exact .nil b
  | cons c s ih =>
    by_cases hc : c = '"'
    · subst hc
      exact .quote (ih _)
    · cases b with
      | true => exact .inside hc (ih _)
      | false => exact .outside hc .same (ih _)

lemma length_eq (h : RespelledFrom b s u) : u.length = s.length := by
  induction h with
  | nil => rfl
  | quote _ ih | inside _ _ ih | outside _ _ _ ih => rw [List.length_cons, List.length_cons, ih]

/-- No character stands for a quote but the quote itself, so there are as many of them. -/
lemma count_eq (h : RespelledFrom b s u) : u.count '"' = s.count '"' := by
  induction h with
  | nil => rfl
  | quote _ ih => rw [List.count_cons_self, List.count_cons_self, ih]
  | inside hc _ ih => rw [List.count_cons_of_ne hc, List.count_cons_of_ne hc, ih]
  | @outside c d s u hc hd _ ih =>
    have hquote : (d == '"') = (c == '"') :=
      kind_of_spells_of_mem (p := (· == '"')) (l := ['"']) (fun c hc => by simpa using hc) (by decide) hd
    rw [List.count_cons, List.count_cons, ih, hquote]

/-- What is left out at the end of a text is left out in any spelling. -/
lemma rdropWhile (h : RespelledFrom b s u) (hp : ∀ {c d}, Spells c d → p d = p c)
    (hq : p '"' = false) : RespelledFrom b (s.rdropWhile p) (u.rdropWhile p) := by
  have hnil : ∀ {b s u}, RespelledFrom b s u → (u = [] ↔ s = []) := by
    intro b s u h
    cases h <;> simp
  induction h with
  | nil => exact .nil _
  | quote _ ih =>
    rw [rdropWhile_cons, rdropWhile_cons, if_neg (by simp [hq]), if_neg (by simp [hq])]
    exact .quote ih
  | inside hc _ ih =>
    simp only [rdropWhile_cons, hnil ih]
    split
    · exact .nil _
    · exact .inside hc ih
  | outside hc hd _ ih =>
    simp only [rdropWhile_cons, hnil ih, hp hd]
    split
    · exact .nil _
    · exact .outside hc hd ih

end RespelledFrom

namespace Respelled

variable {s u w r : Text} {p : Char → Bool}

/-- A part without quotes at the beginning of a text is respelled by itself. -/
lemma exists_of_append (h : Respelled (w ++ r) u) (hw : '"' ∉ w) :
    ∃ v q, u = v ++ q ∧ List.Forall₂ Spells w v ∧ Respelled r q := by
  induction w generalizing u with
  | nil => exact ⟨[], u, rfl, .nil, h⟩
  | cons c w ih =>
    rw [List.mem_cons, not_or] at hw
    rw [List.cons_append] at h
    cases h with
    | quote _ => exact absurd rfl hw.1
    | outside _ hd hrest =>
      obtain ⟨v, q, rfl, hv, hq⟩ := ih hrest hw.2
      exact ⟨_ :: v, q, rfl, .cons hd hv, hq⟩

/-- A comment at the beginning of a text stays as it is. -/
lemma exists_of_comment {c : Text} (h : Respelled ('"' :: c ++ '"' :: r) u) (hc : '"' ∉ c) :
    ∃ q, u = '"' :: c ++ '"' :: q ∧ Respelled r q := by
  have hinside : ∀ {c u : Text}, '"' ∉ c → RespelledFrom true (c ++ '"' :: r) u →
      ∃ q, u = c ++ '"' :: q ∧ Respelled r q := by
    intro c u hc h
    induction c generalizing u with
    | nil =>
      cases h with
      | quote hs => exact ⟨_, rfl, hs⟩
      | inside hne _ => exact absurd rfl hne
    | cons a c ih =>
      rw [List.mem_cons, not_or] at hc
      cases h with
      | quote _ => exact absurd rfl hc.1
      | inside _ hs =>
        obtain ⟨q, rfl, hq⟩ := ih hc.2 hs
        exact ⟨q, rfl, hq⟩
  cases h with
  | quote hs =>
    obtain ⟨q, rfl, hq⟩ := hinside hc hs
    exact ⟨q, rfl, hq⟩
  | outside hne _ _ => exact absurd rfl hne

/-- A run of characters of one kind is one in any spelling. -/
lemma span (h : Respelled s u) (hp : ∀ {c d}, Spells c d → p d = p c) (hq : p '"' = false) :
    List.Forall₂ Spells (s.takeWhile p) (u.takeWhile p) ∧
      Respelled (s.dropWhile p) (u.dropWhile p) := by
  rw [← List.takeWhile_append_dropWhile (p := p) (l := s)] at h
  have hquote : '"' ∉ s.takeWhile p := by
    intro hmem
    rw [List.mem_takeWhile_imp hmem] at hq
    cases hq
  obtain ⟨v, q, rfl, hv, hrest⟩ := h.exists_of_append hquote
  have hall : ∀ c ∈ v, p c = true :=
    forall_mem_of_spells hp hv fun c hc => List.mem_takeWhile_imp hc
  have hhead : ∀ c ∈ q.head?, p c = false := by
    intro c hc
    have hany := hrest.head hp
    have hnot : (s.dropWhile p).head?.any p = false := by
      have := List.head?_dropWhile_not p s
      cases hd : (s.dropWhile p).head? with
      | none => rfl
      | some d =>
        rw [hd] at this
        exact this
    rw [hnot, Option.mem_def.mp hc] at hany
    exact hany
  obtain ⟨htake, hdrop⟩ := takeWhile_append_of_head hall hhead
  rw [htake, hdrop]
  exact ⟨hv, hrest⟩

/-! ### Fields -/

/-- A field in another spelling has the same margins. -/
lemma trimField (h : Respelled s u) : Respelled (Text.trimField s) (Text.trimField u) :=
  ((h.span isMargin_of_spells rfl).2).rdropWhile isMargin_of_spells rfl

end Respelled

end OpeningTimes
