import OpeningTimes.Proofs.Field.Times

/-!
How the words, numbers and marks of a written text are read.

* `Part.derives_congr`: blanks before a part do not matter;
* `Terminal.scan_digits_iff`, `Terminal.scan_word_iff`: numbers and words up to where they end;
* `Part.derives_number_iff`, `Part.scan_cons_iff` and their companions: the same for parts, together
  with their values.

Each of these lemmas says both that what is written can be read and that it can be read in no other
way.
-/

namespace OpeningTimes

open Grammar Text

/-! ### Blanks -/

namespace Part

variable {α : Type} {g : Part α} {s s' r : Text} {v : Except BuildError α}

/-- A derivation that takes something away does so after any blanks, and one that takes nothing away
does so anywhere. -/
lemma derives_or_eq_of_skipBlanks_eq (hs : skipBlanks s = skipBlanks s')
    (h : fieldGrammar.Derives g s v r) :
    fieldGrammar.Derives g s' v r ∨ (r = s ∧ fieldGrammar.Derives g s' v s') := by
  have hscan : ∀ {t : Terminal} {s w r}, skipBlanks s = skipBlanks s' →
      fieldGrammar.scan t s = some (w, r) → fieldGrammar.scan t s' = some (w, r) := by
    intro t s w r hs h
    rw [← h]
    exact congrArg t.lexeme hs.symm
  induction h with
  | terminal h => exact Or.inl (.terminal (hscan hs h))
  | call _ ih => exact (ih hs).imp .call fun h => ⟨h.1, .call h.2⟩
  | build _ ih => exact (ih hs).imp .build fun h => ⟨h.1, .build h.2⟩
  | seq hg hh ihg ihh =>
    rcases ihg hs with hg' | ⟨rfl, hg'⟩
    · exact Or.inl (.seq hg' hh)
    · exact (ihh hs).imp (.seq hg') fun h => ⟨h.1, .seq hg' h.2⟩
  | left _ ih => exact (ih hs).imp .left fun h => ⟨h.1, .left h.2⟩
  | right _ ih => exact (ih hs).imp .right fun h => ⟨h.1, .right h.2⟩
  | present _ ih => exact (ih hs).imp .present fun h => ⟨h.1, .present h.2⟩
  | absent => exact Or.inr ⟨rfl, .absent⟩
  | done => exact Or.inr ⟨rfl, .done⟩
  | more hm hg ht => exact Or.inl (.more (hscan hs hm) hg ht)

/-- Blanks before a part do not matter. -/
lemma derives_congr (hg : g.consumes = true) (hs : skipBlanks s = skipBlanks s') :
    fieldGrammar.Derives g s v r ↔ fieldGrammar.Derives g s' v r := by
  have key : ∀ {s s'}, skipBlanks s = skipBlanks s' → fieldGrammar.Derives g s v r →
      fieldGrammar.Derives g s' v r := by
    intro s s' hs h
    rcases derives_or_eq_of_skipBlanks_eq hs h with h' | ⟨rfl, -⟩
    · exact h'
    · exact absurd (h.length_lt hg) (lt_irrefl _)
  exact ⟨key hs, key hs.symm⟩

lemma skipBlanks_space : skipBlanks (' ' :: s) = skipBlanks s :=
  List.dropWhile_cons_of_pos rfl

/-- A space before a part does not matter. -/
lemma derives_space_iff (hg : g.consumes = true) :
    fieldGrammar.Derives g (' ' :: s) v r ↔ fieldGrammar.Derives g s v r :=
  derives_congr hg skipBlanks_space

end Part

/-! ### Terminals -/

namespace Terminal

variable {t : Terminal} {w w' m r : Text}

lemma skipBlanks_cons {c : Char} {s : Text} (hc : isBlank c = false) :
    skipBlanks (c :: s) = c :: s :=
  List.dropWhile_cons_of_neg (by simp [hc])

lemma isBlank_eq_false_of_isDigit {c : Char} (h : isDigit c = true) : isBlank c = false := by
  rw [Bool.eq_false_iff]
  intro hb
  have hblank : ∀ c ∈ [' ', '\t', '\x0c', '\r', '\n'], isDigit c = false := by decide
  have hc : c ∈ [' ', '\t', '\x0c', '\r', '\n'] := by
    simpa [isBlank, or_assoc] using hb
  rw [hblank c hc] at h
  cases h

lemma isBlank_eq_false_of_isLetter {c : Char} (h : isLetter c = true) : isBlank c = false := by
  rw [Bool.eq_false_iff]
  intro hb
  have := isSpace_eq_false_of_isLetter h
  rw [isSpace_of_isBlank hb] at this
  cases this

lemma skipBlanks_append {p : Char → Bool} (hp : ∀ c, p c = true → isBlank c = false)
    (hw : ∀ c ∈ w, p c = true) (hne : w ≠ []) : skipBlanks (w ++ m) = w ++ m := by
  cases w with
  | nil => exact absurd rfl hne
  | cons c w => exact skipBlanks_cons (hp c (hw c (by simp)))

/-- A number is read up to its end, if it has the right number of digits. -/
lemma scan_digits_iff {few many : ℕ} (ht : t.lexeme = digits few many)
    (hw : ∀ c ∈ w, isDigit c = true) (hne : w ≠ []) (hm : Breaks m) :
    t.scan (w ++ m) = some (w', r) ↔ (few ≤ w.length ∧ w.length ≤ many) ∧ w' = w ∧ r = m := by
  rw [scan, ht, skipBlanks_append (fun c => isBlank_eq_false_of_isDigit) hw hne, digits]
  obtain ⟨htake, hdrop⟩ := takeWhile_isDigit_append hw hm
  simp only [htake, hdrop]
  split
  · next h =>
    simp only [Bool.and_eq_true, decide_eq_true_eq] at h
    simp only [Option.some.injEq, Prod.mk.injEq, h, true_and, and_true]
    exact and_congr eq_comm eq_comm
  · next h =>
    simp only [Bool.and_eq_true, decide_eq_true_eq] at h
    simp [h]

/-- A number of any length is read up to its end. -/
lemma scan_number_iff (hw : ∀ c ∈ w, isDigit c = true) (hne : w ≠ []) (hm : Breaks m) :
    number.scan (w ++ m) = some (w', r) ↔ w' = w ∧ r = m := by
  rw [scan, skipBlanks_append (fun c => isBlank_eq_false_of_isDigit) hw hne, lexeme, digits]
  obtain ⟨htake, hdrop⟩ := takeWhile_isDigit_append hw hm
  have hlen : 1 ≤ w.length ∧ w.length ≤ (w ++ m).length :=
    ⟨List.length_pos_iff.mpr hne, by simp⟩
  simp only [htake, hdrop, decide_eq_true hlen.1, decide_eq_true hlen.2, Bool.and_self, if_true,
    Option.some.injEq, Prod.mk.injEq]
  exact and_congr eq_comm eq_comm

/-- A word is one of those that a terminal knows, whatever the case of its letters. -/
structure IsWord (words : List Text) (w : Text) : Prop where
  letters : ∀ c ∈ w, isLetter c = true
  known : w.map fold ∈ words
  ne_nil : w ≠ []

instance (words : List Text) (w : Text) : Decidable (IsWord words w) :=
  decidable_of_iff ((∀ c ∈ w, isLetter c = true) ∧ w.map fold ∈ words ∧ w ≠ [])
    ⟨fun ⟨hl, hk, hne⟩ => ⟨hl, hk, hne⟩, fun h => ⟨h.letters, h.known, h.ne_nil⟩⟩

/-- A known word is read up to its end. -/
lemma scan_word_iff {words : List Text} (ht : t.lexeme = word words) (hw : IsWord words w)
    (hm : Breaks m) : t.scan (w ++ m) = some (w', r) ↔ w' = w ∧ r = m := by
  obtain ⟨htake, hdrop⟩ := takeWhile_isLetter_append hw.letters hm
  rw [scan, ht, skipBlanks_append (fun c => isBlank_eq_false_of_isLetter) hw.letters hw.ne_nil, word,
    startsWith, htake, hdrop, if_pos (List.contains_iff_mem.mpr hw.known)]
  simp only [Option.some.injEq, Prod.mk.injEq]
  exact and_congr eq_comm eq_comm

/-- A text between quotes is read up to its second quote. -/
lemma scan_comment_iff {c : Text} (hc : '"' ∉ c) :
    comment.scan ('"' :: c ++ '"' :: m) = some (w', r) ↔ w' = '"' :: c ++ ['"'] ∧ r = m := by
  rw [scan, List.cons_append, skipBlanks_cons rfl, lexeme, ← List.cons_append, quotation_append hc]
  simp only [Option.some.injEq, Prod.mk.injEq]
  exact and_congr eq_comm eq_comm

/-- A text that begins with a word opens as the word says. -/
lemma opening_of_letters (hw : ∀ c ∈ w, isLetter c = true) (hne : w ≠ []) (hm : Breaks m) :
    Opening.of (w ++ m) = Opening.ofWord (w.map fold) := by
  rw [Opening.of, skipBlanks_append (fun c => isBlank_eq_false_of_isLetter) hw hne]
  obtain ⟨htake, -⟩ := takeWhile_isLetter_append hw hm
  cases w with
  | nil => exact absurd rfl hne
  | cons c w =>
    have hc := hw c (by simp)
    rw [List.cons_append, Opening.ofBare, if_neg (by simp [isDigit_eq_false_of_isLetter hc]), if_pos hc,
      ← List.cons_append, htake]

/-- A text that begins with a known word opens as the terminal does. -/
lemma opening_of_isWord {words : List Text} {o : Opening} (ht : t.lexeme = word words)
    (hw : IsWord words w) (hm : Breaks m) (ho : ∀ o', t.opens o' = true → o' = o) :
    Opening.of (w ++ m) = o :=
  ho _ (opens_of_scan ((scan_word_iff ht hw hm).mpr ⟨rfl, rfl⟩))

end Terminal

/-! ### Parts -/

namespace Part

variable {t : Terminal} {w w' m r : Text} {n : ℕ} {k : ℤ}

lemma derives_scan_iff {s : Text} :
    fieldGrammar.Derives (.terminal t) s (.ok w) r ↔ t.scan s = some (w, r) := by
  rw [derives_terminal]
  constructor
  · rintro ⟨_, h, he⟩
    obtain rfl := Except.ok.inj he
    exact h
  · exact fun h => ⟨w, h, rfl⟩

/-- A mark is read as what it is. -/
lemma scan_cons_iff {c : Char} (ht : t.lexeme = Terminal.literal [c]) (hc : isBlank c = false) :
    t.scan (c :: m) = some (w, r) ↔ w = [c] ∧ r = m := by
  rw [Terminal.scan_mark_iff ht, Terminal.skipBlanks_cons hc, List.cons.injEq]
  exact and_congr_right fun _ => ⟨fun h => h.2.symm, fun h => ⟨rfl, h.symm⟩⟩

/-- A sign is read as it is. -/
lemma scan_sign_iff {c : Char} (hc : c ∈ ['+', '-']) {w : Text} :
    Terminal.sign.scan (c :: m) = some (w, r) ↔ w = [c] ∧ r = m := by
  rw [Terminal.scan_sign_iff, Terminal.scan_mark_iff (t := .plus) rfl,
    Terminal.scan_mark_iff (t := .dash) rfl]
  simp only [List.mem_cons, List.not_mem_nil, or_false] at hc
  rcases hc with rfl | rfl
  · rw [Terminal.skipBlanks_cons rfl]
    simp [eq_comm]
  · rw [Terminal.skipBlanks_cons rfl]
    simp [eq_comm]

lemma derives_after_ok {α : Type} {g : Part α} {a : α} {s : Text} :
    fieldGrammar.Derives (.after t g) s (.ok a) r ↔
      ∃ w q, t.scan s = some (w, q) ∧ fieldGrammar.Derives g q (.ok a) r := by
  simp only [derives_map_ok, derives_seq_ok, derives_scan_iff, Prod.exists]
  constructor
  · rintro ⟨w, _, ⟨q, hw, h⟩, rfl⟩
    exact ⟨w, q, hw, h⟩
  · rintro ⟨w, q, hw, h⟩
    exact ⟨w, a, ⟨q, hw, h⟩, rfl⟩

lemma derives_after_iff {α : Type} {g : Part α} {a : α} {c : Char}
    (ht : t.lexeme = Terminal.literal [c]) (hc : isBlank c = false) :
    fieldGrammar.Derives (.after t g) (c :: m) (.ok a) r ↔ fieldGrammar.Derives g m (.ok a) r := by
  rw [derives_after_ok]
  simp only [scan_cons_iff ht hc]
  exact ⟨fun ⟨_, _, ⟨_, hq⟩, h⟩ => hq ▸ h, fun h => ⟨_, m, ⟨rfl, rfl⟩, h⟩⟩

lemma derives_before_iff {α : Type} {g : Part α} {a : α} {s : Text} :
    fieldGrammar.Derives (.before g t) s (.ok a) r ↔
      ∃ q w, fieldGrammar.Derives g s (.ok a) q ∧ t.scan q = some (w, r) := by
  simp only [derives_map_ok, derives_seq_ok, derives_scan_iff, Prod.exists]
  constructor
  · rintro ⟨_, w, ⟨q, h, hw⟩, rfl⟩
    exact ⟨q, w, h, hw⟩
  · rintro ⟨q, w, h, hw⟩
    exact ⟨a, w, ⟨q, h, hw⟩, rfl⟩

/-- A number that is read has few enough digits. -/
lemma derives_number_ok {s : Text} :
    fieldGrammar.Derives (number t) s (.ok k) r ↔
      ∃ w, t.scan s = some (w, r) ∧ w.length ≤ maxDigits ∧ k = Text.number w := by
  simp only [number, derives_build_ok, derives_scan_iff, Text.number?]
  refine exists_congr fun w => and_congr_right fun _ => ?_
  split
  · next h => simp [orError, Except.map, h, eq_comm]
  · next h => simp [orError, Except.map, h]

lemma isShort_of_derives_number {s : Text} (h : fieldGrammar.Derives (number t) s (.ok k) r) :
    isShort k = true := by
  obtain ⟨w, -, hw, rfl⟩ := derives_number_ok.mp h
  exact isShort_number hw

/-- A number with the right number of digits is read as what it denotes. -/
lemma derives_digits_iff {few many : ℕ} (ht : t.lexeme = Terminal.digits few many)
    (hmany : many ≤ maxDigits) (hw : ∀ c ∈ w, isDigit c = true) (hne : w ≠ []) (hm : Breaks m) :
    fieldGrammar.Derives (number t) (w ++ m) (.ok k) r ↔
      (few ≤ w.length ∧ w.length ≤ many) ∧ k = Text.number w ∧ r = m := by
  simp only [derives_number_ok, Terminal.scan_digits_iff ht hw hne hm]
  constructor
  · rintro ⟨_, ⟨hl, rfl, rfl⟩, -, rfl⟩
    exact ⟨hl, rfl, rfl⟩
  · rintro ⟨hl, rfl, rfl⟩
    exact ⟨w, ⟨hl, rfl, rfl⟩, hl.2.trans hmany, rfl⟩

/-- A number of any length is read as what it denotes, unless it has too many digits. -/
lemma derives_number_iff (hw : ∀ c ∈ w, isDigit c = true) (hne : w ≠ []) (hm : Breaks m) :
    fieldGrammar.Derives (number .number) (w ++ m) (.ok k) r ↔
      w.length ≤ maxDigits ∧ k = Text.number w ∧ r = m := by
  simp only [derives_number_ok, Terminal.scan_number_iff hw hne hm]
  constructor
  · rintro ⟨_, ⟨rfl, rfl⟩, hl, rfl⟩
    exact ⟨hl, rfl, rfl⟩
  · rintro ⟨hl, rfl, rfl⟩
    exact ⟨w, ⟨rfl, rfl⟩, hl, rfl⟩

/-- A short number without zeros in front is read as what it denotes. -/
lemma derives_numeral_iff (hm : Breaks m) :
    fieldGrammar.Derives (number .number) (digits n ++ m) (.ok k) r ↔
      isShort n = true ∧ k = n ∧ r = m := by
  rw [derives_number_iff (fun c => isDigit_of_mem_digits) digits_ne_nil hm, number_digits,
    length_digits_le_maxDigits]

/-- A number with at least two digits is read as what it denotes if it is below a hundred. -/
lemma derives_twoDigits_iff {few : ℕ} (hf : few ≤ 2) (ht : t.lexeme = Terminal.digits few 2)
    (hm : Breaks m) :
    fieldGrammar.Derives (number t) (fill 2 (digits n) ++ m) (.ok k) r ↔
      n < 100 ∧ k = n ∧ r = m := by
  rw [derives_digits_iff ht (by decide) (fun c => isDigit_of_mem_fill) fill_ne_nil hm, number_fill]
  have hlen := length_fill_two (n := n)
  have hmax : (fill 2 (digits n)).length = max 2 (digits n).length := length_fill
  refine and_congr_left fun _ => ?_
  omega

/-- A known name is read as what it names. -/
lemma derives_name_iff {β : Type} {f : Text → Option β} {b b' : β} {words : List Text}
    (hf : f w = some b) (ht : t.lexeme = Terminal.word words) (hw : Terminal.IsWord words w)
    (hm : Breaks m) :
    fieldGrammar.Derives (.build (fun w => orError (.unknownName w) (f w)) (.terminal t)) (w ++ m)
      (.ok b') r ↔ b' = b ∧ r = m := by
  simp only [derives_build_ok, derives_scan_iff, Terminal.scan_word_iff ht hw hm]
  constructor
  · rintro ⟨_, ⟨rfl, rfl⟩, he⟩
    rw [hf] at he
    exact ⟨(Except.ok.inj he).symm, rfl⟩
  · rintro ⟨rfl, rfl⟩
    exact ⟨w, ⟨rfl, rfl⟩, by rw [hf]; rfl⟩

/-- A value that is there is no error. -/
lemma orError_eq_ok_iff {α : Type} {e : BuildError} {o : Option α} {a : α} :
    orError e o = .ok a ↔ o = some a := by
  cases o <;> simp [orError]

/-! ### Lists -/

section Lists

variable {α : Type} {g : Part α} {f : α → Text} {sep : Text} {G : α → Text → Prop}
  {F A : Text → Prop}

/-- What is written after the first item of a list. -/
def tailText (sep : Text) (f : α → Text) (xs : List α) : Text :=
  xs.flatMap fun x => sep ++ f x

lemma joinWith_cons (x : α) (xs : List α) :
    joinWith sep f (x :: xs) = f x ++ tailText sep f xs := by
  induction xs generalizing x with
  | nil => simp [joinWith, tailText]
  | cons y ys ih =>
    rw [joinWith_cons_cons, ih y]
    simp [tailText]

/-- Each item of a list is good before what is written after it. -/
def EachBefore (sep : Text) (f : α → Text) (G : α → Text → Prop) (m : Text) : List α → Prop
  | [] => True
  | x :: xs => G x (tailText sep f xs ++ m) ∧ EachBefore sep f G m xs

lemma eachBefore_iff {G : α → Prop} {xs : List α} :
    EachBefore sep f (fun x _ => G x) m xs ↔ ∀ x ∈ xs, G x := by
  induction xs with
  | nil => simp [EachBefore]
  | cons x xs ih => simp [EachBefore, ih]

/-- After each item there is a comma or the end of the list. -/
lemma follow_tailText (hsep : sep = [','] ∨ sep = commaSpace) (hcomma : ∀ s, F (',' :: s))
    (hm : F m) (xs : List α) : F (tailText sep f xs ++ m) := by
  cases xs with
  | nil => exact hm
  | cons x xs => rcases hsep with rfl | rfl <;> exact hcomma _

/-- After an item there is a comma or the end of the list. -/
lemma after_of_many (hafter : ∀ s w q, Terminal.comma.scan s = some (w, q) → A s) {s : Text}
    {xs : List α} (h : fieldGrammar.Derives (.many .comma g) s (.ok xs) r) (hr : A r) :
    A s := by
  cases xs with
  | nil =>
    obtain rfl := derives_many_nil.mp h
    exact hr
  | cons x xs =>
    obtain ⟨w, p, q, hw, -, -⟩ := derives_many_cons.mp h
    exact hafter _ _ _ hw

/-- If the text of an item is read as that item if and only if it is good before what follows it, the
text of a list is read as that list if and only if each item is. -/
lemma derives_many_iff (hsep : sep = [','] ∨ sep = commaSpace) (hg : g.consumes = true)
    (hcomma : ∀ s, F (',' :: s)) (hafter : ∀ s w q, Terminal.comma.scan s = some (w, q) → A s)
    (hitem : ∀ {x m r}, F m → A r →
      (fieldGrammar.Derives g (f x ++ m) (.ok x) r ↔ G x m ∧ r = m))
    (hm : F m) (hr : A r) {l : List α} :
    fieldGrammar.Derives (.many .comma g) (tailText sep f l ++ m) (.ok l) r ↔
      EachBefore sep f G m l ∧ r = m := by
  induction l with
  | nil => simp [derives_many_nil, tailText, EachBefore]
  | cons x xs ih =>
    have hspace : ∀ {s q}, fieldGrammar.Derives g (sep.tail ++ s) (.ok x) q ↔
        fieldGrammar.Derives g s (.ok x) q := by
      intro s q
      rcases hsep with rfl | rfl
      · rfl
      · exact derives_space_iff hg
    have hscan : ∀ {s w p}, fieldGrammar.scan .comma (sep ++ s) = some (w, p) ↔
        w = [','] ∧ p = sep.tail ++ s := by
      intro s w p
      rcases hsep with rfl | rfl
      · exact scan_cons_iff (t := .comma) rfl rfl
      · exact scan_cons_iff (t := .comma) rfl rfl
    have htext : tailText sep f (x :: xs) ++ m =
        sep ++ (f x ++ (tailText sep f xs ++ m)) := by
      simp [tailText]
    rw [htext, derives_many_cons]
    constructor
    · rintro ⟨w, p, q, hw, hd, ht⟩
      obtain ⟨rfl, rfl⟩ := hscan.mp hw
      obtain ⟨hx, rfl⟩ := (hitem (follow_tailText hsep hcomma hm xs) (after_of_many hafter ht hr)).mp
        (hspace.mp hd)
      obtain ⟨hxs, rfl⟩ := ih.mp ht
      exact ⟨⟨hx, hxs⟩, rfl⟩
    · rintro ⟨⟨hx, hxs⟩, rfl⟩
      have ht := ih.mpr ⟨hxs, rfl⟩
      exact ⟨_, _, _, hscan.mpr ⟨rfl, rfl⟩,
        hspace.mpr ((hitem (follow_tailText hsep hcomma hm xs) (after_of_many hafter ht hr)).mpr
          ⟨hx, rfl⟩), ht⟩

lemma derives_listed_iff (hsep : sep = [','] ∨ sep = commaSpace) (hg : g.consumes = true)
    (hcomma : ∀ s, F (',' :: s)) (hafter : ∀ s w q, Terminal.comma.scan s = some (w, q) → A s)
    (hitem : ∀ {x m r}, F m → A r →
      (fieldGrammar.Derives g (f x ++ m) (.ok x) r ↔ G x m ∧ r = m))
    (hm : F m) (hr : A r) {l : List α} :
    fieldGrammar.Derives (listed g) (joinWith sep f l ++ m) (.ok l) r ↔
      l ≠ [] ∧ EachBefore sep f G m l ∧ r = m := by
  simp only [derives_map_ok, Prod.exists, derives_seq_ok]
  cases l with
  | nil => simp
  | cons x xs =>
    rw [joinWith_cons, List.append_assoc]
    constructor
    · rintro ⟨_, _, ⟨q, hd, ht⟩, he⟩
      obtain ⟨rfl, rfl⟩ := List.cons.inj he
      obtain ⟨hx, rfl⟩ := (hitem (follow_tailText hsep hcomma hm _) (after_of_many hafter ht hr)).mp hd
      obtain ⟨hxs, rfl⟩ := (derives_many_iff hsep hg hcomma hafter hitem hm hr).mp ht
      exact ⟨by simp, ⟨hx, hxs⟩, rfl⟩
    · rintro ⟨-, ⟨hx, hxs⟩, rfl⟩
      have ht := (derives_many_iff hsep hg hcomma hafter hitem hm hr).mpr ⟨hxs, rfl⟩
      exact ⟨x, xs, ⟨_, (hitem (follow_tailText hsep hcomma hm xs) (after_of_many hafter ht hr)).mpr
        ⟨hx, rfl⟩, ht⟩, rfl⟩

/-- The same where the items do not depend on what follows them. -/
lemma derives_listed_iff_forall {G : α → Prop} (hsep : sep = [','] ∨ sep = commaSpace)
    (hg : g.consumes = true) (hcomma : ∀ s, F (',' :: s))
    (hitem : ∀ {x m r}, F m →
      (fieldGrammar.Derives g (f x ++ m) (.ok x) r ↔ G x ∧ r = m))
    (hm : F m) {l : List α} :
    fieldGrammar.Derives (listed g) (joinWith sep f l ++ m) (.ok l) r ↔
      l ≠ [] ∧ (∀ x ∈ l, G x) ∧ r = m := by
  rw [derives_listed_iff (A := fun _ => True) (G := fun x _ => G x) hsep hg hcomma
    (fun _ _ _ _ => trivial) (fun hm _ => hitem hm) hm trivial, eachBefore_iff]

/-- Each item that is read after a comma is read. -/
lemma forall_of_derives_many {C : α → Prop} {s : Text} {xs : List α}
    (hC : ∀ s x r, fieldGrammar.Derives g s (.ok x) r → C x)
    (h : fieldGrammar.Derives (.many .comma g) s (.ok xs) r) : ∀ x ∈ xs, C x := by
  induction xs generalizing s with
  | nil => simp
  | cons x xs ih =>
    obtain ⟨w, p, q, -, hx, hxs⟩ := derives_many_cons.mp h
    exact List.forall_mem_cons.mpr ⟨hC _ _ _ hx, ih hxs⟩

/-- A list that is read has an item, and each of its items is read. -/
lemma forall_of_derives_listed {C : α → Prop} {s : Text} {xs : List α}
    (hC : ∀ s x r, fieldGrammar.Derives g s (.ok x) r → C x)
    (h : fieldGrammar.Derives (listed g) s (.ok xs) r) : xs ≠ [] ∧ ∀ x ∈ xs, C x := by
  obtain ⟨⟨x, xs⟩, h', rfl⟩ := derives_map_ok.mp h
  obtain ⟨q, hx, hxs⟩ := derives_seq_ok.mp h'
  exact ⟨List.cons_ne_nil _ _, List.forall_mem_cons.mpr ⟨hC _ _ _ hx, forall_of_derives_many hC hxs⟩⟩

lemma ne_nil_of_derives_listed {s : Text} {xs : List α}
    (h : fieldGrammar.Derives (listed g) s (.ok xs) r) : xs ≠ [] :=
  (forall_of_derives_listed (C := fun _ => True) (fun _ _ _ _ => trivial) h).1

end Lists

end Part

end OpeningTimes
