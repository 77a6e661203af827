import OpeningTimes.Field.Productions
import OpeningTimes.Proofs.Grammar.Decisive
import OpeningTimes.Proofs.Text.Numeral

/-!
What a text begins with, as far as a terminal can tell.

* `Opening`, `Opening.of`: the first word, number or mark of a text, sorted into finitely many kinds;
* `Terminal.openings`, `Terminal.opens_of_scan`: the openings of the texts that begin with a terminal;
* `Phrase.opens`, `Part.opens_of_begins`: the same for a whole phrase;
* `Avoids`: a text opens with none of some kinds.
-/

namespace OpeningTimes

open Text

/-- The kinds of beginnings of a text. Numbers are told apart by how many digits they have. -/
inductive Opening where
  | nothing
  | oneDigit
  | twoDigits
  | fourDigits
  /-- Any other number of digits. -/
  | digits
  | week
  | month
  | easter
  | weekday
  | holiday
  | day
  | event
  | opened
  | closed
  | unknown
  /-- Any other word. -/
  | word
  | quote
  | semicolon
  | bar
  | comma
  | colon
  | dash
  | slash
  | plus
  | leftBracket
  | rightBracket
  | leftParenthesis
  | rightParenthesis
  /-- Any other character. -/
  | mark
  deriving DecidableEq

namespace Opening

/-- All openings. -/
def all : List Opening :=
  [nothing, oneDigit, twoDigits, fourDigits, digits, week, month, easter, weekday, holiday, day,
    event, opened, closed, unknown, word, quote, semicolon, bar, comma, colon, dash, slash, plus,
    leftBracket, rightBracket, leftParenthesis, rightParenthesis, mark]

/-- Whether all openings have a property can be decided one by one. -/
instance : Fintype Opening := Fintype.ofList all (by intro o; cases o <;> decide)

/-- The opening of a text that begins with so many digits. -/
def ofDigits : ℕ → Opening
  | 1 => oneDigit
  | 2 => twoDigits
  | 4 => fourDigits
  | _ => digits

/-- The opening of a text that begins with a word of small letters. The word for weeks may have other
letters after it. -/
def ofWord (w : Text) : Opening :=
  if w.take 4 == Terminal.week then week
  else if Terminal.monthWords.contains w then month
  else if Terminal.movableWords.contains w then easter
  else if Terminal.weekdayWords.contains w then weekday
  else if Terminal.holidayWords.contains w then holiday
  else if Terminal.dayWords.contains w then day
  else if Terminal.eventWords.contains w then event
  else if w == Modifier.text .opened then opened
  else if Terminal.closedWords.contains w then closed
  else if w == Modifier.text .unknown then unknown
  else word

/-- The opening of a text that begins with neither a digit nor a letter. -/
def ofMark : Char → Opening
  | '"' => quote
  | ';' => semicolon
  | '|' => bar
  | ',' => comma
  | ':' => colon
  | '-' => dash
  | '/' => slash
  | '+' => plus
  | '[' => leftBracket
  | ']' => rightBracket
  | '(' => leftParenthesis
  | ')' => rightParenthesis
  | _ => mark

/-- The opening of a text without leading blanks. -/
def ofBare : Text → Opening
  | [] => nothing
  | c :: s =>
    if isDigit c then ofDigits ((c :: s).takeWhile isDigit).length
    else if isLetter c then ofWord (((c :: s).takeWhile isLetter).map fold)
    else ofMark c

/-- The opening of a text. -/
def of (s : Text) : Opening :=
  ofBare (skipBlanks s)

/-- The openings that are numbers. -/
def numbers : List Opening := [oneDigit, twoDigits, fourDigits, digits]

lemma ofDigits_mem_numbers (n : ℕ) : ofDigits n ∈ numbers := by
  unfold ofDigits
  split <;> decide

/-- Words of a kind are the known words of that kind. -/
lemma contains_of_ofWord_month {w : Text} (h : ofWord w = month) :
    Terminal.monthWords.contains w = true := by
  unfold ofWord at h
  split_ifs at h
  assumption

lemma contains_of_ofWord_easter {w : Text} (h : ofWord w = easter) :
    Terminal.movableWords.contains w = true := by
  unfold ofWord at h
  split_ifs at h
  assumption

lemma contains_of_ofWord_weekday {w : Text} (h : ofWord w = weekday) :
    Terminal.weekdayWords.contains w = true := by
  unfold ofWord at h
  split_ifs at h
  assumption

/-- A text that opens with a word begins with that word, whatever white space is before it. -/
lemma ofWord_of_eq {o : Opening} (ho : o ∈ [month, easter, weekday]) {s : Text} (h : of s = o) :
    ofWord (((s.dropWhile isSpace).takeWhile isLetter).map fold) = o := by
  have hmark : ∀ c, ofMark c ∉ [month, easter, weekday] := by
    intro c
    unfold ofMark
    split <;> decide
  have hnum : ∀ n ∈ numbers, n ∉ [month, easter, weekday] := by decide
  unfold of at h
  cases hs : skipBlanks s with
  | nil =>
    rw [hs, ofBare] at h
    rw [← h] at ho
    exact absurd ho (by decide)
  | cons c t =>
    rw [hs, ofBare] at h
    split at h
    · rw [← h] at ho
      exact absurd ho (hnum _ (ofDigits_mem_numbers _))
    split at h
    · next hc => rwa [dropWhile_isSpace_of_isLetter hs hc]
    · rw [← h] at ho
      exact absurd ho (hmark c)

end Opening

/-! ### Openings of terminals -/

namespace Terminal

/-- The openings of the texts that begin with a terminal. -/
def openings : Terminal → List Opening
  | ruleSeparator => [.semicolon, .bar]
  | comma => [.comma]
  | colon => [.colon]
  | dash => [.dash]
  | slash => [.slash]
  | plus | openEnd => [.plus]
  | leftBracket => [.leftBracket]
  | rightBracket => [.rightBracket]
  | leftParenthesis => [.leftParenthesis]
  | rightParenthesis => [.rightParenthesis]
  | always | minutes => [.twoDigits]
  | comment => [.quote]
  | year | loneYear => [.fourDigits]
  | month => [.month]
  | dayNumber | weekNumber | hours => [.oneDigit, .twoDigits]
  | easter => [.easter]
  | weekWord => [.week]
  | weekday => [.weekday]
  | holiday => [.holiday]
  | nth => [.oneDigit]
  | dayWord => [.day]
  | event => [.event]
  | openWord => [.opened]
  | closedWord => [.closed]
  | unknownWord => [.unknown]
  | sign => [.plus, .dash]
  | number => Opening.numbers

/-- Whether a text with a given opening may begin with a terminal. -/
def opens (t : Terminal) (o : Opening) : Bool :=
  t.openings.contains o

variable {s w r : Text}

lemma eq_append_of_literal {m : Text} (h : literal m s = some (w, r)) : s = m ++ r ∧ w = m := by
  unfold literal at h
  split at h
  · next hs =>
    obtain ⟨rfl, rfl⟩ := Prod.mk.inj (Option.some.inj h)
    refine ⟨?_, rfl⟩
    conv_lhs => rw [← List.take_append_drop m.length s, beq_iff_eq.mp hs]
  · cases h

lemma ofBare_of_literal {c : Char} {m : Text} (hd : isDigit c = false)
    (hl : isLetter c = false) (h : literal (c :: m) s = some (w, r)) :
    Opening.ofBare s = Opening.ofMark c := by
  obtain ⟨rfl, -⟩ := eq_append_of_literal h
  simp [Opening.ofBare, hd, hl]

lemma ofBare_of_always (h : literal ['2', '4', '/', '7'] s = some (w, r)) :
    Opening.ofBare s = .twoDigits := by
  obtain ⟨rfl, -⟩ := eq_append_of_literal h
  have h2 : isDigit '2' = true := by decide
  have h4 : isDigit '4' = true := by decide
  have hslash : isDigit '/' = false := by decide
  simp [Opening.ofBare, h2, h4, hslash, Opening.ofDigits]

lemma exists_digit_of_digits {few many : ℕ} (hf : 0 < few) (h : digits few many s = some (w, r)) :
    few ≤ w.length ∧ w.length ≤ many ∧ w = s.takeWhile isDigit ∧ r = s.dropWhile isDigit ∧
      ∃ c t, s = c :: t ∧ isDigit c = true := by
  unfold digits at h
  simp only at h
  split at h
  · next hs =>
    obtain ⟨rfl, rfl⟩ := Prod.mk.inj (Option.some.inj h)
    simp only [Bool.and_eq_true, decide_eq_true_eq] at hs
    refine ⟨hs.1, hs.2, rfl, rfl, ?_⟩
    cases s with
    | nil => simp at hs; omega
    | cons c t =>
      refine ⟨c, t, rfl, ?_⟩
      by_contra hc
      rw [List.takeWhile_cons_of_neg hc] at hs
      simp at hs
      omega
  · cases h

lemma ofBare_of_digits {few many : ℕ} (hf : 0 < few) (h : digits few many s = some (w, r)) :
    Opening.ofBare s = Opening.ofDigits w.length ∧ few ≤ w.length ∧ w.length ≤ many := by
  obtain ⟨hl, hu, hw, -, c, t, rfl, hc⟩ := exists_digit_of_digits hf h
  exact ⟨by rw [Opening.ofBare, if_pos hc, hw], hl, hu⟩

/-- A text that begins with a known word opens with its kind. -/
lemma opens_of_word {words : List Text} {o : Opening} (hnil : [] ∉ words)
    (ho : ∀ m ∈ words, Opening.ofWord m = o) (h : word words s = some (w, r)) :
    [o].contains (Opening.ofBare s) = true := by
  unfold word at h
  split at h
  · next hs =>
    have hm := List.contains_iff_mem.mp hs
    cases s with
    | nil => exact absurd hm (by simpa using hnil)
    | cons c t =>
      have hc : isLetter c = true := by
        by_contra hc
        rw [List.takeWhile_cons_of_neg hc] at hm
        exact hnil hm
      rw [Opening.ofBare, if_neg (by simp [isDigit_eq_false_of_isLetter hc]), if_pos hc, ho _ hm]
      simp
  · cases h

/-- A comment is a text without quotes between two of them. -/
lemma exists_of_quotation (h : quotation s = some (w, r)) :
    ∃ c, '"' ∉ c ∧ w = '"' :: c ++ ['"'] ∧ s = '"' :: c ++ '"' :: r := by
  have hsplit := splits_quotation s
  rw [h] at hsplit
  unfold quotation at h
  split at h
  · next u =>
    split at h
    · cases h
    · next q r' hd =>
      have hq : q = '"' := by
        have := List.head_dropWhile_not (· != '"') (l := u) (by simp [hd])
        simpa [hd] using this
      obtain ⟨rfl, rfl⟩ := Prod.mk.inj (Option.some.inj h)
      refine ⟨u.takeWhile (· != '"'), fun hmem => ?_, by rw [hq], by rw [hsplit.1, hq]; simp⟩
      have := List.mem_takeWhile_imp hmem
      simp at this
  · cases h

lemma quotation_append {c : Text} (hc : '"' ∉ c) :
    quotation ('"' :: c ++ '"' :: r) = some ('"' :: c ++ ['"'], r) := by
  have hall : ∀ a ∈ c, (a != '"') = true := fun a ha => by
    rw [bne_iff_ne]
    rintro rfl
    exact hc ha
  obtain ⟨htake, hdrop⟩ := takeWhile_append_of_head hall (m := '"' :: r) (by simp)
  simp only [List.cons_append, quotation, htake, hdrop]

lemma ofBare_of_quotation (h : quotation s = some (w, r)) : Opening.ofBare s = .quote := by
  obtain ⟨c, -, -, rfl⟩ := exists_of_quotation h
  have hd : isDigit '"' = false := by decide
  have hl : isLetter '"' = false := by decide
  simp [Opening.ofBare, hd, hl, Opening.ofMark]

lemma isDigit_of_nthDigit {c : Char} (h : ('1' ≤ c && c ≤ '5') = true) : isDigit c = true := by
  simp only [Bool.and_eq_true, decide_eq_true_eq] at h
  have h1 : 49 ≤ c.toNat := h.1
  have h5 : c.toNat ≤ 53 := h.2
  refine List.any_eq_true.mpr ⟨0x30, by decide, ?_⟩
  simp only [Bool.and_eq_true, decide_eq_true_eq]
  omega

lemma ofBare_of_nthDigit (h : nthDigit s = some (w, r)) : Opening.ofBare s = .oneDigit := by
  unfold nthDigit at h
  split at h
  · cases h
  · next c t =>
    split at h
    · next hc =>
      rw [Bool.and_eq_true] at hc
      have hd := isDigit_of_nthDigit hc.1
      have ht : t.takeWhile isDigit = [] := by
        cases t with
        | nil => rfl
        | cons d t => exact List.takeWhile_cons_of_neg (by simpa using hc.2)
      rw [Opening.ofBare, if_pos hd, List.takeWhile_cons_of_pos hd, ht]
      rfl
    · cases h

lemma ofBare_of_week (h : ((s.take 4).map fold == week) = true) :
    Opening.ofBare s = .week := by
  have hw : (s.take 4).map fold = week := beq_iff_eq.mp h
  match s, hw with
  | a :: b :: c :: d :: t, hw =>
    simp only [List.take_succ_cons, List.take_zero, List.map_cons, List.map_nil, week,
      List.cons.injEq, and_true] at hw
    obtain ⟨ha, hb, hc, hd⟩ := hw
    have la : isLetter a = true := by rw [isLetter, ha]; decide
    have lb : isLetter b = true := by rw [isLetter, hb]; decide
    have lc : isLetter c = true := by rw [isLetter, hc]; decide
    have ld : isLetter d = true := by rw [isLetter, hd]; decide
    simp [Opening.ofBare, isDigit_eq_false_of_isLetter la, la, lb, lc, ld, Opening.ofWord, week, ha,
      hb, hc, hd]
  | [], hw | [_], hw | [_, _], hw | [_, _, _], hw => simp [week] at hw

lemma opens_of_digits {few many : ℕ} (hf : 0 < few) (h : digits few many s = some (w, r))
    {os : List Opening} (hos : ∀ n, few ≤ n → n ≤ many → Opening.ofDigits n ∈ os) :
    os.contains (Opening.ofBare s) = true := by
  obtain ⟨hb, hl, hu⟩ := ofBare_of_digits hf h
  rw [hb, List.contains_iff_mem]
  exact hos _ hl hu

/-- A text that begins with a terminal has one of its openings. -/
theorem opens_of_scan {t : Terminal} (h : t.scan s = some (w, r)) :
    t.opens (Opening.of s) = true := by
  unfold scan at h
  unfold Opening.of
  generalize skipBlanks s = s at h
  cases t
  -- a mark is told by its first character
  case comma | colon | dash | slash | plus | leftBracket | rightBracket | leftParenthesis
      | rightParenthesis =>
    rw [ofBare_of_literal (by decide) (by decide) h]
    rfl
  case ruleSeparator | sign =>
    rcases Option.or_eq_some_iff.mp h with h | ⟨-, h⟩
    · rw [ofBare_of_literal (by decide) (by decide) h]
      rfl
    · rw [ofBare_of_literal (by decide) (by decide) h]
      rfl
  case openEnd =>
    rw [ofBare_of_literal (c := '+') (by decide) (by decide) (Option.filter_eq_some_iff.mp h).1]
    rfl
  case always =>
    rw [ofBare_of_always h]
    rfl
  case comment =>
    rw [ofBare_of_quotation h]
    rfl
  case nth =>
    rw [ofBare_of_nthDigit h]
    rfl
  case weekWord =>
    simp only [lexeme] at h
    split at h
    · next hw =>
      rw [ofBare_of_week hw]
      rfl
    · cases h
  -- a word is told by all of its letters
  case month | easter | weekday | holiday | dayWord | event | openWord | closedWord
      | unknownWord =>
    exact opens_of_word (by decide) (by decide) h
  -- a number is told by how many digits it has
  case year =>
    exact opens_of_digits (by omega) h fun n hl hu => by
      rw [show n = 4 by omega]
      decide
  case loneYear =>
    exact opens_of_digits (by omega) (Option.filter_eq_some_iff.mp h).1 fun n hl hu => by
      rw [show n = 4 by omega]
      decide
  case minutes =>
    exact opens_of_digits (by omega) h fun n hl hu => by
      rw [show n = 2 by omega]
      decide
  case dayNumber | weekNumber | hours =>
    exact opens_of_digits (by omega) h fun n hl hu => by
      rcases (by omega : n = 1 ∨ n = 2) with rfl | rfl <;> decide
  case number =>
    exact opens_of_digits (by omega) h fun n _ _ => Opening.ofDigits_mem_numbers n

end Terminal

/-! ### Openings of phrases -/

/-- Whether a text with a given opening may begin with a phrase, where the openings of terminals are
given. A call may begin with anything. -/
def Phrase.opens {τ ν ρ ε κ : Type} (first : τ → κ → Bool) :
    {α : Type} → Phrase τ ν ρ ε α → κ → Bool
  | _, .terminal t, o => first t o
  | _, .call _, _ => true
  | _, .build _ g, o => g.opens first o
  | _, .seq g h, o => g.opens first o || (!g.consumes && h.opens first o)
  | _, .alt g h, o => g.opens first o || h.opens first o
  | _, .opt g, o => g.opens first o
  | _, .many mark _, o => first mark o

namespace Part

variable {α : Type}

/-- A part that is a terminal, with the scanner of fields. -/
lemma begins_scan {t : Terminal} {P : Text → Prop} {s : Text} :
    fieldGrammar.Begins (.terminal t) P s ↔ ∃ w r, t.scan s = some (w, r) ∧ P r :=
  Grammar.begins_terminal

/-- Whether a text with a given opening may begin with a part of a field. -/
abbrev opens (g : Part α) (o : Opening) : Bool :=
  Phrase.opens Terminal.opens g o

/-- A text that begins with a part of a field has one of its openings, unless the part is absent. -/
theorem opens_or_eq_of_derives {g : Part α} {s r : Text} {v : Except BuildError α}
    (h : fieldGrammar.Derives g s v r) :
    opens g (Opening.of s) = true ∨ (g.consumes = false ∧ r = s) := by
  induction h with
  | terminal h => exact Or.inl (Terminal.opens_of_scan h)
  | call _ => exact Or.inl rfl
  | build _ ih => exact ih
  | seq _ _ ihg ihh =>
    simp only [opens, Phrase.opens, Phrase.consumes, Bool.or_eq_true, Bool.and_eq_true,
      Bool.not_eq_true', Bool.or_eq_false_iff] at ihg ihh ⊢
    rcases ihg with hg | ⟨hg, rfl⟩
    · exact Or.inl (Or.inl hg)
    · rcases ihh with hh | ⟨hh, rfl⟩
      · exact Or.inl (Or.inr ⟨hg, hh⟩)
      · exact Or.inr ⟨⟨hg, hh⟩, rfl⟩
  | left _ ih =>
    simp only [opens, Phrase.opens, Phrase.consumes, Bool.or_eq_true, Bool.and_eq_false_iff]
      at ih ⊢
    tauto
  | right _ ih =>
    simp only [opens, Phrase.opens, Phrase.consumes, Bool.or_eq_true, Bool.and_eq_false_iff]
      at ih ⊢
    tauto
  | present _ ih => exact ih.imp id fun h => ⟨rfl, h.2⟩
  | absent => exact Or.inr ⟨rfl, rfl⟩
  | done => exact Or.inr ⟨rfl, rfl⟩
  | more hm _ _ _ _ => exact Or.inl (Terminal.opens_of_scan hm)

/-- A text that begins with a part that is never empty has one of its openings. -/
theorem opens_of_begins {g : Part α} (hg : g.consumes = true) {P : Text → Prop} {s : Text}
    (h : fieldGrammar.Begins g P s) : opens g (Opening.of s) = true := by
  obtain ⟨v, r, hd, -⟩ := h
  rcases opens_or_eq_of_derives hd with h | ⟨h, -⟩
  · exact h
  · rw [hg] at h
    cases h

/-- Two parts that never open alike do not begin the same text. -/
lemma not_begins_of_opens {β : Type} {g : Part α} {h : Part β} (hg : g.consumes = true)
    (hh : h.consumes = true) (ho : ∀ o, opens g o = true → opens h o = false) {P Q : Text → Prop}
    {s : Text} (hs : fieldGrammar.Begins g P s) (hs' : fieldGrammar.Begins h Q s) : False := by
  have := ho _ (opens_of_begins hg hs)
  rw [opens_of_begins hh hs'] at this
  cases this

end Part

/-! ### Texts that do not open in some ways -/

/-- A text opens with none of some kinds. -/
def Avoids (K : List Opening) (s : Text) : Prop :=
  Opening.of s ∉ K

namespace Avoids

variable {K L : List Opening} {s : Text}

lemma mono (h : Avoids K s) (hs : ∀ o ∈ L, o ∈ K) : Avoids L s :=
  fun ho => h (hs _ ho)

lemma of_mem (h : Opening.of s ∈ K) (ho : ∀ o ∈ L, o ∉ K) : Avoids L s :=
  fun hs => ho _ hs h

lemma of_begins {α : Type} {g : Part α} {P : Text → Prop} (hg : g.consumes = true)
    (h : fieldGrammar.Begins g P s) (ho : ∀ o ∈ K, Part.opens g o = false) : Avoids K s := by
  intro hs
  have := ho _ hs
  rw [Part.opens_of_begins hg h] at this
  cases this

lemma of_scan {t : Terminal} {w r : Text} (h : t.scan s = some (w, r))
    (ho : ∀ o ∈ K, t.opens o = false) : Avoids K s := by
  intro hs
  have := ho _ hs
  rw [Terminal.opens_of_scan h] at this
  cases this

lemma not_scan {t : Terminal} {w r : Text} (h : Avoids K s) (ho : ∀ o ∈ t.openings, o ∈ K) :
    t.scan s ≠ some (w, r) := by
  intro ht
  exact h (ho _ (List.contains_iff_mem.mp (Terminal.opens_of_scan ht)))

/-- A text that avoids the openings of a part does not begin with it. -/
lemma not_begins {α : Type} {g : Part α} {P : Text → Prop} (h : Avoids K s)
    (hg : g.consumes = true) (ho : ∀ o, Part.opens g o = true → o ∈ K) :
    ¬ fieldGrammar.Begins g P s :=
  fun hb => h (ho _ (Part.opens_of_begins hg hb))

end Avoids

end OpeningTimes
