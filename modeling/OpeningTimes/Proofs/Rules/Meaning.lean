import OpeningTimes.Proofs.Field.Lexeme
import OpeningTimes.Proofs.Rules.Values
import OpeningTimes.Proofs.Text.Spelling

/-!
Terminals that mean something.

A word is recognized by the small letters that its characters stand for, but it names something only by
its own small and capital letters. These are the same except for the long s and the two foreign forms of
i. A number counts minutes only up to the greatest length of time, and with too many digits it is no number
at all, even if most of them are zeros.

* `Intelligible`: texts without such letters and without such numbers;
* `Text.capitalized_map_fold`, `Text.map_small_eq`: their words have the letters by which they are recognized;
* `Terminal.Means`: what the text of a terminal has to be for its value;
* `Terminal.means_of_scan`: every terminal of such a text means something.
-/

namespace OpeningTimes

open Text

/-! ### Letters -/

namespace Text

variable {c : Char} {w : Text}

/-- The letters by which a word is recognized and which are not its own ones. -/
def foreign : List Char := [longS, dottedI, dotlessI]

/-- The other letters are those of the alphabet and the Kelvin sign. -/
lemma isAlpha_or_eq_kelvin (hc : isLetter c = true) (hf : c ∉ foreign) :
    c.isAlpha = true ∨ c = kelvin := by
  have hchar : ∀ {n : ℕ}, c.toNat = n → Char.ofNat n ∈ foreign → False := by
    rintro n rfl hn
    rw [Char.ofNat_toNat] at hn
    exact hf hn
  have halpha : c.isAlpha = true ↔
      (65 ≤ c.toNat ∧ c.toNat ≤ 90) ∨ (97 ≤ c.toNat ∧ c.toNat ≤ 122) := by
    simp only [Char.isAlpha, Char.isUpper, Char.isLower, Bool.or_eq_true, Bool.and_eq_true,
      decide_eq_true_eq]
    rfl
  rcases isLetter_iff.mp hc with h | h | h | h | h | h
  · exact Or.inl (halpha.mpr (Or.inl h))
  · exact Or.inl (halpha.mpr (Or.inr h))
  · exact (hchar h (by decide)).elim
  · exact Or.inr (by rw [kelvin, ← h, Char.ofNat_toNat])
  · exact (hchar h (by decide)).elim
  · exact (hchar h (by decide)).elim

/-- A letter that is not foreign stands for its own small letter. -/
lemma small_eq_fold (hf : c ∉ foreign) : small c = fold c := by
  simp only [foreign, List.mem_cons, List.not_mem_nil, or_false, not_or] at hf
  simp [small, fold, hf]

/-- It has the capital letter of its small one, unless that is the letter k. -/
lemma capital_fold (hc : isLetter c = true) (hf : c ∉ foreign) (hk : fold c ≠ 'k') :
    capital (fold c) = capital c := by
  rcases isAlpha_or_eq_kelvin hc hf with hc | rfl
  · exact forall_isAlpha (P := fun c => capital (fold c) = capital c) (by decide +kernel) c hc
  · exact absurd rfl hk

/-- A small letter stands for itself. -/
lemma small_fold (hc : isLetter c = true) : small (fold c) = fold c := by
  have halpha : (fold c).isAlpha = true := by
    rw [Char.isAlpha, Bool.or_eq_true]
    exact Or.inr hc
  exact forall_isAlpha (P := fun c => c.isLower = true → small c = c) (by decide +kernel) _ halpha hc

lemma map_small_eq (hf : ∀ c ∈ w, c ∉ foreign) : w.map small = w.map fold :=
  List.map_congr_left fun c hc => small_eq_fold (hf c hc)

/-- A word names what the small letters name for which it stands, unless these begin with k. -/
lemma capitalized_map_fold (hw : ∀ c ∈ w, isLetter c = true) (hf : ∀ c ∈ w, c ∉ foreign)
    (hk : (w.map fold).head? ≠ some 'k') : capitalized (w.map fold) = capitalized w := by
  cases w with
  | nil => rfl
  | cons c w =>
    rw [List.forall_mem_cons] at hw hf
    rw [List.map_cons, capitalized, capitalized, List.map_map, map_small_eq hf.2]
    refine List.cons_eq_cons.mpr ⟨capital_fold hw.1 hf.1 (by simpa using hk), ?_⟩
    exact List.map_congr_left fun d hd => small_fold (hw.2 d hd)

end Text

/-! ### Intelligible texts -/

/-- A text without foreign letters, without numbers of minutes beyond any length of time, and without numbers
of too many digits. -/
structure Intelligible (s : Text) : Prop where
  letters : ∀ c ∈ s, c ∉ foreign
  numbers : ∀ w, w <:+: s → (∀ c ∈ w, isDigit c = true) → number w < 1440000000000
  short : ∀ w, w <:+: s → (∀ c ∈ w, isDigit c = true) → w.length ≤ maxDigits

lemma Intelligible.of_infix {s u : Text} (h : Intelligible s) (hu : u <:+: s) : Intelligible u :=
  ⟨fun c hc => h.letters c (hu.subset hc), fun w hw => h.numbers w (hw.trans hu),
    fun w hw => h.short w (hw.trans hu)⟩

/-- The digits of an intelligible text are a number. -/
lemma Intelligible.number? {w : Text} (h : Intelligible w) (hw : ∀ c ∈ w, isDigit c = true) :
    number? w = some (number w) :=
  number?_eq_some_iff.mpr ⟨h.short w (List.infix_refl w) hw, rfl⟩

/-- Below the bound a number of minutes is a length of time. -/
lemma exists_ofMinutes {n : ℕ} (hn : n < 1440000000000) : ∃ t, Time.ofMinutes? n = some t := by
  obtain ⟨d, hd⟩ := Duration.exists_ofMinutes (n := n) (by omega) (by omega)
  exact ⟨_, by rw [Time.ofMinutes?, hd, Option.map_some]⟩

namespace Terminal

variable {t : Terminal} {s w r : Text}

/-- What the text of a terminal has to be for its value. Hours and minutes make a length of time
together. -/
def Means (t : Terminal) (w : Text) : Prop :=
  match t with
  | weekday => ∃ d, Weekday.ofName? w = some d
  | month => ∃ m, Month.ofName? w = some m
  | event => ∃ e, Event.ofName? w = some e
  | nth => ∃ n, Nth.ofNumber? (Text.number w) = some n
  | year | loneYear | dayNumber | weekNumber => ∃ n, number? w = some n
  | hours | minutes => ∃ n, number? w = some n ∧ IsTwoDigits n
  | number => ∃ n, number? w = some n ∧ ∃ t, Time.ofMinutes? n = some t
  | ruleSeparator | comma => w ∈ Rule.separators
  | _ => True

/-- A word that has its own letters names what it is recognized as. -/
lemma exists_of_capitalized {α : Type} {words : List Text} {f : Text → Option α}
    (hf : ∀ u v, capitalized u = capitalized v → f u = f v)
    (hwords : ∀ u ∈ words, u.head? ≠ some 'k' ∧ (f u).isSome) (hs : Intelligible w)
    (h : word words s = some (w, r)) : ∃ a, f w = some a := by
  obtain ⟨-, hw, -, hmem⟩ := word_eq_some_iff.mp h
  obtain ⟨hk, ha⟩ := hwords _ hmem
  rw [hf _ w (capitalized_map_fold hw hs.letters hk)] at ha
  exact Option.isSome_iff_exists.mp ha

/-- Each of the five digits numbers an occurrence. -/
lemma isSome_ofNumber? {c : Char} (hc : ('1' ≤ c && c ≤ '5') = true) :
    (Nth.ofNumber? (Text.number [c])).isSome = true := by
  simp only [Bool.and_eq_true, decide_eq_true_eq] at hc
  have hlow : 49 ≤ c.toNat := hc.1
  have hhigh : c.toNat ≤ 53 := hc.2
  have hdigits : ∀ n < 54, 49 ≤ n → (Nth.ofNumber? (Text.number [Char.ofNat n])).isSome = true := by
    decide
  rw [← Char.ofNat_toNat c]
  exact hdigits c.toNat (by omega) hlow

/-- In an intelligible text every terminal means something. -/
theorem means_of_lexeme (hs : Intelligible s) (h : t.lexeme s = some (w, r)) : t.Means w := by
  have hw : Intelligible w := by
    obtain ⟨rfl, -⟩ := eq_append_of_lexeme h
    exact hs.of_infix (List.prefix_append w r).isInfix
  cases t
  -- a name has no other letters than those by which it is recognized
  case weekday =>
    refine exists_of_capitalized (fun u v h => ?_) (by decide) hw h
    rw [Weekday.ofName?, Weekday.ofName?, h]
  case month =>
    refine exists_of_capitalized (fun u v h => ?_) (by decide) hw h
    rw [Month.ofName?, Month.ofName?, h]
  case event =>
    obtain ⟨-, -, -, hmem⟩ := word_eq_some_iff.mp h
    rw [← map_small_eq hw.letters] at hmem
    obtain ⟨e, he, hname⟩ := List.mem_map.mp hmem
    exact Option.isSome_iff_exists.mp (List.find?_isSome.mpr ⟨e, he, beq_iff_eq.mpr hname⟩)
  case nth =>
    obtain ⟨c, rfl, -, hc, -⟩ := nthDigit_eq_some_iff.mp h
    exact Option.isSome_iff_exists.mp (isSome_ofNumber? hc)
  -- few enough digits are a number, whatever they are
  case year | dayNumber | weekNumber =>
    obtain ⟨-, hdigit, -⟩ := digits_eq_some_iff.mp h
    exact ⟨_, hw.number? hdigit⟩
  case loneYear =>
    obtain ⟨-, hdigit, -⟩ := digits_eq_some_iff.mp (Option.filter_eq_some_iff.mp h).1
    exact ⟨_, hw.number? hdigit⟩
  case hours | minutes =>
    obtain ⟨-, hdigit, -, -, hlen⟩ := digits_eq_some_iff.mp h
    have := (number_lt w).trans_le (Nat.pow_le_pow_right (by decide) hlen)
    exact ⟨_, hw.number? hdigit, Int.natCast_nonneg _, by omega⟩
  -- this one counts minutes as well, of which there must not be too many
  case number =>
    obtain ⟨-, hdigit, -⟩ := digits_eq_some_iff.mp h
    exact ⟨_, hw.number? hdigit, exists_ofMinutes (hw.numbers w (List.infix_refl w) hdigit)⟩
  case ruleSeparator =>
    rcases Option.or_eq_some_iff.mp h with h | ⟨-, h⟩
    · obtain ⟨-, rfl⟩ := eq_append_of_literal h
      exact (by decide : [';'] ∈ Rule.separators)
    · obtain ⟨-, rfl⟩ := eq_append_of_literal h
      exact (by decide : ['|', '|'] ∈ Rule.separators)
  case comma =>
    obtain ⟨-, rfl⟩ := eq_append_of_literal h
    exact (by decide : [','] ∈ Rule.separators)
  all_goals trivial

lemma means_of_scan (hs : Intelligible s) (h : t.scan s = some (w, r)) : t.Means w :=
  means_of_lexeme (hs.of_infix (List.dropWhile_suffix _).isInfix) h

/-- What a terminal leaves of an intelligible text is one. -/
lemma intelligible_of_scan (hs : Intelligible s) (h : t.scan s = some (w, r)) : Intelligible r :=
  hs.of_infix (suffix_of_scan h).isInfix

end Terminal

end OpeningTimes
