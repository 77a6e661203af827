import OpeningTimes.Proofs.Canonical.Scan
import OpeningTimes.Proofs.Rules.Text

/-!
Weekdays and holidays that a field can hold, and how they are read.

* `NthRange.Canonical`, `WeekdayRange.Canonical`, `Holiday.Canonical`, `DaySelector.Canonical`: what a
  field can hold;
* `Part.derives_weekdayRange_iff`, `Part.derives_holiday_iff`, `Part.derives_daySelector_iff`: the text
  of such a thing is read as that thing if and only if a field can hold it.
-/

namespace OpeningTimes

open Grammar Text

/-! ### What a field can hold -/

/-- The ranges of occurrences that a field can hold. The last occurrence stands alone. -/
inductive NthRange.Canonical : NthRange → Prop where
  | single {n : Nth} (hn : n ≠ .last) : Canonical { start := some n }
  | range {n k : Nth} (hn : n ≠ .last) (hk : k ≠ .last) :
    Canonical { start := some n, stop := some k }
  | last : Canonical { start := some .last }

/-- The ranges of weekdays that a field can hold: a range without occurrences and without an offset,
or a single day with a short offset. -/
inductive WeekdayRange.Canonical : WeekdayRange → Prop where
  | range (d e : Weekday) : Canonical { start := some d, stop := some e }
  | single (d : Weekday) {ns : List NthRange} (hns : ∀ n ∈ ns, n.Canonical) {offset : ℤ}
    (ho : isShort offset = true) : Canonical { start := some d, nths := ns, offset := offset }

lemma WeekdayRange.Canonical.isSome_start {x : WeekdayRange} (h : x.Canonical) :
    x.start.isSome = true := by
  cases h <;> rfl

/-- The holidays that a field can hold. Public holidays have no offset, and other ones have a short
one. -/
structure Holiday.Canonical (h : Holiday) : Prop where
  offset : h.plural = true → h.offset = 0
  short : isShort h.offset = true

/-- The weekdays and holidays that a field can hold. -/
structure DaySelector.Canonical (s : DaySelector) : Prop where
  ranges : ∀ r ∈ s.ranges, r.Canonical
  holidays : ∀ h ∈ s.holidays, h.Canonical

/-! ### The opening of a mark -/

lemma Opening.of_cons {c : Char} {s : Text} (hb : isBlank c = false) (hd : isDigit c = false)
    (hl : isLetter c = false) : Opening.of (c :: s) = Opening.ofMark c := by
  rw [Opening.of, Terminal.skipBlanks_cons hb, Opening.ofBare]
  simp [hd, hl]

lemma Opening.of_space {s : Text} : Opening.of (' ' :: s) = Opening.of s := by
  rw [Opening.of, Part.skipBlanks_space, Opening.of]

/-- A text that begins with a mark avoids all openings but that of the mark. -/
lemma Avoids.cons {os : List Opening} {c : Char} {s : Text} (hb : isBlank c = false)
    (hd : isDigit c = false) (hl : isLetter c = false) (ho : Opening.ofMark c ∉ os) :
    Avoids os (c :: s) := by
  rw [Avoids, Opening.of_cons hb hd hl]
  exact ho

lemma Avoids.space {os : List Opening} {s : Text} (h : Avoids os s) : Avoids os (' ' :: s) := by
  rw [Avoids, Opening.of_space]
  exact h

/-! ### The names of weekdays -/

lemma Weekday.ofName?_name (d : Weekday) : Weekday.ofName? d.name = some d := by
  cases d <;> decide

lemma Weekday.isWord_name (d : Weekday) : Terminal.IsWord Terminal.weekdayWords d.name := by
  cases d <;> decide

namespace Part

variable {m r : Text}

/-! ### Offsets -/

lemma scan_space {t : Terminal} {s : Text} : t.scan (' ' :: s) = t.scan s := by
  rw [Terminal.scan, skipBlanks_space, Terminal.scan]

/-- The sign of an offset of days. -/
def dayOffsetSign (n : ℤ) : Char :=
  if 0 < n then '+' else '-'

/-- The word after the number of an offset of days. -/
def dayOffsetWord (n : ℤ) : Text :=
  ['d', 'a', 'y'] ++ if 1 < n.natAbs then ['s'] else []

lemma isWord_dayOffsetWord (n : ℤ) : Terminal.IsWord Terminal.dayWords (dayOffsetWord n) := by
  unfold dayOffsetWord
  split <;> decide

lemma dayOffset_text_eq {n : ℤ} (hn : n ≠ 0) (spaced : Bool) :
    DayOffset.text n spaced ++ m =
      (if spaced then [' '] else []) ++
        dayOffsetSign n :: (digits n.natAbs ++ ' ' :: (dayOffsetWord n ++ m)) := by
  have h0 : (n == 0) = false := by simpa using hn
  rcases lt_or_gt_of_ne hn with hlt | hgt
  · have hle : ¬ 0 < n := by omega
    simp [DayOffset.text, dayOffsetSign, dayOffsetWord, Text.numeral, h0, hle, hlt]
  · have hle : ¬ n < 0 := by omega
    simp [DayOffset.text, dayOffsetSign, dayOffsetWord, Text.numeral, h0, hle, hgt]

lemma natAbs_signed (sign : Text) (n : ℤ) : (signed sign n).natAbs = n.natAbs := by
  unfold signed
  split
  · exact Int.natAbs_neg n
  · rfl

/-- An offset of days that is read has few enough digits. -/
lemma isShort_of_derives_dayOffset {s : Text} {n : ℤ}
    (h : fieldGrammar.Derives dayOffset s (.ok n) r) : isShort n = true := by
  obtain ⟨⟨sign, k⟩, hseq, rfl⟩ := derives_map_ok.mp h
  obtain ⟨_, -, hq⟩ := derives_seq_ok.mp hseq
  obtain ⟨_, _, hk, -⟩ := derives_before_iff.mp hq
  rw [isShort_iff, natAbs_signed]
  exact isShort_iff.mp (isShort_of_derives_number hk)

lemma isShort_of_derives_opt_dayOffset {s : Text} {o : Option ℤ}
    (h : fieldGrammar.Derives (.opt dayOffset) s (.ok o) r) : isShort (o.getD 0) = true := by
  cases o with
  | none => exact isShort_zero
  | some n => exact isShort_of_derives_dayOffset (derives_opt_some.mp h)

/-- The text of an offset of days is read as that offset, if it is short. -/
lemma derives_dayOffset_iff {n k : ℤ} (hn : n ≠ 0) (spaced : Bool) (hm : Breaks m) :
    fieldGrammar.Derives dayOffset (DayOffset.text n spaced ++ m) (.ok k) r ↔
      isShort n = true ∧ k = n ∧ r = m := by
  have hspace : ∀ {s q}, fieldGrammar.Derives dayOffset ((if spaced then [' '] else []) ++ s) (.ok k)
      q ↔ fieldGrammar.Derives dayOffset s (.ok k) q := by
    intro s q
    cases spaced
    · exact Iff.rfl
    · exact derives_space_iff rfl
  have hsign : dayOffsetSign n ∈ ['+', '-'] := by
    unfold dayOffsetSign
    split <;> simp
  have hb : Breaks (' ' :: (dayOffsetWord n ++ m)) := breaks_cons rfl rfl
  have hvalue : signed [dayOffsetSign n] n.natAbs = n := by
    unfold dayOffsetSign
    split
    · rw [signed, if_neg (by decide)]
      omega
    · rw [signed, if_pos (by decide)]
      omega
  have hscan : ∀ {w q}, Terminal.dayWord.scan (' ' :: (dayOffsetWord n ++ m)) = some (w, q) ↔
      w = dayOffsetWord n ∧ q = m := by
    intro w q
    rw [scan_space]
    exact Terminal.scan_word_iff (t := .dayWord) rfl (isWord_dayOffsetWord n) hm
  rw [dayOffset_text_eq hn, hspace, dayOffset, derives_map_ok]
  constructor
  · -- the sign is read first, and then as many days as there are without it
    rintro ⟨⟨sign, a⟩, hseq, rfl⟩
    obtain ⟨q, hs, hq⟩ := derives_seq_ok.mp hseq
    obtain ⟨rfl, rfl⟩ := (scan_sign_iff hsign).mp (derives_scan_iff.mp hs)
    obtain ⟨p, w, hp, hw⟩ := derives_before_iff.mp hq
    obtain ⟨hshort, rfl, rfl⟩ := (derives_numeral_iff hb).mp hp
    exact ⟨isShort_natAbs.symm.trans hshort, hvalue, (hscan.mp hw).2⟩
  · rintro ⟨hshort, rfl, rfl⟩
    refine ⟨([dayOffsetSign k], k.natAbs), derives_seq_ok.mpr ⟨_, derives_scan_iff.mpr
      ((scan_sign_iff hsign).mpr ⟨rfl, rfl⟩), derives_before_iff.mpr ⟨_, _,
        (derives_numeral_iff hb).mpr ⟨isShort_natAbs.trans hshort, rfl, rfl⟩,
          hscan.mpr ⟨rfl, rfl⟩⟩⟩, hvalue⟩

/-- A short offset of days that may be missing is read as what it is, if no other one follows. -/
lemma derives_opt_dayOffset_iff {n : ℤ} (spaced : Bool) (hm : Breaks m)
    (ha : ¬ fieldGrammar.Begins dayOffset (fun _ => True) m) :
    (∃ o : Option ℤ, fieldGrammar.Derives (.opt dayOffset) (DayOffset.text n spaced ++ m) (.ok o) r ∧
      o.getD 0 = n) ↔ isShort n = true ∧ r = m := by
  by_cases hn : n = 0
  · subst hn
    rw [show DayOffset.text 0 spaced ++ m = m from rfl]
    constructor
    · rintro ⟨_ | k, h, -⟩
      · exact ⟨isShort_zero, derives_opt_none.mp h⟩
      · exact (ha ⟨_, r, derives_opt_some.mp h, trivial⟩).elim
    · exact fun h => ⟨none, derives_opt_none.mpr h.2, rfl⟩
  · constructor
    · rintro ⟨_ | k, h, hk⟩
      · exact absurd hk.symm hn
      · obtain ⟨hshort, -, hr⟩ := (derives_dayOffset_iff hn spaced hm).mp (derives_opt_some.mp h)
        exact ⟨hshort, hr⟩
    · exact fun ⟨hshort, hr⟩ => ⟨some n, derives_opt_some.mpr
        ((derives_dayOffset_iff hn spaced hm).mpr ⟨hshort, rfl, hr⟩), rfl⟩

lemma breaks_dayOffset_text (n : ℤ) (hm : Breaks m) : Breaks (DayOffset.text n true ++ m) := by
  by_cases hn : n = 0
  · subst hn
    exact hm
  · rw [dayOffset_text_eq hn]
    exact breaks_cons rfl rfl

/-! ### Weekdays -/

/-- The name of a weekday is read as that weekday. -/
lemma derives_weekday_iff {d d' : Weekday} (hm : Breaks m) :
    fieldGrammar.Derives weekday (d.name ++ m) (.ok d') r ↔ d' = d ∧ r = m :=
  derives_name_iff d.ofName?_name (t := .weekday) rfl d.isWord_name hm

lemma opening_weekday (d : Weekday) (hm : Breaks m) : Opening.of (d.name ++ m) = .weekday :=
  Terminal.opening_of_isWord (t := .weekday) rfl d.isWord_name hm (by decide)

/-- The number of an occurrence is read as that occurrence, if it is not counted from the end. -/
lemma derives_nth_iff {n k : Nth} (hn : n ≠ .last) (hm : Breaks m) :
    fieldGrammar.Derives nth (Nth.text (some n) ++ m) (.ok k) r ↔ k = n ∧ r = m := by
  have hdigit : ∀ n : Nth, n ≠ .last → ∃ c, Nth.text (some n) = [c] ∧ isBlank c = false ∧
      ('1' ≤ c && c ≤ '5') = true ∧ Nth.ofNumber? (Text.number [c]) = some n := by
    intro n hn
    cases n with
    | last => exact absurd rfl hn
    | first => exact ⟨'1', by decide⟩
    | second => exact ⟨'2', by decide⟩
    | third => exact ⟨'3', by decide⟩
    | fourth => exact ⟨'4', by decide⟩
    | fifth => exact ⟨'5', by decide⟩
  obtain ⟨c, htext, hblank, hc, hnum⟩ := hdigit n hn
  have hhead : m.head?.any isDigit = false := by
    cases m with
    | nil => rfl
    | cons a m => simpa using (hm a (by simp)).1
  have hscan : ∀ {w q}, Terminal.nth.scan (c :: m) = some (w, q) ↔ w = [c] ∧ q = m := by
    intro w q
    rw [Terminal.scan, Terminal.skipBlanks_cons hblank, Terminal.lexeme, Terminal.nthDigit, hc, hhead]
    simp [eq_comm]
  rw [htext, List.singleton_append, nth, derives_build_ok]
  simp only [derives_scan_iff, hscan, orError_eq_ok_iff]
  constructor
  · rintro ⟨_, ⟨rfl, rfl⟩, hk⟩
    rw [hnum] at hk
    exact ⟨(Option.some.inj hk).symm, rfl⟩
  · rintro ⟨rfl, rfl⟩
    exact ⟨[c], ⟨rfl, rfl⟩, hnum⟩

/-- Only the occurrences that are counted from the beginning have a number. -/
lemma ne_last_of_derives_nth {s : Text} {n : Nth} (h : fieldGrammar.Derives nth s (.ok n) r) :
    n ≠ .last := by
  obtain ⟨w, -, hn⟩ := derives_build_ok.mp h
  have hmem : n ∈ Nth.counted := List.mem_of_find?_eq_some (orError_eq_ok_iff.mp hn)
  rintro rfl
  exact absurd hmem (by decide)

/-- The three forms of a range of occurrences. From the end only the last one is counted. -/
lemma derives_nthRange_ok {s : Text} {x : NthRange} :
    fieldGrammar.Derives nthRange s (.ok x) r ↔
      (∃ n, fieldGrammar.Derives nth s (.ok n) r ∧ x = { start := some n }) ∨
      (∃ n k q w p, fieldGrammar.Derives nth s (.ok n) q ∧ Terminal.dash.scan q = some (w, p) ∧
        fieldGrammar.Derives nth p (.ok k) r ∧ x = { start := some n, stop := some k }) ∨
      ∃ w p, Terminal.dash.scan s = some (w, p) ∧ fieldGrammar.Derives nth p (.ok .first) r ∧
        x = { start := some .last } := by
  constructor
  · intro h
    rcases derives_alt.mp h with h | h
    · obtain ⟨⟨n, o⟩, hseq, rfl⟩ := derives_map_ok.mp h
      obtain ⟨q, hn, ho⟩ := derives_seq_ok.mp hseq
      cases o with
      | none =>
        obtain rfl := derives_opt_none.mp ho
        exact Or.inl ⟨n, hn, rfl⟩
      | some k =>
        obtain ⟨w, p, hw, hk⟩ := derives_after_ok.mp (derives_opt_some.mp ho)
        exact Or.inr (Or.inl ⟨n, k, q, w, p, hn, hw, hk, rfl⟩)
    · obtain ⟨n, h', hx⟩ := derives_build_ok.mp h
      obtain ⟨w, p, hw, hn⟩ := derives_after_ok.mp h'
      split at hx
      · next hfirst =>
        obtain rfl := Except.ok.inj hx
        rw [beq_iff_eq.mp hfirst] at hn
        exact Or.inr (Or.inr ⟨w, p, hw, hn, rfl⟩)
      · cases hx
  · rintro (⟨n, hn, rfl⟩ | ⟨n, k, q, w, p, hn, hw, hk, rfl⟩ | ⟨w, p, hw, hn, rfl⟩)
    · exact .left (derives_map_ok.mpr ⟨(n, none), derives_seq_ok.mpr
        ⟨r, hn, derives_opt_none.mpr rfl⟩, rfl⟩)
    · exact .left (derives_map_ok.mpr ⟨(n, some k), derives_seq_ok.mpr
        ⟨q, hn, derives_opt_some.mpr (derives_after_ok.mpr ⟨w, p, hw, hk⟩)⟩, rfl⟩)
    · exact .right (derives_build_ok.mpr ⟨.first, derives_after_ok.mpr ⟨w, p, hw, hn⟩, rfl⟩)

/-- Every range of occurrences that is read is one that a field can hold. -/
lemma canonical_of_derives_nthRange {s : Text} {x : NthRange}
    (h : fieldGrammar.Derives nthRange s (.ok x) r) : x.Canonical := by
  rcases derives_nthRange_ok.mp h with ⟨n, hn, rfl⟩ | ⟨n, k, _, _, _, hn, -, hk, rfl⟩ |
    ⟨_, _, -, -, rfl⟩
  · exact .single (ne_last_of_derives_nth hn)
  · exact .range (ne_last_of_derives_nth hn) (ne_last_of_derives_nth hk)
  · exact .last

lemma NthRange.text_single (n : Nth) : NthRange.text { start := some n } = Nth.text (some n) := by
  simp [NthRange.text]

lemma NthRange.text_range (n k : Nth) : NthRange.text { start := some n, stop := some k } =
    Nth.text (some n) ++ '-' :: Nth.text (some k) := by
  simp [NthRange.text]

/-- The last occurrence is written as the first one from the end. -/
lemma NthRange.text_last (s : Text) :
    NthRange.text { start := some .last } ++ s = '-' :: (Nth.text (some .first) ++ s) :=
  rfl

/-- The text of a range of occurrences is read as that range if and only if a field can hold it. -/
lemma derives_nthRange_iff {x : NthRange} (hm : Breaks m) :
    fieldGrammar.Derives nthRange (x.text ++ m) (.ok x) r ↔ x.Canonical ∧ r = m := by
  have hdash : ∀ {s}, Breaks ('-' :: s) := breaks_cons rfl rfl
  constructor
  · intro h
    refine ⟨canonical_of_derives_nthRange h, ?_⟩
    rcases derives_nthRange_ok.mp h with ⟨n, hn, rfl⟩ | ⟨n, k, q, w, p, hn, hw, hk, rfl⟩ |
      ⟨w, p, hw, hn, rfl⟩
    · rw [NthRange.text_single] at hn
      exact ((derives_nth_iff (ne_last_of_derives_nth hn) hm).mp hn).2
    · rw [NthRange.text_range, List.append_assoc, List.cons_append] at hn
      obtain ⟨-, rfl⟩ := (derives_nth_iff (ne_last_of_derives_nth hn) hdash).mp hn
      obtain ⟨-, rfl⟩ := (scan_cons_iff (t := .dash) rfl rfl).mp hw
      exact ((derives_nth_iff (ne_last_of_derives_nth hk) hm).mp hk).2
    · rw [NthRange.text_last] at hw
      obtain ⟨-, rfl⟩ := (scan_cons_iff (t := .dash) rfl rfl).mp hw
      exact ((derives_nth_iff (by decide) hm).mp hn).2
  · rintro ⟨hx, rfl⟩
    rw [derives_nthRange_ok]
    cases hx with
    | @single n hn =>
      rw [NthRange.text_single]
      exact Or.inl ⟨n, (derives_nth_iff hn hm).mpr ⟨rfl, rfl⟩, rfl⟩
    | @range n k hn hk =>
      rw [NthRange.text_range, List.append_assoc, List.cons_append]
      exact Or.inr (Or.inl ⟨n, k, _, _, _, (derives_nth_iff hn hdash).mpr ⟨rfl, rfl⟩,
        (scan_cons_iff rfl rfl).mpr ⟨rfl, rfl⟩, (derives_nth_iff hk hm).mpr ⟨rfl, rfl⟩, rfl⟩)
    | last =>
      rw [NthRange.text_last]
      exact Or.inr (Or.inr ⟨_, _, (scan_cons_iff rfl rfl).mpr ⟨rfl, rfl⟩,
        (derives_nth_iff (by decide) hm).mpr ⟨rfl, rfl⟩, rfl⟩)

/-- Occurrences in brackets are at least one, and a field can hold each of them. -/
lemma canonical_of_derives_nths {s : Text} {ns : List NthRange}
    (h : fieldGrammar.Derives nths s (.ok ns) r) : ns ≠ [] ∧ ∀ n ∈ ns, n.Canonical := by
  obtain ⟨_, _, -, h⟩ := derives_after_ok.mp h
  obtain ⟨_, _, h, -⟩ := derives_before_iff.mp h
  exact forall_of_derives_listed (fun _ _ _ => canonical_of_derives_nthRange) h

/-- The text of occurrences in brackets is read as these occurrences if and only if a field can hold
each of them. -/
lemma derives_nths_iff {ns : List NthRange} :
    fieldGrammar.Derives nths ('[' :: (joinWith [','] NthRange.text ns ++ ']' :: m)) (.ok ns) r ↔
      ns ≠ [] ∧ (∀ n ∈ ns, n.Canonical) ∧ r = m := by
  have hb : Breaks (']' :: m) := breaks_cons rfl rfl
  have hlist := fun {q} => derives_listed_iff_forall (r := q) (l := ns) (Or.inl rfl) rfl
    (fun _ => breaks_cons rfl rfl) (fun hm => derives_nthRange_iff hm) hb
  rw [nths, derives_after_iff (t := .leftBracket) rfl rfl, derives_before_iff]
  simp only [hlist]
  constructor
  · rintro ⟨_, w, ⟨hne, hns, rfl⟩, hw⟩
    exact ⟨hne, hns, ((scan_cons_iff (t := .rightBracket) rfl rfl).mp hw).2⟩
  · rintro ⟨hne, hns, rfl⟩
    exact ⟨_, _, ⟨hne, hns, rfl⟩, (scan_cons_iff (t := .rightBracket) rfl rfl).mpr ⟨rfl, rfl⟩⟩

/-- What may follow a range of weekdays in a written text. -/
def EndsWeekday (m : Text) : Prop :=
  Breaks m ∧ afterWeekday m

lemma WeekdayRange.text_single (d : Weekday) (ns : List NthRange) (o : ℤ) :
    WeekdayRange.text { start := some d, nths := ns, offset := o } =
      d.name ++ ((if ns = [] then [] else '[' :: (joinWith [','] NthRange.text ns ++ [']'])) ++
        DayOffset.text o true) := by
  cases ns <;> simp [WeekdayRange.text, WeekdayRange.hasNth, Weekday.text]

lemma WeekdayRange.text_range (d e : Weekday) :
    WeekdayRange.text { start := some d, stop := some e } = d.name ++ '-' :: e.name := by
  simp [WeekdayRange.text, Weekday.text]

/-- The four forms of a range of weekdays. -/
lemma derives_weekdayRange_ok {s : Text} {x : WeekdayRange} :
    fieldGrammar.Derives weekdayRange s (.ok x) r ↔
      (∃ d, fieldGrammar.Derives weekday s (.ok d) r ∧ x = { start := some d }) ∨
      (∃ d e q w p, fieldGrammar.Derives weekday s (.ok d) q ∧ Terminal.dash.scan q = some (w, p) ∧
        fieldGrammar.Derives weekday p (.ok e) r ∧ x = { start := some d, stop := some e }) ∨
      (∃ d ns o q p, fieldGrammar.Derives weekday s (.ok d) q ∧ fieldGrammar.Derives nths q (.ok ns) p ∧
        fieldGrammar.Derives (.opt dayOffset) p (.ok o) r ∧
        x = { start := some d, nths := ns, offset := o.getD 0 }) ∨
      ∃ d o q, fieldGrammar.Derives weekday s (.ok d) q ∧ fieldGrammar.Derives dayOffset q (.ok o) r ∧
        x = { start := some d, offset := o } := by
  constructor
  · intro h
    rcases derives_alt.mp h with h | h
    · obtain ⟨⟨d, e⟩, hseq, rfl⟩ := derives_map_ok.mp h
      obtain ⟨q, hd, he⟩ := derives_seq_ok.mp hseq
      cases e with
      | none =>
        obtain rfl := derives_opt_none.mp he
        exact Or.inl ⟨d, hd, rfl⟩
      | some e =>
        obtain ⟨w, p, hw, he'⟩ := derives_after_ok.mp (derives_opt_some.mp he)
        exact Or.inr (Or.inl ⟨d, e, q, w, p, hd, hw, he', rfl⟩)
    rcases derives_alt.mp h with h | h
    · obtain ⟨⟨d, ns, o⟩, hseq, rfl⟩ := derives_map_ok.mp h
      obtain ⟨q, hd, hseq'⟩ := derives_seq_ok.mp hseq
      obtain ⟨p, hns, ho⟩ := derives_seq_ok.mp hseq'
      exact Or.inr (Or.inr (Or.inl ⟨d, ns, o, q, p, hd, hns, ho, rfl⟩))
    · obtain ⟨⟨d, o⟩, hseq, rfl⟩ := derives_map_ok.mp h
      obtain ⟨q, hd, ho⟩ := derives_seq_ok.mp hseq
      exact Or.inr (Or.inr (Or.inr ⟨d, o, q, hd, ho, rfl⟩))
  · rintro (⟨d, hd, rfl⟩ | ⟨d, e, q, w, p, hd, hw, he, rfl⟩ | ⟨d, ns, o, q, p, hd, hns, ho, rfl⟩ |
      ⟨d, o, q, hd, ho, rfl⟩)
    · exact .left (derives_map_ok.mpr ⟨(d, none), derives_seq_ok.mpr
        ⟨r, hd, derives_opt_none.mpr rfl⟩, rfl⟩)
    · exact .left (derives_map_ok.mpr ⟨(d, some e), derives_seq_ok.mpr
        ⟨q, hd, derives_opt_some.mpr (derives_after_ok.mpr ⟨w, p, hw, he⟩)⟩, rfl⟩)
    · exact .right (.left (derives_map_ok.mpr ⟨(d, ns, o), derives_seq_ok.mpr
        ⟨q, hd, derives_seq_ok.mpr ⟨p, hns, ho⟩⟩, rfl⟩))
    · exact .right (.right (derives_map_ok.mpr ⟨(d, o), derives_seq_ok.mpr ⟨q, hd, ho⟩, rfl⟩))

/-- Every range of weekdays that is read is one that a field can hold. -/
lemma canonical_of_derives_weekdayRange {s : Text} {x : WeekdayRange}
    (h : fieldGrammar.Derives weekdayRange s (.ok x) r) : x.Canonical := by
  rcases derives_weekdayRange_ok.mp h with ⟨d, -, rfl⟩ | ⟨d, e, _, _, _, -, -, -, rfl⟩ |
    ⟨d, ns, o, _, _, -, hns, ho, rfl⟩ | ⟨d, o, _, -, ho, rfl⟩
  · exact .single d (by simp) isShort_zero
  · exact .range d e
  · exact .single d (canonical_of_derives_nths hns).2 (isShort_of_derives_opt_dayOffset ho)
  · exact .single d (by simp) (isShort_of_derives_dayOffset ho)

lemma EndsWeekday.not_begins_dayOffset (hm : EndsWeekday m) :
    ¬ fieldGrammar.Begins dayOffset (fun _ => True) m :=
  (hm.2.mono (L := [.plus, .dash]) (by decide)).not_begins rfl (by decide)

/-- All of its own text is read as a range of weekdays. -/
lemma eq_of_derives_weekdayRange {x : WeekdayRange} (hm : EndsWeekday m)
    (h : fieldGrammar.Derives weekdayRange (x.text ++ m) (.ok x) r) : r = m := by
  have hsign := hm.not_begins_dayOffset
  rcases derives_weekdayRange_ok.mp h with ⟨d, hd, rfl⟩ | ⟨d, e, q, w, p, hd, hw, he, rfl⟩ |
    ⟨d, ns, o, q, p, hd, hns, ho, rfl⟩ | ⟨d, o, q, hd, ho, rfl⟩
  · rw [WeekdayRange.text_single d [] 0] at hd
    exact ((derives_weekday_iff hm.1).mp (by simpa [DayOffset.text] using hd)).2
  · rw [WeekdayRange.text_range, List.append_assoc, List.cons_append] at hd
    obtain ⟨-, rfl⟩ := (derives_weekday_iff (breaks_cons rfl rfl)).mp hd
    obtain ⟨-, rfl⟩ := (scan_cons_iff (t := .dash) rfl rfl).mp hw
    exact ((derives_weekday_iff hm.1).mp he).2
  · rw [WeekdayRange.text_single, if_neg (canonical_of_derives_nths hns).1] at hd
    simp only [List.append_assoc, List.cons_append, List.nil_append] at hd
    obtain ⟨-, rfl⟩ := (derives_weekday_iff (breaks_cons rfl rfl)).mp hd
    obtain ⟨-, -, rfl⟩ := derives_nths_iff.mp hns
    exact ((derives_opt_dayOffset_iff true hm.1 hsign).mp ⟨o, ho, rfl⟩).2
  · rw [WeekdayRange.text_single d [] o, if_pos rfl, List.nil_append, List.append_assoc] at hd
    obtain ⟨-, rfl⟩ := (derives_weekday_iff (breaks_dayOffset_text o hm.1)).mp hd
    exact ((derives_opt_dayOffset_iff true hm.1 hsign).mp ⟨some o, derives_opt_some.mpr ho, rfl⟩).2

/-- A range of weekdays that a field can hold is read from its own text. -/
lemma derives_weekdayRange_of_canonical {x : WeekdayRange} (hm : EndsWeekday m) (hx : x.Canonical) :
    fieldGrammar.Derives weekdayRange (x.text ++ m) (.ok x) m := by
  rw [derives_weekdayRange_ok]
  cases hx with
  | range d e =>
    rw [WeekdayRange.text_range, List.append_assoc, List.cons_append]
    exact Or.inr (Or.inl ⟨d, e, _, _, _, (derives_weekday_iff (breaks_cons rfl rfl)).mpr ⟨rfl, rfl⟩,
      (scan_cons_iff rfl rfl).mpr ⟨rfl, rfl⟩, (derives_weekday_iff hm.1).mpr ⟨rfl, rfl⟩, rfl⟩)
  | @single d ns hns o hshort =>
    rw [WeekdayRange.text_single]
    by_cases hne : ns = []
    · subst hne
      rw [if_pos rfl, List.nil_append, List.append_assoc]
      have hd := (derives_weekday_iff (d := d) (breaks_dayOffset_text o hm.1)).mpr ⟨rfl, rfl⟩
      by_cases ho : o = 0
      · subst ho
        exact Or.inl ⟨d, hd, rfl⟩
      · exact Or.inr (Or.inr (Or.inr ⟨d, o, _, hd,
          (derives_dayOffset_iff ho true hm.1).mpr ⟨hshort, rfl, rfl⟩, rfl⟩))
    · obtain ⟨o', ho', rfl⟩ :=
        (derives_opt_dayOffset_iff true hm.1 hm.not_begins_dayOffset).mpr ⟨hshort, rfl⟩
      rw [if_neg hne]
      simp only [List.append_assoc, List.cons_append, List.nil_append]
      exact Or.inr (Or.inr (Or.inl ⟨d, ns, o', _, _,
        (derives_weekday_iff (breaks_cons rfl rfl)).mpr ⟨rfl, rfl⟩,
        derives_nths_iff.mpr ⟨hne, hns, rfl⟩, ho', rfl⟩))

/-- The text of a range of weekdays is read as that range if and only if a field can hold it. -/
theorem derives_weekdayRange_iff {x : WeekdayRange} (hm : EndsWeekday m) :
    fieldGrammar.Derives weekdayRange (x.text ++ m) (.ok x) r ↔ x.Canonical ∧ r = m := by
  constructor
  · exact fun h => ⟨canonical_of_derives_weekdayRange h, eq_of_derives_weekdayRange hm h⟩
  · rintro ⟨hx, rfl⟩
    exact derives_weekdayRange_of_canonical hm hx

/-! ### Holidays -/

/-- What may follow a holiday in a written text. -/
def EndsHoliday (m : Text) : Prop :=
  Breaks m ∧ afterHoliday m

lemma EndsHoliday.not_begins_dayOffset (hm : EndsHoliday m) :
    ¬ fieldGrammar.Begins dayOffset (fun _ => True) m :=
  (hm.2.mono (L := [.plus, .dash]) (by decide)).not_begins rfl (by decide)

/-- The word for holidays of a kind. -/
def holidayWord (plural : Bool) : Text :=
  if plural then ['P', 'H'] else ['S', 'H']

lemma isWord_holidayWord (plural : Bool) :
    Terminal.IsWord Terminal.holidayWords (holidayWord plural) := by
  cases plural <;> decide

/-- The word for holidays of a kind is read as it is. -/
lemma scan_holidayWord_iff {plural : Bool} {w : Text} (hm : Breaks m) :
    Terminal.holiday.scan (holidayWord plural ++ m) = some (w, r) ↔ w = holidayWord plural ∧ r = m :=
  Terminal.scan_word_iff rfl (isWord_holidayWord plural) hm

/-- The word tells the kind of the holidays. -/
lemma holidayWord_beq (plural : Bool) : ((holidayWord plural).map fold == ['p', 'h']) = plural := by
  cases plural <;> decide

/-- Only school holidays are written with their offset. -/
lemma Holiday.text_eq (plural : Bool) (offset : ℤ) :
    Holiday.text { plural := plural, offset := offset } =
      holidayWord plural ++ if plural then [] else DayOffset.text offset true := by
  cases plural <;> rfl

/-- The text of holidays is read as these holidays if and only if a field can hold them. -/
theorem derives_holiday_iff {x : Holiday} (hm : EndsHoliday m) :
    fieldGrammar.Derives holiday (x.text ++ m) (.ok x) r ↔ x.Canonical ∧ r = m := by
  have hsign := hm.not_begins_dayOffset
  obtain ⟨plural, offset⟩ := x
  have hb : Breaks ((if plural then [] else DayOffset.text offset true) ++ m) := by
    cases plural with
    | true => exact hm.1
    | false => exact breaks_dayOffset_text offset hm.1
  rw [holiday, derives_map_ok, Holiday.text_eq, List.append_assoc]
  constructor
  · rintro ⟨⟨w, o⟩, hseq, he⟩
    obtain ⟨q, hw, ho⟩ := derives_seq_ok.mp hseq
    obtain ⟨rfl, rfl⟩ := (scan_holidayWord_iff hb).mp (derives_scan_iff.mp hw)
    obtain ⟨-, rfl⟩ := Holiday.mk.inj he
    cases plural with
    | true =>
      cases o with
      | none => exact ⟨⟨fun _ => rfl, isShort_zero⟩, derives_opt_none.mp ho⟩
      | some k => exact (hsign ⟨_, r, derives_opt_some.mp ho, trivial⟩).elim
    | false =>
      obtain ⟨hshort, hr⟩ := (derives_opt_dayOffset_iff true hm.1 hsign).mp ⟨o, ho, rfl⟩
      exact ⟨⟨nofun, hshort⟩, hr⟩
  · rintro ⟨hx, rfl⟩
    obtain ⟨o, ho, rfl⟩ : ∃ o : Option ℤ, fieldGrammar.Derives (.opt dayOffset)
        ((if plural then [] else DayOffset.text offset true) ++ r) (.ok o) r ∧ o.getD 0 = offset := by
      cases plural with
      | true => exact ⟨none, derives_opt_none.mpr rfl, (hx.offset rfl).symm⟩
      | false => exact (derives_opt_dayOffset_iff true hm.1 hsign).mpr ⟨hx.short, rfl⟩
    exact ⟨(holidayWord plural, o), derives_seq_ok.mpr
      ⟨_, derives_scan_iff.mpr ((scan_holidayWord_iff hb).mpr ⟨rfl, rfl⟩), ho⟩,
      congrArg (Holiday.mk · _) (holidayWord_beq plural)⟩

/-! ### Weekdays and holidays -/

lemma derives_weekdays_iff {xs : List WeekdayRange} (hm : EndsWeekday m) :
    fieldGrammar.Derives weekdays (WeekdayRange.textAll xs ++ m) (.ok xs) r ↔
      xs ≠ [] ∧ (∀ x ∈ xs, x.Canonical) ∧ r = m := by
  exact derives_listed_iff_forall (Or.inr rfl) rfl
    (fun _ => ⟨breaks_cons rfl rfl, .cons rfl rfl rfl (by decide)⟩)
    (fun hm => derives_weekdayRange_iff hm) hm

lemma derives_holidays_iff {xs : List Holiday} (hm : EndsHoliday m) :
    fieldGrammar.Derives holidays (Holiday.textAll xs ++ m) (.ok xs) r ↔
      xs ≠ [] ∧ (∀ x ∈ xs, x.Canonical) ∧ r = m := by
  exact derives_listed_iff_forall (Or.inr rfl) rfl
    (fun _ => ⟨breaks_cons rfl rfl, .cons rfl rfl rfl (by decide)⟩)
    (fun hm => derives_holiday_iff hm) hm

lemma EndsWeekday.endsHoliday (h : EndsWeekday m) : EndsHoliday m :=
  ⟨h.1, h.2.mono (by decide)⟩

/-- The text of holidays opens with a holiday, whether a field can hold them or not. -/
lemma opening_holidays {hs : List Holiday} (hne : hs ≠ []) (hm : Breaks m) :
    Opening.of (Holiday.textAll hs ++ m) = .holiday := by
  cases hs with
  | nil => exact absurd rfl hne
  | cons x xs =>
    have htail : Breaks (tailText commaSpace Holiday.text xs ++ m) :=
      follow_tailText (Or.inr rfl) (fun _ => breaks_cons rfl rfl) hm xs
    obtain ⟨plural, offset⟩ := x
    rw [Holiday.textAll, Text.listed, joinWith_cons, List.append_assoc, Holiday.text_eq,
      List.append_assoc]
    refine Terminal.opening_of_isWord (t := .holiday) rfl (isWord_holidayWord plural) ?_ (by decide)
    cases plural with
    | true => exact htail
    | false => exact breaks_dayOffset_text offset htail

/-- The four forms of weekdays and holidays that have a value. -/
lemma derives_daySelector_ok {s : Text} {x : DaySelector} :
    fieldGrammar.Derives daySelector s (.ok x) r ↔
      (∃ hs ds q w p, fieldGrammar.Derives holidays s (.ok hs) q ∧
        Terminal.comma.scan q = some (w, p) ∧ fieldGrammar.Derives weekdays p (.ok ds) r ∧
        x = { ranges := ds, holidays := hs }) ∨
      (∃ ds hs q w p, fieldGrammar.Derives weekdays s (.ok ds) q ∧
        Terminal.comma.scan q = some (w, p) ∧ fieldGrammar.Derives holidays p (.ok hs) r ∧
        x = { ranges := ds, holidays := hs }) ∨
      (∃ hs, fieldGrammar.Derives holidays s (.ok hs) r ∧ x = { holidays := hs }) ∨
      ∃ ds, fieldGrammar.Derives weekdays s (.ok ds) r ∧ x = { ranges := ds } := by
  constructor
  · intro h
    rcases derives_alt.mp h with h | h
    · obtain ⟨⟨hs, ds⟩, hseq, rfl⟩ := derives_map_ok.mp h
      obtain ⟨p, hh, hd⟩ := derives_seq_ok.mp hseq
      obtain ⟨q, w, hh', hw⟩ := derives_before_iff.mp hh
      exact Or.inl ⟨hs, ds, q, w, p, hh', hw, hd, rfl⟩
    rcases derives_alt.mp h with h | h
    · obtain ⟨⟨ds, hs⟩, hseq, rfl⟩ := derives_map_ok.mp h
      obtain ⟨p, hd, hh⟩ := derives_seq_ok.mp hseq
      obtain ⟨q, w, hd', hw⟩ := derives_before_iff.mp hd
      exact Or.inr (Or.inl ⟨ds, hs, q, w, p, hd', hw, hh, rfl⟩)
    rcases derives_alt.mp h with h | h
    · obtain ⟨hs, hh, rfl⟩ := derives_map_ok.mp h
      exact Or.inr (Or.inr (Or.inl ⟨hs, hh, rfl⟩))
    rcases derives_alt.mp h with h | h
    · obtain ⟨ds, hd, rfl⟩ := derives_map_ok.mp h
      exact Or.inr (Or.inr (Or.inr ⟨ds, hd, rfl⟩))
    · obtain ⟨a, -, he⟩ := derives_build_ok.mp h
      cases he
  · rintro (⟨hs, ds, q, w, p, hh, hw, hd, rfl⟩ | ⟨ds, hs, q, w, p, hd, hw, hh, rfl⟩ | ⟨hs, hh, rfl⟩ |
      ⟨ds, hd, rfl⟩)
    · exact .left (derives_map_ok.mpr ⟨(hs, ds), derives_seq_ok.mpr
        ⟨p, derives_before_iff.mpr ⟨q, w, hh, hw⟩, hd⟩, rfl⟩)
    · exact .right (.left (derives_map_ok.mpr ⟨(ds, hs), derives_seq_ok.mpr
        ⟨p, derives_before_iff.mpr ⟨q, w, hd, hw⟩, hh⟩, rfl⟩))
    · exact .right (.right (.left (derives_map_ok.mpr ⟨hs, hh, rfl⟩)))
    · exact .right (.right (.right (.left (derives_map_ok.mpr ⟨ds, hd, rfl⟩))))

/-- The offset of holidays that are read has few enough digits. -/
lemma isShort_of_derives_holiday {s : Text} {x : Holiday}
    (h : fieldGrammar.Derives holiday s (.ok x) r) : isShort x.offset = true := by
  obtain ⟨⟨w, o⟩, hseq, rfl⟩ := derives_map_ok.mp h
  obtain ⟨_, -, ho⟩ := derives_seq_ok.mp hseq
  exact isShort_of_derives_opt_dayOffset ho

/-- Weekdays and holidays that are read are at least one. A field can hold each of the weekdays, and the
offsets of the holidays are short. -/
lemma canonical_of_derives_daySelector {s : Text} {x : DaySelector}
    (h : fieldGrammar.Derives daySelector s (.ok x) r) :
    x.isEmpty = false ∧ (∀ d ∈ x.ranges, d.Canonical) ∧
      ∀ h ∈ x.holidays, isShort h.offset = true := by
  have hdays : ∀ {s r ds}, fieldGrammar.Derives weekdays s (.ok ds) r →
      ds ≠ [] ∧ ∀ d ∈ ds, d.Canonical :=
    fun h => forall_of_derives_listed (fun _ _ _ => canonical_of_derives_weekdayRange) h
  have hholidays : ∀ {s r hs}, fieldGrammar.Derives holidays s (.ok hs) r →
      hs ≠ [] ∧ ∀ h ∈ hs, isShort h.offset = true :=
    fun h => forall_of_derives_listed (fun _ _ _ => isShort_of_derives_holiday) h
  rcases derives_daySelector_ok.mp h with ⟨hs, ds, _, _, _, hh, -, hd, rfl⟩ |
    ⟨ds, hs, _, _, _, hd, -, hh, rfl⟩ | ⟨hs, hh, rfl⟩ | ⟨ds, hd, rfl⟩
  · exact ⟨by simp [DaySelector.isEmpty, (hdays hd).1], (hdays hd).2, (hholidays hh).2⟩
  · exact ⟨by simp [DaySelector.isEmpty, (hdays hd).1], (hdays hd).2, (hholidays hh).2⟩
  · exact ⟨by simp [DaySelector.isEmpty, (hholidays hh).1], by simp, (hholidays hh).2⟩
  · exact ⟨by simp [DaySelector.isEmpty, (hdays hd).1], (hdays hd).2, by simp⟩

lemma DaySelector.text_holidays (hs : List Holiday) :
    DaySelector.text { holidays := hs } = Holiday.textAll hs := by
  simp [DaySelector.text, DaySelector.hasWeekdays, WeekdayRange.textAll, joinWith]

lemma DaySelector.text_ranges (ds : List WeekdayRange) :
    DaySelector.text { ranges := ds } = WeekdayRange.textAll ds := by
  simp [DaySelector.text, DaySelector.hasHolidays, Holiday.textAll, joinWith]

/-- Holidays are written before weekdays. -/
lemma DaySelector.text_both {ds : List WeekdayRange} {hs : List Holiday} (hds : ds ≠ [])
    (hhs : hs ≠ []) : DaySelector.text { ranges := ds, holidays := hs } ++ m =
      Holiday.textAll hs ++ ',' :: ' ' :: (WeekdayRange.textAll ds ++ m) := by
  simp [DaySelector.text, DaySelector.hasWeekdays, DaySelector.hasHolidays, hhs, hds, commaSpace]

/-- The text of weekdays and holidays is read as these if and only if a field can hold them. -/
theorem derives_daySelector_iff {x : DaySelector} (hm : EndsWeekday m) :
    fieldGrammar.Derives daySelector (x.text ++ m) (.ok x) r ↔
      (x.isEmpty = false ∧ x.Canonical) ∧ r = m := by
  have hcomma : ∀ {s}, EndsHoliday (',' :: s) :=
    ⟨breaks_cons rfl rfl, .cons rfl rfl rfl (by decide)⟩
  rw [derives_daySelector_ok]
  constructor
  · rintro (⟨hs, ds, q, w, p, hh, hw, hd, rfl⟩ | ⟨ds, hs, q, w, p, hd, hw, hh, rfl⟩ | ⟨hs, hh, rfl⟩ |
      ⟨ds, hd, rfl⟩)
    · rw [DaySelector.text_both (ne_nil_of_derives_listed hd) (ne_nil_of_derives_listed hh)] at hh
      obtain ⟨hne, hh', rfl⟩ := (derives_holidays_iff hcomma).mp hh
      obtain ⟨-, rfl⟩ := (scan_cons_iff (t := .comma) rfl rfl).mp hw
      obtain ⟨-, hd', rfl⟩ := (derives_weekdays_iff hm).mp ((derives_space_iff rfl).mp hd)
      exact ⟨⟨by simp [DaySelector.isEmpty, hne], hd', hh'⟩, rfl⟩
    · -- holidays are written first
      rw [DaySelector.text_both (ne_nil_of_derives_listed hd) (ne_nil_of_derives_listed hh)] at hd
      have hopen := opening_holidays (ne_nil_of_derives_listed hh) (hcomma
        (s := ' ' :: (WeekdayRange.textAll ds ++ m))).1
      have := opens_of_begins (g := weekdays) rfl ⟨_, q, hd, trivial⟩ (P := fun _ => True)
      rw [hopen] at this
      cases this
    · rw [DaySelector.text_holidays] at hh
      obtain ⟨hne, hh', rfl⟩ := (derives_holidays_iff hm.endsHoliday).mp hh
      exact ⟨⟨by simp [DaySelector.isEmpty, hne], by simp, hh'⟩, rfl⟩
    · rw [DaySelector.text_ranges] at hd
      obtain ⟨hne, hd', rfl⟩ := (derives_weekdays_iff hm).mp hd
      exact ⟨⟨by simp [DaySelector.isEmpty, hne], hd', by simp⟩, rfl⟩
  · rintro ⟨⟨hx, hc⟩, rfl⟩
    obtain ⟨ds, hs⟩ := x
    obtain ⟨hd, hh⟩ := hc
    by_cases hhs : hs = []
    · subst hhs
      have hds : ds ≠ [] := by simpa [DaySelector.isEmpty] using hx
      rw [DaySelector.text_ranges]
      exact Or.inr (Or.inr (Or.inr ⟨ds, (derives_weekdays_iff hm).mpr ⟨hds, hd, rfl⟩, rfl⟩))
    by_cases hds : ds = []
    · subst hds
      rw [DaySelector.text_holidays]
      exact Or.inr (Or.inr (Or.inl ⟨hs, (derives_holidays_iff hm.endsHoliday).mpr ⟨hhs, hh, rfl⟩, rfl⟩))
    · rw [DaySelector.text_both hds hhs]
      exact Or.inl ⟨hs, ds, _, _, _, (derives_holidays_iff hcomma).mpr ⟨hhs, hh, rfl⟩,
        (scan_cons_iff (t := .comma) rfl rfl).mpr ⟨rfl, rfl⟩, (derives_space_iff rfl).mpr
          ((derives_weekdays_iff hm).mpr ⟨hds, hd, rfl⟩), rfl⟩

end Part

end OpeningTimes
