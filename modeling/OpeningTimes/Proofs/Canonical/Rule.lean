import OpeningTimes.Proofs.Canonical.Follow

/-!
Rules that a field can hold, and how they are read.

* `Rule.CanonicalState`, `Rule.CanonicalSelectors`, `Rule.Canonical`: what a field can hold;
* `Part.canonicalState_of_derives`, `Part.derives_opt_modifier`: the text of a state is read as that
  state if and only if a field can hold it;
* `Part.ReadAs`, `Part.readAs_of_canonical`: the text of a rule that a field can hold is read as that
  rule, in the form that says whether it could go on after a comma and whether it begins with its
  times.
-/

namespace OpeningTimes

open Grammar Text

/-! ### What a field can hold -/

namespace Rule

/-- The states that a field can hold: without a word for it a comment is a state of its own. -/
structure CanonicalState (state : Modifier) (comment : Text) : Prop where
  quotes : '"' ∉ comment
  noComment : state = .defaultOpen → comment = []
  comment : state = .comment → comment ≠ []

/-- The selectors that a field can hold. A single year would belong to a date without a year, and the
plus sign of an open range of dates to a weekday. -/
structure CanonicalSelectors (x : Rule) : Prop where
  years : ∀ y ∈ x.years, y.Canonical
  dates : ∀ d ∈ x.dates, d.Canonical
  weeks : ∀ w ∈ x.weeks, w.Canonical
  days : x.days.Canonical
  times : ∀ t ∈ x.times, t.Canonical
  lone : ∀ y, x.years = [y] → y.IsLone → ∀ d ∈ x.dates.head?, d.start.year ≠ 0
  plus : ∀ d ∈ x.dates.getLast?, d.plus = true → x.weeks = [] → x.colon = false →
    x.days.ranges ≠ [] → x.days.holidays ≠ []

/-- Whether there are years, dates or weeks, which a colon may follow. -/
def hasCalendar (x : Rule) : Bool :=
  x.hasYears || x.hasDates || x.hasWeeks

/-- The rules that a field can hold: one that always applies, one with a comment in place of the
selectors, or one with selectors or a state. -/
inductive Canonical : Rule → Prop where
  | always {state : Modifier} {comment : Text} (hs : CanonicalState state comment)
    (separator : Text) :
    Canonical
      { always := true, modifier := state, modifierComment := comment, separator := separator }
  | comment {state : Modifier} {c comment : Text} (hc : '"' ∉ c) (hs : CanonicalState state comment)
    (separator : Text) :
    Canonical
      { comment := '"' :: c ++ ['"'], modifier := state, modifierComment := comment,
        separator := separator }
  | selectors {x : Rule} (ha : x.always = false) (hc : x.comment = []) (hx : x.CanonicalSelectors)
    (hs : CanonicalState x.modifier x.modifierComment) (hcolon : x.colon = true → x.hasCalendar = true)
    (hne : x.isEmpty = true → x.modifier ≠ .defaultOpen) : Canonical x

/-- Whether a rule could not go on after a comma. -/
def isClosed (x : Rule) : Bool :=
  x.always || x.hasTimes || x.modifier != .defaultOpen

/-- Whether a rule begins with its times. -/
def beginsWithTimes (x : Rule) : Bool :=
  !x.always && !x.hasComment && !x.hasCalendar && !x.hasDays && x.hasTimes

/-- Selectors that a field can hold are ones that can be read. -/
lemma CanonicalSelectors.written {x : Rule} (h : x.CanonicalSelectors) : x.Written where
  dates d hd := by
    cases h.dates d hd with
    | single hs _ => exact hs.written
    | toDate hs _ _ => exact hs.written
    | toDay hs _ _ _ => exact hs.written
  days d hd := by
    cases h.days.ranges d hd <;> rfl
  times t ht := by
    cases h.times t ht with
    | point hs _ => exact hs.wholeMinutes
    | range hs _ _ => exact hs.wholeMinutes
    | periodic hs _ _ => exact hs.wholeMinutes

end Rule

namespace Part

variable {s m r q : Text} {x : Rule}

/-! ### Parts that may be missing -/

lemma derives_piece_iff {α : Type} {g : Part α} {v : Except BuildError α} {asked : Bool} {w : Text}
    (hg : g.consumes = true) :
    fieldGrammar.Derives g (Rule.piece asked true w ++ m) v r ↔
      fieldGrammar.Derives g (w ++ m) v r := by
  cases asked with
  | false => exact Iff.rfl
  | true => exact derives_space_iff hg

lemma scan_piece {t : Terminal} {asked : Bool} {w : Text} :
    t.scan (Rule.piece asked true w ++ m) = t.scan (w ++ m) := by
  cases asked with
  | false => rfl
  | true => exact scan_space

/-- A value that is there on a condition. -/
def given {α : Type} (b : Bool) (a : α) : Option α :=
  if b then some a else none

lemma getD_given {α : Type} {b : Bool} {a d : α} (h : b = false → a = d) : (given b a).getD d = a := by
  cases b with
  | false => exact (h rfl).symm
  | true => rfl

/-- A part is read if it is written. -/
lemma derives_given {α : Type} {g : Part α} {a : α} {asked b : Bool} {w : Text}
    (hg : g.consumes = true) (h : b = true → fieldGrammar.Derives g (w ++ m) (.ok a) m) :
    fieldGrammar.Derives (.opt g) (Rule.piece asked b w ++ m) (.ok (given b a)) m := by
  cases b with
  | false => exact derives_opt_none.mpr rfl
  | true => exact derives_opt_some.mpr ((derives_piece_iff hg).mpr (h rfl))

/-- A part that is read is the one that is written, or none where none is written. -/
lemma derives_or_of_opt_piece {α : Type} {g : Part α} {a d : α} {o : Option α} {asked b : Bool}
    {w : Text} (hg : g.consumes = true) (hb : b = false ↔ a = d)
    (hd : ∀ s r, ¬ fieldGrammar.Derives g s (.ok d) r)
    (h : fieldGrammar.Derives (.opt g) (Rule.piece asked b w ++ m) (.ok o) r) (ho : o.getD d = a) :
    (b = false ∧ r = m) ∨ (b = true ∧ fieldGrammar.Derives g (w ++ m) (.ok a) r) := by
  cases o with
  | none =>
    obtain rfl := hb.mpr ho.symm
    exact Or.inl ⟨rfl, derives_opt_none.mp h⟩
  | some c =>
    obtain rfl : c = a := ho
    have hc := derives_opt_some.mp h
    cases b with
    | false =>
      obtain rfl := hb.mp rfl
      exact absurd hc (hd _ _)
    | true => exact Or.inr ⟨rfl, (derives_piece_iff hg).mp hc⟩

/-! ### States -/

/-- The words for states. -/
def stateWords : List (Terminal × Modifier) :=
  [(.openWord, .opened), (.closedWord, .closed), (.unknownWord, .unknown)]

lemma scan_stateWord_iff {t : Terminal} {state : Modifier} (ht : (t, state) ∈ stateWords) {w : Text}
    (hm : Breaks m) : t.scan (state.text ++ m) = some (w, r) ↔ w = state.text ∧ r = m := by
  simp only [stateWords, List.mem_cons, Prod.mk.injEq, List.not_mem_nil, or_false] at ht
  rcases ht with ⟨rfl, rfl⟩ | ⟨rfl, rfl⟩ | ⟨rfl, rfl⟩
  · exact Terminal.scan_word_iff (t := .openWord) rfl (by decide) hm
  · exact Terminal.scan_word_iff (t := .closedWord) rfl (by decide) hm
  · exact Terminal.scan_word_iff (t := .unknownWord) rfl (by decide) hm

/-- A state is a word for it and possibly a comment, or a comment that stands for one. -/
lemma derives_modifier_ok {y : Modifier × Text} :
    fieldGrammar.Derives modifier s (.ok y) r ↔
      (∃ t state w p o, (t, state) ∈ stateWords ∧ t.scan s = some (w, p) ∧
        fieldGrammar.Derives (.opt (.terminal .comment)) p (.ok o) r ∧
        y = (state, (o.map unquoted).getD [])) ∨
      ∃ w, Terminal.comment.scan s = some (w, r) ∧ y = (.comment, unquoted w) := by
  have hword : ∀ {t state}, fieldGrammar.Derives (modifierWord t state) s (.ok y) r ↔
      ∃ w p o, t.scan s = some (w, p) ∧ fieldGrammar.Derives (.opt (.terminal .comment)) p (.ok o) r ∧
        y = (state, (o.map unquoted).getD []) := by
    intro t state
    simp only [modifierWord, derives_map_ok, Prod.exists, derives_seq_ok, derives_scan_iff]
    constructor
    · rintro ⟨w, o, ⟨p, hw, ho⟩, rfl⟩
      exact ⟨w, p, o, hw, ho, rfl⟩
    · rintro ⟨w, p, o, hw, ho, rfl⟩
      exact ⟨w, o, ⟨p, hw, ho⟩, rfl⟩
  constructor
  · intro h
    rcases derives_alt.mp h with h | h
    · obtain ⟨w, p, o, hw, ho, rfl⟩ := hword.mp h
      exact Or.inl ⟨_, _, w, p, o, by simp [stateWords], hw, ho, rfl⟩
    rcases derives_alt.mp h with h | h
    · obtain ⟨w, p, o, hw, ho, rfl⟩ := hword.mp h
      exact Or.inl ⟨_, _, w, p, o, by simp [stateWords], hw, ho, rfl⟩
    rcases derives_alt.mp h with h | h
    · obtain ⟨w, p, o, hw, ho, rfl⟩ := hword.mp h
      exact Or.inl ⟨_, _, w, p, o, by simp [stateWords], hw, ho, rfl⟩
    · obtain ⟨w, hw, rfl⟩ := derives_map_ok.mp h
      exact Or.inr ⟨w, derives_scan_iff.mp hw, rfl⟩
  · rintro (⟨t, state, w, p, o, ht, hw, ho, rfl⟩ | ⟨w, hw, rfl⟩)
    · simp only [stateWords, List.mem_cons, Prod.mk.injEq, List.not_mem_nil, or_false] at ht
      rcases ht with ⟨rfl, rfl⟩ | ⟨rfl, rfl⟩ | ⟨rfl, rfl⟩
      · exact .left (hword.mpr ⟨w, p, o, hw, ho, rfl⟩)
      · exact .right (.left (hword.mpr ⟨w, p, o, hw, ho, rfl⟩))
      · exact .right (.right (.left (hword.mpr ⟨w, p, o, hw, ho, rfl⟩)))
    · exact .right (.right (.right (derives_map_ok.mpr ⟨w, derives_scan_iff.mpr hw, rfl⟩)))

/-- A state that is read is not the default one. -/
lemma ne_defaultOpen_of_derives_modifier {y : Modifier × Text}
    (h : fieldGrammar.Derives modifier s (.ok y) r) : y.1 ≠ .defaultOpen := by
  rcases derives_modifier_ok.mp h with ⟨t, state, w, p, o, ht, -, -, rfl⟩ | ⟨w, -, rfl⟩
  · have : ∀ y ∈ stateWords, y.2 ≠ .defaultOpen := by decide
    exact this _ ht
  · nofun

/-- A comment is a text without quotes between two of them. -/
lemma exists_of_scan_comment {w : Text} (h : Terminal.comment.scan s = some (w, r)) :
    ∃ c, w = '"' :: c ++ ['"'] ∧ '"' ∉ c := by
  obtain ⟨c, hc, rfl, -⟩ := Terminal.exists_of_quotation h
  exact ⟨c, rfl, hc⟩

lemma unquoted_quoted (c : Text) : unquoted ('"' :: c ++ ['"']) = c := by
  simp [unquoted]

/-- The text of a comment that may be missing is read as what it is, unless there are quotes in it. -/
lemma derives_opt_comment_iff {c : Text} (hm : Avoids [.quote] m) :
    (∃ o : Option Text, fieldGrammar.Derives (.opt (.terminal .comment))
      (Rule.piece true (!c.isEmpty) ('"' :: c ++ ['"']) ++ m) (.ok o) r ∧
        (o.map unquoted).getD [] = c) ↔ '"' ∉ c ∧ r = m := by
  by_cases hc : c = []
  · subst hc
    constructor
    · rintro ⟨_ | w, h, -⟩
      · exact ⟨by simp, derives_opt_none.mp h⟩
      · exact (hm.not_scan (t := .comment) (by decide)
          (derives_scan_iff.mp (derives_opt_some.mp h))).elim
    · exact fun h => ⟨none, derives_opt_none.mpr h.2, rfl⟩
  · have hb : (!c.isEmpty) = true := by simpa using hc
    have hassoc : '"' :: c ++ ['"'] ++ m = '"' :: c ++ '"' :: m := by simp
    simp only [hb]
    constructor
    · rintro ⟨_ | w, h, hw⟩
      · exact absurd hw.symm hc
      · have hscan := derives_scan_iff.mp (derives_opt_some.mp h)
        obtain ⟨c', rfl, hc'⟩ := exists_of_scan_comment hscan
        obtain rfl : c' = c := (unquoted_quoted c').symm.trans hw
        rw [scan_piece, hassoc, Terminal.scan_comment_iff hc'] at hscan
        exact ⟨hc', hscan.2⟩
    · rintro ⟨hq, rfl⟩
      refine ⟨some ('"' :: c ++ ['"']), derives_opt_some.mpr (derives_scan_iff.mpr ?_),
        unquoted_quoted c⟩
      rw [scan_piece, hassoc]
      exact (Terminal.scan_comment_iff hq).mpr ⟨rfl, rfl⟩

/-- Before the comment of a state the word for it ends. -/
lemma breaks_comment (hm : EndsRule m) (b : Bool) (c : Text) :
    Breaks (Rule.piece true b ('"' :: c ++ ['"']) ++ m) := by
  cases b with
  | false => exact (rest_of_endsRule hm).breaks
  | true => exact breaks_cons rfl rfl

/-- The states with a word of their own are the ones that are printed. -/
lemma isPrinted_iff {state : Modifier} :
    state.isPrinted = true ↔ ∃ t, (t, state) ∈ stateWords := by
  constructor
  · cases state
    case opened => exact fun _ => ⟨.openWord, by decide⟩
    case closed => exact fun _ => ⟨.closedWord, by decide⟩
    case unknown => exact fun _ => ⟨.unknownWord, by decide⟩
    all_goals exact fun h => absurd h (by decide)
  · rintro ⟨t, ht⟩
    have : ∀ y ∈ stateWords, y.2.isPrinted = true := by decide
    exact this _ ht

/-- A state that is read from its own text is one that a field can hold. -/
lemma canonicalState_of_derives {b : Bool} {o : Option (Modifier × Text)} (hm : EndsRule m)
    (h : fieldGrammar.Derives (.opt modifier) (x.stateText b ++ m) (.ok o) r)
    (ho : o.getD (.defaultOpen, []) = (x.modifier, x.modifierComment)) :
    Rule.CanonicalState x.modifier x.modifierComment ∧ r = m := by
  have hquote : Avoids [.quote] m := (rest_of_endsRule hm).avoids (by decide)
  rcases o with _ | ⟨state, c⟩
  · obtain ⟨hstate, hc⟩ := Prod.mk.inj ho
    have htext : x.stateText b = [] := by
      simp [Rule.stateText, Rule.hasModifierComment, ← hstate, ← hc, Modifier.isPrinted, Rule.piece]
    rw [htext] at h
    rw [← hstate, ← hc]
    exact ⟨⟨by simp, fun _ => rfl, fun h => absurd h (by decide)⟩, derives_opt_none.mp h⟩
  obtain ⟨rfl, rfl⟩ := Prod.mk.inj ho
  -- a word for the state, possibly with a comment, or a comment alone
  rcases derives_modifier_ok.mp (derives_opt_some.mp h) with
    ⟨t, state, w, p, o, ht, hw, hc, he⟩ | ⟨w, hw, he⟩
  · obtain ⟨rfl, hcomment⟩ := Prod.mk.inj he
    have hstate : x.modifier ≠ .defaultOpen ∧ x.modifier ≠ .comment := by
      have : ∀ y ∈ stateWords, y.2 ≠ .defaultOpen ∧ y.2 ≠ .comment := by decide
      exact this _ ht
    rw [Rule.stateText, isPrinted_iff.mpr ⟨t, ht⟩, Bool.or_true, List.append_assoc, scan_piece,
      scan_stateWord_iff ht (breaks_comment hm _ _)] at hw
    obtain ⟨-, rfl⟩ := hw
    obtain ⟨hq, rfl⟩ := (derives_opt_comment_iff hquote).mp ⟨o, hc, hcomment.symm⟩
    exact ⟨⟨hq, fun h => absurd h hstate.1, fun h => absurd h hstate.2⟩, rfl⟩
  · obtain ⟨hstate, hcomment⟩ := Prod.mk.inj he
    obtain ⟨c, rfl, hc⟩ := exists_of_scan_comment hw
    rw [unquoted_quoted] at hcomment
    have hp : x.modifier.isPrinted = false := by rw [hstate]; decide
    rw [Rule.stateText, hp, Rule.piece_false, List.nil_append, Bool.or_false, hcomment] at hw
    cases hb : x.hasModifierComment with
    | false =>
      rw [hb] at hw
      exact (hquote.not_scan (t := .comment) (by decide) hw).elim
    | true =>
      have hassoc : '"' :: c ++ ['"'] ++ m = '"' :: c ++ '"' :: m := by simp
      rw [hb, scan_piece, hassoc, Terminal.scan_comment_iff hc] at hw
      have hne : x.modifierComment ≠ [] := ne_nil_of_not_isEmpty hb
      rw [hstate]
      exact ⟨⟨hcomment ▸ hc, fun h => absurd h (by decide), fun _ => hne⟩, hw.2⟩

/-- A state that a field can hold is read from its own text. -/
lemma derives_opt_modifier {b : Bool} (hs : Rule.CanonicalState x.modifier x.modifierComment)
    (hm : EndsRule m) :
    ∃ o : Option (Modifier × Text),
      fieldGrammar.Derives (.opt modifier) (x.stateText b ++ m) (.ok o) m ∧
        o.getD (.defaultOpen, []) = (x.modifier, x.modifierComment) := by
  have hquote : Avoids [.quote] m := (rest_of_endsRule hm).avoids (by decide)
  cases hp : x.modifier.isPrinted with
  | true =>
    obtain ⟨t, ht⟩ := isPrinted_iff.mp hp
    obtain ⟨o, ho, hc⟩ := (derives_opt_comment_iff hquote).mpr ⟨hs.quotes, rfl⟩
    refine ⟨some (x.modifier, x.modifierComment), derives_opt_some.mpr (derives_modifier_ok.mpr
      (Or.inl ⟨t, x.modifier, x.modifier.text, _, o, ht, ?_, ho, by rw [hc]⟩)), rfl⟩
    rw [Rule.stateText, hp, Bool.or_true, List.append_assoc, scan_piece]
    exact (scan_stateWord_iff ht (breaks_comment hm _ _)).mpr ⟨rfl, rfl⟩
  | false =>
    rw [Rule.stateText, hp, Rule.piece_false, List.nil_append, Bool.or_false]
    have hstate : x.modifier = .defaultOpen ∨ x.modifier = .comment := by
      revert hp
      cases x.modifier <;> decide
    rcases hstate with hstate | hstate
    · have hc := hs.noComment hstate
      rw [hstate, hc]
      refine ⟨none, derives_opt_none.mpr ?_, rfl⟩
      simp [Rule.hasModifierComment, hc, Rule.piece]
    · have hc : x.hasModifierComment = true := by
        simpa [Rule.hasModifierComment] using hs.comment hstate
      have hassoc : '"' :: x.modifierComment ++ ['"'] ++ m =
          '"' :: x.modifierComment ++ '"' :: m := by simp
      refine ⟨some (.comment, unquoted ('"' :: x.modifierComment ++ ['"'])), derives_opt_some.mpr
        (derives_modifier_ok.mpr (Or.inr ⟨_, ?_, rfl⟩)), by rw [unquoted_quoted, hstate]; rfl⟩
      rw [hc, scan_piece, hassoc]
      exact (Terminal.scan_comment_iff hs.quotes).mpr ⟨rfl, rfl⟩

/-! ### Rules made of parts -/

section Parts

variable {ys : Option (List YearRange)} {ds : Option (List DateRange)} {ws : Option (List WeekRange)}
  {c : Bool} {days : Option DaySelector}

/-- Selectors are years, dates, weeks, a colon and days, one after the other. -/
lemma derives_looseSelectors_ok :
    fieldGrammar.Derives looseSelectors s (.ok (.selectors ys ds ws c days)) r ↔
      ∃ p₁ p₂ p₃ p₄ o, fieldGrammar.Derives (.opt years) s (.ok ys) p₁ ∧
        fieldGrammar.Derives (.opt dates) p₁ (.ok ds) p₂ ∧
        fieldGrammar.Derives (.opt weeks) p₂ (.ok ws) p₃ ∧
        fieldGrammar.Derives (.opt (.terminal .colon)) p₃ (.ok o) p₄ ∧
        fieldGrammar.Derives (.opt daySelector) p₄ (.ok days) r ∧ o.isSome = c := by
  simp only [looseSelectors, derives_map_ok, Prod.exists, derives_seq_ok]
  constructor
  · rintro ⟨ys, ds, ws, o, days, ⟨p₁, hy, p₂, hd, p₃, hw, p₄, ho, hdays⟩, he⟩
    obtain ⟨rfl, rfl, rfl, rfl, rfl⟩ := Front.selectors.inj he
    exact ⟨p₁, p₂, p₃, p₄, o, hy, hd, hw, ho, hdays, rfl⟩
  · rintro ⟨p₁, p₂, p₃, p₄, o, hy, hd, hw, ho, hdays, rfl⟩
    exact ⟨ys, ds, ws, o, days, ⟨p₁, hy, p₂, hd, p₃, hw, p₄, ho, hdays⟩, rfl⟩

/-- Years, dates and weeks of which at least one is there. -/
lemma derives_calendarSelectors {p₁ p₂ p₃ : Text} (hy : fieldGrammar.Derives (.opt years) s (.ok ys) p₁)
    (hd : fieldGrammar.Derives (.opt dates) p₁ (.ok ds) p₂)
    (hw : fieldGrammar.Derives (.opt weeks) p₂ (.ok ws) p₃)
    (h : (ys.isSome || ds.isSome || ws.isSome) = true) :
    fieldGrammar.Derives calendarSelectors s
      (.ok { years := ys.getD [], dates := ds.getD [], weeks := ws.getD [] }) p₃ := by
  cases ys with
  | some ys =>
    exact .left (derives_map_ok.mpr ⟨(ys, ds, ws), derives_seq_ok.mpr ⟨p₁, derives_opt_some.mp hy,
      derives_seq_ok.mpr ⟨p₂, hd, hw⟩⟩, rfl⟩)
  | none =>
    obtain rfl := derives_opt_none.mp hy
    cases ds with
    | some ds =>
      exact .right (.left (derives_map_ok.mpr ⟨(ds, ws), derives_seq_ok.mpr
        ⟨p₂, derives_opt_some.mp hd, hw⟩, rfl⟩))
    | none =>
      obtain rfl := derives_opt_none.mp hd
      cases ws with
      | some ws => exact .right (.right (derives_map_ok.mpr ⟨ws, derives_opt_some.mp hw, rfl⟩))
      | none => cases h

/-- The selectors of a rule without its times. -/
def selected (ys : Option (List YearRange)) (ds : Option (List DateRange))
    (ws : Option (List WeekRange)) (c : Bool) (days : Option DaySelector) : Rule :=
  { years := ys.getD [], dates := ds.getD [], weeks := ws.getD [], colon := c, days := days.getD {} }

/-- Selectors and times, where a colon stands only after years, dates or weeks. -/
lemma derives_selectorsWithTimes {ts : List Timespan}
    (h : fieldGrammar.Derives looseSelectors s (.ok (.selectors ys ds ws c days)) q)
    (ht : fieldGrammar.Derives times q (.ok ts) r)
    (hs : (ys.isSome || ds.isSome || ws.isSome) = true ∨ (c = false ∧ days.isSome = true)) :
    fieldGrammar.Derives selectorsWithTimes s (.ok { selected ys ds ws c days with times := ts }) r := by
  obtain ⟨p₁, p₂, p₃, p₄, o, hy, hd, hw, ho, hdays, rfl⟩ := derives_looseSelectors_ok.mp h
  have hafter : fieldGrammar.Derives timesAfterDays p₄ (.ok { days := days.getD {}, times := ts }) r :=
    derives_map_ok.mpr ⟨(days, ts), derives_seq_ok.mpr ⟨q, hdays, ht⟩, rfl⟩
  cases hb : (ys.isSome || ds.isSome || ws.isSome) with
  | true =>
    have hcal := derives_calendarSelectors hy hd hw hb
    cases o with
    | some w =>
      exact .left (derives_map_ok.mpr ⟨(_, _), derives_seq_ok.mpr ⟨p₄, derives_before_iff.mpr
        ⟨p₃, w, hcal, derives_scan_iff.mp (derives_opt_some.mp ho)⟩, hafter⟩, rfl⟩)
    | none =>
      obtain rfl := derives_opt_none.mp ho
      exact .right (.left (derives_map_ok.mpr ⟨(_, _), derives_seq_ok.mpr ⟨p₄, hcal, hafter⟩, rfl⟩))
  | false =>
    obtain ⟨ho', hdays'⟩ := hs.resolve_left (by simp [hb])
    simp only [Bool.or_eq_false_iff, Option.isSome_eq_false_iff, Option.isNone_iff_eq_none] at hb ho'
    obtain ⟨⟨rfl, rfl⟩, rfl⟩ := hb
    subst ho'
    obtain ⟨d, rfl⟩ := Option.isSome_iff_exists.mp hdays'
    obtain rfl := derives_opt_none.mp hy
    obtain rfl := derives_opt_none.mp hd
    obtain rfl := derives_opt_none.mp hw
    obtain rfl := derives_opt_none.mp ho
    exact .right (.right (derives_map_ok.mpr ⟨_, derives_map_ok.mpr
      ⟨(d, ts), derives_seq_ok.mpr ⟨q, derives_opt_some.mp hdays, ht⟩, rfl⟩, rfl⟩))

/-- Selectors without times, where a colon stands only after years, dates or weeks. -/
lemma derives_selectorsWithoutTimes
    (h : fieldGrammar.Derives looseSelectors s (.ok (.selectors ys ds ws c days)) r)
    (hs : (ys.isSome || ds.isSome || ws.isSome) = true ∨ (c = false ∧ days.isSome = true)) :
    fieldGrammar.Derives selectorsWithoutTimes s (.ok (selected ys ds ws c days)) r := by
  obtain ⟨p₁, p₂, p₃, p₄, o, hy, hd, hw, ho, hdays, rfl⟩ := derives_looseSelectors_ok.mp h
  have honly : fieldGrammar.Derives (.opt daysOnly) p₄
      (.ok (days.map fun d => { days := d })) r := by
    cases days with
    | none => exact derives_opt_none.mpr (derives_opt_none.mp hdays)
    | some d => exact derives_opt_some.mpr (derives_map_ok.mpr ⟨d, derives_opt_some.mp hdays, rfl⟩)
  cases hb : (ys.isSome || ds.isSome || ws.isSome) with
  | true =>
    have hcal := derives_calendarSelectors hy hd hw hb
    cases o with
    | some w =>
      exact .right (.left (derives_map_ok.mpr ⟨(_, _), derives_seq_ok.mpr ⟨p₄, derives_before_iff.mpr
        ⟨p₃, w, hcal, derives_scan_iff.mp (derives_opt_some.mp ho)⟩, honly⟩, by cases days <;> rfl⟩))
    | none =>
      obtain rfl := derives_opt_none.mp ho
      exact .right (.right (.left (derives_map_ok.mpr
        ⟨(_, _), derives_seq_ok.mpr ⟨p₄, hcal, honly⟩, by cases days <;> rfl⟩)))
  | false =>
    obtain ⟨ho', hdays'⟩ := hs.resolve_left (by simp [hb])
    simp only [Bool.or_eq_false_iff, Option.isSome_eq_false_iff, Option.isNone_iff_eq_none] at hb ho'
    obtain ⟨⟨rfl, rfl⟩, rfl⟩ := hb
    subst ho'
    obtain ⟨d, rfl⟩ := Option.isSome_iff_exists.mp hdays'
    obtain rfl := derives_opt_none.mp hy
    obtain rfl := derives_opt_none.mp hd
    obtain rfl := derives_opt_none.mp hw
    obtain rfl := derives_opt_none.mp ho
    exact .right (.right (.right (derives_map_ok.mpr ⟨_, derives_map_ok.mpr
      ⟨d, derives_opt_some.mp hdays, rfl⟩, rfl⟩)))

end Parts

/-! ### Rules that a field can hold are read -/

/-- Selectors that a field can hold are read from their own text. -/
lemma derives_looseSelectors_of_canonical (hx : x.CanonicalSelectors) (hm : EndsRule m) :
    fieldGrammar.Derives looseSelectors (x.yearsText ++ m)
      (.ok (.selectors (given x.hasYears x.years) (given x.hasDates x.dates)
        (given x.hasWeeks x.weeks) x.colon (given x.hasDays x.days)))
      (x.timesText (x.hasYears || x.hasDates || x.hasWeeks || x.hasDays) ++ m) := by
  have hw := hx.written
  have hcolon : fieldGrammar.Derives (.opt (.terminal .colon))
      (x.colonText (x.hasYears || x.hasDates || x.hasWeeks) ++ m) (.ok (given x.colon [':']))
      (x.daysText (x.hasYears || x.hasDates || x.hasWeeks) ++ m) := by
    unfold Rule.colonText
    cases x.colon with
    | false => exact derives_opt_none.mpr rfl
    | true => exact derives_opt_some.mpr (derives_scan_iff.mpr
        ((scan_cons_iff (t := .colon) rfl rfl).mpr ⟨rfl, rfl⟩))
  refine derives_looseSelectors_ok.mpr ⟨x.datesText x.hasYears ++ m,
    x.weeksText (x.hasYears || x.hasDates) ++ m,
    x.colonText (x.hasYears || x.hasDates || x.hasWeeks) ++ m, _, _, ?_, ?_, ?_, hcolon, ?_,
    by cases x.colon <;> rfl⟩
  -- each of the selectors is read up to the next one that is there
  · rw [Rule.yearsText, List.append_assoc]
    refine derives_given rfl fun hb => ?_
    rw [hb]
    refine (derives_years_iff (endsYears_datesText hw hm)).mpr
      ⟨ne_nil_of_not_isEmpty hb, hx.years, fun y hy hl => ?_, rfl⟩
    exact (endsLone_datesText_iff hw hm).mpr (hx.lone y hy hl)
  · rw [Rule.datesText, List.append_assoc]
    refine derives_given rfl fun hb => ?_
    rw [hb, Bool.or_true]
    have hends : EndsDates (x.weeksText true ++ m) := (rest_weeksText hw hm).endsDates (by decide)
    refine (derives_dates_iff hends hends.after).mpr
      ⟨ne_nil_of_not_isEmpty hb, hx.dates, fun d hd hp => ?_, rfl⟩
    exact (endsOpen_weeksText_iff hw hm).mpr (hx.plus d hd hp)
  · rw [Rule.weeksText, List.append_assoc]
    refine derives_given rfl fun hb => ?_
    rw [hb, Bool.or_true]
    have hrest := rest_colonText hw hm
    exact (derives_weeks_iff (hrest.endsWeeks (by decide)) hrest.sparesClock).mpr
      ⟨ne_nil_of_not_isEmpty hb, hx.weeks, rfl⟩
  · rw [Rule.daysText, List.append_assoc]
    refine derives_given rfl fun hb => ?_
    rw [hb, Bool.or_true]
    exact (derives_daySelector_iff ((rest_timesText hw hm).endsDays (by decide))).mpr
      ⟨⟨by simpa [Rule.hasDays] using hb, hx.days⟩, rfl⟩

/-- Times that a field can hold are read from their own text. -/
lemma derives_times_of_canonical {b : Bool} (hx : x.CanonicalSelectors) (hm : EndsRule m) :
    fieldGrammar.Derives (.opt times) (x.timesText b ++ m) (.ok (given x.hasTimes x.times))
      (x.stateText (b || x.hasTimes) ++ m) := by
  rw [Rule.timesText, List.append_assoc]
  refine derives_given rfl fun hb => ?_
  rw [hb, Bool.or_true]
  exact (derives_times_iff (rest_stateText x hm).breaks).mpr
    ⟨ne_nil_of_not_isEmpty hb, hx.times, rfl⟩

/-- A state that a field can hold is read from its own text. -/
lemma derives_state_of_canonical {b : Bool}
    (hs : Rule.CanonicalState x.modifier x.modifierComment) (hm : EndsRule m) :
    fieldGrammar.Derives (.opt modifier) (x.stateText b ++ m)
      (.ok (given (x.modifier != .defaultOpen) (x.modifier, x.modifierComment))) m := by
  obtain ⟨o, ho, he⟩ := derives_opt_modifier (b := b) hs hm
  cases o with
  | none =>
    obtain ⟨hd, -⟩ := Prod.mk.inj he
    rwa [← hd]
  | some y =>
    obtain rfl : y = (x.modifier, x.modifierComment) := he
    have hne : x.modifier ≠ .defaultOpen :=
      ne_defaultOpen_of_derives_modifier (derives_opt_some.mp ho)
    rwa [given, if_pos (bne_iff_ne.mpr hne)]

lemma withModifier?_given {y : Rule} {state : Modifier} {c : Text}
    (hs : Rule.CanonicalState state c) (hy : y.modifier = .defaultOpen) (hc : y.modifierComment = []) :
    withModifier? y (given (state != .defaultOpen) (state, c)) =
      { y with modifier := state, modifierComment := c } := by
  by_cases h : state = .defaultOpen
  · subst h
    rw [hs.noComment rfl]
    obtain ⟨years, dates, weeks, days, times, always, state, comment, c, colon, sep⟩ := y
    obtain rfl : state = .defaultOpen := hy
    obtain rfl : c = [] := hc
    rfl
  · rw [given, if_pos (bne_iff_ne.mpr h)]
    rfl

lemma selected_given (x : Rule) :
    selected (given x.hasYears x.years) (given x.hasDates x.dates) (given x.hasWeeks x.weeks) x.colon
        (given x.hasDays x.days) =
      { years := x.years, dates := x.dates, weeks := x.weeks, days := x.days, colon := x.colon } := by
  have hlist : ∀ {α : Type} {xs : List α}, (!xs.isEmpty) = false → xs = [] := by
    intro α xs h
    simpa using h
  have hdays : x.hasDays = false → x.days = {} := by
    intro h
    simp only [Rule.hasDays, DaySelector.isEmpty, Bool.not_eq_false', Bool.and_eq_true,
      List.isEmpty_iff] at h
    rcases hx : x.days with ⟨ds, hs⟩
    rw [hx] at h
    obtain ⟨rfl, rfl⟩ := h
    rfl
  rw [selected, getD_given (b := x.hasYears) hlist, getD_given (b := x.hasDates) hlist,
    getD_given (b := x.hasWeeks) hlist, getD_given hdays]

lemma scan_always_iff {w : Text} :
    Terminal.always.scan (['2', '4', '/', '7'] ++ m) = some (w, r) ↔
      w = ['2', '4', '/', '7'] ∧ r = m := by
  rw [Terminal.scan, List.cons_append, Terminal.skipBlanks_cons (by decide)]
  simp [Terminal.lexeme, Terminal.literal, eq_comm]

/-- The text of a rule is read as that rule: as a rule that begins with its times, as another one that
could not go on after a comma, or as one that could. -/
structure ReadAs (x : Rule) (m : Text) : Prop where
  terminated : x.beginsWithTimes = false → x.isClosed = true →
    fieldGrammar.Derives terminatedRule (x.text ++ m) (.ok { x with separator := semicolon }) m
  timesFirst : x.beginsWithTimes = true →
    fieldGrammar.Derives timesFirstRule (x.text ++ m) (.ok { x with separator := semicolon }) m
  openEnded : x.isClosed = false →
    fieldGrammar.Derives openEndedRule (x.text ++ m) (.ok { x with separator := semicolon }) m

lemma readAs_always {state : Modifier} {c sep : Text} (hs : Rule.CanonicalState state c)
    (hm : EndsRule m) :
    ReadAs { always := true, modifier := state, modifierComment := c, separator := sep } m := by
  refine ⟨fun _ _ => ?_, nofun, nofun⟩
  rw [Rule.text_of_always rfl, List.append_assoc]
  refine .right (.right (.left (derives_map_ok.mpr ⟨(_, _), derives_seq_ok.mpr
    ⟨_, derives_map_ok.mpr ⟨_, derives_scan_iff.mpr (scan_always_iff.mpr ⟨rfl, rfl⟩), rfl⟩,
      derives_state_of_canonical hs hm⟩, ?_⟩)))
  exact withModifier?_given hs rfl rfl

lemma readAs_comment {state : Modifier} {c comment sep : Text} (hc : '"' ∉ comment)
    (hs : Rule.CanonicalState state c) (hm : EndsRule m) :
    ReadAs
      { comment := '"' :: comment ++ ['"'], modifier := state, modifierComment := c, separator := sep }
      m := by
  have hassoc : ∀ s : Text, '"' :: comment ++ ['"'] ++ ':' :: s = '"' :: comment ++ '"' :: ':' :: s := by
    simp
  have hstate := derives_state_of_canonical (b := true)
    (x := { comment := '"' :: comment ++ ['"'], modifier := state, modifierComment := c })
    hs hm
  have hsel : ∀ s, fieldGrammar.Derives selectorsWithoutTimes ('"' :: comment ++ ['"'] ++ ':' :: s)
      (.ok { comment := '"' :: comment ++ ['"'] }) s := by
    intro s
    rw [hassoc]
    exact .left (derives_build_ok.mpr ⟨(_, none), derives_seq_ok.mpr ⟨s, derives_before_iff.mpr
      ⟨_, _, derives_scan_iff.mpr ((Terminal.scan_comment_iff hc).mpr ⟨rfl, rfl⟩),
        (scan_cons_iff (t := .colon) rfl rfl).mpr ⟨rfl, rfl⟩⟩, derives_opt_none.mpr rfl⟩, rfl⟩)
  refine ⟨fun _ hclosed => ?_, nofun, fun hopen => ?_⟩
  · have hne : (state != .defaultOpen) = true := by
      simpa [Rule.isClosed, Rule.hasTimes] using hclosed
    simp only [hne, given, if_true] at hstate
    rw [Rule.text_of_comment rfl rfl, List.append_assoc, List.cons_append]
    exact .right (.left (derives_map_ok.mpr ⟨(_, _), derives_seq_ok.mpr
      ⟨_, hsel _, derives_opt_some.mp hstate⟩, rfl⟩))
  · obtain rfl : state = .defaultOpen := by simpa [Rule.isClosed, Rule.hasTimes] using hopen
    obtain rfl := hs.noComment rfl
    rw [Rule.text_of_comment rfl rfl, List.append_assoc, List.cons_append]
    exact hsel _

lemma isSome_given {α : Type} {b : Bool} {a : α} : (given b a).isSome = b := by
  cases b <;> rfl

section Selectors

variable (ha : x.always = false) (hc : x.comment = []) (hx : x.CanonicalSelectors)
  (hs : Rule.CanonicalState x.modifier x.modifierComment) (hm : EndsRule m)

include ha hc hs in
/-- The parts of a rule make up the rule. -/
lemma withModifier?_selected {y : Rule}
    (hy : y = { selected (given x.hasYears x.years) (given x.hasDates x.dates) (given x.hasWeeks x.weeks)
      x.colon (given x.hasDays x.days) with times := x.times }) :
    withModifier? y (given (x.modifier != .defaultOpen) (x.modifier, x.modifierComment)) =
      { x with separator := semicolon } := by
  subst hy
  rw [withModifier?_given hs rfl rfl, selected_given]
  obtain ⟨years, dates, weeks, days, times, always, state, comment, c, colon, sep⟩ := x
  obtain rfl : always = false := ha
  obtain rfl : comment = [] := hc
  rfl

include ha hc in
lemma beginsWithTimes_of_selectors :
    x.beginsWithTimes = (!(x.hasCalendar || x.hasDays) && x.hasTimes) := by
  simp [Rule.beginsWithTimes, Rule.hasComment, ha, hc]

include ha in
lemma isClosed_of_selectors : x.isClosed = (x.hasTimes || x.modifier != .defaultOpen) := by
  simp [Rule.isClosed, ha]

lemma times_eq_nil (h : x.hasTimes = false) : x.times = [] := by
  simpa [Rule.hasTimes] using h

/-- Selectors before the times are years, dates or weeks, or days without a colon. -/
lemma isSome_of_leading (hcolon : x.colon = true → x.hasCalendar = true)
    (hcond : (x.hasCalendar || x.hasDays) = true) :
    ((given x.hasYears x.years).isSome || (given x.hasDates x.dates).isSome ||
      (given x.hasWeeks x.weeks).isSome) = true ∨
      (x.colon = false ∧ (given x.hasDays x.days).isSome = true) := by
  simp only [isSome_given]
  cases hcal : x.hasCalendar with
  | true => exact Or.inl hcal
  | false =>
    rw [hcal, Bool.false_or] at hcond
    exact Or.inr ⟨Bool.eq_false_iff.mpr fun h => by simp [hcolon h] at hcal, hcond⟩

include hx hm in
/-- Selectors without times are read from their own text. -/
lemma derives_selectorsWithoutTimes_of_canonical (ht : x.hasTimes = false)
    (hcolon : x.colon = true → x.hasCalendar = true) (hcond : (x.hasCalendar || x.hasDays) = true) :
    fieldGrammar.Derives selectorsWithoutTimes (x.yearsText ++ m)
      (.ok { selected (given x.hasYears x.years) (given x.hasDates x.dates) (given x.hasWeeks x.weeks)
        x.colon (given x.hasDays x.days) with times := x.times })
      (x.stateText (x.hasYears || x.hasDates || x.hasWeeks || x.hasDays || x.hasTimes) ++ m) := by
  have htimes := derives_times_of_canonical
    (b := x.hasYears || x.hasDates || x.hasWeeks || x.hasDays) hx hm
  have hloose := derives_looseSelectors_of_canonical hx hm
  rw [ht] at htimes ⊢
  rw [← derives_opt_none.mp htimes] at hloose
  rw [times_eq_nil ht]
  exact derives_selectorsWithoutTimes hloose (isSome_of_leading hcolon hcond)

include ha hc hx hs hm in
/-- A rule with selectors before its times is read from its own text. -/
lemma readAs_leading (hcolon : x.colon = true → x.hasCalendar = true)
    (hcond : (x.hasCalendar || x.hasDays) = true) : ReadAs x m := by
  have htext : x.text = x.yearsText := Rule.text_of_selectors ha (by simp [Rule.hasComment, hc])
  have htimes := derives_times_of_canonical
    (b := x.hasYears || x.hasDates || x.hasWeeks || x.hasDays) hx hm
  have hstate := derives_state_of_canonical
    (b := x.hasYears || x.hasDates || x.hasWeeks || x.hasDays || x.hasTimes) hs hm
  have hvalue := withModifier?_selected ha hc hs rfl
  have hclosed := isClosed_of_selectors ha
  refine ⟨fun _ h => ?_, fun h => ?_, fun h => ?_⟩
  · rw [htext]
    cases ht : x.hasTimes with
    | true =>
      rw [ht] at htimes hstate
      exact .left (derives_map_ok.mpr ⟨(_, _), derives_seq_ok.mpr
        ⟨_, derives_selectorsWithTimes (derives_looseSelectors_of_canonical hx hm)
          (derives_opt_some.mp htimes) (isSome_of_leading hcolon hcond), hstate⟩, hvalue⟩)
    | false =>
      rw [hclosed, ht, Bool.false_or] at h
      rw [h] at hstate hvalue
      exact .right (.left (derives_map_ok.mpr ⟨(_, _), derives_seq_ok.mpr
        ⟨_, derives_selectorsWithoutTimes_of_canonical hx hm ht hcolon hcond,
          derives_opt_some.mp hstate⟩, hvalue⟩))
  · simp [beginsWithTimes_of_selectors ha hc, hcond] at h
  · rw [hclosed, Bool.or_eq_false_iff] at h
    rw [h.2] at hstate hvalue
    have hopen := derives_selectorsWithoutTimes_of_canonical hx hm h.1 hcolon hcond
    rw [← derives_opt_none.mp hstate] at hopen
    rw [htext, ← hvalue]
    exact hopen

include ha hc hx hs hm in
/-- A rule without selectors before its times is read from its own text. -/
lemma readAs_times (hcolon : x.colon = true → x.hasCalendar = true)
    (hne : x.isEmpty = true → x.modifier ≠ .defaultOpen)
    (hcond : (x.hasCalendar || x.hasDays) = false) : ReadAs x m := by
  obtain ⟨hcal, hdays⟩ := Bool.or_eq_false_iff.mp hcond
  obtain ⟨hyd, hw⟩ := Bool.or_eq_false_iff.mp hcal
  obtain ⟨hy, hd⟩ := Bool.or_eq_false_iff.mp hyd
  have hc' : x.colon = false := Bool.eq_false_iff.mpr fun h => by simp [hcolon h] at hcal
  have htext : x.text = x.timesText false := by
    rw [Rule.text_of_selectors ha (by simp [Rule.hasComment, hc])]
    simp [Rule.yearsText, Rule.datesText, Rule.weeksText, Rule.colonText, Rule.daysText, hy, hd, hw,
      hc', hdays, Rule.piece]
  have htimes := derives_times_of_canonical (b := false) hx hm
  have hstate := derives_state_of_canonical (b := x.hasTimes) hs hm
  have hplain : selected (given x.hasYears x.years) (given x.hasDates x.dates)
      (given x.hasWeeks x.weeks) x.colon (given x.hasDays x.days) = {} := by
    rw [hy, hd, hw, hc', hdays]
    rfl
  have hvalue := fun y => withModifier?_selected ha hc hs (y := y)
  rw [hplain] at hvalue
  rw [Bool.false_or] at htimes
  have hbegins := beginsWithTimes_of_selectors ha hc
  have hclosed := isClosed_of_selectors ha
  rw [hcond] at hbegins
  -- without times only the state is left, and it has to be written
  cases ht : x.hasTimes with
  | true =>
    rw [ht] at htimes hstate
    refine ⟨fun h => by simp [hbegins, ht] at h, fun _ => ?_, fun h => by simp [hclosed, ht] at h⟩
    rw [htext]
    exact derives_map_ok.mpr ⟨(_, _), derives_seq_ok.mpr ⟨_, derives_map_ok.mpr
      ⟨_, derives_opt_some.mp htimes, rfl⟩, hstate⟩, hvalue _ rfl⟩
  | false =>
    rw [ht] at htimes hstate
    have hmod : (x.modifier != .defaultOpen) = true :=
      bne_iff_ne.mpr (hne (by simp [Rule.isEmpty, hy, hd, hw, hdays, ht]))
    rw [hmod] at hstate hvalue
    refine ⟨fun _ _ => ?_, fun h => by simp [hbegins, ht] at h, fun h => by simp [hclosed, hmod] at h⟩
    rw [htext, ← derives_opt_none.mp htimes]
    exact .right (.right (.right (derives_map_ok.mpr ⟨_, derives_opt_some.mp hstate,
      hvalue {} (by rw [times_eq_nil ht])⟩)))

end Selectors

/-- A rule that a field can hold is read from its own text. -/
theorem readAs_of_canonical (hx : x.Canonical) (hm : EndsRule m) : ReadAs x m := by
  cases hx with
  | always hs sep => exact readAs_always hs hm
  | comment hc hs sep => exact readAs_comment hc hs hm
  | selectors ha hc hx hs hcolon hne =>
    cases hcond : x.hasCalendar || x.hasDays with
    | true => exact readAs_leading ha hc hx hs hm hcolon hcond
    | false => exact readAs_times ha hc hx hs hm hcolon hne hcond

end Part

end OpeningTimes
