import OpeningTimes.Proofs.Rules.Comments
import OpeningTimes.Proofs.Text.Layout

/-!
The layout of the canonical text of a field.

What is written of a rule is laid out part by part: each part that is not empty has a layout of its own,
and the parts are put together with single spaces.

* `Rule.Filled`: the rules of which no part is written as nothing;
* `Rule.laidOut_text`, `Rule.laidOut_textAll`: the layout of a written rule, and of written rules;
* `Field.laidOut_canonical`: the layout of the canonical text of a field.
-/

namespace OpeningTimes

open Grammar Text

/-- The rules of which no part is written as nothing: a range of years or of weeks has a number, and a
comment that stands for a state says something. A field without a year zero, a week zero and an empty
comment has only such rules. -/
structure Rule.Filled (x : Rule) : Prop where
  years : ∀ y ∈ x.years, y.isEmpty = false
  weeks : ∀ w ∈ x.weeks, w.isEmpty = false
  state : x.modifier = .comment → x.modifierComment ≠ []

/-! ### Words -/

lemma Timespan.laidOut_text (s : Timespan) : LaidOut s.text :=
  laidOut_word (by simp [text, Time.text_ne_nil]) s.marked_text

lemma YearRange.laidOut_text {y : YearRange} (h : y.isEmpty = false) : LaidOut y.text :=
  laidOut_word (by simp [text, h, numeral_ne_nil]) y.marked_text

lemma WeekRange.laidOut_text {w : WeekRange} (h : w.isEmpty = false) : LaidOut w.text :=
  laidOut_word (by simp [text, h, padded_ne_nil]) w.marked_text

/-! ### Shifts by days -/

/-- A shift is a number and a word. -/
lemma DayOffset.laidOut_text {n : ℤ} (hn : n ≠ 0) : LaidOut (DayOffset.text n false) := by
  have htext : DayOffset.text n false = ((if 0 < n then ['+'] else []) ++ numeral n) ++
      ' ' :: (['d', 'a', 'y'] ++ if 1 < n.natAbs then ['s'] else []) := by
    simp [DayOffset.text, hn]
  rw [htext]
  refine (laidOut_word (by simp [numeral_ne_nil]) ?_).space (laidOut_word (by simp) ?_)
  · split_ifs <;> simp [isMark]
  · split_ifs <;> decide

/-- A shift stands after a space, if there is one. -/
lemma Text.LaidOut.dayOffset {a : Text} (ha : LaidOut a) (n : ℤ) :
    LaidOut (a ++ DayOffset.text n true) := by
  by_cases hn : n = 0
  · have hnone : DayOffset.text n true = [] := by simp [DayOffset.text, hn]
    rwa [hnone, List.append_nil]
  · have hspace : DayOffset.text n true = ' ' :: DayOffset.text n false := by
      simp [DayOffset.text, hn]
    rw [hspace]
    exact ha.space (DayOffset.laidOut_text hn)

/-! ### Days -/

lemma WeekdayRange.laidOut_text (r : WeekdayRange) : LaidOut r.text := by
  have hstart : LaidOut (Weekday.text r.start) :=
    laidOut_word (Weekday.text_ne_nil _) (Weekday.marked_text _)
  have hnths : Marked (joinWith [','] NthRange.text r.nths) :=
    marked_joinWith (by decide) NthRange.marked_text _
  rw [text]
  split
  · exact hstart.append (laidOut_word (by simp) (marked_cons.mpr ⟨rfl, Weekday.marked_text _⟩))
  · split
    · rw [← List.append_assoc]
      exact (hstart.append (laidOut_word (by simp) (by simp [isMark, hnths]))).dayOffset _
    · exact hstart.dayOffset _

lemma Holiday.laidOut_text (h : Holiday) : LaidOut h.text := by
  rw [text]
  split
  · exact laidOut_word (by simp) (by decide)
  · exact (laidOut_word (w := ['S', 'H']) (by simp) (by decide)).dayOffset _

/-- Holidays and weekdays are a single list. -/
lemma DaySelector.laidOut_text {d : DaySelector} (h : d.isEmpty = false) : LaidOut d.text := by
  have hranges : d.ranges ≠ [] → LaidOut (WeekdayRange.textAll d.ranges) := fun hne =>
    .listed hne fun r _ => r.laidOut_text
  have hholidays : d.holidays ≠ [] → LaidOut (Holiday.textAll d.holidays) := fun hne =>
    .listed hne fun h _ => h.laidOut_text
  by_cases hr : d.ranges = []
  · have hh : d.holidays ≠ [] := by
      rintro hh
      simp [isEmpty, hr, hh] at h
    have htext : d.text = Holiday.textAll d.holidays := by
      simp [text, hasWeekdays, hr, WeekdayRange.textAll, joinWith]
    rw [htext]
    exact hholidays hh
  · by_cases hh : d.holidays = []
    · have htext : d.text = WeekdayRange.textAll d.ranges := by
        simp [text, hasHolidays, hh, Holiday.textAll, joinWith]
      rw [htext]
      exact hranges hr
    · have htext : d.text =
          Holiday.textAll d.holidays ++ [','] ++ ' ' :: WeekdayRange.textAll d.ranges := by
        simp [text, hasWeekdays, hasHolidays, hr, hh, commaSpace]
      rw [htext]
      exact ((hholidays hh).append (laidOut_word (by simp) (by decide))).space (hranges hr)

/-! ### Dates -/

lemma DateOffset.laidOut_text {o : DateOffset} (h : o.isEmpty = false) : LaidOut o.text := by
  by_cases hw : o.hasWeekday = true
  · have hsign : isMark (if o.positive then '+' else '-') = true := by
      split <;> rfl
    rw [text, if_pos hw, hw]
    exact (laidOut_word (by simp) (marked_cons.mpr ⟨hsign, Weekday.marked_text _⟩)).dayOffset _
  · have hd : o.days ≠ 0 := by simpa [isEmpty, hasDays, hw] using h
    rw [text, if_neg hw, Bool.eq_false_iff.mpr hw]
    exact DayOffset.laidOut_text hd

lemma Date.laidOut_text {d : Date} (h : d.isEmpty = false) : LaidOut d.text := by
  have hyear : Spaced.LaidOut (Spaced.wordIf {} d.hasYear (numeral d.year)) :=
    Spaced.laidOut_empty.wordIf fun _ => laidOut_word (numeral_ne_nil _) (marked_numeral _)
  have hmonth : LaidOut (Month.text d.month) :=
    laidOut_word (Month.text_ne_nil _) (Month.marked_text _)
  have hmovable : LaidOut (MovableDate.text d.movable) :=
    laidOut_word (MovableDate.text_ne_nil _) (MovableDate.marked_text _)
  have hday : LaidOut (twoDigits d.day) := laidOut_word (padded_ne_nil _ 2) (marked_padded _ 2)
  have hoffset : d.hasOffset = true → LaidOut d.offset.text := fun ho =>
    DateOffset.laidOut_text (by simpa [hasOffset] using ho)
  simp only [isEmpty, Bool.and_eq_false_iff, Bool.not_eq_false'] at h
  rw [text]
  simp only [spaced]
  by_cases hm : d.isMovable = true
  · rw [if_pos hm]
    refine ((hyear.word hmovable).wordIf hoffset).begun ?_
    simp [Rule.asked_wordIf, Spaced.word, SpaceLatch.ask]
  · rw [if_neg hm]
    refine (((hyear.wordIf fun _ => hmonth).wordIf fun _ => hday).wordIf hoffset).begun ?_
    simp only [Rule.asked_wordIf, Bool.or_eq_true, Bool.false_eq_true, false_or]
    exact Or.inl (h.resolve_right hm)

lemma DateRange.laidOut_text {r : DateRange} (h : r.start.isEmpty = false) : LaidOut r.text := by
  have hstart : LaidOut r.start.text := Date.laidOut_text h
  rw [text, if_pos (by simp [hasStart, h])]
  split
  · next hstop =>
    have hstopText : LaidOut ('-' :: r.stop.text) :=
      .cons rfl (Date.laidOut_text (by simpa [hasStop] using hstop))
    rw [Period.text]
    split
    · rw [List.append_nil]
      exact hstart.append hstopText
    · exact hstart.append (hstopText.append
        (laidOut_word (by simp) (marked_cons.mpr ⟨rfl, marked_numeral _⟩)))
  · split
    · exact hstart.append (laidOut_word (by simp) (by decide))
    · rwa [List.append_nil]

/-! ### Rules -/

namespace Rule

variable {x : Rule} {R : List Rule}

/-- A rule begins with what says when it applies, if it says so. -/
lemma asked_spacedSelectors (x : Rule) :
    x.spacedSelectors.latch.asked = (x.always || x.hasComment || !x.isEmpty) := by
  rw [spacedSelectors]
  cases x.always with
  | true => rfl
  | false =>
    cases x.hasComment with
    | true => rfl
    | false => simp [asked_wordIf, asked_glueIf, isEmpty, Bool.or_assoc]

lemma laidOut_spacedSelectors (hx : x.Regular) (hf : x.Filled) : x.spacedSelectors.LaidOut := by
  have hcolon : LaidOut [':'] := laidOut_word (by simp) (by decide)
  rw [spacedSelectors]
  split
  · exact Spaced.laidOut_empty.word (laidOut_word (by simp) (by decide))
  split
  · next hc =>
    obtain ⟨⟨c, hquote, hcomment⟩, -⟩ := hx.comment (by simpa [hasComment] using hc)
    rw [hcomment]
    exact Spaced.laidOut_empty.word ((laidOut_quotation hquote).append hcolon)
  · have hyears : x.hasYears = true → LaidOut (YearRange.textAll x.years) := fun h =>
      .listed (by simpa [hasYears] using h) fun y hy => YearRange.laidOut_text (hf.years y hy)
    have hdates : x.hasDates = true → LaidOut (DateRange.textAll x.dates) := fun h =>
      .listed (by simpa [hasDates] using h) fun d hd =>
        DateRange.laidOut_text (hx.dates d hd).start.isEmpty
    have hweeks : x.hasWeeks = true → LaidOut (WeekRange.textAll x.weeks) := fun h =>
      (laidOut_word (w := ['w', 'e', 'e', 'k']) (by simp) (by decide)).space
        (.listed (by simpa [hasWeeks] using h) fun w hw => WeekRange.laidOut_text (hf.weeks w hw))
    have hdays : x.hasDays = true → LaidOut x.days.text := fun h =>
      DaySelector.laidOut_text (by simpa [hasDays] using h)
    have htimes : x.hasTimes = true → LaidOut (Timespan.textAll x.times) := fun h =>
      .listed (by simpa [hasTimes] using h) fun s _ => s.laidOut_text
    have hcalendar := ((Spaced.laidOut_empty.wordIf hyears).wordIf hdates).wordIf hweeks
    refine ((hcalendar.glueIf (fun hc => ?_) hcolon).wordIf hdays).wordIf htimes
    -- the colon has years, dates or weeks to touch
    simpa [asked_wordIf, hasCalendar] using hx.colon hc

/-- A written rule has a layout. It says when it applies, or a word or a comment stands for its state. -/
theorem laidOut_text (hx : x.Regular) (hf : x.Filled) : LaidOut x.text := by
  have hword : LaidOut x.modifier.text ∨ x.modifier.isPrinted = false := by
    cases x.modifier
    case defaultOpen => exact Or.inr rfl
    case comment => exact Or.inr rfl
    all_goals exact Or.inl (laidOut_word (by decide) (by decide))
  have hmodifier : x.modifier.isPrinted = true → LaidOut x.modifier.text := fun hp =>
    hword.resolve_right (by simp [hp])
  refine (((laidOut_spacedSelectors hx hf).wordIf hmodifier).wordIf
    fun _ => laidOut_quotation hx.quotes).begun ?_
  rw [asked_wordIf, asked_wordIf, asked_spacedSelectors]
  by_contra hnone
  simp only [Bool.not_eq_true, Bool.or_eq_false_iff, Bool.not_eq_false'] at hnone
  obtain ⟨⟨⟨⟨ha, hc⟩, hempty⟩, hprinted⟩, hcomment⟩ := hnone
  have hstate : x.modifier ≠ .defaultOpen := hx.state hempty ha (by simpa [hasComment] using hc)
  have hmodifier : x.modifier = .comment := by
    simpa [Modifier.isPrinted, hstate] using hprinted
  exact hf.state hmodifier (by simpa [hasModifierComment] using hcomment)

/-- A separator touches the rule before it, or has spaces on both sides. -/
lemma laidOut_separated {a b : Text} (ha : LaidOut a) (hb : LaidOut b) (hs : x.separator ∈ separators) :
    LaidOut (a ++ (x.separatorText ++ b)) := by
  have htouch : ∀ m, isMark m = true → LaidOut (a ++ ([m, ' '] ++ b)) := by
    intro m hm
    have happend : a ++ ([m, ' '] ++ b) = (a ++ [m]) ++ ' ' :: b := by simp
    rw [happend]
    exact (ha.append (laidOut_word (by simp) (by simpa using hm))).space hb
  simp only [separators, List.mem_cons, List.not_mem_nil, or_false] at hs
  rcases hs with hs | hs | hs
  · rw [separatorText, hs]
    exact htouch ';' rfl
  · rw [separatorText, hs]
    exact htouch ',' rfl
  · rw [separatorText, hs]
    exact ha.space ((laidOut_word (w := ['|', '|']) (by simp) (by decide)).space hb)

/-- Written rules have a layout. -/
theorem laidOut_textAll (hR : Chained Regular R) (hf : ∀ x ∈ R, x.Filled) : LaidOut (textAll R) := by
  have hne := hR.ne_nil
  have hsep := hR.separator_mem
  have hregular := hR.forall_mem
  clear hR
  induction R with
  | nil => exact absurd rfl hne
  | cons x R ih =>
    rw [List.forall_mem_cons] at hsep hregular hf
    have htext := laidOut_text hregular.1 hf.1
    cases R with
    | nil =>
      have hone : textAll [x] = x.text := by simp [textAll, Text.joinBy]
      rwa [hone]
    | cons y R =>
      rw [textAll_cons_cons]
      exact laidOut_separated htext (ih hf.2 (List.cons_ne_nil y R) hsep.2 hregular.2) hsep.1

end Rule

namespace Field

variable {f : Text} {R : List Rule}

/-- The canonical text of a field has a layout, whatever blanks and digits are in the field. -/
theorem laidOut_canonical (hR : read f = .ok R) (hf : ∀ x ∈ R, x.Filled) :
    ∃ t, canonical f = .ok t ∧ t.LaidOut := by
  have hcheck := check_of_even (quotes_of_read hR).even_count
  exact ⟨_, canonical_eq_ok_iff.mpr ⟨hcheck, R, hR, rfl⟩, Rule.laidOut_textAll (chained_of_read hR) hf⟩

/-- Neither the blanks of a field nor its foreign digits are in its canonical text, but a comment is kept
as it is. -/
theorem laidOut_canonical_december :
    let f := "\t2020 Dec\n25 :\rmo[1] +\u0662DAYS 9:30-(dusk -01:05) \"à  la\tcarte\" ||week 1,\x0c2 off".toList
    (∃ R, read f = .ok R ∧ ∀ x ∈ R, x.Filled) ∧ ∃ t, canonical f = .ok t ∧ t.LaidOut := by
  intro f
  let span : Timespan :=
    { start := .ofDuration ⟨570 * Duration.microsPerMinute, by decide⟩
      stop := .ofEvent .dusk (some ⟨-65 * Duration.microsPerMinute, by decide⟩) }
  let x : Rule :=
    { dates := [{ start := { year := 2020, month := some .december, day := 25 } }]
      days := { ranges := [{ start := some .monday, nths := [{ start := some .first }], offset := 2 }] }
      times := [span], modifier := .comment, modifierComment := "à  la\tcarte".toList, colon := true
      separator := ['|', '|'] }
  let y : Rule := { weeks := [{ start := 1 }, { start := 2 }], modifier := .closed }
  have hR : read f = .ok [x, y] := by decide +kernel
  have hf : ∀ z ∈ [x, y], z.Filled := by
    intro z hz
    simp only [List.mem_cons, List.not_mem_nil, or_false] at hz
    rcases hz with rfl | rfl
    · exact ⟨by decide, by decide, fun _ => by decide⟩
    · exact ⟨by decide, by decide, nofun⟩
  exact ⟨⟨_, hR, hf⟩, laidOut_canonical hR hf⟩

end Field

end OpeningTimes
