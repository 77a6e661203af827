import OpeningTimes.Proofs.Canonical.Dates
import OpeningTimes.Proofs.Field.Uniqueness

/-!
What follows a part of a written rule.

* `Part.endsLone_iff`, `Part.endsOpen_iff`: what a look ahead over white space finds;
* `EndsRule`: what may follow a rule, which is its end or a separator;
* `Part.Rest`: what may follow a part of a rule, with the openings it may have;
* `Rule.stateText`, `Rule.timesText` and their companions: a written rule from some part on;
* `Part.rest_stateText`, `Part.rest_timesText` and their companions: these texts may follow the parts
  before them.
-/

namespace OpeningTimes

open Grammar Text

/-! ### Looking ahead -/

namespace Opening

/-- All white space before a word, a number or a mark is blank. -/
lemma dropWhile_isSpace {s : Text} (h : Opening.of s ≠ .mark) :
    s.dropWhile isSpace = skipBlanks s := by
  induction s with
  | nil => rfl
  | cons c s ih =>
    by_cases hc : isBlank c = true
    · have hskip : skipBlanks (c :: s) = skipBlanks s := List.dropWhile_cons_of_pos hc
      rw [List.dropWhile_cons_of_pos (isSpace_of_isBlank hc), hskip]
      exact ih (by rwa [Opening.of, ← hskip])
    · have hskip : skipBlanks (c :: s) = c :: s := List.dropWhile_cons_of_neg hc
      rw [Opening.of, hskip, ofBare] at h
      have hspace : isSpace c = false := by
        split at h
        · next hd => exact isSpace_eq_false_of_isDigit hd
        split at h
        · next hl => exact isSpace_eq_false_of_isLetter hl
        · unfold ofMark at h
          split at h
          case h_13 => exact absurd rfl h
          all_goals rfl
      rw [hskip, List.dropWhile_cons_of_neg (by simp [hspace])]

/-- A text that begins with a known word, whatever white space is before it, opens with its kind. -/
lemma of_startsWith {words : List Text} {o : Opening} (hnil : [] ∉ words)
    (ho : ∀ w ∈ words, ofWord w = o) {s : Text} (hs : Opening.of s ≠ .mark)
    (h : Terminal.startsWith words (s.dropWhile isSpace) = true) : Opening.of s = o := by
  rw [dropWhile_isSpace hs] at h
  have hword : Terminal.word words (skipBlanks s) = some _ := if_pos h
  have := Terminal.opens_of_word hnil ho hword
  simpa [Opening.of] using this

end Opening

namespace Part

variable {s m r : Text}

/-- Whether a year stands alone depends on what the text after it opens with. -/
lemma endsLone_iff (hs : Opening.of s ≠ .mark) : EndsLone s ↔ Avoids [.month, .easter] s := by
  constructor
  · exact avoids_of_monthWords
  · intro ha
    rw [EndsLone, Bool.eq_false_iff]
    intro h
    have hor : Terminal.startsWith Terminal.monthWords (s.dropWhile isSpace) = true ∨
        Terminal.startsWith Terminal.movableWords (s.dropWhile isSpace) = true := by
      simpa only [Terminal.startsWith, List.contains_iff_mem, List.mem_append] using h
    rcases hor with h | h
    · have := Opening.of_startsWith (o := .month) (by decide) (by decide) hs h
      exact ha (by simp [this])
    · have := Opening.of_startsWith (o := .easter) (by decide) (by decide) hs h
      exact ha (by simp [this])

/-- Whether a range of dates is left open depends on what the text after it opens with. -/
lemma endsOpen_iff (hs : Opening.of s ≠ .mark) : EndsOpen s ↔ Avoids [.weekday] s := by
  constructor
  · exact avoids_of_weekdayWords
  · intro ha
    rw [EndsOpen, Bool.eq_false_iff]
    intro h
    have := Opening.of_startsWith (o := .weekday) (by decide) (by decide) hs h
    exact ha (by simp [this])

end Part

/-! ### What follows a part of a rule -/

/-- What may follow a written rule: its end, or a separator. -/
inductive EndsRule : Text → Prop where
  | nil : EndsRule []
  | semicolon (s : Text) : EndsRule (';' :: s)
  | bars (s : Text) : EndsRule (' ' :: '|' :: '|' :: s)
  | comma (s : Text) : EndsRule (',' :: s)

namespace Part

variable {s m r : Text} {os os' : List Opening}

/-- What may follow a part of a written rule, with the openings that it may have. A number is the hours
of a clock time, and a colon is not in the middle of one. -/
structure Rest (os : List Opening) (s : Text) : Prop where
  breaks : Breaks s
  opening : Opening.of s ∈ os
  sparesClock : SparesClock s
  clock : ∀ t ∈ Terminal.numerals, ∀ w q, t.scan s = some (w, q) → ¬ SparesClock q
  noZero : NoZeroYear s

namespace Rest

lemma mono (h : Rest os s) (ho : ∀ o ∈ os, o ∈ os') : Rest os' s :=
  { h with opening := ho _ h.opening }

/-- A text that begins with neither a number nor a colon may follow. -/
lemma of_opening (hb : Breaks s) (ho : Opening.of s ∈ os)
    (hn : ∀ o ∈ .colon :: Opening.numbers, o ∉ os) : Rest os s where
  breaks := hb
  opening := ho
  sparesClock := .of_avoids (.of_mem ho fun o h => hn o (by
    simp only [List.mem_singleton] at h
    simp [h]))
  clock := by
    have hnum : ∀ t ∈ Terminal.numerals, ∀ o ∈ t.openings, o ∈ Opening.numbers := by decide
    intro t ht w q h
    have ha : Avoids Opening.numbers s := .of_mem ho fun o h => hn o (List.mem_cons_of_mem _ h)
    exact (ha.not_scan (hnum t ht) h).elim
  noZero := by
    intro q h
    have ha : Avoids Opening.numbers s := .of_mem ho fun o h => hn o (List.mem_cons_of_mem _ h)
    exact ha.not_begins (g := number .year) (P := fun _ => True) rfl (by decide) ⟨_, q, h, trivial⟩

lemma avoids (h : Rest os s) (ho : ∀ o ∈ os', o ∉ os) : Avoids os' s :=
  .of_mem h.opening ho

lemma noDay (h : Rest os s) (w q : Text) (hq : Terminal.dayNumber.scan s = some (w, q)) :
    ¬ SparesClock q :=
  h.clock _ (by decide) w q hq

lemma endsYears (h : Rest os s) (ho : ∀ o ∈ [.dash, .plus, .slash], o ∉ os) : EndsYears s where
  breaks := h.breaks
  avoids := h.avoids ho
  noZero := h.noZero

lemma endsDates (h : Rest os s) (ho : ∀ o ∈ [.dash, .plus, .slash, .day], o ∉ os) :
    EndsDates s where
  breaks := h.breaks
  after :=
    { avoids := h.avoids ho
      sparesClock := h.sparesClock
      noDay := h.noDay
      noCount := fun w q hq hd => h.clock _ (by decide) w q hq
        (.of_avoids (.of_mem (K := [.day]) hd (by decide))) }

lemma endsWeeks (h : Rest os s) (ho : ∀ o ∈ [.dash, .slash], o ∉ os) : EndsWeeks s where
  breaks := h.breaks
  avoids := h.avoids ho
  noWeek := h.clock _ (by decide)

lemma endsDays (h : Rest os s) (ho : ∀ o ∈ [.leftBracket, .dash, .plus], o ∉ os) :
    EndsWeekday s :=
  ⟨h.breaks, h.avoids ho⟩

end Rest

end Part

/-! ### A written rule from some part on -/

namespace Rule

/-- A part of a rule that may be missing, after a space if something has been written before it. -/
def piece (asked wanted : Bool) (w : Text) : Text :=
  if wanted then (if asked then [' '] else []) ++ w else []

lemma piece_false (asked : Bool) (w : Text) : piece asked false w = [] :=
  rfl

lemma piece_asked (w : Text) : piece true true w = ' ' :: w :=
  rfl

lemma text_wordIf (s : Spaced) (wanted : Bool) (w : Text) :
    (s.wordIf wanted w).text = s.text ++ piece s.latch.asked wanted w := by
  cases wanted <;> simp [Spaced.wordIf, Spaced.word, SpaceLatch.ask, SpaceLatch.space, piece]

lemma asked_wordIf (s : Spaced) (wanted : Bool) (w : Text) :
    (s.wordIf wanted w).latch.asked = (s.latch.asked || wanted) := by
  cases wanted <;> simp [Spaced.wordIf, Spaced.word, SpaceLatch.ask]

lemma text_glueIf (s : Spaced) (wanted : Bool) (w : Text) :
    (s.glueIf wanted w).text = s.text ++ if wanted then w else [] := by
  cases wanted <;> simp [Spaced.glueIf, Spaced.glue]

lemma asked_glueIf (s : Spaced) (wanted : Bool) (w : Text) :
    (s.glueIf wanted w).latch.asked = s.latch.asked := by
  cases wanted <;> rfl

/-- A written rule from its state on. -/
def stateText (asked : Bool) (x : Rule) : Text :=
  piece asked x.modifier.isPrinted x.modifier.text ++
    piece (asked || x.modifier.isPrinted) x.hasModifierComment ('"' :: x.modifierComment ++ ['"'])

/-- A written rule from its times on. -/
def timesText (asked : Bool) (x : Rule) : Text :=
  piece asked x.hasTimes (Timespan.textAll x.times) ++ stateText (asked || x.hasTimes) x

/-- A written rule from its days on. -/
def daysText (asked : Bool) (x : Rule) : Text :=
  piece asked x.hasDays x.days.text ++ timesText (asked || x.hasDays) x

/-- A written rule from its colon on. -/
def colonText (asked : Bool) (x : Rule) : Text :=
  (if x.colon then [':'] else []) ++ daysText asked x

/-- A written rule from its weeks on. -/
def weeksText (asked : Bool) (x : Rule) : Text :=
  piece asked x.hasWeeks (WeekRange.textAll x.weeks) ++ colonText (asked || x.hasWeeks) x

/-- A written rule from its dates on. -/
def datesText (asked : Bool) (x : Rule) : Text :=
  piece asked x.hasDates (DateRange.textAll x.dates) ++ weeksText (asked || x.hasDates) x

/-- A written rule from its years on. -/
def yearsText (x : Rule) : Text :=
  piece false x.hasYears (YearRange.textAll x.years) ++ datesText x.hasYears x

variable {x : Rule}

lemma text_of_always (ha : x.always = true) :
    x.text = ['2', '4', '/', '7'] ++ stateText true x := by
  rw [text, spaced, text_wordIf, text_wordIf, asked_wordIf, spacedSelectors, if_pos ha,
    List.append_assoc]
  rfl

lemma text_of_comment (ha : x.always = false) (hc : x.hasComment = true) :
    x.text = x.comment ++ ':' :: stateText true x := by
  rw [text, spaced, text_wordIf, text_wordIf, asked_wordIf, spacedSelectors, if_neg (by simp [ha]),
    if_pos hc, List.append_assoc]
  simp [Spaced.word, SpaceLatch.ask, SpaceLatch.space, stateText]

lemma text_of_selectors (ha : x.always = false) (hc : x.hasComment = false) :
    x.text = yearsText x := by
  rw [text, spaced, spacedSelectors, if_neg (by simp [ha]), if_neg (by simp [hc])]
  simp only [text_wordIf, asked_wordIf, text_glueIf, asked_glueIf, yearsText, datesText, weeksText,
    colonText, daysText, timesText, stateText, List.append_assoc, Bool.false_or, List.nil_append]

end Rule

/-! ### The rest of a rule may follow a part of it -/

namespace Part

variable {s m r : Text} {x : Rule}

/-- The openings of what may follow a rule. -/
abbrev ruleEnds : List Opening :=
  [.nothing, .semicolon, .bar, .comma]

/-- The openings of a rule from its state on. -/
abbrev stateOpenings : List Opening :=
  [.opened, .closed, .unknown, .quote] ++ ruleEnds

/-- The openings of a moment. -/
abbrev momentOpenings : List Opening :=
  Opening.numbers ++ [.event, .leftParenthesis]

/-- The openings of a rule from its times on. -/
abbrev timesOpenings : List Opening :=
  momentOpenings ++ stateOpenings

/-- The openings of a rule from its days on. -/
abbrev daysOpenings : List Opening :=
  [.weekday, .holiday] ++ timesOpenings

/-- The openings of a rule from its colon on. -/
abbrev colonOpenings : List Opening :=
  .colon :: daysOpenings

/-- The openings of a rule from its weeks on. -/
abbrev weeksOpenings : List Opening :=
  .week :: colonOpenings

lemma rest_of_endsRule (hm : EndsRule m) : Rest ruleEnds m := by
  cases hm with
  | nil => exact .of_opening breaks_nil (by decide) (by decide)
  | semicolon s =>
    exact .of_opening (breaks_cons rfl rfl) (by rw [Opening.of_cons rfl rfl rfl]; decide) (by decide)
  | bars s =>
    exact .of_opening (breaks_cons rfl rfl)
      (by rw [Opening.of_space, Opening.of_cons rfl rfl rfl]; decide) (by decide)
  | comma s =>
    exact .of_opening (breaks_cons rfl rfl) (by rw [Opening.of_cons rfl rfl rfl]; decide) (by decide)

lemma rest_space {o : Opening} (ho : Opening.of s = o) (hn : o ∉ .colon :: Opening.numbers) :
    Rest [o] (' ' :: s) := by
  refine .of_opening (breaks_cons rfl rfl) (by simp [Opening.of_space, ho]) fun o' ho' => ?_
  rw [List.mem_singleton]
  rintro rfl
  exact hn ho'

/-- A rule from its state on may follow the times of the rule. -/
lemma rest_stateText (x : Rule) (hm : EndsRule m) : Rest stateOpenings (x.stateText true ++ m) := by
  have hcomment : Rest stateOpenings
      (Rule.piece true x.hasModifierComment ('"' :: x.modifierComment ++ ['"']) ++ m) := by
    cases x.hasModifierComment with
    | false => exact (rest_of_endsRule hm).mono (by decide)
    | true => exact (rest_space (Opening.of_cons rfl rfl rfl) (by decide)).mono (by decide)
  have hword : ∀ mod : Modifier, mod.isPrinted = true → (∀ c ∈ mod.text, isLetter c = true) ∧
      mod.text ≠ [] ∧ Opening.ofWord (mod.text.map fold) ∈ [.opened, .closed, .unknown] := by
    intro mod
    cases mod <;> decide
  unfold Rule.stateText
  cases hp : x.modifier.isPrinted with
  | false => exact hcomment
  | true =>
    obtain ⟨hl, hne, ho⟩ := hword _ hp
    have hopen : ∀ o ∈ [.opened, .closed, .unknown],
        o ∉ .colon :: Opening.numbers ∧ ∀ o' ∈ [o], o' ∈ stateOpenings := by
      decide
    rw [Rule.piece_asked, List.append_assoc]
    exact (rest_space (Terminal.opening_of_letters hl hne hcomment.breaks) (hopen _ ho).1).mono
      (hopen _ ho).2

/-! ### Times -/

/-- The hours of a clock time, with what follows the minutes, may follow a part of a rule. -/
lemma rest_clock {h k : ℕ} (hk : k < 100) (hs : Breaks s) (ho : Opening.of s ≠ .colon) :
    Rest Opening.numbers (' ' :: (fill 2 (digits h) ++ ':' :: (fill 2 (digits k) ++ s))) := by
  have hb : ∀ {u}, Breaks (':' :: u) := breaks_cons rfl rfl
  have hdigits : ∀ {n}, ∀ c ∈ fill 2 (digits n), isDigit c = true := fun c => isDigit_of_mem_fill
  have hscan : Terminal.number.scan (' ' :: (fill 2 (digits h) ++ ':' :: (fill 2 (digits k) ++ s))) =
      some (fill 2 (digits h), ':' :: (fill 2 (digits k) ++ s)) := by
    rw [scan_space]
    exact (Terminal.scan_number_iff hdigits fill_ne_nil hb).mpr ⟨rfl, rfl⟩
  refine ⟨breaks_cons rfl rfl, ?_, .of_avoids (.of_scan hscan (by decide)), ?_, ?_⟩
  · have hopen : ∀ o, Terminal.number.opens o = true → o ∈ Opening.numbers := by decide
    exact hopen _ (Terminal.opens_of_scan hscan)
  · intro t ht w q hq hspares
    obtain rfl := Terminal.rest_eq_of_numerals ht (by decide) hq hscan
    refine ho (hspares _ _ (fill 2 (digits k)) _
      ((scan_cons_iff (t := .colon) rfl rfl).mpr ⟨rfl, rfl⟩) ?_)
    have hlen : (fill 2 (digits k)).length = 2 := length_fill_two.mpr hk
    exact (Terminal.scan_digits_iff (t := .minutes) rfl hdigits fill_ne_nil hs).mpr
      ⟨⟨hlen.ge, hlen.le⟩, rfl, rfl⟩
  · intro q hq
    rw [derives_space_iff rfl, derives_digits_iff (t := .year) rfl (by decide) hdigits fill_ne_nil hb,
      number_fill, length_fill] at hq
    obtain ⟨hlen, hh, -⟩ := hq
    obtain rfl : h = 0 := by exact_mod_cast hh.symm
    have := length_digits_le_iff (n := 0) (k := 1) (by decide)
    omega

/-- After the beginning of a span there is a mark or the end of the span. -/
lemma exists_text_of_timespan (t : Timespan) :
    ∃ v, t.text = t.start.text ++ v ∧
      ∀ m, Breaks m → Opening.of m ≠ .colon → Breaks (v ++ m) ∧ Opening.of (v ++ m) ≠ .colon := by
  have hmark : ∀ c ∈ ['-', '+'], isBlank c = false ∧ isDigit c = false ∧ isLetter c = false ∧
      Opening.ofMark c ≠ .colon := by
    decide
  have hcons : ∀ c ∈ ['-', '+'], ∀ s, Breaks (c :: s) ∧ Opening.of (c :: s) ≠ .colon := by
    intro c hc s
    obtain ⟨hb, hd, hl, ho⟩ := hmark c hc
    exact ⟨breaks_cons hd hl, by rwa [Opening.of_cons hb hd hl]⟩
  refine ⟨_, by rw [Timespan.text, List.append_assoc], fun m hm ho => ?_⟩
  cases t.isOpen with
  | false => exact hcons '-' (by simp) _
  | true =>
    cases t.plus with
    | false => exact ⟨hm, ho⟩
    | true => exact hcons '+' (by simp) _

/-- Times may follow a part of a rule. -/
lemma rest_times {ts : List Timespan} (hne : ts ≠ []) (hts : ∀ t ∈ ts, t.start.WholeMinutes)
    (hm : Rest stateOpenings m) : Rest momentOpenings (' ' :: (Timespan.textAll ts ++ m)) := by
  cases ts with
  | nil => exact absurd rfl hne
  | cons t ts =>
    obtain ⟨v, hv, hafter⟩ := exists_text_of_timespan t
    have htail : Breaks (tailText commaSpace Timespan.text ts ++ m) ∧
        Opening.of (tailText commaSpace Timespan.text ts ++ m) ≠ .colon := by
      cases ts with
      | nil =>
        have ha : Avoids [.colon] m := hm.avoids (by decide)
        exact ⟨hm.breaks, fun h => ha (List.mem_singleton.mpr h)⟩
      | cons u us => exact ⟨breaks_cons rfl rfl, by
          rw [show tailText commaSpace Timespan.text (u :: us) ++ m = ',' :: _ from rfl,
            Opening.of_cons rfl rfl rfl]
          decide⟩
    obtain ⟨hb, ho⟩ := hafter _ htail.1 htail.2
    rw [Timespan.textAll, Text.listed, joinWith_cons, List.append_assoc, hv, List.append_assoc]
    generalize v ++ (tailText commaSpace Timespan.text ts ++ m) = e at hb ho
    have hstart : ∀ u : Time, u.WholeMinutes → Rest momentOpenings (' ' :: (u.text ++ e)) := by
      intro u hu
      cases hu with
      | @clock d n hd =>
        have hk : (n : ℤ).natAbs % 60 < 100 := by omega
        rw [text_ofDuration hd, Time.clockText_eq, List.append_assoc, List.cons_append]
        exact (rest_clock hk hb ho).mono (by decide)
      | event ev =>
        exact (rest_space (opening_event ev hb) (by decide)).mono (by decide)
      | offset ev hd => exact (rest_space (Opening.of_cons rfl rfl rfl) (by decide)).mono (by decide)
    exact hstart _ (hts t (by simp))

/-! ### Days, a colon and weeks -/

/-- Weekdays open with a weekday. -/
lemma opening_weekdays {ds : List WeekdayRange} (hne : ds ≠ [])
    (hds : ∀ d ∈ ds, d.start.isSome = true) (hm : Breaks m) :
    Opening.of (WeekdayRange.textAll ds ++ m) = .weekday := by
  cases ds with
  | nil => exact absurd rfl hne
  | cons d ds =>
    have htail : Breaks (tailText commaSpace WeekdayRange.text ds ++ m) :=
      follow_tailText (Or.inr rfl) (fun _ => breaks_cons rfl rfl) hm ds
    obtain ⟨e, he⟩ := Option.isSome_iff_exists.mp (hds d (by simp))
    rw [WeekdayRange.textAll, Text.listed, joinWith_cons, List.append_assoc, WeekdayRange.text, he,
      Weekday.text, List.append_assoc]
    refine opening_weekday e ?_
    cases d.stop with
    | some f => exact breaks_cons rfl rfl
    | none =>
      cases d.hasNth with
      | true => exact breaks_cons rfl rfl
      | false => exact breaks_dayOffset_text _ htail

/-- Weekdays and holidays open with one of these. -/
lemma opening_days {x : DaySelector} (hne : x.isEmpty = false)
    (hds : ∀ d ∈ x.ranges, d.start.isSome = true) (hm : Breaks m) :
    Opening.of (x.text ++ m) = if x.holidays = [] then .weekday else .holiday := by
  obtain ⟨ds, hs⟩ := x
  cases hs with
  | nil =>
    have hne' : ds ≠ [] := by simpa [DaySelector.isEmpty] using hne
    have htext : DaySelector.text { ranges := ds, holidays := [] } = WeekdayRange.textAll ds := by
      simp [DaySelector.text, DaySelector.hasHolidays, Holiday.textAll, joinWith]
    rw [htext, opening_weekdays hne' hds hm, if_pos rfl]
  | cons h hs =>
    rw [if_neg (List.cons_ne_nil h hs), DaySelector.text, List.append_assoc, List.append_assoc]
    refine opening_holidays (List.cons_ne_nil h hs) ?_
    cases ds with
    | nil => exact hm
    | cons d ds => exact breaks_cons (c := ',') rfl rfl

end Part

/-- What is known of a rule that has been read: enough to tell how its parts open. -/
structure Rule.Written (x : Rule) : Prop where
  dates : ∀ d ∈ x.dates, d.start.Written
  days : ∀ d ∈ x.days.ranges, d.start.isSome = true
  times : ∀ t ∈ x.times, t.start.WholeMinutes

namespace Part

variable {s m r : Text} {x : Rule}

lemma ne_nil_of_not_isEmpty {α : Type} {xs : List α} (h : (!xs.isEmpty) = true) : xs ≠ [] := by
  rintro rfl
  cases h

/-- A rule from its times on may follow the days of the rule. -/
lemma rest_timesText (hx : x.Written) (hm : EndsRule m) :
    Rest timesOpenings (x.timesText true ++ m) := by
  have hstate := rest_stateText x hm
  unfold Rule.timesText
  cases ht : x.hasTimes with
  | false => exact hstate.mono (by decide)
  | true =>
    rw [Rule.piece_asked, List.append_assoc]
    exact (rest_times (ne_nil_of_not_isEmpty ht) hx.times hstate).mono (by decide)

/-- A rule from its days on may follow the colon of the rule. -/
lemma rest_daysText (hx : x.Written) (hm : EndsRule m) :
    Rest daysOpenings (x.daysText true ++ m) := by
  have htimes := rest_timesText hx hm
  unfold Rule.daysText
  cases hd : x.hasDays with
  | false => exact htimes.mono (by decide)
  | true =>
    have hne : x.days.isEmpty = false := by simpa [Rule.hasDays] using hd
    have ho := opening_days hne hx.days htimes.breaks
    rw [Rule.piece_asked, List.append_assoc]
    split at ho
    · exact (rest_space ho (by decide)).mono (by decide)
    · exact (rest_space ho (by decide)).mono (by decide)

/-- A colon before the days of a rule is not in the middle of a clock time. -/
lemma rest_colonText (hx : x.Written) (hm : EndsRule m) :
    Rest colonOpenings (x.colonText true ++ m) := by
  have hdays := rest_daysText hx hm
  unfold Rule.colonText
  cases x.colon with
  | false => exact hdays.mono (by decide)
  | true =>
    have ho : Opening.of (':' :: (x.daysText true ++ m)) = .colon := Opening.of_cons rfl rfl rfl
    have hn : Avoids Opening.numbers (':' :: (x.daysText true ++ m)) :=
      .of_mem (K := [.colon]) (by rw [ho]; decide) (by decide)
    have hnum : ∀ t ∈ Terminal.numerals, ∀ o ∈ t.openings, o ∈ Opening.numbers := by decide
    refine ⟨breaks_cons rfl rfl, by rw [List.append_assoc]; exact ho ▸ (by decide), ?_,
      fun t ht w q h => (hn.not_scan (hnum t ht) h).elim, fun q h => ?_⟩
    · intro w q w' q' hc hq
      obtain ⟨-, rfl⟩ := (scan_cons_iff (t := .colon) rfl rfl).mp hc
      by_contra hq'
      exact hdays.clock _ (by decide) _ _ hq (.of_avoids fun h => hq' (List.mem_singleton.mp h))
    · exact hn.not_begins (g := number .year) (P := fun _ => True) rfl (by decide) ⟨_, q, h, trivial⟩

/-- A rule from its weeks on may follow the dates of the rule. -/
lemma rest_weeksText (hx : x.Written) (hm : EndsRule m) :
    Rest weeksOpenings (x.weeksText true ++ m) := by
  have hcolon := rest_colonText hx hm
  unfold Rule.weeksText
  cases hw : x.hasWeeks with
  | false => exact hcolon.mono (by decide)
  | true =>
    have ho : ∀ s, Opening.of (['w', 'e', 'e', 'k'] ++ ' ' :: s) = .week := fun s =>
      (Terminal.opening_of_letters (by decide) (by decide) (breaks_cons rfl rfl)).trans (by decide)
    rw [Rule.piece_asked, WeekRange.textAll, List.append_assoc]
    exact (rest_space (ho _) (by decide)).mono (by decide)

/-! ### Years before dates, and dates before weekdays -/

/-- The text of dates opens with a year if there is one, and with a month or a movable day else. -/
lemma opening_dates {d : DateRange} {l : List DateRange} (hd : d.start.Written) (hm : Breaks m) :
    ∃ s, DateRange.textAll (d :: l) ++ m = Date.yearText d.start.year ++ s ∧
      Opening.of s ∈ [.month, .easter] := by
  obtain ⟨u, hu, ho⟩ := exists_text_of_written hd
  have htail : Breaks (tailText commaSpace DateRange.text l ++ m) :=
    follow_tailText (Or.inr rfl) (fun _ => breaks_cons rfl rfl) hm l
  have hrest : Breaks ((if d.hasStop then '-' :: d.stop.text ++ Period.text d.period
      else if d.plus then ['+'] else []) ++ (tailText commaSpace DateRange.text l ++ m)) := by
    cases d.hasStop with
    | true => exact breaks_cons rfl rfl
    | false =>
      cases d.plus with
      | true => exact breaks_cons rfl rfl
      | false => exact htail
  refine ⟨_, ?_, ho _ hrest⟩
  have hstart : d.hasStart = true := by simp [DateRange.hasStart, hd.isEmpty]
  rw [DateRange.textAll, Text.listed, joinWith_cons, List.append_assoc, DateRange.text, if_pos hstart,
    hu]
  simp only [List.append_assoc]

lemma opening_yearText {y : ℤ} (hy : 0 ≤ y) (hs : Opening.of s ∈ [.month, .easter]) :
    (y = 0 → Opening.of (Date.yearText y ++ s) ∈ [.month, .easter]) ∧
      (y ≠ 0 → Opening.of (Date.yearText y ++ s) ∈ Opening.numbers) := by
  constructor
  · rintro rfl
    exact hs
  · intro hy0
    obtain ⟨n, rfl⟩ := Int.eq_ofNat_of_zero_le hy
    have hscan : Terminal.number.scan (digits n ++ ' ' :: s) = some (digits n, ' ' :: s) :=
      (Terminal.scan_number_iff (fun c => isDigit_of_mem_digits) digits_ne_nil
        (breaks_cons rfl rfl)).mpr ⟨rfl, rfl⟩
    have hopen : ∀ o, Terminal.number.opens o = true → o ∈ Opening.numbers := by decide
    rw [Date.yearText, if_pos (bne_iff_ne.mpr hy0), numeral_natCast, List.append_assoc]
    exact hopen _ (Terminal.opens_of_scan hscan)

/-- A rule from its dates on may follow the years of the rule. -/
lemma endsYears_datesText (hx : x.Written) (hm : EndsRule m) : EndsYears (x.datesText true ++ m) := by
  have hweeks := rest_weeksText hx hm
  unfold Rule.datesText
  cases hd : x.hasDates with
  | false => exact hweeks.endsYears (by decide)
  | true =>
    obtain ⟨d, ds, hds⟩ := List.exists_cons_of_ne_nil (ne_nil_of_not_isEmpty hd)
    have hd' : d.start.Written := hx.dates d (by simp [hds])
    obtain ⟨s, hs, ho⟩ := opening_dates (l := ds) hd' hweeks.breaks
    have hopen := opening_yearText hd'.year_nonneg ho
    rw [Rule.piece_asked, List.append_assoc, hds, List.cons_append, Bool.true_or, hs]
    refine ⟨breaks_cons rfl rfl, .space ?_, fun q hq => ?_⟩
    · by_cases hy : d.start.year = 0
      · exact .of_mem (hopen.1 hy) (by decide)
      · exact .of_mem (hopen.2 hy) (by decide)
    · rw [derives_space_iff rfl] at hq
      by_cases hy : d.start.year = 0
      · exact (Avoids.of_mem (L := Opening.numbers) (hopen.1 hy) (by decide)).not_begins
          (g := number .year) (P := fun _ => True) rfl (by decide) ⟨_, q, hq, trivial⟩
      · rw [Date.yearText, if_pos (bne_iff_ne.mpr hy), List.append_assoc, List.singleton_append,
          derives_year_iff hd'.year_nonneg (breaks_cons rfl rfl)] at hq
        exact hy hq.2.1.symm

/-- A single year stands alone if a date after it has a year of its own. -/
lemma endsLone_datesText_iff (hx : x.Written) (hm : EndsRule m) :
    EndsLone (x.datesText true ++ m) ↔ ∀ d ∈ x.dates.head?, d.start.year ≠ 0 := by
  have hweeks := rest_weeksText hx hm
  unfold Rule.datesText
  cases hds : x.dates with
  | nil =>
    have hd : x.hasDates = false := by simp [Rule.hasDates, hds]
    have hmark : Avoids [.mark] (x.weeksText true ++ m) := hweeks.avoids (by decide)
    rw [hd]
    refine iff_of_true ((endsLone_iff fun h => hmark (List.mem_singleton.mpr h)).mpr ?_) (by simp)
    exact hweeks.avoids (by decide)
  | cons d ds =>
    have hd : x.hasDates = true := by simp [Rule.hasDates, hds]
    have hd' : d.start.Written := hx.dates d (by simp [hds])
    obtain ⟨s, hs, ho⟩ := opening_dates (l := ds) hd' hweeks.breaks
    have hopen := opening_yearText hd'.year_nonneg ho
    have hdates : ∀ e ∈ (d :: ds).head?, e = d := by simp
    rw [hd, Rule.piece_asked, List.append_assoc, List.cons_append, Bool.true_or, hs]
    by_cases hy : d.start.year = 0
    · refine iff_of_false (fun h => avoids_of_monthWords h ?_) (fun h => h d rfl hy)
      rw [Opening.of_space]
      exact hopen.1 hy
    · have ha : Avoids [.month, .easter, .mark] (' ' :: (Date.yearText d.start.year ++ s)) :=
        .space (.of_mem (hopen.2 hy) (by decide))
      refine iff_of_true ((endsLone_iff fun h => ha (by simp [h])).mpr (ha.mono (by decide))) ?_
      rintro e he
      rwa [hdates e he]

/-- A range of dates stays open if something other than weekdays follows it. -/
lemma endsOpen_weeksText_iff (hx : x.Written) (hm : EndsRule m) :
    EndsOpen (x.weeksText true ++ m) ↔
      (x.weeks = [] → x.colon = false → x.days.ranges ≠ [] → x.days.holidays ≠ []) := by
  have hmark : Avoids [.mark] (x.weeksText true ++ m) :=
    (rest_weeksText hx hm).avoids (by decide)
  have htimes := rest_timesText hx hm
  rw [endsOpen_iff fun h => hmark (List.mem_singleton.mpr h)]
  unfold Rule.weeksText
  -- the first of weeks, colon and days that is there decides
  cases hw : x.hasWeeks with
  | true =>
    have hne := ne_nil_of_not_isEmpty hw
    have ho : ∀ s, Opening.of (['w', 'e', 'e', 'k'] ++ ' ' :: s) = .week := fun s =>
      (Terminal.opening_of_letters (by decide) (by decide) (breaks_cons rfl rfl)).trans (by decide)
    refine iff_of_true ?_ fun h => absurd h hne
    rw [Rule.piece_asked, WeekRange.textAll, List.append_assoc]
    exact .space (.of_mem (K := [.week]) (List.mem_singleton.mpr (ho _)) (by decide))
  | false =>
    have hnil : x.weeks = [] := by simpa [Rule.hasWeeks] using hw
    rw [Rule.piece_false, Bool.or_false, List.nil_append]
    unfold Rule.colonText
    cases hc : x.colon with
    | true => exact iff_of_true (.cons rfl rfl rfl (by decide)) fun _ h => by cases h
    | false =>
      unfold Rule.daysText
      cases hd : x.hasDays with
      | false =>
        have hdays : x.days.ranges = [] := by
          have : x.days.isEmpty = true := by simpa [Rule.hasDays] using hd
          simp only [DaySelector.isEmpty, Bool.and_eq_true, List.isEmpty_iff] at this
          exact this.1
        refine iff_of_true ?_ fun _ _ h => absurd hdays h
        exact htimes.avoids (by decide)
      | true =>
        have hne : x.days.isEmpty = false := by simpa [Rule.hasDays] using hd
        have ho := opening_days hne hx.days htimes.breaks
        rw [Rule.piece_asked, Bool.true_or]
        simp only [Bool.false_eq_true, if_false, List.nil_append, List.cons_append, List.append_assoc,
          Avoids, Opening.of_space, ho, List.mem_singleton]
        cases hh : x.days.holidays with
        | nil =>
          have hr : x.days.ranges ≠ [] := by
            intro h
            simp [DaySelector.isEmpty, h, hh] at hne
          simp [hnil, hr]
        | cons h hs => simp

end Part

end OpeningTimes
