import OpeningTimes.Proofs.Rules.Canonical
import OpeningTimes.Proofs.Rules.Words
import OpeningTimes.Proofs.Text.Quotation

/-!
The comments of a field.

A comment is read in one of two places of a rule and written in the same place again. Nothing else that
is read or written has quotes in it, so the quotations of a text are the comments of its rules.

* `Rule.comments`: the comments of a rule in the order in which they are written;
* `Rule.quotes_text`, `Rule.quotes_textAll`: the quotations of a written rule, and of written rules;
* `Part.quotesUpTo_of_readsRule`, `Part.quotesUpTo_of_rules`: the quotations of what is read;
* `Field.quotations_canonical`: a field and its canonical text have the same quotations.
-/

namespace OpeningTimes

open Grammar Text

/-- The comments of a rule, of which the one in place of the selectors comes first. -/
def Rule.comments (x : Rule) : List Text :=
  stated (Part.unquoted x.comment) ++ stated x.modifierComment

/-! ### Texts without quotes -/

lemma Text.quote_not_mem_joinWith {α : Type} {f : α → Text} {sep : Text} {xs : List α}
    (hsep : '"' ∉ sep) (hf : ∀ x ∈ xs, '"' ∉ f x) : '"' ∉ joinWith sep f xs := by
  cases xs with
  | nil => simp [joinWith]
  | cons x xs =>
    rw [List.forall_mem_cons] at hf
    simpa [Part.joinWith_cons, Part.tailText, hsep, hf.1] using hf.2

lemma quote_not_mem_piece {asked b : Bool} {w : Text} (hw : '"' ∉ w) :
    '"' ∉ Rule.piece asked b w := by
  cases asked <;> cases b <;> simp [Rule.piece, hw]

lemma quote_not_mem_dayOffset (n : ℤ) (b : Bool) : '"' ∉ DayOffset.text n b := by
  rw [DayOffset.text]
  split_ifs <;> simp [(marked_numeral n).quote_not_mem]

lemma quote_not_mem_weekdays (ds : List WeekdayRange) : '"' ∉ WeekdayRange.textAll ds := by
  have hweekday : ∀ d, '"' ∉ Weekday.text d := fun d => (Weekday.marked_text d).quote_not_mem
  have hnths : ∀ ns, '"' ∉ joinWith [','] NthRange.text ns := fun ns =>
    (marked_joinWith (by decide) NthRange.marked_text ns).quote_not_mem
  refine quote_not_mem_joinWith (by decide) fun d _ => ?_
  rw [WeekdayRange.text]
  split_ifs <;> simp [hweekday, quote_not_mem_dayOffset, hnths]

lemma quote_not_mem_days (d : DaySelector) : '"' ∉ d.text := by
  have hholidays : '"' ∉ Holiday.textAll d.holidays := quote_not_mem_joinWith (by decide) fun h _ => by
    rw [Holiday.text]
    split_ifs <;> simp [quote_not_mem_dayOffset]
  rw [DaySelector.text]
  split_ifs <;> simp [hholidays, quote_not_mem_weekdays, commaSpace]

lemma quote_not_mem_times (ts : List Timespan) : '"' ∉ Timespan.textAll ts :=
  quote_not_mem_joinWith (by decide) fun t _ => t.marked_text.quote_not_mem

lemma quote_not_mem_years (ys : List YearRange) : '"' ∉ YearRange.textAll ys :=
  quote_not_mem_joinWith (by decide) fun y _ => y.marked_text.quote_not_mem

lemma quote_not_mem_weeks (ws : List WeekRange) : '"' ∉ WeekRange.textAll ws := by
  have hranges : '"' ∉ Text.listed WeekRange.text ws :=
    quote_not_mem_joinWith (by decide) fun w _ => w.marked_text.quote_not_mem
  simp [WeekRange.textAll, hranges]

lemma quote_not_mem_date (d : Date) : '"' ∉ d.text := by
  have hmonth : '"' ∉ Month.text d.month := (Month.marked_text _).quote_not_mem
  have hmovable : '"' ∉ MovableDate.text d.movable := (MovableDate.marked_text _).quote_not_mem
  have hoffset : '"' ∉ d.offset.text := by
    rw [DateOffset.text]
    split_ifs <;> simp [(Weekday.marked_text _).quote_not_mem, quote_not_mem_dayOffset]
  have hword : ∀ {s : Spaced} {b : Bool} {w : Text}, '"' ∉ s.text → '"' ∉ w →
      '"' ∉ (s.wordIf b w).text := by
    intro s b w hs hw
    rw [Rule.text_wordIf, List.mem_append, not_or]
    exact ⟨hs, quote_not_mem_piece hw⟩
  have hyear : '"' ∉ (Spaced.wordIf {} d.hasYear (Text.numeral d.year)).text :=
    hword (by simp) (marked_numeral _).quote_not_mem
  rw [Date.text, Date.spaced]
  refine hword ?_ hoffset
  split
  · exact hword (b := true) hyear hmovable
  · exact hword (hword hyear hmonth) (marked_padded _ 2).quote_not_mem

lemma quote_not_mem_dates (ds : List DateRange) : '"' ∉ DateRange.textAll ds := by
  refine quote_not_mem_joinWith (by decide) fun d _ => ?_
  rw [DateRange.text]
  split_ifs <;> simp [quote_not_mem_date, (Period.marked_text _).quote_not_mem]

/-! ### The comments of a written rule -/

namespace Rule

variable {x : Rule} {R : List Rule}

/-- A written rule says after its state what its last comment says. -/
lemma quotes_stateText (b : Bool) (h : '"' ∉ x.modifierComment) :
    Quotes (x.stateText b) (stated x.modifierComment) := by
  have hword : '"' ∉ x.modifier.text := by
    cases x.modifier <;> decide
  refine Quotes.plain_append (quote_not_mem_piece hword) ?_
  cases hb : x.hasModifierComment with
  | false =>
    have hnil : x.modifierComment = [] := by simpa [hasModifierComment] using hb
    rw [piece_false, hnil]
    exact .plain (by simp)
  | true => exact (Quotes.quoted h).plain_append (by split <;> simp)

/-- Before its state a rule with selectors has no quotes. -/
lemma quotes_yearsText (h : '"' ∉ x.modifierComment) :
    Quotes x.yearsText (stated x.modifierComment) := by
  have htimes : ∀ b, Quotes (x.timesText b) (stated x.modifierComment) := fun b =>
    (quotes_stateText _ h).plain_append (quote_not_mem_piece (quote_not_mem_times _))
  have hdays : ∀ b, Quotes (x.daysText b) (stated x.modifierComment) := fun b =>
    (htimes _).plain_append (quote_not_mem_piece (quote_not_mem_days _))
  have hcolon : ∀ b, Quotes (x.colonText b) (stated x.modifierComment) := fun b =>
    (hdays b).plain_append (by split <;> simp)
  have hweeks : ∀ b, Quotes (x.weeksText b) (stated x.modifierComment) := fun b =>
    (hcolon _).plain_append (quote_not_mem_piece (quote_not_mem_weeks _))
  have hdates : ∀ b, Quotes (x.datesText b) (stated x.modifierComment) := fun b =>
    (hweeks _).plain_append (quote_not_mem_piece (quote_not_mem_dates _))
  exact (hdates _).plain_append (quote_not_mem_piece (quote_not_mem_years _))

/-- The quotations of a written rule are its comments. -/
theorem quotes_text (h : x.Regular) : Quotes x.text x.comments := by
  by_cases hc : x.comment = []
  · have hcomments : x.comments = stated x.modifierComment := by
      rw [comments, hc]
      rfl
    rw [hcomments]
    by_cases ha : x.always = true
    · rw [text_of_always ha]
      exact (quotes_stateText true h.quotes).plain_append (by decide)
    · rw [text_of_selectors (Bool.eq_false_iff.mpr ha) (by simp [hasComment, hc])]
      exact quotes_yearsText h.quotes
  · obtain ⟨⟨c, hq, hx⟩, -⟩ := h.comment hc
    have ha : x.always = false := Bool.eq_false_iff.mpr fun ha => hc (h.always ha).2.1
    rw [text_of_comment ha (by simp [hasComment, hc]), comments, hx, Part.unquoted_quoted]
    refine (Quotes.quoted hq).append ?_
    exact (quotes_stateText true h.quotes).plain_append (a := [':']) (by decide)

/-- The quotations of written rules are their comments one after the other. -/
theorem quotes_textAll (h : Chained Regular R) : Quotes (textAll R) (R.flatMap comments) := by
  have hsep : ∀ x ∈ R, '"' ∉ x.separatorText := by
    have hall : ∀ w ∈ separators, '"' ∉ separatorText { separator := w } := by decide
    exact fun x hx => hall _ (h.separator_mem x hx)
  have hregular := h.forall_mem
  clear h
  induction R with
  | nil => exact .plain (by simp [textAll, Text.joinBy])
  | cons x R ih =>
    rw [List.forall_mem_cons] at hsep hregular
    rw [List.flatMap_cons]
    have htext := quotes_text hregular.1
    cases R with
    | nil =>
      have hone : textAll [x] = x.text := by simp [textAll, Text.joinBy]
      rw [hone, List.flatMap_nil, List.append_nil]
      exact htext
    | cons y R =>
      rw [textAll_cons_cons]
      exact htext.append ((ih hsep.2 hregular.2).plain_append hsep.1)

end Rule

/-! ### The comments of a rule that is read -/

namespace Part

variable {α : Type} {g : Part α} {s p q r : Text} {v : Except BuildError α} {x : Rule} {R : List Rule}
  {cs ds : List Text}

/-- What is read up to some place has some quotations. -/
def QuotesUpTo (s : Text) (cs : List Text) (r : Text) : Prop :=
  ∃ u, s = u ++ r ∧ Quotes u cs

lemma QuotesUpTo.trans (h : QuotesUpTo s cs q) (h' : QuotesUpTo q ds r) :
    QuotesUpTo s (cs ++ ds) r := by
  obtain ⟨u, rfl, hu⟩ := h
  obtain ⟨v, rfl, hv⟩ := h'
  exact ⟨u ++ v, by simp, hu.append hv⟩

/-- Where no comment is read, no quotes are. -/
lemma quotesUpTo_of_derives (h : fieldGrammar.Derives g s v r)
    (hg : g.only (· != .comment) = true) : QuotesUpTo s [] r := by
  have hscan : ∀ (t : Terminal) (s w r : Text), (t != .comment) = true → t.scan s = some (w, r) →
      ∃ u, s = u ++ r ∧ '"' ∉ u := by
    intro t s w r ht h
    obtain ⟨b, hb, rfl, -⟩ := Terminal.exists_blanks_of_scan h
    refine ⟨b ++ w, rfl, ?_⟩
    rw [List.mem_append, not_or]
    exact ⟨not_mem_of_forall hb rfl, Terminal.quote_not_mem_of_lexeme (bne_iff_ne.mp ht) h⟩
  obtain ⟨u, hu, hquote⟩ :=
    h.exists_taken (C := fun u => '"' ∉ u) (by simp) (fun u v hu hv => by simp [hu, hv]) hscan hg
  exact ⟨u, hu, .plain hquote⟩

/-- A comment is read with its quotes, and says what is between them. -/
lemma quotesUpTo_of_comment {w : Text} (h : Terminal.comment.scan s = some (w, r)) :
    QuotesUpTo s (stated (unquoted w)) r := by
  obtain ⟨b, hb, hs, -⟩ := Terminal.exists_blanks_of_scan h
  obtain ⟨c, rfl, hc⟩ := exists_of_scan_comment h
  rw [unquoted_quoted]
  exact ⟨_, hs, (Quotes.quoted hc).plain_append (not_mem_of_forall hb rfl)⟩

/-- A state says what its comment says. -/
lemma quotesUpTo_of_modifier {y : Option (Modifier × Text)}
    (h : fieldGrammar.Derives (.opt modifier) s (.ok y) r) :
    QuotesUpTo s (stated (y.getD (.defaultOpen, [])).2) r := by
  cases y with
  | none =>
    obtain rfl := derives_opt_none.mp h
    exact ⟨[], rfl, .plain (by simp)⟩
  | some y =>
    rcases derives_modifier_ok.mp (derives_opt_some.mp h) with
      ⟨t, state, w, p, o, ht, hw, ho, rfl⟩ | ⟨w, hw, rfl⟩
    · have hne : ∀ y ∈ stateWords, (y.1 != .comment) = true := by decide
      have hword : QuotesUpTo s [] p := quotesUpTo_of_derives (derives_scan_iff.mpr hw) (hne _ ht)
      cases o with
      | none =>
        obtain rfl := derives_opt_none.mp ho
        exact hword
      | some c => exact hword.trans (quotesUpTo_of_comment (derives_scan_iff.mp (derives_opt_some.mp ho)))
    · exact quotesUpTo_of_comment hw

/-- The quotations of a rule that is read are its comments. -/
theorem quotesUpTo_of_readsRule (h : ReadsRule s (.ok x) q) : QuotesUpTo s x.comments q := by
  obtain ⟨f, ts, y, p, e, hmakes, hf, hts, hmod, -⟩ := exists_of_readsRule h
  have htimes : QuotesUpTo p [] e := quotesUpTo_of_derives hts rfl
  have hstate := quotesUpTo_of_modifier hmod
  have hcomments : x.comments = stated (unquoted x.comment) ++ stated (y.getD (.defaultOpen, [])).2 := by
    rw [modifier_of_makes hmakes, Rule.comments]
  rw [hcomments]
  refine QuotesUpTo.trans ?_ (htimes.trans hstate)
  cases hmakes with
  | always ts y =>
    rw [withModifier?_eq rfl rfl]
    rcases derives_alt.mp hf with h | h
    · exact quotesUpTo_of_derives h rfl
    rcases derives_alt.mp h with h | h
    · obtain ⟨_, -, he⟩ := derives_map_ok.mp h
      cases he
    · obtain ⟨_, -, he⟩ := derives_map_ok.mp h
      cases he
  | comment c y =>
    rw [withModifier?_eq rfl rfl]
    obtain ⟨u, k, hc, hcolon⟩ := exists_of_front_comment hf
    have h := (quotesUpTo_of_comment hc).trans (quotesUpTo_of_derives (derives_scan_iff.mpr hcolon) rfl)
    rwa [List.append_nil] at h
  | selectors ys ds ws c days ts y =>
    rw [withModifier?_eq rfl rfl]
    exact quotesUpTo_of_derives (looseSelectors_of_front hf) rfl

/-- The quotations of rules that are read are their comments one after the other. -/
theorem quotesUpTo_of_rules (h : fieldGrammar.Derives rules s (.ok R) r) (hr : AfterOpen r) :
    QuotesUpTo s (R.flatMap Rule.comments) r := by
  induction R generalizing s with
  | nil =>
    obtain ⟨x, q, -, -, ⟨hR, -⟩ | ⟨t, w, p, S, -, -, -, -, hR⟩⟩ := exists_of_rules_ok h hr
    all_goals cases hR
  | cons x R ih =>
    obtain ⟨x', q, -, hread, ⟨hR, rfl⟩ | ⟨t, w, p, S, ht, -, hw, hS, hR⟩⟩ := exists_of_rules_ok h hr
    · obtain ⟨rfl, rfl⟩ := List.cons.inj hR
      rw [List.flatMap_cons, List.flatMap_nil, List.append_nil]
      exact quotesUpTo_of_readsRule hread
    · obtain ⟨rfl, rfl⟩ := List.cons.inj hR
      have hne : ∀ t ∈ [Terminal.ruleSeparator, .comma], (t != .comment) = true := by decide
      have hmark : QuotesUpTo q [] p := quotesUpTo_of_derives (derives_scan_iff.mpr hw) (hne t ht)
      exact (quotesUpTo_of_readsRule hread).trans (hmark.trans (ih hS))

end Part

/-! ### The comments of a field -/

namespace Field

variable {f : Text} {R : List Rule}

/-- The quotations of a field are the comments of its rules. -/
theorem quotes_of_read (hR : read f = .ok R) : Quotes f (R.flatMap Rule.comments) := by
  obtain ⟨r, hd, hr⟩ := read_eq_ok_iff.mp hR
  obtain ⟨u, hu, hquotes⟩ := Part.quotesUpTo_of_rules (derives_call.mp hd) (by
    rw [Part.AfterOpen, Part.opening_of_all_isBlank hr]
    decide)
  obtain ⟨a, b, hf, hmargin⟩ := exists_margins f
  have ha : '"' ∉ a := not_mem_of_forall (fun c hc => hmargin c (Or.inl hc)) rfl
  have hb : '"' ∉ r ++ b := by
    rw [List.mem_append, not_or]
    exact ⟨not_mem_of_forall (List.all_eq_true.mp hr) rfl,
      not_mem_of_forall (fun c hc => hmargin c (Or.inr hc)) rfl⟩
  rw [hf, hu, List.append_assoc, List.append_assoc]
  have := (hquotes.append (.plain hb)).plain_append ha
  rwa [List.append_nil] at this

/-- A field and its canonical text have the same quotations, and in both of them the quotes come in
pairs. -/
theorem quotations_canonical (hR : read f = .ok R) :
    ∃ t, canonical f = .ok t ∧ Even (f.count '"') ∧ Even (t.count '"') ∧
      quotations t = quotations f := by
  have hf := quotes_of_read hR
  have ht := Rule.quotes_textAll (chained_of_read hR)
  exact ⟨_, canonical_eq_ok_iff.mpr ⟨check_of_even hf.even_count, R, hR, rfl⟩, hf.even_count,
    ht.even_count, ht.quotations_eq.trans hf.quotations_eq.symm⟩

/-- Separators between quotes are no separators, and an empty comment is left out. -/
theorem quotations_canonical_opened :
    let f := "\"Mo ;\": OPEN \" a || b\" ; Tu \"\"".toList
    (∃ R, read f = .ok R) ∧ ∃ t, canonical f = .ok t ∧ Even (f.count '"') ∧ Even (t.count '"') ∧
      quotations t = quotations f := by
  intro f
  let x : Rule := { comment := "\"Mo ;\"".toList, modifier := .opened, modifierComment := " a || b".toList }
  let y : Rule := { days := { ranges := [{ start := some .tuesday }] }, modifier := .comment }
  have hR : read f = .ok [x, y] := by decide +kernel
  exact ⟨⟨_, hR⟩, quotations_canonical hR⟩

end Field

end OpeningTimes
