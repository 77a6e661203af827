import OpeningTimes.Proofs.Field.Opening

/-!
Weekdays and holidays can be read in one way only.

* `Terminal.scan_mark_iff`: what a terminal of a single mark takes away;
* `Part.decisive_listed`, `Part.decisive_items`: lists of a decisive part;
* `Part.decisive_daySelector`: weekdays and holidays, if what follows could not belong to them.
-/

namespace OpeningTimes

open Grammar

namespace Terminal

/-- A terminal of a single mark takes away just that mark, and the blanks before it. -/
lemma scan_mark_iff {t : Terminal} {c : Char} (ht : t.lexeme = literal [c]) {s w r : Text} :
    t.scan s = some (w, r) ↔ w = [c] ∧ Text.skipBlanks s = c :: r := by
  rw [scan, ht]
  constructor
  · intro h
    obtain ⟨hs, rfl⟩ := eq_append_of_literal h
    exact ⟨rfl, hs⟩
  · rintro ⟨rfl, hs⟩
    simp [literal, hs]

/-- A sign is a plus or a minus sign. -/
lemma scan_sign_iff {s w r : Text} :
    sign.scan s = some (w, r) ↔ plus.scan s = some (w, r) ∨ dash.scan s = some (w, r) := by
  constructor
  · intro h
    rcases Option.or_eq_some_iff.mp h with h | ⟨-, h⟩
    · exact Or.inl h
    · exact Or.inr h
  · rintro (h | h)
    · exact Option.or_eq_some_iff.mpr (Or.inl h)
    · refine Option.or_eq_some_iff.mpr (Or.inr ⟨?_, h⟩)
      rw [((scan_mark_iff rfl).mp h).2]
      rfl

/-- A minus sign is the same whether it stands for a range or for an offset. -/
lemma rest_eq_of_dash_of_sign {s w r w' r' : Text} (h : dash.scan s = some (w, r))
    (h' : sign.scan s = some (w', r')) : r = r' := by
  rw [scan_sign_iff.mpr (Or.inr h)] at h'
  exact (Prod.mk.inj (Option.some.inj h')).2

end Terminal

namespace Part

variable {α : Type} {P : Text → Prop}

/-- A list is decisive if its items are, and if no further item follows its end. -/
lemma decisive_listed {g : Part α}
    (hg : fieldGrammar.Decisive g (fieldGrammar.Begins (.many .comma g) P))
    (hn : ∀ s w r, P s → Terminal.comma.scan s = some (w, r) →
      ¬ fieldGrammar.Begins g (fieldGrammar.Begins (.many .comma g) P) r) :
    fieldGrammar.Decisive (listed g) P :=
  ((hg.seq (Decisive.many hg hn)).build _)

lemma decisive_number (t : Terminal) : fieldGrammar.Decisive (number t) P :=
  (Decisive.terminal t).build _

lemma decisive_dayOffset : fieldGrammar.Decisive dayOffset P :=
  ((Decisive.terminal _).seq (((decisive_number _).seq (.terminal _)).build _)).build _

lemma decisive_weekday : fieldGrammar.Decisive weekday P :=
  (Decisive.terminal _).build _

lemma decisive_nth : fieldGrammar.Decisive nth P :=
  (Decisive.terminal _).build _

lemma decisive_nthRange : fieldGrammar.Decisive nthRange (Avoids [.dash]) := by
  refine Decisive.alt ?_ ?_ ?_
  · refine (decisive_nth.seq (Decisive.opt ?_ ?_)).build _
    · exact ((Decisive.terminal _).seq decisive_nth).build _
    · exact fun s hb hs => hs.not_begins rfl (by decide) hb
  · exact (((Decisive.terminal _).seq decisive_nth).build _).build _
  · exact fun s h h' => not_begins_of_opens rfl rfl (by decide) h h'

lemma decisive_nths : fieldGrammar.Decisive nths P := by
  refine ((Decisive.terminal _).seq (((decisive_listed ?_ ?_).seq (.terminal _)).build _)).build _
  · refine decisive_nthRange.mono fun r hr => ?_
    rcases begins_many.mp hr with hr | ⟨w, q, hm, -⟩
    · exact .of_begins rfl hr (by decide)
    · exact .of_scan (t := .comma) hm (by decide)
  · intro s w r hs hm
    exact absurd hm (Avoids.not_scan (Avoids.of_begins (K := [.comma]) rfl hs (by decide))
      (by decide))

/-- After a minus sign there is a weekday in a range, and a number in an offset. -/
lemma not_dash_weekday_of_dayOffset {Q : Text → Prop} {s : Text}
    (h : fieldGrammar.Begins (.after .dash weekday) P s)
    (h' : fieldGrammar.Begins dayOffset Q s) : False := by
  rw [begins_build, begins_seq, begins_scan] at h
  rw [dayOffset, begins_build, begins_seq, begins_scan] at h'
  obtain ⟨w, r, hr, hw⟩ := h
  obtain ⟨w', r', hr', hn⟩ := h'
  obtain rfl := Terminal.rest_eq_of_dash_of_sign hr hr'
  exact not_begins_of_opens rfl rfl (by decide) hw hn

/-- What may follow a range of weekdays: no bracket, and no sign. -/
abbrev afterWeekday : Text → Prop :=
  Avoids [.leftBracket, .dash, .plus]

lemma decisive_weekdayRange : fieldGrammar.Decisive weekdayRange afterWeekday := by
  refine Decisive.alt ?_ (Decisive.alt ?_ ?_ ?_) ?_
  · refine (decisive_weekday.seq (Decisive.opt ?_ ?_)).build _
    · exact ((Decisive.terminal _).seq decisive_weekday).build _
    · exact fun s hb hs => hs.not_begins rfl (by decide) hb
  · refine (decisive_weekday.seq (decisive_nths.seq (Decisive.opt decisive_dayOffset ?_))).build _
    exact fun s hb hs => hs.not_begins rfl (by decide) hb
  · exact (decisive_weekday.seq decisive_dayOffset).build _
  · -- after the weekday there is a bracket in the one form, and a sign in the other
    intro s h h'
    rw [begins_build, begins_seq] at h h'
    refine Decisive.not_begins decisive_weekday (fun _ _ => trivial) (fun _ _ => trivial) ?_ h h'
    intro r hr hr'
    exact (Avoids.of_begins (K := [.plus, .dash]) (by rfl) hr (by decide)).not_begins rfl
      (by decide) hr'
  · intro s h h'
    rw [begins_alt] at h'
    rw [begins_build, begins_seq] at h
    rcases h' with h' | h'
    · rw [begins_build, begins_seq] at h'
      refine Decisive.not_begins decisive_weekday (fun _ _ => trivial) (fun _ _ => trivial) ?_ h h'
      intro r hr hr'
      have hb : Avoids [.dash, .plus] r := .of_begins rfl hr' (by decide)
      rcases begins_opt.mp hr with hr | hr
      · exact hb.not_begins rfl (by decide) hr
      · exact hr.not_begins rfl (by decide) hr'
    · rw [begins_build, begins_seq] at h'
      refine Decisive.not_begins decisive_weekday (fun _ _ => trivial) (fun _ _ => trivial) ?_ h h'
      intro r hr hr'
      rcases begins_opt.mp hr with hr | hr
      · exact not_dash_weekday_of_dayOffset hr hr'
      · exact hr.not_begins rfl (by decide) hr'

/-- What may follow a holiday: no sign. -/
abbrev afterHoliday : Text → Prop :=
  Avoids [.dash, .plus]

lemma decisive_holiday : fieldGrammar.Decisive holiday afterHoliday := by
  refine ((Decisive.terminal _).seq (Decisive.opt decisive_dayOffset ?_)).build _
  exact fun s hb hs => hs.not_begins rfl (by decide) hb

/-! ### Lists of days -/

section Lists

variable {g : Part α} {K : List Opening} {o : Opening} {s : Text}

/-- What may follow a list of items that open in one way: nothing that could follow a single item, and no
further item. -/
def AfterItems (K : List Opening) (o : Opening) (s : Text) : Prop :=
  Avoids K s ∧ ∀ w r, Terminal.comma.scan s = some (w, r) → Avoids [o] r

/-- A list is decisive if its items are, and if the comma between them could not belong to an item. -/
lemma decisive_items (hdec : fieldGrammar.Decisive g (Avoids K)) (hg : g.consumes = true)
    (ho : ∀ o', opens g o' = true → o' ∈ [o]) (hK : ∀ o' ∈ K, Terminal.comma.opens o' = false) :
    fieldGrammar.Decisive (listed g) (AfterItems K o) := by
  refine decisive_listed (hdec.mono fun r hr => ?_) ?_
  · rcases begins_many.mp hr with hr | ⟨w, q, hm, -⟩
    · exact hr.1
    · exact .of_scan (t := .comma) hm hK
  · exact fun s w r hs hm => (hs.2 w r hm).not_begins hg ho

/-- What may follow weekdays and holidays. -/
abbrev afterDays : Text → Prop :=
  Avoids [.comma, .leftBracket, .dash, .plus, .weekday]

lemma AfterItems.of_afterDays (hK : ∀ o' ∈ K, o' ∈ [.comma, .leftBracket, .dash, .plus, .weekday])
    (h : afterDays s) : AfterItems K o s :=
  ⟨h.mono hK, fun w r hm => (h.not_scan (t := .comma) (by decide) hm).elim⟩

/-- After a comma there may be something else than an item when a list ends there. -/
lemma AfterItems.of_comma (hg : g.consumes = true) (ho : ∀ o' ∈ [o], opens g o' = false)
    (hK : ∀ o' ∈ K, Terminal.comma.opens o' = false)
    (h : fieldGrammar.Begins (.terminal .comma) (fieldGrammar.Begins g P) s) : AfterItems K o s := by
  obtain ⟨w, r, hm, hb⟩ := begins_scan.mp h
  refine ⟨.of_scan hm hK, fun w' r' hm' => ?_⟩
  obtain ⟨rfl, rfl⟩ := Prod.mk.inj (Option.some.inj (hm.symm.trans hm'))
  exact .of_begins hg hb ho

/-- What begins without a comma may follow a list if it could not belong to the last item. -/
lemma AfterItems.of_begins (hg : g.consumes = true)
    (hK : ∀ o' ∈ .comma :: K, opens g o' = false) (h : fieldGrammar.Begins g P s) :
    AfterItems K o s := by
  have hs : Avoids (.comma :: K) s := .of_begins hg h hK
  refine ⟨hs.mono fun o' => List.mem_cons_of_mem _, fun w r hm => ?_⟩
  exact (hs.not_scan (t := .comma) (fun o' ho' => List.mem_cons.mpr (Or.inl (List.mem_singleton.mp ho')))
    hm).elim

end Lists

/-- What may follow weekdays. -/
abbrev AfterWeekdays : Text → Prop :=
  AfterItems [.leftBracket, .dash, .plus] .weekday

/-- What may follow holidays. -/
abbrev AfterHolidays : Text → Prop :=
  AfterItems [.dash, .plus] .holiday

lemma decisive_weekdays : fieldGrammar.Decisive weekdays AfterWeekdays :=
  decisive_items decisive_weekdayRange rfl (by decide) (by decide)

lemma decisive_holidays : fieldGrammar.Decisive holidays AfterHolidays :=
  decisive_items decisive_holiday rfl (by decide) (by decide)

theorem decisive_daySelector : fieldGrammar.Decisive daySelector afterDays := by
  have hcomma : ∀ {Q s}, fieldGrammar.Begins (.terminal .comma) Q s → afterDays s → False :=
    fun hb ha => ha.not_begins rfl (by decide) hb
  have hweekdays : ∀ s, afterDays s → AfterWeekdays s := fun _ => .of_afterDays (by decide)
  have hholidays : ∀ s, afterDays s → AfterHolidays s := fun _ => .of_afterDays (by decide)
  -- the one kind may follow a comma after the other one, and weekdays may follow holidays without one
  have hcommaHolidays : ∀ {P} s,
      fieldGrammar.Begins (.terminal .comma) (fieldGrammar.Begins holidays P) s → AfterWeekdays s :=
    fun _ => .of_comma rfl (by decide) (by decide)
  have hcommaWeekdays : ∀ {P} s,
      fieldGrammar.Begins (.terminal .comma) (fieldGrammar.Begins weekdays P) s → AfterHolidays s :=
    fun _ => .of_comma rfl (by decide) (by decide)
  have hadjacent : ∀ {P} s, fieldGrammar.Begins weekdays P s → AfterHolidays s :=
    fun _ => .of_begins rfl (by decide)
  refine Decisive.alt ?_ (Decisive.alt ?_ (Decisive.alt ?_ (Decisive.alt ?_ ?_ ?_) ?_) ?_) ?_
  · exact (Decisive.seq (((decisive_holidays.mono hcommaWeekdays).seq (.terminal _)).build _)
      (decisive_weekdays.mono hweekdays)).build _
  · exact (Decisive.seq (((decisive_weekdays.mono hcommaHolidays).seq (.terminal _)).build _)
      (decisive_holidays.mono hholidays)).build _
  · exact (decisive_holidays.mono hholidays).build _
  · exact (decisive_weekdays.mono hweekdays).build _
  · exact (Decisive.seq (decisive_holidays.mono hadjacent)
      (decisive_weekdays.mono hweekdays)).build _
  · exact fun s h h' => not_begins_of_opens rfl rfl (by decide) h h'
  · -- holidays alone, against weekdays alone and weekdays in holidays
    intro s h h'
    rw [begins_build] at h
    simp only [begins_alt, begins_build, begins_seq] at h'
    rcases h' with h' | h'
    · exact not_begins_of_opens rfl rfl (by decide) h h'
    · refine decisive_holidays.not_begins hholidays hadjacent (fun r hr hb => ?_) h h'
      exact hr.not_begins rfl (by decide) hb
  · -- weekdays before holidays, against the three forms without a comma
    intro s h h'
    rw [begins_build, begins_seq, begins_build, begins_seq] at h
    simp only [begins_alt, begins_build, begins_seq] at h'
    rcases h' with h' | h' | h'
    · exact not_begins_of_opens rfl rfl (by decide) h h'
    · exact decisive_weekdays.not_begins hcommaHolidays hweekdays (fun r => hcomma) h h'
    · exact not_begins_of_opens rfl rfl (by decide) h h'
  · -- holidays before weekdays, against the four other forms
    intro s h h'
    rw [begins_build, begins_seq, begins_build, begins_seq] at h
    simp only [begins_alt, begins_build, begins_seq] at h'
    rcases h' with h' | h' | h' | h'
    · exact not_begins_of_opens rfl rfl (by decide) h h'
    · exact decisive_holidays.not_begins hcommaWeekdays hholidays (fun r => hcomma) h h'
    · exact not_begins_of_opens rfl rfl (by decide) h h'
    · refine decisive_holidays.not_begins hcommaWeekdays hadjacent (fun r hr hb => ?_) h h'
      exact not_begins_of_opens rfl rfl (by decide) hr hb

end Part

end OpeningTimes
