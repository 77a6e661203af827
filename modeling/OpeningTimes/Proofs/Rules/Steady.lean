import OpeningTimes.Proofs.Grammar.Carried
import OpeningTimes.Proofs.Rules.Joined

/-!
What of the text of a field matters for its rules.

The rules of a field depend on its text only by what its terminals say: the value of a number, the name
that a word is, and a sign, a separator or a comment as it stands. So if all terminals of a text are read
from a related text as well, and say the same there, both texts have the same rules.

* `Terminal.Agree`: texts of a terminal that say the same;
* `Part.steady_timespan`, `Part.steady_first` and their companions: parts are the same for related texts;
* `Part.steady_rule`, `Field.read_of_related`: so are the rules of a field.
-/

namespace OpeningTimes

open Grammar Text

/-- Whether two texts of a terminal say the same. -/
def Terminal.Agree (t : Terminal) (w u : Text) : Prop :=
  match t with
  | year | loneYear | dayNumber | weekNumber | hours | minutes | number => number? u = number? w
  | month | weekday => capitalized u = capitalized w
  | holiday => u.map fold = w.map fold
  | event => u.map small = w.map small
  | nth | ruleSeparator | comma | comment | sign => u = w
  | _ => True

namespace Part

variable {T : Text → Text → Prop} {α : Type} {t : Terminal}
  (hT : ∀ t : Terminal, fieldGrammar.Carries T t.Agree (.terminal t))
include hT

/-! ### Terminals -/

/-- A terminal of which each text says something else stays as it is. -/
lemma steady_terminal (t : Terminal) (ht : ∀ w u, t.Agree w u → u = w) :
    fieldGrammar.Steady T (.terminal t : Part Text) := by
  intro s s' r w h hd
  obtain ⟨u, r', hd', hw, h⟩ := hT t h hd
  exact ⟨u, r', hd', (ht w u hw).symm, h⟩

lemma steady_sign : fieldGrammar.Steady T (.terminal .sign : Part Text) :=
  steady_terminal hT .sign fun _ _ h => h

lemma steady_comment : fieldGrammar.Steady T (.terminal .comment : Part Text) :=
  steady_terminal hT .comment fun _ _ h => h

lemma steady_number (t : Terminal) (ht : ∀ w u, t.Agree w u → number? u = number? w) :
    fieldGrammar.Steady T (number t) :=
  (hT t).build fun w u k h hk => by rwa [ht w u h]

/-- What a text names does not change with a text that says the same. -/
lemma steady_name {f : Text → Option α} {e : Text → BuildError}
    (ht : ∀ w u, t.Agree w u → f u = f w) :
    fieldGrammar.Steady T (.build (fun w => orError (e w) (f w)) (.terminal t)) :=
  (hT t).build fun w u a h ha => by
    rw [orError_eq_ok_iff] at ha ⊢
    rw [ht w u h, ha]

lemma steady_after {g : Part α} (hg : fieldGrammar.Steady T g) :
    fieldGrammar.Steady T (.after t g) :=
  (hT t).after hg

lemma steady_before {g : Part α} (hg : fieldGrammar.Steady T g) :
    fieldGrammar.Steady T (.before g t) :=
  (hT t).before hg

lemma steady_listed {g : Part α} (hg : fieldGrammar.Steady T g) : fieldGrammar.Steady T (listed g) :=
  hg.list (hT .comma)

/-! ### Days -/

lemma steady_dayOffset : fieldGrammar.Steady T dayOffset :=
  ((steady_sign hT).seq (steady_before hT (steady_number hT .number fun _ _ h => h))).build _

lemma steady_weekday : fieldGrammar.Steady T weekday :=
  steady_name hT fun w u (h : capitalized u = capitalized w) => by
    rw [Weekday.ofName?, Weekday.ofName?, h]

lemma steady_nth : fieldGrammar.Steady T nth :=
  steady_name hT (f := fun w => Nth.ofNumber? (Text.number w)) fun w u (h : u = w) => by rw [h]

lemma steady_nthRange : fieldGrammar.Steady T nthRange :=
  (((steady_nth hT).seq (steady_after hT (steady_nth hT)).opt).build _).alt
    ((steady_after hT (steady_nth hT)).build _)

lemma steady_nths : fieldGrammar.Steady T nths :=
  steady_after hT (steady_before hT (steady_listed hT (steady_nthRange hT)))

lemma steady_weekdayRange : fieldGrammar.Steady T weekdayRange :=
  (((steady_weekday hT).seq (steady_after hT (steady_weekday hT)).opt).build _).alt
    ((((steady_weekday hT).seq ((steady_nths hT).seq (steady_dayOffset hT).opt)).build _).alt
      (((steady_weekday hT).seq (steady_dayOffset hT)).build _))

lemma steady_weekdays : fieldGrammar.Steady T weekdays :=
  steady_listed hT (steady_weekdayRange hT)

/-- Of the word for holidays only the letters matter. -/
lemma steady_holiday : fieldGrammar.Steady T holiday :=
  ((hT .holiday).seq (steady_dayOffset hT).opt).map fun ⟨w, o⟩ ⟨u, o'⟩ h => by
    obtain ⟨hw, ho⟩ : u.map fold = w.map fold ∧ o = o' := h
    simp only [hw, ho]

lemma steady_holidays : fieldGrammar.Steady T holidays :=
  steady_listed hT (steady_holiday hT)

lemma steady_daySelector : fieldGrammar.Steady T daySelector :=
  (((steady_before hT (steady_holidays hT)).seq (steady_weekdays hT)).build _).alt
    ((((steady_before hT (steady_weekdays hT)).seq (steady_holidays hT)).build _).alt
      (((steady_holidays hT).build _).alt
        (((steady_weekdays hT).build _).alt
          (((steady_holidays hT).seq (steady_weekdays hT)).build _))))

/-! ### Times -/

lemma steady_clock : fieldGrammar.Steady T clock :=
  ((steady_before hT (steady_number hT .hours fun _ _ h => h)).seq
    (steady_number hT .minutes fun _ _ h => h)).build _

lemma steady_event : fieldGrammar.Steady T event :=
  steady_name hT fun w u (h : u.map small = w.map small) => by
    simp only [Event.ofName?, h]

lemma steady_time : fieldGrammar.Steady T time :=
  (steady_clock hT).alt (((steady_event hT).build _).alt
    ((steady_after hT ((steady_event hT).seq ((steady_sign hT).seq
      ((steady_before hT (steady_number hT .hours fun _ _ h => h)).seq
        (steady_before hT (steady_number hT .minutes fun _ _ h => h)))))).build _))

lemma steady_period : fieldGrammar.Steady T period :=
  (steady_clock hT).alt ((steady_number hT .number fun _ _ h => h).build _)

lemma steady_timespan : fieldGrammar.Steady T timespan :=
  have htime := steady_time hT
  (htime.build _).alt (((steady_before hT htime).build _).alt
    (((htime.seq (steady_after hT htime)).build _).alt
      (((htime.seq (steady_after hT (steady_before hT htime))).build _).alt
        ((htime.seq (steady_after hT (htime.seq (steady_after hT (steady_period hT))))).build _))))

lemma steady_times : fieldGrammar.Steady T times :=
  steady_listed hT (steady_timespan hT)

/-! ### Years, dates and weeks -/

lemma steady_year : fieldGrammar.Steady T (number .year) :=
  steady_number hT .year fun _ _ h => h

lemma steady_step : fieldGrammar.Steady T step :=
  steady_after hT (steady_number hT .number fun _ _ h => h)

lemma steady_yearRange : fieldGrammar.Steady T yearRange :=
  (((steady_year hT).seq
    ((steady_after hT (steady_year hT)).seq (steady_step hT).opt).opt).build _).alt
      ((steady_before hT (steady_year hT)).build _)

lemma steady_firstYearRange : fieldGrammar.Steady T firstYearRange :=
  (((steady_year hT).seq ((steady_after hT (steady_year hT)).seq (steady_step hT).opt)).build _).alt
    (((steady_number hT .loneYear fun _ _ h => h).build _).alt
      ((steady_before hT (steady_year hT)).build _))

lemma steady_years : fieldGrammar.Steady T years :=
  ((steady_firstYearRange hT).seq ((steady_yearRange hT).many (hT .comma))).build _

lemma steady_dateOffset : fieldGrammar.Steady T dateOffset :=
  (((steady_sign hT).seq ((steady_weekday hT).seq (steady_dayOffset hT).opt)).build _).alt
    ((steady_dayOffset hT).build _)

lemma steady_month : fieldGrammar.Steady T month :=
  steady_name hT fun w u (h : capitalized u = capitalized w) => by
    rw [Month.ofName?, Month.ofName?, h]

/-- There is only one movable day, so its word does not matter. -/
lemma steady_date : fieldGrammar.Steady T date := by
  refine Steady.alt (((steady_year hT).opt.seq ((steady_month hT).seq
    ((steady_number hT .dayNumber fun _ _ h => h).opt.seq
      (steady_dateOffset hT).opt))).build _) ?_
  refine (Carries.seq (steady_year hT).opt ((hT .easter).seq (steady_dateOffset hT).opt)).map ?_
  rintro ⟨y, w, o⟩ ⟨y', u, o'⟩ ⟨hy, -, ho⟩
  obtain rfl : y = y' := hy
  obtain rfl : o = o' := ho
  rfl

lemma steady_dateRange : fieldGrammar.Steady T dateRange :=
  have hdate := steady_date hT
  ((hdate.seq ((steady_after hT hdate).seq (steady_step hT).opt)).build _).alt
    (((hdate.seq ((steady_after hT (steady_number hT .dayNumber fun _ _ h => h)).seq
      (steady_step hT).opt)).build _).alt
      (((steady_before hT hdate).build _).alt (hdate.build _)))

lemma steady_dates : fieldGrammar.Steady T dates :=
  steady_listed hT (steady_dateRange hT)

lemma steady_weekRange : fieldGrammar.Steady T weekRange :=
  have hweek : fieldGrammar.Steady T (number .weekNumber) := steady_number hT .weekNumber fun _ _ h => h
  (hweek.seq ((steady_after hT hweek).seq (steady_step hT).opt).opt).build _

lemma steady_weeks : fieldGrammar.Steady T weeks :=
  steady_after hT (steady_listed hT (steady_weekRange hT))

/-! ### Rules -/

lemma steady_calendarSelectors : fieldGrammar.Steady T calendarSelectors :=
  (((steady_years hT).seq ((steady_dates hT).opt.seq (steady_weeks hT).opt)).build _).alt
    ((((steady_dates hT).seq (steady_weeks hT).opt).build _).alt ((steady_weeks hT).build _))

lemma steady_daysOrTimes : fieldGrammar.Steady T daysOrTimes :=
  (((steady_daySelector hT).seq (steady_times hT).opt).build _).alt ((steady_times hT).build _)

lemma steady_timesAfterDays : fieldGrammar.Steady T timesAfterDays :=
  ((steady_daySelector hT).opt.seq (steady_times hT)).build _

lemma steady_daysAndTimes : fieldGrammar.Steady T daysAndTimes :=
  ((steady_daySelector hT).seq (steady_times hT)).build _

lemma steady_daysOnly : fieldGrammar.Steady T daysOnly :=
  (steady_daySelector hT).build _

lemma steady_selectorsWithTimes : fieldGrammar.Steady T selectorsWithTimes :=
  have hcalendar := steady_calendarSelectors hT
  (((steady_before hT hcalendar).seq (steady_timesAfterDays hT)).build _).alt
    (((hcalendar.seq (steady_timesAfterDays hT)).build _).alt ((steady_daysAndTimes hT).build _))

lemma steady_selectorsWithoutTimes : fieldGrammar.Steady T selectorsWithoutTimes :=
  have hcalendar := steady_calendarSelectors hT
  (((steady_before hT (steady_comment hT)).seq (steady_daysOrTimes hT).opt).build _).alt
    ((((steady_before hT hcalendar).seq (steady_daysOnly hT).opt).build _).alt
      (((hcalendar.seq (steady_daysOnly hT).opt).build _).alt ((steady_daysOnly hT).build _)))

/-- The word for a state does not matter, as each of them has a terminal of its own. -/
lemma steady_modifierWord (t : Terminal) (m : Modifier) :
    fieldGrammar.Steady T (modifierWord t m) :=
  ((hT t).seq (steady_comment hT).opt).map fun ⟨_, c⟩ ⟨_, c'⟩ h => by
    obtain rfl : c = c' := h.2
    rfl

lemma steady_modifier : fieldGrammar.Steady T modifier :=
  (steady_modifierWord hT _ _).alt ((steady_modifierWord hT _ _).alt
    ((steady_modifierWord hT _ _).alt ((steady_comment hT).build _)))

lemma steady_terminatedRule : fieldGrammar.Steady T terminatedRule :=
  have hmodifier := steady_modifier hT
  have halways : fieldGrammar.Steady T always := (hT .always).map fun _ _ _ => rfl
  (((steady_selectorsWithTimes hT).seq hmodifier.opt).build _).alt
    ((((steady_selectorsWithoutTimes hT).seq hmodifier).build _).alt
      (((halways.seq hmodifier.opt).build _).alt (hmodifier.build _)))

lemma steady_timesFirstRule : fieldGrammar.Steady T timesFirstRule :=
  (((steady_times hT).build _).seq (steady_modifier hT).opt).build _

lemma steady_first : ∀ n : Nonterminal, fieldGrammar.Steady T n.first
  | .rules => (steady_terminatedRule hT).alt
    ((steady_timesFirstRule hT).alt (steady_selectorsWithoutTimes hT))
  | .rulesNotTimed => (steady_terminatedRule hT).alt (steady_selectorsWithoutTimes hT)

lemma steady_firstClosed : ∀ n : Nonterminal, fieldGrammar.Steady T n.firstClosed
  | .rules => (steady_terminatedRule hT).alt (steady_timesFirstRule hT)
  | .rulesNotTimed => steady_terminatedRule hT

/-- Rules are the same for related texts. -/
theorem steady_rule (n : Nonterminal) : fieldGrammar.Steady T (fieldGrammar.rule n) := by
  intro s s' r R h hd
  induction R generalizing n s s' with
  | nil => exact absurd rfl (ne_nil_of_rule hd)
  | cons x R ih =>
    have hchain : ∀ {first : Part Rule} {t : Terminal} {next : Nonterminal},
        fieldGrammar.Steady T first → fieldGrammar.Steady T (.terminal t : Part Text) →
        fieldGrammar.Derives (chain first t next) s (.ok (x :: R)) r →
        ∃ r', fieldGrammar.Derives (chain first t next) s' (.ok (x :: R)) r' ∧ T r r' := by
      intro first t next hfirst ht hd
      obtain ⟨y, q, w, p, S, hy, hw, hS, hsep, hR⟩ := derives_chain_iff.mp hd
      obtain ⟨rfl, rfl⟩ := List.cons.inj hR
      obtain ⟨_, q', hy', rfl, h⟩ := hfirst h hy
      obtain ⟨_, p', hw', rfl, h⟩ := ht h (.terminal hw)
      obtain ⟨_, r', hS', rfl, h⟩ := ih next h hS
      exact ⟨r', derives_chain_iff.mpr
        ⟨y, q', w, p', R, hy', derives_scan_iff.mp hw', hS', hsep, rfl⟩, h⟩
    rw [rule_eq] at hd ⊢
    rcases derives_alt.mp hd with hd | hd
    · obtain ⟨R', r', hd', rfl, h⟩ := (steady_first hT n).build _ h hd
      exact ⟨_, r', .left hd', rfl, h⟩
    rcases derives_alt.mp hd with hd | hd
    · have hseparator := steady_terminal hT .ruleSeparator fun _ _ h => h
      obtain ⟨r', hd', h⟩ := hchain (steady_first hT n) hseparator hd
      exact ⟨_, r', .right (.left hd'), rfl, h⟩
    · have hcomma := steady_terminal hT .comma fun _ _ h => h
      obtain ⟨r', hd', h⟩ := hchain (steady_firstClosed hT n) hcomma hd
      exact ⟨_, r', .right (.right hd'), rfl, h⟩

end Part

/-- Fields whose texts are related have the same rules. -/
theorem Field.read_of_related {T : Text → Text → Prop} {f g : Text} {R : List Rule}
    (hT : ∀ t : Terminal, fieldGrammar.Carries T t.Agree (.terminal t))
    (hblank : ∀ r r', T r r' → r.all isBlank = true → r'.all isBlank = true)
    (h : T (trimField f) (trimField g)) (hR : read f = .ok R) : read g = .ok R := by
  obtain ⟨r, hd, hr⟩ := read_eq_ok_iff.mp hR
  obtain ⟨_, r', hd', rfl, h⟩ := Part.steady_rule hT .rules h (derives_call.mp hd)
  exact read_eq_ok_iff.mpr ⟨r', .call hd', hblank r r' h hr⟩

end OpeningTimes
