import OpeningTimes.Proofs.Field.Calendar

/-!
Rules as sequences of parts that may be missing.

* `Front`, `Tail`: what a rule says before its times, and its times and its state;
* `Part.front`, `Part.tail`, `Part.assembled`: how both halves are read, and the rule that they make;
* `Part.derives_flat_of_closedRule`, `Part.derives_flat_of_openEndedRule`: every form of a rule is
  such a sequence.

The forms of the grammar say which parts must be there. A sequence says less about that, but it has
one form only, and so it can be seen that no text has two readings.
-/

namespace OpeningTimes

open Grammar

/-- What a rule says before its times and its state. -/
inductive Front where
  | always
  /-- A comment that stands for the selectors, and selectors that no rule can hold after it. -/
  | comment (c : Text) (days : Option DaySelector)
  | selectors (years : Option (List YearRange)) (dates : Option (List DateRange))
      (weeks : Option (List WeekRange)) (colon : Bool) (days : Option DaySelector)

/-- Times and a state, of which at least one is there. -/
abbrev Tail := Option (List Timespan) × Option (Modifier × Text)

namespace Part

/-- The rule of both halves. -/
def assembled : Front → Option Tail → Except BuildError Rule
  | .always, t => .ok (withModifier? { always := true } (t.bind Prod.snd))
  | .comment c none, none => .ok { comment := c }
  | .comment c none, some (none, m) => .ok (withModifier? { comment := c } m)
  | .comment _ _, _ => .error (.unsupported .commentSelectors)
  | .selectors ys ds ws colon days, t =>
    .ok (withModifier?
      { years := ys.getD [], dates := ds.getD [], weeks := ws.getD [], colon := colon,
        days := days.getD {}, times := (t.bind Prod.fst).getD [] } (t.bind Prod.snd))

/-- Years, dates, weeks, a colon and days, each of which may be missing. -/
def looseSelectors : Part Front :=
  .map (fun (ys, ds, ws, c, days) => .selectors ys ds ws c.isSome days)
    (.seq (.opt years) (.seq (.opt dates) (.seq (.opt weeks)
      (.seq (.opt (.terminal .colon)) (.opt daySelector)))))

/-- What a rule says before its times and its state. -/
def front : Part Front :=
  .alt (.map (fun _ => .always) (.terminal .always))
    (.alt (.map (fun (c, days) => .comment c days)
        (.seq (.before (.terminal .comment) .colon) (.opt daySelector)))
      looseSelectors)

/-- Times and a state, of which at least one is there. -/
def tail : Part Tail :=
  .alt (.map (fun (ts, m) => (some ts, m)) (.seq times (.opt modifier)))
    (.map (fun m => (none, some m)) modifier)

/-- A rule with times or a state. -/
def flatClosed : Part Rule :=
  .build (fun (f, t) => assembled f (some t)) (.seq front tail)

/-- A rule without times and without a state. -/
def flatOpen : Part Rule :=
  .build (fun f => assembled f none) front

/-! ### Every rule is such a sequence -/

variable {s r : Text}

/-- A state is never an error. -/
lemma exists_ok_of_modifier {v : Except BuildError (Modifier × Text)}
    (h : fieldGrammar.Derives modifier s v r) : ∃ m, v = .ok m := by
  have hword : ∀ {t m v}, fieldGrammar.Derives (modifierWord t m) s v r → ∃ m, v = .ok m := by
    intro t m v h
    obtain ⟨_, hs, rfl⟩ := derives_build.mp h
    obtain ⟨_, q, _, ht, hc, rfl⟩ := derives_seq.mp hs
    obtain ⟨w, -, rfl⟩ := derives_terminal.mp ht
    rcases derives_opt.mp hc with ⟨_, hc', rfl⟩ | ⟨rfl, rfl⟩
    · obtain ⟨c, -, rfl⟩ := derives_terminal.mp hc'
      exact ⟨_, rfl⟩
    · exact ⟨_, rfl⟩
  rcases derives_alt.mp h with h | h
  · exact hword h
  rcases derives_alt.mp h with h | h
  · exact hword h
  rcases derives_alt.mp h with h | h
  · exact hword h
  · obtain ⟨_, hc, rfl⟩ := derives_build.mp h
    obtain ⟨c, -, rfl⟩ := derives_terminal.mp hc
    exact ⟨_, rfl⟩

lemma exists_ok_of_opt_modifier {v : Except BuildError (Option (Modifier × Text))}
    (h : fieldGrammar.Derives (.opt modifier) s v r) : ∃ m, v = .ok m := by
  rcases derives_opt.mp h with ⟨_, hm, rfl⟩ | ⟨rfl, rfl⟩
  · obtain ⟨m, rfl⟩ := exists_ok_of_modifier hm
    exact ⟨_, rfl⟩
  · exact ⟨_, rfl⟩

/-- Years, dates and weeks, of which at least one is there, are so many optional parts. -/
lemma exists_of_calendarSelectors {v : Except BuildError Rule}
    (h : fieldGrammar.Derives calendarSelectors s v r) :
    ∃ y p d q w, fieldGrammar.Derives (.opt years) s y p ∧ fieldGrammar.Derives (.opt dates) p d q ∧
      fieldGrammar.Derives (.opt weeks) q w r ∧
      v = (Value.both y (Value.both d w)).map fun (y, d, w) =>
        { years := y.getD [], dates := d.getD [], weeks := w.getD [] } := by
  rcases derives_alt.mp h with h | h
  · obtain ⟨_, hs, rfl⟩ := derives_build.mp h
    obtain ⟨y, p, _, hy, hs', rfl⟩ := derives_seq.mp hs
    obtain ⟨d, q, w, hd, hw, rfl⟩ := derives_seq.mp hs'
    refine ⟨_, p, d, q, w, .present hy, hd, hw, ?_⟩
    rcases y with e | y
    · rfl
    rcases d with e | d
    · rfl
    rcases w with e | w <;> rfl
  rcases derives_alt.mp h with h | h
  · obtain ⟨_, hs, rfl⟩ := derives_build.mp h
    obtain ⟨d, q, w, hd, hw, rfl⟩ := derives_seq.mp hs
    refine ⟨_, s, _, q, w, .absent, .present hd, hw, ?_⟩
    rcases d with e | d
    · rfl
    rcases w with e | w <;> rfl
  · obtain ⟨w, hw, rfl⟩ := derives_build.mp h
    refine ⟨_, s, _, s, _, .absent, .absent, .present hw, ?_⟩
    rcases w with e | w <;> rfl

/-- Selectors that begin with years, dates or weeks, and end with times. -/
lemma derives_flatClosed_of_calendar {c : Bool} {p q m : Text} {v : Except BuildError Rule}
    {w : Except BuildError DayTimes} {u : Except BuildError (Option (Modifier × Text))}
    (h : fieldGrammar.Derives calendarSelectors s v p)
    (hc : fieldGrammar.Derives (.opt (.terminal .colon)) p
      (.ok (if c then some [':'] else none)) q)
    (ht : fieldGrammar.Derives timesAfterDays q w m)
    (hu : fieldGrammar.Derives (.opt modifier) m u r) :
    fieldGrammar.Derives flatClosed s
      ((Value.both (Value.both v w) u).map fun ((r, s), m) =>
        withModifier? (withDayTimes (if c then { r with colon := true } else r) s) m) r := by
  obtain ⟨y, a, d, b, k, hy, hd, hk, rfl⟩ := exists_of_calendarSelectors h
  obtain ⟨_, hdt, rfl⟩ := derives_build.mp ht
  obtain ⟨ds, e, ts, hds, hts, rfl⟩ := derives_seq.mp hdt
  obtain ⟨u, rfl⟩ := exists_ok_of_opt_modifier hu
  have hf : fieldGrammar.Derives front s _ e :=
    .right (.right (.build (.seq hy (.seq hd (.seq hk (.seq hc hds))))))
  have hflat : fieldGrammar.Derives flatClosed s _ r :=
    .build (.seq hf (.left (.build (.seq hts hu))))
  convert hflat using 1
  rcases y with e | y
  · rfl
  rcases d with e | d
  · rfl
  rcases k with e | k
  · rfl
  rcases ds with e | ds
  · rfl
  rcases ts with e | ts
  · rfl
  cases c <;> rfl

lemma derives_flatClosed_of_selectorsWithTimes {p : Text} {v : Except BuildError Rule}
    {u : Except BuildError (Option (Modifier × Text))}
    (h : fieldGrammar.Derives selectorsWithTimes s v p)
    (hu : fieldGrammar.Derives (.opt modifier) p u r) :
    fieldGrammar.Derives flatClosed s ((Value.both v u).map fun (r, m) => withModifier? r m) r := by
  obtain ⟨u, rfl⟩ := exists_ok_of_opt_modifier hu
  -- values are compared error by error, in the order in which the parts stand
  rcases derives_alt.mp h with h | h
  · obtain ⟨_, hs, rfl⟩ := derives_build.mp h
    obtain ⟨_, q, w, hc, ht, rfl⟩ := derives_seq.mp hs
    obtain ⟨_, hc', rfl⟩ := derives_build.mp hc
    obtain ⟨k, e, _, hk, hcolon, rfl⟩ := derives_seq.mp hc'
    obtain ⟨w', hm, rfl⟩ := derives_terminal.mp hcolon
    obtain ⟨rfl, -⟩ := (Terminal.scan_mark_iff (t := .colon) rfl).mp hm
    convert derives_flatClosed_of_calendar (c := true) hk (.present hcolon) ht hu using 1
    rcases k with e | k
    · rfl
    rcases w with e | w <;> rfl
  rcases derives_alt.mp h with h | h
  · obtain ⟨_, hs, rfl⟩ := derives_build.mp h
    obtain ⟨k, q, w, hk, ht, rfl⟩ := derives_seq.mp hs
    convert derives_flatClosed_of_calendar (c := false) hk .absent ht hu using 1
    rcases k with e | k
    · rfl
    rcases w with e | w <;> rfl
  · obtain ⟨_, hs, rfl⟩ := derives_build.mp h
    obtain ⟨_, hs', rfl⟩ := derives_build.mp hs
    obtain ⟨ds, q, ts, hd, ht, rfl⟩ := derives_seq.mp hs'
    have hf : fieldGrammar.Derives front s _ q :=
      .right (.right (.build (.seq .absent (.seq .absent (.seq .absent
        (.seq .absent (.present hd)))))))
    have hflat : fieldGrammar.Derives flatClosed s _ r :=
      .build (.seq hf (.left (.build (.seq ht hu))))
    convert hflat using 1
    rcases ds with e | ds
    · rfl
    rcases ts with e | ts <;> rfl

/-- A rule without a state is what stands before its times, and times that may be missing. With a state
after it, it is the same with that state. -/
def Unstated (s : Text) (v : Except BuildError Rule) (r : Text) : Prop :=
  ∃ f q t, fieldGrammar.Derives front s f q ∧ fieldGrammar.Derives (.opt times) q t r ∧
    (v = (Value.both f t).bind fun (f, t) => assembled f (t.map (some ·, none))) ∧
    ∀ m, v.map (withModifier · m) =
      (Value.both f t).bind fun (f, t) => assembled f (some (t, some m))

/-- A comment in place of the selectors, after which no rule can hold selectors. -/
lemma unstated_of_comment {q : Text} {c : Except BuildError Text}
    {w : Except BuildError (Option DayTimes)}
    (hc : fieldGrammar.Derives (.before (.terminal .comment) .colon) s c q)
    (hw : fieldGrammar.Derives (.opt daysOrTimes) q w r) :
    Unstated s ((Value.both c w).bind fun (c, w) =>
      match w with
      | none => .ok { comment := c }
      | some _ => .error (.unsupported .commentSelectors)) r := by
  have hfront : ∀ {d p}, fieldGrammar.Derives (.opt daySelector) q d p →
      fieldGrammar.Derives front s ((Value.both c d).map fun (c, d) => .comment c d) p :=
    fun hd => .right (.left (.build (.seq hc hd)))
  rcases derives_opt.mp hw with ⟨_, ht, rfl⟩ | ⟨rfl, rfl⟩
  · rcases derives_alt.mp ht with hd | hd
    · obtain ⟨_, hd', rfl⟩ := derives_build.mp hd
      obtain ⟨ds, p, ts, hds, hts, rfl⟩ := derives_seq.mp hd'
      refine ⟨_, p, ts, hfront (.present hds), hts, ?_, fun m => ?_⟩
      all_goals
        rcases c with e | c
        · rfl
        rcases ds with e | ds
        · rfl
        rcases ts with e | ts
        · rfl
        cases ts <;> rfl
    · obtain ⟨ts, hts, rfl⟩ := derives_build.mp hd
      refine ⟨_, q, _, hfront .absent, .present hts, ?_, fun m => ?_⟩
      all_goals
        rcases c with e | c
        · rfl
        rcases ts with e | ts <;> rfl
  · refine ⟨_, r, _, hfront .absent, .absent, ?_, fun m => ?_⟩
    all_goals rcases c with e | c <;> rfl

/-- Selectors that begin with years, dates or weeks, and have no times. -/
lemma unstated_of_calendar {c : Bool} {p q : Text} {v : Except BuildError Rule}
    {w : Except BuildError (Option DayTimes)}
    (h : fieldGrammar.Derives calendarSelectors s v p)
    (hc : fieldGrammar.Derives (.opt (.terminal .colon)) p
      (.ok (if c then some [':'] else none)) q)
    (hd : fieldGrammar.Derives (.opt daysOnly) q w r) :
    Unstated s ((Value.both v w).map fun (r, s) =>
      withDayTimes (if c then { r with colon := true } else r) (s.getD {})) r := by
  obtain ⟨y, a, d, b, k, hy, hd', hk, rfl⟩ := exists_of_calendarSelectors h
  obtain ⟨ds, hds, rfl⟩ : ∃ ds, fieldGrammar.Derives (.opt daySelector) q ds r ∧
      w = ds.map fun o => o.map fun x => ({ days := x } : DayTimes) := by
    rcases derives_opt.mp hd with ⟨_, hds', rfl⟩ | ⟨rfl, rfl⟩
    · obtain ⟨ds, hds, rfl⟩ := derives_build.mp hds'
      exact ⟨_, .present hds, by rcases ds with e | ds <;> rfl⟩
    · exact ⟨_, .absent, rfl⟩
  refine ⟨_, r, _, .right (.right (.build (.seq hy (.seq hd' (.seq hk (.seq hc hds)))))), .absent, ?_,
    fun m => ?_⟩
  all_goals
    rcases y with e | y
    · rfl
    rcases d with e | d
    · rfl
    rcases k with e | k
    · rfl
    rcases ds with e | ds
    · rfl
    cases ds <;> cases c <;> rfl

/-- Selectors without times, or a comment in their place. -/
lemma unstated_of_selectorsWithoutTimes {v : Except BuildError Rule}
    (h : fieldGrammar.Derives selectorsWithoutTimes s v r) : Unstated s v r := by
  rcases derives_alt.mp h with h | h
  · obtain ⟨_, hs, rfl⟩ := derives_build.mp h
    obtain ⟨c, q, w, hc, hw, rfl⟩ := derives_seq.mp hs
    exact unstated_of_comment hc hw
  rcases derives_alt.mp h with h | h
  · obtain ⟨_, hs, rfl⟩ := derives_build.mp h
    obtain ⟨_, q, w, hc, hd, rfl⟩ := derives_seq.mp hs
    obtain ⟨_, hc', rfl⟩ := derives_build.mp hc
    obtain ⟨k, e, _, hk, hcolon, rfl⟩ := derives_seq.mp hc'
    obtain ⟨w', hm, rfl⟩ := derives_terminal.mp hcolon
    obtain ⟨rfl, -⟩ := (Terminal.scan_mark_iff (t := .colon) rfl).mp hm
    convert unstated_of_calendar (c := true) hk (.present hcolon) hd using 1
    rcases k with e | k
    · rfl
    rcases w with e | w <;> rfl
  rcases derives_alt.mp h with h | h
  · obtain ⟨_, hs, rfl⟩ := derives_build.mp h
    obtain ⟨k, q, w, hk, hd, rfl⟩ := derives_seq.mp hs
    convert unstated_of_calendar (c := false) hk .absent hd using 1
    rcases k with e | k
    · rfl
    rcases w with e | w <;> rfl
  · obtain ⟨_, hs, rfl⟩ := derives_build.mp h
    obtain ⟨ds, hds, rfl⟩ := derives_build.mp hs
    refine ⟨_, r, _, .right (.right (.build (.seq .absent (.seq .absent (.seq .absent
      (.seq .absent (.present hds))))))), .absent, ?_, fun m => ?_⟩
    all_goals rcases ds with e | ds <;> rfl

/-- A state after times that may be missing. -/
lemma derives_tail {q : Text} {t : Except BuildError (Option (List Timespan))} {m : Modifier × Text}
    (ht : fieldGrammar.Derives (.opt times) s t q) (hm : fieldGrammar.Derives modifier q (.ok m) r) :
    fieldGrammar.Derives tail s (t.map fun t => (t, some m)) r := by
  rcases derives_opt.mp ht with ⟨ts, hts, rfl⟩ | ⟨rfl, rfl⟩
  · have h : fieldGrammar.Derives tail s _ r := .left (.build (.seq hts (.present hm)))
    convert h using 1
    rcases ts with e | ts <;> rfl
  · exact .right (.build hm)

/-- Years, dates, weeks, a colon and days are all missing. -/
lemma derives_front_nil :
    fieldGrammar.Derives front s (.ok (.selectors none none none false none)) s :=
  .right (.right (.build (.seq .absent (.seq .absent (.seq .absent (.seq .absent .absent))))))

/-- A rule that does not begin with its times and could not go on is both halves of a rule, or says
that it always applies. -/
lemma derives_flat_of_terminatedRule {v : Except BuildError Rule}
    (h : fieldGrammar.Derives terminatedRule s v r) :
    fieldGrammar.Derives flatClosed s v r ∨ fieldGrammar.Derives always s v r := by
  rcases derives_alt.mp h with h | h
  · obtain ⟨_, hs, rfl⟩ := derives_build.mp h
    obtain ⟨v, q, m, hv, hm, rfl⟩ := derives_seq.mp hs
    exact Or.inl (derives_flatClosed_of_selectorsWithTimes hv hm)
  rcases derives_alt.mp h with h | h
  · obtain ⟨_, hs, rfl⟩ := derives_build.mp h
    obtain ⟨v, p, _, hv, hm, rfl⟩ := derives_seq.mp hs
    obtain ⟨m, rfl⟩ := exists_ok_of_modifier hm
    obtain ⟨f, q, t, hf, ht, -, hv'⟩ := unstated_of_selectorsWithoutTimes hv
    have hflat : fieldGrammar.Derives flatClosed s _ r := .build (.seq hf (derives_tail ht hm))
    left
    convert hflat using 1
    refine Eq.trans ?_ ((hv' m).trans ?_)
    · rcases v with e | v <;> rfl
    · rcases f with e | f
      · rfl
      rcases t with e | t <;> rfl
  rcases derives_alt.mp h with h | h
  · obtain ⟨_, hs, rfl⟩ := derives_build.mp h
    obtain ⟨_, q, u, ha, hu, rfl⟩ := derives_seq.mp hs
    obtain ⟨_, ha', rfl⟩ := derives_build.mp ha
    obtain ⟨w, -, rfl⟩ := derives_terminal.mp ha'
    rcases derives_opt.mp hu with ⟨_, hm, rfl⟩ | ⟨rfl, rfl⟩
    · obtain ⟨m, rfl⟩ := exists_ok_of_modifier hm
      exact Or.inl (.build (.seq (.left (.build ha')) (.right (.build hm))))
    · exact Or.inr ha
  · obtain ⟨_, hm, rfl⟩ := derives_build.mp h
    obtain ⟨m, rfl⟩ := exists_ok_of_modifier hm
    exact Or.inl (.build (.seq derives_front_nil (.right (.build hm))))

/-- A rule that could not go on after a comma is both halves of a rule, or says that it always
applies. -/
theorem derives_flat_of_closedRule {v : Except BuildError Rule}
    (h : fieldGrammar.Derives closedRule s v r) :
    fieldGrammar.Derives flatClosed s v r ∨ fieldGrammar.Derives always s v r := by
  rcases derives_alt.mp h with h | h
  · exact derives_flat_of_terminatedRule h
  · obtain ⟨_, hs, rfl⟩ := derives_build.mp h
    obtain ⟨_, q, m, ht, hm, rfl⟩ := derives_seq.mp hs
    obtain ⟨ts, hts, rfl⟩ := derives_build.mp ht
    have hflat : fieldGrammar.Derives flatClosed s _ r :=
      .build (.seq derives_front_nil (.left (.build (.seq hts hm))))
    left
    convert hflat using 1
    rcases ts with e | ts
    · rfl
    rcases m with e | m <;> rfl

/-- A rule that could go on after a comma has no state. It has times only where these are an error. -/
theorem derives_flat_of_openEndedRule {v : Except BuildError Rule}
    (h : fieldGrammar.Derives openEndedRule s v r) :
    fieldGrammar.Derives flatClosed s v r ∨ fieldGrammar.Derives flatOpen s v r := by
  obtain ⟨f, q, t, hf, ht, rfl, -⟩ := unstated_of_selectorsWithoutTimes h
  rcases derives_opt.mp ht with ⟨ts, hts, rfl⟩ | ⟨rfl, rfl⟩
  · left
    have hflat : fieldGrammar.Derives flatClosed s _ r :=
      .build (.seq hf (.left (.build (.seq hts .absent))))
    convert hflat using 1
    rcases f with e | f
    · rfl
    rcases ts with e | ts <;> rfl
  · right
    have hflat : fieldGrammar.Derives flatOpen s _ r := .build hf
    convert hflat using 1
    rcases f with e | f <;> rfl

end Part

end OpeningTimes
