import OpeningTimes.Proofs.Rules.Numbers
import OpeningTimes.Proofs.Rules.Written
import OpeningTimes.Schedule

/-!
The canonical text of a canonical text.

What the text of legible rules says can be held by a field, and so it is read from the text as it stands.
Rules that are not legible may lose a number or a state on the way, and with it what keeps them apart.

* `Field.read_canonical`: the canonical text is read as what it says of the rules;
* `Field.canonical_canonical`: it is its own canonical text;
* `Field.exists_of_canonical`: it has as many rules, which keep their states and their times.
-/

namespace OpeningTimes

open Text

/-- What a rule and the rule in its place have in common. -/
structure Rule.Keeps (x y : Rule) : Prop where
  modifier : y.modifier = x.modifier
  always : y.always = x.always
  times : y.times.length = x.times.length

namespace Field

variable {field t : Text} {R : List Rule}

lemma check_of_even (h : Even (field.count '"')) : check field = .ok field :=
  if_pos (beq_iff_eq.mpr (Nat.even_iff.mp h))

lemma check_of_odd (h : Odd (field.count '"')) : check field = .error .oddQuotes :=
  if_neg (by simp [Nat.odd_iff.mp h])

/-- A field has a canonical text if its quotes are even and it is read. -/
lemma canonical_eq_ok_iff :
    canonical field = .ok t ↔
      check field = .ok field ∧ ∃ R, read field = .ok R ∧ Rule.textAll R = t := by
  cases hcheck : check field with
  | error e => simp [canonical, hcheck, bind, Except.bind]
  | ok u =>
    obtain rfl : u = field := by
      unfold check at hcheck
      split at hcheck <;> cases hcheck
      rfl
    cases hread : read u with
    | error e => simp [canonical, hcheck, hread, bind, Except.bind]
    | ok R => simp [canonical, hcheck, hread, write_of_read hread, bind, Except.bind]

/-- Rules that a field can hold have a canonical text. -/
lemma canonical_textAll (h : Rule.CanonicalAll R) :
    canonical (Rule.textAll R) = .ok (Rule.textAll R) := by
  exact canonical_eq_ok_iff.mpr ⟨check_of_even (taken_textAll h).2, R, read_textAll h, rfl⟩

/-- Where a field says something legible, its canonical text is that of rules that a field can hold. -/
lemma exists_canonicalAll (h : canonical field = .ok t) (hR : read field = .ok R)
    (hl : ∀ x ∈ R, x.Legible) :
    Rule.CanonicalAll (R.map .written) ∧ Rule.textAll (R.map .written) = t := by
  obtain ⟨-, R', hR', rfl⟩ := canonical_eq_ok_iff.mp h
  obtain rfl := Except.ok.inj (hR'.symm.trans hR)
  have hchained := chained_of_read hR
  exact ⟨hchained.canonicalAll hl, Rule.textAll_map_written hchained.forall_mem hl⟩

/-- The canonical text of a field is read as what the text says. -/
theorem read_canonical (h : canonical field = .ok t) (hR : read field = .ok R)
    (hl : ∀ x ∈ R, x.Legible) : read t = .ok (R.map .written) := by
  obtain ⟨hcanonical, rfl⟩ := exists_canonicalAll h hR hl
  exact read_textAll hcanonical

/-- Where a field says something legible, its canonical text is the canonical text of itself. -/
theorem canonical_canonical (h : canonical field = .ok t) (hR : read field = .ok R)
    (hl : ∀ x ∈ R, x.Legible) : canonical t = .ok t := by
  obtain ⟨hcanonical, rfl⟩ := exists_canonicalAll h hR hl
  exact canonical_textAll hcanonical

/-- Public holidays lose their shift once, and nothing after that. -/
theorem canonical_canonical_publicHoliday :
    let x : Rule :=
      { days := { holidays := [{ plural := true, offset := 1 }] }, modifier := .closed }
    read "PH +1 day off".toList = .ok [x] ∧
      canonical "PH +1 day off".toList = .ok "PH closed".toList ∧
      canonical "PH closed".toList = .ok "PH closed".toList := by
  intro x
  have hR : read "PH +1 day off".toList = .ok [x] := by decide +kernel
  have h : canonical "PH +1 day off".toList = .ok "PH closed".toList := by decide +kernel
  refine ⟨hR, h, canonical_canonical h hR fun y hy => ?_⟩
  obtain rfl := List.mem_singleton.mp hy
  exact ⟨by simp [x], by simp [x], by simp [x], by simp [x], by simp [x]⟩

/-- The year zero leaves nothing but a space, which the next reading drops. -/
theorem canonical_ne_of_yearZero :
    canonical "0000 Mo".toList = .ok " Mo".toList ∧ canonical " Mo".toList = .ok "Mo".toList := by
  decide +kernel

/-! ### What is kept of the rules -/

/-- The rules of a schedule are those of its field, and its text is theirs. -/
lemma ofField_eq_ok (hcheck : check field = .ok field) (hR : read field = .ok R)
    (ht : write R = .ok t) : Schedule.ofField field = .ok ⟨field, R, t, ht⟩ := by
  simp only [Schedule.ofField, hcheck, hR, bind, Except.bind]
  split
  · next h => cases ht.symm.trans h
  · next h =>
    obtain rfl := Except.ok.inj (ht.symm.trans h)
    rfl

/-- A schedule is always open or not whatever is left out of its text. -/
lemma isAlwaysOpen_map_written {a b : Schedule} (h : b.rules = a.rules.map .written) :
    b.isAlwaysOpen = a.isAlwaysOpen := by
  unfold Schedule.isAlwaysOpen
  rw [h]
  rcases a.rules with _ | ⟨x, _ | ⟨y, R⟩⟩ <;> rfl

/-- Where a field says something legible, its canonical text has as many rules. Each of them keeps its
state, whether it always applies, and the number of its times. -/
theorem exists_of_canonical (h : canonical field = .ok t) (hR : read field = .ok R)
    (hl : ∀ x ∈ R, x.Legible) :
    ∃ S, read t = .ok S ∧ List.Forall₂ Rule.Keeps R S ∧
      ∃ a b, Schedule.ofField field = .ok a ∧ Schedule.ofField t = .ok b ∧
        b.isAlwaysOpen = a.isAlwaysOpen := by
  have hread := read_canonical h hR hl
  have hcheck := (canonical_eq_ok_iff.mp h).1
  have hcheck' : check t = .ok t := by
    obtain ⟨hcanonical, rfl⟩ := exists_canonicalAll h hR hl
    exact (canonical_eq_ok_iff.mp (canonical_textAll hcanonical)).1
  refine ⟨R.map .written, hread, ?_, _, _, ofField_eq_ok hcheck hR (write_of_read hR),
    ofField_eq_ok hcheck' hread (write_of_read hread), isAlwaysOpen_map_written rfl⟩
  rw [List.forall₂_map_right_iff]
  exact List.forall₂_same.mpr fun x _ => ⟨rfl, rfl, rfl⟩

/-- Two rules are kept, and the first one is still closed. -/
theorem exists_of_canonical_publicHoliday :
    let days : DaySelector := { holidays := [{ plural := true, offset := 1 }] }
    let R : List Rule := [{ days, modifier := .closed, separator := [','] }, { always := true }]
    read "PH +1 day off, 24/7".toList = .ok R ∧
      ∃ S, read "PH closed, 24/7".toList = .ok S ∧ List.Forall₂ Rule.Keeps R S := by
  intro days R
  have hR : read "PH +1 day off, 24/7".toList = .ok R := by decide +kernel
  have hl : ∀ x ∈ R, x.Legible := by
    intro x hx
    simp only [R, List.mem_cons, List.not_mem_nil, or_false] at hx
    rcases hx with rfl | rfl
    all_goals exact ⟨by simp, by simp, by simp, by simp, by simp⟩
  obtain ⟨S, hS, hkeeps, -⟩ := exists_of_canonical (t := "PH closed, 24/7".toList)
    (by decide +kernel) hR hl
  exact ⟨hR, S, hS, hkeeps⟩

/-- An empty comment in place of a state leaves nothing, and the rule is one that is always open. -/
theorem isAlwaysOpen_ne_of_emptyComment :
    canonical "24/7 \"\"".toList = .ok "24/7".toList ∧
      (Schedule.ofField "24/7 \"\"".toList).map (·.isAlwaysOpen) = .ok false ∧
      (Schedule.ofField "24/7".toList).map (·.isAlwaysOpen) = .ok true := by
  decide +kernel

end Field

end OpeningTimes
