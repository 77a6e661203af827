import OpeningTimes.Proofs.Canonical.Times
import OpeningTimes.Proofs.Text.Padded
import OpeningTimes.Proofs.Text.Short
import OpeningTimes.Proofs.Time.Kinds

/-!
What the text of a moment says about its minutes.

A number of minutes is written without its sign, as digits or as hours and minutes, and only before or after
an event the sign is written as well. So texts of the same kind, about the same event, differ unless their
moments have the same minutes or, where no sign is written, the opposite ones.

* `Time.padded?_eq_twoDigits`: the numbers of a moment are never too great to be written;
* `Text.ClockDigits`: hours and minutes with a colon between them, and the minutes that they make up;
* `Text.ClockDigits.unique`: they make up one number only;
* `Time.Tells`: what a text says about minutes, for each kind of moment;
* `Time.Consistent.tells`: the text of a moment says how many minutes it has;
* `Time.text_eq_iff`: moments with the same text;
* `Time.text_tells_minutes`: these together, and the text of the opposite moment.
-/

namespace OpeningTimes

/-! ### Hours and minutes -/

lemma roundEven_le (num den : ℕ) : roundEven num den ≤ num + 1 := by
  have hdiv := Nat.div_le_self num den
  unfold roundEven
  dsimp only
  split <;> omega

/-- However the seconds are rounded, there are fewer minutes than microseconds and binary digits allow. -/
lemma Duration.natAbs_totalMinutes_lt (d : Duration) :
    d.totalMinutes.natAbs < 10 ^ (20 + Binary.maxShift) := by
  obtain ⟨shift, hshift, hseconds⟩ : ∃ shift ≤ Binary.maxShift,
      (Binary.nearest d.micros.natAbs 1000000).mantissa ≤ d.micros.natAbs * 2 ^ shift + 1 :=
    ⟨_, Nat.min_le_left _ _, roundEven_le _ _⟩
  have hmicros : d.micros.natAbs + 1 < 10 ^ 20 := by
    have hrange := d.inRange
    simp only [InRange, maxDays, microsPerDay] at hrange
    omega
  have hscale : 2 ^ shift ≤ 10 ^ Binary.maxShift :=
    (Nat.pow_le_pow_left (by decide) shift).trans (Nat.pow_le_pow_right (by decide) hshift)
  have hone : 1 ≤ 2 ^ shift := Nat.one_le_two_pow
  have htotal : d.totalMinutes.natAbs ≤ (Binary.nearest d.micros.natAbs 1000000).mantissa := by
    unfold totalMinutes
    dsimp only
    split
    · exact (Int.natAbs_ediv_le_natAbs _ _).trans_eq (by rw [Int.natAbs_neg, Int.natAbs_natCast])
    · exact (Int.natAbs_ediv_le_natAbs _ _).trans_eq (Int.natAbs_natCast _)
  calc d.totalMinutes.natAbs
      ≤ d.micros.natAbs * 2 ^ shift + 1 := htotal.trans hseconds
    _ ≤ (d.micros.natAbs + 1) * 2 ^ shift := by rw [Nat.add_mul, Nat.one_mul]; omega
    _ ≤ (d.micros.natAbs + 1) * 10 ^ Binary.maxShift := Nat.mul_le_mul_left _ hscale
    _ < 10 ^ 20 * 10 ^ Binary.maxShift := Nat.mul_lt_mul_of_pos_right hmicros (by positivity)
    _ = 10 ^ (20 + Binary.maxShift) := (pow_add _ _ _).symm

/-- The minutes of a moment are always written, and so are the hours that they make up and the minutes that
are left. -/
lemma Time.padded?_eq_twoDigits (t : Time) {n : ℤ} (hn : n.natAbs ≤ t.totalMinutes.natAbs) :
    Text.padded? n 2 = some (Text.twoDigits n) := by
  have hlt := hn.trans_lt t.duration.natAbs_totalMinutes_lt
  have hshort : Text.isShort n = true := Text.isShort_of_lt hlt (by decide)
  rw [Text.padded?_two, Text.whenShort_eq_some_iff]
  exact ⟨by simpa using hshort, rfl⟩

namespace Text

variable {k l : ℕ} {s : Text}

/-- Hours and minutes with a colon between them, which make up a number of minutes. The hours have two digits
or more, and the minutes have two digits and are less than sixty. -/
inductive ClockDigits (k : ℕ) (s : Text) : Prop where
  | parts {h m : Text} (hs : s = h ++ ':' :: m) (hh : IsDigits h) (hhours : 2 ≤ h.length)
    (hm : IsDigits m) (hminutes : m.length = 2) (hlt : number m < 60)
    (hsum : 60 * number h + number m = k) : ClockDigits k s

/-- At least two places are filled, and exactly two by what is less than a hundred. -/
lemma clockDigits_clockText (n : ℤ) : ClockDigits n.natAbs (Time.clockText n) := by
  refine .parts (Time.clockText_eq n) isDigits_digits.fill le_length_fill isDigits_digits.fill ?_ ?_ ?_
  · exact length_fill_two.mpr (by omega)
  · rw [number_fill]
    omega
  · rw [number_fill, number_fill]
    omega

/-- The last two digits are the minutes, so that a text makes up one number only. -/
lemma ClockDigits.unique (hk : ClockDigits k s) (hl : ClockDigits l s) : k = l := by
  obtain ⟨hs, -, -, -, hminutes, -, rfl⟩ := hk
  obtain ⟨hs', -, -, -, hminutes', -, rfl⟩ := hl
  obtain ⟨rfl, hrest⟩ := List.append_inj' (hs.symm.trans hs') (by simp [hminutes, hminutes'])
  obtain rfl := (List.cons.inj hrest).2
  rfl

end Text

namespace Time

open Text

variable {t u : Time} {n m : ℤ} {k : Kind} {e : Option Event} {s : Text}

/-! ### What a text says -/

/-- The sign of an offset. -/
def sign (n : ℤ) : Char :=
  if n < 0 then '-' else '+'

/-- What a text says about a number of minutes, for each kind of moment. -/
inductive Tells (event : Option Event) (n : ℤ) (s : Text) : Kind → Prop where
  | unset (hs : s = ['h', 'h', ':', 'm', 'm']) : Tells event n s .unset
  | minutes (hs : IsDigits s) (hlength : 2 ≤ s.length) (hnumber : number s = n.natAbs) :
    Tells event n s .minutes
  | clock (hs : ClockDigits n.natAbs s) : Tells event n s .clock
  | event {e : Event} (he : event = some e) (hs : s = e.name) : Tells event n s .event
  | offset {e : Event} {w : Text} (he : event = some e)
    (hs : s = '(' :: e.name ++ sign n :: (w ++ [')'])) (hw : ClockDigits n.natAbs w) :
    Tells event n s .eventOffset

/-- Moments of a kind have the same text with these two numbers of minutes. -/
def SameMinutes (k : Kind) (m n : ℤ) : Prop :=
  m = n ∨ k ≠ .eventOffset ∧ m = -n

lemma sign_eq_iff : sign m = sign n ↔ (m < 0 ↔ n < 0) := by
  by_cases hm : m < 0 <;> by_cases hn : n < 0 <;> simp [sign, hm, hn]

/-- The text of an offset. -/
lemma text_offset {d : Duration} (e : Event) (hn : d.IsMinutes n) :
    (ofEvent e (some d)).text = '(' :: e.name ++ sign n :: (clockText n ++ [')']) := by
  have hsign : signText n = [sign n] := by
    rw [signText, sign]
    split <;> rfl
  calc (ofEvent e (some d)).text
      = '(' :: e.name ++ signText d.totalMinutes ++ offsetText d.totalMinutes ++ [')'] := rfl
    _ = '(' :: e.name ++ [sign n] ++ clockText n ++ [')'] := by
        rw [Duration.totalMinutes_eq hn, hsign, offsetText_eq]
    _ = '(' :: e.name ++ sign n :: (clockText n ++ [')']) := by
        rw [List.append_assoc, ← List.append_cons]

/-- The text of a moment says how many minutes it has. -/
lemma Consistent.tells (ht : t.Consistent) (hn : t.duration.IsMinutes n) :
    Tells t.event n t.text t.kind := by
  have htotal : t.totalMinutes = n := Duration.totalMinutes_eq hn
  rcases t with ⟨kind, d, event⟩
  cases kind with
  | unset => exact .unset rfl
  | minutes =>
    have htext : Time.text ⟨.minutes, d, event⟩ = fill 2 (digits n.natAbs) := by
      rw [Time.text, htotal]
      exact padded_natCast
    refine .minutes ?_ ?_ ?_ <;> rw [htext]
    · exact isDigits_digits.fill
    · exact le_length_fill
    · exact number_fill
  | clock =>
    refine .clock ?_
    rw [Time.text, htotal]
    exact clockDigits_clockText n
  | event =>
    obtain ⟨e, rfl⟩ := Option.isSome_iff_exists.mp ht.1
    exact .event rfl rfl
  | eventOffset =>
    obtain ⟨e, rfl⟩ := Option.isSome_iff_exists.mp ht
    exact .offset rfl (text_offset e hn) (clockDigits_clockText n)

/-- What does not refer to the clock and has no offset has no minutes. -/
lemma Consistent.minutes_eq_zero (ht : t.Consistent) (hn : t.duration.IsMinutes n)
    (hkind : t.kind = .unset ∨ t.kind = .event) : n = 0 := by
  have hzero : t.duration = .zero := by
    rw [Consistent] at ht
    rcases hkind with hkind | hkind <;> rw [hkind] at ht
    · exact ht.1
    · exact ht.2
  rw [hzero, Duration.IsMinutes, Duration.microsPerMinute] at hn
  have hmicros : Duration.zero.micros = 0 := rfl
  omega

/-- One text says the same about two numbers of minutes, whose sign matters where it is written. -/
lemma Tells.sameMinutes (hm : Tells e m s k) (hn : Tells e n s k)
    (hzero : k = .unset ∨ k = .event → m = n) : SameMinutes k m n := by
  have habs : k ≠ .eventOffset → m.natAbs = n.natAbs → SameMinutes k m n := by
    intro hk habs
    rcases Int.natAbs_eq_natAbs_iff.mp habs with h | h
    · exact .inl h
    · exact .inr ⟨hk, h⟩
  cases hm with
  | unset _ => exact .inl (hzero (.inl rfl))
  | minutes _ _ hmnumber =>
    cases hn with
    | minutes _ _ hnumber => exact habs nofun (hmnumber.symm.trans hnumber)
  | clock hm =>
    cases hn with
    | clock hn => exact habs nofun (hm.unique hn)
  | event _ _ => exact .inl (hzero (.inr rfl))
  | offset he hs hw =>
    cases hn with
    | offset he' hs' hw' =>
      obtain rfl := Option.some.inj (he.symm.trans he')
      obtain ⟨hsign, hrest⟩ := List.cons.inj (List.append_cancel_left (hs.symm.trans hs'))
      obtain rfl := List.append_cancel_right hrest
      have habs := hw.unique hw'
      have hsign := sign_eq_iff.mp hsign
      exact .inl (by omega)

/-- Moments of the same kind, about the same event and with the same minutes have the same text. -/
lemma text_congr (hm : u.duration.IsMinutes m) (hn : t.duration.IsMinutes n) (hkind : u.kind = t.kind)
    (hevent : u.event = t.event) (h : SameMinutes t.kind m n) : u.text = t.text := by
  have hutotal : u.totalMinutes = m := Duration.totalMinutes_eq hm
  have htotal : t.totalMinutes = n := Duration.totalMinutes_eq hn
  rw [Time.text, Time.text, hutotal, htotal, hkind, hevent]
  rcases h with rfl | ⟨hoffset, rfl⟩
  · rfl
  · cases hk : t.kind with
    | eventOffset => exact absurd hk hoffset
    | minutes => simp only [Int.natAbs_neg]
    | clock => exact clockText_congr (Int.natAbs_neg n)
    | unset | event => rfl

/-- Moments of the same kind and about the same event have the same text if and only if they have the same
minutes or, where no sign is written, the opposite ones. -/
lemma text_eq_iff (hu : u.Consistent) (ht : t.Consistent) (hm : u.duration.IsMinutes m)
    (hn : t.duration.IsMinutes n) (hkind : u.kind = t.kind) (hevent : u.event = t.event) :
    u.text = t.text ↔ SameMinutes t.kind m n := by
  constructor
  · intro htext
    have htells : Tells t.event m t.text t.kind := by
      rw [← htext, ← hkind, ← hevent]
      exact hu.tells hm
    refine htells.sameMinutes (ht.tells hn) fun h => ?_
    rw [hu.minutes_eq_zero hm (hkind ▸ h), ht.minutes_eq_zero hn h]
  · exact text_congr hm hn hkind hevent

/-! ### The opposite moment -/

/-- The opposite moment has the opposite minutes. -/
lemma exists_neg? (hn : t.duration.IsMinutes n) (hrange : Duration.InRange (-t.duration.micros)) :
    ∃ d, t.neg? = some { t with duration := d } ∧ d.IsMinutes (-n) := by
  refine ⟨⟨_, hrange⟩, ?_, ?_⟩
  · rw [neg?, Duration.neg?, Duration.ofMicros?, dif_pos hrange, Option.map_some]
  · calc -t.duration.micros = -(n * Duration.microsPerMinute) := congrArg Neg.neg hn
      _ = -n * Duration.microsPerMinute := (neg_mul _ _).symm

/-- The opposite offset is written with the other sign. -/
lemma exists_text_offset {d : Duration} (hn : t.duration.IsMinutes n) (hd : d.IsMinutes (-n))
    (ht : t.Consistent) (hkind : t.kind = .eventOffset) :
    ∃ before after, t.text = before ++ sign n :: after ∧
      Time.text { t with duration := d } = before ++ sign (-n) :: after := by
  rcases t with ⟨kind, duration, event⟩
  obtain rfl : kind = .eventOffset := hkind
  obtain ⟨e, rfl⟩ := Option.isSome_iff_exists.mp ht
  refine ⟨'(' :: e.name, clockText n ++ [')'], text_offset e hn, ?_⟩
  rw [← clockText_congr (Int.natAbs_neg n)]
  exact text_offset e hd

/-- The text of a moment says how many minutes it has, and moments of the same kind and about the same event
have the same text if and only if the minutes that it says are the same. The opposite moment has another text
only if the sign is written and there is something that it is the sign of, and then nothing else is
different. -/
theorem text_tells_minutes (ht : t.Reachable) (hn : t.duration.IsMinutes n) :
    Tells t.event n t.text t.kind ∧
      (∀ (u : Time) (m : ℤ), u.Reachable → u.duration.IsMinutes m → u.kind = t.kind →
        u.event = t.event → (u.text = t.text ↔ SameMinutes t.kind m n)) ∧
      (Duration.InRange (-t.duration.micros) →
        ∃ u, t.neg? = some u ∧ (u.text ≠ t.text ↔ t.kind = .eventOffset ∧ n ≠ 0) ∧
          (t.kind = .eventOffset → ∃ before after,
            t.text = before ++ sign n :: after ∧ u.text = before ++ sign (-n) :: after)) := by
  have hconsistent : t.Consistent := ht.consistent
  refine ⟨hconsistent.tells hn, fun u m hu hm hkind hevent => ?_, fun hrange => ?_⟩
  · exact text_eq_iff hu.consistent hconsistent hm hn hkind hevent
  · obtain ⟨d, hneg, hd⟩ := exists_neg? hn hrange
    refine ⟨_, hneg, ?_, exists_text_offset hn hd hconsistent⟩
    have htext := text_eq_iff (hconsistent.neg hneg) hconsistent hd hn rfl rfl
    rw [ne_eq, htext, SameMinutes]
    by_cases hkind : t.kind = .eventOffset
    · simp only [hkind, ne_eq, not_true_eq_false, false_and, or_false, true_and]
      omega
    · simp [hkind]

/-- An hour and a half before sunrise. As much later than sunrise is another text. -/
theorem text_tells_minutes_sunrise :
    let t := ofEvent .sunrise (some ⟨-90 * Duration.microsPerMinute, by decide⟩)
    let u := ofEvent .sunrise (some ⟨90 * Duration.microsPerMinute, by decide⟩)
    t.Reachable ∧ t.duration.IsMinutes (-90) ∧ u.Reachable ∧ u.duration.IsMinutes 90 ∧
      u.kind = t.kind ∧ u.event = t.event ∧ Duration.InRange (-t.duration.micros) ∧
      t.text = "(sunrise-01:30)".toList ∧ Tells (some .sunrise) (-90) t.text .eventOffset ∧
      u.text ≠ t.text ∧ ∃ v, t.neg? = some v ∧ v.text ≠ t.text := by
  intro t u
  have ht : t.Reachable := reachable_offset .sunrise _
  have hu : u.Reachable := reachable_offset .sunrise _
  have hrange : Duration.InRange (-t.duration.micros) := by decide
  obtain ⟨htells, hsame, hneg⟩ := text_tells_minutes ht (n := -90) rfl
  obtain ⟨v, hv, hdiffers, -⟩ := hneg hrange
  refine ⟨ht, rfl, hu, rfl, rfl, rfl, hrange, by decide +kernel, htells, fun h => ?_,
    v, hv, hdiffers.mpr ⟨rfl, by decide⟩⟩
  rcases (hsame u 90 hu rfl rfl rfl).mp h with h | ⟨h, -⟩
  · exact absurd h (by decide)
  · exact h rfl

end Time

end OpeningTimes
