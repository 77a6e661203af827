import OpeningTimes.Grammar.Reading
import OpeningTimes.Proofs.Grammar.Derivation

/-!
Reading finds the derivations of a text.

* `Grammar.derives_of_mem_calls`: every reading is a derivation;
* `Phrase.guarded`: phrases that take something away before each call;
* `Grammar.mem_calls_of_derives`: every derivation is a reading, if the rules are guarded;
* `Grammar.Denotes`: a whole text is a phrase with a value;
* `Grammar.read?_eq_some_iff`, `Grammar.read?_eq_none_iff`: what the reader finds.
-/

namespace OpeningTimes

namespace Phrase

variable {τ ν ρ ε : Type}

/-- Whether a phrase takes something away from the text before each of its calls. -/
def guarded : {α : Type} → Phrase τ ν ρ ε α → Bool
  | _, .terminal _ => true
  | _, .call _ => false
  | _, .build _ g => g.guarded
  | _, .seq g h => g.guarded && (g.consumes || h.guarded)
  | _, .alt g h => g.guarded && h.guarded
  | _, .opt g => g.guarded
  | _, .many _ _ => true

end Phrase

namespace Grammar

variable {τ ν ρ ε : Type} {G : Grammar τ ν ρ ε} {α : Type}

/-! ### Readings are derivations -/

lemma derives_of_mem_manyReadings {mark : τ} {g : Phrase τ ν ρ ε α} {item : Text → Readings ε α}
    (hitem : ∀ {s v r}, (v, r) ∈ item s → G.Derives g s v r) {n : ℕ} {s r : Text}
    {v : Except ε (List α)} (h : (v, r) ∈ manyReadings (G.scan mark) item n s) :
    G.Derives (.many mark g) s v r := by
  induction n generalizing s r v with
  | zero =>
    simp only [manyReadings, List.mem_singleton, Prod.mk.injEq] at h
    obtain ⟨rfl, rfl⟩ := h
    exact .done
  | succ n ih =>
    rw [manyReadings, List.mem_append, List.mem_singleton] at h
    rcases h with h | h
    · cases hm : G.scan mark s with
      | none => simp [hm] at h
      | some wp =>
        obtain ⟨w, p⟩ := wp
        simp only [hm, List.mem_flatMap, List.mem_map, Prod.exists, Prod.mk.injEq] at h
        obtain ⟨a, q, hg, as, e, ht, rfl, rfl⟩ := h
        exact .more hm (hitem hg) (ih ht)
    · obtain ⟨rfl, rfl⟩ := Prod.mk.inj h
      exact .done

lemma derives_of_mem_readings {C : ν → Text → Readings ε ρ}
    (hC : ∀ {x s v r}, (v, r) ∈ C x s → G.Derives (.call x) s v r) {g : Phrase τ ν ρ ε α}
    {s r : Text} {v : Except ε α} (h : (v, r) ∈ G.readings C g s) : G.Derives g s v r := by
  induction g generalizing s r with
  | terminal t =>
    rw [readings] at h
    cases ht : G.scan t s with
    | none => simp [ht] at h
    | some wr =>
      simp only [ht, List.mem_singleton, Prod.mk.injEq] at h
      obtain ⟨rfl, rfl⟩ := h
      exact .terminal ht
  | call x => exact hC h
  | build f g ih =>
    simp only [readings, List.mem_map, Prod.exists, Prod.mk.injEq] at h
    obtain ⟨a, q, hg, rfl, rfl⟩ := h
    exact .build (ih hg)
  | seq g k ihg ihk =>
    simp only [readings, List.mem_flatMap, List.mem_map, Prod.exists, Prod.mk.injEq] at h
    obtain ⟨a, q, hg, b, e, hk, rfl, rfl⟩ := h
    exact .seq (ihg hg) (ihk hk)
  | alt g k ihg ihk =>
    rw [readings, List.mem_append] at h
    rcases h with h | h
    · exact .left (ihg h)
    · exact .right (ihk h)
  | opt g ih =>
    simp only [readings, List.mem_append, List.mem_map, Prod.exists, Prod.mk.injEq,
      List.mem_singleton] at h
    rcases h with ⟨a, q, hg, rfl, rfl⟩ | ⟨rfl, rfl⟩
    · exact .present (ih hg)
    · exact .absent
  | many mark g ih => exact derives_of_mem_manyReadings ih h

/-- Every reading of a call is a derivation. -/
theorem derives_of_mem_calls {n : ℕ} {x : ν} {s r : Text} {v : Except ε ρ}
    (h : (v, r) ∈ G.calls n x s) : G.Derives (.call x) s v r := by
  induction n generalizing x s r v with
  | zero => simp [calls] at h
  | succ n ih => exact .call (derives_of_mem_readings ih h)

/-! ### Derivations are readings -/

lemma mem_manyReadings_of_derives {mark : τ} {g : Phrase τ ν ρ ε α} {item : Text → Readings ε α}
    {n : ℕ} (hitem : ∀ {s v r}, s.length < n → G.Derives g s v r → (v, r) ∈ item s) {m : ℕ}
    {s r : Text} {v : Except ε (List α)} (hm : s.length ≤ m) (hn : s.length ≤ n)
    (h : G.Derives (.many mark g) s v r) : (v, r) ∈ manyReadings (G.scan mark) item m s := by
  induction m generalizing s r v with
  | zero =>
    rcases derives_many.mp h with ⟨rfl, rfl⟩ | ⟨w, p, a, q, as, hw, -⟩
    · simp [manyReadings]
    · have := G.scan_shorter hw
      omega
  | succ m ih =>
    rw [manyReadings, List.mem_append, List.mem_singleton]
    rcases derives_many.mp h with ⟨rfl, rfl⟩ | ⟨w, p, a, q, as, hw, hg, ht, rfl⟩
    · exact Or.inr rfl
    · left
      have hp := G.scan_shorter hw
      have hq := hg.length_le
      simp only [hw, List.mem_flatMap, List.mem_map, Prod.exists, Prod.mk.injEq]
      exact ⟨a, q, hitem (by omega) hg, as, r, ih (by omega) (by omega) ht, rfl, rfl⟩

/-- A derivation is a reading if the calls in texts below some length are. A guarded phrase makes no
call before the text is shorter, so its own text may have that length. -/
lemma mem_readings_of_derives {C : ν → Text → Readings ε ρ} {n : ℕ}
    (hC : ∀ {x s v r}, s.length < n → G.Derives (.call x) s v r → (v, r) ∈ C x s)
    {g : Phrase τ ν ρ ε α} {s r : Text} {v : Except ε α} (h : G.Derives g s v r)
    (hn : s.length < n ∨ g.guarded = true ∧ s.length ≤ n) : (v, r) ∈ G.readings C g s := by
  induction g generalizing s r with
  | terminal t =>
    obtain ⟨w, ht, rfl⟩ := derives_terminal.mp h
    simp [readings, ht]
  | call x =>
    rcases hn with hn | ⟨hn, -⟩
    · exact hC hn h
    · exact absurd hn (by simp [Phrase.guarded])
  | build f g ih =>
    obtain ⟨a, hg, rfl⟩ := derives_build.mp h
    exact List.mem_map.mpr ⟨(a, r), ih hg hn, rfl⟩
  | seq g k ihg ihk =>
    obtain ⟨a, q, b, hg, hk, rfl⟩ := derives_seq.mp h
    refine List.mem_flatMap.mpr ⟨(a, q), ihg hg ?_, List.mem_map.mpr ⟨(b, r), ihk hk ?_, rfl⟩⟩
    -- after a phrase that takes something away the second one need not be guarded
    · rcases hn with hn | ⟨hn, hl⟩
      · exact Or.inl hn
      · simp only [Phrase.guarded, Bool.and_eq_true] at hn
        exact Or.inr ⟨hn.1, hl⟩
    · rcases hn with hn | ⟨hn, hl⟩
      · exact Or.inl (hg.length_le.trans_lt hn)
      · simp only [Phrase.guarded, Bool.and_eq_true, Bool.or_eq_true] at hn
        rcases hn.2 with hc | hk'
        · exact Or.inl ((hg.length_lt hc).trans_le hl)
        · exact Or.inr ⟨hk', hg.length_le.trans hl⟩
  | alt g k ihg ihk =>
    have hn' : (s.length < n ∨ g.guarded = true ∧ s.length ≤ n) ∧
        (s.length < n ∨ k.guarded = true ∧ s.length ≤ n) := by
      simp only [Phrase.guarded, Bool.and_eq_true] at hn
      tauto
    rcases derives_alt.mp h with h | h
    · exact List.mem_append_left _ (ihg h hn'.1)
    · exact List.mem_append_right _ (ihk h hn'.2)
  | opt g ih =>
    rcases derives_opt.mp h with ⟨a, hg, rfl⟩ | ⟨rfl, rfl⟩
    · exact List.mem_append_left _ (List.mem_map.mpr ⟨(a, r), ih hg hn, rfl⟩)
    · exact List.mem_append_right _ (List.mem_singleton.mpr rfl)
  | many mark g ih =>
    have hl : s.length ≤ n := hn.elim le_of_lt And.right
    exact mem_manyReadings_of_derives (fun hs hg => ih hg (Or.inl hs)) le_rfl hl h

/-- Every derivation of a call is a reading, once the depth of calls exceeds the length of the text
and all rules are guarded. -/
theorem mem_calls_of_derives (hG : ∀ x, (G.rule x).guarded = true) {n : ℕ} {x : ν} {s r : Text}
    {v : Except ε ρ} (hn : s.length < n) (h : G.Derives (.call x) s v r) :
    (v, r) ∈ G.calls n x s := by
  induction n generalizing x s r v with
  | zero => omega
  | succ n ih =>
    exact mem_readings_of_derives ih (derives_call.mp h) (Or.inr ⟨hG x, Nat.le_of_lt_succ hn⟩)

/-! ### Whole texts -/

/-- A whole text, blanks at its end apart, is a nonterminal with a value. -/
def Denotes (G : Grammar τ ν ρ ε) (x : ν) (s : Text) (v : Except ε ρ) : Prop :=
  ∃ r, G.Derives (.call x) s v r ∧ r.all Text.isBlank = true

/-- What the reader finds is a value of the text. -/
theorem denotes_of_read? {x : ν} {s : Text} {v : Except ε ρ} (h : G.read? x s = some v) :
    G.Denotes x s v := by
  obtain ⟨⟨w, r⟩, hf, rfl⟩ := Option.map_eq_some_iff.mp h
  exact ⟨r, derives_of_mem_calls (List.mem_of_find?_eq_some hf),
    by simpa using List.find?_some hf⟩

/-- The reader finds nothing if and only if the text has no value. -/
theorem read?_eq_none_iff (hG : ∀ x, (G.rule x).guarded = true) {x : ν} {s : Text} :
    G.read? x s = none ↔ ∀ v, ¬ G.Denotes x s v := by
  constructor
  · rintro h v ⟨r, hd, hr⟩
    rw [read?, Option.map_eq_none_iff, List.find?_eq_none] at h
    exact h (v, r) (mem_calls_of_derives hG (Nat.lt_succ_self _) hd) hr
  · intro h
    cases hf : G.read? x s with
    | none => rfl
    | some v => exact absurd (denotes_of_read? hf) (h v)

/-- If a text has no two values, the reader finds the one that it has. -/
theorem read?_eq_some_iff (hG : ∀ x, (G.rule x).guarded = true) {x : ν} {s : Text}
    (hu : ∀ v w, G.Denotes x s v → G.Denotes x s w → v = w) {v : Except ε ρ} :
    G.read? x s = some v ↔ G.Denotes x s v := by
  refine ⟨denotes_of_read?, fun h => ?_⟩
  cases hf : G.read? x s with
  | none => exact absurd h ((read?_eq_none_iff hG).mp hf v)
  | some w => rw [hu w v (denotes_of_read? hf) h]

end Grammar

end OpeningTimes
