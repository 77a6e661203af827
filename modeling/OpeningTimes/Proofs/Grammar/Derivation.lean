import OpeningTimes.Grammar
import Mathlib.Tactic

/-!
Derivations taken apart.

* `Grammar.Ending`, `Grammar.derives_iff_ending`: how a derivation of each form of phrase ends, and
  that it does;
* `Grammar.derives_seq` and its companions: the same, form by form;
* `Grammar.derives_seq_ok` and its companions: the same for derivations whose value is no error;
* `Grammar.Derives.kept`: what terminals leave true of the text;
* `Phrase.consumes`, `Grammar.Derives.length_lt`: phrases that take something away from the text.
-/

namespace OpeningTimes

namespace Phrase

variable {τ ν ρ ε : Type}

/-- Whether a phrase has a terminal in every one of its forms. -/
def consumes : {α : Type} → Phrase τ ν ρ ε α → Bool
  | _, .terminal _ => true
  | _, .call _ => false
  | _, .build _ g => g.consumes
  | _, .seq g h => g.consumes || h.consumes
  | _, .alt g h => g.consumes && h.consumes
  | _, .opt _ => false
  | _, .many _ _ => false

end Phrase

namespace Grammar

variable {τ ν ρ ε : Type} {G : Grammar τ ν ρ ε} {α β : Type}

/-! ### How a derivation ends -/

/-- What a derivation of a phrase is made of. -/
def Ending (G : Grammar τ ν ρ ε) :
    {α : Type} → Phrase τ ν ρ ε α → Text → Except ε α → Text → Prop
  | _, .terminal t, s, v, r => ∃ w, G.scan t s = some (w, r) ∧ v = .ok w
  | _, .call x, s, v, r => G.Derives (G.rule x) s v r
  | _, .build f g, s, v, r => ∃ a, G.Derives g s a r ∧ v = a.bind f
  | _, .seq g h, s, v, r =>
    ∃ a q b, G.Derives g s a q ∧ G.Derives h q b r ∧ v = Value.both a b
  | _, .alt g h, s, v, r => G.Derives g s v r ∨ G.Derives h s v r
  | _, .opt g, s, v, r => (∃ a, G.Derives g s a r ∧ v = a.map some) ∨ (v = .ok none ∧ r = s)
  | _, .many mark g, s, v, r =>
    (v = .ok [] ∧ r = s) ∨
      ∃ w p a q as, G.scan mark s = some (w, p) ∧ G.Derives g p a q ∧
        G.Derives (.many mark g) q as r ∧ v = Value.cons a as

/-- Every derivation ends as the form of its phrase says. -/
theorem derives_iff_ending {g : Phrase τ ν ρ ε α} {s r : Text} {v : Except ε α} :
    G.Derives g s v r ↔ G.Ending g s v r := by
  constructor
  · intro h
    cases h with
    | terminal h => exact ⟨_, h, rfl⟩
    | call h => exact h
    | build h => exact ⟨_, h, rfl⟩
    | seq hg hh => exact ⟨_, _, _, hg, hh, rfl⟩
    | left hg => exact Or.inl hg
    | right hh => exact Or.inr hh
    | present hg => exact Or.inl ⟨_, hg, rfl⟩
    | absent => exact Or.inr ⟨rfl, rfl⟩
    | done => exact Or.inl ⟨rfl, rfl⟩
    | more hm hg ht => exact Or.inr ⟨_, _, _, _, _, hm, hg, ht, rfl⟩
  · intro h
    cases g with
    | terminal t =>
      obtain ⟨w, h, rfl⟩ := h
      exact .terminal h
    | call x => exact .call h
    | build f g =>
      obtain ⟨a, h, rfl⟩ := h
      exact .build h
    | seq g k =>
      obtain ⟨a, q, b, hg, hk, rfl⟩ := h
      exact .seq hg hk
    | alt g k =>
      rcases h with h | h
      · exact .left h
      · exact .right h
    | opt g =>
      rcases h with ⟨a, h, rfl⟩ | ⟨rfl, rfl⟩
      · exact .present h
      · exact .absent
    | many mark g =>
      rcases h with ⟨rfl, rfl⟩ | ⟨w, p, a, q, as, hm, hg, ht, rfl⟩
      · exact .done
      · exact .more hm hg ht

section Forms

variable {s r : Text}

lemma derives_terminal {t : τ} {v : Except ε Text} :
    G.Derives (.terminal t) s v r ↔ ∃ w, G.scan t s = some (w, r) ∧ v = .ok w :=
  derives_iff_ending

lemma derives_call {x : ν} {v : Except ε ρ} :
    G.Derives (.call x) s v r ↔ G.Derives (G.rule x) s v r :=
  derives_iff_ending

lemma derives_build {f : α → Except ε β} {g : Phrase τ ν ρ ε α} {v : Except ε β} :
    G.Derives (.build f g) s v r ↔ ∃ a, G.Derives g s a r ∧ v = a.bind f :=
  derives_iff_ending

lemma derives_seq {g : Phrase τ ν ρ ε α} {h : Phrase τ ν ρ ε β} {v : Except ε (α × β)} :
    G.Derives (.seq g h) s v r ↔
      ∃ a q b, G.Derives g s a q ∧ G.Derives h q b r ∧ v = Value.both a b :=
  derives_iff_ending

lemma derives_alt {g h : Phrase τ ν ρ ε α} {v : Except ε α} :
    G.Derives (.alt g h) s v r ↔ G.Derives g s v r ∨ G.Derives h s v r :=
  derives_iff_ending

lemma derives_opt {g : Phrase τ ν ρ ε α} {v : Except ε (Option α)} :
    G.Derives (.opt g) s v r ↔
      (∃ a, G.Derives g s a r ∧ v = a.map some) ∨ (v = .ok none ∧ r = s) :=
  derives_iff_ending

lemma derives_many {mark : τ} {g : Phrase τ ν ρ ε α} {v : Except ε (List α)} :
    G.Derives (.many mark g) s v r ↔
      (v = .ok [] ∧ r = s) ∨
        ∃ w p a q as, G.scan mark s = some (w, p) ∧ G.Derives g p a q ∧
          G.Derives (.many mark g) q as r ∧ v = Value.cons a as :=
  derives_iff_ending

end Forms

/-! ### Derivations with a value -/

section Values

variable {s r : Text}

lemma derives_build_ok {f : α → Except ε β} {g : Phrase τ ν ρ ε α} {b : β} :
    G.Derives (.build f g) s (.ok b) r ↔ ∃ a, G.Derives g s (.ok a) r ∧ f a = .ok b := by
  rw [derives_build]
  constructor
  · rintro ⟨v, h, hb⟩
    cases v with
    | error e => cases hb
    | ok a => exact ⟨a, h, hb.symm⟩
  · rintro ⟨a, h, hb⟩
    exact ⟨_, h, hb.symm⟩

lemma derives_map_ok {f : α → β} {g : Phrase τ ν ρ ε α} {b : β} :
    G.Derives (.map f g) s (.ok b) r ↔ ∃ a, G.Derives g s (.ok a) r ∧ f a = b := by
  simp only [derives_build_ok, Except.ok.injEq]

lemma derives_seq_ok {g : Phrase τ ν ρ ε α} {h : Phrase τ ν ρ ε β} {a : α} {b : β} :
    G.Derives (.seq g h) s (.ok (a, b)) r ↔
      ∃ q, G.Derives g s (.ok a) q ∧ G.Derives h q (.ok b) r := by
  rw [derives_seq]
  constructor
  · rintro ⟨v, q, w, hg, hh, he⟩
    cases v with
    | error e => cases he
    | ok a' =>
      cases w with
      | error e => cases he
      | ok b' =>
        obtain ⟨rfl, rfl⟩ := Prod.mk.inj (Except.ok.inj he)
        exact ⟨q, hg, hh⟩
  · rintro ⟨q, hg, hh⟩
    exact ⟨_, q, _, hg, hh, rfl⟩

lemma derives_opt_some {g : Phrase τ ν ρ ε α} {a : α} :
    G.Derives (.opt g) s (.ok (some a)) r ↔ G.Derives g s (.ok a) r := by
  rw [derives_opt]
  constructor
  · rintro (⟨v, h, he⟩ | ⟨he, -⟩)
    · cases v with
      | error e => cases he
      | ok b =>
        obtain rfl := Option.some.inj (Except.ok.inj he)
        exact h
    · cases he
  · exact fun h => Or.inl ⟨_, h, rfl⟩

lemma derives_opt_none {g : Phrase τ ν ρ ε α} :
    G.Derives (.opt g) s (.ok none) r ↔ r = s := by
  rw [derives_opt]
  constructor
  · rintro (⟨v, -, he⟩ | ⟨-, rfl⟩)
    · cases v <;> cases he
    · rfl
  · exact fun h => Or.inr ⟨rfl, h⟩

lemma derives_many_nil {mark : τ} {g : Phrase τ ν ρ ε α} :
    G.Derives (.many mark g) s (.ok []) r ↔ r = s := by
  rw [derives_many]
  constructor
  · rintro (⟨-, rfl⟩ | ⟨w, p, v, q, vs, -, -, -, he⟩)
    · rfl
    · cases v with
      | error e => cases he
      | ok a => cases vs <;> cases he
  · exact fun h => Or.inl ⟨rfl, h⟩

lemma derives_many_cons {mark : τ} {g : Phrase τ ν ρ ε α} {a : α} {as : List α} :
    G.Derives (.many mark g) s (.ok (a :: as)) r ↔
      ∃ w p q, G.scan mark s = some (w, p) ∧ G.Derives g p (.ok a) q ∧
        G.Derives (.many mark g) q (.ok as) r := by
  rw [derives_many]
  constructor
  · rintro (⟨he, -⟩ | ⟨w, p, v, q, vs, hm, hg, ht, he⟩)
    · cases he
    · cases v with
      | error e => cases he
      | ok b =>
        cases vs with
        | error e => cases he
        | ok bs =>
          obtain ⟨rfl, rfl⟩ := List.cons.inj (Except.ok.inj he)
          exact ⟨w, p, q, hm, hg, ht⟩
  · rintro ⟨w, p, q, hm, hg, ht⟩
    exact Or.inr ⟨w, p, _, q, _, hm, hg, ht, rfl⟩

end Values

/-! ### What a derivation leaves of the text -/

/-- What every terminal leaves true of the text, every derivation leaves true of it. -/
theorem Derives.kept {T : Text → Prop} (hT : ∀ t s w r, T s → G.scan t s = some (w, r) → T r)
    {g : Phrase τ ν ρ ε α} {s r : Text} {v : Except ε α} (h : G.Derives g s v r) (hs : T s) : T r := by
  induction h with
  | terminal h => exact hT _ _ _ _ hs h
  | call _ ih | build _ ih | left _ ih | right _ ih | present _ ih => exact ih hs
  | seq _ _ ihg ihh => exact ihh (ihg hs)
  | absent | done => exact hs
  | more hm _ _ ihg iht => exact iht (ihg (hT _ _ _ _ hs hm))

/-- A derivation never lengthens the text. -/
theorem Derives.length_le {g : Phrase τ ν ρ ε α} {s r : Text} {v : Except ε α}
    (h : G.Derives g s v r) : r.length ≤ s.length :=
  h.kept (T := fun q => q.length ≤ s.length) (fun _ _ _ _ hq h => (G.scan_shorter h).le.trans hq)
    le_rfl

/-- A phrase with a terminal in every form shortens the text. -/
theorem Derives.length_lt {g : Phrase τ ν ρ ε α} {s r : Text} {v : Except ε α}
    (h : G.Derives g s v r) (hg : g.consumes = true) : r.length < s.length := by
  induction h with
  | terminal h => exact G.scan_shorter h
  | call _ => exact absurd hg (by simp [Phrase.consumes])
  | build _ ih => exact ih hg
  | seq hg' hh' ihg ihh =>
    simp only [Phrase.consumes, Bool.or_eq_true] at hg
    rcases hg with hg | hg
    · exact hh'.length_le.trans_lt (ihg hg)
    · exact (ihh hg).trans_le hg'.length_le
  | left _ ih =>
    simp only [Phrase.consumes, Bool.and_eq_true] at hg
    exact ih hg.1
  | right _ ih =>
    simp only [Phrase.consumes, Bool.and_eq_true] at hg
    exact ih hg.2
  | present | absent | done | more => exact absurd hg (by simp [Phrase.consumes])

end Grammar

end OpeningTimes
