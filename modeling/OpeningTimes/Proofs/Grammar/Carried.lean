import OpeningTimes.Proofs.Grammar.Derivation

/-!
What is read from a text in the place of another one.

* `Grammar.Carries`: from related texts a phrase is read with related values, and related texts are left;
* `Grammar.Steady`: the same where the values do not change;
* `Grammar.Carries.seq`, `Grammar.Steady.alt` and their companions: what a phrase inherits from its
  parts.

Related texts have related terminals. A value that does not tell such terminals apart is the same for
both texts.
-/

namespace OpeningTimes.Grammar

variable {τ ν ρ ε : Type} {G : Grammar τ ν ρ ε} {α β : Type} {T : Text → Text → Prop}
  {R : α → α → Prop} {S : β → β → Prop}

/-- If a phrase is read from a text, it is read from every related text. The values are related, and so
is what is left. -/
def Carries (G : Grammar τ ν ρ ε) (T : Text → Text → Prop) (R : α → α → Prop)
    (g : Phrase τ ν ρ ε α) : Prop :=
  ∀ ⦃s s' r : Text⦄ ⦃a : α⦄, T s s' → G.Derives g s (.ok a) r →
    ∃ b r', G.Derives g s' (.ok b) r' ∧ R a b ∧ T r r'

/-- If a phrase is read from a text, it is read from every related text with the same value, and what is
left is related. -/
abbrev Steady (G : Grammar τ ν ρ ε) (T : Text → Text → Prop) (g : Phrase τ ν ρ ε α) : Prop :=
  G.Carries T Eq g

namespace Carries

lemma seq {g : Phrase τ ν ρ ε α} {h : Phrase τ ν ρ ε β} (hg : G.Carries T R g)
    (hh : G.Carries T S h) :
    G.Carries T (fun x y => R x.1 y.1 ∧ S x.2 y.2) (.seq g h) := by
  rintro s s' r ⟨a, b⟩ hT hd
  obtain ⟨q, ha, hb⟩ := derives_seq_ok.mp hd
  obtain ⟨a', q', ha', hR, hT⟩ := hg hT ha
  obtain ⟨b', r', hb', hS, hT⟩ := hh hT hb
  exact ⟨(a', b'), r', derives_seq_ok.mpr ⟨q', ha', hb'⟩, ⟨hR, hS⟩, hT⟩

/-- A value that does not tell related values apart does not change. -/
lemma build {f : α → Except ε β} {g : Phrase τ ν ρ ε α} (hg : G.Carries T R g)
    (hf : ∀ a b c, R a b → f a = .ok c → f b = .ok c) : G.Steady T (.build f g) := by
  intro s s' r c hT hd
  obtain ⟨a, ha, hc⟩ := derives_build_ok.mp hd
  obtain ⟨b, r', hb, hR, hT⟩ := hg hT ha
  exact ⟨c, r', derives_build_ok.mpr ⟨b, hb, hf a b c hR hc⟩, rfl, hT⟩

lemma map {f : α → β} {g : Phrase τ ν ρ ε α} (hg : G.Carries T R g)
    (hf : ∀ a b, R a b → f b = f a) : G.Steady T (.map f g) :=
  hg.build fun a b _ hR hc => by rw [hf a b hR, hc]

/-- The text of a mark does not matter after it. -/
lemma after {t : τ} {A : Text → Text → Prop} {h : Phrase τ ν ρ ε β} (ht : G.Carries T A (.terminal t))
    (hh : G.Steady T h) : G.Steady T (.after t h) :=
  (ht.seq hh).map fun _ _ h => h.2.symm

/-- Nor does it before it. -/
lemma before {t : τ} {A : Text → Text → Prop} {h : Phrase τ ν ρ ε β} (ht : G.Carries T A (.terminal t))
    (hh : G.Steady T h) : G.Steady T (.before h t) :=
  (hh.seq ht).map fun _ _ h => h.1.symm

end Carries

namespace Steady

lemma build {g : Phrase τ ν ρ ε α} (hg : G.Steady T g) (f : α → Except ε β) :
    G.Steady T (.build f g) :=
  Carries.build hg fun _ _ _ h hc => h ▸ hc

lemma seq {g : Phrase τ ν ρ ε α} {h : Phrase τ ν ρ ε β} (hg : G.Steady T g) (hh : G.Steady T h) :
    G.Steady T (.seq g h) := by
  intro s s' r a hT hd
  obtain ⟨b, r', hd', ⟨h1, h2⟩, hT⟩ := Carries.seq hg hh hT hd
  exact ⟨b, r', hd', Prod.ext h1 h2, hT⟩

lemma alt {g h : Phrase τ ν ρ ε α} (hg : G.Steady T g) (hh : G.Steady T h) :
    G.Steady T (.alt g h) := by
  intro s s' r a hT hd
  rcases derives_alt.mp hd with hd | hd
  · obtain ⟨b, r', hd', hb, hT⟩ := hg hT hd
    exact ⟨b, r', .left hd', hb, hT⟩
  · obtain ⟨b, r', hd', hb, hT⟩ := hh hT hd
    exact ⟨b, r', .right hd', hb, hT⟩

lemma opt {g : Phrase τ ν ρ ε α} (hg : G.Steady T g) : G.Steady T (.opt g) := by
  intro s s' r a hT hd
  cases a with
  | none =>
    obtain rfl := derives_opt_none.mp hd
    exact ⟨none, s', .absent, rfl, hT⟩
  | some a =>
    obtain ⟨b, r', hd', rfl, hT⟩ := hg hT (derives_opt_some.mp hd)
    exact ⟨some a, r', derives_opt_some.mpr hd', rfl, hT⟩

lemma many {mark : τ} {A : Text → Text → Prop} {g : Phrase τ ν ρ ε α}
    (hm : G.Carries T A (.terminal mark)) (hg : G.Steady T g) : G.Steady T (.many mark g) := by
  intro s s' r as hT hd
  induction as generalizing s s' with
  | nil =>
    obtain rfl := derives_many_nil.mp hd
    exact ⟨[], s', .done, rfl, hT⟩
  | cons a as ih =>
    obtain ⟨w, p, q, hw, ha, has⟩ := derives_many_cons.mp hd
    obtain ⟨w', p', hw', -, hT⟩ := hm hT (.terminal hw)
    obtain ⟨_, q', ha', rfl, hT⟩ := hg hT ha
    obtain ⟨_, r', has', rfl, hT⟩ := ih hT has
    obtain ⟨u, hscan, hu⟩ := derives_terminal.mp hw'
    exact ⟨a :: as, r', derives_many_cons.mpr ⟨u, p', q', hscan, ha', has'⟩, rfl, hT⟩

lemma list {mark : τ} {A : Text → Text → Prop} {g : Phrase τ ν ρ ε α}
    (hm : G.Carries T A (.terminal mark)) (hg : G.Steady T g) : G.Steady T (.list mark g) :=
  (hg.seq (hg.many hm)).build _

end Steady

end OpeningTimes.Grammar
