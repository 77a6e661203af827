import OpeningTimes.Proofs.Grammar.Derivation

/-!
Phrases that can be read in one way only, as far as what follows them tells.

* `Grammar.Begins`: a text begins with a phrase after which a condition holds;
* `Grammar.Decisive`: all derivations of a phrase after which a condition holds agree;
* `Decisive.seq`, `Decisive.alt`, `Decisive.opt`, `Decisive.many`: how such phrases are put together;
* `Decisive.not_begins`: two phrases with a common beginning that go on differently.
-/

namespace OpeningTimes

namespace Grammar

variable {τ ν ρ ε : Type} {G : Grammar τ ν ρ ε} {α β : Type} {P Q : Text → Prop}

/-- A text begins with a phrase, and a condition holds for the rest. -/
def Begins (G : Grammar τ ν ρ ε) {α : Type} (g : Phrase τ ν ρ ε α) (P : Text → Prop) (s : Text) :
    Prop :=
  ∃ v r, G.Derives g s v r ∧ P r

/-- All derivations of a phrase in a text agree that leave a rest for which a condition holds. -/
def Decisive (G : Grammar τ ν ρ ε) {α : Type} (g : Phrase τ ν ρ ε α) (P : Text → Prop) : Prop :=
  ∀ ⦃s v r w q⦄, G.Derives g s v r → P r → G.Derives g s w q → P q → v = w ∧ r = q

/-! ### Beginnings, form by form -/

section Forms

variable {s : Text}

lemma Begins.mono {g : Phrase τ ν ρ ε α} (h : G.Begins g P s) (hPQ : ∀ r, P r → Q r) :
    G.Begins g Q s := by
  obtain ⟨v, r, hd, hr⟩ := h
  exact ⟨v, r, hd, hPQ r hr⟩

lemma begins_terminal {t : τ} :
    G.Begins (.terminal t) P s ↔ ∃ w r, G.scan t s = some (w, r) ∧ P r := by
  constructor
  · rintro ⟨v, r, hd, hr⟩
    obtain ⟨w, ht, rfl⟩ := derives_terminal.mp hd
    exact ⟨w, r, ht, hr⟩
  · rintro ⟨w, r, ht, hr⟩
    exact ⟨_, r, .terminal ht, hr⟩

lemma begins_build {f : α → Except ε β} {g : Phrase τ ν ρ ε α} :
    G.Begins (.build f g) P = G.Begins g P := by
  funext s
  refine propext ⟨?_, ?_⟩
  · rintro ⟨v, r, hd, hr⟩
    obtain ⟨a, hg, rfl⟩ := derives_build.mp hd
    exact ⟨a, r, hg, hr⟩
  · rintro ⟨v, r, hd, hr⟩
    exact ⟨_, r, .build hd, hr⟩

lemma begins_seq {g : Phrase τ ν ρ ε α} {h : Phrase τ ν ρ ε β} :
    G.Begins (.seq g h) P = G.Begins g (G.Begins h P) := by
  funext s
  refine propext ⟨?_, ?_⟩
  · rintro ⟨v, r, hd, hr⟩
    obtain ⟨a, q, b, hg, hh, rfl⟩ := derives_seq.mp hd
    exact ⟨a, q, hg, b, r, hh, hr⟩
  · rintro ⟨a, q, hg, b, r, hh, hr⟩
    exact ⟨_, r, .seq hg hh, hr⟩

lemma begins_alt {g h : Phrase τ ν ρ ε α} :
    G.Begins (.alt g h) P s ↔ G.Begins g P s ∨ G.Begins h P s := by
  constructor
  · rintro ⟨v, r, hd, hr⟩
    rcases derives_alt.mp hd with hd | hd
    · exact Or.inl ⟨v, r, hd, hr⟩
    · exact Or.inr ⟨v, r, hd, hr⟩
  · rintro (⟨v, r, hd, hr⟩ | ⟨v, r, hd, hr⟩)
    · exact ⟨v, r, .left hd, hr⟩
    · exact ⟨v, r, .right hd, hr⟩

lemma begins_opt {g : Phrase τ ν ρ ε α} : G.Begins (.opt g) P s ↔ G.Begins g P s ∨ P s := by
  constructor
  · rintro ⟨v, r, hd, hr⟩
    rcases derives_opt.mp hd with ⟨a, hg, rfl⟩ | ⟨rfl, rfl⟩
    · exact Or.inl ⟨a, r, hg, hr⟩
    · exact Or.inr hr
  · rintro (⟨v, r, hd, hr⟩ | hs)
    · exact ⟨_, r, .present hd, hr⟩
    · exact ⟨_, s, .absent, hs⟩

lemma begins_many {mark : τ} {g : Phrase τ ν ρ ε α} :
    G.Begins (.many mark g) P s ↔
      P s ∨ ∃ w r, G.scan mark s = some (w, r) ∧ G.Begins g (G.Begins (.many mark g) P) r := by
  constructor
  · rintro ⟨v, r, hd, hr⟩
    rcases derives_many.mp hd with ⟨rfl, rfl⟩ | ⟨w, p, a, q, as, hm, hg, ht, rfl⟩
    · exact Or.inl hr
    · exact Or.inr ⟨w, p, hm, a, q, hg, as, r, ht, hr⟩
  · rintro (hs | ⟨w, p, hm, a, q, hg, as, r, ht, hr⟩)
    · exact ⟨_, s, .done, hs⟩
    · exact ⟨_, r, .more hm hg ht, hr⟩

end Forms

/-! ### Decisive phrases, form by form -/

namespace Decisive

lemma mono {g : Phrase τ ν ρ ε α} (h : G.Decisive g Q) (hPQ : ∀ r, P r → Q r) :
    G.Decisive g P := by
  intro s v r w q hd hr hd' hq
  exact h hd (hPQ r hr) hd' (hPQ q hq)

lemma terminal (t : τ) : G.Decisive (.terminal t) P := by
  intro s v r w q hd _ hd' _
  obtain ⟨a, ha, rfl⟩ := derives_terminal.mp hd
  obtain ⟨b, hb, rfl⟩ := derives_terminal.mp hd'
  obtain ⟨rfl, rfl⟩ := Prod.mk.inj (Option.some.inj (ha.symm.trans hb))
  exact ⟨rfl, rfl⟩

lemma build {g : Phrase τ ν ρ ε α} (h : G.Decisive g P) (f : α → Except ε β) :
    G.Decisive (.build f g) P := by
  intro s v r w q hd hr hd' hq
  obtain ⟨a, ha, rfl⟩ := derives_build.mp hd
  obtain ⟨b, hb, rfl⟩ := derives_build.mp hd'
  obtain ⟨rfl, rfl⟩ := h ha hr hb hq
  exact ⟨rfl, rfl⟩

/-- The second phrase says how far the first one goes. -/
lemma seq {g : Phrase τ ν ρ ε α} {h : Phrase τ ν ρ ε β} (hg : G.Decisive g (G.Begins h P))
    (hh : G.Decisive h P) : G.Decisive (.seq g h) P := by
  intro s v r w q hd hr hd' hq
  obtain ⟨a, p, b, ha, hb, rfl⟩ := derives_seq.mp hd
  obtain ⟨a', p', b', ha', hb', rfl⟩ := derives_seq.mp hd'
  obtain ⟨rfl, rfl⟩ := hg ha ⟨b, r, hb, hr⟩ ha' ⟨b', q, hb', hq⟩
  obtain ⟨rfl, rfl⟩ := hh hb hr hb' hq
  exact ⟨rfl, rfl⟩

lemma alt {g h : Phrase τ ν ρ ε α} (hg : G.Decisive g P) (hh : G.Decisive h P)
    (hn : ∀ s, G.Begins g P s → G.Begins h P s → False) : G.Decisive (.alt g h) P := by
  intro s v r w q hd hr hd' hq
  rcases derives_alt.mp hd with hd | hd <;> rcases derives_alt.mp hd' with hd' | hd'
  · exact hg hd hr hd' hq
  · exact (hn s ⟨v, r, hd, hr⟩ ⟨w, q, hd', hq⟩).elim
  · exact (hn s ⟨w, q, hd', hq⟩ ⟨v, r, hd, hr⟩).elim
  · exact hh hd hr hd' hq

lemma opt {g : Phrase τ ν ρ ε α} (hg : G.Decisive g P) (hn : ∀ s, G.Begins g P s → P s → False) :
    G.Decisive (.opt g) P := by
  intro s v r w q hd hr hd' hq
  rcases derives_opt.mp hd with ⟨a, ha, rfl⟩ | ⟨rfl, rfl⟩ <;>
    rcases derives_opt.mp hd' with ⟨b, hb, rfl⟩ | ⟨rfl, rfl⟩
  · obtain ⟨rfl, rfl⟩ := hg ha hr hb hq
    exact ⟨rfl, rfl⟩
  · exact (hn q ⟨a, r, ha, hr⟩ hq).elim
  · exact (hn r ⟨b, q, hb, hq⟩ hr).elim
  · exact ⟨rfl, rfl⟩

/-- After the last item no mark stands before another one. -/
lemma many {mark : τ} {g : Phrase τ ν ρ ε α} (hg : G.Decisive g (G.Begins (.many mark g) P))
    (hn : ∀ s w r, P s → G.scan mark s = some (w, r) →
      ¬ G.Begins g (G.Begins (.many mark g) P) r) : G.Decisive (.many mark g) P := by
  intro s
  induction hl : s.length using Nat.strong_induction_on generalizing s with
  | _ n ih =>
    intro v r w q hd hr hd' hq
    rcases derives_many.mp hd with ⟨rfl, rfl⟩ | ⟨m, p, a, e, as, hm, ha, ht, rfl⟩ <;>
      rcases derives_many.mp hd' with ⟨rfl, rfl⟩ | ⟨m', p', a', e', as', hm', ha', ht', rfl⟩
    · exact ⟨rfl, rfl⟩
    · exact (hn r m' p' hr hm' ⟨a', e', ha', as', q, ht', hq⟩).elim
    · exact (hn q m p hq hm ⟨a, e, ha, as, r, ht, hr⟩).elim
    · obtain ⟨rfl, rfl⟩ := Prod.mk.inj (Option.some.inj (hm.symm.trans hm'))
      obtain ⟨rfl, rfl⟩ := hg ha ⟨as, r, ht, hr⟩ ha' ⟨as', q, ht', hq⟩
      have he : e.length < n := by
        have := G.scan_shorter hm
        have := ha.length_le
        omega
      obtain ⟨rfl, rfl⟩ := ih e.length he rfl ht hr ht' hq
      exact ⟨rfl, rfl⟩

/-- Two ways to go on after the same phrase exclude each other where they begin. -/
lemma not_begins {g : Phrase τ ν ρ ε α} {R : Text → Prop} (hg : G.Decisive g R)
    (hP : ∀ r, P r → R r) (hQ : ∀ r, Q r → R r) (hn : ∀ r, P r → Q r → False) {s : Text}
    (h : G.Begins g P s) (h' : G.Begins g Q s) : False := by
  obtain ⟨v, r, hd, hr⟩ := h
  obtain ⟨w, q, hd', hq⟩ := h'
  obtain ⟨-, rfl⟩ := hg hd (hP r hr) hd' (hQ q hq)
  exact hn r hr hq

end Decisive

end Grammar

end OpeningTimes
