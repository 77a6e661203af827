import OpeningTimes.Proofs.Grammar.Derivation

/-!
The errors that a derivation can end in.

An error is made where the value of a phrase is built, of a value that is none. So the errors of a
derivation are those of the places where one is built, as far as they are reached.

* `Value.FailsOnly`: a value is no error, or one of some kind;
* `Grammar.FailsOnly`: only errors of some kind are made in a phrase, in texts of some kind;
* `Grammar.failsOnly_map` and its companions: the same, form by form;
* `Grammar.Derives.failsOnly`: no derivation ends in any other error;
* `Grammar.Derives.build_error` and its companions: an error that is made is passed on.
-/

namespace OpeningTimes

/-! ### Values -/

namespace Value

variable {ε α β : Type} {E : ε → Prop} {v : Except ε α}

/-- A value is no error, or one of some kind. -/
def FailsOnly (E : ε → Prop) (v : Except ε α) : Prop :=
  ∀ e, v = .error e → E e

lemma failsOnly_ok {a : α} : FailsOnly E (.ok a : Except ε α) :=
  nofun

lemma FailsOnly.bind {f : α → Except ε β} (hv : FailsOnly E v)
    (hf : ∀ a, v = .ok a → FailsOnly E (f a)) : FailsOnly E (v.bind f) := by
  cases v with
  | error e =>
    rintro _ ⟨⟩
    exact hv e rfl
  | ok a => exact hf a rfl

lemma FailsOnly.map {f : α → β} (hv : FailsOnly E v) : FailsOnly E (v.map f) := by
  cases v with
  | error e =>
    rintro _ ⟨⟩
    exact hv e rfl
  | ok a => exact failsOnly_ok

end Value

/-! ### Phrases -/

namespace Grammar

variable {τ ν ρ ε : Type} {α β : Type}

/-- Only errors of one kind are made where the values of a phrase are built, as long as the text is of
some kind as well. -/
def FailsOnly (G : Grammar τ ν ρ ε) (T : Text → Prop) (E : ε → Prop) :
    {α : Type} → Phrase τ ν ρ ε α → Prop
  | _, .terminal _ => True
  | _, .call _ => True
  | _, .build f g =>
    G.FailsOnly T E g ∧ ∀ s a r e, T s → G.Derives g s (.ok a) r → f a = .error e → E e
  | _, .seq g h => G.FailsOnly T E g ∧ G.FailsOnly T E h
  | _, .alt g h => G.FailsOnly T E g ∧ G.FailsOnly T E h
  | _, .opt g => G.FailsOnly T E g
  | _, .many _ g => G.FailsOnly T E g

variable {G : Grammar τ ν ρ ε} {T : Text → Prop} {E : ε → Prop}

section Forms

variable {g k : Phrase τ ν ρ ε α} {h : Phrase τ ν ρ ε β} {mark : τ}

@[simp] lemma failsOnly_terminal {t : τ} : G.FailsOnly T E (.terminal t) :=
  trivial

@[simp] lemma failsOnly_call {x : ν} : G.FailsOnly T E (.call x) :=
  trivial

/-- No error is made of a value that is built in any case. -/
@[simp] lemma failsOnly_map {f : α → β} : G.FailsOnly T E (.map f g) ↔ G.FailsOnly T E g :=
  and_iff_left fun _ _ _ _ _ _ he => nomatch he

@[simp] lemma failsOnly_seq :
    G.FailsOnly T E (.seq g h) ↔ G.FailsOnly T E g ∧ G.FailsOnly T E h :=
  Iff.rfl

@[simp] lemma failsOnly_alt :
    G.FailsOnly T E (.alt g k) ↔ G.FailsOnly T E g ∧ G.FailsOnly T E k :=
  Iff.rfl

@[simp] lemma failsOnly_opt : G.FailsOnly T E (.opt g) ↔ G.FailsOnly T E g :=
  Iff.rfl

@[simp] lemma failsOnly_many : G.FailsOnly T E (.many mark g) ↔ G.FailsOnly T E g :=
  Iff.rfl

end Forms

/-- A derivation from a text of one kind ends in no other errors than those that are made, if every
terminal leaves a text of that kind. -/
theorem Derives.failsOnly (hT : ∀ t s w r, T s → G.scan t s = some (w, r) → T r)
    (hrule : ∀ x, G.FailsOnly T E (G.rule x)) {g : Phrase τ ν ρ ε α} {s r : Text} {v : Except ε α}
    (h : G.Derives g s v r) (hg : G.FailsOnly T E g) (hs : T s) : Value.FailsOnly E v := by
  -- The induction is on the derivation, because a call leads to a phrase that is no part of its own.
  induction h with
  | terminal | absent | done => exact Value.failsOnly_ok
  | call _ ih => exact ih (hrule _) hs
  | build hd ih =>
    refine (ih hg.1 hs).bind fun a ha e he => ?_
    subst ha
    exact hg.2 _ a _ e hs hd he
  | seq hd _ ihg ihh =>
    exact (ihg hg.1 hs).bind fun _ _ => (ihh hg.2 (hd.kept hT hs)).map
  | left _ ih => exact ih hg.1 hs
  | right _ ih => exact ih hg.2 hs
  | present _ ih => exact (ih hg hs).map
  | more hm hd _ ihg iht =>
    have hr := hT _ _ _ _ hs hm
    exact (ihg hg hr).bind fun _ _ => (iht hg (hd.kept hT hr)).map

/-! ### Errors that are passed on -/

section Passed

variable {s q r : Text} {e : ε}

lemma Derives.build_error {f : α → Except ε β} {g : Phrase τ ν ρ ε α}
    (h : G.Derives g s (.error e) r) : G.Derives (.build f g) s (.error e) r :=
  .build h

lemma Derives.seq_error_left {g : Phrase τ ν ρ ε α} {h : Phrase τ ν ρ ε β} {v : Except ε β}
    (hg : G.Derives g s (.error e) q) (hh : G.Derives h q v r) :
    G.Derives (.seq g h) s (.error e) r :=
  .seq hg hh

lemma Derives.seq_error_right {g : Phrase τ ν ρ ε α} {h : Phrase τ ν ρ ε β} {a : α}
    (hg : G.Derives g s (.ok a) q) (hh : G.Derives h q (.error e) r) :
    G.Derives (.seq g h) s (.error e) r :=
  .seq hg hh

end Passed

end Grammar

end OpeningTimes
