import OpeningTimes.Text.Basic

/-!
Grammars whose phrases have values.

* `Phrase`: what a part of a text looks like, and what its value is;
* `Grammar`: the scanner of the terminals and the phrases of the nonterminals;
* `Grammar.Derives`: a text begins with a phrase, which has a value, and a rest is left.

The value of a phrase can be an error, because a text of the right form need not mean anything. The
error that stands first in the text is the value of the whole.
-/

namespace OpeningTimes

/-- What a part of a text looks like, with values of a given type. Terminals are named by `τ` and
nonterminals, whose values have type `ρ`, by `ν`. The errors are of type `ε`. -/
inductive Phrase (τ ν ρ ε : Type) : Type → Type 1 where
  /-- A terminal, whose value is its text. -/
  | terminal (t : τ) : Phrase τ ν ρ ε Text
  /-- A nonterminal. -/
  | call (x : ν) : Phrase τ ν ρ ε ρ
  /-- A phrase whose value is made of the value of another one. -/
  | build {α β : Type} (f : α → Except ε β) (g : Phrase τ ν ρ ε α) : Phrase τ ν ρ ε β
  /-- One phrase after another one. -/
  | seq {α β : Type} (g : Phrase τ ν ρ ε α) (h : Phrase τ ν ρ ε β) : Phrase τ ν ρ ε (α × β)
  /-- One of two phrases. -/
  | alt {α : Type} (g h : Phrase τ ν ρ ε α) : Phrase τ ν ρ ε α
  /-- A phrase or nothing. -/
  | opt {α : Type} (g : Phrase τ ν ρ ε α) : Phrase τ ν ρ ε (Option α)
  /-- Any number of phrases with a mark before each of them. -/
  | many {α : Type} (mark : τ) (g : Phrase τ ν ρ ε α) : Phrase τ ν ρ ε (List α)

namespace Phrase

variable {τ ν ρ ε α β : Type}

/-- A phrase whose value is made of the value of another one, and is never an error. -/
abbrev map (f : α → β) (g : Phrase τ ν ρ ε α) : Phrase τ ν ρ ε β :=
  .build (fun a => .ok (f a)) g

/-- A phrase after a terminal whose text does not matter. -/
abbrev after (t : τ) (g : Phrase τ ν ρ ε α) : Phrase τ ν ρ ε α :=
  map Prod.snd (.seq (.terminal t) g)

/-- A phrase before a terminal whose text does not matter. -/
abbrev before (g : Phrase τ ν ρ ε α) (t : τ) : Phrase τ ν ρ ε α :=
  map Prod.fst (.seq g (.terminal t))

/-- One or more phrases with a mark between any two of them. -/
abbrev list (mark : τ) (g : Phrase τ ν ρ ε α) : Phrase τ ν ρ ε (List α) :=
  map (fun x => x.1 :: x.2) (.seq g (.many mark g))

end Phrase

namespace Value

variable {ε α β : Type}

/-- The value of one phrase after another one. -/
def both (v : Except ε α) (w : Except ε β) : Except ε (α × β) :=
  v.bind fun a => w.map fun b => (a, b)

/-- The value of a list of phrases after the first one. -/
def cons (v : Except ε α) (w : Except ε (List α)) : Except ε (List α) :=
  v.bind fun a => w.map fun b => a :: b

end Value

/-- A grammar over the terminals `τ` and the nonterminals `ν`. -/
structure Grammar (τ ν ρ ε : Type) where
  /-- The text of a terminal at the beginning of a text, and the rest. -/
  scan : τ → Text → Option (Text × Text)
  /-- The phrase that a nonterminal stands for. -/
  rule : ν → Phrase τ ν ρ ε ρ
  /-- A terminal is never empty. -/
  scan_shorter : ∀ {t s w r}, scan t s = some (w, r) → r.length < s.length

namespace Grammar

variable {τ ν ρ ε : Type}

/-- `G.Derives g s v r` says that the text `s` begins with the phrase `g`, which has the value `v`,
and that the text `r` is left. -/
inductive Derives (G : Grammar τ ν ρ ε) :
    {α : Type} → Phrase τ ν ρ ε α → Text → Except ε α → Text → Prop where
  | terminal {t s w r} (h : G.scan t s = some (w, r)) : Derives G (.terminal t) s (.ok w) r
  | call {x s v r} (h : Derives G (G.rule x) s v r) : Derives G (.call x) s v r
  | build {α β : Type} {f : α → Except ε β} {g : Phrase τ ν ρ ε α} {s v r}
      (h : Derives G g s v r) : Derives G (.build f g) s (v.bind f) r
  | seq {α β : Type} {g : Phrase τ ν ρ ε α} {h : Phrase τ ν ρ ε β} {s v r w q}
      (hg : Derives G g s v r) (hh : Derives G h r w q) :
      Derives G (.seq g h) s (Value.both v w) q
  | left {α : Type} {g h : Phrase τ ν ρ ε α} {s v r} (hg : Derives G g s v r) :
      Derives G (.alt g h) s v r
  | right {α : Type} {g h : Phrase τ ν ρ ε α} {s v r} (hh : Derives G h s v r) :
      Derives G (.alt g h) s v r
  | present {α : Type} {g : Phrase τ ν ρ ε α} {s v r} (hg : Derives G g s v r) :
      Derives G (.opt g) s (v.map some) r
  | absent {α : Type} {g : Phrase τ ν ρ ε α} {s} : Derives G (.opt g) s (.ok none) s
  | done {α : Type} {mark : τ} {g : Phrase τ ν ρ ε α} {s} : Derives G (.many mark g) s (.ok []) s
  | more {α : Type} {mark : τ} {g : Phrase τ ν ρ ε α} {s w r v q vs e}
      (hm : G.scan mark s = some (w, r)) (hg : Derives G g r v q)
      (ht : Derives G (.many mark g) q vs e) : Derives G (.many mark g) s (Value.cons v vs) e

end Grammar

end OpeningTimes
