import OpeningTimes.Grammar

/-!
Reading a text by a grammar.

* `Grammar.readings`: all ways in which a text begins with a phrase, each with the value of the phrase
  and the rest of the text, where the readings of the nonterminals are given;
* `Grammar.calls`: the readings of the nonterminals, down to a depth of calls;
* `Grammar.read?`: the value of the first reading of the whole text.
-/

namespace OpeningTimes

namespace Grammar

variable {τ ν ρ ε : Type}

/-- The readings of a phrase: its value and what is left of the text. -/
abbrev Readings (ε α : Type) := List (Except ε α × Text)

/-- The readings of any number of phrases with a mark before each, up to a number that the length of
the text never lets a reading exceed. -/
def manyReadings {α : Type} (scanMark : Text → Option (Text × Text))
    (item : Text → Readings ε α) : Nat → Text → Readings ε (List α)
  | 0, s => [(.ok [], s)]
  | fuel + 1, s =>
    (match scanMark s with
      | none => []
      | some (_, r) =>
        (item r).flatMap fun (v, q) =>
          (manyReadings scanMark item fuel q).map fun (vs, e) => (Value.cons v vs, e)) ++
      [(.ok [], s)]

/-- The readings of a phrase, given those of the nonterminals. -/
def readings (G : Grammar τ ν ρ ε) (calls : ν → Text → Readings ε ρ) :
    {α : Type} → Phrase τ ν ρ ε α → Text → Readings ε α
  | _, .terminal t, s =>
    match G.scan t s with
    | none => []
    | some (w, r) => [(.ok w, r)]
  | _, .call x, s => calls x s
  | _, .build f g, s => (readings G calls g s).map fun (v, r) => (v.bind f, r)
  | _, .seq g h, s =>
    (readings G calls g s).flatMap fun (v, r) =>
      (readings G calls h r).map fun (w, q) => (Value.both v w, q)
  | _, .alt g h, s => readings G calls g s ++ readings G calls h s
  | _, .opt g, s => ((readings G calls g s).map fun (v, r) => (v.map some, r)) ++ [(.ok none, s)]
  | _, .many mark g, s => manyReadings (G.scan mark) (readings G calls g) s.length s

/-- The readings of the nonterminals, with at most the given number of calls inside each other. -/
def calls (G : Grammar τ ν ρ ε) : Nat → ν → Text → Readings ε ρ
  | 0, _, _ => []
  | depth + 1, x, s => G.readings (G.calls depth) (G.rule x) s

/-- The value of the first reading of a text as a nonterminal, with nothing but blanks left. No call
needs more depth than the text is long. -/
def read? (G : Grammar τ ν ρ ε) (x : ν) (s : Text) : Option (Except ε ρ) :=
  ((G.calls (s.length + 1) x s).find? fun (_, r) => r.all Text.isBlank).map Prod.fst

end Grammar

end OpeningTimes
