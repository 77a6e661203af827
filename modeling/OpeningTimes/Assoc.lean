/-!
Tables that remember the order of their keys.

* `Assoc.put`: a table with a new value for a key, which keeps its place if it has one;
* `Assoc.ofList`: the table of a list, in which a key has its first place and its last value;
* `Assoc.get?`: the value of a key.
-/

namespace OpeningTimes

namespace Assoc

variable {κ α : Type} [DecidableEq κ]

/-- A table with a new value for a key. A key that is there keeps its place, another one is added at
the end. -/
def put (key : κ) (value : α) : List (κ × α) → List (κ × α)
  | [] => [(key, value)]
  | (k, v) :: entries =>
    if k = key then (k, value) :: entries else (k, v) :: put key value entries

/-- The table of a list of keys and values. -/
def ofList (entries : List (κ × α)) : List (κ × α) :=
  entries.foldl (fun table e => put e.1 e.2 table) []

/-- The value of a key. -/
def get? (key : κ) : List (κ × α) → Option α
  | [] => none
  | (k, v) :: entries => if k = key then some v else get? key entries

end Assoc

end OpeningTimes
