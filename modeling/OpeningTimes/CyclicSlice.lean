/-!
Slices of lists, and slices that run over the end of a list and go on at its beginning.

* `bound`: the place that an index means, where a negative index counts from the end;
* `slice`: the items between two places;
* `cyclicSlice`: the items from one index to another one, both included, in cyclic order.
-/

namespace OpeningTimes

variable {α : Type}

/-- The place in a list of the given length that an index means. A negative index counts from the
end, and an index beyond either end means that end. -/
def bound (length : Nat) (index : Int) : Nat :=
  if index < 0 then (length + index).toNat else min length index.toNat

/-- The items from one place up to another one, which is not included. -/
def slice (items : List α) (start stop : Nat) : List α :=
  (items.take stop).drop start

/-- The items from one index to another one, both included. If the first index is the greater one,
the slice runs over the end of the list and goes on at its beginning. -/
def cyclicSlice (items : List α) (start stop : Int) : List α :=
  let first := bound items.length start
  let last := bound items.length (stop + 1)
  if start ≤ stop then slice items first last else items.drop first ++ items.take last

end OpeningTimes
