import OpeningTimes.Text.Numeral

/-!
Ranges of numbers of which only every so many count.

* `Period.hits`: the numbers that count;
* `Period.text?`: the period after a range in a field.
-/

namespace OpeningTimes

/-- Whether a number between the first and the last one counts. Without a period all of them do, and
the direction of the period makes no difference. -/
def Period.hits (start stop period n : Int) : Bool :=
  start ≤ n && n ≤ stop && (period == 0 || (n - start) % period == 0)

/-- The text of a period. No period has no text. -/
def Period.text? (period : Int) : Option Text :=
  if period == 0 then some [] else (Text.numeral? period).map ('/' :: ·)

end OpeningTimes
