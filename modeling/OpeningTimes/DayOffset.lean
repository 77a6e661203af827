import OpeningTimes.Text.Numeral

/-!
Offsets of a number of days, such as `+2 days` after a weekday or a date.

* `DayOffset.text?`: an offset in a field.
-/

namespace OpeningTimes

/-- The text of an offset of days. No offset has no text, a sign is always written, and a space
stands in front where the offset follows a word. -/
def DayOffset.text? (days : Int) (spaced : Bool) : Option Text :=
  if days == 0 then some []
  else do
    let number ← Text.numeral? days
    return (if spaced then [' '] else []) ++ (if 0 < days then ['+'] else []) ++ number ++
      [' ', 'd', 'a', 'y'] ++ if 1 < days.natAbs then ['s'] else []

end OpeningTimes
