import OpeningTimes.Text.Basic

/-!
Numbers as texts of decimal digits.

* `numeral`: an integer without superfluous zeros;
* `padded`: an integer with zeros up to a width, in which its sign counts;
* `numeral?`, `padded?`: the same for integers and widths of any size, some of which are too great to be
  written.
-/

namespace OpeningTimes.Text

/-- A natural number in decimal digits. -/
def digits (n : Nat) : Text :=
  Nat.toDigits 10 n

/-- An integer in decimal digits, after a minus sign if it is negative. -/
def numeral (n : Int) : Text :=
  if n < 0 then '-' :: digits n.natAbs else digits n.natAbs

/-- The zeros that fill a text up to a width. -/
def fill (width : Nat) (s : Text) : Text :=
  List.replicate (width - s.length) '0' ++ s

/-- An integer with zeros in front of its digits, so that the text has at least the given width. The
minus sign stands before the zeros and takes one place. -/
def padded (n : Int) (width : Nat) : Text :=
  if n < 0 then '-' :: fill (width - 1) (digits n.natAbs) else fill width (digits n.natAbs)

/-- A number of two digits, as in a clock time. -/
abbrev twoDigits (n : Int) : Text :=
  padded n 2

/-- Whether an integer has no more digits than are written. Its sign is none of them. -/
def isShort (n : Int) : Bool :=
  (digits n.natAbs).length ≤ maxDigits

/-- An integer in decimal digits, unless it has too many of them. -/
def numeral? (n : Int) : Option Text :=
  if isShort n then some (numeral n) else none

/-- The greatest width of a text, which is one less than the 63rd power of two. -/
def maxWidth : Int := 9223372036854775807

/-- An integer with zeros up to a width. There is no text if the width is negative or too great, or if the
integer has too many digits. -/
def padded? (n width : Int) : Option Text :=
  if 0 ≤ width && width ≤ maxWidth && isShort n then some (padded n width.toNat) else none

end OpeningTimes.Text
