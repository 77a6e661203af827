import OpeningTimes.Text.Basic

/-!
Letters as the words of a field see them: regardless of case.

* `fold`: the small letter that a character stands for;
* `isLetter`: the characters that stand for one of `a` to `z`;
* `small`, `capital`, `capitalized`: the stricter reading of a single name, in which fewer
  characters stand for a letter.
-/

namespace OpeningTimes.Text

/-- The long s, which is a small letter and has the capital `S`. -/
def longS : Char := Char.ofNat 0x17f

/-- The Kelvin sign, which is a capital letter and has the small letter `k`. -/
def kelvin : Char := Char.ofNat 0x212a

/-- The capital i with a dot. -/
def dottedI : Char := Char.ofNat 0x130

/-- The small i without a dot. -/
def dotlessI : Char := Char.ofNat 0x131

/-- The small letter that a character stands for when case does not matter. Besides the capitals
these are the long s, the Kelvin sign and the two foreign forms of i. -/
def fold (c : Char) : Char :=
  if c == longS then 's'
  else if c == kelvin then 'k'
  else if c == dottedI || c == dotlessI then 'i'
  else c.toLower

/-- Whether a character stands for one of the letters `a` to `z`. -/
def isLetter (c : Char) : Bool :=
  (fold c).isLower

/-- The small letter of a character, which for the long s and the two foreign forms of i is not one
of `a` to `z`. -/
def small (c : Char) : Char :=
  if c == kelvin then 'k' else c.toLower

/-- The capital letter of a character, which for the long s and the i without a dot is one of `A` to
`Z` as well. -/
def capital (c : Char) : Char :=
  if c == longS then 'S' else if c == dotlessI then 'I' else c.toUpper

/-- A name with its first letter made a capital and the others made small. -/
def capitalized : Text → Text
  | [] => []
  | c :: cs => capital c :: cs.map small

end OpeningTimes.Text
