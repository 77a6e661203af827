/-!
Texts as lists of characters, which is the form that can be taken apart in a proof, and the two
kinds of blank a field knows.

* `Text`: a list of characters;
* `maxDigits`: how many digits a number may have to be read or written;
* `isBlank`, `skipBlanks`: the five blanks that may stand between two words of a field;
* `isSpace`: white space in the wide sense, over which a look ahead may reach;
* `trimField`: a field without the blanks and semicolons around it.
-/

namespace OpeningTimes

/-- A text is the list of its characters. -/
abbrev Text := List Char

namespace Text

/-- How many digits a number may have. One with more of them is neither read nor written. -/
def maxDigits : Nat := 4300

/-- The blanks that may stand between two words of a field: space, tab, form feed, carriage return
and line feed. -/
def isBlank (c : Char) : Bool :=
  c == ' ' || c == '\t' || c == '\x0c' || c == '\r' || c == '\n'

/-- A text without its leading blanks. -/
def skipBlanks (s : Text) : Text :=
  s.dropWhile isBlank

/-- White space of any kind, control characters and wide spaces included. -/
def isSpace (c : Char) : Bool :=
  let n := c.toNat
  (0x09 ≤ n && n ≤ 0x0d) || (0x1c ≤ n && n ≤ 0x20) || n == 0x85 || n == 0xa0 || n == 0x1680 ||
    (0x2000 ≤ n && n ≤ 0x200a) || n == 0x2028 || n == 0x2029 || n == 0x202f || n == 0x205f ||
    n == 0x3000

/-- What may surround a field without being a part of it. A carriage return and a form feed are
blanks inside a field and yet are kept at its ends. -/
def isMargin (c : Char) : Bool :=
  c == ' ' || c == '\n' || c == '\t' || c == ';'

/-- A field without its margins. -/
def trimField (s : Text) : Text :=
  ((s.dropWhile isMargin).reverse.dropWhile isMargin).reverse

/-- Skipping blanks never lengthens a text. -/
theorem length_skipBlanks_le (s : Text) : (skipBlanks s).length ≤ s.length :=
  (List.dropWhile_sublist isBlank).length_le

end Text

end OpeningTimes
