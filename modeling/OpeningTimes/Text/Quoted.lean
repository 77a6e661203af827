import OpeningTimes.Text.Printable

/-!
Texts as messages show them: between quotes, with an escape for every character that could not be
told from another one.

* `quoteFor`: the quote that a text is shown in;
* `escaped`: a character between such quotes;
* `quoted`: the text between its quotes.
-/

namespace OpeningTimes.Text

/-- The single quote. -/
def apostrophe : Char := Char.ofNat 39

/-- A text is shown in single quotes, unless double quotes spare it an escape. -/
def quoteFor (s : Text) : Char :=
  if s.contains apostrophe && !s.contains '"' then '"' else apostrophe

/-- A number in hexadecimal digits, with zeros in front up to the width. -/
def hex (width n : Nat) : Text :=
  let digits := Nat.toDigits 16 n
  List.replicate (width - digits.length) '0' ++ digits

/-- A character between two given quotes. Line feed, carriage return and tab have short escapes, and
other characters that are not printable are shown by their code point. -/
def escaped (quote c : Char) : Text :=
  if c == quote || c == '\\' then ['\\', c]
  else if c == '\n' then ['\\', 'n']
  else if c == '\r' then ['\\', 'r']
  else if c == '\t' then ['\\', 't']
  else if isPrintable c then [c]
  else if c.toNat < 0x100 then '\\' :: 'x' :: hex 2 c.toNat
  else if c.toNat < 0x10000 then '\\' :: 'u' :: hex 4 c.toNat
  else '\\' :: 'U' :: hex 8 c.toNat

/-- A text between quotes. -/
def quoted (s : Text) : Text :=
  quoteFor s :: s.flatMap (escaped (quoteFor s)) ++ [quoteFor s]

end OpeningTimes.Text
