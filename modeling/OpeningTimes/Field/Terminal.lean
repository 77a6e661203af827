import OpeningTimes.Rule
import OpeningTimes.Text.Digit
import OpeningTimes.Text.Letter

/-!
The terminals of fields.

* `Terminal`: their names;
* `Terminal.lexeme`: the text of a terminal at the very beginning of a text, and the rest;
* `Terminal.scan`: the same after blanks;
* `Terminal.scan_shorter`: a terminal is never empty.

A word is as long as it can be, and so is a number: what follows a word is no letter, and what follows
a number is no digit.
-/

namespace OpeningTimes

/-- The terminals of fields. -/
inductive Terminal where
  /-- What separates two rules, unless it is a comma. -/
  | ruleSeparator
  /-- Separates the items of a list, and some rules. -/
  | comma
  | colon
  | dash
  | slash
  | plus
  | leftBracket
  | rightBracket
  | leftParenthesis
  | rightParenthesis
  /-- Open for ever. -/
  | always
  /-- A text in double quotes. -/
  | comment
  /-- Four digits. -/
  | year
  /-- Four digits that are not the year of a date. -/
  | loneYear
  | month
  | dayNumber
  /-- A plus sign that is not the sign of a weekday. -/
  | openEnd
  | easter
  | weekWord
  | weekNumber
  | weekday
  | holiday
  /-- A digit from one to five. -/
  | nth
  | dayWord
  | hours
  | minutes
  | event
  | openWord
  | closedWord
  | unknownWord
  /-- A plus or a minus sign. -/
  | sign
  /-- Any number of digits. -/
  | number
  deriving DecidableEq

namespace Terminal

/-! ### Texts that begin in a certain way -/

/-- A given text at the beginning of a text. -/
def literal (w s : Text) : Option (Text × Text) :=
  if s.take w.length == w then some (w, s.drop w.length) else none

/-- Whether the letters at the beginning of a text are one of the given words. -/
def startsWith (words : List Text) (s : Text) : Bool :=
  words.contains ((s.takeWhile Text.isLetter).map Text.fold)

/-- The letters at the beginning of a text, if they are one of the given words. -/
def word (words : List Text) (s : Text) : Option (Text × Text) :=
  if startsWith words s then some (s.takeWhile Text.isLetter, s.dropWhile Text.isLetter) else none

/-- The digits at the beginning of a text, if their number is right. -/
def digits (few many : Nat) (s : Text) : Option (Text × Text) :=
  let w := s.takeWhile Text.isDigit
  if few ≤ w.length && w.length ≤ many then some (w, s.dropWhile Text.isDigit) else none

/-- A text between double quotes at the beginning of a text. -/
def quotation : Text → Option (Text × Text)
  | '"' :: s =>
    match s.dropWhile (· != '"') with
    | [] => none
    | q :: r => some ('"' :: s.takeWhile (· != '"') ++ [q], r)
  | _ => none

/-- One of the five digits that number the weekdays of a month. -/
def nthDigit : Text → Option (Text × Text)
  | [] => none
  | c :: s =>
    if '1' ≤ c && c ≤ '5' && !(s.head?.any Text.isDigit) then some ([c], s) else none

/-! ### Vocabulary -/

/-- The words for months. -/
def monthWords : List Text := Month.all.map fun m => m.name.map Text.fold

/-- The words for movable days. -/
def movableWords : List Text := [MovableDate.name .easter]

/-- The words for weekdays. -/
def weekdayWords : List Text := Weekday.all.map fun d => d.name.map Text.fold

/-- The words for events. -/
def eventWords : List Text := Event.all.map Event.name

/-- The words for public and for school holidays. -/
def holidayWords : List Text := [['p', 'h'], ['s', 'h']]

/-- The words for days in an offset. -/
def dayWords : List Text := [['d', 'a', 'y'], ['d', 'a', 'y', 's']]

/-- The words for a closed state. -/
def closedWords : List Text := [['c', 'l', 'o', 's', 'e', 'd'], ['o', 'f', 'f']]

/-- The word in front of the numbers of weeks. -/
def week : Text := ['w', 'e', 'e', 'k']

/-! ### Lexemes -/

/-- The text of a terminal at the very beginning of a text, and the rest. The word for weeks is the
only one that letters may follow. -/
def lexeme (t : Terminal) (s : Text) : Option (Text × Text) :=
  match t with
  | ruleSeparator => (literal [';'] s).or (literal ['|', '|'] s)
  | comma => literal [','] s
  | colon => literal [':'] s
  | dash => literal ['-'] s
  | slash => literal ['/'] s
  | plus => literal ['+'] s
  | leftBracket => literal ['['] s
  | rightBracket => literal [']'] s
  | leftParenthesis => literal ['('] s
  | rightParenthesis => literal [')'] s
  | always => literal ['2', '4', '/', '7'] s
  | comment => quotation s
  | year => digits 4 4 s
  | loneYear =>
    (digits 4 4 s).filter fun (_, r) =>
      !startsWith (monthWords ++ movableWords) (r.dropWhile Text.isSpace)
  | month => word monthWords s
  | dayNumber => digits 1 2 s
  | openEnd =>
    (literal ['+'] s).filter fun (_, r) => !startsWith weekdayWords (r.dropWhile Text.isSpace)
  | easter => word movableWords s
  | weekWord =>
    if (s.take 4).map Text.fold == week then some (s.take 4, s.drop 4) else none
  | weekNumber => digits 1 2 s
  | weekday => word weekdayWords s
  | holiday => word holidayWords s
  | nth => nthDigit s
  | dayWord => word dayWords s
  | hours => digits 1 2 s
  | minutes => digits 2 2 s
  | event => word eventWords s
  | openWord => word [Modifier.text .opened] s
  | closedWord => word closedWords s
  | unknownWord => word [Modifier.text .unknown] s
  | sign => (literal ['+'] s).or (literal ['-'] s)
  | number => digits 1 s.length s

/-- The text of a terminal after blanks, and the rest. -/
def scan (t : Terminal) (s : Text) : Option (Text × Text) :=
  t.lexeme (Text.skipBlanks s)

/-! ### A terminal is a piece of the text -/

/-- What is read and what is left make up the text, and something is read. -/
def Splits (s : Text) : Option (Text × Text) → Prop
  | none => True
  | some (w, r) => s = w ++ r ∧ w ≠ []

theorem splits_literal {w : Text} (hw : w ≠ []) (s : Text) : Splits s (literal w s) := by
  unfold literal
  split
  · next h =>
    have he := List.take_append_drop w.length s
    rw [beq_iff_eq.mp h] at he
    exact ⟨he.symm, hw⟩
  · trivial

theorem splits_or {s : Text} {a b : Option (Text × Text)} (ha : Splits s a) (hb : Splits s b) :
    Splits s (a.or b) := by
  cases a with
  | none => exact hb
  | some _ => exact ha

theorem splits_filter {s : Text} {a : Option (Text × Text)} (p : Text × Text → Bool)
    (ha : Splits s a) : Splits s (a.filter p) := by
  cases a with
  | none => exact ha
  | some x =>
    simp only [Option.filter]
    split
    · exact ha
    · trivial

theorem splits_word {words : List Text} (hw : [] ∉ words) (s : Text) : Splits s (word words s) := by
  unfold word
  split
  · next h =>
    refine ⟨(List.takeWhile_append_dropWhile ..).symm, fun he => hw ?_⟩
    simpa [startsWith, he] using h
  · trivial

theorem splits_digits {few many : Nat} (hf : 0 < few) (s : Text) : Splits s (digits few many s) := by
  unfold digits
  simp only
  split
  · next h =>
    refine ⟨(List.takeWhile_append_dropWhile ..).symm, fun he => ?_⟩
    simp only [he, List.length_nil, Bool.and_eq_true, decide_eq_true_eq] at h
    omega
  · trivial

theorem splits_quotation (s : Text) : Splits s (quotation s) := by
  unfold quotation
  split
  · next s =>
    split
    · trivial
    · next q r h =>
      refine ⟨?_, by simp⟩
      simp only [List.cons_append, List.append_assoc, List.nil_append, ← h,
        List.takeWhile_append_dropWhile]
  · trivial

theorem splits_nthDigit (s : Text) : Splits s (nthDigit s) := by
  unfold nthDigit
  split
  · trivial
  · split
    · exact ⟨rfl, by simp⟩
    · trivial

theorem splits_week (s : Text) :
    Splits s (if (s.take 4).map Text.fold == week then some (s.take 4, s.drop 4) else none) := by
  split
  · next h =>
    refine ⟨(List.take_append_drop ..).symm, fun he => ?_⟩
    simp [he, week] at h
  · trivial

theorem splits_lexeme (t : Terminal) (s : Text) : Splits s (t.lexeme s) := by
  cases t
  case ruleSeparator | sign =>
    exact splits_or (splits_literal (by simp) s) (splits_literal (by simp) s)
  case always | comma | colon | dash | slash | plus | leftBracket | rightBracket
      | leftParenthesis | rightParenthesis =>
    exact splits_literal (by simp) s
  case comment => exact splits_quotation s
  case nth => exact splits_nthDigit s
  case weekWord => exact splits_week s
  case year | dayNumber | weekNumber | hours | minutes | number =>
    exact splits_digits (by omega) s
  case loneYear => exact splits_filter _ (splits_digits (by omega) s)
  case openEnd => exact splits_filter _ (splits_literal (by simp) s)
  case month | easter | weekday | holiday | dayWord | event | openWord | closedWord
      | unknownWord =>
    exact splits_word (by decide) s

/-- A terminal takes something away from the text. -/
theorem scan_shorter {t : Terminal} {s w r : Text} (h : t.scan s = some (w, r)) :
    r.length < s.length := by
  have hs := splits_lexeme t (Text.skipBlanks s)
  rw [show t.lexeme (Text.skipBlanks s) = some (w, r) from h] at hs
  have hl := Text.length_skipBlanks_le s
  rw [hs.1, List.length_append] at hl
  have := List.length_pos_iff.mpr hs.2
  omega

end Terminal

end OpeningTimes
