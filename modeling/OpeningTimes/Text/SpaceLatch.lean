import OpeningTimes.Text.Basic

/-!
Texts whose parts are separated by single spaces, some of which may be absent.

* `SpaceLatch`: gives nothing the first time it is asked, and a space ever after;
* `Spaced`: a text under construction, in which every word but the first one follows a space.
-/

namespace OpeningTimes

/-- What stands before the next word: nothing until the latch has been asked once. -/
structure SpaceLatch where
  /-- Whether the latch has been asked before. -/
  asked : Bool := false
  deriving DecidableEq

namespace SpaceLatch

/-- What the latch gives. -/
def space (latch : SpaceLatch) : Text :=
  if latch.asked then [' '] else []

/-- What the latch gives, and the latch after that. -/
def ask (latch : SpaceLatch) : Text × SpaceLatch :=
  (latch.space, ⟨true⟩)

/-- What each of a number of latches gives when they are asked one after the other, where a latch is
told by its name and unasked at first. -/
def askAll : List Text → List Text → List Text
  | _, [] => []
  | asked, name :: names =>
    (SpaceLatch.mk (asked.contains name)).space :: askAll (name :: asked) names

end SpaceLatch

/-- A text under construction, with the latch that separates its words. -/
structure Spaced where
  /-- What has been written. -/
  text : Text := []
  /-- What stands before the next word. -/
  latch : SpaceLatch := {}

namespace Spaced

/-- Adds a word, after a space unless it is the first one. -/
def word (s : Spaced) (w : Text) : Spaced :=
  let (space, latch) := s.latch.ask
  ⟨s.text ++ space ++ w, latch⟩

/-- Adds a text right where the last word ends. -/
def glue (s : Spaced) (t : Text) : Spaced :=
  { s with text := s.text ++ t }

/-- Adds a word on a condition. -/
def wordIf (s : Spaced) (wanted : Bool) (w : Text) : Spaced :=
  if wanted then s.word w else s

/-- Adds a word on a condition, and only then needs the text of the word. -/
def wordIf? (s : Spaced) (wanted : Bool) (w? : Option Text) : Option Spaced :=
  if wanted then w?.map s.word else some s

/-- Adds a text right where the last word ends, on a condition. -/
def glueIf (s : Spaced) (wanted : Bool) (t : Text) : Spaced :=
  if wanted then s.glue t else s

end Spaced

end OpeningTimes
