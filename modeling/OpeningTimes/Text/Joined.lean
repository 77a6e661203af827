import OpeningTimes.Text.Basic

/-!
Texts of lists.

* `joinWith`: the texts of the items with the same separator between any two of them;
* `joinWith?`: the same where an item may have no text, and then the list has none;
* `joinBy?`: the same where each item says what separates it from the next one;
* `listed`, `listed?`: lists in a field.
-/

namespace OpeningTimes.Text

variable {α : Type}

/-- The texts of the items with a separator between any two of them. -/
def joinWith (separator : Text) (text : α → Text) (items : List α) : Text :=
  separator.intercalate (items.map text)

/-- The first item, the separator, and the other items. -/
theorem joinWith_cons_cons (separator : Text) (text : α → Text) (item next : α) (items : List α) :
    joinWith separator text (item :: next :: items) =
      text item ++ (separator ++ joinWith separator text (next :: items)) := by
  simp [joinWith, List.intercalate]

/-- The texts of the items with a separator between any two of them, if every item has a text. -/
def joinWith? (separator : Text) (text? : α → Option Text) (items : List α) : Option Text :=
  (items.mapM text?).map separator.intercalate

/-- The texts of the items, each but the last one followed by the separator it asks for, if every item has
a text. -/
def joinBy? (separator : α → Text) (text? : α → Option Text) : List α → Option Text
  | [] => some []
  | [item] => text? item
  | item :: next :: items => do
    let first ← text? item
    let rest ← joinBy? separator text? (next :: items)
    return first ++ separator item ++ rest

/-- The separator of the items of a list in a field. -/
def commaSpace : Text := [',', ' ']

/-- The texts of the items as a list in a field shows them. -/
abbrev listed (text : α → Text) (items : List α) : Text :=
  joinWith commaSpace text items

/-- The texts of the items as a list in a field shows them, if every item has a text. -/
abbrev listed? (text? : α → Option Text) (items : List α) : Option Text :=
  joinWith? commaSpace text? items

end OpeningTimes.Text
