import GovernedRecords.Text.Basic

/-!
# Arranging lists

A stable arrangement of a list by a relation: an item is placed before the first item
it may precede, so items that are equal under the relation keep their order.
-/

set_option autoImplicit false

namespace GovernedRecords

/-- Places an item before the first one it may precede. -/
def placeOrdered {α : Type} (precedes : α → α → Bool) (item : α) : List α → List α
  | [] => [item]
  | first :: rest =>
    if precedes item first then item :: first :: rest
    else first :: placeOrdered precedes item rest

/-- The items in order; equal ones stay as they stood. -/
def arrange {α : Type} (precedes : α → α → Bool) (items : List α) : List α :=
  items.foldr (placeOrdered precedes) []

/-- Texts in ascending order. -/
def Text.sorted (texts : List Text) : List Text := arrange Text.le texts

end GovernedRecords
