import GovernedRecords.Text.Basic

/-!
# Keyed tables

A keyed table is a list of rows under names, in the order in which the names first came,
with no name twice.  Putting a row under a name that is there keeps its place.
-/

set_option autoImplicit false

namespace GovernedRecords

/-- Rows under names, in order of insertion. -/
abbrev Keyed (α : Type) := List (Text × α)

namespace Keyed

variable {α : Type}

/-- The row under a name. -/
def get? (table : Keyed α) (name : Text) : Option α :=
  (table.find? fun row => row.1 == name).map (·.2)

/-- Whether there is a row under a name. -/
def has (table : Keyed α) (name : Text) : Bool := table.any fun row => row.1 == name

/-- Sets the row under a name. -/
def put (name : Text) (value : α) : Keyed α → Keyed α
  | [] => [(name, value)]
  | row :: rest => if row.1 == name then (name, value) :: rest else row :: put name value rest

/-- Removes the row under a name. -/
def erase (name : Text) (table : Keyed α) : Keyed α := table.filter fun row => !(row.1 == name)

/-- The names in order of insertion. -/
def names (table : Keyed α) : List Text := table.map (·.1)

end Keyed

end GovernedRecords
