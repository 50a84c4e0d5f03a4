import GovernedRecords.Fault

/-!
# Copies

A store keeps copies of the values it is given and gives out copies of those it keeps, so
that no caller can change what is stored.  Values here never change, so a copy is the
value itself; only one that is nested too deeply has none.
-/

set_option autoImplicit false

namespace GovernedRecords

namespace Value

/-- The copy of a value; a value that is nested more deeply than the host copies has none. -/
def copy [Host] (value : Value) : Except Fault Value :=
  if Host.copied < value.nesting then .error .tooDeep else .ok value

end Value

/-- The copy of some entries. -/
def Entries.copy [Host] (entries : Entries) : Except Fault Entries :=
  if Host.copied < (Value.object entries).nesting then .error .tooDeep else .ok entries

end GovernedRecords
