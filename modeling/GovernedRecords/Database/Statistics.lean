import GovernedRecords.Value.Arithmetic

/-!
# Query statistics

The statistics of a request are an object with the number of statements and the sum of
their times.  Anything else in their place counts as fresh statistics, and a quantity that
is missing counts as zero.
-/

set_option autoImplicit false

namespace GovernedRecords

namespace Statistics

/-- No statement and no time. -/
def fresh : Entries :=
  [(.text "queries", .int 0), (.text "total_ms", .float (.zero false))]

/-- The statistics that a value is, or fresh ones. -/
def ofValue (value : Value) : Entries := value.asObject?.getD fresh

/-- The sum of the times. -/
def total (statistics : Entries) : Value :=
  (Entries.get? statistics "total_ms").getD (.float (.zero false))

/-- The number of statements. -/
def count (statistics : Entries) : Value :=
  (Entries.get? statistics "queries").getD (.int 0)

/-- Adds a statement with its time. -/
def add (statistics : Entries) (time : Value) : Except Fault Entries := do
  let timed := Entries.put "total_ms" (← (total statistics).add time) statistics
  return Entries.put "queries" (← (count timed).add (.int 1)) timed

/-- The sum of the times as a double. -/
def milliseconds (statistics : Entries) : Except Fault Double := (total statistics).toDouble

end Statistics

end GovernedRecords
