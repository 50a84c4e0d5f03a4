import GovernedRecords.Environment
import GovernedRecords.Number.Numeral
import GovernedRecords.Operation

/-!
# The connection pool

There is one pool.  It is made when it is first needed, with the least and the greatest
number of connections and the address of the database; what is not given comes from the
environment.  Numbers that are given are taken as they are.  Making it again changes
nothing.
-/

set_option autoImplicit false

namespace GovernedRecords

/-- A pool of connections to a database. -/
structure Pool where
  least : Value
  greatest : Value
  address : Text

namespace Pool

/-- The setting under a name, unless it is empty. -/
def filled? (environment : Environment) (name : Text) : Option Text :=
  (Keyed.get? environment name).filter fun text => !text.isEmpty

/-- The address of the database, from the first of two settings that is not empty. -/
def configuredAddress (environment : Environment) : Except Fault Text :=
  match filled? environment "SUPABASE_DB_URL" <|> filled? environment "DATABASE_URL" with
  | some address => .ok address
  | none => .error .unconfigured

/-- The integer under a name, or the usual one where there is no setting. -/
def setting (environment : Environment) (name : Text) (usual : Int) : Except Fault Int :=
  match Keyed.get? environment name with
  | none => .ok usual
  | some text =>
    match Numeral.readInteger text with
    | .ok integer => .ok integer
    | .error .malformed => .error (.notInteger text)
    | .error (.tooManyDigits count) => .error (.tooManyDigits (some count))

/-- A bound that is given, or the one of the environment where it is null. -/
def bound (environment : Environment) (name : Text) (usual : Int) (given : Value) :
    Except Fault Value :=
  if given.isNull then (setting environment name usual).map .int else .ok given

/-- A new pool; bounds that are null come from the environment. -/
def make (environment : Environment) (least greatest : Value) : Except Fault Pool := do
  return ⟨← bound environment "MODELKIT_DB_POOL_MIN" 1 least,
    ← bound environment "MODELKIT_DB_POOL_MAX" 10 greatest, ← configuredAddress environment⟩

/-- Makes the pool, unless there is one. -/
def ensure (environment : Environment) (least greatest : Value) :
    Operation (Option Pool) Unit := do
  match ← get with
  | some _ => return ()
  | none => set (some (← .ofExcept (make environment least greatest)))

end Pool

end GovernedRecords
