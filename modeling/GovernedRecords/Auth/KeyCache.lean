import GovernedRecords.Operation
import GovernedRecords.Value.Arithmetic

/-!
# The cache of token keys

Tokens are checked with keys that an endpoint publishes.  The key set that was fetched
last is kept for ten minutes.  A token whose key is not in the set at hand has the set
fetched once more, so that keys may change at any time; a fetch that fails leaves the
cache as it was.  The clock is read before each look at the cache and before each fetch, and
a key set counts as old as the reading before it was fetched.

A token names its key by an id in its header, which anyone may have written.
-/

set_option autoImplicit false

namespace GovernedRecords

/-- The key set fetched last, null before the first, and the time of that fetch. -/
structure KeyCache where
  keys : Value
  fetchedAt : Value.Numeric

/-- What the cache draws on: a clock, and the endpoint that publishes the keys. -/
structure KeySource (ε : Type) where
  clock : Operation ε Value.Numeric
  fetch : Operation ε Value

/-- What is asked of the check of a token. -/
structure TokenCheck where
  token : Value
  key : Value
  algorithms : List Value
  issuer : Value
  audience : Value

namespace TokenCheck

/-- Whether the audience of the token counts, which it does unless none is asked for. -/
def checksAudience (check : TokenCheck) : Bool := !check.audience.isNull

/-- The object that shows a check. -/
def toValue (check : TokenCheck) : Value :=
  .ofFields [("token", check.token), ("key", check.key),
    ("algorithms", .list check.algorithms), ("issuer", check.issuer),
    ("audience", check.audience),
    ("options", .ofFields [("verify_aud", .bool check.checksAudience)])]

end TokenCheck

namespace KeyCache

variable {ε : Type}

/-- No key set. -/
def empty : KeyCache := ⟨.null, .integer 0⟩

/-- The seconds for which a key set is kept. -/
def lifetime : Value.Numeric := .integer 600

/-- Whether the key set may be used at a time. -/
def isFresh (cache : KeyCache) (now : Value.Numeric) : Except Fault Bool :=
  if cache.keys.isTruthy then
    (now.subtract cache.fetchedAt).map fun age => age.lt lifetime
  else .ok false

/-- The first key of a list with an id; an item before it that is no object is a fault. -/
def findAmong (id : Value) : List Value → Except Fault (Option Value)
  | [] => .ok none
  | .object entries :: rest =>
    if (Entries.get entries "kid").equals id then .ok (some (.object entries))
    else findAmong id rest
  | _ :: _ => .error .missingOperation

/-- The key of a key set with an id. -/
def find (keySet id : Value) : Except Fault (Option Value) :=
  match keySet with
  | .object entries =>
    match Entries.get? entries "keys" with
    | none => .ok none
    | some (.list keys) => findAmong id keys
    | some (.object []) => .ok none
    | some (.text []) => .ok none
    | some (.object _) => .error .missingOperation
    | some (.text _) => .error .missingOperation
    | some _ => .error .unsupportedOperand
  | _ => .error .missingOperation

/-- Fetches the key set and keeps it with a reading of the clock. -/
def renew (source : KeySource ε) (now : Value.Numeric) : Operation (KeyCache × ε) Value := do
  let keys ← source.fetch.onSecond
  modify fun state => (⟨keys, now⟩, state.2)
  return keys

/-- A new key set, whatever the cache holds. -/
def refresh (source : KeySource ε) : Operation (KeyCache × ε) Value := do
  renew source (← source.clock.onSecond)

/-- The key set at hand, from the cache while it is fresh. -/
def current (source : KeySource ε) : Operation (KeyCache × ε) Value := do
  let now ← source.clock.onSecond
  let cache := (← get).1
  if ← .ofExcept (cache.isFresh now) then return cache.keys else renew source now

/-- The key with an id, looked for in the key set at hand and then in a new one. -/
def key (source : KeySource ε) (id : Value) : Operation (KeyCache × ε) Value := do
  match ← .ofExcept (find (← current source) id) with
  | some found => return found
  | none =>
    match ← .ofExcept (find (← refresh source) id) with
    | some found => return found
    | none => .fail (.rejectedToken "Unknown kid")

/-- The algorithm that a header names. -/
def algorithm (header : Entries) : Value :=
  (Entries.get? header "alg").getD (.text "RS256")

/-- The check of a token with a header, which has to be an object. -/
def checkBy (source : KeySource ε) (token header issuer audience : Value) :
    Operation (KeyCache × ε) TokenCheck := do
  match header with
  | .object entries =>
    let key ← key source (Entries.get entries "kid")
    return ⟨token, key, [algorithm entries], issuer, audience⟩
  | _ => .fail .missingOperation

/-- The check of a token while the clock stands still. -/
def check (fetch : Operation ε Value) (now : Value.Numeric) :
    Value → Value → Value → Value → Operation (KeyCache × ε) TokenCheck :=
  checkBy ⟨pure now, fetch⟩

end KeyCache

end GovernedRecords
