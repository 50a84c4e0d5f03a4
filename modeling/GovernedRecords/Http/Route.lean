import GovernedRecords.Http.Origin

/-!
# Routes

A path leads to a resource, or to none.  A part of a path that names something is not
empty; one line break may follow a path that ends in a fixed word.

The documentation of the service stands beside its resources.  It alone may be asked for
without its contents.
-/

set_option autoImplicit false

namespace GovernedRecords

/-- What the paths of the service lead to. -/
inductive Resource where
  | documentation
  | health
  | models
  | model (name : Text)
  | schema (name : Text)
  | history (name : Text)
  | authorization (name : Text)
  | validation (name : Text)
  | drafts
  | draft (name : Text)
  | publication (name : Text)
  | records (model : Text)
  | record (model id : Text)

/-- What requests do with resources. -/
inductive Verb where
  | fetch
  | inspect
  | submit
  | replace
  | amend
  | remove
  deriving DecidableEq

namespace Verb

/-- The verb of a method. -/
def ofMethod? (method : Text) : Option Verb :=
  if method = ("GET" : Text) then some .fetch
  else if method = ("HEAD" : Text) then some .inspect
  else if method = ("POST" : Text) then some .submit
  else if method = ("PUT" : Text) then some .replace
  else if method = ("PATCH" : Text) then some .amend
  else if method = ("DELETE" : Text) then some .remove
  else none

end Verb

namespace Resource

/-- Whether a part of a path is a fixed word at its end. -/
def isFinal (part word : Text) : Bool := Origin.dropBreak part == word

/-- The resource below a model. -/
def ofModelPart? (name part : Text) : Option Resource :=
  if isFinal part "schema" then some (.schema name)
  else if isFinal part "history" then some (.history name)
  else if isFinal part "authorize" then some (.authorization name)
  else if isFinal part "validate" then some (.validation name)
  else none

/-- The words that lead to the documentation. -/
def documentationWords : List Text := ["openapi.json", "docs", "redoc"]

/-- The resource of the parts of a path. -/
def ofParts? : List Text → Option Resource
  | [only] =>
    if isFinal only "health" then some .health
    else if isFinal only "models" then some .models
    else if isFinal only "drafts" then some .drafts
    else if documentationWords.any (isFinal only) then some .documentation
    else none
  | [kind, name] =>
    if name.isEmpty then none
    else if kind = ("models" : Text) then some (.model name)
    else if kind = ("drafts" : Text) then some (.draft name)
    else if kind = ("crud" : Text) then some (.records name)
    else if kind = ("docs" : Text) && isFinal name "oauth2-redirect" then some .documentation
    else none
  | [kind, name, part] =>
    if name.isEmpty || part.isEmpty then none
    else if kind = ("models" : Text) then ofModelPart? name part
    else if kind = ("drafts" : Text) then
      if isFinal part "publish" then some (.publication name) else none
    else if kind = ("crud" : Text) then some (.record name part)
    else none
  | _ => none

/-- The resource that a path leads to. -/
def ofPath? (path : Text) : Option Resource :=
  match Text.splitOn '/' path with
  | [] :: parts => ofParts? parts
  | _ => none

/-- The verbs that a resource takes. -/
def verbs : Resource → List Verb
  | .documentation => [.fetch, .inspect]
  | .health => [.fetch]
  | .models => [.fetch]
  | .model _ => [.fetch, .replace, .amend, .remove]
  | .schema _ => [.fetch]
  | .history _ => [.fetch]
  | .authorization _ => [.submit]
  | .validation _ => [.submit]
  | .drafts => [.fetch]
  | .draft _ => [.fetch, .replace, .remove]
  | .publication _ => [.submit]
  | .records _ => [.fetch, .submit]
  | .record _ _ => [.fetch, .replace, .remove]

end Resource

/-- Where a request leads. -/
inductive Destination where
  | found (resource : Resource) (verb : Verb)
  | wrongMethod
  | otherPath
  | nowhere

namespace Destination

/-- A path with the slash at its end added or removed. -/
def toggleSlash (path : Text) : Text :=
  if path.getLast? = some (CodePoint.ofChar '/') then
    path.dropEndWhile fun point => point = CodePoint.ofChar '/'
  else path ++ [CodePoint.ofChar '/']

/-- The destination of a method and a path.  A path that leads nowhere, but somewhere with
the slash at its end added or removed, leads to that other path. -/
def ofRequest (method path : Text) : Destination :=
  match Resource.ofPath? path with
  | some resource =>
    match Verb.ofMethod? method with
    | some verb => if verb ∈ resource.verbs then .found resource verb else .wrongMethod
    | none => .wrongMethod
  | none =>
    if path ≠ ("/" : Text) && (Resource.ofPath? (toggleSlash path)).isSome then .otherPath
    else .nowhere

end Destination

end GovernedRecords
