import GovernedRecords.Engine
import GovernedRecords.Http.Preflight
import GovernedRecords.Http.Route
import GovernedRecords.Store.Drafts
import GovernedRecords.Value.Members

/-!
# The service

The service answers requests for definitions, drafts and records.  Its state is the
registry, the records and the drafts.  Reading needs a principal; changing definitions,
and all that concerns drafts, needs an administrator.  Requests for records go through the
engine, which decides for itself.  Preflight requests concern none of these.

A refusal is a response that reports its issues.  Any other fault, and any response that
cannot be written, is an internal error, which tells nothing about itself.
-/

set_option autoImplicit false

namespace GovernedRecords

/-- How the principal of a request is found. -/
inductive Identity where
  /-- The headers say who it is, or else it is an administrator for tests. -/
  | declared
  /-- The user is the one that was verified before, or null. -/
  | verified (user : Value)

/-- A reply before it is written. -/
inductive Reply where
  /-- An object as JSON, with an entity tag if there is one. -/
  | object (status : Nat) (body : Value) (tag : Option Text)
  /-- A statement of the database's language. -/
  | statement (text : Text)
  /-- A page for readers. -/
  | page (text : Text)

namespace Reply

/-- The reply of a result. -/
def success (result : Value) : Reply := .object 200 (successBody result) none

/-- The reply that reports issues. -/
def failure (status : Nat) (issues : List Issue) : Reply := .object status (failureBody issues) none

/-- The reply that reports one issue. -/
def failed (status : Nat) (code message : Text) (path : Option Text) (detail : Value) : Reply :=
  failure status [⟨code, message, path, detail⟩]

/-- The response that a reply is written as. -/
def write : Reply → Except Fault HttpResponse
  | .object status body tag =>
    HttpResponse.json status (tag.map fun hash => (("etag", hash) : Text × Text)).toList
      (HttpResponse.visible body)
  | .statement text =>
    (HttpResponse.bytes text).map fun octets => ⟨200, some "application/sql", [], octets⟩
  | .page text =>
    (HttpResponse.bytes text).map fun octets => ⟨200, some "text/html; charset=utf-8", [], octets⟩

end Reply

/-- The state of the service. -/
structure Service (σ : Type) where
  registry : Registry σ
  records : MemoryRecords
  drafts : Drafts

/-- A step of the service. -/
abbrev Serving (σ α : Type) := Operation (Service σ) α

namespace Service

variable [Host] {σ α : Type}

/-- An operation of the registry. -/
def onRegistry (operation : Operation (Registry σ) α) : Serving σ α :=
  .within Service.registry (fun service registry => { service with registry := registry }) operation

/-- An operation of the registry and the records. -/
def onEngine (operation : Operation (Registry σ × MemoryRecords) α) : Serving σ α :=
  .within (fun service => (service.registry, service.records))
    (fun service pair => { service with registry := pair.1, records := pair.2 }) operation

/-- An operation on the drafts. -/
def onDrafts (operation : Operation Drafts α) : Serving σ α :=
  .within Service.drafts (fun service drafts => { service with drafts := drafts }) operation

/-! ## Principals -/

/-- The reply to a request without a user. -/
def unauthenticated : Reply :=
  .failed 401 "AUTH_REQUIRED" "Authenticated user required" none .null

/-- The principal of a request; none when there is no user. -/
def principal? (identity : Identity) (request : HttpRequest) : Except Fault (Option Principal) :=
  match identity with
  | .declared =>
    .ok (some ⟨.text ((request.headers.nonEmpty? "x-principal-id").getD "test-user"),
      .text ((request.headers.nonEmpty? "x-principal-role").getD "Admin")⟩)
  | .verified user =>
    if user.isTruthy then
      match user with
      | .object entries =>
        let id := Entries.get entries "id"
        let role := Entries.get entries "role"
        if id.isTruthy then
          match id.toText with
          | .ok known => .ok (some ⟨.text known, if role.isTruthy then role else .text []⟩)
          | .error error => .error (.ofText error)
        else .ok none
      | _ => .error .missingOperation
    else .ok none

/-- Runs a handler for the principal of a request. -/
def withPrincipal (identity : Identity) (request : HttpRequest)
    (run : Principal → Serving σ Reply) : Serving σ Reply := do
  match ← .ofExcept (principal? identity request) with
  | some principal => run principal
  | none => return unauthenticated

/-- Runs a handler for the principal of a request if it is an administrator. -/
def withAdmin (identity : Identity) (request : HttpRequest) (run : Principal → Serving σ Reply) :
    Serving σ Reply :=
  withPrincipal identity request fun principal =>
    if principal.isAdmin then run principal
    else return .failed 403 "INSUFFICIENT_PERMISSION" "Admin role required" (some "role") .null

/-- The actor that a principal is in the history. -/
def actorOf (principal : Principal) : Value :=
  .ofFields [("id", principal.id), ("role", principal.role)]

/-! ## Definitions -/

/-- The object that names something. -/
def nameDetail (name : Value) : Value := .ofFields [("name", name)]

/-- The reply to a name that no model can have. -/
def badName (name : Text) : Reply :=
  .failed 400 "MODEL_NAME_INVALID" "Model name must be an identifier" (some "name")
    (nameDetail (.text name))

/-- Runs a handler on a name that may be that of a model. -/
def withName (name : Text) (run : Serving σ Reply) : Serving σ Reply :=
  if name.isModelName then run else return badName name

/-- Runs a handler on the entries of a body. -/
def withEntries (request : HttpRequest) (refused : Reply) (run : Entries → Serving σ Reply) :
    Serving σ Reply := do
  match ← .ofExcept request.json with
  | .object entries => run entries
  | _ => return refused

/-- The reply to a body that is no object where a definition is needed. -/
def notObject (message : Text) : Reply :=
  .failed 400 "INVALID_DEFINITION" message (some "definition") .null

/-- The reply to a body that is no object. -/
def bodyNotObject : Reply := .failed 400 "INVALID_PAYLOAD" "Body must be an object" none .null

/-- The tag of a content hash. -/
def tagOf (hash : Text) : Text := Text.concat ["\"", hash, "\""]

/-- The fields that describe a definition, and its content hash. -/
def described (definition : Definition) : Except Fault (Entries × Text) := do
  let hash ← definition.hash
  let fields : Entries :=
    [(.text "definition", definition.toDocument), (.text "definition_hash", .text hash)]
  return (fields, hash)

/-- The reply that describes a definition. -/
def replyOf (definition : Definition) : Serving σ Reply := do
  let (fields, hash) ← .ofExcept (described definition)
  return .object 200 (successBody (.object fields)) (some (tagOf hash))

/-- The reply that describes all definitions. -/
def listModels (store : DefinitionStore σ) (now : Instant) : Serving σ Reply := do
  let definitions ← onRegistry (Registry.list store now)
  let shown ← .ofExcept (definitions.mapM Definition.describe)
  return .success (.ofFields [("models", .list shown)])

/-- The reply to a definition under another name than that of its path. -/
def nameMismatch (given : Value) : Reply :=
  .failed 400 "NAME_MISMATCH" "Definition name must match the URL" (some "name") (nameDetail given)

/-- Saves the definition of a body under the name of its path. -/
def saveModel (store : DefinitionStore σ) (now : Instant) (name : Text) (request : HttpRequest)
    (principal : Principal) : Serving σ Reply :=
  withName name <|
    withEntries request (notObject "Definition must be an object") fun entries => do
      let document := if Entries.has entries "name" then entries
        else Entries.put "name" (.text name) entries
      let given := Entries.get document "name"
      if given.isText name then
        replyOf (← onRegistry
          (Engine.saveDocument store now (.object document) (actorOf principal)))
      else return nameMismatch given

/-- Changes parts of a definition. -/
def amendModel (store : DefinitionStore σ) (now : Instant) (name : Text) (request : HttpRequest)
    (principal : Principal) : Serving σ Reply :=
  withEntries request (notObject "Changes must be an object") fun entries => do
    replyOf (← onRegistry
      (Registry.update store now name (.object entries) (actorOf principal)))

/-- The reply to a removal. -/
def removed (name : Text) : Reply :=
  .success (.ofFields [("name", .text name), ("deleted", .bool true)])

/-- Whether the principal may perform the action that a body names. -/
def authorize (store : DefinitionStore σ) (now : Instant) (name : Text) (request : HttpRequest)
    (principal : Principal) : Serving σ Reply :=
  withEntries request bodyNotObject fun entries => do
    let verdict ← onRegistry (Engine.authorize store now (.text name) principal
      (Entries.get entries "action") (Entries.get entries "owner_value"))
    return .success (.ofFields verdict.fields)

/-- Checks the record of a body. -/
def validate (store : DefinitionStore σ) (now : Instant) (name : Text) (request : HttpRequest) :
    Serving σ Reply :=
  withEntries request bodyNotObject fun entries => do
    let given := Entries.get entries "mode"
    let mode := if given.isTruthy then given else .text Mode.create.name
    if (Mode.ofValue? mode).isNone then
      return .failed 400 "MODE_INVALID" "mode must be create or update" (some "mode")
        (.ofFields [("mode", given)])
    else
      let record := Entries.get entries "record"
      match ← onRegistry (Engine.validate store now (.text name) record mode) with
      | .invalid errors => return .failure 400 errors
      | .valid record =>
        return .success (.ofFields [("record", .object record.values),
          ("unique_fields", Value.ofTexts record.uniqueFields)])

/-! ## Drafts -/

/-- The reply to a name without a draft. -/
def draftNotFound (name : Text) : Reply :=
  .failed 404 "DRAFT_NOT_FOUND" "Draft not found" (some "name") (nameDetail (.text name))

/-- The reply that shows a draft. -/
def draftReply (draft : Draft) : Reply := .success (.ofFields [("draft", draft.toValue)])

/-- Sets the document of a draft. -/
def saveDraft (now : Instant) (name : Text) (request : HttpRequest) (principal : Principal) :
    Serving σ Reply :=
  withName name <|
    withEntries request (notObject "Draft must be an object") fun entries => do
      return draftReply (← onDrafts (Drafts.submit now (.text name) (.object entries) principal.id))

/-- Removes a draft. -/
def removeDraft (name : Text) : Serving σ Reply := do
  return if ← onDrafts (.step (Drafts.delete name)) then removed name else draftNotFound name

/-- The document that a draft puts in force: its own under its name. -/
def publishedDocument (draft : Draft) : Except Fault Value := do
  let entries ← if draft.definition.isTruthy then draft.definition.toEntries else .ok []
  return .object (Entries.put "name" draft.name entries)

/-- Puts a draft in force. -/
def publishDraft (store : DefinitionStore σ) (now : Instant) (name : Text) (principal : Principal) :
    Serving σ Reply := do
  match (← get).drafts.get? name with
  | none => return draftNotFound name
  | some draft =>
    let document ← .ofExcept (publishedDocument draft)
    let definition ← onRegistry (Engine.saveDocument store now document (actorOf principal))
    let (fields, hash) ← .ofExcept (described definition)
    let published ← onDrafts (.step (Drafts.publish now name (.text hash)))
    let shown := Entries.put "draft" ((published.map Draft.toValue).getD .null) fields
    return .object 200 (successBody (.object shown)) (some (tagOf hash))

/-! ## Records -/

/-- The record that a body carries, null for none. -/
def recordOf (request : HttpRequest) : Except Fault Value :=
  request.json.map fun body =>
    match body with
    | .object entries => Entries.get entries "record"
    | _ => .null

/-- Handles a request for records with the payload that its body carries.  One whose client has
gone by then is cancelled from the start. -/
def onRecords (store : DefinitionStore σ) (now : Instant) (gone : Bool) (model : Text)
    (action : Action) (id : Value) (payload : Except Fault Value) (principal : Principal) :
    Serving σ Reply := do
  let payload ← .ofExcept payload
  let outcome ← onEngine (Engine.handle store (MemoryRecords.store now) now (fun _ => gone)
    ⟨.text model, .text action.name, principal, payload, id⟩)
  match outcome.result with
  | .ok response =>
    return .object (if action = .create then 201 else 200) (successBody response.toValue) none
  | .error refusal => return .failure refusal.status refusal.issues

/-! ## All requests -/

/-- The reply of a resource. -/
def handle (store : DefinitionStore σ) (now : Instant) (identity : Identity)
    (request : HttpRequest) (gone : Bool) (resource : Resource) (verb : Verb) :
    Serving σ Reply :=
  let reading := withPrincipal identity request
  let changing := withAdmin identity request
  let onRecords := onRecords store now gone
  match resource, verb with
  | .documentation, _ => return .page "modelkit"
  | .health, _ => return .object 200 (.ofFields [("ok", .bool true)]) none
  | .models, _ => reading fun _ => listModels store now
  | .model name, .fetch => reading fun _ => do replyOf (← onRegistry (Registry.load store now name))
  | .model name, .replace => changing (saveModel store now name request)
  | .model name, .amend => changing (amendModel store now name request)
  | .model name, _ => changing fun principal => do
    onRegistry (Registry.delete store now name (actorOf principal))
    return removed name
  | .schema name, _ => reading fun _ => do
    return .statement (← onRegistry (Engine.schema store now (.text name)))
  | .history name, _ => reading fun _ => do
    let entries ← onRegistry (Registry.history name)
    return .success (.ofFields [("name", .text name),
      ("history", .list (entries.map AuditEntry.toValue))])
  | .authorization name, _ => reading (authorize store now name request)
  | .validation name, _ => reading fun _ => validate store now name request
  | .drafts, _ => changing fun _ => do
    return .success (.ofFields [("drafts", .list ((← get).drafts.list.map Draft.summary))])
  | .draft name, .fetch => changing fun _ => do
    return (((← get).drafts.get? name).map draftReply).getD (draftNotFound name)
  | .draft name, .replace => changing (saveDraft now name request)
  | .draft name, _ => changing fun _ => removeDraft name
  | .publication name, _ => changing (publishDraft store now name)
  | .records model, .submit =>
    reading (onRecords model .create .null (recordOf request))
  | .records model, _ => reading (onRecords model .read .null (.ok .null))
  | .record model id, .fetch => reading (onRecords model .read (.text id) (.ok .null))
  | .record model id, .replace => reading (onRecords model .update (.text id) (recordOf request))
  | .record model id, _ => reading (onRecords model .delete (.text id) (.ok .null))

/-- The response to a request that leads nowhere, with the words that say why. -/
def unrouted (status : Nat) (words : Text) : Except Fault HttpResponse :=
  HttpResponse.json status [] (.ofFields [("detail", .text words)])

/-- The response that sends to another path. -/
def redirected (path : Text) : Except Fault HttpResponse :=
  (HttpResponse.bytes path).map fun _ => ⟨307, none, [("location", path)], []⟩

/-- The response of a handler; a refusal reports its issues. -/
def respond (handler : Serving σ Reply) : Serving σ HttpResponse := do
  match ← handler.attempt with
  | .ok reply => .ofExcept reply.write
  | .error (.refused refusal) =>
    .ofExcept (Reply.failure refusal.status refusal.issues).write
  | .error fault => .fail fault

/-- The response to a request. -/
def response (store : DefinitionStore σ) (now : Instant) (identity : Identity)
    (request : HttpRequest) (gone : Bool) : Serving σ HttpResponse :=
  match Destination.ofRequest request.method request.path with
  | .found resource verb => respond (handle store now identity request gone resource verb)
  | .wrongMethod => .ofExcept (unrouted 405 "Method Not Allowed")
  | .otherPath => .ofExcept (redirected (Destination.toggleSlash request.path))
  | .nowhere => .ofExcept (unrouted 404 "Not Found")

/-- The response to a request that failed. -/
def internalError : HttpResponse :=
  let body := failureBody [⟨"INTERNAL_ERROR", "Unexpected server error", none, .null⟩]
  match HttpResponse.json 500 [] body with
  | .ok response => response
  | .error _ => ⟨500, none, [], []⟩

/-- The response that a request ends with, and an internal error for a fault. -/
def concluded : Except Fault HttpResponse → HttpResponse
  | .ok response => response
  | .error _ => internalError

/-- Answers a request, whose client may have gone before the engine is asked. -/
def answerTo (store : DefinitionStore σ) (now : Instant) (identity : Identity)
    (request : HttpRequest) (gone : Bool) (service : Service σ) : HttpResponse × Service σ :=
  match Preflight.ofRequest? request with
  | some question => (concluded question.answer, service)
  | none =>
    let (result, service) := (response store now identity request gone).on service
    (concluded (result.map (HttpResponse.sharedWith request.origin?)), service)

/-- Answers a request whose client waits for the answer. -/
def answer (store : DefinitionStore σ) (now : Instant) (identity : Identity)
    (request : HttpRequest) (service : Service σ) : HttpResponse × Service σ :=
  answerTo store now identity request false service

end Service

end GovernedRecords
