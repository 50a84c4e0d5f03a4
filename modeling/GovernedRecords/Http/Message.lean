import GovernedRecords.Fault
import GovernedRecords.Json.Reader
import GovernedRecords.Text.LowerCase

/-!
# HTTP messages

A request has a method, a path with its escapes resolved, headers and a body; a response
has a status, perhaps a content type, headers and a body.  Header names are compared
without regard to case.

A body is read as JSON in the encoding that its beginning tells; a body that is no JSON
counts as null, but one that is nested too deeply is a fault.  A response shows a value as
compact JSON, without the entries that are private, and can fail to: JSON has no numbers
that are not finite, and UTF-8 no lone surrogates.  Headers are sent one byte a code point,
so that not every text can stand in them.
-/

set_option autoImplicit false

namespace GovernedRecords

variable [Host]

/-- The headers of a message. -/
abbrev Headers := List (Text × Text)

namespace Headers

/-- The first header with a name. -/
def get? (headers : Headers) (name : Text) : Option Text :=
  (headers.find? fun header => header.1.lower == name.lower).map (·.2)

/-- The first header with a name, none when it is empty. -/
def nonEmpty? (headers : Headers) (name : Text) : Option Text :=
  (get? headers name).filter fun value => !value.isEmpty

/-- Adds a header unless there is one with its name. -/
def putDefault (name value : Text) (headers : Headers) : Headers :=
  if (get? headers name).isSome then headers else headers ++ [(name, value)]

/-- Whether a text can stand in a header. -/
def isSendable (text : Text) : Bool := text.all fun point => point.val < 256

/-- Headers as they are sent. -/
def sent (headers : Headers) : Except Fault Headers :=
  if headers.all fun header => isSendable header.1.lower && isSendable header.2 then .ok headers
  else .error .unencodable

end Headers

/-- A request. -/
structure HttpRequest where
  method : Text
  path : Text
  headers : Headers
  body : List Octet

/-- A response. -/
structure HttpResponse where
  status : Nat
  contentType : Option Text
  headers : Headers
  body : List Octet

namespace HttpRequest

/-- The value of a body, null for one that is no JSON. -/
def json (request : HttpRequest) : Except Fault Value :=
  match (Encoding.readBody? request.body).map Json.read with
  | some (.ok value) => .ok value
  | some (.error .tooDeep) => .error .tooDeep
  | _ => .ok .null

end HttpRequest

namespace HttpResponse

/-- What the keys of private entries begin with. -/
def privateMark : Text := "_sa"

/-- Whether a key is the key of a private entry. -/
def isPrivate : Value → Bool
  | .text name => privateMark.isPrefixOf name
  | _ => false

mutual
/-- A value without its private entries. -/
def visible : Value → Value
  | .list items => .list (visibleItems items)
  | .tuple items => .list (visibleItems items)
  | .object entries => .object (visibleEntries entries)
  | other => other

/-- The items of a list without their private entries. -/
def visibleItems : List Value → List Value
  | [] => []
  | first :: rest => visible first :: visibleItems rest

/-- The entries of an object that are not private. -/
def visibleEntries : List (Value × Value) → List (Value × Value)
  | [] => []
  | (key, value) :: rest =>
    if isPrivate key then visibleEntries rest else (key, visible value) :: visibleEntries rest
end

/-- The bytes of a text. -/
def bytes (text : Text) : Except Fault (List Octet) :=
  match Utf8.encode? text with
  | some octets => .ok octets
  | none => .error .unencodable

/-- A response of JSON. -/
def json (status : Nat) (headers : Headers) (value : Value) : Except Fault HttpResponse := do
  let text ← (Json.write Json.Style.compact value).mapError Fault.ofWriting
  return ⟨status, some "application/json", headers, ← bytes text⟩

end HttpResponse

/-- The object of a response that reports issues. -/
def failureBody (issues : List Issue) : Value :=
  .ofFields [("ok", .bool false), ("errors", .list (issues.map Issue.toValue)),
    ("warnings", .list [])]

/-- The object of a response that succeeds, with the fields of its result. -/
def successBody (result : Value) : Value :=
  .object (Entries.put "warnings" (.list []) (Entries.put "errors" (.list [])
    ((.text "ok", .bool true) :: result.asObject?.getD [])))

end GovernedRecords
