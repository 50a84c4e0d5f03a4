import GovernedRecords.Http.Origin

/-!
# Preflight requests

Before a page sends certain requests, its browser asks whether it may.  The question names
the method and the headers of the request to come, and is answered before any route is
looked for, whatever its path and whoever asks.

Every header may be sent, and the methods of a fixed list.  The answer names the first
reasons, if there are any, for which the request may not be sent: a foreign origin, a
method beyond the list, and a request into a private network.
-/

set_option autoImplicit false

namespace GovernedRecords

/-- What a browser asks before a request. -/
structure Preflight where
  origin : Text
  method : Text
  headers : Option Text
  intoPrivateNetwork : Bool

namespace Preflight

/-- The question that a request is, if it is one. -/
def ofRequest? (request : HttpRequest) : Option Preflight :=
  if request.method = ("OPTIONS" : Text) then do
    let origin ← request.origin?
    let method ← request.headers.get? "access-control-request-method"
    return ⟨origin, method, request.headers.get? "access-control-request-headers",
      (request.headers.get? "access-control-request-private-network").isSome⟩
  else none

/-- The methods that pages may use. -/
def methods : List Text := ["DELETE", "GET", "HEAD", "OPTIONS", "PATCH", "POST", "PUT", "QUERY"]

/-- The seconds for which a browser may remember an answer. -/
def lifetime : Nat := 600

/-- The headers on which an answer depends. -/
def variation : List Text :=
  ["Origin", "Access-Control-Request-Method", "Access-Control-Request-Headers",
    "Access-Control-Request-Private-Network"]

/-- The reasons for which a request may not be sent. -/
def objections (question : Preflight) : List Text :=
  List.flatten [if Origin.isLocal question.origin then [] else ["origin"],
    if methods.contains question.method then [] else ["method"],
    if question.intoPrivateNetwork then ["private-network"] else []]

/-- The headers of the answer. -/
def answerHeaders (question : Preflight) : Headers :=
  List.flatten [
    [("vary", Text.join ", " variation), ("access-control-allow-methods", Text.join ", " methods),
      ("access-control-max-age", Text.ofNat lifetime),
      ("access-control-allow-credentials", "true")],
    if Origin.isLocal question.origin then
      [("access-control-allow-origin", question.origin)] else [],
    (question.headers.map fun names =>
      (("access-control-allow-headers", names) : Text × Text)).toList]

/-- The answer to a question. -/
def answer (question : Preflight) : Except Fault HttpResponse :=
  let (status, words) : Nat × Text :=
    if question.objections.isEmpty then (200, "OK")
    else (400, Text.concat ["Disallowed CORS ", Text.join ", " question.objections])
  (HttpResponse.bytes words).map fun octets =>
    ⟨status, some "text/plain; charset=utf-8", question.answerHeaders, octets⟩

end Preflight

end GovernedRecords
