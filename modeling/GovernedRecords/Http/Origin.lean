import GovernedRecords.Http.Message
import GovernedRecords.Text.DecimalDigit

/-!
# Origins

Pages of a local origin, which is any port of this machine, may read the responses of the
service.  Every response to a request with an origin tells that it depends on it; a
response of the guard tells so only where the origin is local.
-/

set_option autoImplicit false

namespace GovernedRecords

namespace Origin

/-- What stands before the port of a local origin. -/
def localHosts : List Text := ["http://localhost:", "http://127.0.0.1:"]

/-- Whether a text is a port: one digit or more. -/
def isPort (text : Text) : Bool := !text.isEmpty && text.all CodePoint.isDecimal

/-- Whether an origin is a port of this machine. -/
def isLocal (origin : Text) : Bool :=
  localHosts.any fun host => host.isPrefixOf origin && isPort (origin.drop host.length)

/-- A text without one line break at its end. -/
def dropBreak (text : Text) : Text :=
  if text.getLast? = some (CodePoint.ofChar '\n') then text.dropLast else text

end Origin

namespace HttpRequest

/-- The origin of the page that makes a request. -/
def origin? (request : HttpRequest) : Option Text := request.headers.get? "origin"

end HttpRequest

namespace HttpResponse

/-- A response of the service with what it tells about origins. -/
def sharedWith (origin : Option Text) (response : HttpResponse) : HttpResponse :=
  match origin with
  | none => response
  | some origin =>
    { response with
      headers := List.flatten [response.headers, [("access-control-allow-credentials", "true")],
        if Origin.isLocal origin then [("access-control-allow-origin", origin)] else [],
        [("vary", "Origin")]] }

/-- A response of the guard with what it tells local origins. -/
def openedTo (origin : Option Text) (response : HttpResponse) : HttpResponse :=
  match origin with
  | none => response
  | some origin =>
    if Origin.isLocal (Origin.dropBreak origin) then
      { response with
        headers := Headers.putDefault "Vary" "Origin"
          (Headers.putDefault "Access-Control-Allow-Methods" "*"
            (Headers.putDefault "Access-Control-Allow-Headers" "*"
              (Headers.putDefault "Access-Control-Allow-Credentials" "true"
                (Headers.putDefault "Access-Control-Allow-Origin" origin response.headers)))) }
    else response

end HttpResponse

end GovernedRecords
