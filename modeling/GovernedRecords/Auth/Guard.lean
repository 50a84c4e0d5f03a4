import GovernedRecords.Auth.Claims
import GovernedRecords.Http.Origin
import GovernedRecords.Operation

/-!
# The guard

The guard stands before the service and admits requests with a token that is accepted.
It lets through what needs no token: the health check, and requests that only ask what is
allowed.  A request that is not admitted is answered by the guard itself.
-/

set_option autoImplicit false

namespace GovernedRecords

/-- The address of the issuer of tokens, and the audience they must have, null for none. -/
structure Guard where
  address : Text
  audience : Value

/-- What becomes of a request. -/
inductive Admission where
  /-- It goes on, with the user that was verified, if one was. -/
  | admitted (user : Option Value)
  /-- It is answered. -/
  | answered (response : HttpResponse)

namespace Guard

variable {τ : Type}

/-- The issuer that tokens must name. -/
def issuer (guard : Guard) : Text :=
  Text.concat [guard.address.dropEndWhile fun point => point = CodePoint.ofChar '/', "/auth/v1"]

/-- Where the keys of the issuer are published. -/
def keyAddress (guard : Guard) : Text := Text.concat [guard.issuer, "/.well-known/jwks.json"]

/-- The path that needs no token. -/
def openPath : Text := "/health"

/-- The path of an address: it begins with a slash, and the code points that addresses
leave out are dropped. -/
def addressPath (path : Text) : Text :=
  let rooted := match path with
    | [] => path
    | first :: _ =>
      if first = CodePoint.ofChar '/' then path else CodePoint.ofChar '/' :: path
  rooted.filter fun point => !([9, 10, 13] : List Nat).contains point.val

/-- Whether a request needs no token. -/
def isOpen (request : HttpRequest) : Bool :=
  request.method == ("OPTIONS" : Text) || addressPath request.path == openPath

/-- The response to a request that is not admitted. -/
def refused (request : HttpRequest) (code message : Text) (detail : Value) :
    Except Fault HttpResponse :=
  (HttpResponse.json 401 [] (failureBody [⟨code, message, some "Authorization", detail⟩])).map
    (HttpResponse.openedTo request.origin?)

/-- The words of a fault that means that a token is not accepted. -/
def rejection? : Fault → Option Text
  | .rejectedToken message => some message
  | .unreachableKeys message => some message
  | _ => none

/-- Decides about a request.  The check of a token is given the token, the address of the
keys, the issuer and the audience, and answers with the claims. -/
def judge (guard : Guard) (disabled : Bool)
    (verify : Text → Text → Text → Value → Operation τ Value) (request : HttpRequest) :
    Operation τ Admission := do
  if disabled || isOpen request then return .admitted none
  else
    match bearerToken? ((request.headers.get? "authorization").getD []) with
    | none =>
      return .answered (← .ofExcept
        (refused request "AUTH_MISSING_TOKEN" "Missing bearer token" .null))
    | some token =>
      match ← (verify token guard.keyAddress guard.issuer guard.audience).attempt with
      | .ok claims => return .admitted (some (← .ofExcept (Claims.userOf claims)))
      | .error fault =>
        match rejection? fault with
        | none => .fail fault
        | some message =>
          return .answered (← .ofExcept
            (refused request "AUTH_INVALID_TOKEN" "Invalid bearer token"
              (.ofFields [("error", .text message)])))

end Guard

end GovernedRecords
