-- SUMMARY: The authorization endpoint: query parsing, the three doors a request comes through, and the answer.
import OauthAs.Server.Push
import OauthAs.Server.Revoke

/-!
# The authorization endpoint

A request comes in the query, as a handle of a pushed request, or as a signed object. Once it is
resolved and the host has named the user, the host's approval step decides, a code is issued dated
from the arrival of the request, and the consent is remembered if the step said so.
-/

namespace OauthAs

/-! ## Form encoding -/

def hexValue (b : UInt8) : Option UInt8 :=
  if 48 ≤ b ∧ b ≤ 57 then some (b - 48)
  else if 97 ≤ b ∧ b ≤ 102 then some (b - 97 + 10)
  else if 65 ≤ b ∧ b ≤ 70 then some (b - 65 + 10)
  else none

/-- Escapes and plus signs; a `%` that starts no escape stays. -/
def percentDecode : Octets → Octets
  | [] => []
  | 43 :: rest => 32 :: percentDecode rest
  | 37 :: a :: b :: rest =>
    match hexValue a, hexValue b with
    | some high, some low => (high * 16 + low) :: percentDecode rest
    | _, _ => 37 :: percentDecode (a :: b :: rest)
  | c :: rest => c :: percentDecode rest

def decodeComponent (lossy : Octets → String) (raw : String) : String :=
  if raw.toList.any fun c => c == '%' || c == '+' then lossy (percentDecode raw.toUTF8.toList)
  else raw

def maxFormParameters : Nat := 64

/-- A name and its value, decoded; without `=` the value is empty. -/
def parsePair (lossy : Octets → String) (part : String) : String × String :=
  let name := part.toList.takeWhile (· != '=')
  let value := (part.toList.dropWhile (· != '=')).drop 1
  (decodeComponent lossy (String.ofList name), decodeComponent lossy (String.ofList value))

/-- The pairs of a query, unless it has too many separators. -/
def parsePairs (lossy : Octets → String) (input : String) : Option (List (String × String)) :=
  if input.toList.count '&' ≥ maxFormParameters then none
  else some (((segments '&' input).filter fun part => !part.isEmpty).map (parsePair lossy))

/-- The first occurrence of a parameter. -/
def param (pairs : List (String × String)) (name : String) : Option String :=
  (pairs.find? fun pair => pair.1 == name).map Prod.snd

/-! ## Answers -/

inductive Delivered where
  | code (code : String)
  | error (error : ErrorResponse)
deriving DecidableEq, Repr

/-- What is sent back through the browser: where to, and what is appended there. -/
structure Redirect where
  target : String
  delivered : Delivered
  state : Option String
  iss : String
deriving DecidableEq, Repr

inductive Response where
  | redirect (r : Redirect)
  | direct (error : ErrorResponse)
  | tooManyParameters
  | unwired (why : String)
  | host
deriving DecidableEq, Repr

def Response.isRedirect : Response → Bool
  | .redirect _ => true
  | _ => false

/-- Visible ASCII, which is all a header may carry. -/
def isHeaderText (text : String) : Bool :=
  text.toList.all fun c => (decide (32 ≤ c.toNat) && decide (c.toNat < 127)) || c == '\t'

/-- What is appended to the target is escaped, so only the target itself can be unfit. -/
def Redirect.respond (r : Redirect) : Response :=
  if isHeaderText r.target then .redirect r else .direct (.new .serverError)

def AuthorizationErrorRedirect.redirect (e : AuthorizationErrorRedirect) : Redirect :=
  ⟨e.redirectUri, .error e.error, e.state, e.iss⟩

def AuthorizationResponse.redirect (response : AuthorizationResponse) (redirectUri : String) :
    Redirect :=
  ⟨redirectUri, .code response.code, response.state, response.iss⟩

def AuthorizationError.respond : AuthorizationError → Response
  | .direct error => .direct error
  | .redirect error => error.redirect.respond

/-! ## The endpoint -/

/-- A request as it reaches the endpoint, with what the host's resolvers say for its headers. -/
structure AuthorizeRequest where
  query : String
  hasSubjectResolver : Bool
  subject : Option String
  hasApprovalResolver : Bool
  authentication : Option Authentication
deriving DecidableEq

namespace Server

open Handler

variable (srv : Server)

def resolveAuthorizationRequest (pairs : List (String × String)) :
    Handler AuthorizationError ValidatedAuthorizationRequest :=
  match param pairs "request_uri", param pairs "request" with
  | none, none => srv.validateAuthorizationRequest (.fromPairs pairs)
  | some _, some _ => throw (.refuse .invalidRequest
      "request and request_uri must not both be sent (RFC 9101 s5)")
  | some requestUri, none =>
    match param pairs "client_id" with
    | none => throw (.refuse .invalidRequest "client_id is required (RFC 9126 s4, RFC 9101 s5)")
    | some clientId => srv.validatePushedAuthorizationRequest clientId requestUri
  | none, some object =>
    match param pairs "client_id" with
    | none => throw (.refuse .invalidRequest "client_id is required (RFC 9126 s4, RFC 9101 s5)")
    | some clientId => srv.validateSignedAuthorizationRequest clientId object

/-- What was granted before, if the store says so. -/
def rememberedConsent (clientId : ClientId) (subject : String) :
    Handler Response (Option ConsentRecord) := do
  match ← tryStore (.findConsent clientId subject) with
  | .ok found => pure found
  | .error _ => pure none

def approvalRequest (p : AuthorizeRequest) (subject : String)
    (validated : ValidatedAuthorizationRequest) (remembered : Option ConsentRecord) :
    ApprovalRequest where
  subject := subject
  clientId := validated.clientId
  scope := validated.scope
  redirectUri := validated.redirectUri
  state := validated.state
  resource := validated.resource
  authorizationDetails := validated.authorizationDetails
  query := p.query
  remembered := remembered

/-- An approved request: the code, and the consent once there is a code. -/
def concludeAuthorization (p : AuthorizeRequest) (subject : String)
    (validated : ValidatedAuthorizationRequest) (receivedAt : SystemTime) (remember : Bool) :
    Handler Response Response := do
  let issued ← ExceptT.lift (srv.issueAuthorizationCodeWithAuthentication
    ⟨validated, subject, some receivedAt⟩ validated.authenticationRequirement p.authentication).run
  match issued with
  | .error e => pure e.redirect.respond
  | .ok response =>
    if remember then do
      let _ ← ExceptT.lift (recordConsent validated.clientId subject validated.scope
        validated.resource p.authentication).run
    pure (response.redirect validated.redirectUri).respond

/-- The resolved request, put before the user. -/
def approveAuthorization (p : AuthorizeRequest) (validated : ValidatedAuthorizationRequest)
    (receivedAt : SystemTime) : Handler Response Response :=
  match p.subject with
  | none => throw (.unwired (if p.hasSubjectResolver then
      "no authenticated resource owner: nobody is signed in for this request"
      else "no authenticated resource owner; the host must supply a subject resolver"))
  | some subject => do
    let remembered ← rememberedConsent validated.clientId subject
    if !p.hasApprovalResolver then
      throw (.unwired ("no approval step is configured; the host must supply an approval " ++
        "resolver (RFC 6749 s10.12)"))
    else do
      match ← perform (.approve (approvalRequest p subject validated remembered)) with
      | .deny => throw validated.denied.redirect.respond
      | .respond => throw .host
      | .approve => srv.concludeAuthorization p subject validated receivedAt false
      | .approveAndRemember => srv.concludeAuthorization p subject validated receivedAt true

def authorizeHandler (p : AuthorizeRequest) : Handler Response Response := do
  let receivedAt ← now
  match parsePairs srv.host.fromUtf8Lossy p.query with
  | none => throw .tooManyParameters
  | some pairs =>
    match ← ExceptT.lift (srv.resolveAuthorizationRequest pairs).run with
    | .error e => throw e.respond
    | .ok validated => srv.approveAuthorization p validated receivedAt

end Server

end OauthAs
