-- SUMMARY: The whole service: the authorization endpoint, the push endpoint and the host's calls beside the token endpoints.
import OauthAs.Server.Endpoint
import OauthAs.Server.System

/-!
# The service

The running server of `Server.System` with the front half added: clients push requests, browsers
come to the authorization endpoint, and the host may validate a request and issue a code for it
by calls of its own. All of them run over the world of the token endpoints, so that a run of the
service interleaves the two halves.
-/

namespace OauthAs

/-- Codes are issued by the calls below; the step they share is no entry point. -/
def Request.isEntry : Request → Bool
  | .issueAuthorizationCode _ _ => false
  | _ => true

inductive ServiceRequest where
  | api (request : Request) (entry : request.isEntry = true)
  | push (p : PushRequest)
  | validate (request : AuthorizationRequest)
  | validatePushed (clientId requestUri : String)
  | validateSigned (clientId object : String)
  | issueCode (approval : UserApproval)
  | issueCodeWith (approval : UserApproval) (requirement : AuthenticationRequirement)
      (authentication : Option Authentication)
  | authorize (p : AuthorizeRequest)
deriving DecidableEq

inductive ServiceReply where
  | api (reply : Reply)
  | pushed (result : Except ErrorResponse PushedAuthorizationResponse)
  | validated (result : Except AuthorizationError ValidatedAuthorizationRequest)
  | code (result : Except AuthorizationErrorRedirect AuthorizationResponse)
  | response (response : Response)
deriving DecidableEq

/-- The endpoint answers either way. -/
def ServiceReply.ofEndpoint : Except Response Response → ServiceReply
  | .ok r | .error r => .response r

/-- How an authorization request reaches the server. -/
inductive Door where
  | query (request : AuthorizationRequest)
  | pushed (clientId requestUri : String)
  | signed (clientId object : String)
deriving DecidableEq

namespace Server

variable (srv : Server)

/-- The door a query comes through, if it is not refused at once. -/
def doorOf (pairs : List (String × String)) : Option Door :=
  match param pairs "request_uri", param pairs "request" with
  | none, none => some (.query (.fromPairs pairs))
  | some _, some _ => none
  | some requestUri, none => (param pairs "client_id").map (.pushed · requestUri)
  | none, some object => (param pairs "client_id").map (.signed · object)

/-- The door a request of the service comes through. -/
def door : ServiceRequest → Option Door
  | .validate request => some (.query request)
  | .validatePushed clientId requestUri => some (.pushed clientId requestUri)
  | .validateSigned clientId object => some (.signed clientId object)
  | .authorize p => (parsePairs srv.host.fromUtf8Lossy p.query).bind doorOf
  | _ => none

def resolve : Door → Handler AuthorizationError ValidatedAuthorizationRequest
  | .query request => srv.validateAuthorizationRequest request
  | .pushed clientId requestUri => srv.validatePushedAuthorizationRequest clientId requestUri
  | .signed clientId object => srv.validateSignedAuthorizationRequest clientId object

/-- A query is resolved as its door says, or refused without looking any further. -/
theorem resolveAuthorizationRequest_eq (pairs : List (String × String)) :
    (∃ door, doorOf pairs = some door ∧
      srv.resolveAuthorizationRequest pairs = srv.resolve door) ∨
    (doorOf pairs = none ∧
      ∃ e, srv.resolveAuthorizationRequest pairs = throw (.direct e)) := by
  unfold doorOf resolveAuthorizationRequest AuthorizationError.refuse
  cases param pairs "request_uri" with
  | none =>
    cases param pairs "request" with
    | none => exact .inl ⟨_, rfl, rfl⟩
    | some object =>
      cases param pairs "client_id" with
      | none => exact .inr ⟨rfl, _, rfl⟩
      | some clientId => exact .inl ⟨_, rfl, rfl⟩
  | some requestUri =>
    cases param pairs "request" with
    | some object => exact .inr ⟨rfl, _, rfl⟩
    | none =>
      cases param pairs "client_id" with
      | none => exact .inr ⟨rfl, _, rfl⟩
      | some clientId => exact .inl ⟨_, rfl, rfl⟩

def serve : ServiceRequest → Prog Effect Effect.Answer ServiceReply
  | .api request _ => .api <$> srv.handle request
  | .push p => .pushed <$> (srv.pushedAuthorizationRequest p).run
  | .validate request => .validated <$> (srv.validateAuthorizationRequest request).run
  | .validatePushed clientId requestUri =>
    .validated <$> (srv.validatePushedAuthorizationRequest clientId requestUri).run
  | .validateSigned clientId object =>
    .validated <$> (srv.validateSignedAuthorizationRequest clientId object).run
  | .issueCode approval => .code <$> (srv.issueAuthorizationCode approval).run
  | .issueCodeWith approval requirement authentication =>
    .code <$> (srv.issueAuthorizationCodeWithAuthentication approval requirement
      authentication).run
  | .authorize p => .ofEndpoint <$> (srv.authorizeHandler p).run

def service : Semantics World Effect Effect.Answer Choice ServiceRequest ServiceReply Occurrence where
  handler := srv.serve
  perform := World.perform
  environment := World.environment

end Server

abbrev ServiceState := System World Effect Effect.Answer ServiceRequest ServiceReply

abbrev ServiceCall := Thread Effect Effect.Answer ServiceRequest ServiceReply

abbrev ServiceMove := Action Choice ServiceRequest Occurrence

namespace ServiceState

/-- No requests yet, whatever the world holds. -/
def idle (w : World) : ServiceState := ⟨w, []⟩

end ServiceState

/-- The service gets to the state from a store it has never used. -/
abbrev Server.ServiceRuns (srv : Server) (ok : ServiceState → ServiceMove → ServiceState → Prop)
    (clock : SystemTime) (s : ServiceState) : Prop :=
  srv.service.Reaches ok (ServiceState.idle (.initial clock)) s

/-! ## A deployment that takes pushed requests

The client of the small deployment pushes its request, and schedules of the service on it. -/

namespace Sample

def pushing : Server := ⟨{ config with par := some .new }, host⟩

def asking : List (String × String) :=
  [("response_type", "code"), ("client_id", "app"), ("code_challenge", verifier),
    ("code_challenge_method", "S256")]

def push : PushRequest := ⟨"app", .secret none, asking, none⟩

/-- The request makes its next calls, which leave nothing open. -/
def goes (i n : Nat) : List ServiceMove := List.replicate n (.run i .none)

/-- The client is registered. -/
def appears : List ServiceMove := .spawn (.api (.registerClient app) rfl) :: goes 0 1

/-- A push, to its end. -/
def pushes (i : Nat) (p : PushRequest) : List ServiceMove :=
  [.spawn (.push p), .run i .none, .run i (.decision .allow)] ++ goes i 2 ++
    [.run i (.decision .allow)] ++ goes i 3 ++ [.run i (.hex (some code))] ++ goes i 1

def handle : String := requestUriPrefix ++ code

/-- The record of the push, made at the epoch. -/
def lodged : PushedAuthorizationRequest :=
  pushedRecord "app" (.fromPairs asking) handle 0 (pushing.deadline 0 (.fromSecs 60))

/-- The client presents its handle, to the end. -/
def presents (i : Nat) : List ServiceMove :=
  [.spawn (.validatePushed "app" handle)] ++ goes i 2 ++ [.run i (.decision .allow)] ++ goes i 2

/-- Somebody else presents it, to the end. -/
def intrudes (i : Nat) : List ServiceMove := .spawn (.validatePushed "mallory" handle) :: goes i 2

/-- The host issues a code under this string. -/
def hostIssues (i : Nat) (asked : UserApproval) (drawn : String) : List ServiceMove :=
  [.spawn (.issueCode asked), .run i .none, .run i (.decision .allow), .run i .none,
    .run i (.hex (some drawn)), .run i .none]

/-- The client redeems the code, to the end. -/
def redeemsAt (i : Nat) (d : Fin 10) : List ServiceMove :=
  [.spawn (.api (.authorizationCodeToken (presentation "app")) rfl), .run i (.decision .allow)] ++
    goes i 6 ++ [.run i (.entropy (some (entropy d)))] ++ goes i 4

end Sample

end OauthAs
