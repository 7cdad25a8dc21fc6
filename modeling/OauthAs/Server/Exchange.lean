-- SUMMARY: Token exchange: the subject and actor tokens, the two scope ceilings, the targets and the lifetime ceiling.
import OauthAs.Server.Issue

/-!
# Token exchange

A confidential client presents an access token of this server and gets one of its own for the
same subject. Without an actor token the exchange is impersonation and the new token names nobody
but the subject. With one it is delegation: the authenticated client becomes the current actor,
in front of the actors the subject token records.
-/

namespace OauthAs

inductive TokenTypeIdentifier where
  | accessToken
  | refreshToken
  | idToken
  | saml1
  | saml2
  | jwt
deriving DecidableEq, Repr

inductive ExchangeSemantics where
  | impersonation
  | delegation
deriving DecidableEq, Repr

structure TokenExchangeRequest where
  clientId : ClientId
  clientSecret : Option String
  clientAssertionType : Option String
  clientAssertion : Option String
  subjectToken : String
  subjectTokenType : TokenTypeIdentifier
  actorToken : Option String
  actorTokenType : Option TokenTypeIdentifier
  resource : List String
  audience : List String
  scope : Option ScopeSet
  requestedTokenType : Option TokenTypeIdentifier
deriving DecidableEq

/-- Neither a certificate nor a DPoP proof is accepted here, because nothing would carry the
binding. -/
def TokenExchangeRequest.bound (request : TokenExchangeRequest) : Bound where
  cred :=
    { clientSecret := request.clientSecret
      clientAssertionType := request.clientAssertionType
      clientAssertion := request.clientAssertion
      certificate := none }
  jkt := none

structure TokenExchangeResponse where
  accessToken : String
  issuedTokenType : TokenTypeIdentifier
  tokenType : TokenType
  expiresIn : Option Nat
  scope : Option String
  refreshToken : Option String
deriving DecidableEq

structure ExchangedToken where
  response : TokenExchangeResponse
  semantics : ExchangeSemantics
  act : Option ActClaim
deriving DecidableEq

/-- The most values of `audience`: the cap on resource indicators. -/
def maxAudienceValues : Nat := Server.maxResourceIndicators

def maxActChainDepth : Nat := 8

/-- The loop of `actChainDepth`: counts the nested actors and stops at the bound. -/
def countActors (depth : Nat) : ActClaim → Nat
  | .actor _ _ => depth
  | .after _ _ next =>
    if depth + 1 ≥ maxActChainDepth then depth + 1 else countActors (depth + 1) next

/-- How many actors a claim names, as far as the bound. -/
def actChainDepth (act : ActClaim) : Nat := countActors 1 act

namespace Server

open Handler

variable (srv : Server)

def invalidExchange (description : String) : ErrorResponse :=
  (ErrorResponse.new .invalidRequest).withDescription description

/-- Only access tokens are issued, so asking for nothing and for one of them is the same. -/
def issuedTokenType : Option TokenTypeIdentifier → Except ErrorResponse TokenTypeIdentifier
  | none | some .accessToken => .ok .accessToken
  | some _ =>
    .error (invalidExchange "this server issues only urn:ietf:params:oauth:token-type:access_token")

def senderConstrainedRefusal (mechanism : String) : ErrorResponse :=
  invalidExchange ("subject_token is sender constrained by " ++ mechanism ++
    " and cannot be exchanged for a token that is not, because the issued token would belong to " ++
    "a client that cannot prove possession of the binding key")

/-- A bound subject token is not exchanged for an unbound one, unless the host allows it. -/
def checkSenderConstraint (subject : IssuedToken) : Except ErrorResponse Unit :=
  if subject.jkt.isSome && !srv.config.allowSenderConstrainedExchange then
    .error (senderConstrainedRefusal "DPoP (RFC 9449)")
  else if subject.x5tS256.isSome && !srv.config.allowSenderConstrainedExchange then
    .error (senderConstrainedRefusal "mutual TLS (RFC 8705)")
  else .ok ()

/-- One refusal for every way an actor token can be unusable. -/
def unusableActor : ErrorResponse := invalidExchange "actor_token is not a live access token"

/-- The actors before the new one, unless there are too many already. -/
def checkActChain (act : Option ActClaim) : Except ErrorResponse Unit :=
  match act with
  | some prior =>
    if actChainDepth prior ≥ maxActChainDepth then
      .error (invalidExchange
        "the subject token's act chain is already at this server's maximum delegation depth")
    else .ok ()
  | none => .ok ()

/-- The acting party is the client that authenticated, by an access token of its own. -/
def exchangeActor (client : Client) (request : TokenExchangeRequest) (subject : IssuedToken) :
    Handler ErrorResponse (ExchangeSemantics × Option ActClaim) :=
  match request.actorToken, request.actorTokenType with
  | none, none => pure (.impersonation, none)
  | none, some _ => throw (invalidExchange "actor_token_type is meaningless without actor_token")
  | some _, none =>
    throw (invalidExchange "actor_token_type is required when actor_token is present")
  | some actorToken, some actorTokenType => do
    if actorTokenType ≠ .accessToken then
      throw (invalidExchange
        "actor_token_type must be urn:ietf:params:oauth:token-type:access_token")
    let actor ← require unusableActor (← introspect actorToken)
    if actor.clientId ≠ client.clientId then
      throw unusableActor
    judge (checkActChain subject.act)
    pure (.delegation, some (.new (actor.subject.getD actor.clientId) (some actor.clientId)
      subject.act))

/-- The two ceilings of the scope: the subject token's and the exchanging client's. -/
def exchangeScope (client : Client) (request : TokenExchangeRequest) (subject : IssuedToken) :
    Except ErrorResponse ScopeSet := do
  let scope ← match request.scope with
    | none => .ok subject.scope
    | some s =>
      if s.isSubset subject.scope then .ok s
      else .error ((ErrorResponse.new .invalidScope).withDescription
        "token exchange may narrow the subject token scope, never widen it")
  if !scope.isSubset client.allowedScopes then
    .error ((ErrorResponse.new .invalidScope).withDescription
      "scope exceeds the exchanging client registration")
  else .ok scope

/-- Details do not pass to another client, unless the host allows it. -/
def checkExchangedDetails (client : Client) (subject : IssuedToken) : Except ErrorResponse Unit :=
  if !subject.authorizationDetails.isEmpty && subject.clientId != client.clientId
      && !srv.config.allowAuthorizationDetailsExchange then
    .error (invalidExchange ("subject_token carries authorization_details and cannot be " ++
      "exchanged for a token issued to a different client, because this server has no " ++
      "per-client registration of the detail types that client may hold"))
  else .ok ()

/-- Adds the audiences to the targets; they need not be URIs but have to be permitted. -/
def addAudiences (targets : List String) : List String → Except ErrorResponse (List String)
  | [] => .ok targets
  | audience :: rest => do
    srv.targetIsPermitted audience
    addAudiences (if targets.contains audience then targets else targets ++ [audience]) rest

def exchangeTargets (request : TokenExchangeRequest) : Except ErrorResponse (List String) := do
  let targets ← srv.validateResources request.resource
  if request.audience.length > maxAudienceValues then
    .error ((ErrorResponse.new .invalidTarget).withDescription
      "too many audience values (RFC 8693 s2.1.1)")
  else srv.addAudiences targets request.audience

/-- The scope and the resources of the new token. -/
def judgeExchange (client : Client) (request : TokenExchangeRequest) (subject : IssuedToken) :
    Except ErrorResponse (ScopeSet × List String) := do
  let scope ← exchangeScope client request subject
  srv.checkExchangedDetails client subject
  let targets ← srv.exchangeTargets request
  let resource ← srv.narrowAndPermit subject.resource targets
  return (scope, resource)

/-- The new token belongs to the exchanging client and lives no longer than the subject token. -/
def exchangeIssueArgs (client : Client) (request : TokenExchangeRequest) (subject : IssuedToken)
    (granted : ScopeSet × List String) (act : Option ActClaim) : IssueArgs where
  client := client
  bound := request.bound
  grantType := .tokenExchange
  grantEstablishedAt := subject.grantEstablishedAt
  subject := subject.subject
  scope := granted.1
  resource := granted.2
  details := subject.authorizationDetails
  chain := none
  allowRefresh := false
  authentication := none
  act := act
  lifetimeCeiling := some subject.expiresAt

/-- The subject token of a client that may exchange. -/
def exchangeSubject (client : Client) (request : TokenExchangeRequest) :
    Handler ErrorResponse IssuedToken := do
  if !client.auth.isConfidential then
    emit (.clientAuthenticationFailed request.clientId .notConfidential)
    throw (.new .invalidClient)
  if !client.allowsGrant .tokenExchange then
    throw ((ErrorResponse.new .unauthorizedClient).withDescription
      "client registration does not include the token-exchange grant")
  if request.subjectTokenType ≠ .accessToken then
    throw (invalidExchange
      "subject_token_type must be urn:ietf:params:oauth:token-type:access_token")
  require (invalidExchange "subject_token is not a live access token")
    (← introspect request.subjectToken)

def exchange (request : TokenExchangeRequest) : Handler ErrorResponse ExchangedToken := do
  let issuedTokenType ← judge (issuedTokenType request.requestedTokenType)
  let client ← srv.authenticateClient request.clientId request.bound.cred
  let subject ← exchangeSubject client request
  judge (srv.checkSenderConstraint subject)
  let (semantics, act) ← exchangeActor client request subject
  let granted ← judge (srv.judgeExchange client request subject)
  let issued ← srv.issue (exchangeIssueArgs client request subject granted act)
  pure {
    response :=
      { accessToken := issued.accessToken
        issuedTokenType
        tokenType := issued.tokenType
        expiresIn := some issued.expiresIn
        scope := issued.scope
        refreshToken := none }
    semantics
    act }

/-- The exchange, with its refusals reported. -/
def exchangeToken (request : TokenExchangeRequest) : Handler ErrorResponse ExchangedToken := do
  match ← ExceptT.lift (srv.exchange request).run with
  | .ok exchanged => pure exchanged
  | .error error => do
    emit (.grantRefused request.clientId .tokenExchange error.error)
    throw error

end Server

end OauthAs
