-- SUMMARY: Authorization codes: minting one, redeeming it once, and containing a replay.
import OauthAs.Server.Issue

/-!
# Authorization codes

A redemption takes the record out of the store before judging it. A foreign client and a
correctable mistake put it back; a record that is already consumed is a replay, which revokes
what the first redemption minted and leaves a durable mark. The redemption itself writes the
record as consumed, issues, and then records what it issued with a compare-and-swap against its
own consumed record; if that fails it takes the issuance back.
-/

namespace OauthAs

structure ValidatedAuthorizationRequest where
  clientId : ClientId
  redirectUri : String
  redirectUriWasExplicit : Bool
  scope : ScopeSet
  state : Option String
  codeChallenge : String
  codeChallengeMethod : CodeChallengeMethod
  issuer : String
  resource : List String
  authorizationDetails : AuthorizationDetails
  dpopJkt : Option String
  authenticationRequirement : AuthenticationRequirement := .none
deriving DecidableEq

/-- A user's approval of a validated request, with the instant of the decision if the host knows
it. -/
structure UserApproval where
  request : ValidatedAuthorizationRequest
  subject : String
  decidedAt : Option SystemTime
deriving DecidableEq

structure AuthorizationResponse where
  code : String
  state : Option String
  iss : String
deriving DecidableEq, Repr

/-- A failure delivered to the client by redirect. -/
structure AuthorizationErrorRedirect where
  redirectUri : String
  error : ErrorResponse
  state : Option String
  iss : String
deriving DecidableEq, Repr

/-- What a token request presents for a code. -/
structure CodePresentation where
  clientId : ClientId
  bound : Bound
  code : String
  redirectUri : Option String
  codeVerifier : Option String
  requestedResources : List String
  requestedDetails : AuthorizationDetails
deriving DecidableEq

def verifierIsValid (verifier : String) : Bool :=
  decide (43 ≤ verifier.utf8ByteSize) && decide (verifier.utf8ByteSize ≤ 128)
    && verifier.toList.all fun c => c.isAlphanum || c == '-' || c == '.' || c == '_' || c == '~'

namespace Server

open Handler

variable (srv : Server)

def authorizationErrorFor (request : ValidatedAuthorizationRequest) (error : ErrorResponse) :
    AuthorizationErrorRedirect :=
  ⟨request.redirectUri, error, request.state, request.issuer⟩

/-- The record an approval is minted as. -/
def codeRecord (approval : UserApproval) (authentication : Option Authentication)
    (now : SystemTime) (code : String) : AuthorizationCodeRecord where
  code := code
  clientId := approval.request.clientId
  redirectUri := approval.request.redirectUri
  redirectUriWasExplicit := approval.request.redirectUriWasExplicit
  scope := approval.request.scope
  subject := approval.subject
  codeChallenge := approval.request.codeChallenge
  codeChallengeMethod := approval.request.codeChallengeMethod
  resource := approval.request.resource
  authorizationDetails := approval.request.authorizationDetails
  issuedAt := approval.decidedAt.getD now
  expiresAt := srv.deadline now srv.config.authorizationCodeTtl
  state := .issued
  authentication := authentication
  dpopJkt := approval.request.dpopJkt

/-- The issuance itself, once the sign-in was found good enough. -/
def issueAuthorizationCodeInner (approval : UserApproval)
    (authentication : Option Authentication) : Handler AuthorizationErrorRedirect AuthorizationResponse := do
  let request := approval.request
  let attempt := Attempt.authorizationRequest request.clientId
  match ← perform (.check attempt) with
  | .deny =>
    throw (authorizationErrorFor request ((ErrorResponse.new .temporarilyUnavailable).withDescription
      "too many authorization requests; retry later"))
  | .allow =>
    let now ← now
    match ← perform (.randomHex 32) with
    | none => do
      perform (.record attempt .failed)
      throw (authorizationErrorFor request (.new .serverError))
    | some code =>
      match ← tryStore (.putAuthorizationCode (srv.codeRecord approval authentication now code.text)) with
      | .error _ => do
        perform (.record attempt .failed)
        throw (authorizationErrorFor request (.new .serverError))
      | .ok () => do
        perform (.record attempt .succeeded)
        pure ⟨code.text, request.state, request.issuer⟩

/-! ## Replay -/

/-- What a replay managed to revoke. -/
structure Containment where
  familyId : Option String
  revokedFamily : Bool
  failed : Bool
deriving DecidableEq, Repr

/-- Revokes the family that the first redemption's refresh token belongs to. -/
def containFamily (refreshToken : Option String) : Handler ErrorResponse Containment :=
  match refreshToken with
  | none => pure ⟨none, false, false⟩
  | some rt => do
    match ← tryStore (.getRefreshToken rt) with
    | .ok (some record) => do
      let window ← srv.revocationWindow
      match ← tryStore (.revokeTokenFamily record.familyId window) with
      | .ok _ => pure ⟨some record.familyId, true, false⟩
      | .error _ => pure ⟨some record.familyId, false, true⟩
    | .ok none => pure ⟨none, false, false⟩
    | .error _ => pure ⟨none, false, true⟩

/-- Deletes the first redemption's access token, unless the family was revoked with it. -/
def containAccess (contained : Containment) (accessToken : Option String) :
    Handler ErrorResponse Containment :=
  if contained.revokedFamily then pure contained
  else
    match accessToken with
    | none => pure contained
    | some at_ => do
      match ← tryStore (.deleteToken at_) with
      | .ok () => pure contained
      | .error _ => pure { contained with failed := true }

/-- A code that was redeemed before is presented again by its own client. -/
def replayCode (client : Client) (record : AuthorizationCodeRecord)
    (accessToken refreshToken : Option String) : Handler ErrorResponse TokenResponse := do
  let contained ← srv.containFamily refreshToken
  let contained ← containAccess contained accessToken
  let marked ← tryStore
    (.putAuthorizationCode { record with state := .replayed accessToken refreshToken })
  emit (.authorizationCodeReplayDetected client.clientId contained.familyId contained.revokedFamily
    (contained.failed || !marked.isOk))
  throw (.new .invalidGrant)

/-! ## Redemption -/

/-- Puts the record back, whether or not that works, and refuses. -/
def putBackCode (record : AuthorizationCodeRecord) (error : ErrorResponse) :
    Handler ErrorResponse TokenResponse := do
  let _ ← tryStore (.putAuthorizationCode record)
  throw error

/-- The redirect URI is required exactly if the authorization request named one. -/
def redirectUriMatches (record : AuthorizationCodeRecord) (redirectUri : Option String) : Bool :=
  match redirectUri with
  | some u => u == record.redirectUri
  | none => !record.redirectUriWasExplicit

def codeVerified (record : AuthorizationCodeRecord) (codeVerifier : Option String) : Bool :=
  match codeVerifier, record.codeChallengeMethod with
  | some v, .s256 => verifierIsValid v && srv.host.codeChallengeS256 v == record.codeChallenge
  | none, _ => false

/-- The correctable mistakes a redemption is refused for, in the order they are looked for. -/
def judgeCode (record : AuthorizationCodeRecord) (p : CodePresentation) (resources : List String) :
    Except ErrorResponse (List String × AuthorizationDetails) :=
  if !redirectUriMatches record p.redirectUri then
    .error ((ErrorResponse.new .invalidGrant).withDescription
      "redirect_uri does not match the authorization request")
  else if !srv.codeVerified record p.codeVerifier then
    .error ((ErrorResponse.new .invalidGrant).withDescription
      "code_verifier does not match the recorded code_challenge")
  else if record.dpopJkt.isSome && p.bound.jkt != record.dpopJkt then
    .error ((ErrorResponse.new .invalidDpopProof).withDescription
      "the DPoP proof key does not match the key this authorization code is bound to")
  else
    srv.narrowGrant record.resource record.authorizationDetails resources p.requestedDetails

/-- What the issuance of a redeemed code is for. -/
def codeIssueArgs (client : Client) (p : CodePresentation) (record : AuthorizationCodeRecord)
    (granted : List String × AuthorizationDetails) : IssueArgs where
  client := client
  bound := p.bound
  grantType := .authorizationCode
  grantEstablishedAt := record.issuedAt
  subject := some record.subject
  scope := record.scope
  resource := granted.1
  details := granted.2
  chain := none
  allowRefresh := true
  authentication := record.authentication
  act := none
  lifetimeCeiling := none

/-- Records what was issued; if the code was touched meanwhile, takes the issuance back. -/
def recordRedemption (consumed : AuthorizationCodeRecord) (issued : TokenResponse) :
    Handler ErrorResponse TokenResponse := do
  let recorded ← tryStore (.compareAndSwapAuthorizationCode (.consumed none none)
    { consumed with state := .consumed (some issued.accessToken) issued.refreshToken })
  match recorded with
  | .ok true => pure issued
  | _ => do
    undoIssuance issued.accessToken
    match issued.refreshToken with
    | some rt => do
      let _ ← tryStore (.takeRefreshToken rt)
      pure ()
    | none => pure ()
    match recorded with
    | .ok _ => throw ((ErrorResponse.new .invalidGrant).withDescription
        "this authorization code was replayed or revoked during redemption")
    | .error _ => throw ((ErrorResponse.new .serverError).withDescription
        "could not record the redemption")

/-- Redeems an issued record that its own client presented. -/
def redeemCode (client : Client) (p : CodePresentation) (resources : List String)
    (record : AuthorizationCodeRecord) : Handler ErrorResponse TokenResponse := do
  let now ← now
  if now ≥ record.expiresAt then
    throw ((ErrorResponse.new .invalidGrant).withDescription "authorization code expired")
  else
    match srv.judgeCode record p resources with
    | .error e => putBackCode record e
    | .ok granted => do
      let consumed := { record with state := .consumed none none }
      store (.putAuthorizationCode consumed)
      let issued ← srv.issue (codeIssueArgs client p record granted)
      recordRedemption consumed issued

/-- Redeems a code; `resources` are the validated ones of the presentation. -/
def authorizationCodeToken (p : CodePresentation) (resources : List String) :
    Handler ErrorResponse TokenResponse := do
  let client ← srv.authenticateClient p.clientId p.bound.cred
  if !client.allowsGrant .authorizationCode then
    throw (.new .unauthorizedClient)
  else do
    let record ← require (.new .invalidGrant) (← store (.takeAuthorizationCode p.code))
    if record.clientId ≠ client.clientId then do
      store (.putAuthorizationCode record)
      throw (.new .invalidGrant)
    else
      match record.state.minted with
      | some (accessToken, refreshToken) => srv.replayCode client record accessToken refreshToken
      | none => srv.redeemCode client p resources record

end Server

end OauthAs
