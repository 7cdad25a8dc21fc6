-- SUMMARY: Refresh tokens: strict rotation by take, retryable rotation by compare-and-replace, and reuse.
import OauthAs.Server.Issue

/-!
# Refresh tokens

Under strict rotation the presented record is taken out of the store before anything about it is
judged, so every refusal that is no evidence of compromise puts it back. With a retry window, and
under the reuse policy, the record is only read. A record that was spent before is reuse of a
rotated token, which revokes the family.
-/

namespace OauthAs

/-- What a token request presents for a refresh token. -/
structure RefreshPresentation where
  clientId : ClientId
  bound : Bound
  refreshToken : String
  requestedScope : Option ScopeSet
  requestedResources : List String
  requestedDetails : AuthorizationDetails
deriving DecidableEq

/-- Whether the record's key binding is violated: a confidential client may change its key but
not gain or lose a binding, a public one must prove the same key. -/
def bindingViolation (client : Client) (record : RefreshTokenRecord) (bound : Bound) : Bool :=
  if client.auth.isConfidential then record.jkt.isSome != bound.jkt.isSome
  else record.jkt != bound.jkt

namespace ServerConfig

def reuses (config : ServerConfig) : Bool := config.refreshRotation == .reuse

/-- Strict rotation: single use, without a retry window. -/
def isStrict (config : ServerConfig) : Bool :=
  !config.reuses && config.refreshRetryWindow == 0

/-- Rotation with a retry window. -/
def isRetryable (config : ServerConfig) : Bool :=
  !config.reuses && config.refreshRetryWindow != 0

end ServerConfig

namespace Server

open Handler

variable (srv : Server)

/-- Puts a taken record back. With a retry window nothing was taken, so nothing is put back. -/
def restoreRefreshToken (record : RefreshTokenRecord) : Handler ErrorResponse Unit :=
  if srv.config.refreshRetryWindow ≠ 0 then pure ()
  else do
    let _ ← store (.putRefreshToken record)
    pure ()

/-- Puts the record back and refuses. -/
def restoreAndRefuse {α : Type} (record : RefreshTokenRecord) (error : ErrorResponse) :
    Handler ErrorResponse α := do
  srv.restoreRefreshToken record
  throw error

/-- The record behind a presented string: taken under strict rotation, read otherwise. -/
def presentedRecord (refreshToken : String) : Handler ErrorResponse (Option RefreshTokenRecord) :=
  if srv.config.isStrict then store (.takeRefreshToken refreshToken)
  else store (.getRefreshToken refreshToken)

/-- A spent record was presented: the whole family goes. -/
def reuseDetected (client : Client) (record : RefreshTokenRecord) :
    Handler ErrorResponse TokenResponse := do
  let window ← srv.revocationWindow
  match ← tryStore (.revokeTokenFamily record.familyId window) with
  | .ok revoked =>
    emit (.refreshTokenReuseDetected client.clientId record.familyId revoked false)
  | .error _ => do
    let _ ← tryStore (.putRefreshToken record)
    emit (.refreshTokenReuseDetected client.clientId record.familyId 0 true)
  throw ((ErrorResponse.new .invalidGrant).withDescription
    "refresh token reuse detected; the grant has been revoked")

def bindingError : ErrorResponse :=
  (ErrorResponse.new .invalidDpopProof).withDescription
    "this refresh token's DPoP binding does not match the presented proof"

def certificateError : ErrorResponse :=
  (ErrorResponse.new .invalidGrant).withDescription
    "this refresh token is bound to a different client certificate"

def chainExpired : ErrorResponse :=
  (ErrorResponse.new .invalidGrant).withDescription "refresh token chain expired"

/-- The refusal of a grant that the registration has been narrowed below. -/
def ceilingRefusal : ErrorResponse :=
  (ErrorResponse.new .invalidScope).withDescription
    "this grant carries scopes the client's registration no longer allows"

def wideningRefusal : ErrorResponse :=
  (ErrorResponse.new .invalidScope).withDescription "refresh may narrow scope, never widen it"

def revokedWhileRefreshing : ErrorResponse :=
  (ErrorResponse.new .invalidGrant).withDescription
    "the grant was revoked while this token was being refreshed"

/-- The scope and the narrowed resources and details of a refresh that may go ahead. -/
def judgeRefresh (record : RefreshTokenRecord) (p : RefreshPresentation) (resources : List String) :
    Except ErrorResponse (ScopeSet × List String × AuthorizationDetails) := do
  let scope ← match p.requestedScope with
    | none => .ok record.scope
    | some s => if s.isSubset record.scope then .ok s else .error wideningRefusal
  let granted ← srv.narrowGrant record.resource record.authorizationDetails resources
    p.requestedDetails
  return (scope, granted)

/-- What the issuance of a refresh is for. -/
def refreshIssueArgs (client : Client) (p : RefreshPresentation) (record : RefreshTokenRecord)
    (granted : ScopeSet × List String × AuthorizationDetails) (retry : Option RefreshTokenRecord)
    (allowRefresh : Bool) : IssueArgs where
  client := client
  bound := p.bound
  grantType := .refreshToken
  grantEstablishedAt := record.grantEstablishedAt
  subject := record.subject
  scope := granted.1
  resource := granted.2.1
  details := granted.2.2
  chain := some ⟨record.familyId, record.expiresAt, retry⟩
  allowRefresh := allowRefresh
  authentication := record.authentication
  act := none
  lifetimeCeiling := none

/-- The spent form of a strictly rotated record. -/
def strictSpent (record : RefreshTokenRecord) (now : SystemTime) : RefreshTokenRecord :=
  { record with
    state := .spent
    expiresAt := record.expiresAt.or (some (srv.deadline now srv.config.refreshReuseWindow)) }

/-- Writes the spent form; the clock is read only where the chain has no deadline of its own. -/
def spendRecord (record : RefreshTokenRecord) : Handler ErrorResponse Unit := do
  let spent ← match record.expiresAt with
    | some _ => pure { record with state := .spent }
    | none => do
      let now ← now
      pure (srv.strictSpent record now)
  match ← store (.putRefreshToken spent) with
  | .refusedRevoked => throw revokedWhileRefreshing
  | .applied => pure ()

/-- Rotates, or under the reuse policy only issues an access token for the same refresh token. -/
def rotateRecord (client : Client) (p : RefreshPresentation) (record : RefreshTokenRecord)
    (granted : ScopeSet × List String × AuthorizationDetails) :
    Handler ErrorResponse TokenResponse :=
  if srv.config.reuses then do
    let response ← srv.issue (refreshIssueArgs client p record granted none false)
    pure { response with refreshToken := some p.refreshToken }
  else if srv.config.refreshRetryWindow = 0 then do
    srv.spendRecord record
    srv.issue (refreshIssueArgs client p record granted none true)
  else srv.issue (refreshIssueArgs client p record granted (some record) true)

/-- Judges a live record that its own client presented. -/
def refreshRecordOf (client : Client) (p : RefreshPresentation) (resources : List String)
    (record : RefreshTokenRecord) : Handler ErrorResponse TokenResponse := do
  if bindingViolation client record p.bound then
    srv.restoreAndRefuse record bindingError
  else if record.x5tS256 ≠ p.bound.thumbprint then
    srv.restoreAndRefuse record certificateError
  else if ← expired record then
    throw chainExpired
  else if !record.scope.isSubset client.allowedScopes then
    -- Besides expiry the one refusal that does not put the record back.
    throw ceilingRefusal
  else
    match srv.judgeRefresh record p resources with
    | .error e => srv.restoreAndRefuse record e
    | .ok granted => srv.rotateRecord client p record granted
where
  /-- The clock is read only for a chain that has a deadline. -/
  expired (record : RefreshTokenRecord) : Handler ErrorResponse Bool :=
    match record.expiresAt with
    | none => pure false
    | some e => do
      let now ← now
      pure (decide (now ≥ e))

/-- Refreshes; `resources` are the validated ones of the presentation. -/
def refreshToken (p : RefreshPresentation) (resources : List String) :
    Handler ErrorResponse TokenResponse := do
  let client ← srv.authenticateClient p.clientId p.bound.cred
  if !client.allowsGrant .refreshToken then
    throw (.new .unauthorizedClient)
  else do
    let record ← require (.new .invalidGrant) (← srv.presentedRecord p.refreshToken)
    if record.clientId ≠ client.clientId then
      srv.restoreAndRefuse record (.new .invalidGrant)
    else do
      let cached ← if srv.config.isRetryable then
          srv.refreshRetryResponse record client p.bound p.requestedScope resources
            p.requestedDetails
        else pure none
      match cached with
      | some response => pure response
      | none =>
        if !srv.config.reuses && record.state == .spent then srv.reuseDetected client record
        else srv.refreshRecordOf client p resources record

end Server

end OauthAs
