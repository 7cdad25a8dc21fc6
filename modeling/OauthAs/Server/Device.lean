-- SUMMARY: The device flow: authorization, the user's decision, and polling.
import OauthAs.Server.Issue

/-!
# Device flow and client credentials

A device grant is created pending, decided once by compare-and-swap, and redeemed by taking it.
Polling updates the grant by compare-and-swap on the state it was read in, so it never writes
over a decision.
-/

namespace OauthAs

structure DeviceAuthorizationResponse where
  deviceCode : String
  userCode : String
  verificationUri : String
  verificationUriComplete : Option String
  expiresIn : Nat
  interval : Nat
deriving DecidableEq, Repr

inductive DeviceApprovalError where
  | unknownUserCode
  | expired
  | notPending
  | rateLimited
  | storage (error : StorageError)
deriving DecidableEq, Repr

/-- A hyphen in the middle of an even code of at least four characters. -/
def displayUserCode (raw : String) : String :=
  let n := raw.utf8ByteSize
  if n ≥ 4 ∧ n % 2 = 0 then
    String.ofList (raw.toList.take (n / 2)) ++ "-" ++ String.ofList (raw.toList.drop (n / 2))
  else raw

def querySeparator (uri : String) : String := if uri.toList.contains '?' then "&" else "?"

def userCodeGenerationAttempts : Nat := 8

/-- The registered default, cut down to what the registration allows. -/
def grantedDefaultScope (client : Client) : ScopeSet :=
  if client.defaultScopes.isSubset client.allowedScopes then client.defaultScopes
  else ScopeSet.ofTokens (client.defaultScopes.tokens.filter fun s =>
    client.allowedScopes.tokens.any fun a => a.token == s.token)

def resolveScope (client : Client) (requested : Option ScopeSet) :
    Except ErrorResponse ScopeSet :=
  match requested with
  | none => .ok (grantedDefaultScope client)
  | some s =>
    if s.isSubset client.allowedScopes then .ok s
    else .error ((ErrorResponse.new .invalidScope).withDescription
      "requested scope exceeds the client registration")

namespace Server

open Handler

variable (srv : Server)

/-! ## Device authorization -/

/-- Draws user codes until one is not in use, a bounded number of times. -/
def uniqueUserCode : Nat → Handler ErrorResponse String
  | 0 => throw ((ErrorResponse.new .serverError).withDescription
      "could not allocate an unused user code")
  | attempts + 1 => do
    let raw ← require (.new .serverError)
      (← perform (.randomUserCode (max srv.config.userCodeLength minUserCodeLength)))
    match ← store (.findDeviceGrantByUserCode raw) with
    | none => pure (displayUserCode raw)
    | some _ => uniqueUserCode attempts

/-- A grant nobody has decided yet. -/
def pendingGrant (client : Client) (scope : ScopeSet) (createdAt now : SystemTime)
    (deviceCode userCode : String) : DeviceGrant where
  deviceCode := deviceCode
  userCode := userCode
  clientId := client.clientId
  scope := scope
  state := .pending
  createdAt := createdAt
  expiresAt := srv.deadline now srv.config.deviceCodeTtl
  interval := srv.config.pollInterval
  lastPollAt := none

def deviceAuthorization (clientId : ClientId) (cred : ClientCredential)
    (requestedScope : Option ScopeSet) : Handler ErrorResponse DeviceAuthorizationResponse := do
  let createdAt ← now
  let client ← srv.authenticateClient clientId cred
  if !client.allowsGrant .deviceCode then
    throw ((ErrorResponse.new .unauthorizedClient).withDescription
      "client registration does not include the device_code grant")
  else do
    let scope ← judge (resolveScope client requestedScope)
    let now ← now
    let deviceCode ← require (.new .serverError) (← perform (.randomHex 32))
    let userCode ← srv.uniqueUserCode userCodeGenerationAttempts
    store (.putDeviceGrant (srv.pendingGrant client scope createdAt now deviceCode.text userCode))
    pure {
      deviceCode := deviceCode.text
      userCode
      verificationUri := srv.config.verificationUri
      verificationUriComplete :=
        if srv.config.includeVerificationUriComplete then
          some (srv.config.verificationUri ++ querySeparator srv.config.verificationUri ++
            "user_code=" ++ userCode)
        else none
      expiresIn := srv.config.deviceCodeTtl.asSecs
      interval := srv.config.pollInterval.asSecs }

/-! ## The user's decision -/

def lookupPendingGrantByUserCode (enteredUserCode : String) :
    Handler DeviceApprovalError DeviceGrant := do
  let grant ← require .unknownUserCode
    (← storeOr .storage (.findDeviceGrantByUserCode (normalizeUserCode enteredUserCode)))
  let now ← now
  if now ≥ grant.expiresAt then do
    let _ ← tryStore (.takeDeviceGrant grant.deviceCode)
    throw .expired
  else if grant.state ≠ .pending then
    throw .notPending
  else pure grant

def pendingGrantByUserCode (enteredUserCode : String) :
    Handler DeviceApprovalError DeviceGrant := do
  let attempt := Attempt.deviceUserCodeEntry
  match ← perform (.check attempt) with
  | .deny => throw .rateLimited
  | .allow =>
    match ← ExceptT.lift (lookupPendingGrantByUserCode enteredUserCode).run with
    | .ok grant => do
      perform (.record attempt .succeeded)
      pure grant
    | .error e => do
      perform (.record attempt .failed)
      throw e

/-- Decides a pending grant, unless somebody was faster. -/
def decideDevice (grant : DeviceGrant) (state : DeviceGrantState) (event : Event) :
    Handler DeviceApprovalError Unit := do
  if ← storeOr .storage (.compareAndSwapDeviceGrant .pending { grant with state := state }) then
    emit event
  else throw .notPending

def approveDevice (enteredUserCode subject : String) : Handler DeviceApprovalError Unit := do
  let grant ← pendingGrantByUserCode enteredUserCode
  decideDevice grant (.approved subject) (.deviceGrantApproved grant.clientId subject)

def denyDevice (enteredUserCode : String) : Handler DeviceApprovalError Unit := do
  let grant ← pendingGrantByUserCode enteredUserCode
  decideDevice grant .denied (.deviceGrantDenied grant.clientId)

/-! ## Polling -/

/-- What the issuance of a redeemed device grant is for. -/
def deviceIssueArgs (client : Client) (bound : Bound) (taken : DeviceGrant) (subject : String) :
    IssueArgs where
  client := client
  bound := bound
  grantType := .deviceCode
  grantEstablishedAt := taken.createdAt
  subject := some subject
  scope := taken.scope
  resource := []
  details := []
  chain := none
  allowRefresh := true
  authentication := none
  act := none
  lifetimeCeiling := none

/-- Whether a poll comes before the interval since the last one is over. -/
def pollsTooSoon (grant : DeviceGrant) (now : SystemTime) : Bool :=
  match grant.lastPollAt with
  | none => false
  | some last =>
    match SystemTime.checkedAdd srv.host.ceiling last grant.interval with
    | none => true
    | some next => decide (now < next)

/-- Answers a poll of a grant in the state it was read in. -/
def answerPoll (client : Client) (bound : Bound) (deviceCode : String) (grant : DeviceGrant)
    (now : SystemTime) : Handler ErrorResponse TokenResponse :=
  match grant.state with
  | .pending => do
    let _ ← store (.compareAndSwapDeviceGrant .pending { grant with lastPollAt := some now })
    throw (.new .authorizationPending)
  | .denied => do
    let _ ← tryStore (.takeDeviceGrant deviceCode)
    throw (.new .accessDenied)
  | .approved subject => do
    let taken ← require (.new .invalidGrant) (← store (.takeDeviceGrant deviceCode))
    srv.issue (deviceIssueArgs client bound taken subject)

def deviceToken (clientId : ClientId) (bound : Bound) (deviceCode : String) :
    Handler ErrorResponse TokenResponse := do
  let client ← srv.authenticateClient clientId bound.cred
  if !client.allowsGrant .deviceCode then
    throw (.new .unauthorizedClient)
  else do
    let grant ← require (.new .invalidGrant) (← store (.getDeviceGrant deviceCode))
    if grant.clientId ≠ client.clientId then
      throw (.new .invalidGrant)
    else do
      let now ← now
      if now ≥ grant.expiresAt then do
        let _ ← tryStore (.takeDeviceGrant deviceCode)
        throw (.new .expiredToken)
      else if srv.pollsTooSoon grant now then do
        let _ ← store (.compareAndSwapDeviceGrant grant.state
          { grant with
            interval := Duration.saturatingAdd grant.interval srv.config.slowDownIncrement
            lastPollAt := some now })
        throw (.new .slowDown)
      else srv.answerPoll client bound deviceCode grant now

/-! ## Client credentials -/

def clientCredentialsToken (clientId : ClientId) (bound : Bound)
    (requestedScope : Option ScopeSet) (resource : List String) (details : AuthorizationDetails) :
    Handler ErrorResponse TokenResponse := do
  let grantEstablishedAt ← now
  let client ← srv.authenticateClient clientId bound.cred
  if client.auth = .publicClient then do
    emit (.clientAuthenticationFailed clientId .notConfidential)
    throw (.new .invalidClient)
  else if !client.allowsGrant .clientCredentials then
    throw (.new .unauthorizedClient)
  else do
    let scope ← judge (resolveScope client requestedScope)
    srv.issue {
      client, bound, grantType := .clientCredentials, grantEstablishedAt, subject := none, scope,
      resource, details, chain := none, allowRefresh := false, authentication := none, act := none,
      lifetimeCeiling := none }

end Server

end OauthAs
