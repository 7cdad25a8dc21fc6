-- SUMMARY: Issuing tokens: narrowing, the two writes of an issuance, and the one-step commit of a retryable rotation.
import OauthAs.Server.Authenticate

/-!
# Issuance

`issue` mints an access token and, where the grant allows it, a refresh token. Outside a
retryable rotation these are two writes, each of which a revocation may refuse, and a refusal of
the second takes the first back. A retryable rotation commits in one compare-and-replace, and the
loser of that comparison answers with the winner's response.
-/

namespace OauthAs

/-- The chain a refresh continues. `retry` is the record a retryable rotation read. -/
structure RefreshChain where
  familyId : String
  expiresAt : Option SystemTime
  retry : Option RefreshTokenRecord
deriving DecidableEq

/-- What an issuance is for. -/
structure IssueArgs where
  client : Client
  bound : Bound
  grantType : GrantType
  grantEstablishedAt : SystemTime
  subject : Option String
  scope : ScopeSet
  resource : List String
  details : AuthorizationDetails
  chain : Option RefreshChain
  allowRefresh : Bool
  authentication : Option Authentication
  act : Option ActClaim
  lifetimeCeiling : Option SystemTime
deriving DecidableEq

namespace Server

open Handler

variable (srv : Server)

/-! ## Narrowing -/

def targetIsPermitted (value : String) : Except ErrorResponse Unit :=
  match srv.config.allowedResources with
  | some allowed =>
    if allowed.any (· == value) then .ok ()
    else .error ((ErrorResponse.new .invalidTarget).withDescription
      "this server does not issue tokens for that resource")
  | none => .ok ()

/-- An absolute URI without a fragment, in printable ASCII. -/
def isValidResourceIndicator (value : String) : Bool :=
  let chars := value.toList
  match chars.takeWhile (· != ':') with
  | [] => false
  | first :: rest =>
    chars.contains ':' && first.isAlpha
      && rest.all (fun c => c.isAlphanum || c == '+' || c == '-' || c == '.')
      && chars.all fun c => c != '#' && decide (0x21 ≤ c.toNat) && decide (c.toNat ≤ 0x7e)

def maxResourceIndicators : Nat := 16

/-- Checks the indicators one by one and keeps each once; the cap counts repetitions too. -/
def validateResourcesFrom (seen : Nat) (out : List String) :
    List String → Except ErrorResponse (List String)
  | [] => .ok out
  | value :: rest =>
    if seen + 1 > maxResourceIndicators then
      .error ((ErrorResponse.new .invalidTarget).withDescription
        "too many resource indicators (RFC 8707 s2)")
    else if !isValidResourceIndicator value then
      .error ((ErrorResponse.new .invalidTarget).withDescription
        "resource must be an absolute URI with no fragment (RFC 8707 s2)")
    else do
      srv.targetIsPermitted value
      validateResourcesFrom (seen + 1) (if out.contains value then out else out ++ [value]) rest

def validateResources (requested : List String) : Except ErrorResponse (List String) :=
  srv.validateResourcesFrom 0 [] requested

/-- The token endpoint validates the resources a request names before it looks at the grant. -/
def withResources {α : Type} (requested : List String)
    (grant : List String → Handler ErrorResponse α) : Handler ErrorResponse α := do
  let resources ← judge (srv.validateResources requested)
  grant resources

def narrowResources (granted requested : List String) : Except ErrorResponse (List String) :=
  if requested.isEmpty then .ok granted
  else if requested.all fun want => granted.any (· == want) then .ok requested
  else .error ((ErrorResponse.new .invalidTarget).withDescription
    "resource was not granted by the authorization request")

def narrowAndPermit (granted requested : List String) : Except ErrorResponse (List String) := do
  let issued ← narrowResources granted requested
  if !requested.isEmpty then
    return issued
  let permitted := issued.filter fun value => (srv.targetIsPermitted value).isOk
  if permitted.isEmpty && !granted.isEmpty then
    throw ((ErrorResponse.new .invalidTarget).withDescription
      "this server no longer issues tokens for any resource this grant names")
  return permitted

/-- Both narrowings of a grant: its resources and its authorization details. -/
def narrowGrant (resource : List String) (details : AuthorizationDetails)
    (requestedResources : List String) (requestedDetails : AuthorizationDetails) :
    Except ErrorResponse (List String × AuthorizationDetails) := do
  let r ← srv.narrowAndPermit resource requestedResources
  let d ← details.narrow requestedDetails
  return (r, d)

/-! ## Revocation windows and undoing -/

/-- The window a revocation happening now records; both instants come from one reading. -/
def revocationWindow {ε : Type} : Handler ε RevocationWindow := do
  let recordedAt ← now
  pure ⟨recordedAt, srv.deadline recordedAt srv.config.longestLifetime⟩

/-- Takes back an access token that is not handed out; a failure to do so is not reported. -/
def undoIssuance (accessToken : String) : Handler ErrorResponse Unit := do
  let _ ← tryStore (.deleteToken accessToken)
  pure ()

def introspect (accessToken : String) : Handler ErrorResponse (Option IssuedToken) := do
  match ← store (.getToken accessToken) with
  | none => pure none
  | some token =>
    let now ← now
    pure (if now < token.expiresAt then some token else none)

/-! ## Answering a retry -/

/-- The binding the winning rotation was made with, or else the record's own. -/
def retryKey (record : RefreshTokenRecord) (retry : RefreshTokenRetry) : Option String :=
  retry.jkt.or record.jkt

/-- Whether the cached access token is of the grant the record belongs to. -/
def retryTokenMatches (record : RefreshTokenRecord) (token : IssuedToken) : Bool :=
  token.clientId == record.clientId && token.subject == record.subject
    && token.familyId == some record.familyId
    && token.grantEstablishedAt == record.grantEstablishedAt

/-- The successor named by a cached response has to be there and still rotatable. -/
def retrySuccessor (record : RefreshTokenRecord) (next : Option String) :
    Handler ErrorResponse Unit :=
  match next with
  | none => pure ()
  | some next => do
    let next ← require (.new .invalidGrant) (← store (.getRefreshToken next))
    if next.state ≠ .active ∨ next.familyId ≠ record.familyId then
      throw (.new .invalidGrant)

/-- The cached response of a rotation, if the record carries one whose deadline has not come. -/
def refreshRetryResponse (record : RefreshTokenRecord) (client : Client) (bound : Bound)
    (requestedScope : Option ScopeSet) (requestedResources : List String)
    (requestedDetails : AuthorizationDetails) : Handler ErrorResponse (Option TokenResponse) := do
  match record.retry with
  | none => pure none
  | some retry =>
    let now ← now
    if now ≥ retry.until_ then
      return none
    if record.clientId ≠ client.clientId ∨ record.expiresAt.any (fun e => decide (now ≥ e)) then
      throw (.new .invalidGrant)
    if retryKey record retry ≠ bound.jkt then
      throw (.new .invalidDpopProof)
    if record.x5tS256 ≠ bound.thumbprint then
      throw (.new .invalidGrant)
    let token ← require (.new .invalidGrant) (← introspect retry.response.accessToken)
    if !retryTokenMatches record token then
      throw (.new .invalidGrant)
    let scope := requestedScope.getD record.scope
    if !record.scope.isSubset client.allowedScopes ∨ scope ≠ token.scope then
      throw (.new .invalidScope)
    let resource ← judge (srv.narrowAndPermit record.resource requestedResources)
    if resource.length ≠ token.resource.length ∨
        resource.any (fun r => !token.resource.contains r) then
      throw (.new .invalidTarget)
    let details ← judge (record.authorizationDetails.narrow requestedDetails)
    if details ≠ token.authorizationDetails then
      throw (.new .invalidAuthorizationDetails)
    retrySuccessor record retry.response.refreshToken
    let later ← Handler.now
    pure (some { retry.response with
      expiresIn := ((token.expiresAt.durationSince later).getD 0).asSecs })

/-! ## The records of an issuance -/

/-- The identifier this server names itself by: the issuer without trailing slashes. -/
def issuerIdentifier : String :=
  String.ofList (srv.config.issuer.toList.reverse.dropWhile (· == '/')).reverse

def accessTokenClaims (args : IssueArgs) (audience : Audience) (now expiresAt : SystemTime)
    (jti : String) : Option AccessTokenClaims := do
  let exp ← unixSeconds expiresAt
  let iat ← unixSeconds now
  let cnf : Confirmation := ⟨args.bound.jkt, args.bound.thumbprint⟩
  some {
    iss := srv.issuerIdentifier
    exp
    aud := match args.resource with
      | [] => audience
      | [one] => .one one
      | many => .many many
    sub := args.subject.getD args.client.clientId
    clientId := args.client.clientId
    iat
    jti
    scope := if args.scope.isEmpty then none else some args.scope.display
    authorizationDetails := args.details
    authTime := args.authentication.bind fun a => unixSeconds a.authTime
    acr := args.authentication.bind Authentication.acr
    cnf := if cnf.jkt.isNone && cnf.x5tS256.isNone then none else some cnf
    act := args.act }

/-- The string that goes on the wire: the random one, or a signed token that carries it. -/
def wireAccessToken (args : IssueArgs) (now expiresAt : SystemTime) (jti : String) :
    Handler ErrorResponse String :=
  match srv.config.accessTokenFormat with
  | .opaqueToken => pure jti
  | .jwt audience => do
    let claims ← require (.new .serverError) (srv.accessTokenClaims args audience now expiresAt jti)
    require (.new .serverError) (← perform (.sign claims))

/-- The end of the new access token's life. -/
def accessExpiry (args : IssueArgs) (now : SystemTime) : SystemTime :=
  let ordinary := srv.deadline now srv.config.accessTokenTtl
  match args.lifetimeCeiling with
  | some ceiling => min ordinary ceiling
  | none => ordinary

def issuesRefresh (args : IssueArgs) : Bool :=
  args.allowRefresh && srv.config.issueRefreshTokens && args.client.allowsGrant .refreshToken

/-- A rotation stays in its family; a new grant starts one if it gets a refresh token. -/
def familyFor (args : IssueArgs) (entropy : TokenEntropy) : Option String :=
  match args.chain with
  | some chain => some chain.familyId
  | none => if srv.issuesRefresh args then some entropy.family.text else none

def accessRecord (args : IssueArgs) (now : SystemTime) (familyId : Option String)
    (accessToken : String) : IssuedToken where
  accessToken := accessToken
  clientId := args.client.clientId
  subject := args.subject
  scope := args.scope
  resource := args.resource
  authorizationDetails := args.details
  issuedAt := now
  grantEstablishedAt := args.grantEstablishedAt
  expiresAt := srv.accessExpiry args now
  jkt := args.bound.jkt
  x5tS256 := args.bound.thumbprint
  familyId := familyId
  act := args.act
  authentication := args.authentication

def refreshRecord (args : IssueArgs) (now : SystemTime) (familyId : Option String)
    (refreshToken : String) : RefreshTokenRecord where
  refreshToken := refreshToken
  clientId := args.client.clientId
  subject := args.subject
  scope := args.scope
  resource := args.resource
  authorizationDetails := args.details
  grantEstablishedAt := args.grantEstablishedAt
  expiresAt := match args.chain with
    | some chain => chain.expiresAt
    | none => srv.config.refreshTokenTtl.map fun ttl => srv.deadline now ttl
  jkt := args.bound.jkt
  x5tS256 := args.bound.thumbprint
  familyId := familyId.getD ""
  state := .active
  retry := none
  authentication := args.authentication

def tokenResponse (args : IssueArgs) (access : IssuedToken) (refresh : Option RefreshTokenRecord) :
    TokenResponse where
  accessToken := access.accessToken
  tokenType := if args.bound.jkt.isSome then .dpop else .bearer
  expiresIn := ((access.expiresAt.durationSince access.issuedAt).getD 0).asSecs
  refreshToken := refresh.map RefreshTokenRecord.refreshToken
  scope := if args.scope.isEmpty then none else some args.scope.display
  authorizationDetails := args.details

/-! ## Committing -/

/-- The last instant a cached response is given out before. -/
def retryDeadline (expected : RefreshTokenRecord) (access : IssuedToken) : SystemTime :=
  min (min (srv.deadline access.issuedAt srv.config.refreshRetryWindow) access.expiresAt)
    (expected.expiresAt.getD access.expiresAt)

/-- The spent form of a record whose rotation is retryable. -/
def retrySpent (expected : RefreshTokenRecord) (access : IssuedToken) (retry : RefreshTokenRetry) :
    RefreshTokenRecord :=
  { expected with
    state := .spent
    expiresAt := expected.expiresAt.or
      (some (srv.deadline access.issuedAt srv.config.refreshReuseWindow))
    retry := some retry }

/-- Commits a retryable rotation in one step. A request that lost the comparison re-reads the
record and answers with the response the winner cached. -/
def commitRefreshRetry (expected : RefreshTokenRecord) (access : IssuedToken)
    (next : Option RefreshTokenRecord) (response : TokenResponse) (client : Client)
    (bound : Bound) : Handler ErrorResponse (Option TokenResponse) := do
  let retry : RefreshTokenRetry := ⟨response, srv.retryDeadline expected access, bound.jkt⟩
  let next := next.map fun next => { next with retry := some retry }
  let rotated ← store
    (.rotateRefreshToken expected (srv.retrySpent expected access retry) access next)
  if rotated then
    pure none
  else do
    let current ← require (.new .invalidGrant) (← store (.getRefreshToken expected.refreshToken))
    let recovered ← srv.refreshRetryResponse current client bound (some access.scope)
      access.resource access.authorizationDetails
    some <$> require (.new .invalidGrant) recovered

def revokedWhileIssuing : ErrorResponse :=
  (ErrorResponse.new .invalidGrant).withDescription
    "the grant was revoked while this token was being issued"

/-- The two writes of an issuance outside a retryable rotation. -/
def storeIssuance (access : IssuedToken) (refresh : Option RefreshTokenRecord) :
    Handler ErrorResponse Unit := do
  match ← store (.putToken access) with
  | .refusedRevoked => throw revokedWhileIssuing
  | .applied =>
    match refresh with
    | none => pure ()
    | some record =>
      match ← store (.putRefreshToken record) with
      | .refusedRevoked =>
        undoIssuance access.accessToken
        throw revokedWhileIssuing
      | .applied => pure ()

def issue (args : IssueArgs) : Handler ErrorResponse TokenResponse := do
  let now ← now
  let entropy ← require (.new .serverError) (← perform .tokenEntropy)
  let familyId := srv.familyFor args entropy
  let accessToken ← srv.wireAccessToken args now (srv.accessExpiry args now) entropy.access.text
  let access := srv.accessRecord args now familyId accessToken
  let refresh := if srv.issuesRefresh args
    then some (srv.refreshRecord args now familyId entropy.refresh.text) else none
  let response := tokenResponse args access refresh
  let issued := emit (.tokenIssued args.client.clientId args.grantType args.subject args.scope
    familyId refresh.isSome)
  match args.chain.bind RefreshChain.retry with
  | some expected =>
    match ← srv.commitRefreshRetry expected access refresh response args.client args.bound with
    | some recovered => pure recovered
    | none => do
      issued
      pure response
  | none => do
    storeIssuance access refresh
    issued
    pure response

end Server

end OauthAs
