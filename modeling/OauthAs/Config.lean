-- SUMMARY: Server configuration, what the host supplies, and the audit and rate-limit vocabulary.
import OauthAs.Jws
import OauthAs.Records

/-!
# Configuration and host

`ServerConfig` holds the settings the modelled endpoints read. `Host` collects what the server is
handed rather than computes: the platform's last instant, the digest behind PKCE, the verifier of
stored secret hashes, the verifier of client assertions, the handling of signed tokens and the
keys of request objects. Everything proved about the server holds for every host.
-/

namespace OauthAs

inductive RefreshRotation where
  | rotate
  | reuse
deriving DecidableEq, Repr

inductive Audience where
  | one (value : String)
  | many (values : List String)
deriving DecidableEq, Repr

/-- Whether access tokens are the random string itself or a signed token that carries it. -/
inductive AccessTokenFormat where
  | opaqueToken
  | jwt (audience : Audience)
deriving DecidableEq, Repr

/-- Dynamic client registration: where it is served, and what a registration may ask for. -/
structure RegistrationConfig where
  registrationEndpoint : Option String
  allowedGrantTypes : List GrantType
  allowedScopes : ScopeSet
  clientSecretTtl : Option Duration
  managementEnabled : Bool
deriving DecidableEq

def RegistrationConfig.new : RegistrationConfig :=
  ⟨none, [.authorizationCode, .refreshToken], .empty, none, true⟩

/-- A resource server: the client it authenticates as, and the resources it answers for. -/
structure ResourceServerRegistration where
  clientId : ClientId
  resources : List String
deriving DecidableEq, Repr

/-- Which `aud` values of a client assertion name this server. -/
inductive AssertionAudience where
  | rfc7523
  | issuerOnly
deriving DecidableEq, Repr

/-- Pushed authorization requests. -/
structure ParConfig where
  pushedAuthorizationRequestEndpoint : Option String
  requestUriTtl : Duration
  requirePushedAuthorizationRequests : Bool
  requireRedirectUri : Bool
deriving DecidableEq, Repr

def ParConfig.new : ParConfig := ⟨none, .fromSecs 60, false, false⟩

/-- Signed request objects. -/
structure JarConfig where
  requireSignedRequestObject : Bool
  maxRequestObjectLifetime : Duration
deriving DecidableEq, Repr

def JarConfig.new : JarConfig := ⟨false, .fromSecs 300⟩

/-- The asymmetric algorithms a server verifies and advertises, one switch for each. -/
structure AlgAllowList where
  es256 : Bool
  rs256 : Bool
  edDsa : Bool
  ps256 : Bool
deriving DecidableEq, Repr

namespace AlgAllowList

def all : AlgAllowList := ⟨true, true, true, true⟩

def only (algs : List JwsAlg) : AlgAllowList :=
  ⟨algs.contains .es256, algs.contains .rs256, algs.contains .edDsa, algs.contains .ps256⟩

def isAllowed (allow : AlgAllowList) : JwsAlg → Bool
  | .es256 => allow.es256
  | .rs256 => allow.rs256
  | .edDsa => allow.edDsa
  | .ps256 => allow.ps256

end AlgAllowList

/-- The settings of a server. `jwtJwksUri` is the one that comes with the signing of access
tokens, `jwksUri` the one a host may declare without. -/
structure ServerConfig where
  issuer : String
  verificationUri : String
  authorizationEndpoint : Option String
  deviceAuthorizationEndpoint : Option String
  introspectionEndpoint : Option String
  revocationEndpoint : Option String
  jwksUri : Option String
  jwtJwksUri : Option String
  scopesSupported : Option (List String)
  serviceDocumentation : Option String
  protectedResources : Option (List String)
  jwsAlgAllowList : AlgAllowList
  clientIdMetadataDocuments : Bool
  allowedResources : Option (List String)
  accessTokenFormat : AccessTokenFormat
  authorizationCodeTtl : Duration
  includeVerificationUriComplete : Bool
  deviceCodeTtl : Duration
  pollInterval : Duration
  slowDownIncrement : Duration
  accessTokenTtl : Duration
  issueRefreshTokens : Bool
  refreshTokenTtl : Option Duration
  refreshReuseWindow : Duration
  refreshRetryWindow : Duration
  refreshRotation : RefreshRotation
  userCodeLength : Nat
  registration : Option RegistrationConfig
  resourceServers : Option (List ResourceServerRegistration)
  allowSenderConstrainedExchange : Bool
  allowAuthorizationDetailsExchange : Bool
  tokenEndpoint : Option String
  assertionAudience : AssertionAudience
  requireDpop : Bool
  authorizationDetailsTypesSupported : Option (List String)
  par : Option ParConfig
  jar : Option JarConfig
deriving DecidableEq

def minUserCodeLength : Nat := 8

/-- The defaults of a server that sets nothing but the two values without one. -/
def ServerConfig.new (issuer verificationUri : String) : ServerConfig where
  issuer := issuer
  verificationUri := verificationUri
  authorizationEndpoint := none
  deviceAuthorizationEndpoint := none
  introspectionEndpoint := none
  revocationEndpoint := none
  jwksUri := none
  jwtJwksUri := none
  scopesSupported := none
  serviceDocumentation := none
  protectedResources := none
  jwsAlgAllowList := .all
  clientIdMetadataDocuments := false
  allowedResources := none
  accessTokenFormat := .opaqueToken
  authorizationCodeTtl := .fromSecs 60
  includeVerificationUriComplete := false
  deviceCodeTtl := .fromSecs 600
  pollInterval := .fromSecs 5
  slowDownIncrement := .fromSecs 5
  accessTokenTtl := .fromSecs 3600
  issueRefreshTokens := true
  refreshTokenTtl := none
  refreshReuseWindow := .fromSecs (30 * 24 * 60 * 60)
  refreshRetryWindow := 0
  refreshRotation := .rotate
  userCodeLength := minUserCodeLength
  registration := none
  resourceServers := none
  allowSenderConstrainedExchange := false
  allowAuthorizationDetailsExchange := false
  tokenEndpoint := none
  assertionAudience := .rfc7523
  requireDpop := false
  authorizationDetailsTypesSupported := none
  par := none
  jar := none

/-! ## Audit and rate limiting -/

inductive AssertionFailure where
  | malformed
  | algorithmMismatch
  | badSignature
  | wrongPrincipal
  | wrongAudience
  | expired
  | notYetValid
  | missingJti
  | replayed
  | replayCheckUnavailable
deriving DecidableEq, Repr

structure VerifiedAssertion where
  jti : String
  expiresAt : SystemTime
deriving DecidableEq, Repr

inductive DpopFailure where
  | malformed
  | notAProof
  | unsupportedAlgorithm
  | badProofKey
  | badSignature
  | wrongMethod
  | wrongUri
  | staleProof
  | missingJti
  | replayed
deriving DecidableEq, Repr

inductive ClientAuthFailure where
  | unknownClient
  | secretMismatch
  | rateLimited
  | secretExpired
  | notConfidential
  | noDynamicRegistration
  | noCertificatePresented
  | certificateMismatch
  | assertionInvalid (reason : AssertionFailure)
deriving DecidableEq, Repr

inductive Event where
  | clientAuthenticationFailed (clientId : String) (failure : ClientAuthFailure)
  | tokenIssued (clientId : String) (grantType : GrantType) (subject : Option String)
      (scope : ScopeSet) (familyId : Option String) (refreshIssued : Bool)
  | grantRefused (clientId : String) (grantType : GrantType) (error : ErrorCode)
  | deviceGrantApproved (clientId subject : String)
  | deviceGrantDenied (clientId : String)
  | authorizationCodeReplayDetected (clientId : String) (familyId : Option String)
      (tokensRevoked containmentFailed : Bool)
  | refreshTokenReuseDetected (clientId familyId : String) (recordsRevoked : Nat)
      (containmentFailed : Bool)
  | tokenRevoked (clientId : String) (tokenType : TokenTypeHint) (cascadeFailed : Bool)
  | consentWithdrawn (clientId subject : String) (recordsRevoked : Nat)
  | clientRegistrationAuthenticationFailed (clientId : String) (failure : ClientAuthFailure)
  | clientRegistered (clientId : String)
  | clientRegistrationUpdated (clientId : String)
  | clientRegistrationDeleted (clientId : String)
  | clientRegistrationRefusedByPolicy (clientId : Option String)
  | dpopProofRefused (failure : DpopFailure)
deriving DecidableEq

inductive Attempt where
  | clientAuthentication (clientId : String)
  | deviceUserCodeEntry
  | authorizationRequest (clientId : String)
  | clientRegistration
deriving DecidableEq, Repr

inductive RateLimitDecision where
  | allow
  | deny
deriving DecidableEq, Repr

inductive AttemptOutcome where
  | succeeded
  | failed
deriving DecidableEq, Repr

/-- What the host's policy is told of a registration. -/
structure RegistrationAttempt where
  initialAccessToken : Option String
  metadata : ClientMetadata
deriving DecidableEq, Repr

/-- The policy's answer; a host without a policy denies. -/
inductive RegistrationDecision where
  | allow
  | deny
deriving DecidableEq, Repr

/-! ## Host -/

/-- The key a client's request objects are checked with. -/
structure RegisteredRequestObjectKey where
  alg : JwsAlg
  kid : Option String
  key : String
deriving DecidableEq, Repr

structure Host where
  /-- The platform's last representable instant. -/
  ceiling : SystemTime
  /-- Base64url of the SHA-256 of a verifier. -/
  codeChallengeS256 : String → String
  secretVerifier : Option SecretVerifier := none
  /-- Whether an assertion authenticates the client now, and which identifier it spends. -/
  verifyAssertion : AssertionKeys → String → ClientId → SystemTime →
    Except AssertionFailure VerifiedAssertion
  jws : JwsBackend := .none
  /-- The registered request object keys, if a source of them is installed. -/
  requestObjectKeys : Option (ClientId → Option RegisteredRequestObjectKey) := none
  /-- An `authorization_details` array read from its text; equal numbers get one text. -/
  parseDetails : String → Option AuthorizationDetails := fun _ => none
  /-- The compact text of a JSON array. -/
  renderJson : JsonArray → String := fun _ => ""
  /-- Octets as text, with a replacement for what is not UTF-8. -/
  fromUtf8Lossy : Octets → String := fun _ => ""
  /-- The hexadecimal SHA-256 of a secret. -/
  secretDigest : String → String := fun secret => secret

/-- `SecretHash.verify` on this host. -/
def Host.verifySecretHash (host : Host) (hash : SecretHash) (presented : String) : Bool :=
  hash.verify host.secretDigest presented host.secretVerifier

/-- A server: its configuration and the host it runs on. -/
structure Server where
  config : ServerConfig
  host : Host

/-- A deadline on the server's platform. -/
def Server.deadline (srv : Server) (base : SystemTime) (span : Duration) : SystemTime :=
  saturatingDeadline srv.host.ceiling base span

/-- The longest lifetime of anything a revocation has to outlive. -/
def ServerConfig.longestLifetime (config : ServerConfig) : Duration :=
  max (max (max (max config.accessTokenTtl (config.refreshTokenTtl.getD 0))
    config.refreshReuseWindow) config.authorizationCodeTtl) config.deviceCodeTtl

end OauthAs
