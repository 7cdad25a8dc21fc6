-- SUMMARY: The metadata document a server publishes, and which verifier it resolves for an algorithm.
import OauthAs.Server.Push

/-!
# Metadata

The document is put together from the configuration and then completed with what the host has
installed. What is in it also depends on the features the crate was built with, which `Build`
lists; a member that a build does not have is `none`. A signature is checked with the verifier
the host installed for its algorithm, or else with a built-in one, and with none if the allow-list
forbids the algorithm.
-/

namespace OauthAs

/-- The features a server was compiled with. -/
structure Build where
  tokenExchange : Bool
  par : Bool
  jar : Bool
  clientAssertion : Bool
  dpop : Bool
  mtls : Bool
  rar : Bool
  resourceMetadata : Bool
  cimd : Bool
  jwt : Bool
  jwtP256 : Bool
  jwtRsa : Bool
  jwtEd25519 : Bool
deriving DecidableEq, Repr

/-! ## Verifiers -/

/-- A verifier and the one algorithm it is for. -/
structure JwsVerifier where
  alg : JwsAlg
  verify : String → String → Octets → Bool

/-- At most one verifier for each algorithm, each filed under its own. -/
structure JwsVerifiers where
  slots : JwsAlg → Option JwsVerifier
  filed : ∀ alg v, slots alg = some v → v.alg = alg

namespace JwsVerifiers

def new : JwsVerifiers := ⟨fun _ => none, fun _ _ h => by cases h⟩

def get (vs : JwsVerifiers) (alg : JwsAlg) : Option JwsVerifier := vs.slots alg

def install (vs : JwsVerifiers) (verifier : JwsVerifier) : JwsVerifiers where
  slots alg := if alg = verifier.alg then some verifier else vs.slots alg
  filed alg v h := by
    split at h
    · rename_i heq
      cases h
      exact heq.symm
    · exact vs.filed alg v h

/-- The algorithms a verifier is installed for. -/
def installed (vs : JwsVerifiers) : List JwsAlg := JwsAlg.all.filter fun alg => (vs.slots alg).isSome

def restrictTo (vs : JwsVerifiers) (allow : AlgAllowList) : JwsVerifiers where
  slots alg := if allow.isAllowed alg then vs.slots alg else none
  filed alg v h := by
    split at h
    · exact vs.filed alg v h
    · cases h

end JwsVerifiers

/-- The signature checks of the built-in backends. -/
structure Backends where
  p256 : String → String → Octets → Bool
  rsa : String → String → Octets → Bool
  ps256 : String → String → Octets → Bool
  ed25519 : String → String → Octets → Bool

namespace Backends

def p256Verifier (b : Backends) : JwsVerifier := ⟨.es256, b.p256⟩

def rsaVerifier (b : Backends) : JwsVerifier := ⟨.rs256, b.rsa⟩

def ps256Verifier (b : Backends) : JwsVerifier := ⟨.ps256, b.ps256⟩

def ed25519Verifier (b : Backends) : JwsVerifier := ⟨.edDsa, b.ed25519⟩

end Backends

/-- A server as it is deployed: how it was built, how it is configured, and the verifiers the host
installed, if it installed anything. -/
structure Deployment where
  build : Build
  config : ServerConfig
  jwsVerifiers : Option JwsVerifiers
  backends : Backends

namespace Deployment

variable (d : Deployment)

/-- The verifier for an algorithm; the allow-list comes before the host's choice. -/
def jwsVerifier (alg : JwsAlg) : Option JwsVerifier :=
  if !d.config.jwsAlgAllowList.isAllowed alg then none
  else
    match d.jwsVerifiers.bind fun vs => vs.get alg with
    | some installed => some installed
    | none =>
      if d.build.jwtP256 && alg == .es256 then some d.backends.p256Verifier
      else if d.build.jwtRsa && alg == .rs256 then some d.backends.rsaVerifier
      else if d.build.jwtRsa && alg == .ps256 then some d.backends.ps256Verifier
      else if d.build.jwtEd25519 && alg == .edDsa then some d.backends.ed25519Verifier
      else none

/-- Installs a built-in verifier where the host has none. -/
def fallback (compiled : Bool) (verifier : JwsVerifier) (vs : JwsVerifiers) : JwsVerifiers :=
  if compiled && (vs.get verifier.alg).isNone then vs.install verifier else vs

/-- All verifiers, for a proof that brings its own key; the allow-list comes last. -/
def resolvedJwsVerifiers : JwsVerifiers :=
  let verifiers := d.jwsVerifiers.getD .new
  let verifiers := fallback d.build.jwtP256 d.backends.p256Verifier verifiers
  let verifiers := fallback d.build.jwtRsa d.backends.rsaVerifier verifiers
  let verifiers := fallback d.build.jwtRsa d.backends.ps256Verifier verifiers
  let verifiers := fallback d.build.jwtEd25519 d.backends.ed25519Verifier verifiers
  verifiers.restrictTo d.config.jwsAlgAllowList

end Deployment

/-! ## The document -/

def privateKeyJwt : String := "private_key_jwt"

def clientSecretJwt : String := "client_secret_jwt"

def assertionSigningAlgs : List String := ["HS256", "ES256"]

def requestObjectSigningAlgs : List String := ["ES256"]

def dpopSigningAlgValuesSupported : List String := ["ES256"]

structure AuthorizationServerMetadata where
  issuer : String
  authorizationEndpoint : String
  tokenEndpoint : String
  deviceAuthorizationEndpoint : String
  introspectionEndpoint : Option String
  revocationEndpoint : Option String
  registrationEndpoint : Option String
  jwksUri : Option String
  scopesSupported : Option (List String)
  pushedAuthorizationRequestEndpoint : Option String
  requirePushedAuthorizationRequests : Option Bool
  requestObjectSigningAlgValuesSupported : Option (List String)
  requireSignedRequestObject : Option Bool
  responseTypesSupported : List String
  responseModesSupported : List String
  grantTypesSupported : List String
  tokenEndpointAuthMethodsSupported : List String
  tokenEndpointAuthSigningAlgValuesSupported : Option (List String)
  dpopSigningAlgValuesSupported : Option (List String)
  codeChallengeMethodsSupported : List String
  serviceDocumentation : Option String
  protectedResources : Option (List String)
  authorizationDetailsTypesSupported : Option (List String)
  clientIdMetadataDocumentSupported : Option Bool
  authorizationResponseIssParameterSupported : Bool
  tlsClientCertificateBoundAccessTokens : Option Bool
deriving DecidableEq, Repr

/-- The issuer in the one spelling that is published: without trailing slashes. -/
def ServerConfig.trimmedIssuer (config : ServerConfig) : String :=
  String.ofList (config.issuer.toList.reverse.dropWhile (· == '/')).reverse

/-- Where the keys of this server's access tokens are. A server that signs nothing publishes no
keys, unless it was built without signing altogether and the host has its own. -/
def advertisedJwksUri (build : Build) (config : ServerConfig) : Option String :=
  if build.jwt then
    match config.accessTokenFormat with
    | .opaqueToken => none
    | .jwt _ => config.jwtJwksUri <|> config.jwksUri
  else config.jwksUri

/-- The names the allow-list admits; it does not govern what is not an asymmetric algorithm. -/
def baselineAlgs (names : List String) (allow : AlgAllowList) : List String :=
  names.filter fun name => (classifyAlg name).all allow.isAllowed

namespace AuthorizationServerMetadata

def fromConfig (build : Build) (config : ServerConfig) : AuthorizationServerMetadata :=
  let iss := config.trimmedIssuer
  let endpoint (override : Option String) (path : String) := override.getD (iss ++ path)
  { issuer := iss
    authorizationEndpoint := endpoint config.authorizationEndpoint "/authorize"
    tokenEndpoint := endpoint config.tokenEndpoint "/token"
    deviceAuthorizationEndpoint :=
      endpoint config.deviceAuthorizationEndpoint "/device_authorization"
    introspectionEndpoint := config.introspectionEndpoint
    revocationEndpoint := some (endpoint config.revocationEndpoint "/revoke")
    registrationEndpoint :=
      config.registration.map fun r => endpoint r.registrationEndpoint "/register"
    jwksUri := advertisedJwksUri build config
    scopesSupported := config.scopesSupported
    pushedAuthorizationRequestEndpoint :=
      if build.par then config.par.map fun par => par.endpoint iss else none
    requirePushedAuthorizationRequests :=
      if build.par then config.par.map ParConfig.requirePushedAuthorizationRequests else none
    -- Without the built-in backend the configuration cannot tell whether ES256 is checked.
    requestObjectSigningAlgValuesSupported :=
      if build.jar && build.jwtP256 then
        config.jar.map fun _ => baselineAlgs requestObjectSigningAlgs config.jwsAlgAllowList
      else none
    requireSignedRequestObject :=
      if build.jar then config.jar.map JarConfig.requireSignedRequestObject else none
    responseTypesSupported := ["code"]
    responseModesSupported := ["query"]
    grantTypesSupported :=
      ["authorization_code"] ++ (if config.issueRefreshTokens then ["refresh_token"] else [])
        ++ ["client_credentials", deviceCodeGrantUrn]
        ++ (if build.tokenExchange then [tokenExchangeGrantUrn] else [])
    tokenEndpointAuthMethodsSupported :=
      ["client_secret_basic", "client_secret_post", "none"]
        ++ (if build.clientAssertion then
            clientSecretJwt :: (if build.jwtP256 then [privateKeyJwt] else [])
          else [])
        ++ (if build.mtls then ["tls_client_auth", "self_signed_tls_client_auth"] else [])
    tokenEndpointAuthSigningAlgValuesSupported :=
      if build.clientAssertion then
        some (if build.jwtP256 then baselineAlgs assertionSigningAlgs config.jwsAlgAllowList
          else ["HS256"])
      else none
    dpopSigningAlgValuesSupported :=
      if build.dpop && build.jwtP256 then
        some (baselineAlgs OauthAs.dpopSigningAlgValuesSupported config.jwsAlgAllowList)
      else none
    codeChallengeMethodsSupported := ["S256"]
    serviceDocumentation := config.serviceDocumentation
    protectedResources := if build.resourceMetadata then config.protectedResources else none
    authorizationDetailsTypesSupported :=
      if build.rar then config.authorizationDetailsTypesSupported else none
    clientIdMetadataDocumentSupported :=
      if build.cimd then some config.clientIdMetadataDocuments else none
    authorizationResponseIssParameterSupported := true
    tlsClientCertificateBoundAccessTokens := if build.mtls then some true else none }

/-- Adds a value to a list that does not have it yet. -/
def pushNew (values : List String) (value : String) : List String :=
  if values.contains value then values else values ++ [value]

/-- The assertion part of `markAlgVerifiable`. -/
def markAssertions (build : Build) (name : String) (m : AuthorizationServerMetadata) :
    AuthorizationServerMetadata :=
  if build.clientAssertion then
    { m with
      tokenEndpointAuthMethodsSupported := pushNew m.tokenEndpointAuthMethodsSupported privateKeyJwt
      tokenEndpointAuthSigningAlgValuesSupported :=
        some (pushNew (m.tokenEndpointAuthSigningAlgValuesSupported.getD []) name) }
  else m

/-- The request object part. That signed request objects are configured shows in the member that
does not depend on this. -/
def markRequestObjects (build : Build) (name : String) (m : AuthorizationServerMetadata) :
    AuthorizationServerMetadata :=
  if build.jar && m.requireSignedRequestObject.isSome then
    { m with
      requestObjectSigningAlgValuesSupported :=
        some (pushNew (m.requestObjectSigningAlgValuesSupported.getD []) name) }
  else m

def markProofs (build : Build) (name : String) (m : AuthorizationServerMetadata) :
    AuthorizationServerMetadata :=
  if build.dpop then
    { m with
      dpopSigningAlgValuesSupported :=
        some (pushNew (m.dpopSigningAlgValuesSupported.getD []) name) }
  else m

/-- Adds what is honest once a verifier for the algorithm exists. -/
def markAlgVerifiable (build : Build) (alg : JwsAlg) (m : AuthorizationServerMetadata) :
    AuthorizationServerMetadata :=
  ((m.markAssertions build alg.joseName).markRequestObjects build alg.joseName).markProofs build
    alg.joseName

end AuthorizationServerMetadata

/-- The document this server publishes. -/
def Deployment.metadata (d : Deployment) : AuthorizationServerMetadata :=
  let resolved := JwsAlg.all.filter fun alg => (d.jwsVerifier alg).isSome
  resolved.foldl (fun m alg => m.markAlgVerifiable d.build alg) (.fromConfig d.build d.config)

end OauthAs
