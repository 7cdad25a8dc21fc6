-- SUMMARY: Dynamic registration: what is accepted of a client's metadata, and how a registration is made, read and changed.
import OauthAs.Server.Routes
import OauthAs.Server.Service

/-!
# Dynamic registration

A client registers with a document about itself and is given an access token for its own
registration, with which it may read it, replace it or delete it. An update is computed from the
registration as it was read when the call was authenticated and goes into the store by a
compare-and-swap on the whole record.
-/

namespace OauthAs

def maxRegisteredRedirectUris : Nat := 16

def authMethodNone : String := "none"

def authMethodBasic : String := "client_secret_basic"

def authMethodPost : String := "client_secret_post"

def responseTypeCode : String := "code"

/-- What a client is told of its registration. -/
structure ClientInformation where
  clientId : String
  clientSecret : Option String
  clientIdIssuedAt : Option Nat
  clientSecretExpiresAt : Option Nat
  registrationAccessToken : Option String
  registrationClientUri : Option String
  metadata : ClientMetadata
deriving DecidableEq, Repr

/-- The metadata as it will be recorded. -/
structure Registered where
  redirectUris : List String
  grantTypes : List GrantType
  responseTypes : List String
  tokenEndpointAuthMethod : String
  scope : ScopeSet
  clientName : Option String

/-! ## Validation -/

def RegistrationFailure.refuse {α : Type} (error : RegistrationErrorCode) (description : String) :
    Except RegistrationFailure α :=
  .error (.invalid ⟨error, some description⟩)

open RegistrationFailure (refuse)

/-- Every named grant has to be one there is and one that registrants are offered; a grant named
twice counts once. -/
def registrableGrants (config : RegistrationConfig) :
    List String → List GrantType → Except RegistrationFailure (List GrantType)
  | [], out => .ok out
  | value :: values, out =>
    match GrantType.parse value with
    | none => refuse .invalidClientMetadata "grant_types names a grant this server does not implement"
    | some grant =>
      if !config.allowedGrantTypes.contains grant then
        refuse .invalidClientMetadata
          "grant_types names a grant this deployment does not offer registrants"
      else registrableGrants config values (if out.contains grant then out else out ++ [grant])

def responseTypesOf (usesCode : Bool) : List String := if usesCode then [responseTypeCode] else []

/-- Codes are asked for exactly by the clients that use the grant. -/
def registrableResponses (usesCode : Bool) :
    Option (List String) → Except RegistrationFailure (List String)
  | none => .ok (responseTypesOf usesCode)
  | some values =>
    if values.any (· != responseTypeCode) then
      refuse .invalidClientMetadata ("this server issues authorization codes only; OAuth 2.1 " ++
        "removes the implicit grant")
    else if (!values.isEmpty) != usesCode then
      refuse .invalidClientMetadata ("grant_types and response_types must correspond: " ++
        "authorization_code with code (RFC 7591 s2)")
    else .ok (responseTypesOf (!values.isEmpty))

def redirectUriIsRegisterable (value : String) : Bool := Server.isValidResourceIndicator value

def registrableRedirects (usesCode : Bool) (uris : List String) : Except RegistrationFailure Unit :=
  if usesCode && uris.isEmpty then
    refuse .invalidRedirectUri "the authorization_code grant requires at least one redirect_uri"
  else if uris.length > maxRegisteredRedirectUris then
    refuse .invalidRedirectUri "too many redirect_uris"
  else if uris.any fun uri => !redirectUriIsRegisterable uri then
    refuse .invalidRedirectUri
      "each redirect_uri must be an absolute URI with no fragment (RFC 6749 s3.1.2)"
  else .ok ()

def registrableMethod (grantTypes : List GrantType) (method : String) :
    Except RegistrationFailure Unit :=
  if !(method == authMethodNone || method == authMethodBasic || method == authMethodPost) then
    refuse .invalidClientMetadata ("token_endpoint_auth_method is not one this server can " ++
      "REGISTER; RFC 8414 token_endpoint_auth_methods_supported describes the token endpoint, " ++
      "which accepts more")
  else if method == authMethodNone && grantTypes.contains .clientCredentials then
    refuse .invalidClientMetadata "client_credentials requires a confidential client (RFC 6749 s4.4)"
  else .ok ()

def registrableScope (config : RegistrationConfig) :
    Option String → Except RegistrationFailure ScopeSet
  | none => .ok .empty
  | some text =>
    match ScopeSet.parse text with
    | .error _ =>
      refuse .invalidClientMetadata "scope is not a space-delimited RFC 6749 s3.3 token list"
    | .ok requested =>
      if !requested.isSubset config.allowedScopes then
        refuse .invalidClientMetadata
          "scope exceeds what this deployment offers dynamically registered clients"
      else .ok requested

def ClientMetadata.validate (metadata : ClientMetadata) (config : RegistrationConfig) :
    Except RegistrationFailure Registered := do
  if metadata.softwareStatement.isSome then
    refuse .invalidSoftwareStatement
      "this server does not evaluate software statements (RFC 7591 s2.3)"
  let grantTypes ← match metadata.grantTypes with
    | none => .ok [.authorizationCode]
    | some values => registrableGrants config values []
  let usesCode := grantTypes.contains .authorizationCode
  let responseTypes ← registrableResponses usesCode metadata.responseTypes
  registrableRedirects usesCode metadata.redirectUris
  let method := metadata.tokenEndpointAuthMethod.getD authMethodBasic
  registrableMethod grantTypes method
  let scope ← registrableScope config metadata.scope
  return {
    redirectUris := metadata.redirectUris
    grantTypes
    responseTypes
    tokenEndpointAuthMethod := method
    scope
    clientName := metadata.clientName }

/-! ## What a client is told -/

def displayedScope (scope : ScopeSet) : Option String :=
  if scope.isEmpty then none else some scope.display

/-- The metadata of a stored registration; the response types follow from the grants. -/
def registeredMetadata (client : Client) (registration : DynamicRegistration) : ClientMetadata where
  redirectUris := client.redirectUris
  tokenEndpointAuthMethod := some registration.tokenEndpointAuthMethod
  grantTypes := some (client.grantTypes.map GrantType.asStr)
  responseTypes := some (responseTypesOf (client.allowsGrant .authorizationCode))
  clientName := client.name
  scope := displayedScope client.allowedScopes
  softwareStatement := none

def Registered.metadata (r : Registered) : ClientMetadata where
  redirectUris := r.redirectUris
  tokenEndpointAuthMethod := some r.tokenEndpointAuthMethod
  grantTypes := some (r.grantTypes.map GrantType.asStr)
  responseTypes := some r.responseTypes
  clientName := r.clientName
  scope := displayedScope r.scope
  softwareStatement := none

def isUnreserved (b : UInt8) : Bool :=
  (65 ≤ b && b ≤ 90) || (97 ≤ b && b ≤ 122) || (48 ≤ b && b ≤ 57) ||
    b == 45 || b == 46 || b == 95 || b == 126

/-- An octet of a client id in a path. -/
def escapedOctet (b : UInt8) : List Char :=
  if isUnreserved b then [Char.ofNat b.toNat]
  else ['%', Char.ofNat (hexDigit (b >>> 4)).toNat, Char.ofNat (hexDigit (b &&& 15)).toNat]

/-! ## Records -/

/-- Seconds on the wire do not overflow. -/
def saturatingSeconds (now : Option Nat) (ttl : Duration) : Nat :=
  min (now.getD 0 + ttl.asSecs) (2 ^ 64 - 1)

/-- Whether a method needs a secret. -/
def wantsSecret (method : String) : Bool := method != authMethodNone

namespace Server

open Handler

variable (srv : Server)

def secretHash (secret : String) : SecretHash := .sha256 srv.host.secretDigest secret

/-- How a client with the secret it was given, if any, authenticates. -/
def mintedAuth : Option String → ClientAuth
  | none => .publicClient
  | some secret => .confidentialSecretHash (srv.secretHash secret)

def registeredClient (registered : Registered) (clientId : ClientId) (secret : Option String)
    (issuedAt expiresAt : Option Nat) (registrationAccessToken : String) : Client where
  clientId := clientId
  auth := srv.mintedAuth secret
  grantTypes := registered.grantTypes
  redirectUris := registered.redirectUris
  allowedScopes := registered.scope
  defaultScopes := registered.scope
  name := registered.clientName
  registration := some {
    registrationAccessTokenHash := srv.secretHash registrationAccessToken
    clientIdIssuedAt := issuedAt
    clientSecretExpiresAt := expiresAt
    tokenEndpointAuthMethod := registered.tokenEndpointAuthMethod }

/-- An update keeps the verifier there is, unless a secret was made for it or none is wanted. -/
def updatedAuth (client : Client) (wants : Bool) : Option String → ClientAuth
  | some secret => .confidentialSecretHash (srv.secretHash secret)
  | none => if wants then client.auth else .publicClient

def updatedRegistration (registration : DynamicRegistration) (registered : Registered)
    (expiresAt : Option Nat) : DynamicRegistration where
  registrationAccessTokenHash := registration.registrationAccessTokenHash
  clientIdIssuedAt := registration.clientIdIssuedAt
  clientSecretExpiresAt := expiresAt
  tokenEndpointAuthMethod := registered.tokenEndpointAuthMethod

def updatedClient (client : Client) (registration : DynamicRegistration) (registered : Registered)
    (secret : Option String) (expiresAt : Option Nat) : Client where
  clientId := client.clientId
  auth := srv.updatedAuth client (wantsSecret registered.tokenEndpointAuthMethod) secret
  grantTypes := registered.grantTypes
  redirectUris := registered.redirectUris
  allowedScopes := registered.scope
  defaultScopes := registered.scope
  name := registered.clientName
  registration := some (updatedRegistration registration registered expiresAt)

/-! ## Calls -/

def randomnessFailure : RegistrationFailure :=
  .storage ⟨"the OS would not provide randomness for a registration artifact"⟩

def registrationEndpoint (config : RegistrationConfig) : String :=
  config.registrationEndpoint.getD (srv.issuerIdentifier ++ "/register")

def registrationClientUri (config : RegistrationConfig) (clientId : String) : String :=
  srv.registrationEndpoint config ++ "/" ++
    String.ofList (clientId.toUTF8.toList.flatMap escapedOctet)

def registrationHex (bytes : Nat) : Handler RegistrationFailure String := do
  let drawn ← require randomnessFailure (← perform (.randomHex bytes))
  pure drawn.text

/-- A secret, if the method wants one. -/
def mintSecret (mint : Bool) : Handler RegistrationFailure (Option String) :=
  if mint then some <$> registrationHex 32 else pure none

def admitRegistration : Handler RegistrationFailure Unit := do
  let _ ← require .disabled srv.config.registration
  match ← perform (.check .clientRegistration) with
  | .deny => throw .unauthorized
  | .allow => pure ()

def registerAdmittedClient (metadata : ClientMetadata) (initialAccessToken : Option String) :
    Handler RegistrationFailure ClientInformation := do
  let config ← require .disabled srv.config.registration
  match ← perform (.authorizeRegistration ⟨initialAccessToken, metadata⟩) with
  | .deny => do
    emit (.clientRegistrationRefusedByPolicy none)
    perform (.record .clientRegistration .failed)
    throw .unauthorized
  | .allow =>
    match metadata.validate config with
    | .error refusal => do
      perform (.record .clientRegistration .failed)
      throw refusal
    | .ok registered => do
      let now := unixSeconds (← now)
      let clientId ← registrationHex 16
      let secret ← mintSecret (wantsSecret registered.tokenEndpointAuthMethod)
      let expiresAt := secret.map fun _ =>
        match config.clientSecretTtl with
        | none => 0
        | some ttl => saturatingSeconds now ttl
      let token ← registrationHex 32
      storeOr .storage
        (.putClient (srv.registeredClient registered clientId secret now expiresAt token))
      emit (.clientRegistered clientId)
      perform (.record .clientRegistration .succeeded)
      pure {
        clientId
        clientSecret := secret
        clientIdIssuedAt := now
        clientSecretExpiresAt := expiresAt
        registrationAccessToken := if config.managementEnabled then some token else none
        registrationClientUri :=
          if config.managementEnabled then some (srv.registrationClientUri config clientId) else none
        metadata := registered.metadata }

def registerDynamicClient (metadata : ClientMetadata) (initialAccessToken : Option String) :
    Handler RegistrationFailure ClientInformation := do
  srv.admitRegistration
  srv.registerAdmittedClient metadata initialAccessToken

/-- What a client is told of a registration that is stored. -/
def clientInformation (config : RegistrationConfig) (clientId : String) (secret : Option String)
    (client : Client) (registration : DynamicRegistration) : ClientInformation where
  clientId := clientId
  clientSecret := secret
  clientIdIssuedAt := registration.clientIdIssuedAt
  clientSecretExpiresAt := registration.clientSecretExpiresAt
  registrationAccessToken := none
  registrationClientUri := some (srv.registrationClientUri config clientId)
  metadata := registeredMetadata client registration

def readRegistration (clientId : ClientId) (registrationAccessToken : String) :
    Handler RegistrationFailure ClientInformation := do
  let (client, registration) ← srv.authenticateRegistration clientId registrationAccessToken
  let config ← require .disabled srv.config.registration
  pure (srv.clientInformation config client.clientId none client registration)

/-- When the secret of an updated registration expires; the clock is read only for a new secret
with a lifetime. -/
def updatedExpiry (config : RegistrationConfig) (registration : DynamicRegistration) (wants : Bool) :
    Option String → Handler RegistrationFailure (Option Nat)
  | some _ =>
    match config.clientSecretTtl with
    | none => pure (some 0)
    | some ttl => do
      let now ← now
      pure (some (saturatingSeconds (unixSeconds now) ttl))
  | none => pure (if wants then registration.clientSecretExpiresAt else none)

def updateRegistration (clientId : ClientId) (registrationAccessToken : String)
    (metadata : ClientMetadata) : Handler RegistrationFailure ClientInformation := do
  let (client, registration) ← srv.authenticateRegistration clientId registrationAccessToken
  let config ← require .disabled srv.config.registration
  match ← perform (.authorizeRegistration ⟨none, metadata⟩) with
  | .deny => do
    emit (.clientRegistrationRefusedByPolicy (some clientId))
    throw .unauthorized
  | .allow => do
    let registered ← judge (metadata.validate config)
    let wants := wantsSecret registered.tokenEndpointAuthMethod
    let secret ← mintSecret (wants && !client.auth.isConfidential)
    let expiresAt ← updatedExpiry config registration wants secret
    let updated := srv.updatedClient client registration registered secret expiresAt
    if ← storeOr .storage (.compareAndSwapClient client updated) then
      emit (.clientRegistrationUpdated clientId)
      pure (srv.clientInformation config clientId secret updated
        (updatedRegistration registration registered expiresAt))
    else throw .unauthorized

end Server

/-! ## The running system -/

/-- A request that deletes a registration is one of the management calls. -/
def ServiceRequest.managesRegistration : ServiceRequest → Bool
  | .api (.deleteRegistration _ _) _ => true
  | _ => false

inductive ManagementRequest where
  | service (q : ServiceRequest) (other : q.managesRegistration = false)
  | register (metadata : ClientMetadata) (initialAccessToken : Option String)
  | read (clientId : ClientId) (registrationAccessToken : String)
  | update (clientId : ClientId) (registrationAccessToken : String) (metadata : ClientMetadata)
  | delete (clientId : ClientId) (registrationAccessToken : String)
deriving DecidableEq

inductive ManagementReply where
  | service (reply : ServiceReply)
  | information (result : Except RegistrationFailure ClientInformation)
  | deleted (result : Except RegistrationFailure Unit)
deriving DecidableEq

namespace Server

variable (srv : Server)

def manage : ManagementRequest → Prog Effect Effect.Answer ManagementReply
  | .service q _ => .service <$> srv.serve q
  | .register metadata initialAccessToken =>
    .information <$> (srv.registerDynamicClient metadata initialAccessToken).run
  | .read clientId token => .information <$> (srv.readRegistration clientId token).run
  | .update clientId token metadata =>
    .information <$> (srv.updateRegistration clientId token metadata).run
  | .delete clientId token => .deleted <$> (srv.deleteRegistration clientId token).run

/-- The service together with the management of its registrations. -/
def management :
    Semantics World Effect Effect.Answer Choice ManagementRequest ManagementReply Occurrence where
  handler := srv.manage
  perform := World.perform
  environment := World.environment

end Server

abbrev ManagementState := System World Effect Effect.Answer ManagementRequest ManagementReply

abbrev ManagementCall := Thread Effect Effect.Answer ManagementRequest ManagementReply

abbrev ManagementMove := Action Choice ManagementRequest Occurrence

end OauthAs
