-- SUMMARY: Client registrations, their credentials and the certificate check.
import OauthAs.Scope
import OauthAs.Time

/-!
# Clients
-/

namespace OauthAs

abbrev ClientId := String

inductive GrantType where
  | authorizationCode
  | refreshToken
  | clientCredentials
  | deviceCode
  | tokenExchange
deriving DecidableEq, Repr

def deviceCodeGrantUrn : String := "urn:ietf:params:oauth:grant-type:device_code"

def tokenExchangeGrantUrn : String := "urn:ietf:params:oauth:grant-type:token-exchange"

namespace GrantType

def asStr : GrantType → String
  | authorizationCode => "authorization_code"
  | refreshToken => "refresh_token"
  | clientCredentials => "client_credentials"
  | deviceCode => deviceCodeGrantUrn
  | tokenExchange => tokenExchangeGrantUrn

def parse (s : String) : Option GrantType :=
  if s = "authorization_code" then some authorizationCode
  else if s = "refresh_token" then some refreshToken
  else if s = "client_credentials" then some clientCredentials
  else if s = deviceCodeGrantUrn then some deviceCode
  else if s = tokenExchangeGrantUrn then some tokenExchange
  else none

theorem parse_asStr (g : GrantType) : parse g.asStr = some g := by
  cases g <;> decide

end GrantType

/-- A stored verifier for a secret: the scheme and its encoding. -/
structure SecretHash where
  scheme : String
  encoded : String
deriving DecidableEq, Repr

/-- What the host checks secrets with whose scheme the server does not implement. -/
structure SecretVerifier where
  verify : SecretHash → String → Bool
  dummyHash : Option SecretHash

namespace SecretHash

def sha256Hex : String := "sha256-hex"

def sha256 (digest : String → String) (secret : String) : SecretHash := ⟨sha256Hex, digest secret⟩

def verifyBuiltin (digest : String → String) (hash : SecretHash) (presented : String) : Bool :=
  hash.scheme == sha256Hex && digest presented == hash.encoded

/-- What whoever knows the scheme says: the server about its own, the host's verifier about any
other. -/
def judge (digest : String → String) (hash : SecretHash) (presented : String)
    (verifier : Option SecretVerifier) : Option Bool :=
  if hash.scheme = sha256Hex then some (hash.verifyBuiltin digest presented)
  else verifier.map fun v => v.verify hash presented

/-- What nobody can check is refused. -/
def verify (digest : String → String) (hash : SecretHash) (presented : String)
    (verifier : Option SecretVerifier) : Bool :=
  (hash.judge digest presented verifier).getD false

end SecretHash

inductive JwsAlg where
  | es256
  | rs256
  | edDsa
  | ps256
deriving DecidableEq, Repr

/-- What a client assertion is verified with. Public keys are kept as their JWK texts. -/
inductive AssertionKeys where
  | clientSecret (secret : String)
  | publicKeys (alg : JwsAlg) (keys : List String)
deriving DecidableEq, Repr

/-- The base64url form of a certificate's SHA-256. -/
abbrev CertificateThumbprint := String

structure ClientCertificate where
  thumbprint : CertificateThumbprint
  subjectDn : Option String
  sanDns : List String
  sanUri : List String
  sanIp : List String
  sanEmail : List String
deriving DecidableEq, Repr

inductive ExpectedSubject where
  | subjectDn (value : String)
  | sanDns (value : String)
  | sanUri (value : String)
  | sanIp (value : String)
  | sanEmail (value : String)
deriving DecidableEq, Repr

def ClientCertificate.satisfies (c : ClientCertificate) : ExpectedSubject → Bool
  | .subjectDn dn => c.subjectDn == some dn
  | .sanDns v => c.sanDns.contains v
  | .sanUri v => c.sanUri.contains v
  | .sanIp v => c.sanIp.contains v
  | .sanEmail v => c.sanEmail.contains v

inductive MtlsClientRegistration where
  | tlsClientAuth (expected : ExpectedSubject)
  | selfSignedTlsClientAuth (thumbprints : List CertificateThumbprint)
deriving DecidableEq, Repr

def MtlsClientRegistration.accepts (r : MtlsClientRegistration) (c : ClientCertificate) : Bool :=
  match r with
  | .tlsClientAuth expected => c.satisfies expected
  | .selfSignedTlsClientAuth thumbprints => thumbprints.contains c.thumbprint

inductive ClientAuth where
  | publicClient
  | confidentialSecret (secret : String)
  | confidentialSecretHash (hash : SecretHash)
  | confidentialAssertion (keys : AssertionKeys)
  | mtls (registration : MtlsClientRegistration)
deriving DecidableEq, Repr

def ClientAuth.isConfidential : ClientAuth → Bool
  | .publicClient => false
  | _ => true

/-- The registrations a secret verification is taken to be paid for. -/
def ClientAuth.holdsSecret : ClientAuth → Bool
  | .confidentialSecret _ | .confidentialSecretHash _ => true
  | _ => false

structure DynamicRegistration where
  registrationAccessTokenHash : SecretHash
  clientIdIssuedAt : Option Nat
  clientSecretExpiresAt : Option Nat
  tokenEndpointAuthMethod : String
deriving DecidableEq, Repr

structure Client where
  clientId : ClientId
  auth : ClientAuth
  grantTypes : List GrantType
  redirectUris : List String
  allowedScopes : ScopeSet
  defaultScopes : ScopeSet
  name : Option String
  registration : Option DynamicRegistration
deriving DecidableEq

/-- What a client says about itself when it registers, or changes its registration. -/
structure ClientMetadata where
  redirectUris : List String
  tokenEndpointAuthMethod : Option String
  grantTypes : Option (List String)
  responseTypes : Option (List String)
  clientName : Option String
  scope : Option String
  softwareStatement : Option String
deriving DecidableEq, Repr

def Client.allowsGrant (c : Client) (grantType : GrantType) : Bool :=
  c.grantTypes.contains grantType

end OauthAs
