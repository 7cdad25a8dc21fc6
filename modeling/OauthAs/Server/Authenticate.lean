-- SUMMARY: Client authentication by secret, assertion or certificate, with one exit for every refusal.
import OauthAs.Server.Effect

/-!
# Client authentication

The limiter is asked first, the registration decides how the client authenticates, and every
refusal leaves through one exit that spends what the request had not spent yet and answers with
the same `invalid_client`.
-/

namespace OauthAs

/-- What a request presents to authenticate its client. -/
structure ClientCredential where
  clientSecret : Option String
  clientAssertionType : Option String
  clientAssertion : Option String
  certificate : Option ClientCertificate
deriving DecidableEq, Repr

def ClientCredential.secret (clientSecret : Option String) : ClientCredential :=
  ⟨clientSecret, none, none, none⟩

/-- The credential together with the key thumbprint of the request's DPoP proof. -/
structure Bound where
  cred : ClientCredential
  jkt : Option String
deriving DecidableEq, Repr

def Bound.secret (clientSecret : Option String) : Bound := ⟨.secret clientSecret, none⟩

/-- The thumbprint of the certificate the request came with. -/
def Bound.thumbprint (bound : Bound) : Option CertificateThumbprint :=
  bound.cred.certificate.map ClientCertificate.thumbprint

/-- Which verifications a request has already paid for. -/
structure CredentialCost where
  secret : Bool
  assertion : Bool
deriving DecidableEq, Repr

inductive ClientAuthVerdict where
  | authenticated (client : Client)
  | refused (failure : ClientAuthFailure)
deriving DecidableEq

def clientAssertionType : String := "urn:ietf:params:oauth:client-assertion-type:jwt-bearer"

def assertionCouldBeVerified (cred : ClientCredential) : Bool :=
  cred.clientAssertion.isSome && cred.clientAssertionType == some clientAssertionType
    && cred.clientSecret.isNone

/-- The length of the owner keeps keys of different owners apart. -/
def replayKey (kind owner jti : String) : String :=
  kind ++ ":" ++ toString owner.utf8ByteSize ++ ":" ++ owner ++ jti

/-- A request relies on exactly one method, and the registration decides about the certificate. -/
def verifyCertificate (client : Client) (cred : ClientCredential) :
    Except ClientAuthFailure Unit :=
  match client.auth with
  | .mtls registration =>
    if cred.clientSecret.isSome then .error .secretMismatch
    else
      match cred.certificate with
      | none => .error .noCertificatePresented
      | some certificate =>
        if registration.accepts certificate then .ok () else .error .certificateMismatch
  | _ => .error .secretMismatch

namespace Server

open Handler

variable (srv : Server)

def admitClientAuthentication (attempt : Attempt) (clientId : ClientId) :
    Handler ErrorResponse Unit := do
  match ← perform (.check attempt) with
  | .deny =>
    emit (.clientAuthenticationFailed clientId .rateLimited)
    throw (.new .invalidClient)
  | .allow => pure ()

/-- Whether the registration's secret has expired; zero means it does not. -/
def secretExpired (client : Client) : Handler ErrorResponse Bool :=
  match client.registration.bind DynamicRegistration.clientSecretExpiresAt with
  | none => pure false
  | some expiresAt =>
    if expiresAt = 0 then pure false
    else do
      let now ← now
      pure ((unixSeconds now).any fun since => decide (since ≥ expiresAt))

/-- The verdict on an assertion, and whether a verification was made. -/
def authenticateByAssertion (client : Client) (cred : ClientCredential) :
    Handler ErrorResponse (Bool × Except AssertionFailure Unit) :=
  if !assertionCouldBeVerified cred then pure (false, .error .malformed)
  else
    match cred.clientAssertion, client.auth with
    | none, _ => pure (false, .error .malformed)
    | some assertion, .confidentialAssertion keys => do
      let now ← now
      match srv.host.verifyAssertion keys assertion client.clientId now with
      | .error reason => pure (true, .error reason)
      | .ok verified =>
        match ← tryStore (.claimReplayId (replayKey "ca" client.clientId verified.jti)
            verified.expiresAt) with
        | .error _ => pure (true, .error .replayCheckUnavailable)
        | .ok claimed => pure (true, if claimed then .ok () else .error .replayed)
    | some _, _ => pure (false, .error .wrongPrincipal)

/-- Whether the presented secret, or its absence, is what the registration asks for. Assertions
and certificates are verified elsewhere, so no secret satisfies those registrations. The call marks
that a secret is verified; a hash that nobody can check is refused without. -/
def verifyWith (auth : ClientAuth) (presented : Option String) : Handler ErrorResponse Bool :=
  match auth, presented with
  | .publicClient, presented => pure presented.isNone
  | .confidentialSecret secret, some p => do
    perform (.verifySecret p)
    pure (secret == p)
  | .confidentialSecretHash hash, some p =>
    match hash.judge srv.host.secretDigest p srv.host.secretVerifier with
    | some verified => do
      perform (.verifySecret p)
      pure verified
    | none => pure false
  | _, _ => pure false

/-- A verification for show, in the scheme of the host's verifier if it offers a hash for it. -/
def dummyVerify (presented : Option String) : Handler ErrorResponse Unit :=
  match presented with
  | some p => do
    let hash := (srv.host.secretVerifier.bind SecretVerifier.dummyHash).getD
      (.sha256 srv.host.secretDigest
        "oauth-as dummy verification input; no registration is stored under this")
    let _ ← srv.verifyWith (.confidentialSecretHash hash) (some p)
  | none => pure ()

def classifyClientCredential (clientId : ClientId) (cred : ClientCredential) :
    Handler ErrorResponse (CredentialCost × ClientAuthVerdict) := do
  match ← store (.getClient clientId) with
  | none => pure (⟨false, false⟩, .refused .unknownClient)
  | some client =>
    if ← secretExpired client then pure (⟨false, false⟩, .refused .secretExpired)
    else if cred.clientAssertion.isSome then
      match ← srv.authenticateByAssertion client cred with
      | (paid, .ok ()) => pure (⟨false, paid⟩, .authenticated client)
      | (paid, .error reason) => pure (⟨false, paid⟩, .refused (.assertionInvalid reason))
    else
      match client.auth with
      | .mtls _ =>
        match verifyCertificate client cred with
        | .ok () => pure (⟨false, false⟩, .authenticated client)
        | .error failure => pure (⟨false, false⟩, .refused failure)
      | _ =>
        let paid := client.auth.holdsSecret
        if ← srv.verifyWith client.auth cred.clientSecret then
          pure (⟨paid, false⟩, .authenticated client)
        else pure (⟨paid, false⟩, .refused .secretMismatch)

/-- Spends the verifications the presented credential was not charged for. -/
def settleCredentialCost (cred : ClientCredential) (paid : CredentialCost) :
    Handler ErrorResponse Unit := do
  if !paid.secret then
    srv.dummyVerify cred.clientSecret
  if !paid.assertion && assertionCouldBeVerified cred then
    perform (.dummyAssertionVerify cred.clientAssertion)

def authenticateClient (clientId : ClientId) (cred : ClientCredential) :
    Handler ErrorResponse Client := do
  let attempt := Attempt.clientAuthentication clientId
  admitClientAuthentication attempt clientId
  match ← srv.classifyClientCredential clientId cred with
  | (_, .authenticated client) =>
    perform (.record attempt .succeeded)
    pure client
  | (paid, .refused failure) =>
    srv.settleCredentialCost cred paid
    perform (.record attempt .failed)
    emit (.clientAuthenticationFailed clientId failure)
    throw (.new .invalidClient)

end Server

end OauthAs
