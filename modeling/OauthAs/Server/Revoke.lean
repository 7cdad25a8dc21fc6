-- SUMMARY: Revocation of tokens, consents and registrations, and the writes they undo.
import OauthAs.Server.Issue

/-!
# Revocation, consent and registration

Revoking a refresh token looks the record up by its string and revokes the record's family.
Withdrawing a consent and deleting a registration name a (client, subject) pair and a client.
Each records a barrier whose window comes from one reading of the clock.
-/

namespace OauthAs

inductive RegistrationErrorCode where
  | invalidRedirectUri
  | invalidClientMetadata
  | invalidSoftwareStatement
deriving DecidableEq, Repr

structure RegistrationErrorResponse where
  error : RegistrationErrorCode
  errorDescription : Option String
deriving DecidableEq, Repr

/-- The refusals a registration or a management call can meet. -/
inductive RegistrationFailure where
  | disabled
  | unauthorized
  | invalid (response : RegistrationErrorResponse)
  | storage (error : StorageError)
deriving DecidableEq, Repr

namespace Server

open Handler

variable (srv : Server)

/-! ## Tokens -/

/-- Revokes the family of the client's own refresh token; whether there was one. -/
def tryRefresh (client : Client) (token : String) : Handler ErrorResponse Bool := do
  match ← store (.getRefreshToken token) with
  | none => pure false
  | some record =>
    if record.clientId ≠ client.clientId then pure false
    else do
      let window ← srv.revocationWindow
      let cascade ← tryStore (.revokeTokenFamily record.familyId window)
      let _ ← store (.takeRefreshToken token)
      emit (.tokenRevoked client.clientId .refreshToken (!cascade.isOk))
      pure true

/-- Deletes the client's own access token; whether there was one. -/
def tryAccess (client : Client) (token : String) : Handler ErrorResponse Bool := do
  match ← store (.getToken token) with
  | none => pure false
  | some t =>
    if t.clientId ≠ client.clientId then pure false
    else do
      store (.deleteToken token)
      emit (.tokenRevoked client.clientId .accessToken false)
      pure true

/-- One attempt, and another only if the first found nothing. -/
def orElse (first second : Handler ErrorResponse Bool) : Handler ErrorResponse Unit := do
  if ← first then pure ()
  else do
    let _ ← second
    pure ()

/-- The hint decides what is looked for first; the answer is the same whatever was found. -/
def revokeWithCredential (clientId : ClientId) (cred : ClientCredential) (token : String)
    (tokenTypeHint : Option TokenTypeHint) : Handler ErrorResponse Unit := do
  let client ← srv.authenticateClient clientId cred
  match tokenTypeHint with
  | some .accessToken => orElse (tryAccess client token) (srv.tryRefresh client token)
  | _ => orElse (srv.tryRefresh client token) (tryAccess client token)

/-! ## Consents -/

/-- The record an approval is remembered as; a report of the sign-in replaces an earlier one. -/
def widenedConsent (base : ConsentRecord) (scope : ScopeSet) (resource : List String)
    (authentication : Option Authentication) : ConsentRecord :=
  let record := base.extend scope resource
  match authentication with
  | some a => { record with authentication := some a }
  | none => record

/-- The record to widen: the one there is, or an empty one under a new id. -/
def consentBase (clientId : ClientId) (subject : String) (now : SystemTime) :
    Option ConsentRecord → Handler StorageError ConsentRecord
  | some existing => pure existing
  | none => do
    let id ← require ⟨"the OS would not provide randomness for a consent id"⟩
      (← perform (.randomHex 16))
    pure ⟨id.text, clientId, subject, .empty, [], now, none⟩

/-- Remembers an approval, trying again once if the record changed meanwhile. An approval that
started by widening a record never turns into a new one. -/
def recordConsentLoop (clientId : ClientId) (subject : String) (scope : ScopeSet)
    (resource : List String) (authentication : Option Authentication) (now : SystemTime) :
    Nat → Option Bool → Handler StorageError ConsentRecord
  | 0, _ => throw ⟨"consent record changed concurrently twice; not recorded"⟩
  | attempts + 1, startedAsWiden => do
    let expected ← storeOr id (.findConsent clientId subject)
    if startedAsWiden = some true ∧ expected.isNone then
      throw ⟨"the consent was withdrawn while it was being recorded"⟩
    else do
      let base ← consentBase clientId subject now expected
      let record := widenedConsent base scope resource authentication
      let widens := startedAsWiden.getD expected.isSome
      if ← storeOr id (.compareAndSwapConsent expected record) then
        pure record
      else
        recordConsentLoop clientId subject scope resource authentication now attempts (some widens)

def recordConsent (clientId : ClientId) (subject : String) (scope : ScopeSet)
    (resource : List String) (authentication : Option Authentication) :
    Handler StorageError ConsentRecord :=
  if subject.isEmpty then
    throw ⟨"a consent must name a subject; an empty subject cannot be withdrawn"⟩
  else do
    let now ← now
    recordConsentLoop clientId subject scope resource authentication now 2 none

def withdrawConsent (consentId : String) : Handler StorageError Nat := do
  let record ← storeOr id (.getConsent consentId)
  let window ← srv.revocationWindow
  let recordsRevoked ← storeOr id (.revokeConsent consentId window)
  match record with
  | some record => emit (.consentWithdrawn record.clientId record.subject recordsRevoked)
  | none => pure ()
  pure recordsRevoked

/-! ## Registrations -/

/-- A client the host provisions itself. -/
def registerClient (client : Client) : Handler StorageError Unit :=
  match client.redirectUris.find? fun uri => !isValidResourceIndicator uri with
  | some uri => throw ⟨"redirect_uri \"" ++ uri ++ "\" is not registerable: RFC 6749 s3.1.2 " ++
      "requires an absolute URI with no fragment, and the authorization endpoint matches it by " ++
      "exact string, so a registration this server cannot reproduce is a client that can never " ++
      "complete a flow"⟩
  | none => storeOr id (.putClient client)

/-- Reports a refused management call; a limiter refusal is no attempt. -/
def registrationAuthFailed {α : Type} (clientId : ClientId) (failure : ClientAuthFailure)
    (attempted : Bool) : Handler RegistrationFailure α := do
  emit (.clientRegistrationAuthenticationFailed clientId failure)
  if attempted then
    perform (.record (.clientAuthentication clientId) .failed)
  throw .unauthorized

def authenticateRegistration (clientId : ClientId) (registrationAccessToken : String) :
    Handler RegistrationFailure (Client × DynamicRegistration) := do
  let config ← require .disabled srv.config.registration
  if !config.managementEnabled then
    throw .disabled
  let attempt := Attempt.clientAuthentication clientId
  match ← perform (.check attempt) with
  | .deny => registrationAuthFailed clientId .rateLimited false
  | .allow =>
    match ← storeOr .storage (.getClient clientId) with
    | none => registrationAuthFailed clientId .unknownClient true
    | some client =>
      match client.registration with
      | none => registrationAuthFailed clientId .noDynamicRegistration true
      | some registration =>
        if srv.host.verifySecretHash registration.registrationAccessTokenHash
            registrationAccessToken then do
          perform (.record attempt .succeeded)
          pure (client, registration)
        else registrationAuthFailed clientId .secretMismatch true

def deleteRegistration (clientId : ClientId) (registrationAccessToken : String) :
    Handler RegistrationFailure Unit := do
  let _ ← srv.authenticateRegistration clientId registrationAccessToken
  let window ← srv.revocationWindow
  let _ ← storeOr .storage (.deleteClient clientId window)
  emit (.clientRegistrationDeleted clientId)

end Server

end OauthAs
