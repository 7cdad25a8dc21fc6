-- SUMMARY: The running server: requests interleaved over one store, one clock and fresh randomness.
import OauthAs.Lib.Pool
import OauthAs.Server.Code
import OauthAs.Server.Device
import OauthAs.Server.Exchange
import OauthAs.Server.Refresh
import OauthAs.Server.Revoke

/-!
# The running server

A state of the system is a world and the requests made so far. The world is the reference store,
a clock that only moves forward, and the random strings handed out so far: what randomness and
the signer produce is new, so it is never one of those. What the world leaves open (which string,
whether the limiter admits a request) is resolved by a `Choice`. Sweeps and the passage of time
happen without a request.
-/

namespace OauthAs

inductive Request where
  | registerClient (client : Client)
  | deleteRegistration (clientId : ClientId) (registrationAccessToken : String)
  | issueAuthorizationCode (approval : UserApproval) (authentication : Option Authentication)
  | authorizationCodeToken (p : CodePresentation)
  | clientCredentialsToken (clientId : ClientId) (bound : Bound) (requestedScope : Option ScopeSet)
      (resource : List String) (details : AuthorizationDetails)
  | deviceAuthorization (clientId : ClientId) (cred : ClientCredential)
      (requestedScope : Option ScopeSet)
  | approveDevice (enteredUserCode subject : String)
  | denyDevice (enteredUserCode : String)
  | deviceToken (clientId : ClientId) (bound : Bound) (deviceCode : String)
  | refreshToken (p : RefreshPresentation)
  | tokenExchange (request : TokenExchangeRequest)
  | revoke (clientId : ClientId) (cred : ClientCredential) (token : String)
      (tokenTypeHint : Option TokenTypeHint)
  | recordConsent (clientId : ClientId) (subject : String) (scope : ScopeSet)
      (resource : List String) (authentication : Option Authentication)
  | withdrawConsent (consentId : String)
deriving DecidableEq

inductive Reply where
  | registered (result : Except StorageError Unit)
  | deregistered (result : Except RegistrationFailure Unit)
  | code (result : Except AuthorizationErrorRedirect AuthorizationResponse)
  | token (result : Except ErrorResponse TokenResponse)
  | exchanged (result : Except ErrorResponse ExchangedToken)
  | deviceCode (result : Except ErrorResponse DeviceAuthorizationResponse)
  | decided (result : Except DeviceApprovalError Unit)
  | revoked (result : Except ErrorResponse Unit)
  | consented (result : Except StorageError ConsentRecord)
  | withdrawn (result : Except StorageError Nat)
deriving DecidableEq

/-- How the world resolves what it leaves open. -/
inductive Choice where
  | none
  | entropy (drawn : Option TokenEntropy)
  | hex (drawn : Option String)
  | userCode (drawn : Option String)
  | signed (token : Option String)
  | decision (d : RateLimitDecision)
  | approval (d : ApprovalDecision)
  | registration (d : RegistrationDecision)
deriving DecidableEq

/-- What happens without a request. -/
inductive Occurrence where
  | tick (elapsed : Duration)
  | sweep (now : SystemTime)
deriving DecidableEq, Repr

structure World where
  store : MemoryInner
  clock : SystemTime
  used : List String

namespace World

/-- A server that has stored and handed out nothing. -/
def initial (clock : SystemTime) : World := ⟨.empty, clock, []⟩

/-- The strings drawn by an issuance. -/
def drawnStrings (e : TokenEntropy) : List String :=
  [e.family.text, e.access.text, e.refresh.text]

/-- New strings: none handed out before, no two the same. -/
def Fresh (w : World) (drawn : List String) : Prop :=
  drawn.Nodup ∧ ∀ s ∈ drawn, s ∉ w.used

instance (w : World) (drawn : List String) : Decidable (w.Fresh drawn) :=
  inferInstanceAs (Decidable (_ ∧ _))

/-- Hands out new strings. -/
def draw {α : Type} (w : World) (drawn : List String) (a : α) : Option (α × World) :=
  if w.Fresh drawn then some (a, { w with used := drawn ++ w.used }) else none

def userCodeAlphabet : String := "BCDFGHJKLMNPQRSTVWXZ"

/-- User codes are short enough to collide, so only their shape is fixed. -/
def isUserCode (length : Nat) (text : String) : Bool :=
  text.length = length && text.toList.all fun c => userCodeAlphabet.toList.contains c

/-- One call of a request. -/
def perform (w : World) : (e : Effect) → Choice → Option (e.Answer × World)
  | .storage op, .none => some ((op.exec w.store).1, { w with store := (op.exec w.store).2 })
  | .now, .none => some (w.clock, w)
  | .tokenEntropy, .entropy none => some (none, w)
  | .tokenEntropy, .entropy (some e) => w.draw (drawnStrings e) (some e)
  | .randomHex _, .hex none => some (none, w)
  | .randomHex bytes, .hex (some text) =>
    if h : isHex bytes text = true then w.draw [text] (some ⟨text, h⟩) else none
  | .randomUserCode _, .userCode none => some (none, w)
  | .randomUserCode length, .userCode (some text) =>
    if isUserCode length text then some (some text, w) else none
  | .sign _, .signed none => some (none, w)
  | .sign _, .signed (some token) => w.draw [token] (some token)
  | .check _, .decision d => some (d, w)
  | .record _ _, .none => some ((), w)
  | .verifySecret _, .none => some ((), w)
  | .dummyAssertionVerify _, .none => some ((), w)
  | .emit _, .none => some ((), w)
  | .approve _, .approval d => some (d, w)
  | .authorizeRegistration _, .registration d => some (d, w)
  | _, _ => none

def environment (w : World) : Occurrence → Option World
  | .tick elapsed => some { w with clock := w.clock + elapsed }
  | .sweep now => some { w with store := (w.store.sweepExpired now).2 }

/-- A world in which nothing else goes on; the limiter's decisions are given. -/
def alone (limit : Attempt → RateLimitDecision) (w : World) (e : Effect) :
    Option (e.Answer × World) :=
  w.perform e (match e with
    | .check attempt => .decision (limit attempt)
    | _ => .none)

end World

namespace Server

variable (srv : Server)

def handle : Request → Prog Effect Effect.Answer Reply
  | .registerClient client => .registered <$> (registerClient client).run
  | .deleteRegistration clientId token => .deregistered <$> (srv.deleteRegistration clientId token).run
  | .issueAuthorizationCode approval authentication =>
    .code <$> (srv.issueAuthorizationCodeInner approval authentication).run
  | .authorizationCodeToken p =>
    .token <$> (srv.withResources p.requestedResources (srv.authorizationCodeToken p)).run
  | .clientCredentialsToken clientId bound scope resource details =>
    .token <$> (srv.withResources resource fun resource =>
      srv.clientCredentialsToken clientId bound scope resource details).run
  | .deviceAuthorization clientId cred scope =>
    .deviceCode <$> (srv.deviceAuthorization clientId cred scope).run
  | .approveDevice userCode subject => .decided <$> (approveDevice userCode subject).run
  | .denyDevice userCode => .decided <$> (denyDevice userCode).run
  | .deviceToken clientId bound deviceCode =>
    .token <$> (srv.deviceToken clientId bound deviceCode).run
  | .refreshToken p =>
    .token <$> (srv.withResources p.requestedResources (srv.refreshToken p)).run
  | .tokenExchange request => .exchanged <$> (srv.exchangeToken request).run
  | .revoke clientId cred token hint =>
    .revoked <$> (srv.revokeWithCredential clientId cred token hint).run
  | .recordConsent clientId subject scope resource authentication =>
    .consented <$> (recordConsent clientId subject scope resource authentication).run
  | .withdrawConsent consentId => .withdrawn <$> (srv.withdrawConsent consentId).run

def semantics : Semantics World Effect Effect.Answer Choice Request Reply Occurrence where
  handler := srv.handle
  perform := World.perform
  environment := World.environment

end Server

/-- The world and the requests made so far. -/
abbrev State := System World Effect Effect.Answer Request Reply

abbrev Call := Thread Effect Effect.Answer Request Reply

abbrev Move := Action Choice Request Occurrence

namespace State

/-- No requests yet, whatever the world holds. -/
def idle (w : World) : State := ⟨w, []⟩

/-- Every request has been answered. -/
def Settled (s : State) : Prop := ∀ t ∈ s.threads, t.Finished

instance (s : State) : Decidable s.Settled := inferInstanceAs (Decidable (∀ t ∈ s.threads, _))

end State

/-- A server gets to the state from a store it has never used. -/
abbrev Server.Runs (srv : Server) (ok : State → Move → State → Prop) (clock : SystemTime)
    (s : State) : Prop :=
  srv.semantics.Reaches ok (State.idle (.initial clock)) s

/-- The states a server gets to, from a store it has never used. -/
def Server.Reachable (srv : Server) (s : State) : Prop :=
  ∃ clock, srv.semantics.Reaches Semantics.anyStep (State.idle (.initial clock)) s

/-! ## A small deployment

One public client of a server in its default configuration, a code for one user, and the pieces
of schedules on it that the concrete runs below are made of. -/

namespace Sample

def text (c : Char) (n : Nat) : String := String.ofList (List.replicate n c)

instance tenDigits : NeZero 10 := ⟨by decide⟩

def digit (d : Fin 10) : Char := Char.ofNat (48 + d.val)

theorem isHex_text (bytes : Nat) (d : Fin 10) : isHex bytes (text (digit d) (2 * bytes)) = true := by
  have hdigit : ∀ d : Fin 10, (digit d).isDigit = true := by decide
  simp [isHex, text, hdigit d]

def hex (bytes : Nat) (d : Fin 10) : HexString bytes := ⟨text (digit d) (2 * bytes), isHex_text bytes d⟩

/-- What the issuances of a run draw, one digit for each. -/
def entropy (d : Fin 10) : TokenEntropy := ⟨hex 16 d, hex 32 d, hex 32 (9 - d)⟩

def host : Host where
  ceiling := 10 ^ 30
  codeChallengeS256 verifier := verifier
  verifyAssertion _ _ _ _ := .error .malformed
  -- All text of the runs is ASCII.
  fromUtf8Lossy octets := String.ofList (octets.map fun b => Char.ofNat b.toNat)

def config : ServerConfig := ServerConfig.new "https://as.example" "https://as.example/device"

def server : Server := ⟨config, host⟩

def reading : ScopeSet := .ofTokens [⟨"read", by decide⟩]

def app : Client where
  clientId := "app"
  auth := .publicClient
  grantTypes := [.authorizationCode, .refreshToken, .deviceCode]
  redirectUris := ["https://app.example/cb"]
  allowedScopes := reading
  defaultScopes := .empty
  name := none
  registration := none

def verifier : String := text 'v' 43

def code : String := text '0' 64

def approval : UserApproval where
  request :=
    { clientId := "app", redirectUri := "https://app.example/cb", redirectUriWasExplicit := true
      scope := reading, state := none, codeChallenge := verifier, codeChallengeMethod := .s256
      issuer := "https://as.example", resource := [], authorizationDetails := [], dpopJkt := none }
  subject := "user"
  decidedAt := none

def presentation (clientId : ClientId) : CodePresentation where
  clientId := clientId
  bound := .secret none
  code := code
  redirectUri := some "https://app.example/cb"
  codeVerifier := some verifier
  requestedResources := []
  requestedDetails := []

def refreshing (refreshToken : String) : RefreshPresentation where
  clientId := "app"
  bound := .secret none
  refreshToken := refreshToken
  requestedScope := none
  requestedResources := []
  requestedDetails := []

/-- The request makes its next calls, which leave nothing open. -/
def go (i n : Nat) : List Move := List.replicate n (.run i .none)

def registers (i : Nat) (client : Client) : List Move := .spawn (.registerClient client) :: go i 1

def issuesCode (i : Nat) (asked : UserApproval) : List Move :=
  [.spawn (.issueAuthorizationCode asked none), .run i (.decision .allow), .run i .none,
    .run i (.hex (some code))] ++ go i 2

/-- A client is let in and identified. -/
def admits (i : Nat) (request : Request) : List Move :=
  [.spawn request, .run i (.decision .allow)] ++ go i 2

/-- A redemption, to its end. -/
def redeems (i : Nat) (p : CodePresentation) (d : Fin 10) : List Move :=
  admits i (.authorizationCodeToken p) ++ go i 4 ++
    [.run i (.entropy (some (entropy d)))] ++ go i 4

/-- The client has redeemed its code: three requests have been answered. -/
def redeemed (d : Fin 10) : List Move :=
  registers 0 app ++ issuesCode 1 approval ++ redeems 2 (presentation "app") d

/-- A strict rotation, to its end. -/
def rotates (i : Nat) (p : RefreshPresentation) (d : Fin 10) : List Move :=
  admits i (.refreshToken p) ++ go i 4 ++
    [.run i (.entropy (some (entropy d)))] ++ go i 3

/-- Whether a request was answered with tokens. -/
def served (s : State) (i : Nat) : Bool :=
  (s.threads[i]?.bind Thread.reply?).any fun
    | .token (.ok _) => true
    | _ => false

/-- The access token that was put into the store first. -/
def written (trace : List Answered) : Option IssuedToken :=
  trace.findSome? fun
    | ⟨.storage (.putToken t), .ok .applied⟩ => some t
    | _ => none

theorem mem_of_written {trace : List Answered} {t : IssuedToken}
    (h : written trace = some t) : ⟨.storage (.putToken t), .ok .applied⟩ ∈ trace := by
  obtain ⟨⟨e, r⟩, hmem, hcall⟩ := List.exists_of_findSome?_eq_some h
  split at hcall
  · rename_i heq
    cases heq
    cases hcall
    exact hmem
  · cases hcall

/-- The tokens a request was answered with. -/
def answered (c : Call) : Option TokenResponse :=
  match c.reply? with
  | some (.token (.ok response)) => some response
  | _ => none

theorem reply_of_answered {c : Call} {response : TokenResponse} (h : answered c = some response) :
    c.reply? = some (.token (.ok response)) := by
  unfold answered at h
  split at h
  · rename_i heq
    cases h
    exact heq
  · cases h

end Sample

end OauthAs
