-- SUMMARY: What a request did so far, as far as later requests depend on it, and the calls it may make next.
import OauthAs.Protocol.Terms
import OauthAs.Server.System
import OauthAs.Store.Barrier

/-!
# Ledgers

The ledger of a request is read off its trace: which records it holds, which it spent or marked,
what it drew, wrote and took back. `Ledger.MayStore` says which storage calls a request makes in
a given situation, so that an invariant of the running server is checked against these few kinds
of writes and not against the handlers. That the handlers keep to it is proved in
`Protocol.Discipline`.

Every field but the hands (`hand`, `held`), the identifier and the right to mint only grows, so
that it still speaks about a request that has been answered.
-/

namespace OauthAs

def Request.isRefresh : Request → Bool
  | .refreshToken _ => true
  | _ => false

/-- Whether a request is by the client the code was issued to. -/
def Request.owns (q : Request) (r : AuthorizationCodeRecord) : Bool :=
  match q with
  | .authorizationCodeToken p => p.clientId == r.clientId
  | _ => false

/-! ## Codes -/

structure CodeLedger where
  /-- The record taken out of the store and not yet written back in some form. -/
  hand : Option AuthorizationCodeRecord
  /-- The issued record this request marked as consumed. -/
  redeemed : Option AuthorizationCodeRecord
  /-- The redeemed record that its own client presented again. -/
  replayed : Option AuthorizationCodeRecord
  /-- How the swap that records a redemption went. -/
  swapped : Option Bool
  /-- The record of the redemption that the swap wrote. -/
  recorded : Option AuthorizationCodeRecord

namespace CodeLedger

def take (c : CodeLedger) (q : Request) (r : AuthorizationCodeRecord) : CodeLedger :=
  { c with
    hand := some r
    replayed := if q.owns r && r.state != .issued then some r else c.replayed }

def put (c : CodeLedger) (r : AuthorizationCodeRecord) : CodeLedger :=
  { c with
    hand := none
    redeemed := if r.state = .consumed none none ∧ c.hand.any (fun h => h.state = .issued) = true
      then c.hand else c.redeemed }

end CodeLedger

/-! ## Refresh tokens -/

/-- A record that continues an active one: for the same grant, on terms within it, with the
deadline of the chain. -/
structure RefreshTokenRecord.Inherits (srv : Server) (r s : RefreshTokenRecord) : Prop where
  active : s.state = .active
  grant : r.SameGrant s
  offers : srv.Offers r.terms s.terms
  expiry : r.expiresAt = s.expiresAt

structure ChainLedger where
  reads : List RefreshTokenRecord
  /-- The strings that were looked up without finding a record. -/
  missed : List String
  /-- The record taken out of the store and not yet written back in some form. -/
  held : Option RefreshTokenRecord
  /-- The active record this request spent. -/
  rotated : Option RefreshTokenRecord
  /-- The family this request may still add one active record to. -/
  mint : Option String
  /-- The active record this request wrote. -/
  successor : Option RefreshTokenRecord
  /-- The strings whose records this request took. -/
  removed : List String
  /-- The families this request revoked. -/
  revoked : List String

namespace ChainLedger

def take (c : ChainLedger) (token : String) (r : Option RefreshTokenRecord) : ChainLedger :=
  { c with held := r, removed := token :: c.removed }

def put (c : ChainLedger) (r : RefreshTokenRecord) : ChainLedger :=
  match c.held with
  | some h =>
    if r.state = .spent ∧ h.state = .active then
      { c with held := none, rotated := some h, mint := some h.familyId }
    else { c with held := none }
  | none => if c.mint = some r.familyId then { c with successor := some r, mint := none } else c

def rotate (c : ChainLedger) (expected : RefreshTokenRecord) (next : Option RefreshTokenRecord) :
    ChainLedger :=
  { c with rotated := some expected, successor := next }

end ChainLedger

/-! ## Issuance and device grants -/

structure IssueLedger where
  entropy : Option TokenEntropy
  /-- The signed form of the access token. -/
  wire : Option String
  /-- The access token this request wrote. -/
  access : Option IssuedToken
  /-- The access tokens it deleted. -/
  deleted : List String
  /-- The access tokens it read. -/
  found : List IssuedToken
  /-- Whether randomness, the signer or a barrier refused. -/
  setback : Bool

structure DeviceLedger where
  seen : List DeviceGrant
  taken : Option DeviceGrant
  /-- The grant as the decision of this request left it. -/
  decided : Option DeviceGrant

/-- A swap that changes the state of a grant decides it. -/
def DeviceLedger.swap (d : DeviceLedger) (expected : DeviceGrantState) (updated : DeviceGrant)
    (done : Bool) : DeviceLedger :=
  { d with decided := if done = true ∧ updated.state ≠ expected then some updated else d.decided }

/-! ## Consents -/

structure ConsentLedger where
  /-- What the first look at the pair found. -/
  first : Option (Option ConsentRecord)
  /-- The id of the consent this request created. -/
  created : Option String

namespace ConsentLedger

def look (c : ConsentLedger) (found : Option ConsentRecord) : ConsentLedger :=
  { c with first := c.first.or (some found) }

def swap (c : ConsentLedger) (expected : Option ConsentRecord) (updated : ConsentRecord)
    (done : Bool) : ConsentLedger :=
  { c with created := if expected = none ∧ done = true then some updated.consentId else c.created }

end ConsentLedger

/-! ## The ledger -/

structure Ledger where
  request : Request
  /-- The readings of the clock, the latest first. -/
  clocks : List SystemTime
  /-- Every random string the request was handed. -/
  drawn : List String
  /-- A random identifier that no record carries yet. -/
  identifier : Option String
  /-- The registrations the request read. -/
  clients : List Client
  codes : CodeLedger
  devices : DeviceLedger
  consents : ConsentLedger
  chain : ChainLedger
  issue : IssueLedger

namespace Ledger

def start (request : Request) : Ledger where
  request := request
  clocks := []
  drawn := []
  identifier := none
  clients := []
  codes := ⟨none, none, none, none, none⟩
  devices := ⟨[], none, none⟩
  consents := ⟨none, none⟩
  chain := ⟨[], [], none, none, none, none, [], []⟩
  issue := ⟨none, none, none, [], [], false⟩

/-- What an answered storage call adds. -/
def stored (l : Ledger) : (op : StorageOp) → op.Result → Ledger
  | .getClient _, some c => { l with clients := c :: l.clients }
  | .takeAuthorizationCode _, some r => { l with codes := l.codes.take l.request r }
  | .putAuthorizationCode r, _ => { l with codes := l.codes.put r, identifier := none }
  | .compareAndSwapAuthorizationCode _ updated, done =>
    { l with codes := { l.codes with
        swapped := some done
        recorded := if done = true then some updated else l.codes.recorded } }
  | .putDeviceGrant _, _ => { l with identifier := none }
  | .getDeviceGrant _, some g => { l with devices := { l.devices with seen := g :: l.devices.seen } }
  | .findDeviceGrantByUserCode _, some g =>
    { l with devices := { l.devices with seen := g :: l.devices.seen } }
  | .takeDeviceGrant _, some g => { l with devices := { l.devices with taken := some g } }
  | .compareAndSwapDeviceGrant expected updated, done =>
    { l with devices := l.devices.swap expected updated done }
  | .findConsent _ _, found => { l with consents := l.consents.look found }
  | .compareAndSwapConsent expected updated, done =>
    { l with consents := l.consents.swap expected updated done }
  | .putToken t, .applied => { l with issue := { l.issue with access := some t } }
  | .putToken _, .refusedRevoked => { l with issue := { l.issue with setback := true } }
  | .getToken _, some t => { l with issue := { l.issue with found := t :: l.issue.found } }
  | .deleteToken a, _ => { l with issue := { l.issue with deleted := a :: l.issue.deleted } }
  | .putRefreshToken r, .applied => { l with chain := l.chain.put r }
  | .putRefreshToken _, .refusedRevoked =>
    { l with
      chain := { l.chain with held := none }
      issue := { l.issue with setback := true } }
  | .getRefreshToken _, some r => { l with chain := { l.chain with reads := r :: l.chain.reads } }
  | .getRefreshToken s, none => { l with chain := { l.chain with missed := s :: l.chain.missed } }
  | .takeRefreshToken s, r => { l with chain := l.chain.take s r }
  | .rotateRefreshToken expected _ access next, true =>
    { l with
      chain := l.chain.rotate expected next
      issue := { l.issue with access := some access } }
  | .revokeTokenFamily f _, _ => { l with chain := { l.chain with revoked := f :: l.chain.revoked } }
  | _, _ => l

/-- What an answered call adds. -/
def next (l : Ledger) : (e : Effect) → e.Answer → Ledger
  | .storage op, .ok a => l.stored op a
  | .now, t => { l with clocks := t :: l.clocks }
  | .tokenEntropy, some e =>
    { l with
      drawn := World.drawnStrings e ++ l.drawn
      issue := { l.issue with entropy := some e }
      -- A refresh continues a family; every other issuance may start one.
      chain := { l.chain with
        mint := if l.request.isRefresh then l.chain.mint else some e.family.text } }
  | .tokenEntropy, none => { l with issue := { l.issue with setback := true } }
  | .randomHex _, some h => { l with drawn := h.text :: l.drawn, identifier := some h.text }
  | .sign _, some token =>
    { l with drawn := token :: l.drawn, issue := { l.issue with wire := some token } }
  | .sign _, none => { l with issue := { l.issue with setback := true } }
  | _, _ => l

/-! ## What a request may do -/

variable (srv : Server) (l : Ledger)

/-- The string the request's access token is filed under. -/
def accessKey : Option String :=
  match srv.config.accessTokenFormat with
  | .opaqueToken => l.issue.entropy.map fun e => e.access.text
  | .jwt _ => l.issue.wire

/-- The refresh token the request wrote. -/
def successorKey : Option String := l.chain.successor.map RefreshTokenRecord.refreshToken

/-- The window of a revocation dates from a reading of the clock. -/
def Window (w : RevocationWindow) : Prop :=
  ∃ t ∈ l.clocks, w = ⟨t, srv.deadline t srv.config.longestLifetime⟩

/-- A new grant's family is the one drawn with its tokens. -/
def OwnFamily (familyId : Option String) : Prop :=
  ∀ f, familyId = some f → ∃ e, l.issue.entropy = some e ∧ f = e.family.text

/-- The records a refresh issues tokens for: one it spent, or under the reuse policy one it
read. -/
def Continues (r : RefreshTokenRecord) : Prop :=
  l.chain.rotated = some r ∨ (srv.config.reuses = true ∧ r ∈ l.chain.reads)

/-- The grants a request may issue tokens for. -/
def Grants (clientId : ClientId) (familyId subject : Option String) (established : SystemTime) :
    Prop :=
  match l.request with
  | .authorizationCodeToken _ => ∃ r, l.codes.redeemed = some r ∧ clientId = r.clientId ∧
      subject = some r.subject ∧ established = r.issuedAt ∧ l.OwnFamily familyId
  | .deviceToken c _ code => clientId = c ∧ ∃ g s d, g ∈ l.devices.seen ∧ g.deviceCode = code ∧
      g.clientId = c ∧ g.state = .approved s ∧ subject = some s ∧ l.devices.taken = some d ∧
      d.deviceCode = code ∧ established = d.createdAt ∧ l.OwnFamily familyId
  | .clientCredentialsToken c _ _ _ _ => clientId = c ∧ subject = none ∧ familyId = none
  | .refreshToken p => ∃ r, l.Continues srv r ∧ r.refreshToken = p.refreshToken ∧
      clientId = r.clientId ∧ familyId = some r.familyId ∧ subject = r.subject ∧
      established = r.grantEstablishedAt ∧ clientId = p.clientId
  | .tokenExchange q => ∃ t ∈ l.issue.found, t.accessToken = q.subjectToken ∧
      clientId = q.clientId ∧ subject = t.subject ∧ established = t.grantEstablishedAt ∧
      familyId = none
  | _ => False

/-- The scope is one the client may be granted, by a registration the request read. -/
def Permits (clientId : ClientId) (scope : ScopeSet) : Prop :=
  ∃ client ∈ l.clients, client.clientId = clientId ∧ scope.isSubset client.allowedScopes = true

/-- The terms a request issues tokens on: at most those of the code it redeemed or of the record
it continues, those of the grant it took, or what the registration of its client allows. -/
def Draws (t : Terms) : Prop :=
  match l.request with
  | .authorizationCodeToken _ =>
    ∃ r, l.codes.redeemed = some r ∧ srv.Offers t r.terms
  | .refreshToken p =>
    ∃ r, l.Continues srv r ∧ r.refreshToken = p.refreshToken ∧ r.clientId = p.clientId ∧
      srv.Offers t r.terms
  | .deviceToken _ _ code => ∃ d, l.devices.taken = some d ∧ d.deviceCode = code ∧ t.scope = d.scope
  | .clientCredentialsToken c _ _ _ _ => l.Permits c t.scope
  | .tokenExchange q => l.Permits q.clientId t.scope
  | _ => True

/-- The four ways a code record is written. -/
inductive WritesCode : AuthorizationCodeRecord → Prop
  | putBack {r : AuthorizationCodeRecord} (hand : l.codes.hand = some r)
      (fair : l.codes.replayed = none) : WritesCode r
  | consume {p : CodePresentation} {r : AuthorizationCodeRecord}
      (request : l.request = .authorizationCodeToken p) (hand : l.codes.hand = some r)
      (fair : l.codes.replayed = none) (first : l.codes.redeemed = none)
      (issued : r.state = .issued) (owner : r.clientId = p.clientId) :
      WritesCode { r with state := .consumed none none }
  | mark {r : AuthorizationCodeRecord} {a b : Option String} (hand : l.codes.hand = some r)
      (again : l.codes.replayed = some r) (minted : r.state.minted = some (a, b)) :
      WritesCode { r with state := .replayed a b }
  | file {approval : UserApproval} {authentication : Option Authentication} {t : SystemTime}
      {code : String} (request : l.request = .issueAuthorizationCode approval authentication)
      (free : l.codes.hand = none) (new : l.identifier = some code) (clock : t ∈ l.clocks) :
      WritesCode (srv.codeRecord approval authentication t code)

/-- The four ways a refresh record is written outside a retryable rotation. -/
inductive WritesRefresh : RefreshTokenRecord → Prop
  | putBack {p : RefreshPresentation} {r : RefreshTokenRecord}
      (request : l.request = .refreshToken p) (presented : r.refreshToken = p.refreshToken)
      (held : l.chain.held = some r) : WritesRefresh r
  | spend {p : RefreshPresentation} {r r' : RefreshTokenRecord}
      (request : l.request = .refreshToken p) (strict : srv.config.isStrict = true)
      (held : l.chain.held = some r) (active : r.state = .active)
      (presented : r.refreshToken = p.refreshToken) (unrotated : l.chain.rotated = none)
      (key : r'.refreshToken = r.refreshToken)
      (grant : r'.SameGrant r) (terms : r'.terms = r.terms) (spent : r'.state = .spent) :
      WritesRefresh r'
  | putUnheld {p : RefreshPresentation} {r : RefreshTokenRecord}
      (request : l.request = .refreshToken p) (presented : r.refreshToken = p.refreshToken)
      (free : l.chain.held = none) (idle : l.chain.mint = none) (read : r ∈ l.chain.reads)
      (odd : srv.config.reuses = true ∨ r.familyId.isEmpty = true) : WritesRefresh r
  | mint {r : RefreshTokenRecord} {e : TokenEntropy} (free : l.chain.held = none)
      (right : l.chain.mint = some r.familyId) (first : l.chain.successor = none)
      (drawn : l.issue.entropy = some e) (key : r.refreshToken = e.refresh.text)
      (active : r.state = .active)
      (grant : l.Grants srv r.clientId (some r.familyId) r.subject r.grantEstablishedAt)
      (draws : l.Draws srv r.terms)
      (chain : ∀ p, l.request = .refreshToken p →
        ∃ s, l.chain.rotated = some s ∧ r.Inherits srv s) : WritesRefresh r

/-- A new access token: the request's own string, written once. -/
structure WritesAccess (t : IssuedToken) : Prop where
  key : l.accessKey srv = some t.accessToken
  first : l.issue.access = none
  kept : t.accessToken ∉ l.issue.deleted

/-- The retryable rotation of a record whose cached response, if any, is no longer given out. -/
structure Rotates (p : RefreshPresentation) (expected spent : RefreshTokenRecord)
    (access : IssuedToken) (next : Option RefreshTokenRecord) : Prop where
  request : l.request = .refreshToken p
  retryable : srv.config.isRetryable = true
  presented : expected.refreshToken = p.refreshToken
  owner : expected.clientId = p.clientId
  read : expected ∈ l.chain.reads
  active : expected.state = .active
  stale : ∀ d, expected.retry = some d → ∃ t ∈ l.clocks, d.until_ ≤ t
  unrotated : l.chain.rotated = none
  first : l.chain.successor = none
  writes : l.WritesAccess srv access
  grant : access.SameGrant expected
  offers : srv.Offers access.terms expected.terms
  clock : access.issuedAt ∈ l.clocks
  cached : ∃ d : RefreshTokenRetry, d.until_ = srv.retryDeadline expected access ∧
    d.response.accessToken = access.accessToken ∧
    d.response.refreshToken = next.map RefreshTokenRecord.refreshToken ∧
    spent = srv.retrySpent expected access d ∧ ∀ n, next = some n → n.retry = some d
  successor : ∀ n, next = some n → n.state = .active ∧ n.SameGrant expected ∧
    n.terms = access.terms ∧ n.expiresAt = expected.expiresAt ∧
    ∃ e, l.issue.entropy = some e ∧ n.refreshToken = e.refresh.text

/-- The families a request revokes. A redemption revokes one only after a replay. A refresh
revokes the family of a spent record, and with a retry window not before the cached response has
run out. -/
def RevokesFamily (f : String) : Prop :=
  ∃ r, (r ∈ l.chain.reads ∨ l.chain.held = some r) ∧ f = r.familyId ∧
    (∀ p, l.request = .authorizationCodeToken p → l.codes.replayed ≠ none) ∧
    ∀ p, l.request = .refreshToken p → r.refreshToken = p.refreshToken ∧ r.state = .spent ∧
      ∀ d, srv.config.isRetryable = true → r.retry = some d → ∃ t ∈ l.clocks, d.until_ ≤ t

/-- The strings a request takes refresh records by. -/
def TakesRefresh (token : String) : Prop :=
  match l.request with
  | .refreshToken p => token = p.refreshToken ∧ srv.config.isStrict = true ∧ l.chain.held = none
  | .revoke _ _ t _ => token = t
  | _ => ∃ r, l.chain.successor = some r ∧ token = r.refreshToken

/-- The decision a request is about. -/
def Decides (state : DeviceGrantState) : Prop :=
  match l.request with
  | .approveDevice _ subject => state = .approved subject
  | .denyDevice _ => state = .denied
  | _ => False

/-- A device grant keeps what identifies it, and its state unless it is pending and the request is
a decision. -/
structure UpdatesGrant (expected : DeviceGrantState) (updated : DeviceGrant) : Prop where
  read : ∃ g ∈ l.devices.seen, g.state = expected ∧ updated.deviceCode = g.deviceCode ∧
    updated.clientId = g.clientId ∧ updated.createdAt = g.createdAt ∧
    updated.expiresAt = g.expiresAt ∧ updated.scope = g.scope
  state : updated.state = expected ∨
    (expected = .pending ∧ l.devices.decided = none ∧ l.Decides updated.state)

/-- The two ways a consent is written. A request that found one to widen never creates another. -/
inductive WritesConsent : Option ConsentRecord → ConsentRecord → Prop
  | create {u : ConsentRecord} (new : l.identifier = some u.consentId)
      (first : l.consents.first = some none) (once : l.consents.created = none) (tidy : u.Tidy) :
      WritesConsent none u
  | widen {e u : ConsentRecord} (widens : u.Widens e) (tidy : e.Tidy → u.Tidy) :
      WritesConsent (some e) u

/-- The storage calls a request makes. -/
def MayStore : StorageOp → Prop
  | .takeAuthorizationCode code => ∃ p, l.request = .authorizationCodeToken p ∧ code = p.code ∧
      l.codes.hand = none ∧ l.codes.redeemed = none ∧ l.codes.replayed = none
  | .putAuthorizationCode r => l.WritesCode srv r
  | .compareAndSwapAuthorizationCode expected updated => expected = .consumed none none ∧
      l.codes.swapped = none ∧ l.codes.hand = none ∧
      ∃ r t, l.codes.redeemed = some r ∧ l.issue.access = some t ∧
        updated = { r with state := .consumed (some t.accessToken) l.successorKey }
  | .putDeviceGrant g => l.identifier = some g.deviceCode ∧ g.state = .pending ∧
      g.createdAt ∈ l.clocks ∧ (∃ t ∈ l.clocks, g.expiresAt = srv.deadline t srv.config.deviceCodeTtl) ∧
      l.Permits g.clientId g.scope
  | .takeDeviceGrant _ => l.devices.taken = none
  | .compareAndSwapDeviceGrant expected updated => l.UpdatesGrant expected updated
  | .putToken t => l.WritesAccess srv t ∧
      l.Grants srv t.clientId t.familyId t.subject t.grantEstablishedAt ∧ l.Draws srv t.terms
  | .putRefreshToken r => l.WritesRefresh srv r
  | .takeRefreshToken token => l.TakesRefresh srv token
  | .rotateRefreshToken expected spent access next =>
    ∃ p, l.Rotates srv p expected spent access next
  | .revokeTokenFamily f w => l.RevokesFamily srv f ∧ l.Window srv w
  | .revokeConsent consentId w => l.Window srv w ∧ l.request = .withdrawConsent consentId
  | .deleteClient clientId w => l.Window srv w ∧
      ∃ token, l.request = .deleteRegistration clientId token
  | .compareAndSwapConsent expected updated => l.WritesConsent expected updated
  | .compareAndSwapClient _ _ => False
  | .putPushedAuthorizationRequest _ => False
  | .takePushedAuthorizationRequest _ => False
  | .putConsent _ => False
  | .sweepExpired _ => False
  | _ => True

/-- What a request has done by the time it reports a containment. -/
def MayReport : Event → Prop
  | .refreshTokenReuseDetected _ f _ false => f ∈ l.chain.revoked
  | .authorizationCodeReplayDetected _ _ _ false =>
    ∃ r a b, l.codes.replayed = some r ∧ r.state.minted = some (a, b) ∧
      ∀ rt, b = some rt → rt ∈ l.chain.missed ∨
        ∃ rec ∈ l.chain.reads, rec.refreshToken = rt ∧ rec.familyId ∈ l.chain.revoked
  | _ => True

def Allowed : Effect → Prop
  | .storage op => l.MayStore srv op
  | .tokenEntropy => l.issue.entropy = none
  | .sign _ => l.issue.wire = none
  | .emit event => l.MayReport event
  | _ => True

/-! ## What a reply promises -/

/-- A cached response was given out before its deadline. -/
def Recovered (p : RefreshPresentation) (response : TokenResponse) : Prop :=
  ∃ r d, r ∈ l.chain.reads ∧ r.refreshToken = p.refreshToken ∧ r.retry = some d ∧
    response.accessToken = d.response.accessToken ∧
    response.refreshToken = d.response.refreshToken ∧ ∃ t ∈ l.clocks, t < d.until_

/-- The tokens of a response are the ones the request wrote. -/
def Answers (response : TokenResponse) : Prop :=
  (∃ t, l.issue.access = some t ∧ response.accessToken = t.accessToken) ∧
    response.refreshToken = l.successorKey

/-- Whatever the request wrote it took back. -/
def TookBack : Prop :=
  (∀ t, l.issue.access = some t → t.accessToken ∈ l.issue.deleted) ∧
    ∀ r, l.chain.successor = some r → r.refreshToken ∈ l.chain.removed

/-- Signed tokens cannot be dated by a clock that is before the epoch. -/
def Undatable : Prop :=
  (∃ audience, srv.config.accessTokenFormat = .jwt audience) ∧ ∃ t ∈ l.clocks, t < unixEpoch

/-- A refused redemption has put the record back or found it expired, or has consumed the code
and then lost the final swap or met a setback. -/
def Refused : Prop :=
  l.codes.swapped ≠ some true ∧ l.TookBack ∧
    (l.codes.hand = none ∨
      ∃ r, l.codes.hand = some r ∧ ∃ t ∈ l.clocks, r.expiresAt ≤ t) ∧
    (∀ r, l.codes.redeemed = some r →
      l.codes.swapped = some false ∨ l.issue.setback = true ∨ l.Undatable srv)

/-- Where a revocation ends: nothing was found, somebody else's record was found, the family was
revoked, or the string was an access token. -/
def Revoked (clientId : ClientId) (token : String) : Prop :=
  token ∈ l.chain.missed ∨
    (∃ r ∈ l.chain.reads, r.refreshToken = token ∧
      (r.clientId ≠ clientId ∨ r.familyId ∈ l.chain.revoked ∨ r.familyId.isEmpty = true)) ∨
    ∃ t ∈ l.issue.found, t.accessToken = token

/-- The grant the request looked at was decided by it. -/
def DecidedAs (state : DeviceGrantState) : Prop :=
  ∃ g, l.devices.decided = some g ∧ g.state = state ∧ ∀ r ∈ l.devices.seen, r.deviceCode = g.deviceCode

/-- A refresh token at hand has a scope that the registration of its client does not allow. -/
def Exceeds : Prop :=
  ∃ r client, (r ∈ l.chain.reads ∨ l.chain.held = some r) ∧ client ∈ l.clients ∧
    client.clientId = r.clientId ∧ r.scope.isSubset client.allowedScopes = false

def Accepts (reply : Reply) : Prop :=
  match l.request, reply with
  | .authorizationCodeToken p, .token (.ok response) => l.codes.swapped = some true ∧
      (∃ r, l.codes.redeemed = some r ∧ r.code = p.code ∧ l.codes.recorded =
        some { r with state := .consumed (some response.accessToken) response.refreshToken }) ∧
      l.Answers response
  | .authorizationCodeToken _, .token (.error _) => l.Refused srv
  | .authorizationCodeToken _, _ => False
  | .refreshToken p, .token (.ok response) =>
    (srv.config.isStrict = true →
      ∃ r, l.chain.rotated = some r ∧ r.refreshToken = p.refreshToken) ∧
    (srv.config.isRetryable = true → l.Recovered p response ∨
      (l.Answers response ∧ ∃ r, l.chain.rotated = some r ∧ r.refreshToken = p.refreshToken))
  | .refreshToken p, .token (.error e) =>
    (srv.config.isStrict = true → e = Server.ceilingRefusal →
      ∃ r, l.chain.held = some r ∧ r.refreshToken = p.refreshToken ∧ r.state = .active) ∧
    (e = Server.ceilingRefusal → l.Exceeds)
  | .revoke clientId _ token _, .revoked (.ok ()) => l.Revoked clientId token
  | .approveDevice _ subject, .decided (.ok ()) => l.DecidedAs (.approved subject)
  | .approveDevice _ _, .decided (.error _) => l.devices.decided = none
  | .denyDevice _, .decided (.ok ()) => l.DecidedAs .denied
  | .denyDevice _, .decided (.error _) => l.devices.decided = none
  | .deviceToken _ _ code, .token (.ok response) => l.Answers response ∧
      ∃ g, l.devices.taken = some g ∧ g.deviceCode = code
  | _, _ => True

end Ledger

/-- The answers some store gives, and whatever the rest of the world answers. -/
def Effect.Possible : (e : Effect) → e.Answer → Prop
  | .storage op, a => ∃ g, (op.exec g).1 = a
  | _, _ => True

/-- An answer of the world is a possible one. -/
theorem Server.perform_possible {w w' : World} {e : Effect} {c : Choice} {r : e.Answer}
    (h : w.perform e c = some (r, w')) : e.Possible r := by
  cases e with
  | storage op =>
    cases c <;> cases h
    exact ⟨w.store, rfl⟩
  | _ => trivial

/-- The discipline every handler keeps to. -/
def Server.protocol (srv : Server) : Protocol Effect Effect.Answer Ledger where
  next := Ledger.next
  allowed := Ledger.Allowed srv
  possible := Effect.Possible

end OauthAs
