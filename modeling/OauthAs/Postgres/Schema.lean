-- SUMMARY: The tables of the PostgreSQL store, the conditions of its statements and its lock keys.
import Mathlib.Algebra.Group.Int.Defs
import Mathlib.Data.List.Lex
import OauthAs.Lib.Database
import OauthAs.Store.Memory

/-!
# The schema of the PostgreSQL store

A row is the record itself, its `payload`, beside the columns that statements select by. The
columns are a projection: every statement that writes a row writes all of them. Barriers and
replay ids have no payload, their columns are the record.

The payload column holds the record because reading back what was encoded gives the record, and
text holds no NUL byte, which the database would refuse.
-/

namespace OauthAs.Postgres

inductive TableName where
  | clients
  | deviceGrants
  | authorizationCodes
  | accessTokens
  | refreshTokens
  | pushedRequests
  | consents
  | replayIds
  | revocationBarriers
deriving DecidableEq, Repr

/-! ## Columns -/

def i64Max : Int := 2 ^ 63 - 1

def i64Min : Int := -2 ^ 63

/-- Nanoseconds since the epoch, saturating at the ends of the column. -/
def toNanos (t : SystemTime) : Int :=
  if unixEpoch ≤ t then if t ≤ i64Max then t else i64Max
  else if -t ≤ i64Max then t else i64Min

structure ClientRow where
  clientId : String
  payload : Client
deriving DecidableEq

structure DeviceGrantRow where
  deviceCode : String
  userCodeNormalized : String
  clientId : String
  approvedSubject : Option String
  expiresAtNs : Int
  payload : DeviceGrant
deriving DecidableEq

structure AuthorizationCodeRow where
  code : String
  clientId : String
  subject : String
  expiresAtNs : Int
  payload : AuthorizationCodeRecord
deriving DecidableEq

structure AccessTokenRow where
  accessToken : String
  clientId : String
  subject : Option String
  familyId : Option String
  expiresAtNs : Int
  payload : IssuedToken
deriving DecidableEq

structure RefreshTokenRow where
  refreshToken : String
  clientId : String
  subject : Option String
  familyId : String
  expiresAtNs : Option Int
  payload : RefreshTokenRecord
deriving DecidableEq

structure PushedRequestRow where
  requestUri : String
  clientId : String
  expiresAtNs : Int
  payload : PushedAuthorizationRequest
deriving DecidableEq

structure ConsentRow where
  consentId : String
  clientId : String
  subject : String
  grantedAtNs : Int
  payload : ConsentRecord
deriving DecidableEq

structure ReplayIdRow where
  id : String
  expiresAtNs : Int
deriving DecidableEq

inductive BarrierScope where
  | client
  | family
  | consent
deriving DecidableEq, Repr

/-- What a barrier names; a column that does not apply is empty. -/
structure BarrierKey where
  scope : BarrierScope
  clientId : String
  familyId : String
  subject : String
deriving DecidableEq, Repr

structure BarrierRow extends BarrierKey where
  expiresAtNs : Int
  recordedAtNs : Int
deriving DecidableEq

/-! ## Rows of records -/

/-- The resource owner who approved a grant; nobody for a pending or denied one. -/
def approvedSubject : DeviceGrantState → Option String
  | .approved subject => some subject
  | .pending => none
  | .denied => none

def clientRow (client : Client) : ClientRow := ⟨client.clientId, client⟩

def deviceGrantRow (grant : DeviceGrant) : DeviceGrantRow :=
  ⟨grant.deviceCode, normalizeUserCode grant.userCode, grant.clientId, approvedSubject grant.state,
    toNanos grant.expiresAt, grant⟩

def authorizationCodeRow (record : AuthorizationCodeRecord) : AuthorizationCodeRow :=
  ⟨record.code, record.clientId, record.subject, toNanos record.expiresAt, record⟩

def accessTokenRow (token : IssuedToken) : AccessTokenRow :=
  ⟨token.accessToken, token.clientId, token.subject, token.familyId, toNanos token.expiresAt, token⟩

/-- A chain without an absolute lifetime has no deadline. -/
def refreshTokenRow (record : RefreshTokenRecord) : RefreshTokenRow :=
  ⟨record.refreshToken, record.clientId, record.subject, record.familyId,
    record.expiresAt.map toNanos, record⟩

def pushedRequestRow (record : PushedAuthorizationRequest) : PushedRequestRow :=
  ⟨record.requestUri, record.clientId, toNanos record.expiresAt, record⟩

def consentRow (record : ConsentRecord) : ConsentRow :=
  ⟨record.consentId, record.clientId, record.subject, toNanos record.grantedAt, record⟩

abbrev Row : TableName → Type
  | .clients => ClientRow
  | .deviceGrants => DeviceGrantRow
  | .authorizationCodes => AuthorizationCodeRow
  | .accessTokens => AccessTokenRow
  | .refreshTokens => RefreshTokenRow
  | .pushedRequests => PushedRequestRow
  | .consents => ConsentRow
  | .replayIds => ReplayIdRow
  | .revocationBarriers => BarrierRow

abbrev Key : TableName → Type
  | .revocationBarriers => BarrierKey
  | _ => String

def key : (t : TableName) → Row t → Key t
  | .clients => ClientRow.clientId
  | .deviceGrants => DeviceGrantRow.deviceCode
  | .authorizationCodes => AuthorizationCodeRow.code
  | .accessTokens => AccessTokenRow.accessToken
  | .refreshTokens => RefreshTokenRow.refreshToken
  | .pushedRequests => PushedRequestRow.requestUri
  | .consents => ConsentRow.consentId
  | .replayIds => ReplayIdRow.id
  | .revocationBarriers => BarrierRow.toBarrierKey

instance decidableEqKey : (t : TableName) → DecidableEq (Key t)
  | .clients | .deviceGrants | .authorizationCodes | .accessTokens | .refreshTokens
  | .pushedRequests | .consents | .replayIds => inferInstanceAs (DecidableEq String)
  | .revocationBarriers => inferInstanceAs (DecidableEq BarrierKey)

abbrev Rows : Type := (t : TableName) → Table (key t)

/-! ## Conditions -/

/-- The text column a row is filed under. -/
def primaryKey : (t : TableName) → Row t → Option String
  | .clients, row => some row.clientId
  | .deviceGrants, row => some row.deviceCode
  | .authorizationCodes, row => some row.code
  | .accessTokens, row => some row.accessToken
  | .refreshTokens, row => some row.refreshToken
  | .pushedRequests, row => some row.requestUri
  | .consents, row => some row.consentId
  | .replayIds, row => some row.id
  | .revocationBarriers, _ => none

def clientColumn : (t : TableName) → Row t → Option String
  | .clients, row => some row.clientId
  | .deviceGrants, row => some row.clientId
  | .authorizationCodes, row => some row.clientId
  | .accessTokens, row => some row.clientId
  | .refreshTokens, row => some row.clientId
  | .pushedRequests, row => some row.clientId
  | .consents, row => some row.clientId
  | .replayIds, _ => none
  | .revocationBarriers, row => some row.clientId

/-- The subject of a row; for a device grant, of its approval. -/
def subjectColumn : (t : TableName) → Row t → Option String
  | .deviceGrants, row => row.approvedSubject
  | .authorizationCodes, row => some row.subject
  | .accessTokens, row => row.subject
  | .refreshTokens, row => row.subject
  | .consents, row => some row.subject
  | .revocationBarriers, row => some row.subject
  | .clients, _ | .pushedRequests, _ | .replayIds, _ => none

def familyColumn : (t : TableName) → Row t → Option String
  | .accessTokens, row => row.familyId
  | .refreshTokens, row => some row.familyId
  | .revocationBarriers, row => some row.familyId
  | .clients, _ | .deviceGrants, _ | .authorizationCodes, _ | .pushedRequests, _ | .consents, _
  | .replayIds, _ => none

def expiryColumn : (t : TableName) → Row t → Option Int
  | .deviceGrants, row => some row.expiresAtNs
  | .authorizationCodes, row => some row.expiresAtNs
  | .accessTokens, row => some row.expiresAtNs
  | .refreshTokens, row => row.expiresAtNs
  | .pushedRequests, row => some row.expiresAtNs
  | .replayIds, row => some row.expiresAtNs
  | .revocationBarriers, row => some row.expiresAtNs
  | .clients, _ | .consents, _ => none

/-- The `WHERE` clauses of the store's statements. -/
inductive Where where
  | keyIs (k : String)
  | ofClient (clientId : String)
  | ofFamily (familyId : String)
  | ofPair (clientId subject : String)
  | ofSubject (subject : String)
  | ofUserCode (normalizedUserCode : String)
  | expired (cutoff : Int)
  | clientIs (clientId : String) (payload : Client)
  | deviceGrantIn (deviceCode : String) (state : DeviceGrantState)
  | authorizationCodeIn (code : String) (state : AuthorizationCodeState)
deriving DecidableEq

/-- A column that is null satisfies no condition. -/
def Where.holds : (t : TableName) → Where → Row t → Bool
  | t, .keyIs k, row => primaryKey t row = some k
  | t, .ofClient clientId, row => clientColumn t row = some clientId
  | t, .ofFamily familyId, row => familyColumn t row = some familyId
  | t, .ofPair clientId subject, row =>
    clientColumn t row = some clientId && subjectColumn t row = some subject
  | t, .ofSubject subject, row => subjectColumn t row = some subject
  | .deviceGrants, .ofUserCode userCode, row => row.userCodeNormalized = userCode
  | t, .expired cutoff, row => (expiryColumn t row).any fun expiresAt => expiresAt ≤ cutoff
  | .clients, .clientIs clientId payload, row => row.clientId = clientId && row.payload = payload
  | .deviceGrants, .deviceGrantIn deviceCode state, row =>
    row.deviceCode = deviceCode && row.payload.state = state
  | .authorizationCodes, .authorizationCodeIn code state, row =>
    row.code = code && row.payload.state = state
  | _, _, _ => false

/-! ## The resurrection predicate -/

/-- The parameters of the one query that looks for a barrier. -/
structure BarrierQuery where
  clientId : String
  familyId : String
  subject : String
  establishedAtNs : Int
deriving DecidableEq, Repr

/-- Whether one barrier refuses. -/
def BarrierQuery.coveredBy (q : BarrierQuery) (registered : Bool) (b : BarrierRow) : Bool :=
  (b.scope = .client && b.clientId = q.clientId
      && (q.establishedAtNs ≤ b.recordedAtNs || !registered))
    || (b.scope = .family && b.familyId = q.familyId)
    || (b.scope = .consent && b.clientId = q.clientId && b.subject = q.subject
      && q.establishedAtNs ≤ b.recordedAtNs)

def BarrierQuery.answer (q : BarrierQuery) (db : Rows) : Bool :=
  (db .revocationBarriers).rows.any (q.coveredBy ((db .clients).contains q.clientId))

/-! ## Conflicts -/

/-- A repeated revocation moves both instants of a barrier forward and neither back; every other
insert replaces the row. -/
def onConflict : (t : TableName) → (old new : Row t) → Row t
  | .revocationBarriers, old, new =>
    { new with
      expiresAtNs := max old.expiresAtNs new.expiresAtNs
      recordedAtNs := max old.recordedAtNs new.recordedAtNs }
  | _, _, new => new

theorem key_onConflict (t : TableName) (old new : Row t) :
    key t (onConflict t old new) = key t new := by
  cases t <;> rfl

/-! ## An order of the rows -/

def BarrierScope.text : BarrierScope → String
  | .client => "client"
  | .family => "family"
  | .consent => "consent"

def keyText : (t : TableName) → Key t → List String
  | .revocationBarriers, k => [k.scope.text, k.clientId, k.familyId, k.subject]
  | .clients, k | .deviceGrants, k | .authorizationCodes, k | .accessTokens, k
  | .refreshTokens, k | .pushedRequests, k | .consents, k | .replayIds, k => [k]

theorem keyText_injective (t : TableName) : Function.Injective (keyText t) := by
  intro a b h
  cases t with
  | revocationBarriers =>
    obtain ⟨scope, clientId, familyId, subject⟩ := a
    obtain ⟨scope', clientId', familyId', subject'⟩ := b
    simp only [keyText, List.cons.injEq, and_true] at h
    obtain ⟨hscope, rfl, rfl, rfl⟩ := h
    have hscope : scope = scope' := by
      revert hscope
      cases scope <;> cases scope' <;> decide
    rw [hscope]
  | _ => exact (List.cons.inj h).1

/-- The rows of each table by the text of their keys. -/
def textOrder : Sql.RowOrder Key where
  le t a b := decide (keyText t a ≤ keyText t b)
  total t a b := by simpa using le_total (keyText t a) (keyText t b)
  trans t a b c hab hbc := decide_eq_true (le_trans (of_decide_eq_true hab) (of_decide_eq_true hbc))
  antisymm t a b hab hba :=
    keyText_injective t (le_antisymm (of_decide_eq_true hab) (of_decide_eq_true hba))

/-! ## The schema -/

/-- A barrier names an identity. -/
def BarrierKey.valid (b : BarrierKey) : Bool :=
  match b.scope with
  | .client => b.clientId ≠ ""
  | .family => b.familyId ≠ ""
  | .consent => b.clientId ≠ "" && b.subject ≠ ""

def check : (t : TableName) → Row t → Bool
  | .revocationBarriers, row => row.toBarrierKey.valid
  | _, _ => true

/-- No two grants have the same user code. -/
def clashes : (t : TableName) → Row t → Row t → Bool
  | .deviceGrants, row, other => row.userCodeNormalized = other.userCodeNormalized
  | _, _, _ => false

/-- Locks are taken for the text of a key, whatever the database hashes it to. -/
abbrev schema (order : Sql.RowOrder Key) : Sql.Schema where
  Name := TableName
  Row := Row
  Key := Key
  key := key
  Where := Where
  holds := Where.holds
  Query := BarrierQuery
  answer := BarrierQuery.answer
  onConflict := onConflict
  key_onConflict := fun t old new _ => key_onConflict t old new
  check := check
  clashes := clashes
  Advisory := String
  order := order
  decName := inferInstance
  decKey := decidableEqKey
  decAdvisory := inferInstance

/-! ## Lock keys -/

/-- The key naming one revocable identity. The length of a part stands in front of it, so that no
two identities share a key. -/
def scopeKey (scope first second : String) : String :=
  scope ++ ":" ++ toString first.utf8ByteSize ++ ":" ++ first ++ ":" ++
    toString second.utf8ByteSize ++ ":" ++ second

def clientKey (clientId : String) : String := scopeKey "client" clientId ""

def familyKey (familyId : String) : String := scopeKey "family" familyId ""

def consentKey (clientId subject : String) : String := scopeKey "consent" clientId subject

def consentCasKey (clientId subject : String) : String := scopeKey "consent_cas" clientId subject

/-- The keys a write has to hold, in the order they are acquired: the client's first. -/
def barrierScopeKeys (clientId : String) (familyId subject : Option String) : List String :=
  clientKey clientId :: (familyId.map familyKey).toList ++ (subject.map (consentKey clientId)).toList

end OauthAs.Postgres
