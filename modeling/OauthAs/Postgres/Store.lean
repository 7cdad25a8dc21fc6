-- SUMMARY: Every call of the PostgreSQL store as a program of SQL statements.
import OauthAs.Lib.Pool
import OauthAs.Postgres.Schema
import OauthAs.Store.Operation

/-!
# The PostgreSQL store

Each storage call is a program of statements. A call that is one statement runs as a transaction of
its own; the others name where they commit and where they roll back. The three writes a revocation
must be able to refuse take shared locks on every identity a barrier could name them by, then ask
for a barrier, then write. A revocation takes the exclusive lock of the one identity it names
before it records its barrier.
-/

namespace OauthAs.Postgres

open Sql

/-- A short classification of a failure. -/
def kind : SqlError → String
  | .unique => "database, sqlstate 23505"
  | .check => "database, sqlstate 23514"
  | .other kind => kind

/-- The failed operation and what kind of failure it was, and nothing else. -/
def db (op : String) (e : SqlError) : StorageError :=
  ⟨"oauth-as-postgres: " ++ op ++ " failed (" ++ kind e ++ ")"⟩

/-- A user code that is taken is a refusal and no outage. -/
def userCodeOr (op : String) : SqlError → StorageError
  | .unique => ⟨"oauth-as-postgres: user code is already indexed for a different device_code"⟩
  | e => db op e

abbrev Program (order : RowOrder Key) : Type → Type := Session (schema order) StorageError

variable {order : RowOrder Key}

abbrev sql (op : String) (x : Nat) (s : Statement (schema order)) : Program order s.Result :=
  statement (db op) x s

abbrev begun {α : Type} (op : String) (body : Nat → Program order α) : Program order α :=
  transaction (db op) body

abbrev commit (op : String) (x : Nat) : Program order Unit := call (db op) (.commit x)

abbrev rollback (op : String) (x : Nat) : Program order Unit := call (db op) (.rollback x)

/-- A call that is one statement. -/
abbrev single {α : Type} (op : String) (body : Nat → Program order α) : Program order α :=
  autocommit (db op) body

abbrev deleteRows (op : String) (x : Nat) (t : TableName) (cond : Where) : Program order Nat :=
  deleteWhere (σ := schema order) (db op) x t cond

abbrev takeRow (op : String) (x : Nat) (t : TableName) (k : String) :
    Program order (Option (Row t)) :=
  deleteReturning (σ := schema order) (db op) x t (.keyIs k)

abbrev lockRow (op : String) (x : Nat) (t : TableName) (cond : Where)
    (sort : List (Row t) → List (Row t)) : Program order (Option (Row t)) :=
  selectForUpdate (σ := schema order) (db op) x t cond sort

abbrev swapRow (report : SqlError → StorageError) (x : Nat) (t : TableName) (cond : Where)
    (row : Row t) : Program order Bool :=
  updateWhere (σ := schema order) report x t cond row

/-! ## Barriers -/

/-- The keys are acquired one at a time. -/
def lockShared (op : String) (x : Nat) : List String → Program order Unit
  | [] => return ()
  | key :: keys => do
    sql op x (.lock .shared key)
    lockShared op x keys

def lockBarrierScopes (op : String) (x : Nat) (clientId : ClientId)
    (familyId subject : Option String) : Program order Unit :=
  lockShared op x (barrierScopeKeys clientId familyId subject)

def lockBarrierScopeExclusive (op : String) (x : Nat) (key : String) : Program order Unit :=
  sql op x (.lock .exclusive key)

def barrierRow (scope : BarrierScope) (clientId familyId subject : Option String)
    (window : RevocationWindow) : BarrierRow :=
  ⟨⟨scope, clientId.getD "", familyId.getD "", subject.getD ""⟩, toNanos window.until_,
    toNanos window.recordedAt⟩

def recordBarrier (op : String) (x : Nat) (scope : BarrierScope)
    (clientId familyId subject : Option String) (window : RevocationWindow) : Program order Unit :=
  sql op x
    (.insert .revocationBarriers (barrierRow scope clientId familyId subject window))

/-- A record without a family or a subject asks for the empty one, which no barrier names. -/
def barrierQuery (clientId : ClientId) (familyId subject : Option String)
    (grantEstablishedAt : SystemTime) : BarrierQuery :=
  ⟨clientId, familyId.getD "", subject.getD "", toNanos grantEstablishedAt⟩

def barrierCovers (op : String) (x : Nat) (clientId : ClientId) (familyId subject : Option String)
    (grantEstablishedAt : SystemTime) : Program order Bool :=
  sql op x (.ask (barrierQuery clientId familyId subject grantEstablishedAt))

def writeToken (x : Nat) (token : IssuedToken) : Program order Unit :=
  sql "write_token" x (.insert .accessTokens (accessTokenRow token))

def writeRecord (x : Nat) (record : RefreshTokenRecord) : Program order Unit :=
  sql "write_record" x (.insert .refreshTokens (refreshTokenRow record))

/-- A write that a barrier can refuse: lock, ask, then write or roll back. -/
def guarded (op : String) (clientId : ClientId) (familyId subject : Option String)
    (grantEstablishedAt : SystemTime) (write : Nat → Program order Unit) :
    Program order WriteOutcome :=
  begun op fun x => do
    lockBarrierScopes op x clientId familyId subject
    if ← barrierCovers op x clientId familyId subject grantEstablishedAt then
      rollback op x
      return .refusedRevoked
    else
      write x
      commit op x
      return .applied

/-! ## Clients -/

def getClient (clientId : ClientId) : Program order (Option Client) :=
  single "get_client" fun x => do
    let rows ← sql "get_client" x (.scan .clients (.keyIs clientId))
    return rows.head?.map ClientRow.payload

def putClient (client : Client) : Program order Unit :=
  single "put_client" fun x =>
    sql "put_client" x (.insert .clients (clientRow client))

def compareAndSwapClient (expected updated : Client) : Program order Bool :=
  single "compare_and_swap_client" fun x =>
    swapRow (db "compare_and_swap_client") x .clients
      (.clientIs updated.clientId expected) (clientRow updated)

/-- The consents before the tokens: a withdrawal claims its consent before it reaches them. -/
def deleteClient (clientId : ClientId) (window : RevocationWindow) : Program order Bool :=
  begun "delete_client" fun x => do
    lockBarrierScopeExclusive "delete_client" x (clientKey clientId)
    recordBarrier "delete_client" x .client (some clientId) none none window
    let _ ← deleteRows "delete_client" x .consents (.ofClient clientId)
    let _ ← deleteRows "delete_client" x .accessTokens (.ofClient clientId)
    let _ ← deleteRows "delete_client" x .refreshTokens (.ofClient clientId)
    let _ ← deleteRows "delete_client" x .authorizationCodes (.ofClient clientId)
    let _ ← deleteRows "delete_client" x .deviceGrants (.ofClient clientId)
    let _ ← deleteRows "delete_client" x .pushedRequests (.ofClient clientId)
    let removed ← deleteRows "delete_client" x .clients (.keyIs clientId)
    commit "delete_client" x
    return decide (removed > 0)

/-! ## Device grants -/

def putDeviceGrant (grant : DeviceGrant) : Program order Unit :=
  single "put_device_grant" fun x =>
    statement (σ := schema order) (userCodeOr "put_device_grant") x
      (.insert .deviceGrants (deviceGrantRow grant))

def getDeviceGrant (deviceCode : String) : Program order (Option DeviceGrant) :=
  single "get_device_grant" fun x => do
    let rows ← sql "get_device_grant" x (.scan .deviceGrants (.keyIs deviceCode))
    return rows.head?.map DeviceGrantRow.payload

def findDeviceGrantByUserCode (normalizedUserCode : String) : Program order (Option DeviceGrant) :=
  single "find_device_grant_by_user_code" fun x => do
    let rows ← sql "find_device_grant_by_user_code" x
      (.scan .deviceGrants (.ofUserCode normalizedUserCode))
    return rows.head?.map DeviceGrantRow.payload

def compareAndSwapDeviceGrant (expected : DeviceGrantState) (updated : DeviceGrant) :
    Program order Bool :=
  single "compare_and_swap_device_grant" fun x =>
    swapRow (userCodeOr "compare_and_swap_device_grant") x .deviceGrants
      (.deviceGrantIn updated.deviceCode expected) (deviceGrantRow updated)

def takeDeviceGrant (deviceCode : String) : Program order (Option DeviceGrant) :=
  single "take_device_grant" fun x => do
    let row ← takeRow "take_device_grant" x .deviceGrants deviceCode
    return row.map DeviceGrantRow.payload

/-! ## Authorization codes and pushed requests -/

def putAuthorizationCode (record : AuthorizationCodeRecord) : Program order Unit :=
  single "put_authorization_code" fun x =>
    sql "put_authorization_code" x
      (.insert .authorizationCodes (authorizationCodeRow record))

def takeAuthorizationCode (code : String) : Program order (Option AuthorizationCodeRecord) :=
  single "take_authorization_code" fun x => do
    let row ← takeRow "take_authorization_code" x .authorizationCodes code
    return row.map AuthorizationCodeRow.payload

def compareAndSwapAuthorizationCode (expected : AuthorizationCodeState)
    (updated : AuthorizationCodeRecord) : Program order Bool :=
  single "compare_and_swap_authorization_code" fun x =>
    swapRow (db "compare_and_swap_authorization_code") x .authorizationCodes
      (.authorizationCodeIn updated.code expected) (authorizationCodeRow updated)

def putPushedAuthorizationRequest (record : PushedAuthorizationRequest) :
    Program order WriteOutcome :=
  guarded "put_pushed_authorization_request" record.clientId none none record.pushedAt fun x =>
    sql "put_pushed_authorization_request" x
      (.insert .pushedRequests (pushedRequestRow record))

def takePushedAuthorizationRequest (requestUri : String) :
    Program order (Option PushedAuthorizationRequest) :=
  single "take_pushed_authorization_request" fun x => do
    let row ← takeRow "take_pushed_authorization_request" x .pushedRequests requestUri
    return row.map PushedRequestRow.payload

/-! ## Tokens -/

def putToken (token : IssuedToken) : Program order WriteOutcome :=
  guarded "put_token" token.clientId token.familyId token.subject token.grantEstablishedAt fun x =>
    writeToken x token

def getToken (accessToken : String) : Program order (Option IssuedToken) :=
  single "get_token" fun x => do
    let rows ← sql "get_token" x (.scan .accessTokens (.keyIs accessToken))
    return rows.head?.map AccessTokenRow.payload

def deleteToken (accessToken : String) : Program order Unit :=
  single "delete_token" fun x => do
    let _ ← deleteRows "delete_token" x .accessTokens (.keyIs accessToken)

def putRefreshToken (record : RefreshTokenRecord) : Program order WriteOutcome :=
  guarded "put_refresh_token" record.clientId (some record.familyId) record.subject
    record.grantEstablishedAt fun x => writeRecord x record

def getRefreshToken (refreshToken : String) : Program order (Option RefreshTokenRecord) :=
  single "get_refresh_token" fun x => do
    let rows ← sql "get_refresh_token" x (.scan .refreshTokens (.keyIs refreshToken))
    return rows.head?.map RefreshTokenRow.payload

/-- The row is locked before it is compared, and stays until the whole rotation commits. -/
def rotateRefreshToken (expected spent : RefreshTokenRecord) (access : IssuedToken)
    (next : Option RefreshTokenRecord) : Program order Bool :=
  begun "rotate_refresh_token" fun x => do
    lockBarrierScopes "rotate_refresh_token" x expected.clientId (some expected.familyId)
      expected.subject
    if ← barrierCovers "rotate_refresh_token" x expected.clientId (some expected.familyId)
        expected.subject expected.grantEstablishedAt then
      rollback "rotate_refresh_token" x
      return false
    else
      let row ← lockRow "rotate_refresh_token" x .refreshTokens
        (.keyIs expected.refreshToken) id
      if row.map RefreshTokenRow.payload = some expected then
        writeRecord x spent
        writeToken x access
        match next with
        | some next => writeRecord x next
        | none => pure ()
        commit "rotate_refresh_token" x
        return true
      else
        rollback "rotate_refresh_token" x
        return false

def takeRefreshToken (refreshToken : String) : Program order (Option RefreshTokenRecord) :=
  single "take_refresh_token" fun x => do
    let row ← takeRow "take_refresh_token" x .refreshTokens refreshToken
    return row.map RefreshTokenRow.payload

def revokeTokenFamily (familyId : String) (window : RevocationWindow) : Program order Nat :=
  begun "revoke_token_family" fun x => do
    lockBarrierScopeExclusive "revoke_token_family" x (familyKey familyId)
    recordBarrier "revoke_token_family" x .family none (some familyId) none window
    let access ← deleteRows "revoke_token_family" x .accessTokens (.ofFamily familyId)
    let refresh ← deleteRows "revoke_token_family" x .refreshTokens (.ofFamily familyId)
    commit "revoke_token_family" x
    return access + refresh

/-! ## Consents -/

def putConsent (record : ConsentRecord) : Program order Unit :=
  single "put_consent" fun x =>
    sql "put_consent" x (.insert .consents (consentRow record))

/-- The latest consent first, ties broken by its id. -/
def newestFirst (rows : List ConsentRow) : List ConsentRow :=
  rows.insertionSort fun a b =>
    b.grantedAtNs < a.grantedAtNs ∨ b.grantedAtNs = a.grantedAtNs ∧ b.consentId ≤ a.consentId

/-- The pair is locked before it is read, so that two creations of one consent do not both find
nothing. -/
def compareAndSwapConsent (expected : Option ConsentRecord) (updated : ConsentRecord) :
    Program order Bool :=
  begun "compare_and_swap_consent" fun x => do
    sql "compare_and_swap_consent" x
      (.lock .exclusive (consentCasKey updated.clientId updated.subject))
    let live ← lockRow "compare_and_swap_consent" x .consents
      (.ofPair updated.clientId updated.subject) newestFirst
    if live.map ConsentRow.payload = expected then
      sql "compare_and_swap_consent" x (.insert .consents (consentRow updated))
      commit "compare_and_swap_consent" x
      return true
    else
      rollback "compare_and_swap_consent" x
      return false

def getConsent (consentId : String) : Program order (Option ConsentRecord) :=
  single "get_consent" fun x => do
    let rows ← sql "get_consent" x (.scan .consents (.keyIs consentId))
    return rows.head?.map ConsentRow.payload

def findConsent (clientId : ClientId) (subject : String) : Program order (Option ConsentRecord) :=
  single "find_consent" fun x => do
    let rows ← sql "find_consent" x (.scan .consents (.ofPair clientId subject))
    return (newestFirst rows).head?.map ConsentRow.payload

def consentsForSubject (subject : String) : Program order (List ConsentRecord) :=
  single "consents_for_subject" fun x => do
    let rows ← sql "consents_for_subject" x (.scan .consents (.ofSubject subject))
    return rows.map ConsentRow.payload

/-- The consent is claimed first, because the claim is what names the pair to lock. -/
def revokeConsent (consentId : String) (window : RevocationWindow) : Program order Nat :=
  begun "revoke_consent" fun x => do
    match ← takeRow "revoke_consent" x .consents consentId with
    | none =>
      commit "revoke_consent" x
      return 0
    | some row =>
      let clientId := ConsentRow.clientId row
      let subject := ConsentRow.subject row
      lockBarrierScopeExclusive "revoke_consent" x (consentKey clientId subject)
      recordBarrier "revoke_consent" x .consent (some clientId) none (some subject) window
      let access ← deleteRows "revoke_consent" x .accessTokens (.ofPair clientId subject)
      let refresh ← deleteRows "revoke_consent" x .refreshTokens (.ofPair clientId subject)
      let codes ← deleteRows "revoke_consent" x .authorizationCodes
        (.ofPair clientId subject)
      let devices ← deleteRows "revoke_consent" x .deviceGrants (.ofPair clientId subject)
      commit "revoke_consent" x
      return access + refresh + codes + devices

/-! ## Replay ids and the sweep -/

def claimReplayId (id : String) (expiresAt : SystemTime) : Program order Bool :=
  single "claim_replay_id" fun x =>
    sql "claim_replay_id" x (.insertNew .replayIds ⟨id, toNanos expiresAt⟩)

def sweepBatchRows : Nat := 5000

/-- The tables a sweep goes through, one after the other. -/
def sweptTables : List TableName :=
  [.deviceGrants, .authorizationCodes, .accessTokens, .refreshTokens, .pushedRequests, .replayIds,
    .revocationBarriers]

/-- Batches, each a transaction of its own, until one comes back short. Rows that expire meanwhile
can keep it going, so the number of batches is bounded. -/
def sweepTable (t : TableName) (cutoff : Int) : Nat → Nat → Program order Nat
  | 0, removed => return removed
  | fuel + 1, removed => do
    let batch ← single "sweep_expired" fun x =>
      sql "sweep_expired" x (.batch t (.expired cutoff) sweepBatchRows)
    if batch < sweepBatchRows then return removed + batch
    else sweepTable t cutoff fuel (removed + batch)

def sweepAll (cutoff : Int) (fuel : Nat) : List TableName → Nat → Program order Nat
  | [], removed => return removed
  | t :: ts, removed => do
    let removed ← sweepTable t cutoff fuel removed
    sweepAll cutoff fuel ts removed

def sweepExpired (fuel : Nat) (now : SystemTime) : Program order Nat :=
  sweepAll (toNanos now) fuel sweptTables 0

/-! ## The interface -/

/-- One storage call, a sweep with at most so many batches of each table. -/
def program (fuel : Nat) : (op : StorageOp) → Program order op.Result
  | .getClient clientId => getClient clientId
  | .putClient client => putClient client
  | .compareAndSwapClient expected updated => compareAndSwapClient expected updated
  | .deleteClient clientId window => deleteClient clientId window
  | .putDeviceGrant grant => putDeviceGrant grant
  | .getDeviceGrant deviceCode => getDeviceGrant deviceCode
  | .findDeviceGrantByUserCode userCode => findDeviceGrantByUserCode userCode
  | .takeDeviceGrant deviceCode => takeDeviceGrant deviceCode
  | .compareAndSwapDeviceGrant expected updated => compareAndSwapDeviceGrant expected updated
  | .putAuthorizationCode record => putAuthorizationCode record
  | .compareAndSwapAuthorizationCode expected updated =>
    compareAndSwapAuthorizationCode expected updated
  | .takeAuthorizationCode code => takeAuthorizationCode code
  | .putPushedAuthorizationRequest record => putPushedAuthorizationRequest record
  | .takePushedAuthorizationRequest requestUri => takePushedAuthorizationRequest requestUri
  | .putToken token => putToken token
  | .getToken accessToken => getToken accessToken
  | .deleteToken accessToken => deleteToken accessToken
  | .putRefreshToken record => putRefreshToken record
  | .getRefreshToken refreshToken => getRefreshToken refreshToken
  | .rotateRefreshToken expected spent access next =>
    rotateRefreshToken expected spent access next
  | .takeRefreshToken refreshToken => takeRefreshToken refreshToken
  | .revokeTokenFamily familyId window => revokeTokenFamily familyId window
  | .putConsent record => putConsent record
  | .compareAndSwapConsent expected updated => compareAndSwapConsent expected updated
  | .getConsent consentId => getConsent consentId
  | .findConsent clientId subject => findConsent clientId subject
  | .consentsForSubject subject => consentsForSubject subject
  | .revokeConsent consentId window => revokeConsent consentId window
  | .claimReplayId id expiresAt => claimReplayId id expiresAt
  | .sweepExpired now => sweepExpired fuel now

/-- A storage call as it is made, and the number of batches its sweep may take. -/
structure StoreCall where
  op : StorageOp
  fuel : Nat
deriving DecidableEq

abbrev StoreReply : Type := (op : StorageOp) × op.Answer

abbrev StoreState (order : RowOrder Key) (Admitted : StorageOp → Prop) : Type :=
  System (Sql.World (schema order)) (Sql.Effect (schema order)) Sql.Effect.Answer
    { c : StoreCall // Admitted c.op } StoreReply

/-- Any number of processes calling one database, with calls of the admitted kind. -/
def system (order : RowOrder Key) (Admitted : StorageOp → Prop) :
    Semantics (Sql.World (schema order)) (Sql.Effect (schema order)) Sql.Effect.Answer
      (Sql.Choice (schema order)) { c : StoreCall // Admitted c.op } StoreReply Empty where
  handler c := (program c.1.fuel c.1.op).run.bind fun r => .ret ⟨c.1.op, r⟩
  perform := Sql.World.perform
  environment _ v := nomatch v

end OauthAs.Postgres
