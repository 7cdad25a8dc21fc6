-- SUMMARY: The reference store: its maps, its revocation barriers and every storage operation on them.
import OauthAs.Lib.Table
import OauthAs.Records

/-!
# The reference store

One guarded set of maps; every operation is one atomic step on it. A revocation removes what is
in the store and records a barrier, and the three writes that a revocation must be able to refuse
(`putToken`, `putRefreshToken`, `putPushedAuthorizationRequest`) consult the one predicate
`isRevoked`. Operations that can fail return the error beside the state they leave.
-/

namespace OauthAs

/-! ## Barriers -/

/-- When a revocation happened, and until when its barrier stands. -/
structure RevocationWindow where
  recordedAt : SystemTime
  until_ : SystemTime
deriving DecidableEq, Repr

inductive WriteOutcome where
  | applied
  | refusedRevoked
deriving DecidableEq, Repr

inductive RevocationBarrier where
  | client (clientId : ClientId)
  | tokenFamily (familyId : String)
  | consent (clientId : ClientId) (subject : String)
deriving DecidableEq, Repr

structure BarrierTimes where
  recordedAt : SystemTime
  until_ : SystemTime
deriving DecidableEq, Repr

namespace BarrierTimes

/-- A repeated revocation moves both instants forward and neither back. -/
def merge (t : BarrierTimes) (recordedAt until_ : SystemTime) : BarrierTimes :=
  ⟨if recordedAt > t.recordedAt then recordedAt else t.recordedAt,
   if until_ > t.until_ then until_ else t.until_⟩

def mergeInto (slot : Option BarrierTimes) (recordedAt until_ : SystemTime) :
    Option BarrierTimes :=
  match slot with
  | some existing => some (existing.merge recordedAt until_)
  | none => some ⟨recordedAt, until_⟩

/-- Ties refuse. -/
def covers (t : BarrierTimes) (established : SystemTime) : Bool :=
  decide (established ≤ t.recordedAt)

end BarrierTimes

/-- What is recorded under one identifier: read as a client id it may carry a client barrier and
a barrier for each subject that withdrew, read as a family id a family barrier. -/
structure ScopeBarriers where
  client : Option BarrierTimes
  family : Option BarrierTimes
  consents : Table (Prod.fst : String × BarrierTimes → String)

namespace ScopeBarriers

instance : Inhabited ScopeBarriers := ⟨none, none, .empty⟩

def isEmpty (b : ScopeBarriers) : Bool :=
  b.client.isNone && b.family.isNone && b.consents.rows.isEmpty

end ScopeBarriers

/-! ## The maps -/

structure MemoryInner where
  clients : Table Client.clientId
  deviceByCode : Table DeviceGrant.deviceCode
  userCodeIndex : Table (Prod.fst : String × String → String)
  codes : Table AuthorizationCodeRecord.code
  pushed : Table PushedAuthorizationRequest.requestUri
  tokens : Table IssuedToken.accessToken
  refresh : Table RefreshTokenRecord.refreshToken
  consents : Table ConsentRecord.consentId
  replayIds : Table (Prod.fst : String × SystemTime → String)
  barriers : Table (Prod.fst : String × ScopeBarriers → String)

namespace MemoryInner

def empty : MemoryInner :=
  ⟨.empty, .empty, .empty, .empty, .empty, .empty, .empty, .empty, .empty, .empty⟩

/-- The barriers recorded under an identifier. -/
def scopesAt (g : MemoryInner) (id : String) : Option ScopeBarriers :=
  (g.barriers.lookup id).map Prod.snd

/-- Whether a revocation covers a record of this client, family and subject whose grant was
established at the given instant. A client barrier also refuses whenever the client itself is
gone, and a family barrier refuses always. -/
def isRevoked (g : MemoryInner) (clientId : ClientId) (familyId subject : Option String)
    (grantEstablishedAt : SystemTime) : Bool :=
  (match g.scopesAt clientId with
    | some scopes =>
      scopes.client.any (fun t => t.covers grantEstablishedAt || !g.clients.contains clientId)
        || subject.any fun s =>
          (scopes.consents.lookup s).any fun t => t.2.covers grantEstablishedAt
    | none => false)
    || familyId.any fun f => (g.scopesAt f).any fun scopes => scopes.family.isSome

def setScopes (g : MemoryInner) (id : String) (scopes : ScopeBarriers) : MemoryInner :=
  { g with barriers := g.barriers.insert (id, scopes) }

/-- Records a barrier under the identifier it names, merging with an earlier one. -/
def recordBarrier (g : MemoryInner) (barrier : RevocationBarrier)
    (recordedAt until_ : SystemTime) : MemoryInner :=
  match barrier with
  | .client clientId =>
    let entry := (g.scopesAt clientId).getD default
    g.setScopes clientId
      { entry with client := BarrierTimes.mergeInto entry.client recordedAt until_ }
  | .tokenFamily familyId =>
    let entry := (g.scopesAt familyId).getD default
    g.setScopes familyId
      { entry with family := BarrierTimes.mergeInto entry.family recordedAt until_ }
  | .consent clientId subject =>
    let entry := (g.scopesAt clientId).getD default
    let times := ((entry.consents.lookup subject).map Prod.snd).getD ⟨recordedAt, until_⟩
    g.setScopes clientId
      { entry with consents := entry.consents.insert (subject, times.merge recordedAt until_) }

/-- An identity a barrier can be recorded for is not empty. -/
def rejectEmptyScope (what value : String) : Except StorageError Unit :=
  if value.isEmpty then
    .error ⟨"a revocation needs a non-empty " ++ what ++
      "; the empty string does not name an identity a barrier can be recorded for"⟩
  else .ok ()

/-- Drops the index entries that point at no grant. -/
def dropStaleIndex (g : MemoryInner) : MemoryInner :=
  { g with userCodeIndex := g.userCodeIndex.retain fun e => g.deviceByCode.contains e.2 }

/-! ## Clients -/

def getClient (g : MemoryInner) (clientId : ClientId) : Option Client :=
  g.clients.lookup clientId

def putClient (g : MemoryInner) (client : Client) : MemoryInner :=
  { g with clients := g.clients.insert client }

def compareAndSwapClient (g : MemoryInner) (expected updated : Client) : Bool × MemoryInner :=
  match g.clients.lookup updated.clientId with
  | some current =>
    if current = expected then (true, { g with clients := g.clients.insert updated })
    else (false, g)
  | none => (false, g)

/-- Everything a registration holds, besides the barrier, goes with it. -/
def cascadeClient (g : MemoryInner) (clientId : ClientId) : MemoryInner :=
  dropStaleIndex { g with
    tokens := g.tokens.retain fun t => t.clientId ≠ clientId
    refresh := g.refresh.retain fun r => r.clientId ≠ clientId
    codes := g.codes.retain fun c => c.clientId ≠ clientId
    pushed := g.pushed.retain fun p => p.clientId ≠ clientId
    deviceByCode := g.deviceByCode.retain fun d => d.clientId ≠ clientId
    consents := g.consents.retain fun c => c.clientId ≠ clientId }

def deleteClient (g : MemoryInner) (clientId : ClientId) (window : RevocationWindow) :
    Except StorageError Bool × MemoryInner :=
  match rejectEmptyScope "client_id" clientId with
  | .error e => (.error e, g)
  | .ok () =>
    let existed := g.clients.contains clientId
    let g := { g with clients := g.clients.erase clientId }
    let g := g.recordBarrier (.client clientId) window.recordedAt window.until_
    (.ok existed, g.cascadeClient clientId)

/-! ## Device grants -/

/-- The user code, in the form it is indexed under. -/
def userCodeOf (grant : DeviceGrant) : String := normalizeUserCode grant.userCode

def userCodeConflict : StorageError :=
  ⟨"user code is already indexed for a different device_code"⟩

/-- Files a grant and its index entry, retiring the entry of a user code it no longer has. -/
def fileDeviceGrant (g : MemoryInner) (grant : DeviceGrant) : MemoryInner :=
  let index :=
    match g.deviceByCode.lookup grant.deviceCode with
    | some previous =>
      if userCodeOf previous ≠ userCodeOf grant then g.userCodeIndex.erase (userCodeOf previous)
      else g.userCodeIndex
    | none => g.userCodeIndex
  { g with
    userCodeIndex := index.insert (userCodeOf grant, grant.deviceCode)
    deviceByCode := g.deviceByCode.insert grant }

/-- Whether the grant's user code belongs to another device. -/
def userCodeTaken (g : MemoryInner) (grant : DeviceGrant) : Bool :=
  (g.userCodeIndex.lookup (userCodeOf grant)).any fun owner => owner.2 ≠ grant.deviceCode

def putDeviceGrant (g : MemoryInner) (grant : DeviceGrant) :
    Except StorageError Unit × MemoryInner :=
  if g.userCodeTaken grant then (.error userCodeConflict, g)
  else (.ok (), g.fileDeviceGrant grant)

def getDeviceGrant (g : MemoryInner) (deviceCode : String) : Option DeviceGrant :=
  g.deviceByCode.lookup deviceCode

def findDeviceGrantByUserCode (g : MemoryInner) (normalizedUserCode : String) :
    Option DeviceGrant :=
  (g.userCodeIndex.lookup normalizedUserCode).bind fun dc => g.deviceByCode.lookup dc.2

def takeDeviceGrant (g : MemoryInner) (deviceCode : String) : Option DeviceGrant × MemoryInner :=
  match g.deviceByCode.lookup deviceCode with
  | some grant =>
    (some grant, { g with
      deviceByCode := g.deviceByCode.erase deviceCode
      userCodeIndex := g.userCodeIndex.erase (userCodeOf grant) })
  | none => (none, g)

def compareAndSwapDeviceGrant (g : MemoryInner) (expected : DeviceGrantState)
    (updated : DeviceGrant) : Except StorageError Bool × MemoryInner :=
  match g.deviceByCode.lookup updated.deviceCode with
  | some current =>
    if current.state = expected then
      if g.userCodeTaken updated then (.error userCodeConflict, g)
      else (.ok true, g.fileDeviceGrant updated)
    else (.ok false, g)
  | none => (.ok false, g)

/-! ## Authorization codes and pushed requests -/

/-- A blind write: no barrier is consulted. -/
def putAuthorizationCode (g : MemoryInner) (record : AuthorizationCodeRecord) : MemoryInner :=
  { g with codes := g.codes.insert record }

def compareAndSwapAuthorizationCode (g : MemoryInner) (expected : AuthorizationCodeState)
    (updated : AuthorizationCodeRecord) : Bool × MemoryInner :=
  match g.codes.lookup updated.code with
  | some current =>
    if current.state = expected then (true, { g with codes := g.codes.insert updated })
    else (false, g)
  | none => (false, g)

def takeAuthorizationCode (g : MemoryInner) (code : String) :
    Option AuthorizationCodeRecord × MemoryInner :=
  (g.codes.lookup code, { g with codes := g.codes.erase code })

def putPushedAuthorizationRequest (g : MemoryInner) (record : PushedAuthorizationRequest) :
    WriteOutcome × MemoryInner :=
  if g.isRevoked record.clientId none none record.pushedAt then (.refusedRevoked, g)
  else (.applied, { g with pushed := g.pushed.insert record })

def takePushedAuthorizationRequest (g : MemoryInner) (requestUri : String) :
    Option PushedAuthorizationRequest × MemoryInner :=
  (g.pushed.lookup requestUri, { g with pushed := g.pushed.erase requestUri })

/-! ## Tokens -/

/-- Whether a standing barrier covers an access token. -/
def revokesToken (g : MemoryInner) (token : IssuedToken) : Bool :=
  g.isRevoked token.clientId token.familyId token.subject token.grantEstablishedAt

/-- Whether a standing barrier covers a refresh record. -/
def revokesRefresh (g : MemoryInner) (record : RefreshTokenRecord) : Bool :=
  g.isRevoked record.clientId (some record.familyId) record.subject record.grantEstablishedAt

def putToken (g : MemoryInner) (token : IssuedToken) : WriteOutcome × MemoryInner :=
  if g.revokesToken token then (.refusedRevoked, g)
  else (.applied, { g with tokens := g.tokens.insert token })

def getToken (g : MemoryInner) (accessToken : String) : Option IssuedToken :=
  g.tokens.lookup accessToken

def deleteToken (g : MemoryInner) (accessToken : String) : MemoryInner :=
  { g with tokens := g.tokens.erase accessToken }

def putRefreshToken (g : MemoryInner) (record : RefreshTokenRecord) :
    WriteOutcome × MemoryInner :=
  if g.revokesRefresh record then (.refusedRevoked, g)
  else (.applied, { g with refresh := g.refresh.insert record })

def getRefreshToken (g : MemoryInner) (refreshToken : String) : Option RefreshTokenRecord :=
  g.refresh.lookup refreshToken

/-- Replaces the record that was read by its spent form and writes what it was rotated into, if
it is still there unchanged and nothing revoked it. -/
def rotateRefreshToken (g : MemoryInner) (expected spent : RefreshTokenRecord)
    (access : IssuedToken) (next : Option RefreshTokenRecord) : Bool × MemoryInner :=
  if g.refresh.lookup expected.refreshToken ≠ some expected ∨ g.revokesRefresh expected then
    (false, g)
  else
    let refresh := g.refresh.insert spent
    (true, { g with
      tokens := g.tokens.insert access
      refresh := match next with
        | some next => refresh.insert next
        | none => refresh })

def takeRefreshToken (g : MemoryInner) (refreshToken : String) :
    Option RefreshTokenRecord × MemoryInner :=
  (g.refresh.lookup refreshToken, { g with refresh := g.refresh.erase refreshToken })

def revokeTokenFamily (g : MemoryInner) (familyId : String) (window : RevocationWindow) :
    Except StorageError Nat × MemoryInner :=
  match rejectEmptyScope "family_id" familyId with
  | .error e => (.error e, g)
  | .ok () =>
    let g := g.recordBarrier (.tokenFamily familyId) window.recordedAt window.until_
    let before := g.tokens.size + g.refresh.size
    let g := { g with
      tokens := g.tokens.retain fun t => t.familyId ≠ some familyId
      refresh := g.refresh.retain fun r => r.familyId ≠ familyId }
    (.ok (before - (g.tokens.size + g.refresh.size)), g)

/-! ## Consents -/

def putConsent (g : MemoryInner) (record : ConsentRecord) : MemoryInner :=
  { g with consents := g.consents.insert record }

def getConsent (g : MemoryInner) (consentId : String) : Option ConsentRecord :=
  g.consents.lookup consentId

def findConsent (g : MemoryInner) (clientId : ClientId) (subject : String) :
    Option ConsentRecord :=
  g.consents.find? fun c => c.clientId == clientId && c.subject == subject

theorem pair_of_findConsent {g : MemoryInner} {clientId : ClientId} {subject : String}
    {record : ConsentRecord} (h : g.findConsent clientId subject = some record) :
    record.clientId = clientId ∧ record.subject = subject := by
  have hpair := (Table.mem_of_find? h).2
  simpa using hpair

/-- The comparison is against what `findConsent` answers for the pair, not against the id. -/
def compareAndSwapConsent (g : MemoryInner) (expected : Option ConsentRecord)
    (updated : ConsentRecord) : Bool × MemoryInner :=
  if g.findConsent updated.clientId updated.subject = expected then
    (true, { g with consents := g.consents.insert updated })
  else (false, g)

def consentsForSubject (g : MemoryInner) (subject : String) : List ConsentRecord :=
  g.consents.rows.filter fun c => c.subject == subject

/-- Whether the grant was approved by this subject. -/
def approvedBy (subject : String) (grant : DeviceGrant) : Bool :=
  grant.state == .approved subject

/-- What a withdrawn consent takes with it, besides the barrier. -/
def cascadeConsent (g : MemoryInner) (clientId : ClientId) (subject : String) : MemoryInner :=
  dropStaleIndex { g with
    tokens := g.tokens.retain fun t => !(t.clientId == clientId && t.subject == some subject)
    refresh := g.refresh.retain fun r => !(r.clientId == clientId && r.subject == some subject)
    codes := g.codes.retain fun c => !(c.clientId == clientId && c.subject == subject)
    deviceByCode := g.deviceByCode.retain fun d =>
      !(d.clientId == clientId && approvedBy subject d) }

/-- The records a withdrawal counts. -/
def grantCount (g : MemoryInner) : Nat :=
  g.tokens.size + g.refresh.size + g.codes.size + g.deviceByCode.size

def revokeConsent (g : MemoryInner) (consentId : String) (window : RevocationWindow) :
    Except StorageError Nat × MemoryInner :=
  match g.consents.lookup consentId with
  | none => (.ok 0, g)
  | some consent =>
    match rejectEmptyScope "client_id" consent.clientId, rejectEmptyScope "subject" consent.subject with
    | .error e, _ => (.error e, g)
    | .ok (), .error e => (.error e, g)
    | .ok (), .ok () =>
      let g := { g with consents := g.consents.erase consentId }
      let g := g.recordBarrier (.consent consent.clientId consent.subject)
        window.recordedAt window.until_
      let g' := g.cascadeConsent consent.clientId consent.subject
      (.ok (g.grantCount - g'.grantCount), g')

/-! ## Replay ids and the sweep -/

def claimReplayId (g : MemoryInner) (id : String) (expiresAt : SystemTime) : Bool × MemoryInner :=
  if g.replayIds.contains id then (false, g)
  else (true, { g with replayIds := g.replayIds.insert (id, expiresAt) })

/-- A slot whose deadline has come is emptied. -/
def reapSlot (now : SystemTime) (slot : Option BarrierTimes) : Option BarrierTimes :=
  slot.filter fun t => decide (now < t.until_)

def reapScopes (now : SystemTime) (scopes : ScopeBarriers) : ScopeBarriers :=
  ⟨reapSlot now scopes.client, reapSlot now scopes.family,
    scopes.consents.retain fun t => decide (now < t.2.until_)⟩

/-- Keeps what is strictly ahead of `now`; a deadline that is exactly `now` has passed. -/
def sweepRecords (g : MemoryInner) (now : SystemTime) : MemoryInner :=
  let g := dropStaleIndex
    { g with deviceByCode := g.deviceByCode.retain fun d => decide (now < d.expiresAt) }
  { g with
    codes := g.codes.retain fun c => decide (now < c.expiresAt)
    pushed := g.pushed.retain fun p => decide (now < p.expiresAt)
    tokens := g.tokens.retain fun t => decide (now < t.expiresAt)
    refresh := g.refresh.retain fun r => r.expiresAt.all fun e => decide (now < e)
    replayIds := g.replayIds.retain fun e => decide (now < e.2)
    barriers := (g.barriers.modifyAll (fun b => (b.1, reapScopes now b.2)) fun _ => rfl).retain
      fun b => !b.2.isEmpty }

/-- The barriers a sweep clears under one identifier, each scope counted. -/
def reapedFrom (now : SystemTime) (scopes : ScopeBarriers) : Nat :=
  (if scopes.client.any fun t => decide (now ≥ t.until_) then 1 else 0)
    + (if scopes.family.any fun t => decide (now ≥ t.until_) then 1 else 0)
    + (scopes.consents.size - (reapScopes now scopes).consents.size)

def sweepExpired (g : MemoryInner) (now : SystemTime) : Nat × MemoryInner :=
  let g' := g.sweepRecords now
  -- The user-code index is cleaned and not counted.
  let removed := (g.deviceByCode.size - g'.deviceByCode.size) + (g.codes.size - g'.codes.size)
    + (g.pushed.size - g'.pushed.size) + (g.tokens.size - g'.tokens.size)
    + (g.refresh.size - g'.refresh.size) + (g.replayIds.size - g'.replayIds.size)
  (removed + (g.barriers.rows.map fun b => reapedFrom now b.2).sum, g')

end MemoryInner

end OauthAs
