-- SUMMARY: Storage calls as data, their execution, and which call can write which table.
import OauthAs.Store.Memory

/-!
# Storage calls

`StorageOp` is one call of the storage interface and `exec` runs it on the reference store. Every
later argument about the store goes through the `exec_*` lemmas below: for each table they say
where a row that is there after a call came from, so that an invariant of the store is checked
against the writes of one table and not against every operation.
-/

namespace OauthAs

inductive StorageOp where
  | getClient (clientId : ClientId)
  | putClient (client : Client)
  | compareAndSwapClient (expected updated : Client)
  | deleteClient (clientId : ClientId) (window : RevocationWindow)
  | putDeviceGrant (grant : DeviceGrant)
  | getDeviceGrant (deviceCode : String)
  | findDeviceGrantByUserCode (normalizedUserCode : String)
  | takeDeviceGrant (deviceCode : String)
  | compareAndSwapDeviceGrant (expected : DeviceGrantState) (updated : DeviceGrant)
  | putAuthorizationCode (record : AuthorizationCodeRecord)
  | compareAndSwapAuthorizationCode (expected : AuthorizationCodeState)
      (updated : AuthorizationCodeRecord)
  | takeAuthorizationCode (code : String)
  | putPushedAuthorizationRequest (record : PushedAuthorizationRequest)
  | takePushedAuthorizationRequest (requestUri : String)
  | putToken (token : IssuedToken)
  | getToken (accessToken : String)
  | deleteToken (accessToken : String)
  | putRefreshToken (record : RefreshTokenRecord)
  | getRefreshToken (refreshToken : String)
  | rotateRefreshToken (expected spent : RefreshTokenRecord) (access : IssuedToken)
      (next : Option RefreshTokenRecord)
  | takeRefreshToken (refreshToken : String)
  | revokeTokenFamily (familyId : String) (window : RevocationWindow)
  | putConsent (record : ConsentRecord)
  | compareAndSwapConsent (expected : Option ConsentRecord) (updated : ConsentRecord)
  | getConsent (consentId : String)
  | findConsent (clientId : ClientId) (subject : String)
  | consentsForSubject (subject : String)
  | revokeConsent (consentId : String) (window : RevocationWindow)
  | claimReplayId (id : String) (expiresAt : SystemTime)
  | sweepExpired (now : SystemTime)
deriving DecidableEq

namespace StorageOp

/-- What a call answers when it does not fail. -/
abbrev Result : StorageOp → Type
  | getClient _ => Option Client
  | putClient _ => Unit
  | compareAndSwapClient _ _ => Bool
  | deleteClient _ _ => Bool
  | putDeviceGrant _ => Unit
  | getDeviceGrant _ => Option DeviceGrant
  | findDeviceGrantByUserCode _ => Option DeviceGrant
  | takeDeviceGrant _ => Option DeviceGrant
  | compareAndSwapDeviceGrant _ _ => Bool
  | putAuthorizationCode _ => Unit
  | compareAndSwapAuthorizationCode _ _ => Bool
  | takeAuthorizationCode _ => Option AuthorizationCodeRecord
  | putPushedAuthorizationRequest _ => WriteOutcome
  | takePushedAuthorizationRequest _ => Option PushedAuthorizationRequest
  | putToken _ => WriteOutcome
  | getToken _ => Option IssuedToken
  | deleteToken _ => Unit
  | putRefreshToken _ => WriteOutcome
  | getRefreshToken _ => Option RefreshTokenRecord
  | rotateRefreshToken _ _ _ _ => Bool
  | takeRefreshToken _ => Option RefreshTokenRecord
  | revokeTokenFamily _ _ => Nat
  | putConsent _ => Unit
  | compareAndSwapConsent _ _ => Bool
  | getConsent _ => Option ConsentRecord
  | findConsent _ _ => Option ConsentRecord
  | consentsForSubject _ => List ConsentRecord
  | revokeConsent _ _ => Nat
  | claimReplayId _ _ => Bool
  | sweepExpired _ => Nat

instance decidableEqResult (op : StorageOp) : DecidableEq op.Result := by
  cases op <;> exact inferInstance

abbrev Answer (op : StorageOp) : Type := Except StorageError op.Result

/-- The answer of a call that reads and cannot fail. -/
def reading {α : Type} (g : MemoryInner) (a : α) : Except StorageError α × MemoryInner :=
  (.ok a, g)

/-- The answer of a call that cannot fail. -/
def succeeding {α : Type} (r : α × MemoryInner) : Except StorageError α × MemoryInner :=
  (.ok r.1, r.2)

/-- Runs one call. -/
def exec (g : MemoryInner) : (op : StorageOp) → op.Answer × MemoryInner
  | getClient clientId => reading g (g.getClient clientId)
  | putClient client => succeeding ((), g.putClient client)
  | compareAndSwapClient expected updated => succeeding (g.compareAndSwapClient expected updated)
  | deleteClient clientId window => g.deleteClient clientId window
  | putDeviceGrant grant => g.putDeviceGrant grant
  | getDeviceGrant deviceCode => reading g (g.getDeviceGrant deviceCode)
  | findDeviceGrantByUserCode userCode => reading g (g.findDeviceGrantByUserCode userCode)
  | takeDeviceGrant deviceCode => succeeding (g.takeDeviceGrant deviceCode)
  | compareAndSwapDeviceGrant expected updated => g.compareAndSwapDeviceGrant expected updated
  | putAuthorizationCode record => succeeding ((), g.putAuthorizationCode record)
  | compareAndSwapAuthorizationCode expected updated =>
    succeeding (g.compareAndSwapAuthorizationCode expected updated)
  | takeAuthorizationCode code => succeeding (g.takeAuthorizationCode code)
  | putPushedAuthorizationRequest record => succeeding (g.putPushedAuthorizationRequest record)
  | takePushedAuthorizationRequest requestUri =>
    succeeding (g.takePushedAuthorizationRequest requestUri)
  | putToken token => succeeding (g.putToken token)
  | getToken accessToken => reading g (g.getToken accessToken)
  | deleteToken accessToken => succeeding ((), g.deleteToken accessToken)
  | putRefreshToken record => succeeding (g.putRefreshToken record)
  | getRefreshToken refreshToken => reading g (g.getRefreshToken refreshToken)
  | rotateRefreshToken expected spent access next =>
    succeeding (g.rotateRefreshToken expected spent access next)
  | takeRefreshToken refreshToken => succeeding (g.takeRefreshToken refreshToken)
  | revokeTokenFamily familyId window => g.revokeTokenFamily familyId window
  | putConsent record => succeeding ((), g.putConsent record)
  | compareAndSwapConsent expected updated => succeeding (g.compareAndSwapConsent expected updated)
  | getConsent consentId => reading g (g.getConsent consentId)
  | findConsent clientId subject => reading g (g.findConsent clientId subject)
  | consentsForSubject subject => reading g (g.consentsForSubject subject)
  | revokeConsent consentId window => g.revokeConsent consentId window
  | claimReplayId id expiresAt => succeeding (g.claimReplayId id expiresAt)
  | sweepExpired now => succeeding (g.sweepExpired now)

/-! ## Which call writes which table -/

def TouchesClients : StorageOp → Bool
  | putClient _ | compareAndSwapClient _ _ | deleteClient _ _ => true
  | _ => false

def TouchesBarriers : StorageOp → Bool
  | deleteClient _ _ | revokeTokenFamily _ _ | revokeConsent _ _ | sweepExpired _ => true
  | _ => false

def WritesDeviceGrants : StorageOp → Bool
  | putDeviceGrant _ | compareAndSwapDeviceGrant _ _ => true
  | _ => false

def WritesCodes : StorageOp → Bool
  | putAuthorizationCode _ | compareAndSwapAuthorizationCode _ _ => true
  | _ => false

def WritesPushed : StorageOp → Bool
  | putPushedAuthorizationRequest _ => true
  | _ => false

def WritesTokens : StorageOp → Bool
  | putToken _ | rotateRefreshToken _ _ _ _ => true
  | _ => false

def WritesRefresh : StorageOp → Bool
  | putRefreshToken _ | rotateRefreshToken _ _ _ _ => true
  | _ => false

def WritesConsents : StorageOp → Bool
  | putConsent _ | compareAndSwapConsent _ _ => true
  | _ => false

/-- A call leaves clients and barriers alone unless it is about them, and every other table it
does not write as it was or with rows removed. -/
structure Frame (op : StorageOp) (g g' : MemoryInner) : Prop where
  clients : op.TouchesClients = false → g'.clients = g.clients
  barriers : op.TouchesBarriers = false → g'.barriers = g.barriers
  deviceByCode : op.WritesDeviceGrants = false → g.deviceByCode.Shrinks g'.deviceByCode
  codes : op.WritesCodes = false → g.codes.Shrinks g'.codes
  pushed : op.WritesPushed = false → g.pushed.Shrinks g'.pushed
  tokens : op.WritesTokens = false → g.tokens.Shrinks g'.tokens
  refresh : op.WritesRefresh = false → g.refresh.Shrinks g'.refresh
  consents : op.WritesConsents = false → g.consents.Shrinks g'.consents

theorem Frame.same (op : StorageOp) (g : MemoryInner) : Frame op g g := by
  constructor <;> first | exact fun _ => rfl | exact fun _ => .refl _

/-! ## What a call writes -/

open MemoryInner

/-- The comparison a rotation makes before it writes. -/
def Rotates (g : MemoryInner) (expected : RefreshTokenRecord) : Prop :=
  g.refresh.lookup expected.refreshToken = some expected ∧ g.revokesRefresh expected = false

section Rotation
variable {g : MemoryInner} {expected spent : RefreshTokenRecord}

theorem exec_rotateRefreshToken_of_not {access : IssuedToken} {next : Option RefreshTokenRecord}
    (h : ¬ Rotates g expected) :
    exec g (.rotateRefreshToken expected spent access next) = (.ok false, g) := by
  have hif : g.refresh.lookup expected.refreshToken ≠ some expected ∨
      g.revokesRefresh expected = true := by
    by_contra hno
    obtain ⟨hsame, hrev⟩ := not_or.mp hno
    exact h ⟨not_not.mp hsame, by simpa using hrev⟩
  simp only [exec, succeeding, MemoryInner.rotateRefreshToken, if_pos hif]

theorem exec_rotateRefreshToken_of {access : IssuedToken} {next : Option RefreshTokenRecord}
    (h : Rotates g expected) :
    exec g (.rotateRefreshToken expected spent access next) =
      (.ok true, { g with
        tokens := g.tokens.insert access
        refresh := match next with
          | some next => (g.refresh.insert spent).insert next
          | none => g.refresh.insert spent }) := by
  have hif : ¬ (g.refresh.lookup expected.refreshToken ≠ some expected ∨
      g.revokesRefresh expected = true) := by
    rintro (hne | hrev)
    · exact hne h.1
    · rw [h.2] at hrev
      cases hrev
  cases next <;> simp only [exec, succeeding, MemoryInner.rotateRefreshToken, if_neg hif]

end Rotation

/-- The store a call leaves when it changes it, and what it has found then. -/
inductive Writes (g : MemoryInner) : StorageOp → MemoryInner → Prop
  | putClient (client : Client) : Writes g (.putClient client) (g.putClient client)
  | compareAndSwapClient {expected updated : Client}
      (found : g.clients.lookup updated.clientId = some expected) :
      Writes g (.compareAndSwapClient expected updated)
        { g with clients := g.clients.insert updated }
  | deleteClient {clientId : ClientId} (window : RevocationWindow)
      (named : clientId.isEmpty = false) :
      Writes g (.deleteClient clientId window)
        ((recordBarrier { g with clients := g.clients.erase clientId } (.client clientId)
          window.recordedAt window.until_).cascadeClient clientId)
  | putDeviceGrant {grant : DeviceGrant} (free : g.userCodeTaken grant = false) :
      Writes g (.putDeviceGrant grant) (g.fileDeviceGrant grant)
  | takeDeviceGrant {deviceCode : String} {grant : DeviceGrant}
      (found : g.deviceByCode.lookup deviceCode = some grant) :
      Writes g (.takeDeviceGrant deviceCode)
        { g with
          deviceByCode := g.deviceByCode.erase deviceCode
          userCodeIndex := g.userCodeIndex.erase (userCodeOf grant) }
  | compareAndSwapDeviceGrant {updated current : DeviceGrant}
      (found : g.deviceByCode.lookup updated.deviceCode = some current)
      (free : g.userCodeTaken updated = false) :
      Writes g (.compareAndSwapDeviceGrant current.state updated) (g.fileDeviceGrant updated)
  | putAuthorizationCode (record : AuthorizationCodeRecord) :
      Writes g (.putAuthorizationCode record) (g.putAuthorizationCode record)
  | compareAndSwapAuthorizationCode {updated current : AuthorizationCodeRecord}
      (found : g.codes.lookup updated.code = some current) :
      Writes g (.compareAndSwapAuthorizationCode current.state updated)
        { g with codes := g.codes.insert updated }
  | takeAuthorizationCode (code : String) :
      Writes g (.takeAuthorizationCode code) { g with codes := g.codes.erase code }
  | putPushedAuthorizationRequest {record : PushedAuthorizationRequest}
      (live : g.isRevoked record.clientId none none record.pushedAt = false) :
      Writes g (.putPushedAuthorizationRequest record) { g with pushed := g.pushed.insert record }
  | takePushedAuthorizationRequest (requestUri : String) :
      Writes g (.takePushedAuthorizationRequest requestUri)
        { g with pushed := g.pushed.erase requestUri }
  | putToken {token : IssuedToken} (live : g.revokesToken token = false) :
      Writes g (.putToken token) { g with tokens := g.tokens.insert token }
  | deleteToken (accessToken : String) :
      Writes g (.deleteToken accessToken) (g.deleteToken accessToken)
  | putRefreshToken {record : RefreshTokenRecord} (live : g.revokesRefresh record = false) :
      Writes g (.putRefreshToken record) { g with refresh := g.refresh.insert record }
  | rotateRefreshToken {expected : RefreshTokenRecord} (spent : RefreshTokenRecord)
      (access : IssuedToken) (next : Option RefreshTokenRecord) (rotates : Rotates g expected) :
      Writes g (.rotateRefreshToken expected spent access next)
        { g with
          tokens := g.tokens.insert access
          refresh := match next with
            | some next => (g.refresh.insert spent).insert next
            | none => g.refresh.insert spent }
  | takeRefreshToken (refreshToken : String) :
      Writes g (.takeRefreshToken refreshToken) { g with refresh := g.refresh.erase refreshToken }
  | revokeTokenFamily {familyId : String} (window : RevocationWindow)
      (named : familyId.isEmpty = false) :
      Writes g (.revokeTokenFamily familyId window)
        { g.recordBarrier (.tokenFamily familyId) window.recordedAt window.until_ with
          tokens := g.tokens.retain fun t => t.familyId ≠ some familyId
          refresh := g.refresh.retain fun r => r.familyId ≠ familyId }
  | putConsent (record : ConsentRecord) : Writes g (.putConsent record) (g.putConsent record)
  | compareAndSwapConsent (updated : ConsentRecord) :
      Writes g (.compareAndSwapConsent (g.findConsent updated.clientId updated.subject) updated)
        { g with consents := g.consents.insert updated }
  | revokeConsent {consentId : String} {consent : ConsentRecord} (window : RevocationWindow)
      (found : g.consents.lookup consentId = some consent)
      (named : (consent.clientId.isEmpty || consent.subject.isEmpty) = false) :
      Writes g (.revokeConsent consentId window)
        ((recordBarrier { g with consents := g.consents.erase consentId }
          (.consent consent.clientId consent.subject) window.recordedAt
          window.until_).cascadeConsent consent.clientId consent.subject)
  | claimReplayId {id : String} (expiresAt : SystemTime) (new : g.replayIds.contains id = false) :
      Writes g (.claimReplayId id expiresAt)
        { g with replayIds := g.replayIds.insert (id, expiresAt) }
  | sweepExpired (now : SystemTime) : Writes g (.sweepExpired now) (g.sweepRecords now)

theorem exec_cases (g : MemoryInner) (op : StorageOp) :
    (exec g op).2 = g ∨ (∃ a, (exec g op).1 = .ok a) ∧ Writes g op (exec g op).2 := by
  cases op with
  | compareAndSwapClient expected updated =>
    simp only [exec, succeeding, MemoryInner.compareAndSwapClient]
    split
    · split
      · rename_i hfound hsame
        exact .inr ⟨⟨_, rfl⟩, .compareAndSwapClient (hsame ▸ hfound)⟩
      · exact .inl rfl
    · exact .inl rfl
  | deleteClient clientId window =>
    simp only [exec, MemoryInner.deleteClient, rejectEmptyScope]
    cases hnamed : clientId.isEmpty
    · exact .inr ⟨⟨_, rfl⟩, .deleteClient window hnamed⟩
    · exact .inl rfl
  | putDeviceGrant grant =>
    simp only [exec, MemoryInner.putDeviceGrant]
    cases hfree : g.userCodeTaken grant
    · exact .inr ⟨⟨_, rfl⟩, .putDeviceGrant hfree⟩
    · exact .inl rfl
  | takeDeviceGrant deviceCode =>
    simp only [exec, succeeding, MemoryInner.takeDeviceGrant]
    split
    · rename_i grant hfound
      exact .inr ⟨⟨_, rfl⟩, .takeDeviceGrant hfound⟩
    · exact .inl rfl
  | compareAndSwapDeviceGrant expected updated =>
    simp only [exec, MemoryInner.compareAndSwapDeviceGrant]
    split
    · rename_i current hfound
      split
      · rename_i hstate
        subst hstate
        cases hfree : g.userCodeTaken updated
        · exact .inr ⟨⟨_, rfl⟩, .compareAndSwapDeviceGrant hfound hfree⟩
        · exact .inl rfl
      · exact .inl rfl
    · exact .inl rfl
  | compareAndSwapAuthorizationCode expected updated =>
    simp only [exec, succeeding, MemoryInner.compareAndSwapAuthorizationCode]
    split
    · rename_i current hfound
      split
      · rename_i hstate
        subst hstate
        exact .inr ⟨⟨_, rfl⟩, .compareAndSwapAuthorizationCode hfound⟩
      · exact .inl rfl
    · exact .inl rfl
  | putPushedAuthorizationRequest record =>
    simp only [exec, succeeding, MemoryInner.putPushedAuthorizationRequest]
    cases hlive : g.isRevoked record.clientId none none record.pushedAt
    · exact .inr ⟨⟨_, rfl⟩, .putPushedAuthorizationRequest hlive⟩
    · exact .inl rfl
  | putToken token =>
    simp only [exec, succeeding, MemoryInner.putToken]
    cases hlive : g.revokesToken token
    · exact .inr ⟨⟨_, rfl⟩, .putToken hlive⟩
    · exact .inl rfl
  | putRefreshToken record =>
    simp only [exec, succeeding, MemoryInner.putRefreshToken]
    cases hlive : g.revokesRefresh record
    · exact .inr ⟨⟨_, rfl⟩, .putRefreshToken hlive⟩
    · exact .inl rfl
  | rotateRefreshToken expected spent access next =>
    by_cases hrot : Rotates g expected
    · rw [exec_rotateRefreshToken_of hrot]
      exact .inr ⟨⟨_, rfl⟩, .rotateRefreshToken spent access next hrot⟩
    · rw [exec_rotateRefreshToken_of_not hrot]
      exact .inl rfl
  | revokeTokenFamily familyId window =>
    simp only [exec, MemoryInner.revokeTokenFamily, rejectEmptyScope]
    cases hnamed : familyId.isEmpty
    · exact .inr ⟨⟨_, rfl⟩, .revokeTokenFamily window hnamed⟩
    · exact .inl rfl
  | compareAndSwapConsent expected updated =>
    simp only [exec, succeeding, MemoryInner.compareAndSwapConsent]
    split
    · rename_i hfound
      subst hfound
      exact .inr ⟨⟨_, rfl⟩, .compareAndSwapConsent updated⟩
    · exact .inl rfl
  | revokeConsent consentId window =>
    simp only [exec, MemoryInner.revokeConsent, rejectEmptyScope]
    split
    · exact .inl rfl
    · rename_i consent hfound
      cases hclient : consent.clientId.isEmpty
      · cases hsubject : consent.subject.isEmpty
        · exact .inr ⟨⟨_, rfl⟩, .revokeConsent window hfound (by rw [hclient, hsubject]; rfl)⟩
        · exact .inl rfl
      · exact .inl rfl
  | claimReplayId id expiresAt =>
    simp only [exec, succeeding, MemoryInner.claimReplayId]
    cases hnew : g.replayIds.contains id
    · exact .inr ⟨⟨_, rfl⟩, .claimReplayId expiresAt hnew⟩
    · exact .inl rfl
  | getClient _ | getDeviceGrant _ | findDeviceGrantByUserCode _ | getToken _
  | getRefreshToken _ | getConsent _ | findConsent _ _ | consentsForSubject _ => exact .inl rfl
  | _ => exact .inr ⟨⟨_, rfl⟩, by constructor⟩

/-- A call that fails changes nothing. -/
theorem exec_error {g : MemoryInner} {op : StorageOp} {e : StorageError}
    (h : (exec g op).1 = .error e) : (exec g op).2 = g := by
  rcases exec_cases g op with hsame | ⟨⟨a, ha⟩, -⟩
  · exact hsame
  · cases h.symm.trans ha

theorem frame_exec {g : MemoryInner} (op : StorageOp) : Frame op g (exec g op).2 := by
  rcases exec_cases g op with hsame | ⟨-, hwrites⟩
  · rw [hsame]
    exact .same op g
  · generalize (exec g op).2 = g' at hwrites
    cases hwrites <;> constructor <;>
      first | exact fun _ => rfl | exact fun _ => .refl _ | exact fun _ => ⟨_, rfl⟩ | exact nofun

/-! ## Where a row came from -/

section Origin
variable {g g' : MemoryInner} {op : StorageOp} {a : op.Answer} {expected spent : RefreshTokenRecord}

theorem exec_writes (hexec : exec g op = (a, g')) : Frame op g g' ∧ (g' = g ∨ Writes g op g') := by
  have hframe := frame_exec (g := g) op
  have hcases := exec_cases g op
  rw [hexec] at hframe hcases
  exact ⟨hframe, hcases.imp_right And.right⟩

theorem mem_tokens_exec {t : IssuedToken} (hexec : exec g op = (a, g')) (h : t ∈ g'.tokens) :
    t ∈ g.tokens ∨ (op = .putToken t ∧ g.revokesToken t = false) ∨
      ∃ expected spent next, op = .rotateRefreshToken expected spent t next ∧
        Rotates g expected := by
  obtain ⟨hframe, rfl | hwrites⟩ := exec_writes hexec
  · exact .inl h
  cases hwrites with
  | putToken live =>
    rcases Table.mem_insert.mp h with rfl | ⟨h, -⟩
    · exact .inr (.inl ⟨rfl, live⟩)
    · exact .inl h
  | rotateRefreshToken spent access next rotates =>
    rcases Table.mem_insert.mp h with rfl | ⟨h, -⟩
    · exact .inr (.inr ⟨_, spent, next, rfl, rotates⟩)
    · exact .inl h
  | _ => exact .inl ((hframe.tokens rfl).mem h)

theorem mem_refresh_exec {r : RefreshTokenRecord} (hexec : exec g op = (a, g'))
    (h : r ∈ g'.refresh) :
    r ∈ g.refresh ∨ (op = .putRefreshToken r ∧ g.revokesRefresh r = false) ∨
      ∃ expected spent access next, op = .rotateRefreshToken expected spent access next ∧
        Rotates g expected ∧ (r = spent ∨ next = some r) := by
  obtain ⟨hframe, rfl | hwrites⟩ := exec_writes hexec
  · exact .inl h
  cases hwrites with
  | putRefreshToken live =>
    rcases Table.mem_insert.mp h with rfl | ⟨h, -⟩
    · exact .inr (.inl ⟨rfl, live⟩)
    · exact .inl h
  | rotateRefreshToken spent access next rotates =>
    have hcases : r ∈ g.refresh ∨ r = spent ∨ next = some r := by
      cases next with
      | none =>
        rcases Table.mem_insert.mp h with rfl | ⟨h, -⟩
        · exact .inr (.inl rfl)
        · exact .inl h
      | some next =>
        rcases Table.mem_insert.mp h with rfl | ⟨h, -⟩
        · exact .inr (.inr rfl)
        · rcases Table.mem_insert.mp h with rfl | ⟨h, -⟩
          · exact .inr (.inl rfl)
          · exact .inl h
    exact hcases.imp_right fun hnew => .inr ⟨_, spent, access, next, rfl, rotates, hnew⟩
  | _ => exact .inl ((hframe.refresh rfl).mem h)

theorem mem_pushed_exec {p : PushedAuthorizationRequest} (hexec : exec g op = (a, g'))
    (h : p ∈ g'.pushed) :
    p ∈ g.pushed ∨ (op = .putPushedAuthorizationRequest p ∧
      g.isRevoked p.clientId none none p.pushedAt = false) := by
  obtain ⟨hframe, rfl | hwrites⟩ := exec_writes hexec
  · exact .inl h
  cases hwrites with
  | putPushedAuthorizationRequest live =>
    rcases Table.mem_insert.mp h with rfl | ⟨h, -⟩
    · exact .inr ⟨rfl, live⟩
    · exact .inl h
  | _ => exact .inl ((hframe.pushed rfl).mem h)

/-- The calls that may change the pushed requests. -/
def TouchesPushed : StorageOp → Bool
  | putPushedAuthorizationRequest _ | takePushedAuthorizationRequest _ | deleteClient _ _
  | sweepExpired _ => true
  | _ => false

/-- The calls that may change the consents. -/
def TouchesConsents : StorageOp → Bool
  | putConsent _ | compareAndSwapConsent _ _ | revokeConsent _ _ | deleteClient _ _ => true
  | _ => false

theorem untouched_exec (op : StorageOp) (g : MemoryInner) :
    (op.TouchesPushed = false → (exec g op).2.pushed = g.pushed) ∧
      (op.TouchesConsents = false → (exec g op).2.consents = g.consents) := by
  rcases exec_cases g op with hsame | ⟨-, hwrites⟩
  · rw [hsame]
    exact ⟨fun _ => rfl, fun _ => rfl⟩
  · generalize (exec g op).2 = g' at hwrites
    cases hwrites <;> constructor <;> first | exact fun _ => rfl | exact nofun

theorem consents_exec (h : op.TouchesConsents = false) : (exec g op).2.consents = g.consents :=
  (untouched_exec op g).2 h

theorem mem_codes_exec {c : AuthorizationCodeRecord} (hexec : exec g op = (a, g'))
    (h : c ∈ g'.codes) :
    c ∈ g.codes ∨ op = .putAuthorizationCode c ∨
      ∃ expected, op = .compareAndSwapAuthorizationCode expected c ∧
        (g.codes.lookup c.code).any (fun current => current.state = expected) = true := by
  obtain ⟨hframe, rfl | hwrites⟩ := exec_writes hexec
  · exact .inl h
  cases hwrites with
  | putAuthorizationCode record =>
    rcases Table.mem_insert.mp h with rfl | ⟨h, -⟩
    · exact .inr (.inl rfl)
    · exact .inl h
  | compareAndSwapAuthorizationCode found =>
    rcases Table.mem_insert.mp h with rfl | ⟨h, -⟩
    · exact .inr (.inr ⟨_, rfl, by simp [found]⟩)
    · exact .inl h
  | _ => exact .inl ((hframe.codes rfl).mem h)

theorem take_code {code : String} {a : Option AuthorizationCodeRecord}
    (h : exec g (.takeAuthorizationCode code) = (.ok a, g')) :
    g.codes.lookup code = a ∧ g' = { g with codes := g.codes.erase code } := by
  cases h
  exact ⟨rfl, rfl⟩

/-- The swap of a code record either finds the expected state and replaces the record, or it
changes nothing. -/
theorem swap_code_cases {expected : AuthorizationCodeState} {updated : AuthorizationCodeRecord}
    {done : Bool} (h : exec g (.compareAndSwapAuthorizationCode expected updated) = (.ok done, g')) :
    (done = true ∧ ∃ current, g.codes.lookup updated.code = some current ∧
        current.state = expected ∧ g' = { g with codes := g.codes.insert updated }) ∨
      (done = false ∧ g' = g ∧
        ∀ current, g.codes.lookup updated.code = some current → current.state ≠ expected) := by
  simp only [exec, succeeding, MemoryInner.compareAndSwapAuthorizationCode] at h
  split at h
  · rename_i current hcurrent
    split at h
    · rename_i hstate
      cases h
      exact .inl ⟨rfl, current, hcurrent, hstate, rfl⟩
    · rename_i hstate
      cases h
      refine .inr ⟨rfl, rfl, fun other hother => ?_⟩
      cases hcurrent.symm.trans hother
      exact hstate
  · rename_i hnone
    cases h
    refine .inr ⟨rfl, rfl, fun other hother => ?_⟩
    cases hnone.symm.trans hother

/-! ## Counting refresh records -/

theorem count_takeRefreshToken (p : RefreshTokenRecord → Bool) (token : String) :
    (exec g (.takeRefreshToken token)).2.refresh.count p + g.refresh.tally p token =
      g.refresh.count p :=
  Table.count_erase ..

theorem count_putRefreshToken_le (p : RefreshTokenRecord → Bool) (record : RefreshTokenRecord) :
    (g.refresh.insert record).count p ≤ g.refresh.count p + (p record).toNat := by
  have := Table.count_erase g.refresh p record.refreshToken
  rw [Table.count_insert]
  omega

/-- A rotation replaces the record it found by its spent form and adds what it rotates into. -/
theorem count_rotateRefreshToken_le (p : RefreshTokenRecord → Bool) (access : IssuedToken)
    (next : Option RefreshTokenRecord) (h : Rotates g expected)
    (hkey : spent.refreshToken = expected.refreshToken) :
    (exec g (.rotateRefreshToken expected spent access next)).2.refresh.count p +
        (p expected).toNat ≤ g.refresh.count p + (p spent).toNat + (next.any p).toNat := by
  have hspent : (g.refresh.insert spent).count p + (p expected).toNat =
      g.refresh.count p + (p spent).toNat := by
    have htally : g.refresh.tally p spent.refreshToken = (p expected).toNat := by
      rw [hkey, Table.tally, h.1]
    have := Table.count_erase g.refresh p spent.refreshToken
    rw [Table.count_insert]
    omega
  rw [exec_rotateRefreshToken_of h]
  cases next with
  | none => simpa using hspent.le
  | some next =>
    have := count_putRefreshToken_le (g := { g with refresh := g.refresh.insert spent }) p next
    simp only [Option.any_some] at this ⊢
    omega

end Origin

end StorageOp

end OauthAs
