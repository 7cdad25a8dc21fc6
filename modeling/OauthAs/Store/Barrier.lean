-- SUMMARY: Standing barriers, how calls record and reap them, and that nothing stored is covered by one.
import OauthAs.Store.Operation

/-!
# Standing barriers

The reference store files three kinds of barriers under two kinds of keys. `barrierAt` reads them
back by what they name, and `isRevoked` is characterised in those terms. The invariant of the
store is `Unrevoked`: no access token, refresh record or pushed request is covered by a barrier
that stands. It rests on two facts about one call: what `exec` does to a barrier, and that a call
which makes `isRevoked` true of a record removes the record in the same step.
-/

namespace OauthAs

namespace MemoryInner

/-- The barrier recorded for a client, a family or a (client, subject) pair. -/
def barrierAt (g : MemoryInner) : RevocationBarrier → Option BarrierTimes
  | .client clientId => (g.scopesAt clientId).bind ScopeBarriers.client
  | .tokenFamily familyId => (g.scopesAt familyId).bind ScopeBarriers.family
  | .consent clientId subject =>
    (g.scopesAt clientId).bind fun scopes => (scopes.consents.lookup subject).map Prod.snd

/-- No standing barrier covers a record of this client, family and subject. -/
structure Uncovered (g : MemoryInner) (clientId : ClientId) (familyId subject : Option String)
    (established : SystemTime) : Prop where
  family : ∀ f, familyId = some f → g.barrierAt (.tokenFamily f) = none
  client : ∀ b, g.barrierAt (.client clientId) = some b →
    b.recordedAt < established ∧ g.clients.contains clientId = true
  consent : ∀ s b, subject = some s → g.barrierAt (.consent clientId s) = some b →
    b.recordedAt < established

variable {g : MemoryInner}

theorem scopesAt_setScopes (id j : String) (scopes : ScopeBarriers) :
    (g.setScopes id scopes).scopesAt j = if id = j then some scopes else g.scopesAt j := by
  simp only [scopesAt, setScopes, Table.lookup_insert]
  split <;> rfl

/-- The two ways to say that nothing covers a record agree. -/
theorem isRevoked_eq_false {clientId : ClientId} {familyId subject : Option String}
    {established : SystemTime} :
    g.isRevoked clientId familyId subject established = false ↔
      g.Uncovered clientId familyId subject established := by
  have hfamily : (familyId.any fun f => (g.scopesAt f).any fun scopes => scopes.family.isSome)
      = false ↔ ∀ f, familyId = some f → g.barrierAt (.tokenFamily f) = none := by
    cases familyId with
    | none => simp
    | some f => cases hf : g.scopesAt f <;> simp [barrierAt, hf]
  simp only [isRevoked, Bool.or_eq_false_iff, hfamily]
  cases hc : g.scopesAt clientId with
  | none =>
    constructor
    · rintro ⟨-, hfam⟩
      exact ⟨hfam, by simp [barrierAt, hc], by simp [barrierAt, hc]⟩
    · intro h
      exact ⟨rfl, h.family⟩
  | some scopes =>
    simp only [Bool.or_eq_false_iff]
    constructor
    · rintro ⟨⟨hclient, hconsent⟩, hfam⟩
      refine ⟨hfam, ?_, ?_⟩
      · intro b hb
        simp only [barrierAt, hc, Option.bind_some] at hb
        simpa [hb, BarrierTimes.covers] using hclient
      · rintro s b rfl hb
        simp only [barrierAt, hc, Option.bind_some, Option.map_eq_some_iff] at hb
        obtain ⟨e, he, rfl⟩ := hb
        simpa [he, BarrierTimes.covers] using hconsent
    · intro h
      refine ⟨⟨?_, ?_⟩, h.family⟩
      · cases hb : scopes.client with
        | none => rfl
        | some b =>
          obtain ⟨hlt, hpresent⟩ := h.client b (by simp [barrierAt, hc, hb])
          simpa [BarrierTimes.covers, hpresent] using hlt
      · cases subject with
        | none => rfl
        | some s =>
          cases hb : scopes.consents.lookup s with
          | none => simp [hb]
          | some e =>
            have hlt := h.consent s e.2 rfl (by simp [barrierAt, hc, hb])
            simpa [hb, BarrierTimes.covers] using hlt

/-! ## Recording and reaping -/

/-- The entry a barrier is merged into, empty where nothing was recorded. -/
def entryAt (g : MemoryInner) (id : String) : ScopeBarriers := (g.scopesAt id).getD default

theorem entryAt_client (clientId : ClientId) :
    (g.entryAt clientId).client = g.barrierAt (.client clientId) := by
  cases h : g.scopesAt clientId <;> simp [entryAt, barrierAt, h, default]

theorem entryAt_family (familyId : String) :
    (g.entryAt familyId).family = g.barrierAt (.tokenFamily familyId) := by
  cases h : g.scopesAt familyId <;> simp [entryAt, barrierAt, h, default]

theorem entryAt_consents (clientId : ClientId) (subject : String) :
    ((g.entryAt clientId).consents.lookup subject).map Prod.snd =
      g.barrierAt (.consent clientId subject) := by
  cases h : g.scopesAt clientId <;> simp [entryAt, barrierAt, h, default]

/-- What is read back after an entry was replaced, by the kind of barrier. -/
theorem barrierAt_setScopes (id : String) (scopes : ScopeBarriers) (b : RevocationBarrier) :
    (g.setScopes id scopes).barrierAt b =
      match b with
      | .client clientId => if id = clientId then scopes.client else g.barrierAt b
      | .tokenFamily familyId => if id = familyId then scopes.family else g.barrierAt b
      | .consent clientId subject =>
        if id = clientId then (scopes.consents.lookup subject).map Prod.snd
        else g.barrierAt b := by
  cases b <;> simp only [barrierAt, scopesAt_setScopes] <;> split <;> simp

theorem merge_self (recordedAt until_ : SystemTime) :
    (BarrierTimes.mk recordedAt until_).merge recordedAt until_ = ⟨recordedAt, until_⟩ := by
  simp [BarrierTimes.merge]

/-- Recording a barrier merges it into the one of the same scope and changes no other. -/
theorem barrierAt_recordBarrier (b b' : RevocationBarrier) (recordedAt until_ : SystemTime) :
    (g.recordBarrier b recordedAt until_).barrierAt b' =
      if b = b' then BarrierTimes.mergeInto (g.barrierAt b) recordedAt until_
      else g.barrierAt b' := by
  cases b with
  | client clientId =>
    have hrec : g.recordBarrier (.client clientId) recordedAt until_ =
        g.setScopes clientId { g.entryAt clientId with
          client := BarrierTimes.mergeInto (g.entryAt clientId).client recordedAt until_ } := rfl
    rw [hrec, barrierAt_setScopes]
    cases b' with
    | client clientId' => simp [entryAt_client]
    | tokenFamily familyId' =>
      simp only [entryAt_family, reduceCtorEq, if_false]
      split <;> simp_all
    | consent clientId' subject' =>
      simp only [entryAt_consents, reduceCtorEq, if_false]
      split <;> simp_all
  | tokenFamily familyId =>
    have hrec : g.recordBarrier (.tokenFamily familyId) recordedAt until_ =
        g.setScopes familyId { g.entryAt familyId with
          family := BarrierTimes.mergeInto (g.entryAt familyId).family recordedAt until_ } := rfl
    rw [hrec, barrierAt_setScopes]
    cases b' with
    | client clientId' =>
      simp only [entryAt_client, reduceCtorEq, if_false]
      split <;> simp_all
    | tokenFamily familyId' => simp [entryAt_family]
    | consent clientId' subject' =>
      simp only [entryAt_consents, reduceCtorEq, if_false]
      split <;> simp_all
  | consent clientId subject =>
    have hrec : g.recordBarrier (.consent clientId subject) recordedAt until_ =
        g.setScopes clientId { g.entryAt clientId with
          consents := (g.entryAt clientId).consents.insert (subject,
            ((((g.entryAt clientId).consents.lookup subject).map Prod.snd).getD
              ⟨recordedAt, until_⟩).merge recordedAt until_) } := rfl
    rw [hrec, barrierAt_setScopes, entryAt_consents]
    cases b' with
    | client clientId' =>
      simp only [entryAt_client, reduceCtorEq, if_false]
      split <;> simp_all
    | tokenFamily familyId' =>
      simp only [entryAt_family, reduceCtorEq, if_false]
      split <;> simp_all
    | consent clientId' subject' =>
      simp only [RevocationBarrier.consent.injEq, Table.lookup_insert]
      by_cases hc : clientId = clientId'
      · subst hc
        by_cases hs : subject = subject'
        · subst hs
          -- The insert happens before the merge, so an absent barrier is merged with itself.
          cases hb : g.barrierAt (.consent clientId subject) <;>
            simp [BarrierTimes.mergeInto, merge_self]
        · simp [hs, entryAt_consents]
      · simp [hc]

/-- Dropping an empty entry changes nothing that is read from it. -/
theorem bind_filter_isEmpty {f : ScopeBarriers → Option BarrierTimes}
    (hf : ∀ scopes, scopes.isEmpty = true → f scopes = none) (entry : Option ScopeBarriers) :
    (entry.filter fun scopes => !scopes.isEmpty).bind f = entry.bind f := by
  cases entry with
  | none => rfl
  | some scopes =>
    cases h : scopes.isEmpty with
    | false => simp [Option.filter_some, h]
    | true => simp [Option.filter_some, h, hf scopes h]

theorem scopesAt_sweepRecords (now : SystemTime) (id : String) :
    (g.sweepRecords now).scopesAt id =
      ((g.scopesAt id).map (reapScopes now)).filter fun scopes => !scopes.isEmpty := by
  have hlookup : (g.sweepRecords now).barriers.lookup id =
      ((g.barriers.lookup id).map fun b => (b.1, reapScopes now b.2)).filter
        fun b => !b.2.isEmpty := by
    simp only [sweepRecords, Table.lookup_retain, Table.lookup_modifyAll, dropStaleIndex]
  simp only [scopesAt, hlookup]
  cases g.barriers.lookup id with
  | none => rfl
  | some e =>
    simp only [Option.map_some, Option.filter_some]
    split <;> rfl

/-- A sweep reaps exactly the barriers whose deadline has come. -/
theorem barrierAt_sweepRecords (now : SystemTime) (b : RevocationBarrier) :
    (g.sweepRecords now).barrierAt b =
      (g.barrierAt b).filter fun t => decide (now < t.until_) := by
  cases b with
  | client clientId =>
    simp only [barrierAt, scopesAt_sweepRecords]
    rw [bind_filter_isEmpty (by simp +contextual [ScopeBarriers.isEmpty])]
    cases g.scopesAt clientId <;> rfl
  | tokenFamily familyId =>
    simp only [barrierAt, scopesAt_sweepRecords]
    rw [bind_filter_isEmpty (by simp +contextual [ScopeBarriers.isEmpty])]
    cases g.scopesAt familyId <;> rfl
  | consent clientId subject =>
    simp only [barrierAt, scopesAt_sweepRecords]
    rw [bind_filter_isEmpty (by simp +contextual [ScopeBarriers.isEmpty, Table.lookup])]
    cases g.scopesAt clientId with
    | none => rfl
    | some scopes =>
      simp only [Option.map_some, Option.bind_some, reapScopes, Table.lookup_retain]
      cases scopes.consents.lookup subject with
      | none => rfl
      | some e =>
        simp only [Option.map_some, Option.filter_some]
        split <;> rfl

end MemoryInner

/-! ## What a call records -/

/-- Whether a barrier names the client, the family or the (client, subject) pair of a record. -/
def RevocationBarrier.Names (b : RevocationBarrier) (clientId : ClientId)
    (familyId subject : Option String) : Prop :=
  match b with
  | .client c => c = clientId
  | .tokenFamily f => familyId = some f
  | .consent c s => c = clientId ∧ subject = some s

namespace StorageOp

variable {clientId : ClientId} {window : RevocationWindow}

open MemoryInner

/-- The barrier a call records, if it records one. -/
def recorded (g : MemoryInner) : StorageOp → Option (RevocationBarrier × RevocationWindow)
  | deleteClient clientId window =>
    if clientId.isEmpty then none else some (.client clientId, window)
  | revokeTokenFamily familyId window =>
    if familyId.isEmpty then none else some (.tokenFamily familyId, window)
  | revokeConsent consentId window =>
    match g.consents.lookup consentId with
    | some consent =>
      if consent.clientId.isEmpty || consent.subject.isEmpty then none
      else some (.consent consent.clientId consent.subject, window)
    | none => none
  | _ => none

/-- A barrier is recorded by a revocation that names its scope. -/
inductive Records (g : MemoryInner) :
    StorageOp → RevocationBarrier → RevocationWindow → Prop where
  | client {id until_} (named : id.isEmpty = false) :
    Records g (deleteClient id until_) (.client id) until_
  | family {id until_} (named : id.isEmpty = false) :
    Records g (revokeTokenFamily id until_) (.tokenFamily id) until_
  | consent {id until_ row} (found : g.consents.lookup id = some row)
    (named : (row.clientId.isEmpty || row.subject.isEmpty) = false) :
    Records g (revokeConsent id until_) (.consent row.clientId row.subject) until_

def isSweep : StorageOp → Bool
  | sweepExpired _ => true
  | _ => false

variable {g : MemoryInner} {op : StorageOp}

theorem records_of_recorded {b : RevocationBarrier} (hrec : recorded g op = some (b, window)) :
    Records g op b window := by
  cases op with
  | deleteClient clientId window' | revokeTokenFamily familyId window' =>
    simp only [recorded] at hrec
    split at hrec
    · cases hrec
    · rename_i hne
      cases hrec
      constructor
      simpa using hne
  | revokeConsent consentId window' =>
    simp only [recorded] at hrec
    split at hrec
    · rename_i consent hlookup
      split at hrec
      · cases hrec
      · rename_i hne
        cases hrec
        exact .consent hlookup (by simpa using hne)
    · cases hrec
  | _ => cases hrec

theorem rejectEmptyScope_of_isEmpty (what : String) {value : String} (h : value.isEmpty = true) :
    ∃ e, rejectEmptyScope what value = .error e := by
  simp [rejectEmptyScope, h]

theorem rejectEmptyScope_of_not {what value : String} (h : value.isEmpty = false) :
    rejectEmptyScope what value = .ok () := by
  simp [rejectEmptyScope, h]

/-- The three revocations, once their identifiers were accepted. -/
theorem exec_deleteClient (h : clientId.isEmpty = false) :
    (exec g (.deleteClient clientId window)).2 =
      (({ g with clients := g.clients.erase clientId }).recordBarrier (.client clientId)
        window.recordedAt window.until_).cascadeClient clientId := by
  simp only [exec, MemoryInner.deleteClient, rejectEmptyScope_of_not h]

theorem exec_revokeTokenFamily {familyId : String} (h : familyId.isEmpty = false) :
    (exec g (.revokeTokenFamily familyId window)).2 =
      { g.recordBarrier (.tokenFamily familyId) window.recordedAt window.until_ with
        tokens := g.tokens.retain fun t => t.familyId ≠ some familyId
        refresh := g.refresh.retain fun r => r.familyId ≠ familyId } := by
  simp only [exec, MemoryInner.revokeTokenFamily, rejectEmptyScope_of_not h]
  rfl

theorem exec_revokeTokenFamily_empty {familyId : String} (h : familyId.isEmpty = true) :
    (exec g (.revokeTokenFamily familyId window)).2 = g := by
  obtain ⟨e, he⟩ := rejectEmptyScope_of_isEmpty "family_id" h
  simp only [exec, MemoryInner.revokeTokenFamily, he]

theorem exec_revokeConsent {consentId : String} {consent : ConsentRecord}
    (hlookup : g.consents.lookup consentId = some consent)
    (h : (consent.clientId.isEmpty || consent.subject.isEmpty) = false) :
    (exec g (.revokeConsent consentId window)).2 =
      (({ g with consents := g.consents.erase consentId }).recordBarrier
        (.consent consent.clientId consent.subject) window.recordedAt window.until_).cascadeConsent
          consent.clientId consent.subject := by
  obtain ⟨hc, hs⟩ := Bool.or_eq_false_iff.mp h
  simp only [exec, MemoryInner.revokeConsent, hlookup, rejectEmptyScope_of_not hc,
    rejectEmptyScope_of_not hs]

theorem barriers_exec (hrec : recorded g op = none) (hsweep : op.isSweep = false) :
    (exec g op).2.barriers = g.barriers := by
  rcases exec_cases g op with hsame | ⟨-, hwrites⟩
  · rw [hsame]
  generalize (exec g op).2 = g' at hwrites
  cases hwrites with
  | deleteClient _ named | revokeTokenFamily _ named => simp [recorded, named] at hrec
  | revokeConsent _ found named => simp [recorded, found, named] at hrec
  | sweepExpired now => cases hsweep
  | _ => rfl

/-- Barriers are read from the barrier map only. -/
theorem barrierAt_congr {g' : MemoryInner} (h : g'.barriers = g.barriers) (b : RevocationBarrier) :
    g'.barrierAt b = g.barrierAt b := by
  cases b <;> simp only [barrierAt, scopesAt, h]

/-- Only a sweep takes a barrier away, and a recorded barrier is merged in. -/
theorem barrierAt_exec (hsweep : op.isSweep = false) (b : RevocationBarrier) :
    (exec g op).2.barrierAt b =
      match recorded g op with
      | some (b', window) =>
        if b' = b then BarrierTimes.mergeInto (g.barrierAt b') window.recordedAt window.until_
        else g.barrierAt b
      | none => g.barrierAt b := by
  cases hrec : recorded g op with
  | none => exact barrierAt_congr (barriers_exec hrec hsweep) b
  | some entry =>
    obtain ⟨b', window⟩ := entry
    simp only
    cases records_of_recorded hrec with
    | @client clientId _ named =>
      rw [exec_deleteClient named]
      exact barrierAt_recordBarrier (g := { g with clients := g.clients.erase clientId }) ..
    | family named =>
      rw [exec_revokeTokenFamily named]
      exact barrierAt_recordBarrier ..
    | @consent consentId _ _ found named =>
      rw [exec_revokeConsent found named]
      exact barrierAt_recordBarrier (g := { g with consents := g.consents.erase consentId }) ..

theorem barrierAt_sweepExpired (now : SystemTime) (b : RevocationBarrier) :
    (exec g (.sweepExpired now)).2.barrierAt b =
      (g.barrierAt b).filter fun t => decide (now < t.until_) :=
  barrierAt_sweepRecords now b

/-- Replacing or adding a row keeps every client registered. -/
theorem contains_insert {t : Table Client.clientId} {c : Client} (h : t.contains clientId = true) :
    (t.insert c).contains clientId = true := by
  simp only [Table.contains, Table.lookup_insert]
  split
  · rfl
  · exact h

/-- A client row disappears only with a client barrier. -/
theorem contains_clients_exec (h : g.clients.contains clientId = true)
    (hrec : ∀ window, recorded g op ≠ some (.client clientId, window)) :
    (exec g op).2.clients.contains clientId = true := by
  rcases exec_cases g op with hsame | ⟨-, hwrites⟩
  · rwa [hsame]
  generalize (exec g op).2 = g' at hwrites
  cases hwrites with
  | putClient client | compareAndSwapClient found => exact contains_insert h
  | @deleteClient deleted window named =>
    have hne : deleted ≠ clientId := by
      rintro rfl
      exact hrec window (by simp [recorded, named])
    obtain ⟨c, hc, rfl⟩ := Table.contains_iff.mp h
    exact Table.contains_iff.mpr ⟨c, Table.mem_erase.mpr ⟨hc, fun e => hne e.symm⟩, rfl⟩
  | _ => exact h

/-- A record that no barrier covers stays uncovered by a call that records none for it. -/
theorem uncovered_exec {familyId subject : Option String} {established : SystemTime}
    (h : g.Uncovered clientId familyId subject established)
    (hrec : ∀ b window, recorded g op = some (b, window) → ¬ b.Names clientId familyId subject) :
    (exec g op).2.Uncovered clientId familyId subject established := by
  -- A barrier of the record's own that stands afterwards stood before, with the same instants.
  have hback : ∀ b t, b.Names clientId familyId subject →
      (exec g op).2.barrierAt b = some t → g.barrierAt b = some t := by
    intro b t hnames ht
    cases hsweep : op.isSweep with
    | true =>
      cases op with
      | sweepExpired now =>
        rw [barrierAt_sweepExpired] at ht
        exact (Option.filter_eq_some_iff.mp ht).1
      | _ => cases hsweep
    | false =>
      rw [barrierAt_exec hsweep] at ht
      cases hr : recorded g op with
      | none => simpa only [hr] using ht
      | some entry =>
        obtain ⟨b', window⟩ := entry
        have hne : b' ≠ b := by
          rintro rfl
          exact hrec b' window hr hnames
        simpa only [hr, if_neg hne] using ht
  refine ⟨?_, ?_, ?_⟩
  · intro f hf
    cases hb : (exec g op).2.barrierAt (.tokenFamily f) with
    | none => rfl
    | some t =>
      have := hback (.tokenFamily f) t hf hb
      rw [h.family f hf] at this
      cases this
  · intro t ht
    obtain ⟨hlt, hpresent⟩ := h.client t (hback (.client clientId) t rfl ht)
    refine ⟨hlt, contains_clients_exec hpresent ?_⟩
    intro window hr
    exact hrec _ window hr rfl
  · intro s t hs ht
    exact h.consent s t hs (hback (.consent clientId s) t ⟨rfl, hs⟩ ht)

/-! ## The cascade -/

/-- What is left of the token tables by a call that records a barrier. -/
theorem cascade_exec {b : RevocationBarrier} (hrec : recorded g op = some (b, window)) :
    (∀ t ∈ (exec g op).2.tokens, ¬ b.Names t.clientId t.familyId t.subject) ∧
    (∀ r ∈ (exec g op).2.refresh, ¬ b.Names r.clientId (some r.familyId) r.subject) ∧
    (∀ p ∈ (exec g op).2.pushed, ¬ b.Names p.clientId none none) := by
  cases records_of_recorded hrec with
  | client named =>
    rw [exec_deleteClient named]
    refine ⟨?_, ?_, ?_⟩
    · intro t ht hname
      simpa [hname.symm] using (Table.mem_retain.mp ht).2
    · intro r hr hname
      simpa [hname.symm] using (Table.mem_retain.mp hr).2
    · intro p hp hname
      simpa [hname.symm] using (Table.mem_retain.mp hp).2
  | family named =>
    rw [exec_revokeTokenFamily named]
    refine ⟨?_, ?_, ?_⟩
    · intro t ht hname
      have hkept := (Table.mem_retain.mp ht).2
      simp only [RevocationBarrier.Names] at hname
      simp [hname] at hkept
    · intro r hr hname
      have hkept := (Table.mem_retain.mp hr).2
      simp only [RevocationBarrier.Names, Option.some.injEq] at hname
      simp [hname] at hkept
    · intro p _ hname
      cases hname
  | consent found named =>
    rw [exec_revokeConsent found named]
    refine ⟨?_, ?_, ?_⟩
    · rintro t ht ⟨hc, hs⟩
      have hkept := (Table.mem_retain.mp ht).2
      simp [hc, hs] at hkept
    · rintro r hr ⟨hc, hs⟩
      have hkept := (Table.mem_retain.mp hr).2
      simp [hc, hs] at hkept
    · rintro p _ ⟨_, hs⟩
      cases hs

end StorageOp

/-! ## The invariant -/

/-- No stored access token, refresh record or pushed request is covered by a standing barrier. -/
structure MemoryInner.Unrevoked (g : MemoryInner) : Prop where
  tokens : ∀ t ∈ g.tokens, g.Uncovered t.clientId t.familyId t.subject t.grantEstablishedAt
  refresh : ∀ r ∈ g.refresh,
    g.Uncovered r.clientId (some r.familyId) r.subject r.grantEstablishedAt
  pushed : ∀ p ∈ g.pushed, g.Uncovered p.clientId none none p.pushedAt

/-- The access token and the refresh record belong to one grant. -/
def IssuedToken.SameGrant (t : IssuedToken) (r : RefreshTokenRecord) : Prop :=
  t.clientId = r.clientId ∧ t.familyId = some r.familyId ∧ t.subject = r.subject ∧
    t.grantEstablishedAt = r.grantEstablishedAt

/-- Two refresh records belong to one grant. -/
def RefreshTokenRecord.SameGrant (r s : RefreshTokenRecord) : Prop :=
  r.clientId = s.clientId ∧ r.familyId = s.familyId ∧ r.subject = s.subject ∧
    r.grantEstablishedAt = s.grantEstablishedAt

namespace StorageOp

open MemoryInner

/-- A rotation's records carry the grant of the record it replaces. -/
def KeepsGrant : StorageOp → Prop
  | rotateRefreshToken expected spent access next =>
    spent.SameGrant expected ∧ access.SameGrant expected ∧
      ∀ n, next = some n → n.SameGrant expected
  | _ => True

variable {g : MemoryInner} {op : StorageOp}

theorem Rotates.uncovered {expected : RefreshTokenRecord} (h : Rotates g expected) :
    g.Uncovered expected.clientId (some expected.familyId) expected.subject
      expected.grantEstablishedAt :=
  isRevoked_eq_false.mp h.2

/-- One call keeps the invariant. -/
theorem unrevoked_exec (h : g.Unrevoked) (hop : op.KeepsGrant) : (exec g op).2.Unrevoked := by
  refine ⟨?_, ?_, ?_⟩
  · intro t ht
    refine uncovered_exec ?_ fun b window hrec => (cascade_exec hrec).1 t ht
    rcases mem_tokens_exec rfl ht with hold | ⟨-, hrev⟩ | ⟨expected, spent, next, rfl, hrot⟩
    · exact h.tokens t hold
    · exact isRevoked_eq_false.mp hrev
    · obtain ⟨hc, hf, hs, hg⟩ := hop.2.1
      rw [hc, hf, hs, hg]
      exact hrot.uncovered
  · intro r hr
    refine uncovered_exec ?_ fun b window hrec => (cascade_exec hrec).2.1 r hr
    rcases mem_refresh_exec rfl hr with hold | ⟨-, hrev⟩ | ⟨expected, spent, access, next, rfl, hrot, hnew⟩
    · exact h.refresh r hold
    · exact isRevoked_eq_false.mp hrev
    · have hsame : r.SameGrant expected := by
        rcases hnew with rfl | hnext
        · exact hop.1
        · exact hop.2.2 r hnext
      obtain ⟨hc, hf, hs, hg⟩ := hsame
      rw [hc, hf, hs, hg]
      exact hrot.uncovered
  · intro p hp
    refine uncovered_exec ?_ fun b window hrec => (cascade_exec hrec).2.2 p hp
    rcases mem_pushed_exec rfl hp with hold | ⟨-, hrev⟩
    · exact h.pushed p hold
    · exact isRevoked_eq_false.mp hrev

/-- The store after a sequence of calls. -/
def execAll (g : MemoryInner) (ops : List StorageOp) : MemoryInner :=
  ops.foldl (fun g op => (exec g op).2) g

theorem unrevoked_execAll {ops : List StorageOp} (hops : ∀ op ∈ ops, op.KeepsGrant) :
    ∀ {g : MemoryInner}, g.Unrevoked → (execAll g ops).Unrevoked := by
  induction ops with
  | nil => exact fun h => h
  | cons op ops ih =>
    intro g h
    exact ih (fun o ho => hops o (List.mem_cons_of_mem _ ho))
      (unrevoked_exec h (hops op List.mem_cons_self))

theorem unrevoked_empty : MemoryInner.empty.Unrevoked := by
  constructor <;> exact fun _ h => absurd h Table.mem_empty

/-- In every store that calls reach from the empty one, nothing stored is covered by a standing
barrier. -/
theorem barrier_invariant (ops : List StorageOp) (hops : ∀ op ∈ ops, op.KeepsGrant) :
    (execAll MemoryInner.empty ops).Unrevoked :=
  unrevoked_execAll hops unrevoked_empty

/-- A rotation, a revocation of another family and the revocation of this one: the successor is
stored after the first three calls and gone after the fourth, under a barrier. -/
theorem barrier_invariant_rotation :
    let first := RefreshTokenRecord.new "r1" "app" (some "user") .empty "f1"
    let next := RefreshTokenRecord.new "r2" "app" (some "user") .empty "f1"
    let access := { IssuedToken.new "a1" "app" (some "user") .empty 0 60 with familyId := some "f1" }
    let rotate := rotateRefreshToken first { first with state := .spent } access (some next)
    let before := [putRefreshToken first, rotate, revokeTokenFamily "f0" ⟨1, 60⟩]
    let after := before ++ [revokeTokenFamily "f1" ⟨2, 60⟩]
    (execAll .empty before).refresh.lookup "r2" = some next ∧
      (execAll .empty after).refresh.lookup "r2" = none ∧
      (execAll .empty after).barrierAt (.tokenFamily "f1") = some ⟨2, 60⟩ ∧
      (execAll .empty before).Unrevoked ∧ (execAll .empty after).Unrevoked := by
  refine ⟨by decide, by decide, by decide, ?_, ?_⟩
  · refine barrier_invariant _ ?_
    simp [KeepsGrant, RefreshTokenRecord.SameGrant, IssuedToken.SameGrant, RefreshTokenRecord.new,
      IssuedToken.new]
  · refine barrier_invariant _ ?_
    simp [KeepsGrant, RefreshTokenRecord.SameGrant, IssuedToken.SameGrant, RefreshTokenRecord.new,
      IssuedToken.new]

end StorageOp

end OauthAs
