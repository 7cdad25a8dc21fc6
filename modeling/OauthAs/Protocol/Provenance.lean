-- SUMMARY: Where refresh records and access tokens come from: one minting request each, one grant per string.
import OauthAs.Protocol.Fresh

/-!
# Provenance

A refresh record is known if it is stored or some request has read, holds, spent or wrote it. One
move of the server makes a record known only by deriving it from one that was known, under the
same string and for the same grant, or by minting it under a string drawn for it (`known_step`).
Hence every string a refresh record was ever filed under belongs to one request and to one grant,
and every family goes back to the request that redeemed the grant.
-/

namespace OauthAs

/-- The refresh records a request has read, holds, spent or wrote. -/
def ChainLedger.records (c : ChainLedger) : List RefreshTokenRecord :=
  c.reads ++ c.held.toList ++ c.rotated.toList ++ c.successor.toList

theorem ChainLedger.mem_records {c : ChainLedger} {r : RefreshTokenRecord} :
    r ∈ c.records ↔
      r ∈ c.reads ∨ c.held = some r ∨ c.rotated = some r ∨ c.successor = some r := by
  simp [records]

def Known (w : World) (ls : List Ledger) (r : RefreshTokenRecord) : Prop :=
  r ∈ w.store.refresh ∨ ∃ l ∈ ls, r ∈ l.chain.records

namespace RefreshTokenRecord.SameGrant

theorem refl (r : RefreshTokenRecord) : r.SameGrant r := ⟨rfl, rfl, rfl, rfl⟩

theorem trans {r s t : RefreshTokenRecord} (h : r.SameGrant s) (h' : s.SameGrant t) :
    r.SameGrant t :=
  ⟨h.1.trans h'.1, h.2.1.trans h'.2.1, h.2.2.1.trans h'.2.2.1, h.2.2.2.trans h'.2.2.2⟩

theorem symm {r s : RefreshTokenRecord} (h : r.SameGrant s) : s.SameGrant r :=
  ⟨h.1.symm, h.2.1.symm, h.2.2.1.symm, h.2.2.2.symm⟩

end RefreshTokenRecord.SameGrant

/-- The spent form of an active record. -/
structure RefreshTokenRecord.SpentFrom (r s : RefreshTokenRecord) : Prop where
  key : r.refreshToken = s.refreshToken
  grant : r.SameGrant s
  terms : r.terms = s.terms
  spent : r.state = .spent
  active : s.state = .active

/-- A record is only ever written again as it was, or spent. -/
def RefreshTokenRecord.Derives (r s : RefreshTokenRecord) : Prop := r = s ∨ r.SpentFrom s

namespace RefreshTokenRecord.Derives

variable {r s : RefreshTokenRecord}

theorem key (h : r.Derives s) : r.refreshToken = s.refreshToken := by
  rcases h with rfl | h
  · rfl
  · exact h.key

theorem grant (h : r.Derives s) : r.SameGrant s := by
  rcases h with rfl | h
  · exact .refl r
  · exact h.grant

theorem terms (h : r.Derives s) : r.terms = s.terms := by
  rcases h with rfl | h
  · rfl
  · exact h.terms

theorem eq_of_active (h : r.Derives s) (hactive : r.state = .active) : r = s := by
  rcases h with rfl | h
  · rfl
  · cases h.spent.symm.trans hactive

end RefreshTokenRecord.Derives

namespace StorageOp

variable {r : RefreshTokenRecord} {op : StorageOp} {a : op.Result} {g g' : MemoryInner}

/-- The answers that give a refresh record to the caller. -/
inductive Finds (r : RefreshTokenRecord) : (op : StorageOp) → op.Result → Prop
  | read (x : String) : Finds r (.getRefreshToken x) (some r)
  | taken (x : String) : Finds r (.takeRefreshToken x) (some r)
  | rotated (spent : RefreshTokenRecord) (access : IssuedToken) (next : Option RefreshTokenRecord) :
      Finds r (.rotateRefreshToken r spent access next) true

theorem Finds.mem (h : op.Finds r a) (hexec : op.exec g = (.ok a, g')) : r ∈ g.refresh := by
  cases h with
  | read x | taken x => exact Table.mem_of_lookup (Except.ok.inj (Prod.ext_iff.mp hexec).1)
  | rotated spent access next =>
    by_cases hrot : Rotates g r
    · exact Table.mem_of_lookup hrot.1
    · rw [exec_rotateRefreshToken_of_not hrot] at hexec
      cases hexec

/-- The answers after which a refresh record is stored. -/
inductive Files (r : RefreshTokenRecord) : (op : StorageOp) → op.Result → Prop
  | put : Files r (.putRefreshToken r) .applied
  | rotated (expected spent : RefreshTokenRecord) (access : IssuedToken) :
      Files r (.rotateRefreshToken expected spent access (some r)) true

theorem Files.mem (h : op.Files r a) (hexec : op.exec g = (.ok a, g')) : r ∈ g'.refresh := by
  cases h with
  | put =>
    simp only [exec, succeeding, MemoryInner.putRefreshToken] at hexec
    split at hexec
    · cases hexec
    · cases hexec
      exact Table.mem_insert_self
  | rotated expected spent access =>
    by_cases hrot : Rotates g expected
    · rw [exec_rotateRefreshToken_of hrot] at hexec
      cases hexec
      exact Table.mem_insert_self
    · rw [exec_rotateRefreshToken_of_not hrot] at hexec
      cases hexec

end StorageOp

namespace Ledger

variable {srv : Server} {l l' : Ledger} {g g' : MemoryInner} {op : StorageOp}
  {r : RefreshTokenRecord}
variable {clientId : ClientId} {familyId : String} {subject : Option String}
  {established : SystemTime} {a : op.Result} {t : IssuedToken}

/-- A request that starts a family for the grant it redeemed. -/
structure Roots (srv : Server) (l : Ledger) (clientId : ClientId) (familyId : String)
    (subject : Option String) (established : SystemTime) : Prop where
  first : l.request.isRefresh = false
  family : ∃ e, l.issue.entropy = some e ∧ familyId = e.family.text
  grant : l.Grants srv clientId (some familyId) subject established

/-- Whoever issues tokens of a family without refreshing starts the family. -/
theorem roots_of_grants (hq : l.request.isRefresh = false)
    (h : l.Grants srv clientId (some familyId) subject established) :
    l.Roots srv clientId familyId subject established := by
  refine ⟨hq, ?_, h⟩
  unfold Grants at h
  split at h
  · obtain ⟨c, -, -, -, -, hown⟩ := h
    exact hown familyId rfl
  · obtain ⟨-, d, s, taken, -, -, -, -, -, -, -, -, hown⟩ := h
    exact hown familyId rfl
  · exact nomatch h.2.2
  · rename_i p hp
    rw [hp] at hq
    cases hq
  · obtain ⟨t, -, -, -, -, -, hnone⟩ := h
    exact nomatch hnone
  · exact h.elim

/-- Tokens of a family are issued for a record of it, or by the request that starts it. -/
theorem grants_cases (h : l.Grants srv clientId (some familyId) subject established) :
    (∃ r ∈ l.chain.records, clientId = r.clientId ∧ familyId = r.familyId ∧
      subject = r.subject ∧ established = r.grantEstablishedAt) ∨
    l.Roots srv clientId familyId subject established := by
  cases hq : l.request.isRefresh with
  | false => exact .inr (roots_of_grants hq h)
  | true =>
    obtain ⟨p, hp⟩ : ∃ p, l.request = .refreshToken p := by
      cases hr : l.request <;> rw [hr] at hq <;> first | exact ⟨_, rfl⟩ | cases hq
    simp only [Grants, hp] at h
    obtain ⟨r, hcontinues, -, hclient, hfamily, hsubject, hestablished, -⟩ := h
    refine .inl ⟨r, ChainLedger.mem_records.mpr ?_, hclient, Option.some.inj hfamily, hsubject,
      hestablished⟩
    rcases hcontinues with hrotated | ⟨-, hread⟩
    · exact .inr (.inr (.inl hrotated))
    · exact .inl hread

theorem OwnFamily.mono {familyId : Option String} (hg : l.Grows l') (h : l.OwnFamily familyId) :
    l'.OwnFamily familyId := by
  intro f hf
  obtain ⟨e, he, hfe⟩ := h f hf
  exact ⟨e, hg.entropy e he, hfe⟩

theorem Grants.mono {familyId : Option String} (hg : l.Grows l')
    (h : l.Grants srv clientId familyId subject established) :
    l'.Grants srv clientId familyId subject established := by
  unfold Grants at h ⊢
  rw [hg.request]
  split at h
  · obtain ⟨c, hc, h1, h2, h3, hown⟩ := h
    exact ⟨c, hg.redeemed c hc, h1, h2, h3, hown.mono hg⟩
  · obtain ⟨hc, d, s, taken, hd, hdc, hcl, hs, hsub, ht, htc, hest, hown⟩ := h
    exact ⟨hc, d, s, taken, hg.seen hd, hdc, hcl, hs, hsub, hg.taken _ ht, htc, hest, hown.mono hg⟩
  · exact h
  · obtain ⟨r, hcontinues, hrest⟩ := h
    exact ⟨r, hcontinues.imp (hg.rotated r) (And.imp_right fun hr => hg.reads hr), hrest⟩
  · obtain ⟨t, ht, hrest⟩ := h
    exact ⟨t, hg.found ht, hrest⟩
  · exact h

theorem Permits.mono {scope : ScopeSet} (hg : l.Grows l') (h : l.Permits clientId scope) :
    l'.Permits clientId scope := by
  obtain ⟨client, hread, hrest⟩ := h
  exact ⟨client, hg.clients hread, hrest⟩

theorem Draws.mono {t : Terms} (hg : l.Grows l') (h : l.Draws srv t) : l'.Draws srv t := by
  unfold Draws at h ⊢
  rw [hg.request]
  split at h
  · obtain ⟨c, hc, hoffers⟩ := h
    exact ⟨c, hg.redeemed c hc, hoffers⟩
  · obtain ⟨r, hcontinues, hrest⟩ := h
    exact ⟨r, hcontinues.imp (hg.rotated r) (And.imp_right fun hr => hg.reads hr), hrest⟩
  · obtain ⟨d, hd, hrest⟩ := h
    exact ⟨d, hg.taken d hd, hrest⟩
  · exact h.mono hg
  · exact h.mono hg
  · exact h

theorem Roots.mono (hg : l.Grows l') (h : l.Roots srv clientId familyId subject established) :
    l'.Roots srv clientId familyId subject established := by
  refine ⟨?_, ?_, h.grant.mono hg⟩
  · rw [hg.request]
    exact h.first
  · obtain ⟨e, he, hf⟩ := h.family
    exact ⟨e, hg.entropy e he, hf⟩

/-- A request that writes a record under a string of its own. -/
structure Mints (srv : Server) (l : Ledger) (r : RefreshTokenRecord) : Prop where
  first : l.chain.successor = none
  key : ∃ e, l.issue.entropy = some e ∧ r.refreshToken = e.refresh.text
  active : r.state = .active
  grant : (∃ s ∈ l.chain.records, r.Inherits srv s) ∨
    (l.Roots srv r.clientId r.familyId r.subject r.grantEstablishedAt ∧ l.Draws srv r.terms)

/-- A refresh mints the successor of the record it spent, any other request the first record of a
family. -/
theorem minted_grant
    (hgrant : l.Grants srv r.clientId (some r.familyId) r.subject r.grantEstablishedAt)
    (hdraws : l.Draws srv r.terms)
    (hchain : ∀ p, l.request = .refreshToken p →
      ∃ s, l.chain.rotated = some s ∧ r.Inherits srv s) :
    (∃ s ∈ l.chain.records, r.Inherits srv s) ∨
      (l.Roots srv r.clientId r.familyId r.subject r.grantEstablishedAt ∧
        l.Draws srv r.terms) := by
  cases hq : l.request with
  | refreshToken p =>
    obtain ⟨s, hs, hinherits⟩ := hchain p hq
    exact .inl ⟨s, ChainLedger.mem_records.mpr (.inr (.inr (.inl hs))), hinherits⟩
  | _ => exact .inr ⟨roots_of_grants (by rw [hq]; rfl) hgrant, hdraws⟩

/-- What a request may write is derived from a record it knows, or minted: then it becomes the
request's successor. -/
theorem WritesRefresh.cases (h : l.WritesRefresh srv r) :
    (∃ s ∈ l.chain.records, r.Derives s) ∨
      (l.Mints srv r ∧ (l.chain.put r).successor = some r) := by
  cases h with
  | putBack request presented held =>
    exact .inl ⟨r, ChainLedger.mem_records.mpr (.inr (.inl held)), .inl rfl⟩
  | spend request strict held active presented unrotated key grant terms spent =>
    refine .inl ⟨_, ChainLedger.mem_records.mpr (.inr (.inl held)), .inr ?_⟩
    exact ⟨key, grant, terms, spent, active⟩
  | putUnheld request presented free idle read odd =>
    exact .inl ⟨r, ChainLedger.mem_records.mpr (.inl read), .inl rfl⟩
  | mint free right first drawn key active grant draws chain =>
    refine .inr ⟨⟨first, ⟨_, drawn, key⟩, active, ?_⟩, ?_⟩
    · exact minted_grant grant draws chain
    · simp [ChainLedger.put, free, right]

/-- The records a request has found and not merely written. -/
def Found (l : Ledger) (r : RefreshTokenRecord) : Prop :=
  r ∈ l.chain.reads ∨ l.chain.held = some r ∨ l.chain.rotated = some r

theorem mem_records : r ∈ l.chain.records ↔ l.Found r ∨ l.chain.successor = some r := by
  rw [ChainLedger.mem_records, Found, or_assoc, or_assoc]

theorem found_put {record : RefreshTokenRecord}
    (h : Found { l with chain := l.chain.put record } r) : l.Found r := by
  simp only [Found, ChainLedger.put] at h
  split at h
  · rename_i held hheld
    split at h
    · rcases h with hread | hnone | hrotated
      · exact .inl hread
      · cases hnone
      · cases hrotated
        exact .inr (.inl hheld)
    · rcases h with hread | hnone | hrotated
      · exact .inl hread
      · cases hnone
      · exact .inr (.inr hrotated)
  · split at h <;> exact h

/-- A request finds a record by reading, taking or rotating it. -/
theorem finds_of_stored (h : (l.stored op a).Found r) : l.Found r ∨ op.Finds r a := by
  cases op with
  | getRefreshToken x =>
    cases a with
    | none => exact .inl h
    | some record =>
      rcases h with hread | hrest
      · rcases List.mem_cons.mp hread with rfl | hread
        · exact .inr (.read x)
        · exact .inl (.inl hread)
      · exact .inl (.inr hrest)
  | takeRefreshToken x =>
    rcases h with hread | hheld | hrotated
    · exact .inl (.inl hread)
    · cases (hheld : a = some r)
      exact .inr (.taken x)
    · exact .inl (.inr (.inr hrotated))
  | putRefreshToken record =>
    cases a with
    | refusedRevoked =>
      rcases h with hread | hnone | hrotated
      · exact .inl (.inl hread)
      · cases hnone
      · exact .inl (.inr (.inr hrotated))
    | applied => exact .inl (found_put h)
  | rotateRefreshToken expected spent access next =>
    cases a with
    | false => exact .inl h
    | true =>
      rcases h with hread | hheld | hrotated
      · exact .inl (.inl hread)
      · exact .inl (.inr (.inl hheld))
      · cases hrotated
        exact .inr (.rotated spent access next)
  | _ => first | exact .inl h | (cases a <;> exact .inl h)

theorem files_of_stored (h : (l.stored op a).chain.successor = some r) :
    l.chain.successor = some r ∨ op.Files r a := by
  cases op with
  | putRefreshToken record =>
    cases a with
    | refusedRevoked => exact .inl h
    | applied =>
      simp only [stored, ChainLedger.put] at h
      split at h
      · split at h <;> exact .inl h
      · split at h
        · cases h
          exact .inr .put
        · exact .inl h
  | rotateRefreshToken expected spent access next =>
    cases a with
    | false => exact .inl h
    | true =>
      cases h
      exact .inr (.rotated expected spent access)
  | _ => first | exact .inl h | (cases a <;> exact .inl h)

/-- What a storage call makes a request know was stored, before or after the call. -/
theorem mem_records_stored (hexec : op.exec g = (.ok a, g'))
    (h : r ∈ (l.stored op a).chain.records) : r ∈ l.chain.records ∨ r ∈ g.refresh ∨ r ∈ g'.refresh := by
  rw [mem_records] at h ⊢
  rcases h with hfound | hsuccessor
  · rcases finds_of_stored hfound with hfound | hfinds
    · exact .inl (.inl hfound)
    · exact .inr (.inl (hfinds.mem hexec))
  · rcases files_of_stored hsuccessor with hsuccessor | hfiles
    · exact .inl (.inr hsuccessor)
    · exact .inr (.inr (hfiles.mem hexec))

/-- A rotation leaves the record's spent form, and mints what it rotates into. -/
theorem Rotates.spent {p : RefreshPresentation} {expected spent : RefreshTokenRecord}
    {access : IssuedToken} {next : Option RefreshTokenRecord}
    (h : l.Rotates srv p expected spent access next) :
    spent.SpentFrom expected := by
  obtain ⟨d, -, -, -, rfl, -⟩ := h.cached
  exact ⟨rfl, ⟨rfl, rfl, rfl, rfl⟩, rfl, rfl, h.active⟩

/-- What a rotation writes belongs to the grant of the record it rotates. -/
theorem keepsGrant_of_mayStore (may : l.MayStore srv op) : op.KeepsGrant := by
  cases op with
  | rotateRefreshToken expected spent access next =>
    obtain ⟨p, may⟩ := may
    exact ⟨may.spent.grant, may.grant, fun n hn => (may.successor n hn).2.1⟩
  | _ => trivial

theorem Rotates.mints {p : RefreshPresentation} {expected spent : RefreshTokenRecord}
    {access : IssuedToken} (h : l.Rotates srv p expected spent access (some r)) :
    l.Mints srv r := by
  obtain ⟨hactive, hgrant, hterms, hexpiry, hkey⟩ := h.successor r rfl
  refine ⟨h.first, hkey, hactive, .inl ⟨expected, ChainLedger.mem_records.mpr (.inl h.read), ?_⟩⟩
  exact ⟨h.active, hgrant, hterms ▸ h.offers, hexpiry⟩

/-- A row of the refresh table after a call was derived from a known record, or minted. -/
theorem refresh_stored (may : l.MayStore srv op) (hexec : op.exec g = (.ok a, g'))
    (h : r ∈ g'.refresh) :
    (∃ s, (s ∈ g.refresh ∨ s ∈ l.chain.records) ∧ r.Derives s) ∨
      (l.Mints srv r ∧ (l.stored op a).chain.successor = some r) := by
  rcases StorageOp.mem_refresh_exec hexec h with
    hold | ⟨rfl, hrev⟩ | ⟨expected, spent, access, next, rfl, hrot, hnew⟩
  · exact .inl ⟨r, .inl hold, .inl rfl⟩
  · simp only [StorageOp.exec, StorageOp.succeeding, MemoryInner.putRefreshToken, hrev] at hexec
    cases hexec
    rcases WritesRefresh.cases may with ⟨s, hs, hderives⟩ | hmints
    · exact .inl ⟨s, .inr hs, hderives⟩
    · exact .inr hmints
  · obtain ⟨p, hmay⟩ := may
    rw [StorageOp.exec_rotateRefreshToken_of hrot] at hexec
    cases hexec
    rcases hnew with rfl | rfl
    · exact .inl ⟨expected, .inl (Table.mem_of_lookup hrot.1), .inr hmay.spent⟩
    · exact .inr ⟨hmay.mints, rfl⟩

/-! ## What one ledger says -/

/-- A ledger's successor and access token are filed under the strings drawn for them, the right to
mint is for the family it started or spent a record of, and a request spends only what it
presents. -/
structure Coherent (srv : Server) (l : Ledger) : Prop where
  successor : ∀ n, l.chain.successor = some n →
    ∃ e, l.issue.entropy = some e ∧ n.refreshToken = e.refresh.text
  mint : ∀ f, l.chain.mint = some f →
    (l.request.isRefresh = false ∧ ∃ e, l.issue.entropy = some e ∧ f = e.family.text) ∨
      ∃ r, l.chain.rotated = some r ∧ f = r.familyId
  access : ∀ t, l.issue.access = some t → l.accessKey srv = some t.accessToken
  rotated : ∀ r, l.chain.rotated = some r →
    ∃ p, l.request = .refreshToken p ∧ r.refreshToken = p.refreshToken

theorem coherent_start (q : Request) : (start q).Coherent srv := by
  constructor <;> simp [start]

/-- A call adds a successor only by minting it. -/
theorem successor_stored (may : l.MayStore srv op) (h : (l.stored op a).chain.successor = some r) :
    l.chain.successor = some r ∨ l.Mints srv r := by
  cases op with
  | putRefreshToken s =>
    cases a with
    | refusedRevoked => exact .inl h
    | applied =>
      cases may with
      | putBack request presented held
      | spend request strict held active presented unrotated key grant terms spent =>
        simp only [stored, ChainLedger.put, held] at h
        split at h <;> exact .inl h
      | putUnheld request presented free idle read odd =>
        simp only [stored, ChainLedger.put, free, idle] at h
        exact .inl h
      | mint free right first drawn key active grant draws chain =>
        simp only [stored, ChainLedger.put, free, right, if_pos] at h
        cases h
        exact .inr ⟨first, ⟨_, drawn, key⟩, active, minted_grant grant draws chain⟩
  | rotateRefreshToken expected spent access next =>
    cases a with
    | false => exact .inl h
    | true =>
      obtain ⟨p, hmay⟩ := may
      cases h
      exact .inr hmay.mints
  | _ => first | exact .inl h | (cases a <;> exact .inl h)

/-- A call adds the right to mint only by spending a record. -/
theorem mint_stored {f : String} (h : (l.stored op a).chain.mint = some f) :
    l.chain.mint = some f ∨ ∃ s, (l.stored op a).chain.rotated = some s ∧ f = s.familyId := by
  cases op with
  | putRefreshToken s =>
    cases a with
    | refusedRevoked => exact .inl h
    | applied =>
      simp only [stored, ChainLedger.put] at h ⊢
      split at h
      · rename_i held hheld
        split at h
        · rename_i hspends
          cases h
          exact .inr ⟨held, by simp [hspends], rfl⟩
        · exact .inl h
      · split at h
        · cases h
        · exact .inl h
  | _ => first | exact .inl h | (cases a <;> exact .inl h)

/-- A call spends only the record the request presents. -/
theorem rotated_stored (may : l.MayStore srv op) (h : (l.stored op a).chain.rotated = some r) :
    l.chain.rotated = some r ∨ ∃ p, l.request = .refreshToken p ∧ r.refreshToken = p.refreshToken := by
  cases op with
  | putRefreshToken s =>
    cases a with
    | refusedRevoked => exact .inl h
    | applied =>
      simp only [stored, ChainLedger.put] at h
      split at h
      · rename_i held hheld
        split at h
        · rename_i hspends
          cases h
          cases may with
          | putBack request presented held' =>
            cases hheld.symm.trans held'
            cases hspends.1.symm.trans hspends.2
          | spend request strict held' active presented unrotated key grant terms spent =>
            cases hheld.symm.trans held'
            exact .inr ⟨_, request, presented⟩
          | putUnheld request presented free idle read odd
          | mint free right first drawn key active grant draws chain => cases hheld.symm.trans free
        · exact .inl h
      · split at h <;> exact .inl h
  | rotateRefreshToken expected spent access next =>
    cases a with
    | false => exact .inl h
    | true =>
      obtain ⟨p, hmay⟩ := may
      cases h
      exact .inr ⟨p, hmay.request, hmay.presented⟩
  | _ => first | exact .inl h | (cases a <;> exact .inl h)

/-- A call adds an access token only by writing it, for a record the request knows or for the
family it starts. -/
theorem access_stored (may : l.MayStore srv op) (h : (l.stored op a).issue.access = some t) :
    l.issue.access = some t ∨ (l.WritesAccess srv t ∧ ∀ f, t.familyId = some f →
      (∃ r ∈ l.chain.records, t.clientId = r.clientId ∧ f = r.familyId ∧ t.subject = r.subject ∧
        t.grantEstablishedAt = r.grantEstablishedAt) ∨
      l.Roots srv t.clientId f t.subject t.grantEstablishedAt) := by
  cases op with
  | putToken s =>
    cases a with
    | refusedRevoked => exact .inl h
    | applied =>
      cases h
      refine .inr ⟨may.1, fun f hf => grants_cases ?_⟩
      rw [← hf]
      exact may.2.1
  | rotateRefreshToken expected spent access next =>
    cases a with
    | false => exact .inl h
    | true =>
      obtain ⟨p, hmay⟩ := may
      cases h
      obtain ⟨hclient, hfamily, hsubject, hestablished⟩ := hmay.grant
      refine .inr ⟨hmay.writes, fun f hf => .inl ⟨expected, ?_, hclient, ?_, hsubject,
        hestablished⟩⟩
      · exact ChainLedger.mem_records.mpr (.inl hmay.read)
      · exact Option.some.inj (hf.symm.trans hfamily)
  | _ => first | exact .inl h | (cases a <;> exact .inl h)

/-- A row of the token table was there before, or is the access token the request wrote. -/
theorem tokens_stored (hexec : op.exec g = (.ok a, g')) (h : t ∈ g'.tokens) :
    t ∈ g.tokens ∨ (l.stored op a).issue.access = some t := by
  rcases StorageOp.mem_tokens_exec hexec h with hold | ⟨rfl, hrev⟩ | ⟨expected, spent, next, rfl, hrot⟩
  · exact .inl hold
  · simp only [StorageOp.exec, StorageOp.succeeding, MemoryInner.putToken, hrev] at hexec
    cases hexec
    exact .inr rfl
  · rw [StorageOp.exec_rotateRefreshToken_of hrot] at hexec
    cases hexec
    exact .inr rfl

theorem found_stored (hexec : op.exec g = (.ok a, g')) (h : t ∈ (l.stored op a).issue.found) :
    t ∈ l.issue.found ∨ t ∈ g.tokens := by
  cases op with
  | getToken x =>
    cases a with
    | none => exact .inl h
    | some s =>
      have hlookup : g.tokens.lookup x = some s := Except.ok.inj (Prod.ext_iff.mp hexec).1
      rcases List.mem_cons.mp h with rfl | h
      · exact .inr (Table.mem_of_lookup hlookup)
      · exact .inl h
  | _ => first | exact .inl h | (cases a <;> exact .inl h)

/-- An access token's string is never drawn again. -/
theorem accessKey_mono {x : String} (hg : l.Grows l') (h : l.accessKey srv = some x) :
    l'.accessKey srv = some x := by
  unfold accessKey at h ⊢
  split at h
  · obtain ⟨e, he, hx⟩ := Option.map_eq_some_iff.mp h
    exact Option.map_eq_some_iff.mpr ⟨e, hg.entropy e he, hx⟩
  · exact hg.wire x h

/-- A request drew the string of the access token it wrote. -/
theorem Coherent.access_drawn {w : World} (h : l.Coherent srv) (hacc : l.Accounted w)
    (ht : l.issue.access = some t) : t.accessToken ∈ l.drawn := by
  have hkey := h.access t ht
  unfold accessKey at hkey
  split at hkey
  · obtain ⟨e, he, hte⟩ := Option.map_eq_some_iff.mp hkey
    rw [← hte]
    exact hacc.entropy e he _ (by simp [World.drawnStrings])
  · exact hacc.wire _ hkey

theorem Coherent.stored (h : l.Coherent srv) (may : l.MayStore srv op) :
    (l.stored op a).Coherent srv := by
  have hg : l.Grows (l.stored op a) := grows_stored may
  refine ⟨?_, ?_, ?_, ?_⟩
  · intro n hn
    have hkey : ∃ e, l.issue.entropy = some e ∧ n.refreshToken = e.refresh.text :=
      (successor_stored may hn).elim (h.successor n) Mints.key
    obtain ⟨e, he, hkey⟩ := hkey
    exact ⟨e, hg.entropy e he, hkey⟩
  · intro f hf
    rcases mint_stored hf with hold | hnew
    · rcases h.mint f hold with ⟨hq, e, he, hfam⟩ | ⟨r, hr, hfam⟩
      · exact .inl ⟨by rw [hg.request, hq], e, hg.entropy e he, hfam⟩
      · exact .inr ⟨r, hg.rotated r hr, hfam⟩
    · exact .inr hnew
  · intro t ht
    rcases access_stored may ht with hold | hwrites
    · exact accessKey_mono hg (h.access t hold)
    · exact accessKey_mono hg hwrites.1.key
  · intro r hr
    rw [hg.request]
    exact (rotated_stored may hr).elim (h.rotated r) id

theorem Coherent.draws (h : l.Coherent srv) (first : l.issue.entropy = none) (e : TokenEntropy) :
    (l.next .tokenEntropy (some e)).Coherent srv := by
  have hg : l.Grows (l.next .tokenEntropy (some e)) := grows_draws first
  refine ⟨?_, ?_, fun t ht => accessKey_mono hg (h.access t ht), h.rotated⟩
  · intro n hn
    obtain ⟨e', he', -⟩ := h.successor n hn
    rw [first] at he'
    cases he'
  · intro f hf
    simp only [next] at hf
    cases hq : l.request.isRefresh with
    | false =>
      rw [hq] at hf
      cases hf
      exact .inl ⟨hq, e, rfl, rfl⟩
    | true =>
      rw [hq] at hf
      rcases h.mint f hf with ⟨hq', -⟩ | hr
      · rw [hq] at hq'
        cases hq'
      · exact .inr hr

theorem Coherent.aside (h : l.Coherent srv) (ha : l.Aside l') : l'.Coherent srv := by
  refine ⟨?_, ?_, ?_, ?_⟩
  · rw [ha.chain, ha.entropy]
    exact h.successor
  · rw [ha.chain, ha.entropy, ha.grows.request]
    exact h.mint
  · rw [ha.access]
    exact fun t ht => accessKey_mono ha.grows (h.access t ht)
  · rw [ha.chain, ha.grows.request]
    exact h.rotated

end Ledger

/-! ## What the running server knows -/

section Known
variable {srv : Server} {w w' : World} {ls ls' : List Ledger} {r : RefreshTokenRecord}
variable {t : IssuedToken} {l : Ledger}

theorem Known.of_record (hl : l ∈ ls) (h : r ∈ l.chain.records) : Known w ls r :=
  .inr ⟨l, hl, h⟩

/-- The step lemma of provenance. -/
theorem known_step (h : srv.Turns w ls w' ls') (hr : Known w' ls' r) :
    (∃ s, Known w ls s ∧ r.Derives s) ∨
      ∃ l ∈ ls, ∃ l' ∈ ls', l.Grows l' ∧ l.Mints srv r ∧ l'.chain.successor = some r := by
  have hsame : Known w ls r → ∃ s, Known w ls s ∧ r.Derives s := fun h => ⟨r, h, .inl rfl⟩
  cases h.changes with
  | quiet now w' ls' store ledgers =>
    refine .inl (hsame (hr.imp (store.refresh rfl).mem ?_))
    rintro ⟨m, hm, hmr⟩
    rcases ledgers m hm with ⟨q, rfl⟩ | ⟨l, hl, halike⟩
    · cases hmr
    · obtain ⟨mint, hchain⟩ := halike.chain
      rw [hchain] at hmr
      exact ⟨l, hl, hmr⟩
  | stored i l op a g hi may exec =>
    have hl := List.mem_of_getElem? hi
    have hstored : Known w ls r ∨ r ∈ g.refresh := by
      rcases hr with hr | ⟨m, hm, hmr⟩
      · exact .inr hr
      · rcases List.mem_or_eq_of_mem_set hm with hm | rfl
        · exact .inl (.of_record hm hmr)
        · rcases Ledger.mem_records_stored exec hmr with hrec | hbefore | hafter
          · exact .inl (.of_record hl hrec)
          · exact .inl (.inl hbefore)
          · exact .inr hafter
    rcases hstored with hknown | hrow
    · exact .inl (hsame hknown)
    · rcases Ledger.refresh_stored may exec hrow with ⟨s, hs, hderives⟩ | ⟨hmints, hsucc⟩
      · exact .inl ⟨s, hs.imp_right fun hs => ⟨l, hl, hs⟩, hderives⟩
      · exact .inr ⟨l, hl, _, mem_set_self hi, Ledger.grows_stored may, hmints, hsucc⟩

/-- A move leaves stored what was, but for the token its request wrote. -/
theorem tokens_turns (ht : srv.Turns w ls w' ls') (h : t ∈ w'.store.tokens) :
    t ∈ w.store.tokens ∨ ∃ l ∈ ls', l.issue.access = some t := by
  cases ht.changes with
  | stored i l op a g hi may exec =>
    exact (Ledger.tokens_stored (l := l) exec h).imp_right fun hnew => ⟨_, mem_set_self hi, hnew⟩
  | quiet now w' ls' store ledgers => exact .inl ((store.tokens rfl).mem h)

/-- What a request has found it had found before, or it was stored. -/
theorem found_turns (ht : srv.Turns w ls w' ls') {l' : Ledger} (hl' : l' ∈ ls')
    (h : t ∈ l'.issue.found) : (∃ l ∈ ls, t ∈ l.issue.found) ∨ t ∈ w.store.tokens := by
  cases ht.turned hl' with
  | same l hl => exact .inl ⟨l', hl, h⟩
  | start q => exact nomatch h
  | stored l op a hl may exec => exact (Ledger.found_stored exec h).imp_left fun h => ⟨l, hl, h⟩
  | draws l e hl first fresh => exact .inl ⟨l, hl, h⟩
  | aside l l' hl aside => exact .inl ⟨l, hl, aside.found ▸ h⟩

theorem coherent_turns (ht : srv.Turns w ls w' ls') (h : ∀ l ∈ ls, l.Coherent srv) :
    ∀ l ∈ ls', l.Coherent srv := by
  intro l' hl'
  cases ht.turned hl' with
  | same l hl => exact h l' hl
  | start q => exact Ledger.coherent_start q
  | stored l op a hl may exec => exact (h l hl).stored may
  | draws l e hl first fresh => exact (h l hl).draws first e
  | aside l l' hl aside => exact (h l hl).aside aside

/-- Where the refresh records and access tokens of a running server come from. -/
structure Provenance (srv : Server) (w : World) (ls : List Ledger) : Prop where
  fresh : FreshStrings w ls
  coherent : ∀ l ∈ ls, l.Coherent srv
  minted : ∀ r, Known w ls r → ∃ l ∈ ls, ∃ n, l.chain.successor = some n ∧
    n.refreshToken = r.refreshToken ∧ r.SameGrant n
  rooted : ∀ r, Known w ls r →
    ∃ l ∈ ls, l.Roots srv r.clientId r.familyId r.subject r.grantEstablishedAt
  tokens : ∀ t ∈ w.store.tokens, ∃ l ∈ ls, l.issue.access = some t
  found : ∀ l ∈ ls, ∀ t ∈ l.issue.found, ∃ m ∈ ls, m.issue.access = some t
  family : ∀ l ∈ ls, ∀ t f, l.issue.access = some t → t.familyId = some f →
    ∃ m ∈ ls, m.Roots srv t.clientId f t.subject t.grantEstablishedAt

theorem provenance_initial (clock : SystemTime) : Provenance srv (.initial clock) [] := by
  have hnone : ∀ r, ¬ Known (.initial clock) [] r := by
    rintro r (h | ⟨l, hl, -⟩)
    · exact Table.mem_empty h
    · cases hl
  refine ⟨⟨by simp, ?_⟩, by simp, fun r h => (hnone r h).elim, fun r h => (hnone r h).elim,
    fun t h => (Table.mem_empty h).elim, by simp, by simp⟩
  intro i j l m x hi
  cases hi

namespace Provenance

/-- A known record's family was started by a request that is still accounted for. -/
theorem rooted_of_sameGrant (h : Provenance srv w ls) {clientId : ClientId} {familyId : String}
    {subject : Option String} {established : SystemTime} (hr : Known w ls r)
    (hclient : clientId = r.clientId) (hfamily : familyId = r.familyId)
    (hsubject : subject = r.subject) (hestablished : established = r.grantEstablishedAt) :
    ∃ l ∈ ls, l.Roots srv clientId familyId subject established := by
  rw [hclient, hfamily, hsubject, hestablished]
  exact h.rooted r hr

theorem step (h : Provenance srv w ls) (hm : srv.Moves w ls w' ls') : Provenance srv w' ls' := by
  have ht := hm.turns
  have hroots : ∀ {c f s e}, (∃ l ∈ ls, l.Roots srv c f s e) → ∃ l ∈ ls', l.Roots srv c f s e :=
    ht.exists_mono fun hg hroots => hroots.mono hg
  have haccess : ∀ {t}, (∃ l ∈ ls, l.issue.access = some t) → ∃ l ∈ ls', l.issue.access = some t :=
    ht.exists_mono fun hg => hg.access _
  refine ⟨h.fresh.step hm, coherent_turns ht h.coherent, ?_, ?_, ?_, ?_, ?_⟩
  · intro r hr
    rcases known_step ht hr with ⟨s, hs, hderives⟩ | ⟨l, hl, l', hl', hg, hmints, hsucc⟩
    · obtain ⟨l, hl, n, hn, hnkey, hsame⟩ := h.minted s hs
      obtain ⟨l', hl', hg⟩ := ht.grows_mem hl
      exact ⟨l', hl', n, hg.successor n hn, hnkey.trans hderives.key.symm, hderives.grant.trans hsame⟩
    · exact ⟨l', hl', r, hsucc, rfl, .refl r⟩
  · intro r hr
    rcases known_step ht hr with ⟨s, hs, hderives⟩ | ⟨l, hl, l', hl', hg, hmints, -⟩
    · obtain ⟨h1, h2, h3, h4⟩ := hderives.grant
      exact hroots (h.rooted_of_sameGrant hs h1 h2 h3 h4)
    · rcases hmints.grant with ⟨s, hs, hinherits⟩ | ⟨hroot, -⟩
      · obtain ⟨h1, h2, h3, h4⟩ := hinherits.grant
        exact hroots (h.rooted_of_sameGrant (.of_record hl hs) h1 h2 h3 h4)
      · exact ⟨l', hl', hroot.mono hg⟩
  · intro t htok
    exact (tokens_turns ht htok).elim (fun hold => haccess (h.tokens t hold)) id
  · intro l' hl' t htok
    refine haccess ((found_turns ht hl' htok).elim ?_ (h.tokens t))
    exact fun ⟨l, hl, hold⟩ => h.found l hl t hold
  · intro l' hl' t f hacc hf
    refine hroots ?_
    cases ht.turned hl' with
    | same l hl => exact h.family l' hl t f hacc hf
    | start q => exact nomatch hacc
    | stored l op a hl may exec =>
      rcases Ledger.access_stored may hacc with hold | ⟨-, hissues⟩
      · exact h.family l hl t f hold hf
      · rcases hissues f hf with ⟨s, hs, h1, h2, h3, h4⟩ | hroot
        · exact h.rooted_of_sameGrant (.of_record hl hs) h1 h2 h3 h4
        · exact ⟨l, hl, hroot⟩
    | draws l e hl first fresh => exact h.family l hl t f hacc hf
    | aside l l' hl aside => exact h.family l hl t f (aside.access ▸ hacc) hf

/-- Every string a refresh record was filed under was drawn by the request that minted it. -/
theorem key_drawn (h : Provenance srv w ls) (hr : Known w ls r) :
    ∃ l ∈ ls, ∃ n e, l.chain.successor = some n ∧ r.SameGrant n ∧ l.issue.entropy = some e ∧
      r.refreshToken = e.refresh.text ∧ r.refreshToken ∈ l.drawn := by
  obtain ⟨l, hl, n, hn, hkey, hgrant⟩ := h.minted r hr
  obtain ⟨e, he, hne⟩ := (h.coherent l hl).successor n hn
  have hre : r.refreshToken = e.refresh.text := hkey.symm.trans hne
  refine ⟨l, hl, n, e, hn, hgrant, he, hre, ?_⟩
  rw [hre]
  exact (h.fresh.accounted l hl).entropy e he _ (by simp [World.drawnStrings])

theorem key_used (h : Provenance srv w ls) (hr : Known w ls r) : r.refreshToken ∈ w.used := by
  obtain ⟨l, hl, -, -, -, -, -, -, hdrawn⟩ := h.key_drawn hr
  exact (h.fresh.accounted l hl).used _ hdrawn

/-- One string, one grant. -/
theorem sameGrant (h : Provenance srv w ls) {s : RefreshTokenRecord} (hr : Known w ls r)
    (hs : Known w ls s) (hkey : r.refreshToken = s.refreshToken) : r.SameGrant s := by
  obtain ⟨l, hl, n, -, hn, hrn, -, -, hdrawn⟩ := h.key_drawn hr
  obtain ⟨m, hm, n', -, hn', hsn, -, -, hdrawn'⟩ := h.key_drawn hs
  cases h.fresh.eq_of_drawn hl hm hdrawn (hkey ▸ hdrawn')
  cases hn.symm.trans hn'
  exact hrn.trans hsn.symm

theorem hex_nonempty {bytes : Nat} (text : HexString (bytes + 1)) : text.text.isEmpty = false := by
  have hlength : text.text.length = 2 * (bytes + 1) := by
    have := text.shape
    simp only [isHex, Bool.and_eq_true, decide_eq_true_eq] at this
    exact this.1
  cases hempty : text.text.isEmpty with
  | false => rfl
  | true =>
    rw [String.isEmpty_iff.mp hempty, String.length_empty] at hlength
    omega

/-- A family is named by a string that was drawn for it. -/
theorem family_drawn (h : Provenance srv w ls) (hl : l ∈ ls) {e : TokenEntropy}
    (he : l.issue.entropy = some e) :
    e.family.text ∈ l.drawn ∧ e.family.text ∈ w.used ∧ e.family.text.isEmpty = false := by
  have hdrawn := (h.fresh.accounted l hl).entropy e he e.family.text (by simp [World.drawnStrings])
  exact ⟨hdrawn, (h.fresh.accounted l hl).used _ hdrawn, hex_nonempty e.family⟩

theorem family_used (h : Provenance srv w ls) (hr : Known w ls r) :
    r.familyId ∈ w.used ∧ r.familyId.isEmpty = false := by
  obtain ⟨l, hl, hroot⟩ := h.rooted r hr
  obtain ⟨e, he, hfam⟩ := hroot.family
  rw [hfam]
  exact (h.family_drawn hl he).2

theorem mint_used (h : Provenance srv w ls) (hl : l ∈ ls) {f : String} (hf : l.chain.mint = some f) :
    f ∈ w.used := by
  rcases (h.coherent l hl).mint f hf with ⟨-, e, he, rfl⟩ | ⟨s, hs, rfl⟩
  · exact (h.family_drawn hl he).2.1
  · exact (h.family_used (.of_record hl (ChainLedger.mem_records.mpr (.inr (.inr (.inl hs)))))).1

/-- A record known at some point of a run leaves a known record of the same string and grant. -/
theorem known_later {w₀ : World} {ls₀ : List Ledger} {r₀ : RefreshTokenRecord}
    (h₀ : Provenance srv w₀ ls₀)
    (hgrow : ∀ (j : Nat) l, ls₀[j]? = some l → ∃ l', ls[j]? = some l' ∧ l.Grows l')
    (hr₀ : Known w₀ ls₀ r₀) :
    ∃ n, Known w ls n ∧ n.refreshToken = r₀.refreshToken ∧ r₀.SameGrant n := by
  obtain ⟨l, hl, n, hn, hkey, hgrant⟩ := h₀.minted r₀ hr₀
  obtain ⟨j, hj⟩ := List.mem_iff_getElem?.mp hl
  obtain ⟨l', hl', hg⟩ := hgrow j l hj
  refine ⟨n, .of_record (List.mem_of_getElem? hl') ?_, hkey, hgrant⟩
  exact ChainLedger.mem_records.mpr (.inr (.inr (.inr (hg.successor n hn))))

/-- No string names both an access token and a refresh token. -/
theorem access_ne_refresh (h : Provenance srv w ls) (hl : l ∈ ls) (ht : l.issue.access = some t)
    (hr : Known w ls r) : t.accessToken ≠ r.refreshToken := by
  intro heq
  obtain ⟨m, hm, -, e, -, -, he, hre, hdrawn⟩ := h.key_drawn hr
  have hacc := h.fresh.accounted l hl
  cases h.fresh.eq_of_drawn hl hm ((h.coherent l hl).access_drawn hacc ht) (heq ▸ hdrawn)
  have hkey := (h.coherent l hl).access t ht
  unfold Ledger.accessKey at hkey
  split at hkey
  · obtain ⟨e', he', hte⟩ := Option.map_eq_some_iff.mp hkey
    cases he.symm.trans he'
    have hnodup := hacc.nodup e he
    have hne : e.access.text ≠ e.refresh.text := by
      simp only [World.drawnStrings, List.nodup_cons, List.mem_cons] at hnodup
      exact fun h => hnodup.2.1 (.inl h)
    exact hne (hte.trans (heq.trans hre))
  · refine hacc.apart _ e hkey he ?_
    rw [heq, hre]
    simp [World.drawnStrings]

end Provenance

end Known

/-- Provenance along every run from an unused store. -/
theorem Server.provenance {srv : Server} {ok} {clock : SystemTime} {s : State}
    (h : srv.Runs ok clock s) :
    Provenance srv s.world (srv.discipline.ledgers s) :=
  Discipline.invariant (D := srv.discipline) (I := Provenance srv) h (provenance_initial clock)
    fun _ _ _ _ hI hl => hI.step (moves_of_ledgerStep hl)

/-! ## What a request issues -/

namespace Ledger

variable {srv : Server} {l l' : Ledger} {op : StorageOp}

/-- The access token a request wrote is for a grant, and on terms, that it had in hand. -/
def Vouched (srv : Server) (l : Ledger) : Prop :=
  ∀ t, l.issue.access = some t →
    l.Grants srv t.clientId t.familyId t.subject t.grantEstablishedAt ∧ l.Draws srv t.terms

theorem Vouched.grows (h : l.Vouched srv) (hg : l.Grows l')
    (haccess : l'.issue.access = l.issue.access) : l'.Vouched srv := by
  intro t ht
  obtain ⟨hgrant, hdraws⟩ := h t (haccess ▸ ht)
  exact ⟨hgrant.mono hg, hdraws.mono hg⟩

theorem Vouched.stored {a : op.Result} (h : l.Vouched srv) (may : l.MayStore srv op) :
    (l.stored op a).Vouched srv := by
  have hg : l.Grows (l.stored op a) := grows_stored may
  cases op with
  | putToken s =>
    cases a with
    | refusedRevoked => exact h.grows hg rfl
    | applied =>
      intro t ht
      cases ht
      exact ⟨may.2.1.mono hg, may.2.2.mono hg⟩
  | rotateRefreshToken expected spent access next =>
    cases a with
    | false => exact h.grows hg rfl
    | true =>
      obtain ⟨p, hmay⟩ := may
      intro t ht
      cases ht
      -- The ledger has the rotated record from here on.
      obtain ⟨hclient, hfamily, hsubject, hestablished⟩ := hmay.grant
      have hq := hg.request.trans hmay.request
      constructor
      · simp only [Grants, hq]
        exact ⟨expected, .inl rfl, hmay.presented, hclient, hfamily, hsubject, hestablished,
          hclient.trans hmay.owner⟩
      · simp only [Draws, hq]
        exact ⟨expected, .inl rfl, hmay.presented, hmay.owner, hmay.offers⟩
  | _ => first | exact h.grows hg rfl | (cases a <;> exact h.grows hg rfl)

theorem Vouched.next {e : Effect} {r : e.Answer} (h : l.Vouched srv) (hallowed : l.Allowed srv e) :
    (l.next e r).Vouched srv := by
  have hg : l.Grows (l.next e r) := grows_next hallowed
  cases e with
  | storage op =>
    cases r with
    | ok a => exact h.stored hallowed
    | error e => exact h
  | _ => first | exact h.grows hg rfl | (cases r <;> exact h.grows hg rfl)

end Ledger

theorem Server.vouched {srv : Server} {ok} {clock : SystemTime} {s : State}
    (h : srv.Runs ok clock s) :
    ∀ l ∈ srv.discipline.ledgers s, l.Vouched srv :=
  Discipline.ledger_invariant (D := srv.discipline) h (fun _ _ ht => nomatch ht)
    fun _ _ _ hl hallowed _ => hl.next hallowed

end OauthAs
