-- SUMMARY: Proof rules for single calls, client authentication and issuance under the ledger protocol.
import OauthAs.Protocol.Authentication
import OauthAs.Protocol.Ledger

/-!
# Proof rules

One rule for each kind of call, and on top of them the rules of the two procedures every token
endpoint goes through. Each rule takes the postconditions of its ways to return as hypotheses, so
that a handler is proved by following its text.
-/

namespace OauthAs

namespace StorageOp

/-- The calls the reference store always answers with a value. -/
def Total : StorageOp → Bool
  | deleteClient _ _ | putDeviceGrant _ | compareAndSwapDeviceGrant _ _ | revokeTokenFamily _ _
  | revokeConsent _ _ => false
  | _ => true

theorem exec_total {op : StorageOp} (h : op.Total = true) (g : MemoryInner) :
    ∃ a, (op.exec g).1 = .ok a := by
  cases op <;> first | exact ⟨_, rfl⟩ | cases h

end StorageOp

open Prog Handler

section Total
variable {L ε : Type} {P : Protocol Effect Effect.Answer L} {l : L} {op : StorageOp}
  {err : ε → L → Prop}

/-- A call that cannot fail, under a protocol that expects what the store can answer. -/
theorem Prog.wpE_tryStore (hP : P.possible = Effect.Possible) (htotal : op.Total = true)
    {ok : op.Answer → L → Prop} :
    wpE P (tryStore op) l ok err ↔ P.allowed l (.storage op) ∧
      ∀ g a, (op.exec g).1 = .ok a → ok (.ok a) (P.next l (.storage op) (.ok a)) := by
  refine wpE_performE.trans (and_congr_right fun _ => ?_)
  rw [hP]
  refine ⟨fun h g a ha => h _ ⟨g, ha⟩, ?_⟩
  rintro h _ ⟨g, rfl⟩
  obtain ⟨a, ha⟩ := StorageOp.exec_total htotal g
  rw [ha]
  exact h g a ha

theorem Prog.wpE_storeOr (hP : P.possible = Effect.Possible) (htotal : op.Total = true)
    {onError : StorageError → ε} {ok : op.Result → L → Prop} :
    wpE P (storeOr onError op) l ok err ↔ P.allowed l (.storage op) ∧
      ∀ g a, (op.exec g).1 = .ok a → ok a (P.next l (.storage op) (.ok a)) := by
  simp only [storeOr, wpE_bind, wpE_tryStore hP htotal, wpE_pure]

end Total

/-- The chain after the second write of an issuance. -/
def ChainLedger.follow (c : ChainLedger) : Option RefreshTokenRecord → ChainLedger
  | some r => { c with successor := some r, mint := none }
  | none => c

theorem ChainLedger.put_of_mint {c : ChainLedger} {r : RefreshTokenRecord} (hheld : c.held = none)
    (hmint : c.mint = some r.familyId) : c.put r = c.follow (some r) := by
  simp [put, follow, hheld, hmint]

namespace Ledger

/-- The ledger after further readings of the clock. -/
def tick (l : Ledger) (ts : List SystemTime) : Ledger := { l with clocks := ts ++ l.clocks }

/-- The ledger after further readings of registrations and of the clock. -/
def read (l : Ledger) (cs : List Client) (ts : List SystemTime) : Ledger :=
  { l with clients := cs ++ l.clients, clocks := ts ++ l.clocks }

variable {srv : Server} {l : Ledger}

/-- What a request may write for a grant does not depend on the access token it wrote. -/
theorem WritesRefresh.putToken {r : RefreshTokenRecord} {t : IssuedToken}
    (h : l.WritesRefresh srv r) : WritesRefresh srv { l with issue.access := some t } r := by
  cases h with
  | putBack request presented held => exact .putBack request presented held
  | spend request strict held active presented unrotated key grant terms spent =>
    exact .spend request strict held active presented unrotated key grant terms spent
  | putUnheld request presented free idle read odd =>
    exact .putUnheld request presented free idle read odd
  | mint free right first drawn key active grant draws chain =>
    exact .mint free right first drawn key active grant draws chain

/-- Nothing was issued by this request yet. -/
structure Ready (l : Ledger) : Prop where
  entropy : l.issue.entropy = none
  wire : l.issue.wire = none
  access : l.issue.access = none
  deleted : l.issue.deleted = []
  held : l.chain.held = none
  successor : l.chain.successor = none

/-- What an issuance leaves alone. -/
structure Issuing (l l' : Ledger) : Prop where
  request : l'.request = l.request
  codes : l'.codes = l.codes
  devices : l'.devices = l.devices
  clients : l'.clients = l.clients
  found : l'.issue.found = l.issue.found
  reads : l'.chain.reads = l.chain.reads
  rotated : l'.chain.rotated = l.chain.rotated
  clocks : ∀ t ∈ l.clocks, t ∈ l'.clocks

theorem Issuing.of_parts {now : SystemTime} {drawn : List String} {issue : IssueLedger}
    {chain : ChainLedger} (hfound : issue.found = l.issue.found)
    (hreads : chain.reads = l.chain.reads) (hrotated : chain.rotated = l.chain.rotated) :
    l.Issuing { l with clocks := now :: l.clocks, drawn, issue, chain } :=
  ⟨rfl, rfl, rfl, rfl, hfound, hreads, hrotated, fun _ ht => List.mem_cons_of_mem _ ht⟩

/-- What went wrong with an issuance: nothing of it is left, and there is a reason. -/
structure Aborted (srv : Server) (l : Ledger) : Prop where
  tookBack : l.TookBack
  reason : l.issue.setback = true ∨ l.Undatable srv

theorem TookBack.of_none (haccess : l.issue.access = none)
    (hsuccessor : l.chain.successor = none) : l.TookBack := by
  refine ⟨fun t ht => ?_, fun r hr => ?_⟩
  · cases haccess.symm.trans ht
  · cases hsuccessor.symm.trans hr

end Ledger

namespace Server

variable {srv : Server} {l : Ledger} {ε α : Type}

/-! ## Single calls -/

section Calls
variable {ok : α → Ledger → Prop} {err : ε → Ledger → Prop} {op : StorageOp}

theorem wpE_perform {e : Effect} {ok : e.Answer → Ledger → Prop} :
    wpE srv.protocol (Handler.perform e) l ok err ↔
      l.Allowed srv e ∧ ∀ r, e.Possible r → ok r (l.next e r) :=
  wpE_performE

theorem wpE_now {ok : SystemTime → Ledger → Prop} :
    wpE srv.protocol now l ok err ↔ ∀ t, ok t (l.tick [t]) := by
  refine wpE_perform.trans ?_
  exact ⟨fun h t => h.2 t trivial, fun h => ⟨trivial, fun t _ => h t⟩⟩

theorem wpE_emit {event : Event} {ok : Unit → Ledger → Prop} :
    wpE srv.protocol (emit event) l ok err ↔ l.MayReport event ∧ ok () l := by
  refine wpE_perform.trans ?_
  exact ⟨fun h => ⟨h.1, h.2 () trivial⟩, fun h => ⟨h.1, fun _ _ => h.2⟩⟩

theorem wpE_tryStore {ok : op.Answer → Ledger → Prop} :
    wpE srv.protocol (tryStore op) l ok err ↔
      l.MayStore srv op ∧ ∀ g, ok (op.exec g).1 (l.next (.storage op) (op.exec g).1) := by
  refine wpE_perform.trans ?_
  refine ⟨fun h => ⟨h.1, fun g => h.2 _ ⟨g, rfl⟩⟩, fun h => ⟨h.1, ?_⟩⟩
  rintro _ ⟨g, rfl⟩
  exact h.2 g

theorem wpE_storeOr {onError : StorageError → ε} {ok : op.Result → Ledger → Prop} :
    wpE srv.protocol (storeOr onError op) l ok err ↔ l.MayStore srv op ∧ ∀ g,
      (∀ a, (op.exec g).1 = .ok a → ok a (l.stored op a)) ∧
      (∀ e, (op.exec g).1 = .error e → err (onError e) l) := by
  simp only [storeOr, wpE_bind, wpE_tryStore]
  refine and_congr_right fun _ => forall_congr' fun g => ?_
  cases (op.exec g).1 with
  | ok a => simp [wpE_pure, Ledger.next]
  | error e => simp [wpE_throw, Ledger.next]

/-- A call that cannot fail. -/
theorem wpE_storeOr_total (htotal : op.Total = true) {onError : StorageError → ε}
    {ok : op.Result → Ledger → Prop} :
    wpE srv.protocol (storeOr onError op) l ok err ↔
      l.MayStore srv op ∧ ∀ g a, (op.exec g).1 = .ok a → ok a (l.stored op a) :=
  Prog.wpE_storeOr rfl htotal

theorem wpE_store_total (htotal : op.Total = true) {ok : op.Result → Ledger → Prop}
    {err : ErrorResponse → Ledger → Prop} :
    wpE srv.protocol (store op) l ok err ↔
      l.MayStore srv op ∧ ∀ g a, (op.exec g).1 = .ok a → ok a (l.stored op a) :=
  wpE_storeOr_total htotal

theorem wpE_tryStore_total (htotal : op.Total = true) {ok : op.Answer → Ledger → Prop} :
    wpE srv.protocol (tryStore op) l ok err ↔
      l.MayStore srv op ∧ ∀ g a, (op.exec g).1 = .ok a → ok (.ok a) (l.stored op a) :=
  Prog.wpE_tryStore rfl htotal

theorem wpE_revocationWindow {ok : RevocationWindow → Ledger → Prop}
    (hok : ∀ t w, Ledger.Window srv (l.tick [t]) w → ok w (l.tick [t])) :
    wpE srv.protocol srv.revocationWindow l ok err := by
  unfold revocationWindow
  rw [wpE_bind, wpE_now]
  intro t
  exact wpE_pure.mpr (hok t _ ⟨t, List.mem_cons_self, rfl⟩)

end Calls

/-! ## Authentication -/

section Authentication
variable {err : ErrorResponse → Ledger → Prop}

/-- A ledger that only registrations and readings of the clock were added to. -/
def Admitted (l : Ledger) (Φ : List Client → Prop) (l' : Ledger) : Prop :=
  ∃ cs ts, Φ cs ∧ l' = l.read cs ts

theorem admits_admitted {Φ : List Client → Prop} (hcons : ∀ c cs, Φ cs → Φ (c :: cs)) :
    Admits srv.protocol (Admitted l Φ) where
  allowed := by
    rintro _ e ⟨cs, ts, -, rfl⟩ he
    -- The other calls contradict `he`.
    cases e with
    | storage op => cases op <;> trivial
    | emit event => cases event <;> trivial
    | _ => trivial
  next := by
    rintro _ e r ⟨cs, ts, hcs, rfl⟩ he -
    cases e with
    | storage op =>
      cases op with
      | getClient id =>
        rcases r with e | _ | c
        · exact ⟨cs, ts, hcs, rfl⟩
        · exact ⟨cs, ts, hcs, rfl⟩
        · exact ⟨c :: cs, ts, hcons c cs hcs, rfl⟩
      | _ => first | (cases r <;> exact ⟨cs, ts, hcs, rfl⟩) | cases he
    | now => exact ⟨cs, r :: ts, hcs, rfl⟩
    | _ => first | exact ⟨cs, ts, hcs, rfl⟩ | cases he

theorem authenticates_admitted : Authenticates srv.protocol (Admitted l fun _ => True)
    fun id client => Admitted l fun cs => client.clientId = id ∧ client ∈ cs where
  before := admits_admitted fun _ _ h => h
  after _ _ := admits_admitted fun _ _ h => ⟨h.1, List.mem_cons_of_mem _ h.2⟩
  weaken := by
    rintro id client _ ⟨cs, ts, -, rfl⟩
    exact ⟨cs, ts, trivial, rfl⟩
  client := by
    rintro _ id _ ⟨cs, ts, -, rfl⟩ ⟨g, rfl⟩
    refine ⟨_, rfl, fun client hfound => ?_⟩
    have hlookup : g.getClient id = some client := hfound
    refine ⟨client :: cs, ts, ⟨Table.key_of_lookup hfound, List.mem_cons_self⟩, ?_⟩
    rw [show (StorageOp.exec g (.getClient id)).1 = .ok (some client) from congrArg Except.ok hlookup]
    rfl

/-- Authentication changes nothing a ledger records but the registrations read and the readings of
the clock. -/
theorem wpE_authenticateClient {clientId : ClientId} {cred : ClientCredential}
    {ok : Client → Ledger → Prop}
    (hok : ∀ cs ts client, client.clientId = clientId → client ∈ cs → ok client (l.read cs ts))
    (herr : ∀ cs ts, err (.new .invalidClient) (l.read cs ts)) :
    wpE srv.protocol (srv.authenticateClient clientId cred) l ok err := by
  refine authenticates_admitted.authenticateClient (l := l) ⟨[], [], trivial, rfl⟩ ?_ ?_
  · rintro client _ ⟨cs, ts, ⟨hid, hmem⟩, rfl⟩
    exact hok cs ts client hid hmem
  · rintro _ ⟨cs, ts, -, rfl⟩
    exact herr cs ts

end Authentication

/-! ## Issuance -/

theorem accessTokenClaims_eq_none {args : IssueArgs} {audience : Audience}
    {now expiresAt : SystemTime} {jti : String}
    (h : srv.accessTokenClaims args audience now expiresAt jti = none) :
    now < unixEpoch ∨ expiresAt < unixEpoch := by
  rw [← unixSeconds_eq_none, ← unixSeconds_eq_none]
  cases hexp : unixSeconds expiresAt with
  | none => exact .inr rfl
  | some exp =>
    cases hiat : unixSeconds now with
    | none => exact .inl rfl
    | some iat => simp [accessTokenClaims, hexp, hiat] at h

section Issue
variable {args : IssueArgs} {err : ErrorResponse → Ledger → Prop}

/-- The wire token is the request's access key. -/
theorem wpE_wireAccessToken {now expiresAt : SystemTime} {e : TokenEntropy}
    {ok : String → Ledger → Prop} (hentropy : l.issue.entropy = some e)
    (hwire : l.issue.wire = none)
    (hok : ∀ d w s, Ledger.accessKey srv { l with drawn := d, issue.wire := w } = some s →
      ok s { l with drawn := d, issue.wire := w })
    (hepoch : ∀ audience, srv.config.accessTokenFormat = .jwt audience →
      now < unixEpoch ∨ expiresAt < unixEpoch → err (.new .serverError) l)
    (hsigner : err (.new .serverError) { l with issue.setback := true }) :
    wpE srv.protocol (srv.wireAccessToken args now expiresAt e.access.text) l ok err := by
  unfold wireAccessToken
  split
  · rename_i hformat
    refine wpE_pure.mpr (hok l.drawn l.issue.wire _ ?_)
    simp [Ledger.accessKey, hformat, hentropy]
  · rename_i audience hformat
    rw [wpE_bind, wpE_require]
    refine ⟨fun claims _ => ?_, fun hnone => hepoch audience hformat (accessTokenClaims_eq_none hnone)⟩
    rw [wpE_bind]
    refine wpE_perform.mpr ⟨hwire, fun signed _ => ?_⟩
    rw [wpE_require]
    refine ⟨?_, ?_⟩
    · rintro token rfl
      refine hok _ _ token ?_
      simp [Ledger.accessKey, hformat]
    · rintro rfl
      exact hsigner

/-- The two writes: both are kept, or a barrier refused one and nothing is left. -/
theorem wpE_storeIssuance {access : IssuedToken} {refresh : Option RefreshTokenRecord}
    {ok : Unit → Ledger → Prop} (hwrites : l.WritesAccess srv access)
    (hgrants : l.Grants srv access.clientId access.familyId access.subject
      access.grantEstablishedAt)
    (hdraws : l.Draws srv access.terms)
    (hrefresh : ∀ r, refresh = some r → l.WritesRefresh srv r ∧ l.chain.held = none ∧
      l.chain.mint = some r.familyId)
    (hok : ok () { l with
      issue.access := some access
      chain := l.chain.follow refresh })
    (hfirst : err revokedWhileIssuing { l with issue.setback := true })
    (hsecond : err revokedWhileIssuing { l with
      chain.held := none
      issue := { l.issue with
        access := some access, setback := true, deleted := access.accessToken :: l.issue.deleted } }) :
    wpE srv.protocol (storeIssuance access refresh) l ok err := by
  unfold storeIssuance
  rw [wpE_bind, wpE_store_total rfl]
  refine ⟨⟨hwrites, hgrants, hdraws⟩, fun g outcome _ => ?_⟩
  cases outcome with
  | refusedRevoked => exact wpE_throw.mpr hfirst
  | applied =>
    cases refresh with
    | none => exact wpE_pure.mpr hok
    | some r =>
      obtain ⟨hwrite, hheld, hmint⟩ := hrefresh r rfl
      simp only
      rw [wpE_bind, wpE_store_total rfl]
      refine ⟨hwrite.putToken, fun g outcome _ => ?_⟩
      cases outcome with
      | refusedRevoked =>
        simp only [undoIssuance]
        rw [wpE_bind, wpE_bind, wpE_tryStore_total rfl]
        exact ⟨trivial, fun _ _ _ => wpE_pure.mpr (wpE_throw.mpr hsecond)⟩
      | applied =>
        refine wpE_pure.mpr ?_
        rw [← ChainLedger.put_of_mint hheld hmint] at hok
        exact hok

theorem mint_next_entropy (e : TokenEntropy) :
    (l.next .tokenEntropy (some e)).chain.mint =
      if l.request.isRefresh then l.chain.mint else some e.family.text := rfl

theorem familyFor_of_issuesRefresh {e : TokenEntropy} (h : srv.issuesRefresh args = true) :
    ∃ f, srv.familyFor args e = some f := by
  unfold familyFor
  split
  · exact ⟨_, rfl⟩
  · exact ⟨_, if_pos h⟩

/-- An issuance outside a retryable rotation. -/
theorem wpE_issue {ok : TokenResponse → Ledger → Prop} (hready : l.Ready)
    (hchain : args.chain.bind RefreshChain.retry = none)
    (huncapped : args.lifetimeCeiling = none ∨ ∀ l' e, l.Issuing l' → err e l')
    (hgrants : ∀ l' e, l.Issuing l' → l'.issue.entropy = some e →
      l'.Grants srv args.client.clientId (srv.familyFor args e) args.subject
        args.grantEstablishedAt)
    (hdraws : ∀ l', l.Issuing l' → l'.Draws srv args.terms)
    (hinherits : ∀ p, l.request = .refreshToken p → srv.issuesRefresh args = true →
      ∃ s, l.chain.rotated = some s ∧
        ∀ now e token, (srv.refreshRecord args now (srv.familyFor args e) token).Inherits srv s)
    (hmint : ∀ e, srv.issuesRefresh args = true →
      (l.next .tokenEntropy (some e)).chain.mint = srv.familyFor args e)
    (hok : ∀ l' response, l.Issuing l' → l'.Answers response → ok response l')
    (herr : ∀ l' e, l.Issuing l' → l'.Aborted srv → e ≠ ceilingRefusal → err e l') :
    wpE srv.protocol (srv.issue args) l ok err := by
  have hserver : ErrorResponse.new .serverError ≠ ceilingRefusal := by decide
  have hrevoked : revokedWhileIssuing ≠ ceilingRefusal := by decide
  unfold issue
  rw [wpE_bind, wpE_now]
  intro now
  rw [wpE_bind]
  refine wpE_perform.mpr ⟨hready.entropy, fun entropy _ => ?_⟩
  rw [wpE_bind, wpE_require]
  refine ⟨?_, ?_⟩
  swap
  · -- No randomness.
    rintro rfl
    refine herr _ _ (.of_parts rfl rfl rfl) ?_ hserver
    exact ⟨.of_none hready.access hready.successor, .inl rfl⟩
  rintro e rfl
  rw [wpE_bind]
  refine wpE_wireAccessToken rfl hready.wire ?_ ?_ ?_
  · intro d w accessToken hkey
    simp only [hchain]
    rw [wpE_bind]
    refine wpE_storeIssuance ⟨hkey, hready.access, ?_⟩ ?_ ?_ ?_ ?_ ?_ ?_
    · simp [Ledger.next, Ledger.tick, hready.deleted]
    · exact hgrants _ e (.of_parts rfl rfl rfl) rfl
    · exact hdraws _ (.of_parts rfl rfl rfl)
    · intro r hr
      by_cases hissues : srv.issuesRefresh args = true
      · rw [if_pos hissues] at hr
        cases hr
        obtain ⟨f, hf⟩ := familyFor_of_issuesRefresh (e := e) hissues
        have hright := hmint e hissues
        have hfamily : some (srv.refreshRecord args now (srv.familyFor args e)
            e.refresh.text).familyId = srv.familyFor args e := by
          simp [refreshRecord, hf]
        refine ⟨?_, hready.held, hright.trans hfamily.symm⟩
        refine .mint hready.held (hright.trans hfamily.symm) hready.successor rfl rfl rfl ?_ ?_ ?_
        · rw [hfamily]
          exact hgrants _ e (.of_parts rfl rfl rfl) rfl
        · exact hdraws _ (.of_parts rfl rfl rfl)
        · intro p hp
          obtain ⟨s, hs, hinherits⟩ := hinherits p hp hissues
          exact ⟨s, hs, hinherits now e _⟩
      · rw [if_neg hissues] at hr
        cases hr
    · rw [wpE_bind, wpE_emit]
      refine ⟨trivial, wpE_pure.mpr (hok _ _ (.of_parts rfl ?_ ?_) ⟨⟨_, rfl, rfl⟩, ?_⟩)⟩
      · split <;> rfl
      · split <;> rfl
      · simp only [Ledger.successorKey, tokenResponse]
        split
        · rfl
        · exact congrArg _ hready.successor.symm
    · refine herr _ _ (.of_parts rfl rfl rfl) ?_ hrevoked
      exact ⟨.of_none hready.access hready.successor, .inl rfl⟩
    · refine herr _ _ (.of_parts rfl rfl rfl) ?_ hrevoked
      refine ⟨⟨?_, ?_⟩, .inl rfl⟩
      · rintro t ⟨⟩
        exact List.mem_cons_self
      · intro r hr
        cases hready.successor.symm.trans hr
  · intro audience hformat hepoch
    rcases huncapped with huncapped | hcapped
    swap
    · exact hcapped _ _ (.of_parts rfl rfl rfl)
    refine herr _ _ (.of_parts rfl rfl rfl) ?_ hserver
    refine ⟨.of_none hready.access hready.successor,
      .inr ⟨⟨audience, hformat⟩, now, List.mem_cons_self, ?_⟩⟩
    rcases hepoch with hnow | hexpiry
    · exact hnow
    · have := le_saturatingDeadline srv.host.ceiling now srv.config.accessTokenTtl
      simp only [accessExpiry, huncapped, Server.deadline] at hexpiry
      lia
  · refine herr _ _ (.of_parts rfl rfl rfl) ?_ hserver
    exact ⟨.of_none hready.access hready.successor, .inl rfl⟩

end Issue

end Server

end OauthAs
