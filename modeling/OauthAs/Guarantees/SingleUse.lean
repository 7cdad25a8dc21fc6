-- SUMMARY: A code redeems once, a replay undoes an unfinished redemption, and a reported replay is contained.
import OauthAs.Protocol.Codes
import OauthAs.Guarantees.Containment

/-!
# Single use

The single use of a code is spread over a take, a blind write of the consumed record, an issuance
of two writes and a swap against the earlier write. The budgets of `CodeCustody` carry it through
every interleaving. What a redemption that lost the swap took back stays away: its strings are its
own, so nobody else can write under them.
-/

namespace OauthAs

open Sample

variable {p : CodePresentation} {r n : RefreshTokenRecord}

/-! ## What was taken back stays away -/

namespace Ledger

variable {srv : Server} {l : Ledger} {op : StorageOp} {g g' : MemoryInner} {a : op.Result}

/-- A request that deleted its access token does not write it again. -/
theorem deleted_stored {t : IssuedToken} (may : l.MayStore srv op) (hexec : op.exec g = (.ok a, g'))
    (haccess : (l.stored op a).issue.access = some t)
    (hdeleted : t.accessToken ∈ (l.stored op a).issue.deleted) (ht : t ∈ g'.tokens) :
    l.issue.access = some t ∧ t.accessToken ∈ l.issue.deleted ∧ t ∈ g.tokens := by
  obtain ⟨hframe, -⟩ := StorageOp.exec_writes hexec
  cases op with
  | putToken s =>
    cases a with
    | applied =>
      cases haccess
      exact absurd hdeleted may.1.kept
    | refusedRevoked =>
      refine ⟨haccess, hdeleted, ?_⟩
      simp only [StorageOp.exec, StorageOp.succeeding, MemoryInner.putToken] at hexec
      split at hexec <;> cases hexec
      exact ht
  | rotateRefreshToken expected spent access next =>
    by_cases hrot : StorageOp.Rotates g expected
    · rw [StorageOp.exec_rotateRefreshToken_of hrot] at hexec
      obtain ⟨p, hmay⟩ := may
      cases hexec
      cases haccess
      exact absurd hdeleted hmay.writes.kept
    · rw [StorageOp.exec_rotateRefreshToken_of_not hrot] at hexec
      cases hexec
      exact ⟨haccess, hdeleted, ht⟩
  | deleteToken x =>
    cases hexec
    obtain ⟨hrow, hne⟩ := Table.mem_erase.mp ht
    exact ⟨haccess, (List.mem_cons.mp hdeleted).resolve_left hne, hrow⟩
  | _ =>
    have hrow := (hframe.tokens rfl).mem ht
    first
    | exact ⟨haccess, hdeleted, hrow⟩
    | (cases a <;> exact ⟨haccess, hdeleted, hrow⟩)

/-- A row of the refresh table was there before, is of the string the request presented, or is the
request's successor. -/
theorem refresh_written (may : l.MayStore srv op) (hexec : op.exec g = (.ok a, g'))
    (hr : r ∈ g'.refresh) :
    r ∈ g.refresh ∨ (∃ q, l.request = .refreshToken q ∧ q.refreshToken = r.refreshToken) ∨
      (l.stored op a).chain.successor = some r := by
  rcases StorageOp.mem_refresh_exec hexec hr with
    hold | ⟨rfl, hrev⟩ | ⟨expected, spent, access, next, rfl, hrot, hnew⟩
  · exact .inl hold
  · simp only [StorageOp.exec, StorageOp.succeeding, MemoryInner.putRefreshToken, hrev] at hexec
    cases hexec
    cases may with
    | putBack request presented held | putUnheld request presented free idle read odd =>
      exact .inr (.inl ⟨_, request, presented.symm⟩)
    | spend request strict held active presented unrotated key grant terms spent =>
      exact .inr (.inl ⟨_, request, presented.symm.trans key.symm⟩)
    | mint free right first drawn key active grant draws chain =>
      exact .inr (.inr (by simp [stored, ChainLedger.put, free, right]))
  · obtain ⟨p, hmay⟩ := may
    rw [StorageOp.exec_rotateRefreshToken_of hrot] at hexec
    cases hexec
    rcases hnew with rfl | rfl
    · exact .inr (.inl ⟨p, hmay.request, hmay.presented.symm.trans hmay.spent.1.symm⟩)
    · exact .inr (.inr rfl)

/-- The only refresh record a redemption writes is its successor. -/
theorem mint_of_redemption (hp : l.request = .authorizationCodeToken p) (h : l.WritesRefresh srv r) :
    l.chain.successor = none ∧ (l.chain.put r).successor = some r := by
  cases h with
  | putBack request | spend request | putUnheld request => cases hp.symm.trans request
  | mint free right first drawn key active grant draws chain =>
    exact ⟨first, by simp [ChainLedger.put, free, right]⟩

/-- A redemption takes no refresh record but its own. -/
def TakesOwn (l : Ledger) : Prop :=
  ∀ p, l.request = .authorizationCodeToken p → ∀ x ∈ l.chain.removed,
    ∃ n, l.chain.successor = some n ∧ x = n.refreshToken

theorem TakesOwn.next {e : Effect} {r : e.Answer} (h : l.TakesOwn) (hallowed : l.Allowed srv e) :
    (l.next e r).TakesOwn := by
  have hgrows := grows_next (r := r) hallowed
  intro p hp x hx
  have hrequest : l.request = .authorizationCodeToken p := hgrows.request.symm.trans hp
  have hold : x ∈ l.chain.removed → ∃ n, (l.next e r).chain.successor = some n ∧
      x = n.refreshToken := by
    intro hx
    obtain ⟨n, hn, hkey⟩ := h p hrequest x hx
    exact ⟨n, hgrows.successor n hn, hkey⟩
  cases e with
  | storage op =>
    cases r with
    | error e => exact hold hx
    | ok a =>
      cases op with
      | takeRefreshToken token =>
        rcases List.mem_cons.mp hx with rfl | hx
        · simp only [Allowed, MayStore, TakesRefresh, hrequest] at hallowed
          exact hallowed
        · exact hold hx
      | putRefreshToken s =>
        cases a with
        | applied => exact hold ((put_keeps l.chain s).2.2.1 ▸ hx)
        | refusedRevoked => exact hold hx
      | _ => first | exact hold hx | (cases a <;> exact hold hx)
  | tokenEntropy | randomHex bytes | sign claims => cases r <;> exact hold hx
  | _ => exact hold hx

/-- A redemption that took its refresh record back does not write it again. -/
theorem removed_stored (hp : l.request = .authorizationCodeToken p) (hown : l.TakesOwn)
    (may : l.MayStore srv op) (hexec : op.exec g = (.ok a, g'))
    (hsuccessor : (l.stored op a).chain.successor = some n)
    (hremoved : n.refreshToken ∈ (l.stored op a).chain.removed) (hr : r ∈ g'.refresh)
    (hkey : r.refreshToken = n.refreshToken) :
    l.chain.successor = some n ∧ n.refreshToken ∈ l.chain.removed ∧ r ∈ g.refresh := by
  obtain ⟨hframe, -⟩ := StorageOp.exec_writes hexec
  cases op with
  | putRefreshToken s =>
    cases a with
    | applied =>
      have hkept : n.refreshToken ∈ l.chain.removed := (put_keeps l.chain s).2.2.1 ▸ hremoved
      obtain ⟨m, hm, -⟩ := hown p hp _ hkept
      exact nomatch (mint_of_redemption hp may).1.symm.trans hm
    | refusedRevoked =>
      refine ⟨hsuccessor, hremoved, ?_⟩
      simp only [StorageOp.exec, StorageOp.succeeding, MemoryInner.putRefreshToken] at hexec
      split at hexec <;> cases hexec
      exact hr
  | rotateRefreshToken expected spent access next =>
    obtain ⟨q, hmay⟩ := may
    cases hp.symm.trans hmay.request
  | takeRefreshToken x =>
    cases hexec
    obtain ⟨hrow, hne⟩ := Table.mem_erase.mp hr
    refine ⟨hsuccessor, (List.mem_cons.mp hremoved).resolve_left ?_, hrow⟩
    exact fun h => hne (hkey.trans h)
  | _ =>
    have hrow := (hframe.refresh rfl).mem hr
    first
    | exact ⟨hsuccessor, hremoved, hrow⟩
    | (cases a <;> exact ⟨hsuccessor, hremoved, hrow⟩)

end Ledger

/-- Deleted access tokens and removed refresh records of redemptions are not in the store, the
latter while nobody presents their strings. -/
structure TakenBack (srv : Server) (w : World) (ls : List Ledger) : Prop where
  provenance : Provenance srv w ls
  own : ∀ l ∈ ls, l.TakesOwn
  deleted : ∀ l ∈ ls, ∀ t, l.issue.access = some t → t.accessToken ∈ l.issue.deleted →
    t ∉ w.store.tokens
  removed : ∀ l ∈ ls, ∀ p n, l.request = .authorizationCodeToken p → l.chain.successor = some n →
    n.refreshToken ∈ l.chain.removed →
    (∀ m ∈ ls, ∀ q, m.request = .refreshToken q → q.refreshToken ≠ n.refreshToken) →
    ∀ r ∈ w.store.refresh, r.refreshToken ≠ n.refreshToken

section TakenBack
variable {srv : Server} {w w' : World} {ls ls' : List Ledger} {l m : Ledger}

/-- Two requests whose access tokens have one string are one request. -/
theorem Provenance.eq_of_access (h : Provenance srv w ls) {t u : IssuedToken} (hl : l ∈ ls)
    (hm : m ∈ ls) (ht : l.issue.access = some t) (hu : m.issue.access = some u)
    (hkey : t.accessToken = u.accessToken) : l = m := by
  have hdrawn : ∀ {l : Ledger} {t : IssuedToken}, l ∈ ls → l.issue.access = some t →
      t.accessToken ∈ l.drawn := fun hl ht =>
    (h.coherent _ hl).access_drawn (h.fresh.accounted _ hl) ht
  exact h.fresh.eq_of_drawn hl hm (hdrawn hl ht) (hkey ▸ hdrawn hm hu)

/-- Two requests whose successors have one string are one request. -/
theorem Provenance.eq_of_successor (h : Provenance srv w ls) (hl : l ∈ ls) (hm : m ∈ ls)
    (hn : l.chain.successor = some n) (hr : m.chain.successor = some r)
    (hkey : n.refreshToken = r.refreshToken) : l = m := by
  have hdrawn : ∀ {l : Ledger} {n : RefreshTokenRecord}, l ∈ ls → l.chain.successor = some n →
      n.refreshToken ∈ l.drawn := by
    intro l n hl hn
    obtain ⟨e, he, hne⟩ := (h.coherent l hl).successor n hn
    rw [hne]
    exact (h.fresh.accounted l hl).entropy e he _ (by simp [World.drawnStrings])
  exact h.fresh.eq_of_drawn hl hm (hdrawn hl hn) (hkey ▸ hdrawn hm hr)

namespace TakenBack

theorem deleted_step (h : TakenBack srv w ls) (hP : Provenance srv w' ls')
    (ht : srv.Turns w ls w' ls') {t : IssuedToken} (hl : l ∈ ls') (hacc : l.issue.access = some t)
    (hdel : t.accessToken ∈ l.issue.deleted) : t ∉ w'.store.tokens := by
  intro hrow
  cases ht.changes with
  | quiet now w' ls' store ledgers =>
    rcases ledgers l hl with ⟨q, rfl⟩ | ⟨m, hm, halike⟩
    · cases hacc
    · exact h.deleted m hm t (halike.access ▸ hacc) (halike.deleted ▸ hdel)
        ((store.tokens rfl).mem hrow)
  | stored i m op a g hi may exec =>
    have hm := List.mem_of_getElem? hi
    have hmoved : ∀ (hacc : (m.stored op a).issue.access = some t)
        (_ : t.accessToken ∈ (m.stored op a).issue.deleted), False := by
      intro hacc hdel
      obtain ⟨h1, h2, h3⟩ := Ledger.deleted_stored may exec hacc hdel hrow
      exact h.deleted m hm t h1 h2 h3
    rcases List.mem_or_eq_of_mem_set hl with hold | rfl
    · rcases Ledger.tokens_stored (l := m) exec hrow with hrow | hnew
      · exact h.deleted l hold t hacc hdel hrow
      · have heq := hP.eq_of_access hl (mem_set_self hi) hacc hnew rfl
        rw [heq] at hdel
        exact hmoved hnew hdel
    · exact hmoved hacc hdel

theorem removed_step (h : TakenBack srv w ls) (hP : Provenance srv w' ls')
    (ht : srv.Turns w ls w' ls') (hl : l ∈ ls') (hp : l.request = .authorizationCodeToken p)
    (hn : l.chain.successor = some n) (hrem : n.refreshToken ∈ l.chain.removed)
    (hhidden : ∀ m ∈ ls', ∀ q, m.request = .refreshToken q → q.refreshToken ≠ n.refreshToken)
    (hrow : r ∈ w'.store.refresh) : r.refreshToken ≠ n.refreshToken := by
  have hhidden' : ∀ m ∈ ls, ∀ q, m.request = .refreshToken q → q.refreshToken ≠ n.refreshToken := by
    intro m hm q hq
    obtain ⟨m', hm', hg⟩ := ht.grows_mem hm
    exact hhidden m' hm' q (hg.request.trans hq)
  have hold : ∀ m ∈ ls, m.request = .authorizationCodeToken p → m.chain.successor = some n →
      n.refreshToken ∈ m.chain.removed → r ∈ w.store.refresh → r.refreshToken ≠ n.refreshToken :=
    fun m hm hp hn hrem => h.removed m hm p n hp hn hrem hhidden' r
  cases ht.changes with
  | quiet now w' ls' store ledgers =>
    rcases ledgers l hl with ⟨q, rfl⟩ | ⟨m, hm, halike⟩
    · cases hn
    · obtain ⟨mint, hchain⟩ := halike.chain
      rw [hchain] at hn hrem
      exact hold m hm (halike.request.symm.trans hp) hn hrem ((store.refresh rfl).mem hrow)
  | stored i m op a g hi may exec =>
    have hm := List.mem_of_getElem? hi
    have hgrows := Ledger.grows_stored (a := a) may
    intro hkey
    have hmoved : (m.stored op a).request = .authorizationCodeToken p →
        (m.stored op a).chain.successor = some n →
        n.refreshToken ∈ (m.stored op a).chain.removed → False := by
      intro hp hn hrem
      have hq := hgrows.request.symm.trans hp
      obtain ⟨h1, h2, h3⟩ := Ledger.removed_stored hq (h.own m hm) may exec hn hrem hrow hkey
      exact hold m hm hq h1 h2 h3 hkey
    rcases List.mem_or_eq_of_mem_set hl with hlold | rfl
    · rcases Ledger.refresh_written may exec hrow with hrow | ⟨q, hq, hqkey⟩ | hnew
      · exact hold l hlold hp hn hrem hrow hkey
      · exact hhidden' m hm q hq (hqkey.trans hkey)
      · have heq := hP.eq_of_successor hl (mem_set_self hi) hn hnew hkey.symm
        rw [heq] at hp hn hrem
        exact hmoved hp hn hrem
    · exact hmoved hp hn hrem

theorem step (h : TakenBack srv w ls)
    (hs : Discipline.LedgerStep srv.discipline w ls w' ls') : TakenBack srv w' ls' := by
  have hm := Server.moves_of_ledgerStep hs
  have hP := h.provenance.step hm
  refine ⟨hP, ?_, fun l hl t => h.deleted_step hP hm.turns hl, fun l hl p n hp hn hrem hhidden r =>
    h.removed_step hP hm.turns hl hp hn hrem hhidden⟩
  cases hs with
  | spawn q => exact forall_mem_append_one h.own fun _ _ _ hx => nomatch hx
  | run i l e c r w' hi hallowed hpossible hperform =>
    exact forall_mem_set h.own ((h.own l (List.mem_of_getElem? hi)).next hallowed)
  | env v w' henv => exact h.own

end TakenBack

theorem Server.takenBack {ok} {clock : SystemTime} {s : State}
    (h : srv.Runs ok clock s) :
    TakenBack srv s.world (srv.discipline.ledgers s) :=
  Discipline.invariant (D := srv.discipline) (I := TakenBack srv) h
    ⟨provenance_initial clock, by simp, by simp, by simp⟩ fun _ _ _ _ hI hl => hI.step hl

end TakenBack

/-! ## One redemption -/

/-- A presentation of the code that returned tokens. -/
def Call.Redeems (c : String) (t : Call) : Prop :=
  ∃ p response, t.request = .authorizationCodeToken p ∧ p.code = c ∧
    t.reply? = some (.token (.ok response))

/-- A presentation by the code's client that found the code redeemed before. -/
def Call.Replays (c : String) (t : Call) : Prop :=
  ∃ p r, t.request = .authorizationCodeToken p ∧
    t.Did (.storage (.takeAuthorizationCode c)) (.ok (some r)) ∧ r.clientId = p.clientId ∧
    r.state ≠ .issued

/-- A redemption that has come past its final swap. -/
def Call.Swapped (t : Call) : Prop :=
  ∃ expected updated done,
    t.Did (.storage (.compareAndSwapAuthorizationCode expected updated)) (.ok done)

/-- Nobody presents a refresh token that the request wrote. -/
def Call.Withheld (s : State) (t : Call) : Prop :=
  ∀ u ∈ s.threads, ∀ q n, u.request = .refreshToken q →
    t.Did (.storage (.putRefreshToken n)) (.ok .applied) → q.refreshToken ≠ n.refreshToken

/-- No access token and no refresh record that the request wrote is in the store. -/
def Call.Undone (s : State) (t : Call) : Prop :=
  (∀ token, t.Did (.storage (.putToken token)) (.ok .applied) →
    s.world.store.tokens.lookup token.accessToken = none) ∧
  ∀ n, t.Did (.storage (.putRefreshToken n)) (.ok .applied) →
    s.world.store.refresh.lookup n.refreshToken = none

section Once
variable {srv : Server} {ok : State → Move → State → Prop} {clock : SystemTime} {s : State} {t : Call}

theorem successor_of_did (h : srv.Runs ok clock s) (ht : t ∈ s.threads)
    (hp : t.request = .authorizationCodeToken p)
    (hdid : t.Did (.storage (.putRefreshToken n)) (.ok .applied)) :
    (srv.discipline.ledger t).chain.successor = some n := by
  refine Server.holds_of_did
    (Φ := fun l => l.request = .authorizationCodeToken p → l.chain.successor = some n) h ht hdid
    (fun l hallowed hq => ?_) (fun hg hl hq => hg.successor n (hl (hg.request.symm.trans hq)))
    ((srv.ledger_request t).trans hp)
  have hq' : l.request = .authorizationCodeToken p := hq
  exact (Ledger.mint_of_redemption hq' hallowed).2

theorem replayed_of_did {c : String} {r : AuthorizationCodeRecord} (h : srv.Runs ok clock s)
    (ht : t ∈ s.threads) (hp : t.request = .authorizationCodeToken p)
    (hdid : t.Did (.storage (.takeAuthorizationCode c)) (.ok (some r)))
    (howner : r.clientId = p.clientId) (hstate : r.state ≠ .issued) :
    (srv.discipline.ledger t).codes.replayed = some r ∧ r.code = c := by
  refine Discipline.did (D := srv.discipline) (Φ := fun l => l.request = .authorizationCodeToken p →
    l.codes.replayed = some r ∧ r.code = c) h ht hdid ?_ ?_ ((srv.ledger_request t).trans hp)
  · intro _ l _ _ _ hpossible hq
    obtain ⟨g, hg⟩ := hpossible
    have hq' : l.request = .authorizationCodeToken p := hq
    have howns : l.request.owns r = true := by
      rw [hq']
      exact beq_iff_eq.mpr howner.symm
    refine ⟨?_, Table.key_of_lookup (Except.ok.inj hg)⟩
    change (l.codes.take l.request r).replayed = some r
    simp [CodeLedger.take, howns, hstate]
  · intro l e a hl hallowed _ hq
    have hgrows := Ledger.grows_next (r := a) hallowed
    obtain ⟨hr, hcode⟩ := hl (hgrows.request.symm.trans hq)
    exact ⟨hgrows.replayed r hr, hcode⟩

/-- Only the final swap fills in how it went. -/
theorem swapped_next {l : Ledger} {e : Effect} {r : e.Answer}
    (h : (l.next e r).codes.swapped ≠ none) :
    l.codes.swapped ≠ none ∨ (Thread.Did t e r → Call.Swapped t) := by
  cases e with
  | storage op =>
    cases r with
    | error e => exact .inl h
    | ok a =>
      cases op with
      | compareAndSwapAuthorizationCode expected updated =>
        exact .inr fun hdid => ⟨expected, updated, a, hdid⟩
      | _ => first | exact .inl h | (cases a <;> exact .inl h)
  | tokenEntropy | randomHex bytes | sign claims => cases r <;> exact .inl h
  | _ => exact .inl h

theorem swapped_eq_none (h : ¬ Call.Swapped t) :
    (srv.discipline.ledger t).codes.swapped = none := by
  by_contra hne
  exact h (srv.discipline.of_ledger (Φ := fun l => l.codes.swapped ≠ none) (fun h => h rfl)
    (fun _ _ _ => swapped_next) hne)

/-- A redemption that a replay has overtaken is never recorded. -/
theorem unrecorded_after_replay {s' : State} {c : String} {i : Nat} {l : Ledger}
    {u : AuthorizationCodeRecord} (hF : srv.discipline.Follows s)
    (hC : CodeCustody srv s.world (srv.discipline.ledgers s)) (h : srv.semantics.Reaches ok s s')
    (hreplay : ∃ m ∈ srv.discipline.ledgers s, ∃ r, m.codes.replayed = some r ∧ r.code = c)
    (hstart : ∀ m, (srv.discipline.ledgers s)[i]? = some m → m.codes.recorded = none)
    (hi : (srv.discipline.ledgers s')[i]? = some l) (hu : l.codes.recorded = some u) :
    u.code ≠ c := by
  have hall := Discipline.invariant_of (D := srv.discipline)
    (I := fun w ls => CodeCustody srv w ls ∧
      (∃ m ∈ ls, ∃ r, m.codes.replayed = some r ∧ r.code = c) ∧
      ∀ m, ls[i]? = some m → ∀ u, m.codes.recorded = some u → u.code ≠ c) h hF
    ⟨hC, hreplay, fun m hm u hu => nomatch (hstart m hm).symm.trans hu⟩ ?_
  · exact hall.2.2 l hi u hu
  rintro s a s' ⟨hC, ⟨m, hm, r, hr, hcode⟩, hnone⟩ - hstep
  have hmove := Server.moves_of_ledgerStep hstep
  obtain ⟨m', hm', hgrows⟩ := hmove.turns.grows_mem hm
  refine ⟨hC.step hmove, ⟨m', hm', r, hgrows.replayed r hr, hcode⟩, fun n hn u hu huc => ?_⟩
  obtain ⟨n', hn', hold | ⟨-, hopen⟩⟩ := CodeCustody.recorded_turned (hmove.turns.turned_at hn) hu
  · exact hnone n' hn' u hold huc
  · have hclosed := hC.closed m hm r hr
    rw [huc, ← hcode] at hopen
    omega

/-- A code redeems at most once. And once a presentation by the code's client has met a replay, a
redemption that has not come to its final swap yet is refused, and when it has returned neither
the access token nor the refresh record it wrote is in the store, as long as nobody presents the
refresh token. -/
theorem code_redeems_once {s s' : State} {c : String} (h : srv.Reachable s)
    (h' : srv.semantics.Reaches Semantics.anyStep s s') :
    (∀ (i j : Nat) (t u : Call), s'.threads[i]? = some t → s'.threads[j]? = some u →
      Call.Redeems c t → Call.Redeems c u → i = j) ∧
    ∀ (i : Nat) (t : Call) p result, (∃ u ∈ s.threads, Call.Replays c u) →
      (∀ t₀, s.threads[i]? = some t₀ → ¬ Call.Swapped t₀) → s'.threads[i]? = some t →
      t.request = .authorizationCodeToken p → p.code = c → t.reply? = some (.token result) →
      Call.Withheld s' t → (∃ e, result = .error e) ∧ Call.Undone s' t := by
  obtain ⟨clock, hreach⟩ := h
  have hreach' := hreach.trans h'
  have hF := srv.discipline.follows_run hreach
  have hF' := Discipline.follows_of_reaches h' hF
  have hC := Server.codeCustody hreach
  have hC' := Server.codeCustody hreach'
  refine ⟨?_, ?_⟩
  · rintro i j t u hi hj ⟨p, response, hp, rfl, ht⟩ ⟨q, response', hq, hqc, hu⟩
    have haccept : Ledger.Accepts srv _ _ := Discipline.accepts hF' (List.mem_of_getElem? hi) ht
    have haccept' : Ledger.Accepts srv _ _ := Discipline.accepts hF' (List.mem_of_getElem? hj) hu
    simp only [Ledger.Accepts, (srv.ledger_request t).trans hp] at haccept
    simp only [Ledger.Accepts, (srv.ledger_request u).trans hq] at haccept'
    obtain ⟨-, ⟨r, hr, hrc, -⟩, -⟩ := haccept
    obtain ⟨-, ⟨r', hr', hrc', -⟩, -⟩ := haccept'
    exact hC'.redeemed_once (Discipline.ledgers_getElem? hi) (Discipline.ledgers_getElem? hj) hr hr'
      (hrc.trans (hqc.symm.trans hrc'.symm))
  · rintro i t p result ⟨u, hu, q, r, hq, hdid, howner, hstate⟩ hswapped hi hp rfl hreply hhidden
    have ht := List.mem_of_getElem? hi
    have hl := Discipline.mem_ledgers (D := srv.discipline) ht
    have haccept : Ledger.Accepts srv _ _ := Discipline.accepts hF' ht hreply
    have hrequest := (srv.ledger_request t).trans hp
    obtain ⟨hr, hcode⟩ := replayed_of_did hreach hu hq hdid howner hstate
    have hstart : ∀ m, (srv.discipline.ledgers s)[i]? = some m → m.codes.recorded = none := by
      intro m hm
      obtain ⟨t₀, ht₀, rfl⟩ := Option.map_eq_some_iff.mp ((List.getElem?_map ..).symm.trans hm)
      by_contra hne
      obtain ⟨v, hv⟩ := Option.ne_none_iff_exists'.mp hne
      have hdone := ((hC.coherent _ (List.mem_of_getElem? hm)).recorded v hv).1
      cases (swapped_eq_none (hswapped t₀ ht₀)).symm.trans hdone
    cases result with
    | ok response =>
      simp only [Ledger.Accepts, hrequest] at haccept
      obtain ⟨-, ⟨r', hr', hrc', hrecorded⟩, -⟩ := haccept
      refine absurd ?_ (unrecorded_after_replay hF hC h' ⟨_, Discipline.mem_ledgers hu, r, hr, hcode⟩
        hstart (Discipline.ledgers_getElem? hi) hrecorded)
      exact hrc'
    | error e =>
      simp only [Ledger.Accepts, hrequest] at haccept
      obtain ⟨-, ⟨hdeleted, hremoved⟩, -⟩ := haccept
      have hT := Server.takenBack hreach'
      refine ⟨⟨e, rfl⟩, fun token htoken => ?_, fun n hn => ?_⟩
      · have haccess := Server.access_of_did hreach' ht htoken
        refine Table.lookup_eq_none.mpr fun row hrow hkey => ?_
        obtain ⟨m, hm, hmrow⟩ := hT.provenance.tokens row hrow
        cases hT.provenance.eq_of_access hl hm haccess hmrow hkey.symm
        cases haccess.symm.trans hmrow
        exact hT.deleted _ hl token haccess (hdeleted token haccess) hrow
      · have hsuccessor := successor_of_did hreach' ht hp hn
        refine Table.lookup_eq_none.mpr fun row hrow => ?_
        refine hT.removed _ hl p n hrequest hsuccessor (hremoved n hsuccessor) ?_ row hrow
        intro m hm q hq
        obtain ⟨u', hu', rfl⟩ := List.mem_map.mp hm
        exact hhidden u' hu' q n ((srv.ledger_request u').symm.trans hq) hn

end Once

namespace Sample

variable {t : Call}

/-- A redemption has written its tokens, and the client presents the code again. -/
def overtakes : List Move :=
  registers 0 app ++ issuesCode 1 approval ++ admits 2 (.authorizationCodeToken (presentation "app")) ++
    go 2 4 ++ [.run 2 (.entropy (some (entropy 1)))] ++ go 2 3 ++
    admits 3 (.authorizationCodeToken (presentation "app")) ++ go 3 1

/-- The replay is answered, and the redemption comes to its swap. -/
def losesSwap : List Move := go 3 2 ++ go 2 3

/-- Whether a presentation of the code by its client found it redeemed before. -/
def replays (t : Call) : Bool :=
  t.request = .authorizationCodeToken (presentation "app") && t.trace.any fun
    | ⟨.storage (.takeAuthorizationCode c), .ok (some r)⟩ =>
      c = code && r.clientId = "app" && r.state != .issued
    | _ => false

theorem replays_of (h : replays t = true) : Call.Replays code t := by
  simp only [replays, Bool.and_eq_true, decide_eq_true_eq, List.any_eq_true] at h
  obtain ⟨hrequest, ⟨e, r⟩, hmem, hcall⟩ := h
  split at hcall
  · rename_i c r heq
    cases heq
    simp only [Bool.and_eq_true, decide_eq_true_eq, bne_iff_ne] at hcall
    obtain ⟨⟨rfl, hclient⟩, hstate⟩ := hcall
    exact ⟨_, r, hrequest, hmem, hclient, hstate⟩
  · cases hcall

/-- Whether a redemption has come past its final swap. -/
def swaps (t : Call) : Bool :=
  t.trace.any fun
    | ⟨.storage (.compareAndSwapAuthorizationCode _ _), _⟩ => true
    | _ => false

theorem swaps_of (h : Call.Swapped t) : swaps t = true := by
  obtain ⟨expected, updated, done, hdid⟩ := h
  exact List.any_eq_true.mpr ⟨_, hdid, rfl⟩

/-- Whether a request was refused tokens. -/
def refused (t : Call) : Bool :=
  t.reply?.any fun
    | .token (.error _) => true
    | _ => false

theorem reply_of_refused (h : refused t = true) : ∃ result, t.reply? = some (.token result) := by
  obtain ⟨reply, hreply, hany⟩ := (Option.any_eq_true _ _).mp h
  split at hany
  · exact ⟨_, hreply⟩
  · cases hany

/-- Whether a request wrote an access token and a refresh record. -/
def issues (t : Call) : Bool :=
  (t.trace.any fun | ⟨.storage (.putToken _), .ok .applied⟩ => true | _ => false) &&
    t.trace.any fun | ⟨.storage (.putRefreshToken _), .ok .applied⟩ => true | _ => false

end Sample

/-- A redemption that wrote both its tokens before a replay is refused and undone. -/
theorem code_redeems_once_overtaken :
    ∃ (s s' : State) (t : Call),
      server.semantics.run (State.idle (.initial 0)) overtakes = some s ∧
      server.semantics.run s losesSwap = some s' ∧ s'.Settled ∧ s'.threads[2]? = some t ∧
      issues t = true ∧ (∃ e, t.reply? = some (.token (.error e))) ∧ Call.Undone s' t := by
  obtain ⟨s, hs, ⟨u, hu, hreplays⟩, ⟨t₀, ht₀, hswaps⟩, s', hs', hsettled, hrefresh, t, ht, hrequest,
      hissues, hrefused⟩ : ∃ s ∈ server.semantics.run (State.idle (.initial 0)) overtakes,
      (∃ u ∈ s.threads, replays u = true) ∧ (∃ t ∈ s.threads[2]?, swaps t = false) ∧
      ∃ s' ∈ server.semantics.run s losesSwap, State.Settled s' ∧
        (∀ u ∈ s'.threads, u.request.isRefresh = false) ∧ ∃ t ∈ s'.threads[2]?,
          t.request = .authorizationCodeToken (presentation "app") ∧ issues t = true ∧
            refused t = true := by
    decide +kernel
  obtain ⟨result, hreply⟩ := reply_of_refused hrefused
  obtain ⟨⟨e, rfl⟩, hundone⟩ := (code_redeems_once ⟨0, Semantics.reaches_of_run hs⟩
    (Semantics.reaches_of_run hs')).2 2 t _ result ⟨u, hu, replays_of hreplays⟩
    (fun t₁ ht₁ hswapped => by
      cases ht₀.symm.trans ht₁
      rw [swaps_of hswapped] at hswaps
      cases hswaps) ht hrequest rfl hreply
    (fun u hu q n hq => by
      have := hrefresh u hu
      rw [hq] at this
      cases this)
  exact ⟨s, s', t, hs, hs', hsettled, ht, hissues, ⟨e, hreply⟩, hundone⟩

/-! ## Containing a replay -/

section Replay
variable {srv : Server} {clock : SystemTime} {s : State}

/-- A replay that reports a containment revoked the family behind the refresh token that the code's
record names, unless it looked for that token in vain. -/
theorem contains_of_report {ok} {t : Call} {clientId : String} {familyId : Option String}
    {revokedFamily : Bool} (h : srv.Runs ok clock s) (ht : t ∈ s.threads)
    (hreport : t.Did
      (.emit (.authorizationCodeReplayDetected clientId familyId revokedFamily false)) ()) :
    ∃ r a b, (srv.discipline.ledger t).codes.replayed = some r ∧ r.state.minted = some (a, b) ∧
      ∀ rt, b = some rt → rt ∈ (srv.discipline.ledger t).chain.missed ∨
        ∃ rec ∈ (srv.discipline.ledger t).chain.reads, rec.refreshToken = rt ∧
          rec.familyId ∈ (srv.discipline.ledger t).chain.revoked := by
  refine Server.holds_of_did (Φ := fun l : Ledger => ∃ r a b, l.codes.replayed = some r ∧
    r.state.minted = some (a, b) ∧ ∀ rt, b = some rt → rt ∈ l.chain.missed ∨
      ∃ rec ∈ l.chain.reads, rec.refreshToken = rt ∧ rec.familyId ∈ l.chain.revoked) h ht hreport
    (fun _ hallowed => hallowed) ?_
  rintro l l' hgrows ⟨r, a, b, hr, hminted, hcontains⟩
  refine ⟨r, a, b, hgrows.replayed r hr, hminted, fun rt hrt => ?_⟩
  rcases hcontains rt hrt with hmissed | ⟨rec, hread, hkey, hrevoked⟩
  · exact .inl (hgrows.missed hmissed)
  · exact .inr ⟨rec, hgrows.reads hread, hkey, hgrows.revoked hrevoked⟩

/-- A replay that reports its containment, and did not look for the code's refresh token in vain,
is contained: while the barrier of the family that the redemption minted is not swept, nothing of
the family is in the store, whatever the concurrent refreshes were doing. -/
theorem replay_contained {t₀ t₁ : Call} {p₀ p₁ : CodePresentation} {response : TokenResponse}
    {record : RefreshTokenRecord} {clientId : String} {familyId : Option String}
    {revokedFamily : Bool}
    (h : srv.semantics.Reaches (Unswept record.familyId) (State.idle (.initial clock)) s)
    (ht₀ : t₀ ∈ s.threads) (hp₀ : t₀.request = .authorizationCodeToken p₀)
    (hredeemed : t₀.reply? = some (.token (.ok response)))
    (hminted : t₀.Did (.storage (.putRefreshToken record)) (.ok .applied))
    (ht₁ : t₁ ∈ s.threads) (hp₁ : t₁.request = .authorizationCodeToken p₁)
    (hcode : p₁.code = p₀.code)
    (hreport : t₁.Did
      (.emit (.authorizationCodeReplayDetected clientId familyId revokedFamily false)) ())
    (hfound : ¬ t₁.Did (.storage (.getRefreshToken record.refreshToken)) (.ok none)) :
    (∀ token ∈ s.world.store.tokens, token.familyId ≠ some record.familyId) ∧
      ∀ r ∈ s.world.store.refresh, r.familyId ≠ record.familyId := by
  have hF := srv.discipline.follows_run h
  have hC := Server.codeCustody h
  have hP := Server.provenance h
  have hl₀ := Discipline.mem_ledgers (D := srv.discipline) ht₀
  have hl₁ := Discipline.mem_ledgers (D := srv.discipline) ht₁
  -- What the redemption recorded names the refresh token it minted.
  have haccept : Ledger.Accepts srv _ _ := Discipline.accepts hF ht₀ hredeemed
  simp only [Ledger.Accepts, (srv.ledger_request t₀).trans hp₀] at haccept
  obtain ⟨-, ⟨r₀, -, hr₀code, hrecorded⟩, -, hanswer⟩ := haccept
  have hsuccessor := successor_of_did h ht₀ hp₀ hminted
  have hkey : response.refreshToken = some record.refreshToken := by
    rw [hanswer, Ledger.successorKey, hsuccessor]
    rfl
  -- So does the record that the replay met.
  obtain ⟨r, a, b, hreplayed, hrminted, hcontains⟩ := contains_of_report h ht₁ hreport
  obtain ⟨q, hq, hrq⟩ := (hC.coherent _ hl₁).presented r (.inr (.inr hreplayed))
  cases ((srv.ledger_request t₁).trans hp₁).symm.trans hq
  have hsame := hC.recorded _ hl₀ _ hrecorded r (.of_replayed hl₁ hreplayed)
    (hrq.trans (hcode.trans hr₀code.symm))
  rw [hrminted] at hsame
  have hb : b = some record.refreshToken := by
    rw [← hkey]
    exact (Prod.ext_iff.mp (Option.some.inj hsame)).2
  rcases hcontains _ hb with hmissed | ⟨rec, hread, hrec, hrevoked⟩
  · exact absurd (did_of_missed hmissed) hfound
  · have hgrant := hP.sameGrant (.of_record hl₁ (ChainLedger.mem_records.mpr (.inl hread)))
      (.of_record hl₀ (ChainLedger.mem_records.mpr (.inr (.inr (.inr hsuccessor))))) hrec
    rw [hgrant.2.1] at hrevoked
    obtain ⟨j, hj⟩ := List.mem_iff_getElem?.mp ht₁
    exact (Server.unrevoked h).family (standing_of_revoked (n := 0) Discipline.follows_of_idle h
      (fun j l _ hj => by cases hj) (Nat.zero_le j) (Discipline.ledgers_getElem? hj) hrevoked)

namespace Sample

/-- The code is presented again while a rotation has the chain's record in its hands. -/
def replayMisses : List Move :=
  redeemed 1 ++ admits 3 (.refreshToken (refreshing (entropy 1).refresh.text)) ++ go 3 1 ++
    admits 4 (.authorizationCodeToken (presentation "app")) ++ go 4 5 ++ go 3 3 ++
    [.run 3 (.entropy (some (entropy 2)))] ++ go 3 3

/-- The code is presented again and the chain's record looked up before a rotation takes it. -/
def replayFinds : List Move :=
  redeemed 1 ++ admits 3 (.refreshToken (refreshing (entropy 1).refresh.text)) ++
    admits 4 (.authorizationCodeToken (presentation "app")) ++ go 4 2 ++ go 3 1 ++ go 4 4 ++ go 3 2

/-- The refresh record a request wrote first. -/
def minted (t : Call) : Option RefreshTokenRecord :=
  t.trace.findSome? fun
    | ⟨.storage (.putRefreshToken n), .ok .applied⟩ => some n
    | _ => none

theorem did_of_minted {t : Call} (h : minted t = some n) :
    t.Did (.storage (.putRefreshToken n)) (.ok .applied) := by
  obtain ⟨⟨e, r⟩, hmem, hcall⟩ := List.exists_of_findSome?_eq_some h
  split at hcall
  · rename_i heq
    cases heq
    cases hcall
    exact hmem
  · cases hcall

end Sample

/-- A rotation that has taken the record of the chain hides the family from the replay, which
reports that nothing failed; the rotation goes on to write the successor and a new access token. -/
theorem replay_not_contained :
    ∃ (s : State) (t₀ t₁ : Call) (response : TokenResponse) (record : RefreshTokenRecord),
      server.semantics.runChecked (fun s a s' => Unswept (entropy 1).family.text s a s')
        (State.idle (.initial 0)) replayMisses = some s ∧ s.Settled ∧
      t₀ ∈ s.threads ∧ t₀.request = .authorizationCodeToken (presentation "app") ∧
      t₀.reply? = some (.token (.ok response)) ∧
      t₀.Did (.storage (.putRefreshToken record)) (.ok .applied) ∧
      record.familyId = (entropy 1).family.text ∧
      t₁ ∈ s.threads ∧ t₁.request = .authorizationCodeToken (presentation "app") ∧
      t₁.Did (.emit (.authorizationCodeReplayDetected "app" none false false)) () ∧
      (∃ token ∈ s.world.store.tokens, token.familyId = some record.familyId) ∧
      ∃ r ∈ s.world.store.refresh, r.familyId = record.familyId ∧ r.state = .active := by
  obtain ⟨s, hs, hsettled, t₀, ht₀, hp₀, ⟨response, hresponse, -⟩, record, hrecord, hfamily,
      ⟨t₁, ht₁, hp₁, hreports⟩, htoken, hrefresh⟩ : ∃ s ∈ server.semantics.runChecked
      (fun s a s' => Unswept (entropy 1).family.text s a s') (State.idle (.initial 0)) replayMisses,
      State.Settled s ∧ ∃ t₀ ∈ s.threads,
        t₀.request = .authorizationCodeToken (presentation "app") ∧
        (∃ response ∈ answered t₀, True) ∧ ∃ record ∈ minted t₀,
          record.familyId = (entropy 1).family.text ∧ (∃ t₁ ∈ s.threads,
            t₁.request = .authorizationCodeToken (presentation "app") ∧
            t₁.Did (.emit (.authorizationCodeReplayDetected "app" none false false)) ()) ∧
          (∃ token ∈ s.world.store.tokens.rows, token.familyId = some record.familyId) ∧
          ∃ r ∈ s.world.store.refresh.rows, r.familyId = record.familyId ∧ r.state = .active := by
    decide +kernel
  exact ⟨s, t₀, t₁, response, record, hs, hsettled, ht₀, hp₀, reply_of_answered hresponse,
    did_of_minted hrecord, hfamily, ht₁, hp₁, hreports, htoken, hrefresh⟩

/-- A replay whose lookup comes first contains the family although a rotation takes the record
before the family is revoked. -/
theorem replay_contained_found :
    ∃ (s : State) (t₀ t₁ : Call) (record : RefreshTokenRecord),
      server.semantics.runChecked (fun s a s' => Unswept (entropy 1).family.text s a s')
        (State.idle (.initial 0)) replayFinds = some s ∧ s.Settled ∧ t₀ ∈ s.threads ∧
      t₀.Did (.storage (.putRefreshToken record)) (.ok .applied) ∧ t₁ ∈ s.threads ∧
      t₁.Did (.emit (.authorizationCodeReplayDetected "app" (some record.familyId) true false)) () ∧
      (∀ token ∈ s.world.store.tokens, token.familyId ≠ some record.familyId) ∧
      ∀ r ∈ s.world.store.refresh, r.familyId ≠ record.familyId := by
  obtain ⟨s, hs, hsettled, t₀, ht₀, hp₀, ⟨response, hresponse, -⟩, record, hrecord, hfamily, t₁, ht₁,
      hp₁, hreports, hmisses⟩ : ∃ s ∈ server.semantics.runChecked
      (fun s a s' => Unswept (entropy 1).family.text s a s') (State.idle (.initial 0)) replayFinds,
      State.Settled s ∧ ∃ t₀ ∈ s.threads,
        t₀.request = .authorizationCodeToken (presentation "app") ∧
        (∃ response ∈ answered t₀, True) ∧ ∃ record ∈ minted t₀,
          record.familyId = (entropy 1).family.text ∧ ∃ t₁ ∈ s.threads,
            t₁.request = .authorizationCodeToken (presentation "app") ∧
            t₁.Did (.emit (.authorizationCodeReplayDetected "app" (some record.familyId) true false))
              () ∧ ¬ t₁.Did (.storage (.getRefreshToken record.refreshToken)) (.ok none) := by
    decide +kernel
  have hreach : server.semantics.Reaches (Unswept record.familyId) (State.idle (.initial 0)) s := by
    rw [hfamily]
    exact Semantics.reaches_of_runChecked (fun _ _ _ h => of_decide_eq_true h) hs
  refine ⟨s, t₀, t₁, record, hs, hsettled, ht₀, did_of_minted hrecord, ht₁,
    hreports, ?_⟩
  exact replay_contained hreach ht₀ hp₀ (reply_of_answered hresponse) (did_of_minted hrecord) ht₁
    hp₁ rfl hreports hmisses

end Replay

end OauthAs
