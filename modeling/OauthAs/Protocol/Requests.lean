-- SUMMARY: What a thread of the front half was asked and whom it judged that by, told by its trace.
import OauthAs.Protocol.Handles
import OauthAs.Protocol.Mints

/-!
# Requests and the registrations they are judged by

A ledger of the front half says which request its door led to and which registration decided. Here
the same is said of a thread and its trace alone, so that a guarantee can be read without ledgers.
-/

namespace OauthAs

namespace ServiceCall

variable (srv : Server) (t : ServiceCall)

/-- The request the thread's door led to: the query itself, what it took from the store under the
handle, or what the object's payload says. -/
def Asks (door : Door) (request : AuthorizationRequest) : Prop :=
  match door with
  | .query asked => request = asked
  | .pushed clientId requestUri => ∃ record : PushedAuthorizationRequest,
      t.Did (.storage (.takePushedAuthorizationRequest requestUri)) (.ok (some record)) ∧
      record.requestUri = requestUri ∧ record.clientId = clientId ∧ request = record.asRequest
  | .signed clientId object => ∃ payload claims, srv.signedPayload clientId object = .ok payload ∧
      readClaims srv.host.renderJson clientId payload = .ok claims ∧ request = claims.asRequest

/-- The request the thread came with, and the registration it read for it. -/
structure Judges (request : AuthorizationRequest) (client : Client) : Prop where
  asks : ∃ door, srv.door t.request = some door ∧ t.Asks srv door request
  read : t.Did (.storage (.getClient client.clientId)) (.ok (some client))
  named : request.clientId = some client.clientId

variable {srv t} {t' : ServiceCall} {request : AuthorizationRequest} {client : Client}

theorem Asks.mono {door : Door} (h : t.Asks srv door request) (htrace : t.trace <+: t'.trace) :
    t'.Asks srv door request := by
  cases door with
  | pushed clientId requestUri =>
    obtain ⟨record, htook, hrest⟩ := h
    exact ⟨record, htrace.subset htook, hrest⟩
  | _ => exact h

/-- What a thread knows of its request it goes on knowing. -/
theorem Judges.mono (h : t.Judges srv request client) (hrequest : t'.request = t.request)
    (htrace : t.trace <+: t'.trace) : t'.Judges srv request client := by
  obtain ⟨door, hdoor, hasks⟩ := h.asks
  exact ⟨⟨door, hrequest ▸ hdoor, hasks.mono htrace⟩, htrace.subset h.read, h.named⟩

end ServiceCall

namespace Server

variable {srv : Server} {ok : ServiceState → ServiceMove → ServiceState → Prop} {w : World}
  {s : ServiceState} {t : ServiceCall} {q : ServiceRequest} {l : FrontLedger} {door : Door}

theorem asks_of_asked (h : srv.service.Reaches ok (ServiceState.idle w) s) (ht : t ∈ s.threads)
    (hledger : srv.serviceDiscipline.ledger t = .front q l) {request : AuthorizationRequest}
    (hasked : l.Asked srv door request) : t.Asks srv door request := by
  cases door with
  | query asked => exact hasked.1
  | pushed clientId requestUri =>
    obtain ⟨record, hhand, rfl, hclient, hrequest⟩ := hasked
    obtain ⟨-, hpast, -⟩ := front_of_ledger hledger
    obtain ⟨htook, -⟩ := taken_of_hand h _ (Discipline.mem_ledgers ht) q l hledger record hhand
    rw [FrontLedger.Did, hpast] at htook
    exact ⟨record, htook, rfl, hclient, hrequest⟩
  | signed clientId object =>
    obtain ⟨-, claims, ⟨payload, -, -, hpayload, -, hclaims⟩, hrequest⟩ := hasked
    exact ⟨payload, claims, hpayload, hclaims, hrequest⟩

section Judging
variable (h : srv.service.Reaches ok (ServiceState.idle w) s) (ht : t ∈ s.threads)
  (hledger : srv.serviceDiscipline.ledger t = .front q l) (hdoor : srv.door q = some door)

include h ht hledger hdoor

/-- A registration that a ledger judged a request by, told by the thread's trace. -/
theorem judges_of_asked {client : Client} (hasked : l.Asked srv door request)
    (hread : l.Did (.storage (.getClient client.clientId)) (.ok (some client)))
    (hnamed : request.clientId = some client.clientId) : t.Judges srv request client := by
  obtain ⟨hq, hpast, -⟩ := front_of_ledger hledger
  rw [FrontLedger.Did, hpast] at hread
  refine ⟨⟨door, ?_, asks_of_asked h ht hledger hasked⟩, hread, hnamed⟩
  rw [hq]
  exact hdoor

/-- A verdict of a ledger, told by the thread's trace. -/
theorem judges_of_resolved {verdict : Except AuthorizationError ValidatedAuthorizationRequest}
    (hresolved : l.Resolved srv door verdict) :
    ∃ request client, t.Judges srv request client ∧ srv.validateFor client request = verdict := by
  obtain ⟨request, hasked, client, hread, hnamed, hverdict⟩ := hresolved
  exact ⟨request, client, judges_of_asked h ht hledger hdoor hasked hread hnamed, hverdict⟩

/-- An address of a ledger, told by the thread's trace. -/
theorem judges_of_addresses {r : Redirect} (haddresses : l.Addresses srv door r) :
    ∃ request client, t.Judges srv request client ∧ redirectTarget client request = .ok r.target ∧
      r.state = request.state ∧ r.iss = srv.issuerIdentifier := by
  obtain ⟨request, client, hasked, hread, hnamed, hrest⟩ := haddresses
  exact ⟨request, client, judges_of_asked h ht hledger hdoor hasked hread hnamed, hrest⟩

end Judging

/-- The ledger of a thread of the front half that has replied, and what the reply promises. -/
theorem front_accepts (h : srv.service.Reaches ok (ServiceState.idle w) s) (ht : t ∈ s.threads)
    {reply : ServiceReply} (hreply : t.reply? = some reply) (hfront : ∀ a, reply ≠ .api a) :
    ∃ q l, srv.serviceDiscipline.ledger t = .front q l ∧ l.Accepts srv q reply := by
  have haccepts := srv.serviceDiscipline.accepts (Discipline.follows_run h) ht hreply
  cases hledger : srv.serviceDiscipline.ledger t with
  | api l =>
    rw [hledger] at haccepts
    obtain ⟨a, ha, -⟩ := haccepts
    exact absurd ha (hfront a)
  | front q l =>
    rw [hledger] at haccepts
    exact ⟨q, l, rfl, haccepts⟩

end Server

/-! ## Validated requests

A validated request can only be had from a call that validates; the host may still put the
details the user picked into it. -/

/-- A call has returned this request as validated, but for the details. -/
def ServiceState.Vouches (s : ServiceState) (v : ValidatedAuthorizationRequest) : Prop :=
  ∃ t ∈ s.threads, ∃ validated, t.reply? = some (.validated (.ok validated)) ∧
    v = { validated with authorizationDetails := v.authorizationDetails }

/-- Codes are asked for only for requests that were validated. -/
def Sealed : ServiceState → ServiceMove → ServiceState → Prop
  | s, .spawn q, _ => ∀ approval, q.approval? = some approval → s.Vouches approval.request
  | _, _, _ => True

theorem ServiceState.Vouches.step {srv : Server} {s s' : ServiceState} {a : ServiceMove}
    {v : ValidatedAuthorizationRequest} (h : s.Vouches v) (hstep : srv.service.step s a = some s') :
    s'.Vouches v := by
  obtain ⟨t, ht, validated, hreply, hv⟩ := h
  have hfinished : t.Finished := by
    rw [Thread.Finished, hreply]
    rfl
  exact ⟨t, Semantics.step_finished hstep ht hfinished, validated, hreply, hv⟩

/-- Whatever codes are asked for was validated before. -/
theorem vouched_of_sealed {srv : Server} {w : World} {s : ServiceState}
    (h : srv.service.Reaches Sealed (ServiceState.idle w) s) :
    ∀ t ∈ s.threads, ∀ approval, t.request.approval? = some approval →
      s.Vouches approval.request := by
  refine h.invariant (I := fun s : ServiceState => ∀ t ∈ s.threads, ∀ approval,
    t.request.approval? = some approval → s.Vouches approval.request) ?_
    (by rintro t ⟨⟩)
  intro s a s' hI hstep hsealed t ht approval happroval
  have hold : ∀ u ∈ s.threads, u.request = t.request →
      ServiceState.Vouches s' approval.request :=
    fun u hu hrequest => (hI u hu approval (hrequest ▸ happroval)).step hstep
  obtain ⟨i, hi⟩ := List.mem_iff_getElem?.mp ht
  rcases Semantics.thread_of_step hstep hi with ⟨q, rfl, rfl⟩ | hsame |
    ⟨u, c, e, k, r, -, hu, -, -, rfl⟩
  · exact (hsealed approval happroval).step hstep
  · exact hold t (List.mem_of_getElem? hsame) rfl
  · exact hold u (List.mem_of_getElem? hu) rfl

/-- A request that is vouched for came through the door of the call that validated it. -/
theorem ServiceState.Vouches.resolved {srv : Server} {ok} {w : World} {s : ServiceState}
    (h : srv.service.Reaches ok (ServiceState.idle w) s) {v : ValidatedAuthorizationRequest}
    (hv : s.Vouches v) :
    ∃ t ∈ s.threads, ∃ q l door validated, srv.serviceDiscipline.ledger t = .front q l ∧
      srv.door q = some door ∧ l.Resolved srv door (.ok validated) ∧
      v = { validated with authorizationDetails := v.authorizationDetails } := by
  obtain ⟨t, ht, validated, hreply, hv⟩ := hv
  obtain ⟨q, l, hledger, -, door, hdoor, hresolved⟩ :=
    Server.front_accepts h ht hreply (by rintro a ⟨⟩)
  exact ⟨t, ht, q, l, door, validated, hledger, hdoor, hresolved, hv⟩

/-- For every code the thread is found that validated its request, and the door it came through. -/
theorem Server.resolution {srv : Server} {w : World} {s : ServiceState}
    (hnone : ∀ r, r ∉ w.store.codes) (h : srv.service.Reaches Sealed (ServiceState.idle w) s)
    {r : AuthorizationCodeRecord}
    (hr : r ∈ s.world.store.codes ∨ ∃ l ∈ srv.serviceDiscipline.ledgers s, l.Carries r) :
    ∃ s₁, srv.service.Reaches Sealed (ServiceState.idle w) s₁ ∧
      srv.service.Reaches Sealed s₁ s ∧
      ∃ t ∈ s₁.threads, ∃ q l door v v' m, srv.serviceDiscipline.ledger t = .front q l ∧
        srv.door q = some door ∧ l.Resolved srv door (.ok v) ∧
        v' = { v with authorizationDetails := v'.authorizationDetails } ∧
        AuthorizationCodeRecord.IssuedFor srv m v' ∧ r.SameCode m := by
  obtain ⟨t, ht, m, hq, hdid, hsame⟩ := Server.minter hnone h hr
  obtain ⟨i, hi⟩ := List.mem_iff_getElem?.mp ht
  obtain ⟨before, after, -, moment, l, hledger, -, approval, requirement, authentication, checked,
    filed, code, hmints⟩ := Server.minting h hi hq hdid
  have hfor : AuthorizationCodeRecord.IssuedFor srv m approval.request :=
    ⟨_, _, _, _, _, hmints.record_eq⟩
  rcases hmints.issues.cases with happroval | ⟨door, hdoor, hresolved⟩
  · obtain ⟨u, hu, q, l, door, v, hledger, hdoor, hresolved, hv⟩ :=
      (vouched_of_sealed h t ht approval happroval).resolved h
    exact ⟨s, h, .refl, u, hu, q, l, door, v, approval.request, m, hledger, hdoor, hresolved, hv,
      hfor, hsame⟩
  · exact ⟨moment.prior, moment.reached, .head ⟨_, moment.steps, moment.fair⟩ moment.leads,
      moment.caller, List.mem_of_getElem? moment.here, _, l, door, _, _, m, hledger, hdoor,
      hresolved, rfl, hfor, hsame⟩

namespace Sample

/-- Nobody asks for a code. -/
def asksNone (_ : ServiceState) : ServiceMove → ServiceState → Bool
  | .spawn q, _ => q.approval?.isNone
  | _, _ => true

theorem sealed_of_asksNone (s : ServiceState) (a : ServiceMove) (s' : ServiceState)
    (h : asksNone s a s' = true) : Sealed s a s' := by
  cases a with
  | spawn q =>
    intro approval happroval
    rw [asksNone, happroval] at h
    cases h
  | _ => trivial

end Sample

end OauthAs
