-- SUMMARY: What stands in the query beside a handle or a signed object makes no difference.
import OauthAs.Lib.Couple
import OauthAs.Protocol.Mints

/-!
# Queries that carry a handle or an object

A request that was pushed or signed is resolved from the store or from the object. Two queries that
name the same client and the same handle, or the same object, are resolved by the same program, and
the endpoint as a whole does the same for both, except that the approval step is shown the query.
-/

namespace OauthAs

open Prog Handler

variable {e : Effect} {r : e.Answer}

/-! ## Two runs of the endpoint -/

/-- The calls whose answers are settled by the store and the clock, or by the world's choice. -/
def Effect.settled : Effect → Bool
  | .storage (.putAuthorizationCode _) => false
  | .tokenEntropy | .randomHex _ | .randomUserCode _ | .sign _ => false
  | _ => true

/-- Calls of two runs of the endpoint that belong together. -/
inductive EndpointPairs : (e e' : Effect) → (e.Answer → e'.Answer → Prop) → Prop
  | same (e : Effect) (settled : e.settled = true) : EndpointPairs e e Eq
  /-- The approval step is shown the query; it answers the same. -/
  | approve (asked asked' : ApprovalRequest) : EndpointPairs (.approve asked) (.approve asked') Eq
  /-- Another string may be drawn. -/
  | draw (bytes : Nat) : EndpointPairs (.randomHex bytes) (.randomHex bytes)
      fun r r' => r.isSome = r'.isSome

/-- The same code but for its string. -/
def AuthorizationCodeRecord.EqualButCode (m m' : AuthorizationCodeRecord) : Prop :=
  m = { m' with code := m.code }

inductive EndpointLast : Effect → Effect → Prop
  | store {m m' : AuthorizationCodeRecord} (same : m.EqualButCode m') :
      EndpointLast (.storage (.putAuthorizationCode m)) (.storage (.putAuthorizationCode m'))

/-- The world chooses the same, except for the strings that are drawn. -/
def Choice.Alike (c c' : Choice) : Prop :=
  c = c' ∨ ∃ x y, c = .hex (some x) ∧ c' = .hex (some y)

/-- The same store and the same clock. -/
def World.Alike (w w' : World) : Prop := w.store = w'.store ∧ w.clock = w'.clock

theorem World.perform_settled {w w' v v' : World} {c c' : Choice} {r' : e.Answer}
    (he : e.settled = true) (hc : c.Alike c') (hw : w.Alike w') (h : w.perform e c = some (r, v))
    (h' : w'.perform e c' = some (r', v')) : r = r' ∧ v.Alike v' := by
  rcases hc with rfl | ⟨x, y, rfl, rfl⟩
  · cases e with
    | storage op =>
      cases c with
      | none =>
        cases h
        cases h'
        rw [hw.1]
        exact ⟨rfl, rfl, hw.2⟩
      | _ => cases h
    | now =>
      cases c with
      | none =>
        cases h
        cases h'
        exact ⟨hw.2, hw⟩
      | _ => cases h
    | tokenEntropy | randomHex _ | randomUserCode _ | sign _ => cases he
    | _ =>
      cases c <;> first | (cases h; cases h'; exact ⟨rfl, hw⟩) | cases h
  · cases e <;> first | cases h | cases he

theorem EndpointPairs.perform {e' : Effect} {a : e.Answer → e'.Answer → Prop} {c c' : Choice}
    {w w' v v' : World} {r' : e'.Answer} (hpairs : EndpointPairs e e' a) (hc : c.Alike c')
    (hw : w.Alike w') (h : w.perform e c = some (r, v)) (h' : w'.perform e' c' = some (r', v')) :
    a r r' ∧ v.Alike v' := by
  cases hpairs with
  | same e settled => exact World.perform_settled settled hc hw h h'
  | approve asked asked' =>
    rcases hc with rfl | ⟨x, y, rfl, rfl⟩
    · cases c with
      | approval d =>
        cases h
        cases h'
        exact ⟨rfl, hw⟩
      | _ => cases h
    · cases h
  | draw bytes =>
    have hframe := World.frame_of_perform rfl h
    have hframe' := World.frame_of_perform rfl h'
    obtain ⟨drawn, hdrawn, hsome⟩ := World.isSome_of_perform h
    obtain ⟨drawn', hdrawn', hsome'⟩ := World.isSome_of_perform h'
    refine ⟨?_, ?_, ?_⟩
    · refine hsome.trans (Eq.trans ?_ hsome'.symm)
      rcases hc with rfl | ⟨x, y, rfl, rfl⟩
      · cases hdrawn.symm.trans hdrawn'
        rfl
      · cases hdrawn
        cases hdrawn'
        rfl
    · rw [hframe.1, hframe'.1, hw.1]
    · rw [hframe.2, hframe'.2, hw.2]

/-- Every call is settled. -/
def settledProtocol : Protocol Effect Effect.Answer Unit where
  next _ _ _ := ()
  allowed _ e := e.settled = true
  possible _ _ := True

namespace Server

variable {srv : Server} {w : World} {m : AuthorizationCodeRecord} {s : ServiceState}

section Settled
variable {ε α : Type} {l : Unit} {ok : α → Unit → Prop} {err : ε → Unit → Prop}

theorem settled_perform {ok : e.Answer → Unit → Prop} (he : e.settled = true) (hok : ∀ r, ok r ()) :
    wpE settledProtocol (perform e) l ok err :=
  wpE_performE.mpr ⟨he, fun r _ => hok r⟩

theorem settled_storeOr {op : StorageOp} {onError : StorageError → ε}
    {ok : op.Result → Unit → Prop} (he : (Effect.storage op).settled = true) (hok : ∀ r, ok r ())
    (herr : ∀ e, err e ()) : wpE settledProtocol (storeOr onError op) l ok err := by
  rw [storeOr, wpE_bind]
  refine settled_perform he fun r => ?_
  cases r with
  | ok a => exact wpE_pure.mpr (hok a)
  | error e => exact wpE_throw.mpr (herr _)

end Settled

/-- Validation rests on the registration and the limiter. -/
theorem settled_validateDirect (request : AuthorizationRequest) :
    wpE settledProtocol (srv.validateDirectAuthorizationRequest request) () (fun _ _ => True)
      fun _ _ => True := by
  have hinner : wpE settledProtocol (srv.validateDirectAuthorizationRequestInner request) ()
      (fun _ _ => True) fun _ _ => True := by
    unfold validateDirectAuthorizationRequestInner
    split
    · exact wpE_throw.mpr trivial
    · rw [wpE_bind]
      refine settled_storeOr rfl (fun found => ?_) fun _ => trivial
      cases found with
      | none => exact wpE_throw.mpr trivial
      | some client => exact wpE_judge.mpr ⟨fun _ _ => trivial, fun _ _ => trivial⟩
  unfold validateDirectAuthorizationRequest
  rw [wpE_bind]
  refine settled_perform rfl fun decision => ?_
  cases decision with
  | deny => exact wpE_throw.mpr trivial
  | allow =>
    rw [wpE_bind, wpE_lift_run]
    have hreport : ∀ outcome : Except AuthorizationError ValidatedAuthorizationRequest,
        wpE settledProtocol (do
          perform (.record (.authorizationRequest (request.clientId.getD ""))
            (if outcome.isOk then .succeeded else .failed))
          judge outcome) () (fun _ _ => True) fun _ _ => True := by
      intro outcome
      rw [wpE_bind]
      exact settled_perform rfl fun _ => wpE_judge.mpr ⟨fun _ _ => trivial, fun _ _ => trivial⟩
    exact wpE_mono (fun v _ _ => hreport (.ok v)) (fun e _ _ => hreport (.error e)) hinner

theorem settled_resolve (door : Door) :
    wpE settledProtocol (srv.resolve door) () (fun _ _ => True) fun _ _ => True := by
  cases door with
  | query request =>
    refine wpE_ite.mpr ⟨fun _ => wpE_throw.mpr trivial, fun _ => ?_⟩
    exact wpE_ite.mpr ⟨fun _ => wpE_throw.mpr trivial, fun _ => settled_validateDirect request⟩
  | pushed clientId requestUri =>
    unfold resolve validatePushedAuthorizationRequest
    rw [wpE_bind]
    refine settled_storeOr rfl (fun found => ?_) fun _ => trivial
    cases found with
    | none => exact wpE_throw.mpr trivial
    | some record =>
      refine wpE_ite.mpr ⟨fun _ => ?_, fun _ => ?_⟩
      · rw [wpE_bind]
        exact settled_storeOr rfl (fun _ => wpE_throw.mpr trivial) fun _ => trivial
      · rw [wpE_bind]
        refine settled_perform rfl fun now => ?_
        exact wpE_ite.mpr ⟨fun _ => wpE_throw.mpr trivial, fun _ => settled_validateDirect _⟩
  | signed clientId object =>
    have hobject : wpE settledProtocol (srv.verifiedRequestObject clientId object) ()
        (fun _ _ => True) fun _ _ => True := by
      unfold verifiedRequestObject
      rw [wpE_bind]
      refine wpE_judge.mpr ⟨fun members _ => ?_, fun _ _ => trivial⟩
      rw [wpE_bind]
      refine settled_perform rfl fun now => ?_
      rw [wpE_bind]
      exact wpE_judge.mpr ⟨fun _ _ => wpE_judge.mpr ⟨fun _ _ => trivial, fun _ _ => trivial⟩,
        fun _ _ => trivial⟩
    refine wpE_ite.mpr ⟨fun _ => wpE_throw.mpr trivial, fun _ => ?_⟩
    rw [wpE_bind, wpE_lift_run]
    exact wpE_mono (fun claims _ _ => settled_validateDirect _)
      (fun _ _ _ => wpE_throw.mpr trivial) hobject

/-- Calls that belong together where the same strings are drawn. -/
inductive ShownPairs : (e e' : Effect) → (e.Answer → e'.Answer → Prop) → Prop
  | same (e : Effect) : ShownPairs e e Eq
  | approve (asked asked' : ApprovalRequest) : ShownPairs (.approve asked) (.approve asked') Eq

theorem ShownPairs.follows {e' : Effect} {a : e.Answer → e'.Answer → Prop} {c : Choice}
    {w' v : World} (hpairs : ShownPairs e e' a) (hw : w = w') (h : w.perform e c = some (r, v)) :
    ∃ r' v', w'.perform e' c = some (r', v') ∧ a r r' ∧ v = v' := by
  subst hw
  cases hpairs with
  | same e => exact ⟨r, v, h, rfl, rfl⟩
  | approve asked asked' =>
    cases c with
    | approval d =>
      cases h
      exact ⟨_, w, rfl, rfl, rfl⟩
    | _ => cases h

section Endpoint
variable {pairs : (e e' : Effect) → (e.Answer → e'.Answer → Prop) → Prop}
  {last : Effect → Effect → Prop} {ε ε' α β γ δ : Type} {post : Except ε α → Except ε β → Prop}
  {p p' : AuthorizeRequest}

/-- The same handler in front. -/
theorem coupled_bind {h : Handler ε γ} {f : γ → Handler ε α} {f' : γ → Handler ε β}
    (hh : Coupled pairs last Eq h.run h.run) (hf : ∀ a, Coupled pairs last post (f a).run (f' a).run)
    (herr : ∀ e, post (.error e) (.error e)) :
    Coupled pairs last post (h >>= f).run (h >>= f').run := by
  refine Coupled.bind hh ?_
  rintro (e | a) _ rfl
  · exact .ret (herr e)
  · exact hf a

/-- A handler in front whose failure the caller looks at. -/
theorem coupled_lift_bind {post' : Except ε' γ → Except ε' δ → Prop} {h : Handler ε' γ}
    {h' : Handler ε' δ} {f : Except ε' γ → Handler ε α} {f' : Except ε' δ → Handler ε β}
    (hh : Coupled pairs last post' h.run h'.run)
    (hf : ∀ a b, post' a b → Coupled pairs last post (f a).run (f' b).run) :
    Coupled pairs last post (ExceptT.lift h.run >>= f : Handler ε α).run
      (ExceptT.lift h'.run >>= f' : Handler ε β).run := by
  have hlift : Coupled pairs last
      (fun (a : Except ε _) (b : Except ε _) => ∃ c d, a = .ok c ∧ b = .ok d ∧ post' c d)
      (ExceptT.lift h.run : Handler ε _).run (ExceptT.lift h'.run : Handler ε _).run :=
    Coupled.bind hh fun c d hcd => .ret ⟨c, d, rfl, rfl, hcd⟩
  refine Coupled.bind hlift ?_
  rintro _ _ ⟨c, d, rfl, rfl, hcd⟩
  exact hf c d hcd

theorem coupled_perform (he : pairs e e Eq) {f : e.Answer → Handler ε α}
    {f' : e.Answer → Handler ε β} (hf : ∀ r, Coupled pairs last post (f r).run (f' r).run) :
    Coupled pairs last post (Handler.perform e >>= f).run (Handler.perform e >>= f').run := by
  refine .call he ?_
  rintro r _ rfl
  exact hf r

/-- Handlers that make settled calls go the same way. -/
theorem coupled_settled (hsettled : ∀ e, e.settled = true → pairs e e Eq) {h : Handler ε α}
    (hh : wpE settledProtocol h () (fun _ _ => True) fun _ _ => True) :
    Coupled pairs last Eq h.run h.run :=
  .self (fun _ e he => hsettled e he) (fun _ _ => trivial) hh

/-- Apart from what the approval step is shown, the endpoint treats a resolved request alike, if it
concludes alike. -/
theorem coupled_approve {post : Except Response Response → Except Response Response → Prop}
    (hsettled : ∀ e, e.settled = true → pairs e e Eq)
    (happrove : ∀ asked asked', pairs (.approve asked) (.approve asked') Eq)
    (hpost : ∀ r, post r r) (hrest : p' = { p with query := p'.query })
    {validated : ValidatedAuthorizationRequest} {receivedAt : SystemTime}
    (hconclude : ∀ subject remember, Coupled pairs last post
      (srv.concludeAuthorization p subject validated receivedAt remember).run
      (srv.concludeAuthorization p' subject validated receivedAt remember).run) :
    Coupled pairs last post (srv.approveAuthorization p validated receivedAt).run
      (srv.approveAuthorization p' validated receivedAt).run := by
  have hsubject : p'.subject = p.subject := by rw [hrest]
  have hsubjects : p'.hasSubjectResolver = p.hasSubjectResolver := by rw [hrest]
  have happroval : p'.hasApprovalResolver = p.hasApprovalResolver := by rw [hrest]
  unfold approveAuthorization
  rw [hsubject, hsubjects, happroval]
  split
  · exact .ret (hpost _)
  · rename_i subject _
    unfold rememberedConsent
    refine coupled_bind (coupled_settled hsettled ?_) (fun remembered => ?_) fun _ => hpost _
    · rw [tryStore, wpE_bind]
      refine settled_perform rfl fun found => ?_
      cases found <;> exact wpE_pure.mpr trivial
    · split
      · exact .ret (hpost _)
      · refine .call (happrove _ _) ?_
        rintro decision _ rfl
        cases decision with
        | deny | respond => exact .ret (hpost _)
        | approve => exact hconclude subject false
        | approveAndRemember => exact hconclude subject true

/-- Both fail, in the same way. -/
def BothFail (a : Except ε α) (b : Except ε β) : Prop := ∃ e, a = .error e ∧ b = .error e

/-- Issuing goes the same way up to the record that is stored. -/
theorem coupled_issueWith (srv : Server) (approval : UserApproval)
    (requirement : AuthenticationRequirement) (authentication : Option Authentication) :
    Coupled EndpointPairs EndpointLast BothFail
      (srv.issueAuthorizationCodeWithAuthentication approval requirement authentication).run
      (srv.issueAuthorizationCodeWithAuthentication approval requirement authentication).run := by
  unfold issueAuthorizationCodeWithAuthentication
  refine coupled_perform (.same _ rfl) fun checked => ?_
  split
  · exact .ret ⟨_, rfl, rfl⟩
  · unfold issueAuthorizationCodeInner
    refine coupled_perform (.same _ rfl) fun decision => ?_
    cases decision with
    | deny => exact .ret ⟨_, rfl, rfl⟩
    | allow =>
      refine coupled_perform (.same _ rfl) fun filed => ?_
      refine .call (.draw 32) fun drawn drawn' hdrawn => ?_
      cases drawn with
      | none =>
        cases drawn' with
        | none => exact coupled_perform (.same _ rfl) fun _ => .ret ⟨_, rfl, rfl⟩
        | some code' => cases hdrawn
      | some code =>
        cases drawn' with
        | none => cases hdrawn
        | some code' => exact .last (.store rfl)

/-- The query plays no part once the request is approved. -/
theorem concludeAuthorization_eq (hrest : p' = { p with query := p'.query }) (subject : String)
    (validated : ValidatedAuthorizationRequest) (receivedAt : SystemTime) (remember : Bool) :
    srv.concludeAuthorization p' subject validated receivedAt remember =
      srv.concludeAuthorization p subject validated receivedAt remember := by
  have hsame : p'.authentication = p.authentication := by rw [hrest]
  unfold concludeAuthorization
  rw [hsame]

theorem coupled_conclude (srv : Server) (p : AuthorizeRequest) (subject : String)
    (validated : ValidatedAuthorizationRequest) (receivedAt : SystemTime) (remember : Bool) :
    Coupled EndpointPairs EndpointLast (fun _ _ => True)
      (srv.concludeAuthorization p subject validated receivedAt remember).run
      (srv.concludeAuthorization p subject validated receivedAt remember).run := by
  unfold concludeAuthorization
  refine coupled_lift_bind (coupled_issueWith srv _ _ _) ?_
  rintro _ _ ⟨e, rfl, rfl⟩
  exact .ret trivial

end Endpoint

/-! ## Queries that name the same request -/

/-- The same client, and the same handle or the same object. -/
def SameAddress (pairs pairs' : List (String × String)) : Prop :=
  param pairs "client_id" = param pairs' "client_id" ∧
    ((∃ requestUri, param pairs "request_uri" = some requestUri ∧
        param pairs' "request_uri" = some requestUri) ∨
      ∃ object, param pairs "request" = some object ∧ param pairs' "request" = some object)

/-- A handle and an object. -/
def CarriesBoth (pairs : List (String × String)) : Prop :=
  (param pairs "request_uri").isSome = true ∧ (param pairs "request").isSome = true

/-- Such queries are resolved by the same program. -/
theorem resolve_eq (srv : Server) {pairs pairs' : List (String × String)} (h : SameAddress pairs pairs')
    (hboth : ¬ CarriesBoth pairs) (hboth' : ¬ CarriesBoth pairs') :
    srv.resolveAuthorizationRequest pairs = srv.resolveAuthorizationRequest pairs' := by
  obtain ⟨hclient, ⟨requestUri, huri, huri'⟩ | ⟨object, hobject, hobject'⟩⟩ := h
  · have hobject : param pairs "request" = none := by
      rw [← Option.not_isSome_iff_eq_none]
      exact fun hsome => hboth ⟨by rw [huri]; rfl, hsome⟩
    have hobject' : param pairs' "request" = none := by
      rw [← Option.not_isSome_iff_eq_none]
      exact fun hsome => hboth' ⟨by rw [huri']; rfl, hsome⟩
    simp only [resolveAuthorizationRequest, huri, huri', hobject, hobject', hclient]
  · have huri : param pairs "request_uri" = none := by
      rw [← Option.not_isSome_iff_eq_none]
      exact fun hsome => hboth ⟨hsome, by rw [hobject]; rfl⟩
    have huri' : param pairs' "request_uri" = none := by
      rw [← Option.not_isSome_iff_eq_none]
      exact fun hsome => hboth' ⟨hsome, by rw [hobject']; rfl⟩
    simp only [resolveAuthorizationRequest, huri, huri', hobject, hobject', hclient]

theorem settled_resolveAuthorizationRequest (pairs : List (String × String)) :
    wpE settledProtocol (srv.resolveAuthorizationRequest pairs) () (fun _ _ => True)
      fun _ _ => True := by
  rcases srv.resolveAuthorizationRequest_eq pairs with ⟨door, -, heq⟩ | ⟨-, e, heq⟩
  · rw [heq]
    exact settled_resolve door
  · rw [heq]
    exact wpE_throw.mpr trivial

/-- The endpoint's answer is handed on. -/
theorem coupled_serve {pairs : (e e' : Effect) → (e.Answer → e'.Answer → Prop) → Prop}
    {last : Effect → Effect → Prop} {post' : ServiceReply → ServiceReply → Prop}
    {p p' : AuthorizeRequest} (post : Except Response Response → Except Response Response → Prop)
    (hpost : ∀ a b, post a b → post' (.ofEndpoint a) (.ofEndpoint b))
    (h : Coupled pairs last post (srv.authorizeHandler p).run (srv.authorizeHandler p').run) :
    Coupled pairs last post' (srv.serve (.authorize p)) (srv.serve (.authorize p')) :=
  Coupled.bind h fun a b hab => .ret (hpost a b hab)

/-- One request to the endpoint, and nothing else, with what the world chooses on the way. -/
def authorizes (srv : Server) (w : World) (p : AuthorizeRequest) (cs : List Choice) :
    Option ServiceState :=
  srv.service.run (ServiceState.idle w) (.spawn (.authorize p) :: cs.map (.run 0))

/-! ## What is stored -/

/-- Of two runs that are compared, one stores a code if the other does, and the first ones they
store agree. -/
theorem stored_of_pairedOff {trace trace' : List Answered}
    (h : PairedOff EndpointPairs EndpointLast trace trace')
    {r : (Effect.storage (.putAuthorizationCode m)).Answer}
    (hm : ⟨.storage (.putAuthorizationCode m), r⟩ ∈ trace) :
    ∃ m₀ m' r₀ r', (⟨.storage (.putAuthorizationCode m₀), r₀⟩ : Answered) ∈ trace ∧
      (⟨.storage (.putAuthorizationCode m'), r'⟩ : Answered) ∈ trace' ∧
      m₀.EqualButCode m' := by
  induction h with
  | nil => cases hm
  | cons paired answers rest ih =>
    rcases List.mem_cons.mp hm with heq | hm
    · cases heq
      cases paired with
      | same e settled => cases settled
    · obtain ⟨m₀, m', r₀, r', hm₀, hm', hsame⟩ := ih hm
      exact ⟨m₀, m', r₀, r', List.mem_cons_of_mem _ hm₀, List.mem_cons_of_mem _ hm', hsame⟩
  | last r r' trace trace' paired =>
    cases paired with
    | store same => exact ⟨_, _, r, r', List.mem_cons_self, List.mem_cons_self, same⟩

/-- A code that a thread put was stored. -/
theorem put_answered {ok} {t : ServiceCall} (h : srv.service.Reaches ok (ServiceState.idle w) s)
    (ht : t ∈ s.threads) {r : (Effect.storage (.putAuthorizationCode m)).Answer}
    (hm : ⟨.storage (.putAuthorizationCode m), r⟩ ∈ t.trace) :
    t.Did (.storage (.putAuthorizationCode m)) (.ok ()) := by
  obtain ⟨before, after, htrace⟩ := List.append_of_mem hm
  obtain ⟨-, g, hg⟩ := srv.serviceDiscipline.allowed_of_trace h ht htrace
  have hr : r = .ok () := hg.symm
  rw [← hr]
  exact hm

/-! ## Two queries that are resolved alike -/

section Compared
variable {p p' : AuthorizeRequest} {query query' : List (String × String)}
  (hquery : parsePairs srv.host.fromUtf8Lossy p.query = some query)
  (hquery' : parsePairs srv.host.fromUtf8Lossy p'.query = some query')
  (hresolve : srv.resolveAuthorizationRequest query = srv.resolveAuthorizationRequest query')
  (hrest : p' = { p with query := p'.query })

include hquery hquery' hresolve hrest

/-- The endpoint as a whole, for two queries that are resolved by the same program. -/
theorem coupled_authorize {pairs : (e e' : Effect) → (e.Answer → e'.Answer → Prop) → Prop}
    {last : Effect → Effect → Prop}
    {post : Except Response Response → Except Response Response → Prop}
    (hsettled : ∀ e, e.settled = true → pairs e e Eq)
    (happrove : ∀ asked asked', pairs (.approve asked) (.approve asked') Eq)
    (hpost : ∀ r, post r r)
    (hconclude : ∀ subject validated receivedAt remember, Coupled pairs last post
      (srv.concludeAuthorization p subject validated receivedAt remember).run
      (srv.concludeAuthorization p subject validated receivedAt remember).run) :
    Coupled pairs last post (srv.authorizeHandler p).run (srv.authorizeHandler p').run := by
  unfold authorizeHandler
  refine coupled_perform (hsettled _ rfl) fun receivedAt => ?_
  simp only [hquery, hquery', ← hresolve]
  refine coupled_lift_bind
    (coupled_settled hsettled (settled_resolveAuthorizationRequest query)) ?_
  rintro (e | validated) _ rfl
  · exact .ret (hpost _)
  · refine coupled_approve hsettled happrove hpost hrest fun subject remember => ?_
    rw [concludeAuthorization_eq hrest]
    exact hconclude subject validated receivedAt remember

/-- With the same choices of the world the endpoint does the same for both queries. -/
theorem authorizes_follows {cs : List Choice} (hs : srv.authorizes w p cs = some s) :
    ∃ s' t t', srv.authorizes w p' cs = some s' ∧ s.threads = [t] ∧ s'.threads = [t'] ∧
      s'.world = s.world ∧ t'.reply? = t.reply? := by
  have hconclude : ∀ subject validated receivedAt remember,
      Coupled ShownPairs (fun _ _ => False) Eq
        (srv.concludeAuthorization p subject validated receivedAt remember).run
        (srv.concludeAuthorization p subject validated receivedAt remember).run := by
    intro subject validated receivedAt remember
    -- Nothing is asked of the calls, for the worlds are the same.
    refine .self (P := ⟨fun _ _ _ => (), fun _ _ => True, fun _ _ => True⟩) (l := ())
      (fun _ e _ => .same e) (fun _ _ => trivial) (wp_of_invariant (I := fun _ => True)
        (fun _ _ _ => trivial) (fun _ _ _ _ _ => trivial) trivial)
  have hcoupled : Coupled ShownPairs (fun _ _ => False) Eq (srv.serve (.authorize p))
      (srv.serve (.authorize p')) :=
    coupled_serve Eq (by rintro _ _ rfl; rfl) (coupled_authorize hquery hquery' hresolve hrest
      (fun e _ => .same e) ShownPairs.approve (fun _ => rfl) hconclude)
  obtain ⟨s', t, t', hs', ht, ht', hworld, hcoupled⟩ :=
    Coupled.follow (S := srv.service) Eq ShownPairs.follows
      (Thread.start (ServiceRequest.authorize p) (srv.serve (.authorize p)))
      (Thread.start (ServiceRequest.authorize p') (srv.serve (.authorize p'))) hcoupled rfl hs
  exact ⟨s', t, t', hs', ht, ht', hworld.symm, hcoupled.result.symm⟩

/-- If other strings are drawn, the codes that are stored differ in nothing but the string. -/
theorem stored_alike {cs cs' : List Choice} {s' : ServiceState}
    (hcs : List.Forall₂ Choice.Alike cs cs') (hs : srv.authorizes w p cs = some s)
    (hs' : srv.authorizes w p' cs' = some s') {t t' : ServiceCall} (ht : t ∈ s.threads)
    (ht' : t' ∈ s'.threads) (hm : t.Did (.storage (.putAuthorizationCode m)) (.ok ())) :
    ∃ m', t'.Did (.storage (.putAuthorizationCode m')) (.ok ()) ∧ m.EqualButCode m' := by
  have hcoupled : Coupled EndpointPairs EndpointLast (fun _ _ => True) (srv.serve (.authorize p))
      (srv.serve (.authorize p')) :=
    coupled_serve _ (fun _ _ _ => trivial) (coupled_authorize hquery hquery' hresolve hrest
      EndpointPairs.same EndpointPairs.approve (fun _ => trivial) (coupled_conclude srv p))
  obtain ⟨u, u', trace, trace', hu, hu', hrequest, -, htrace, htrace', hpaired⟩ :=
    Coupled.alone (S := srv.service) World.Alike EndpointPairs.perform
      (Thread.start (ServiceRequest.authorize p) (srv.serve (.authorize p)))
      (Thread.start (ServiceRequest.authorize p') (srv.serve (.authorize p'))) hcoupled ⟨rfl, rfl⟩
      hcs hs hs'
  rw [hu, List.mem_singleton] at ht
  rw [hu', List.mem_singleton] at ht'
  subst ht ht'
  have hreach := Semantics.reaches_of_run hs
  have hreach' := Semantics.reaches_of_run hs'
  have hmem : t ∈ s.threads := hu ▸ List.mem_singleton_self t
  have hmem' : t' ∈ s'.threads := hu' ▸ List.mem_singleton_self t'
  have hfront : ∀ request entry, t.request ≠ .api request entry := by
    rw [hrequest]
    rintro _ _ ⟨⟩
  rw [Thread.start, List.nil_append] at htrace htrace'
  rw [Thread.Did, htrace] at hm
  obtain ⟨m₀, m', r₀, r', hm₀, hm', hsame⟩ := stored_of_pairedOff hpaired hm
  rw [← htrace] at hm hm₀
  rw [← htrace'] at hm'
  -- A thread stores one code only.
  have hone : m = m₀ := Option.some.inj ((minted_of_did hreach hmem hfront hm).symm.trans
    (minted_of_did hreach hmem hfront (put_answered hreach hmem hm₀)))
  rw [hone]
  exact ⟨m', put_answered hreach' hmem' hm', hsame⟩

end Compared

end Server

/-- Refused after a look at the clock. -/
def Server.refusesBoth : Prog Effect Effect.Answer ServiceReply :=
  .call .now fun _ => .ret (.response (.direct ((ErrorResponse.new .invalidRequest).withDescription
    "request and request_uri must not both be sent (RFC 9101 s5)")))

/-- A query that carries a handle and an object is refused. Otherwise two queries that name the same
client, and the same handle or the same object, are resolved by the same program; with the same
choices of the world the endpoint does the same for both, to the store and in its reply; and if
other strings are drawn the codes it stores differ in nothing but the string. -/
theorem query_without_influence {srv : Server} {p p' : AuthorizeRequest}
    {query query' : List (String × String)}
    (hquery : parsePairs srv.host.fromUtf8Lossy p.query = some query)
    (hquery' : parsePairs srv.host.fromUtf8Lossy p'.query = some query')
    (haddress : Server.SameAddress query query') (hrest : p' = { p with query := p'.query }) :
    (Server.CarriesBoth query → srv.serve (.authorize p) = Server.refusesBoth) ∧
    (¬ Server.CarriesBoth query → ¬ Server.CarriesBoth query' →
      srv.resolveAuthorizationRequest query = srv.resolveAuthorizationRequest query' ∧
      (∀ w cs s, srv.authorizes w p cs = some s →
        ∃ s' t t', srv.authorizes w p' cs = some s' ∧ s.threads = [t] ∧ s'.threads = [t'] ∧
          s'.world = s.world ∧ t'.reply? = t.reply?) ∧
      ∀ w cs cs' s s', List.Forall₂ Choice.Alike cs cs' → srv.authorizes w p cs = some s →
        srv.authorizes w p' cs' = some s' → ∀ t ∈ s.threads, ∀ t' ∈ s'.threads, ∀ m,
          t.Did (.storage (.putAuthorizationCode m)) (.ok ()) →
          ∃ m', t'.Did (.storage (.putAuthorizationCode m')) (.ok ()) ∧ m.EqualButCode m') := by
  constructor
  · rintro ⟨huri, hobject⟩
    obtain ⟨requestUri, huri⟩ := Option.isSome_iff_exists.mp huri
    obtain ⟨object, hobject⟩ := Option.isSome_iff_exists.mp hobject
    simp only [Server.serve, Server.authorizeHandler, hquery, Server.resolveAuthorizationRequest,
      huri, hobject]
    rfl
  · intro hboth hboth'
    have hresolve := Server.resolve_eq srv haddress hboth hboth'
    refine ⟨hresolve, ?_, ?_⟩
    · exact fun w cs s hs => Server.authorizes_follows hquery hquery' hresolve hrest hs
    · intro w cs cs' s s' hcs hs hs' t ht t' ht' m hm
      exact Server.stored_alike hquery hquery' hresolve hrest hcs hs hs' ht ht' hm

namespace Sample

/-- The user is signed in and asked; the query is all that is left open. -/
def comes (query : String) : AuthorizeRequest := ⟨query, true, some "user", true, none⟩

/-- The handle, and nothing beside it. -/
def modest : String := "client_id=app&request_uri=" ++ handle

/-- The handle, among parameters that ask for more. -/
def greedy : String := "scope=admin&state=evil&" ++ modest ++ "&client_id=mallory"

/-- The user approves, and this string is drawn for the code. -/
def approving (d : Fin 10) : List Choice :=
  [.none, .none, .none, .decision .allow, .none, .none, .none, .approval .approve, .none,
    .decision .allow, .none, .hex (some (hex 32 d).text), .none, .none]

theorem approving_alike (d d' : Fin 10) : List.Forall₂ Choice.Alike (approving d) (approving d') := by
  simp [approving, Choice.Alike]

end Sample

open Sample in
/-- The same pushed request makes the same code, whatever else the query asks for. -/
theorem query_without_influence_greedy :
    ∃ (w : World) (s s' : ServiceState),
      pushing.authorizes w (comes modest) (approving 1) = some s ∧
      pushing.authorizes w (comes greedy) (approving 2) = some s' ∧
      ∃ t ∈ s.threads, ∃ t' ∈ s'.threads, ∃ m m',
        t.Did (.storage (.putAuthorizationCode m)) (.ok ()) ∧
        t'.Did (.storage (.putAuthorizationCode m')) (.ok ()) ∧ m.EqualButCode m' := by
  obtain ⟨s₀, -, ⟨s, hs, t, ht, m, hm, -⟩, s', hs', t', ht', -⟩ :
      ∃ s₀ ∈ pushing.service.run (ServiceState.idle (.initial 0)) (appears ++ pushes 1 push),
      (∃ s ∈ pushing.authorizes s₀.world (comes modest) (approving 1), ∃ t ∈ s.threads[0]?,
        ∃ m ∈ (pushing.serviceDiscipline.ledger t).minted, True) ∧
      ∃ s' ∈ pushing.authorizes s₀.world (comes greedy) (approving 2),
        ∃ t' ∈ s'.threads[0]?, True := by
    decide +kernel
  have hmodest : parsePairs pushing.host.fromUtf8Lossy modest =
      some [("client_id", "app"), ("request_uri", handle)] := by
    decide +kernel
  have hgreedy : parsePairs pushing.host.fromUtf8Lossy greedy = some [("scope", "admin"),
      ("state", "evil"), ("client_id", "app"), ("request_uri", handle), ("client_id", "mallory")] := by
    decide +kernel
  have hstored := Server.did_of_minted hm
  obtain ⟨-, halike⟩ := @query_without_influence pushing (comes modest) (comes greedy) _ _ hmodest
    hgreedy ⟨by decide, .inl ⟨handle, by decide, by decide⟩⟩ rfl
  obtain ⟨-, -, halike⟩ := halike (fun h => nomatch h.2) fun h => nomatch h.2
  obtain ⟨m', hstored', hsame⟩ := halike s₀.world (approving 1) (approving 2) s s'
    (approving_alike 1 2) hs hs' t (List.mem_of_getElem? ht) t' (List.mem_of_getElem? ht') m hstored
  exact ⟨s₀.world, s, s', hs, hs', t, List.mem_of_getElem? ht, t', List.mem_of_getElem? ht', m, m',
    hstored, hstored', hsame⟩

end OauthAs
