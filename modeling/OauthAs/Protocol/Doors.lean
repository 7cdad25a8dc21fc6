-- SUMMARY: The handlers of the front half follow its protocol.
import OauthAs.Protocol.Discipline
import OauthAs.Protocol.Front

/-!
# The handlers of the front half

Each handler is proved by following its text, as those of the token endpoints are: the three doors
a request comes through, the push endpoint, the issuance of a code and the authorization endpoint
that puts them together.
-/

namespace OauthAs

variable {authentication : Option Authentication} {object : String}
variable {requirement : AuthenticationRequirement} {e : AuthorizationErrorRedirect}
  {claims : RequestObjectClaims} {approval : UserApproval}

/-- The client a door names. -/
def Door.clientId : Door → Option ClientId
  | .query request => request.clientId
  | .pushed clientId _ | .signed clientId _ => some clientId

/-! ## Validation -/

namespace Server

variable {client : Client} {request : AuthorizationRequest}

/-- A target that is refused is refused to the user's face. -/
theorem of_redirectTarget_error {e : AuthorizationError}
    (h : redirectTarget client request = .error e) : ∃ error, e = .direct error := by
  unfold redirectTarget at h
  repeat' split at h
  all_goals cases h
  all_goals exact ⟨_, rfl⟩

/-- What a request that passed validation carries on. -/
theorem of_validateFor_ok {srv : Server} {validated : ValidatedAuthorizationRequest}
    (h : srv.validateFor client request = .ok validated) :
    redirectTarget client request = .ok validated.redirectUri ∧
      validated.clientId = client.clientId ∧ validated.state = request.state ∧
      validated.issuer = srv.issuerIdentifier ∧
      AuthenticationRequirement.fromRequest request = .ok validated.authenticationRequirement := by
  obtain ⟨target, htarget, h⟩ := except_bind_ok h
  split at h
  · rename_i v hv
    cases h
    obtain ⟨-, -, hv⟩ := except_bind_ok hv
    obtain ⟨scope, -, hv⟩ := except_bind_ok hv
    obtain ⟨resource, -, hv⟩ := except_bind_ok hv
    obtain ⟨details, -, hv⟩ := except_bind_ok hv
    obtain ⟨requirement, hrequirement, hv⟩ := except_bind_ok hv
    cases hv
    exact ⟨htarget, rfl, rfl, rfl, hrequirement⟩
  · cases h

/-- Where a request that failed validation is sent back to. -/
theorem of_validateFor_redirect {srv : Server}
    (h : srv.validateFor client request = .error (.redirect e)) :
    redirectTarget client request = .ok e.redirectUri ∧ e.state = request.state ∧
      e.iss = srv.issuerIdentifier := by
  unfold validateFor at h
  cases htarget : redirectTarget client request with
  | error e' =>
    obtain ⟨error, rfl⟩ := of_redirectTarget_error htarget
    rw [htarget] at h
    cases h
  | ok target =>
    rw [htarget] at h
    simp only [bind, Except.bind] at h
    split at h
    · cases h
    · cases h
      exact ⟨rfl, rfl, rfl⟩

end Server

open Prog Handler

/-! ## Ledgers that go on -/

namespace FrontLedger

variable {srv : Server} {q : ServiceRequest} {l l' l'' : FrontLedger}
variable {request : AuthorizationRequest}
variable {clientId : ClientId} {verdict : Except AuthorizationError ValidatedAuthorizationRequest}

/-- More calls, and the same pushed request in hand. -/
structure Extends (l l' : FrontLedger) : Prop where
  hand : l'.hand = l.hand
  past : l.past <+: l'.past

theorem Extends.refl (l : FrontLedger) : l.Extends l := ⟨rfl, List.prefix_rfl⟩

theorem Extends.log (l : FrontLedger) (events : List Answered) :
    l.Extends (l.log events) := ⟨rfl, List.prefix_append _ _⟩

theorem Extends.next (l : FrontLedger) {e : Effect} {r : e.Answer}
    (hhand : (l.advance e r).hand = l.hand) : l.Extends (l.next e r) :=
  ⟨hhand, l.prefix_next e r⟩

theorem Extends.trans (h : l.Extends l') (h' : l'.Extends l'') : l.Extends l'' :=
  ⟨h'.hand.trans h.hand, h.past.trans h'.past⟩

theorem Extends.head {event : Answered} (h : l.Extends l')
    (hhead : l.past.head? = some event) : l'.past.head? = some event := by
  obtain ⟨events, hpast⟩ := h.past
  rw [← hpast, List.head?_append, hhead]
  rfl

theorem Believes.mono (h : l.Believes srv clientId object claims) (hpast : l.past <+: l'.past) :
    l'.Believes srv clientId object claims := by
  obtain ⟨payload, t, hnow, hrest⟩ := h
  exact ⟨payload, t, hnow.mono hpast, hrest⟩

theorem Pushes.mono {p : PushRequest} (h : l.Pushes srv p request) (hpast : l.past <+: l'.past) :
    l'.Pushes srv p request :=
  h.imp_left fun ⟨object, claims, hobject, hclaims, hrequest⟩ =>
    ⟨object, claims, hobject, hclaims.mono hpast, hrequest⟩

theorem Sends.mono {p : PushRequest} {r : PushedAuthorizationRequest} (h : l.Sends srv p r)
    (hpast : l.past <+: l'.past) : l'.Sends srv p r := by
  obtain ⟨request, hpushes, hsource⟩ := h.source
  exact ⟨h.owner, h.authenticated.mono hpast, request, hpushes.mono hpast, hsource⟩

theorem Asked.mono {door : Door} (h : l.Asked srv door request) (hext : l.Extends l') :
    l'.Asked srv door request := by
  cases door with
  | query asked => exact h
  | pushed clientId requestUri =>
    obtain ⟨record, hhand, hrest⟩ := h
    exact ⟨record, hext.hand.trans hhand, hrest⟩
  | signed clientId object =>
    obtain ⟨hpar, claims, hclaims, hrequest⟩ := h
    exact ⟨hpar, claims, hclaims.mono hext.past, hrequest⟩

theorem Judged.mono (h : l.Judged srv request verdict) (hext : l.Extends l') :
    l'.Judged srv request verdict := by
  obtain ⟨client, hread, hrest⟩ := h
  exact ⟨client, hread.mono hext.past, hrest⟩

theorem Resolved.mono {door : Door} (h : l.Resolved srv door verdict) (hext : l.Extends l') :
    l'.Resolved srv door verdict := by
  obtain ⟨request, hasked, hjudged⟩ := h
  exact ⟨request, hasked.mono hext, hjudged.mono hext⟩

theorem Returned.mono (h : l.Returned srv q) (hext : l.Extends l') : l'.Returned srv q :=
  fun r hr => h r (hext.hand.symm.trans hr)

theorem Issues.mono (h : l.Issues srv q approval requirement authentication) (hext : l.Extends l') :
    l'.Issues srv q approval requirement authentication := by
  cases q with
  | authorize p =>
    obtain ⟨door, validated, subject, received, hdoor, hresolved, hsubject, hhead, hrest⟩ := h
    exact ⟨door, validated, subject, received, hdoor, hresolved.mono hext, hsubject,
      hext.head hhead, hrest⟩
  | _ => exact h

theorem About.mono {subject : String} (h : l.About srv q clientId subject) (hext : l.Extends l') :
    l'.About srv q clientId subject := by
  obtain ⟨p, door, validated, hq, hdoor, hresolved, hrest⟩ := h
  exact ⟨p, door, validated, hq, hdoor, hresolved.mono hext, hrest⟩

theorem Remembering.mono {subject : String} (h : l.Remembering srv q clientId subject)
    (hext : l.Extends l') : l'.Remembering srv q clientId subject := by
  obtain ⟨habout, asked, hasked⟩ := h
  exact ⟨habout.mono hext, asked, hasked.mono hext.past⟩

end FrontLedger

namespace FrontLedger

variable {srv : Server} {l l' : FrontLedger} {door : Door}
variable {validated : ValidatedAuthorizationRequest}

/-- The claims name the client whose key signed them. -/
theorem Believes.clientId {clientId : ClientId} (h : l.Believes srv clientId object claims) :
    claims.clientId = clientId := by
  obtain ⟨members, -, -, -, -, h⟩ := h
  iterate 11
    obtain ⟨_, -, h⟩ := except_bind_ok h
  cases h
  rfl

/-- A resolved request is one of the client its door names. -/
theorem Resolved.clientId (h : l.Resolved srv door (.ok validated)) :
    door.clientId = some validated.clientId := by
  obtain ⟨request, hasked, client, -, hclient, hverdict⟩ := h
  rw [(Server.of_validateFor_ok hverdict).2.1]
  cases door with
  | query asked =>
    rw [hasked.1] at hclient
    exact hclient
  | pushed clientId requestUri =>
    obtain ⟨record, -, -, howner, rfl⟩ := hasked
    rw [Door.clientId, ← howner]
    exact hclient
  | signed clientId object =>
    obtain ⟨-, claims, hclaims, rfl⟩ := hasked
    rw [Door.clientId, ← hclaims.clientId]
    exact hclient

/-- A request is about one pair. -/
theorem About.eq {q : ServiceRequest} {clientId clientId' : ClientId} {subject subject' : String}
    (h : l.About srv q clientId subject) (h' : l'.About srv q clientId' subject') :
    clientId = clientId' ∧ subject = subject' := by
  obtain ⟨p, door, v, rfl, hdoor, hresolved, rfl, hsubject⟩ := h
  obtain ⟨_, door', v', ⟨⟩, hdoor', hresolved', rfl, hsubject'⟩ := h'
  cases hdoor.symm.trans hdoor'
  exact ⟨Option.some.inj (hresolved.clientId.symm.trans hresolved'.clientId),
    Option.some.inj (hsubject.symm.trans hsubject')⟩

theorem Resolved.addresses {r : Redirect} (h : l.Resolved srv door (.ok validated))
    (htarget : r.target = validated.redirectUri) (hstate : r.state = validated.state)
    (hiss : r.iss = validated.issuer) : l.Addresses srv door r := by
  obtain ⟨request, hasked, client, hread, hclient, hverdict⟩ := h
  obtain ⟨hredirect, -, hstate', hiss', -⟩ := Server.of_validateFor_ok hverdict
  refine ⟨request, client, hasked, hread, hclient, ?_, hstate.trans hstate', hiss.trans hiss'⟩
  rw [htarget]
  exact hredirect

theorem Resolved.addresses_error (h : l.Resolved srv door (.error (.redirect e))) :
    l.Addresses srv door e.redirect := by
  obtain ⟨request, hasked, client, hread, hclient, hverdict⟩ := h
  obtain ⟨hredirect, hstate, hiss⟩ := Server.of_validateFor_redirect hverdict
  exact ⟨request, client, hasked, hread, hclient, hredirect, hstate, hiss⟩

end FrontLedger

namespace Server

variable {srv : Server} {q : ServiceRequest} {l : FrontLedger} {ε α : Type} {clientId : ClientId}

/-! ## Single calls -/

section Calls
variable {err : ε → FrontLedger → Prop}

theorem front_perform {e : Effect} {ok : e.Answer → FrontLedger → Prop} :
    wpE (srv.frontProtocol q) (Handler.perform e) l ok err ↔
      l.Allowed srv q e ∧ ∀ r, e.Possible r → ok r (l.next e r) :=
  wpE_performE

theorem front_now {ok : SystemTime → FrontLedger → Prop} :
    wpE (srv.frontProtocol q) now l ok err ↔ ∀ t, ok t (l.log [⟨.now, t⟩]) := by
  refine front_perform.trans ?_
  exact ⟨fun h t => h.2 t trivial, fun h => ⟨trivial, fun t _ => h t⟩⟩

theorem front_emit {event : Event} {ok : Unit → FrontLedger → Prop} :
    wpE (srv.frontProtocol q) (emit event) l ok err ↔ ok () (l.log [⟨.emit event, ()⟩]) := by
  refine front_perform.trans ?_
  exact ⟨fun h => h.2 () trivial, fun h => ⟨trivial, fun _ _ => h⟩⟩

/-- A call that cannot fail. -/
theorem front_tryStore {op : StorageOp} (htotal : op.Total = true)
    {ok : op.Answer → FrontLedger → Prop} :
    wpE (srv.frontProtocol q) (tryStore op) l ok err ↔ l.MayStore srv q op ∧
      ∀ g a, (op.exec g).1 = .ok a → ok (.ok a) ((l.stored op a).log [⟨.storage op, .ok a⟩]) :=
  Prog.wpE_tryStore rfl htotal

theorem front_storeOr {op : StorageOp} (htotal : op.Total = true) {onError : StorageError → ε}
    {ok : op.Result → FrontLedger → Prop} :
    wpE (srv.frontProtocol q) (storeOr onError op) l ok err ↔ l.MayStore srv q op ∧
      ∀ g a, (op.exec g).1 = .ok a → ok a ((l.stored op a).log [⟨.storage op, .ok a⟩]) :=
  Prog.wpE_storeOr rfl htotal

end Calls

/-! ## The doors -/

section Doors

section Validation
variable {request : AuthorizationRequest} {ok : ValidatedAuthorizationRequest → FrontLedger → Prop}
  {err : AuthorizationError → FrontLedger → Prop}
  (hok : ∀ events validated, (l.log events).Judged srv request (.ok validated) →
    ok validated (l.log events))
  (herr : ∀ events e, (∀ r, e = .redirect r →
    (l.log events).Judged srv request (.error (.redirect r))) → err e (l.log events))

include hok herr

/-- A registration is read for the request and decides; nothing is left in hand. -/
theorem front_validateDirectInner :
    wpE (srv.frontProtocol q) (srv.validateDirectAuthorizationRequestInner request) l ok err := by
  have hdirect : ∀ events error, err (.direct error) (l.log events) :=
    fun events error => herr events _ fun _ h => nomatch h
  unfold validateDirectAuthorizationRequestInner AuthorizationError.refuse
  split
  · rw [wpE_throw, ← l.log_nil]
    exact hdirect _ _
  · rename_i clientId hclient
    rw [wpE_bind, front_storeOr rfl]
    refine ⟨trivial, fun g found hfound => ?_⟩
    cases found with
    | none => exact wpE_throw.mpr (hdirect _ _)
    | some client =>
      have hkey : client.clientId = clientId := Table.key_of_lookup (Except.ok.inj hfound)
      obtain ⟨hclient, -⟩ := Option.filter_eq_some_iff.mp hclient
      have hjudged : ∀ verdict, srv.validateFor client request = verdict →
          (l.log [⟨.storage (.getClient clientId), .ok (some client)⟩]).Judged srv request
            verdict := by
        intro verdict hverdict
        subst hkey
        exact ⟨client, List.mem_append_right _ List.mem_cons_self, hclient, hverdict⟩
      refine wpE_judge.mpr ⟨fun validated h => hok _ _ (hjudged _ h), fun e h => herr _ _ ?_⟩
      rintro r rfl
      exact hjudged _ h

theorem front_validateDirect :
    wpE (srv.frontProtocol q) (srv.validateDirectAuthorizationRequest request) l ok err := by
  unfold validateDirectAuthorizationRequest AuthorizationError.refuse
  rw [wpE_bind]
  refine front_perform.mpr ⟨trivial, fun decision _ => ?_⟩
  cases decision with
  | deny => exact wpE_throw.mpr (herr _ _ fun _ h => nomatch h)
  | allow =>
    rw [wpE_bind, wpE_lift_run]
    refine front_validateDirectInner (fun events validated h => ?_) (fun events e h => ?_)
    · rw [wpE_bind]
      refine front_perform.mpr ⟨trivial, fun _ _ => wpE_pure.mpr ?_⟩
      have h' := h.mono
        (.log _ [⟨.record (.authorizationRequest (request.clientId.getD "")) .succeeded, ()⟩])
      simp only [FrontLedger.log_log, FrontLedger.next, FrontLedger.advance] at h' ⊢
      exact hok _ _ h'
    · rw [wpE_bind]
      refine front_perform.mpr ⟨trivial, fun _ _ => wpE_throw.mpr ?_⟩
      have h' : ∀ r, e = .redirect r → _ := fun r hr => (h r hr).mono
        (.log _ [⟨.record (.authorizationRequest (request.clientId.getD "")) .failed, ()⟩])
      simp only [FrontLedger.log_log, FrontLedger.next, FrontLedger.advance] at h' ⊢
      exact herr _ _ h'

end Validation

theorem front_verifiedRequestObject {ok : RequestObjectClaims → FrontLedger → Prop}
    {err : ErrorResponse → FrontLedger → Prop}
    (hok : ∀ events claims, (l.log events).Believes srv clientId object claims →
      ok claims (l.log events)) (herr : ∀ events e, err e (l.log events)) :
    wpE (srv.frontProtocol q) (srv.verifiedRequestObject clientId object) l ok err := by
  unfold verifiedRequestObject
  rw [wpE_bind, wpE_judge]
  refine ⟨fun payload hpayload => ?_, fun e _ => ?_⟩
  · rw [wpE_bind, front_now]
    intro t
    rw [wpE_bind, wpE_judge]
    refine ⟨fun _ hchecked => ?_, fun e _ => herr _ _⟩
    refine wpE_judge.mpr ⟨fun claims hclaims => hok _ _ ?_, fun e _ => herr _ _⟩
    exact ⟨payload, t, List.mem_append_right _ List.mem_cons_self, hpayload, hchecked, hclaims⟩
  · rw [← l.log_nil]
    exact herr _ _

/-- What resolving leaves behind: more calls, and perhaps a pushed request in hand. -/
structure Arrives (srv : Server) (q : ServiceRequest) (l l' : FrontLedger) : Prop where
  past : ∃ events, l'.past = l.past ++ events
  minted : l'.minted = l.minted
  approved : l'.approved = l.approved
  consents : l'.consents = l.consents
  returned : l'.Returned srv q

theorem Arrives.log (hhand : l.hand = none) (events : List Answered) :
    Arrives srv q l (l.log events) :=
  ⟨⟨events, rfl⟩, rfl, rfl, rfl, fun _ hr => nomatch hhand.symm.trans hr⟩

/-- A request that came through a door is resolved to what the door led to. -/
theorem front_resolve {door : Door} (hdoor : srv.door q = some door) (hhand : l.hand = none) :
    wpE (srv.frontProtocol q) (srv.resolve door) l
      (fun validated l' => Arrives srv q l l' ∧ l'.Resolved srv door (.ok validated))
      (fun e l' => Arrives srv q l l' ∧
        ∀ r, e = .redirect r → l'.Resolved srv door (.error (.redirect r))) := by
  have hrefused : ∀ events error, Arrives srv q l (l.log events) ∧
      ∀ r, AuthorizationError.direct error = .redirect r →
        (l.log events).Resolved srv door (.error (.redirect r)) :=
    fun events error => ⟨.log hhand events, fun _ h => nomatch h⟩
  have hrefused_at_once := hrefused []
  rw [l.log_nil] at hrefused_at_once
  cases door with
  | query request =>
    unfold resolve validateAuthorizationRequest
    refine wpE_ite.mpr ⟨fun _ => ?_, fun hpar => wpE_ite.mpr ⟨fun _ => ?_, fun hjar => ?_⟩⟩
    · exact wpE_throw.mpr (hrefused_at_once _)
    · exact wpE_throw.mpr (hrefused_at_once _)
    · have hasked : ∀ events, (l.log events).Asked srv (.query request) request :=
        fun _ => ⟨rfl, Bool.eq_false_iff.mpr hpar, Bool.eq_false_iff.mpr hjar⟩
      refine front_validateDirect (fun events v h => ?_) (fun events e h => ?_)
      · exact ⟨.log hhand _, request, hasked _, h⟩
      · exact ⟨.log hhand _, fun r hr => ⟨request, hasked _, h r hr⟩⟩
  | signed clientId object =>
    unfold resolve validateSignedAuthorizationRequest
    refine wpE_ite.mpr ⟨fun _ => ?_, fun hpar => ?_⟩
    · exact wpE_throw.mpr (hrefused_at_once _)
    · rw [wpE_bind, wpE_lift_run]
      refine front_verifiedRequestObject (fun events claims hclaims => ?_) (fun events e => ?_)
      · have hasked : ∀ more, ((l.log events).log more).Asked srv (.signed clientId object)
            claims.asRequest :=
          fun more => ⟨Bool.eq_false_iff.mpr hpar, claims, hclaims.mono (List.prefix_append _ more), rfl⟩
        have harrives : ∀ more, Arrives srv q l ((l.log events).log more) := by
          intro more
          rw [FrontLedger.log_log]
          exact .log hhand _
        refine front_validateDirect (fun more v h => ?_) (fun more e h => ?_)
        · exact ⟨harrives _, _, hasked _, h⟩
        · exact ⟨harrives _, fun r hr => ⟨_, hasked _, h r hr⟩⟩
      · exact wpE_throw.mpr (hrefused _ _)
  | pushed clientId requestUri =>
    unfold resolve validatePushedAuthorizationRequest AuthorizationError.refuse
    rw [wpE_bind, front_storeOr rfl]
    refine ⟨⟨hhand, clientId, hdoor⟩, fun g found hfound => ?_⟩
    cases found with
    | none =>
      refine wpE_throw.mpr ⟨⟨⟨_, rfl⟩, rfl, rfl, rfl, fun r hr => ?_⟩, fun _ h => nomatch h⟩
      cases hr
    | some record =>
      have hkey : record.requestUri = requestUri := Table.key_of_lookup (Except.ok.inj hfound)
      refine wpE_ite.mpr ⟨fun hforeign => ?_, fun hown => ?_⟩
      · rw [wpE_bind, front_storeOr rfl]
        refine ⟨.putBack hdoor rfl hforeign, fun g outcome _ =>
          wpE_throw.mpr ⟨⟨?_, rfl, rfl, rfl, ?_⟩, ?_⟩⟩
        · exact ⟨_, List.append_assoc _ _ _⟩
        · intro r hr
          cases hr
        · exact fun _ h => nomatch h
      · have howner : record.clientId = clientId := not_not.mp hown
        let held : FrontLedger := { l with hand := some record }
        have harrives : ∀ events, Arrives srv q l (held.log events) := by
          refine fun events => ⟨⟨events, rfl⟩, rfl, rfl, rfl, ?_⟩
          rintro r ⟨⟩
          exact ⟨requestUri, howner ▸ hdoor⟩
        have hasked : ∀ events,
            (held.log events).Asked srv (.pushed clientId requestUri) record.asRequest :=
          fun events => ⟨record, rfl, hkey, howner, rfl⟩
        rw [wpE_bind, front_now]
        intro t
        rw [FrontLedger.log_log]
        refine wpE_ite.mpr ⟨fun _ => wpE_throw.mpr ⟨harrives _, fun _ h => nomatch h⟩, fun _ => ?_⟩
        refine front_validateDirect (fun events v h => ?_) (fun events e h => ?_)
        · rw [FrontLedger.log_log] at h ⊢
          exact ⟨harrives _, _, hasked _, h⟩
        · rw [FrontLedger.log_log] at h ⊢
          exact ⟨harrives _, fun r hr => ⟨_, hasked _, h r hr⟩⟩

end Doors

/-! ## Pushing -/

section Push
variable {err : ErrorResponse → FrontLedger → Prop} {request : AuthorizationRequest}
variable {ok : AuthorizationRequest → FrontLedger → Prop} {proof : Option String}

theorem front_admits (Φ : Prop) : Admits (srv.frontProtocol q)
    fun l' => Φ ∧ ∃ events, l' = l.log events where
  allowed := by
    rintro _ e - he
    -- The other calls contradict `he`.
    cases e with
    | storage op => cases op <;> trivial
    | _ => trivial
  next := by
    rintro _ e r ⟨hΦ, events, rfl⟩ he -
    refine ⟨hΦ, events ++ [⟨e, r⟩], ?_⟩
    rw [← FrontLedger.log_log]
    cases e with
    | storage op => cases op <;> first | (cases r <;> rfl) | cases he
    | _ => first | rfl | cases he

theorem front_authenticates : Authenticates (srv.frontProtocol q)
    (fun l' => True ∧ ∃ events, l' = l.log events)
    fun id client l' => client.clientId = id ∧ ∃ events, l' = l.log events where
  before := front_admits True
  after _ _ := front_admits _
  weaken := fun ⟨_, h⟩ => ⟨trivial, h⟩
  client := by
    rintro _ id _ ⟨-, events, rfl⟩ ⟨g, rfl⟩
    refine ⟨g.clients.lookup id, rfl, fun client hclient => ⟨Table.key_of_lookup hclient, ?_⟩⟩
    exact ⟨_, FrontLedger.log_log _ _ _⟩

theorem front_authenticateClient {cred : ClientCredential} {ok : Client → FrontLedger → Prop}
    (hok : ∀ events client, client.clientId = clientId →
      (l.log events).Did (.record (.clientAuthentication clientId) .succeeded) () →
      ok client (l.log events)) (herr : ∀ events, err (.new .invalidClient) (l.log events)) :
    wpE (srv.frontProtocol q) (srv.authenticateClient clientId cred) l ok err := by
  refine front_authenticates.authenticateClient_reports (l := l) ⟨trivial, [], l.log_nil.symm⟩ ?_ ?_
  · rintro client _ ⟨hclient, events, rfl⟩ -
    have hnext : (srv.frontProtocol q).next (l.log events)
        (.record (.clientAuthentication clientId) .succeeded) () =
        l.log (events ++ [⟨.record (.clientAuthentication clientId) .succeeded, ()⟩]) :=
      FrontLedger.log_log _ _ _
    rw [hnext]
    exact hok _ client hclient (List.mem_append_right _ (List.mem_append_right _ List.mem_cons_self))
  · rintro _ ⟨-, events, rfl⟩
    exact herr events

theorem front_verifyDpop {htm htu : String} {ok : Option String → FrontLedger → Prop}
    (hok : ∀ events jkt, ok jkt (l.log events)) (herr : ∀ events e, err e (l.log events)) :
    wpE (srv.frontProtocol q) (srv.verifyDpopInner proof htm htu) l ok err := by
  unfold verifyDpopInner
  cases proof with
  | none =>
    rw [← l.log_nil]
    exact wpE_ite.mpr ⟨fun _ => wpE_throw.mpr (herr _ _), fun _ => wpE_pure.mpr (hok _ _)⟩
  | some proof =>
    refine wpE_ite.mpr ⟨fun _ => ?_, fun _ => ?_⟩
    · rw [wpE_bind, front_emit]
      exact wpE_throw.mpr (herr _ _)
    · rw [wpE_bind, front_now]
      intro t
      split
      · rw [wpE_bind, front_emit, FrontLedger.log_log]
        exact wpE_throw.mpr (herr _ _)
      · rw [wpE_bind, store, front_storeOr rfl]
        refine ⟨trivial, fun g fresh _ => ?_⟩
        simp only [FrontLedger.stored, FrontLedger.log_log]
        refine wpE_ite.mpr ⟨fun _ => wpE_pure.mpr (hok _ _), fun _ => ?_⟩
        rw [wpE_bind, front_emit, FrontLedger.log_log]
        exact wpE_throw.mpr (herr _ _)

/-- A proof that comes with the push may bind the request to its key; it changes nothing else, and
no key the request names. -/
theorem front_bindParDpop
    (hok : ∀ events jkt, (∀ named, request.dpopJkt = some named → jkt = some named) →
      ok { request with dpopJkt := jkt } (l.log events)) (herr : ∀ events e, err e (l.log events)) :
    wpE (srv.frontProtocol q) (srv.bindParDpop request proof) l ok err := by
  unfold bindParDpop
  split
  · rw [wpE_pure, ← l.log_nil]
    exact hok [] request.dpopJkt fun _ h => h
  · split
    · rw [wpE_throw, ← l.log_nil]
      exact herr _ _
    · rw [wpE_bind]
      refine front_verifyDpop (fun events jkt => ?_) herr
      refine wpE_ite.mpr ⟨fun _ => wpE_throw.mpr (herr _ _), fun hkey => wpE_pure.mpr (hok _ _ ?_)⟩
      intro named hnamed
      rw [hnamed, Option.any_some, decide_eq_true_eq, not_not] at hkey
      exact hkey.symm

theorem front_pushedParameters {p : PushRequest} {client : Client}
    (hclient : client.clientId = p.clientId)
    (hok : ∀ events request, (l.log events).Pushes srv p request → ok request (l.log events))
    (herr : ∀ events e, err e (l.log events)) :
    wpE (srv.frontProtocol q) (srv.pushedParameters client p.parameters) l ok err := by
  unfold pushedParameters
  split
  · rename_i name object hfind
    rw [wpE_bind]
    refine front_verifiedRequestObject (fun events claims hclaims => wpE_pure.mpr ?_) herr
    refine hok _ _ (.inl ⟨object, claims, ?_, hclient ▸ hclaims, rfl⟩)
    unfold param
    rw [hfind]
    rfl
  · rw [← l.log_nil]
    refine wpE_ite.mpr ⟨fun _ => wpE_throw.mpr (herr _ _), fun hjar => wpE_pure.mpr (hok _ _ ?_)⟩
    exact .inr ⟨Bool.eq_false_iff.mpr hjar, rfl⟩

theorem pushedRecord_asRequest {requestUri : String} {pushedAt expiresAt : SystemTime}
    (h : request.clientId = some clientId) :
    (pushedRecord clientId request requestUri pushedAt expiresAt).asRequest = request := by
  cases request
  cases h
  rfl

theorem follows_storePushedRequest {p : PushRequest} {pushedAt : SystemTime} {jkt : Option String}
    (hclient : clientId = p.clientId) (hhand : l.hand = none) (hfirst : l.lodged = none)
    (hauthenticated : l.Did (.record (.clientAuthentication p.clientId) .succeeded) ())
    (hpushes : l.Pushes srv p request)
    (hkey : ∀ named, request.dpopJkt = some named → jkt = some named) :
    wpE (srv.frontProtocol (.push p))
      (srv.storePushedRequest clientId { request with dpopJkt := jkt } pushedAt) l
      (fun _ l' => l'.hand = none) (fun _ l' => l'.hand = none) := by
  unfold storePushedRequest
  refine wpE_ite.mpr ⟨fun _ => wpE_throw.mpr hhand, fun _ => ?_⟩
  refine wpE_ite.mpr ⟨fun _ => wpE_throw.mpr hhand, fun hmatch => ?_⟩
  refine wpE_ite.mpr ⟨fun _ => wpE_throw.mpr hhand, fun _ => ?_⟩
  rw [wpE_bind, wpE_lift_run]
  refine front_validateDirect (fun events v _ => ?_) (fun events e _ => wpE_throw.mpr hhand)
  split
  · exact wpE_throw.mpr hhand
  · split
    · exact wpE_throw.mpr hhand
    · rw [wpE_bind, front_now]
      intro t
      rw [wpE_bind]
      refine front_perform.mpr ⟨trivial, fun drawn _ => ?_⟩
      cases drawn with
      | none => exact wpE_throw.mpr hhand
      | some hex =>
        rw [wpE_bind, store, front_storeOr rfl]
        have hext : l.Extends (((l.log events).log [⟨.now, t⟩]).next (.randomHex 32) (some hex)) :=
          ((FrontLedger.Extends.log _ _).trans (.log _ _)).trans ⟨rfl, _, rfl⟩
        refine ⟨.lodge rfl ⟨FrontLedger.Sends.mono (l := l) ?_ hext.past, hhand, hfirst,
          hex.text, rfl, rfl⟩, fun g outcome _ => ?_⟩
        · exact ⟨hclient, hauthenticated, request, hpushes,
            pushedRecord_asRequest (not_not.mp hmatch), hkey⟩
        · have hkept : ((FrontLedger.stored (((l.log events).log [⟨.now, t⟩]).next (.randomHex 32)
              (some hex)) (.putPushedAuthorizationRequest (pushedRecord clientId
                { request with dpopJkt := jkt } (requestUriPrefix ++ hex.text) pushedAt
                (srv.deadline t (max _ minRequestUriTtl)))) outcome)).hand = none := by
            simp only [FrontLedger.stored, FrontLedger.write, FrontLedger.next,
              FrontLedger.advance, FrontLedger.log, hhand]
          cases outcome with
          | refusedRevoked => exact wpE_throw.mpr hkept
          | applied => exact wpE_pure.mpr hkept

theorem follows_pushedAuthorizationRequest (p : PushRequest) :
    wpE (srv.frontProtocol (.push p)) (srv.pushedAuthorizationRequest p) .start
      (fun _ l => l.hand = none) (fun _ l => l.hand = none) := by
  unfold pushedAuthorizationRequest
  refine wpE_ite.mpr ⟨fun _ => wpE_throw.mpr rfl, fun _ => ?_⟩
  rw [wpE_bind, front_now]
  intro pushedAt
  rw [wpE_bind]
  refine front_authenticateClient (fun events client hclient hdid => ?_) (fun _ => rfl)
  refine wpE_ite.mpr ⟨fun _ => wpE_throw.mpr rfl, fun _ => ?_⟩
  rw [wpE_bind]
  refine front_pushedParameters hclient (fun more request hpushes => ?_) (fun _ _ => rfl)
  rw [wpE_bind]
  refine front_bindParDpop (fun rest jkt hkey => ?_) (fun _ _ => rfl)
  refine follows_storePushedRequest hclient rfl rfl ?_ ?_ hkey
  · exact (hdid.log _).log _
  · exact hpushes.mono (List.prefix_append _ _)

end Push

/-! ## Issuing a code -/

section Issue
variable {subject : String}

/-- A code is stored after the reported sign-in was checked, and every refusal is addressed as the
request asked. -/
theorem front_issueWith (hfirst : l.minted = none)
    (hissues : l.Issues srv q approval requirement authentication) :
    wpE (srv.frontProtocol q)
      (srv.issueAuthorizationCodeWithAuthentication approval requirement authentication) l
      (fun response l' => l.Extends l' ∧ (l'.approved = l.approved ∧ l'.consents = l.consents) ∧
        response.state = approval.request.state ∧ response.iss = approval.request.issuer)
      (fun e l' => l.Extends l' ∧ ∃ error, e = authorizationErrorFor approval.request error) := by
  unfold issueAuthorizationCodeWithAuthentication issueAuthorizationCodeInner
  rw [wpE_bind, front_now]
  intro checked
  have hchecked := FrontLedger.Extends.log l [⟨.now, checked⟩]
  split
  · exact wpE_throw.mpr ⟨hchecked, _, rfl⟩
  · rename_i hsatisfied
    rw [wpE_bind]
    refine front_perform.mpr ⟨trivial, fun decision _ => ?_⟩
    have hasked := hchecked.trans (.log _
      [⟨.check (.authorizationRequest approval.request.clientId), decision⟩])
    cases decision with
    | deny => exact wpE_throw.mpr ⟨hasked, _, rfl⟩
    | allow =>
      simp only
      rw [wpE_bind, front_now]
      intro filed
      have hfiled := hasked.trans (.log _ [⟨.now, filed⟩])
      rw [wpE_bind]
      refine front_perform.mpr ⟨trivial, fun drawn _ => ?_⟩
      cases drawn with
      | none =>
        simp only
        rw [wpE_bind]
        refine front_perform.mpr ⟨trivial, fun _ _ => wpE_throw.mpr ⟨?_, _, rfl⟩⟩
        exact (hfiled.trans (.log _ [⟨.randomHex 32, none⟩])).trans (.log _ [⟨.record _ _, ()⟩])
      | some code =>
        have hdrawn : l.Extends (((((l.log [⟨.now, checked⟩]).log
            [⟨.check (.authorizationRequest approval.request.clientId), .allow⟩]).log
              [⟨.now, filed⟩]).next (.randomHex 32) (some code))) :=
          hfiled.trans ⟨rfl, _, rfl⟩
        simp only
        rw [wpE_bind, front_tryStore rfl]
        refine ⟨⟨approval, requirement, authentication, checked, filed, code, hfirst, rfl,
          hissues.mono hdrawn, hsatisfied, ⟨l.past, ?_⟩, rfl⟩, fun g _ _ => ?_⟩
        · simp only [FrontLedger.next, FrontLedger.advance, FrontLedger.log, List.append_assoc]
          rfl
        · simp only
          rw [wpE_bind]
          refine front_perform.mpr ⟨trivial, fun _ _ => wpE_pure.mpr ⟨?_, ⟨rfl, rfl⟩, rfl, rfl⟩⟩
          refine FrontLedger.Extends.trans ?_ (.next _ rfl)
          exact hdrawn.trans ⟨rfl, _, rfl⟩

/-- A consent is recorded for the approved pair only. -/
theorem front_remembers (hpair : l.Remembering srv q clientId subject) :
    Remembers (srv.frontProtocol q) clientId subject FrontLedger.consents
      fun l' => l.Extends l' ∧ l'.approved = true where
  possible := rfl
  looks h := ⟨(hpair.mono h.1).1, fun _ => ⟨⟨h.1.trans ⟨rfl, _, rfl⟩, h.2⟩, if_pos h.2⟩⟩
  draws h := by
    refine ⟨trivial, fun drawn => ?_⟩
    have hext := h.1.trans (FrontLedger.Extends.next _ (e := .randomHex 16) (r := drawn)
      (by cases drawn <;> rfl))
    cases drawn <;> exact ⟨⟨hext, h.2⟩, rfl⟩
  widens h hclient hsubject hwidens _ := by
    refine .widen ?_ hwidens
    rw [hwidens.client, hwidens.subject, hclient, hsubject]
    exact hpair.mono h.1
  creates h hfirst honce hid hclient hsubject _ := by
    refine .create ?_ (congrArg some hid.symm) hfirst honce
    rw [hclient, hsubject]
    exact hpair.mono (h.1.trans ⟨rfl, _, rfl⟩)
  swaps _ _ _ h := ⟨⟨h.1.trans ⟨rfl, _, rfl⟩, h.2⟩, rfl⟩

theorem front_recordConsent {scope : ScopeSet} {resource : List String}
    (happroved : l.approved = true) (hconsents : l.consents = ⟨none, none⟩)
    (hpair : l.Remembering srv q clientId subject) :
    wpE (srv.frontProtocol q) (recordConsent clientId subject scope resource authentication) l
      (fun _ l' => l.Extends l') (fun _ l' => l.Extends l') := by
  unfold recordConsent
  refine wpE_ite.mpr ⟨fun _ => wpE_throw.mpr (.refl l), fun _ => ?_⟩
  rw [wpE_bind, front_now]
  intro now
  refine wpE_mono (fun _ _ h => h.1) (fun _ _ h => h.1) ((front_remembers hpair).wpE_loop scope
    resource authentication now 2 none ⟨.log l [⟨.now, now⟩], happroved⟩ ?_ ?_)
  · exact congrArg ConsentLedger.created hconsents
  · exact (congrArg (fun c => c.first.map Option.isSome) hconsents).symm

end Issue

/-! ## The endpoint -/

section Endpoint

/-- An answer of the endpoint, as the endpoint promises it. -/
def Responds (srv : Server) (q : ServiceRequest) (response : Response) (l : FrontLedger) : Prop :=
  l.Accepts srv q (.response response)

theorem Responds.of_returned {response : Response} (h : l.Returned srv q)
    (hdirect : response.isRedirect = false) : Responds srv q response l := by
  refine ⟨h, ?_⟩
  cases response with
  | redirect r => cases hdirect
  | _ => trivial

/-- A redirect is sent if the target can stand in a header. -/
theorem Responds.respond {door : Door} {r : Redirect} (hdoor : srv.door q = some door)
    (h : l.Returned srv q) (haddresses : l.Addresses srv door r) :
    Responds srv q r.respond l := by
  unfold Redirect.respond
  split
  · exact ⟨h, door, hdoor, haddresses⟩
  · exact .of_returned h rfl

variable {p : AuthorizeRequest} {door : Door} {validated : ValidatedAuthorizationRequest}
  {received : SystemTime} {subject : String}

section Approval
variable (hdoor : srv.door (.authorize p) = some door) (hreturned : l.Returned srv (.authorize p))
  (hresolved : l.Resolved srv door (.ok validated)) (hhead : l.past.head? = some ⟨.now, received⟩)
  (hfirst : l.minted = none) (hconsents : l.consents = ⟨none, none⟩)

include hdoor hreturned hresolved hhead hfirst hconsents

/-- Once the user approved, the code goes where the request asked, and so does a refusal. -/
theorem follows_concludeAuthorization (remember : Bool) (hsubject : p.subject = some subject)
    (happroved : l.approved = true)
    (hremember : remember = true → ∃ asked, l.Did (.approve asked) .approveAndRemember) :
    wpE (srv.frontProtocol (.authorize p))
      (srv.concludeAuthorization p subject validated received remember) l
      (fun response => Responds srv (.authorize p) response)
      (fun response => Responds srv (.authorize p) response) := by
  have hanswer : ∀ {l' : FrontLedger} {r : Redirect}, l.Extends l' →
      r.target = validated.redirectUri → r.state = validated.state → r.iss = validated.issuer →
      Responds srv (.authorize p) r.respond l' := fun hext htarget hstate hiss =>
    .respond hdoor (hreturned.mono hext) ((hresolved.mono hext).addresses htarget hstate hiss)
  unfold concludeAuthorization
  rw [wpE_bind, wpE_lift_run]
  refine wpE_mono ?_ ?_ (front_issueWith hfirst
    ⟨door, validated, subject, received, hdoor, hresolved, hsubject, hhead, rfl, rfl, rfl⟩)
  · rintro response l' ⟨hext, ⟨hasked, hkept⟩, hstate, hiss⟩
    simp only
    cases remember with
    | false => exact wpE_pure.mpr (hanswer hext rfl hstate hiss)
    | true =>
      simp only [if_true]
      rw [wpE_bind, wpE_lift_run]
      obtain ⟨asked, hdid⟩ := hremember rfl
      have hpair : l'.Remembering srv (.authorize p) validated.clientId subject :=
        ⟨⟨p, door, validated, rfl, hdoor, hresolved.mono hext, rfl, hsubject⟩, asked,
          hdid.mono hext.past⟩
      refine wpE_mono ?_ ?_ (front_recordConsent (hasked.trans happroved) (hkept.trans hconsents)
        hpair)
      · exact fun _ l'' h => wpE_pure.mpr (hanswer (hext.trans h) rfl hstate hiss)
      · exact fun _ l'' h => wpE_pure.mpr (hanswer (hext.trans h) rfl hstate hiss)
  · rintro _ l' ⟨hext, error, rfl⟩
    exact wpE_pure.mpr (hanswer hext rfl rfl rfl)

theorem follows_approveAuthorization (happroved : l.approved = false) :
    wpE (srv.frontProtocol (.authorize p)) (srv.approveAuthorization p validated received) l
      (fun response => Responds srv (.authorize p) response)
      (fun response => Responds srv (.authorize p) response) := by
  unfold approveAuthorization
  split
  · exact wpE_throw.mpr (.of_returned hreturned rfl)
  · rename_i subject hsubject
    have habout : l.About srv (.authorize p) validated.clientId subject :=
      ⟨p, door, validated, rfl, hdoor, hresolved, rfl, hsubject⟩
    unfold rememberedConsent
    rw [wpE_bind, wpE_bind, front_tryStore rfl]
    refine ⟨habout, fun g found _ => wpE_pure.mpr ?_⟩
    have hlooked : l.Extends (FrontLedger.log
        (l.stored (.findConsent validated.clientId subject) found)
        [⟨.storage (.findConsent validated.clientId subject), .ok found⟩]) := ⟨rfl, _, rfl⟩
    refine wpE_ite.mpr ⟨fun _ => wpE_throw.mpr (.of_returned (hreturned.mono hlooked) rfl),
      fun _ => ?_⟩
    rw [wpE_bind]
    refine front_perform.mpr ⟨⟨happroved, habout.mono hlooked⟩, fun decision _ => ?_⟩
    have hext := hlooked.trans (.next _ (e := .approve (approvalRequest p subject validated found))
      (r := decision) rfl)
    have hunlooked : (l.stored (.findConsent validated.clientId subject) found).consents =
        ⟨none, none⟩ := by
      simp only [FrontLedger.stored, happroved, hconsents, Bool.false_eq_true, if_false]
    have hconclude : ∀ remember : Bool,
        (remember = true → decision = .approveAndRemember) → _ := fun remember hdecision =>
      follows_concludeAuthorization hdoor (hreturned.mono hext) (hresolved.mono hext)
        (hext.head hhead) hfirst hunlooked remember hsubject rfl fun h =>
          ⟨approvalRequest p subject validated found, hdecision h ▸
            List.mem_append_right _ List.mem_cons_self⟩
    cases decision with
    | deny =>
      refine wpE_throw.mpr (.respond hdoor (hreturned.mono hext) ?_)
      exact (hresolved.mono hext).addresses rfl rfl rfl
    | respond => exact wpE_throw.mpr (.of_returned (hreturned.mono hext) rfl)
    | approve => exact hconclude false nofun
    | approveAndRemember => exact hconclude true fun _ => rfl

end Approval

theorem follows_authorizeHandler (p : AuthorizeRequest) :
    wpE (srv.frontProtocol (.authorize p)) (srv.authorizeHandler p) .start
      (fun response => Responds srv (.authorize p) response)
      (fun response => Responds srv (.authorize p) response) := by
  unfold authorizeHandler
  rw [wpE_bind, front_now]
  intro received
  have hstart : (FrontLedger.start.log [⟨.now, received⟩]).Returned srv (.authorize p) :=
    fun _ h => nomatch h
  split
  · exact wpE_throw.mpr (.of_returned hstart rfl)
  · rename_i pairs hpairs
    rw [wpE_bind, wpE_lift_run]
    rcases srv.resolveAuthorizationRequest_eq pairs with ⟨door, hdoorOf, heq⟩ | ⟨-, e, heq⟩
    · have hdoor : srv.door (.authorize p) = some door := by
        simp only [Server.door, hpairs, Option.bind_some, hdoorOf]
      rw [heq]
      refine wpE_mono ?_ ?_ (front_resolve hdoor rfl)
      · rintro validated l' ⟨⟨⟨events, hpast⟩, hminted, happroved, hconsents, hreturned⟩, hresolved⟩
        refine follows_approveAuthorization hdoor hreturned hresolved ?_ hminted hconsents happroved
        rw [hpast]
        rfl
      · rintro e l' ⟨⟨-, -, -, -, hreturned⟩, hresolved⟩
        refine wpE_throw.mpr ?_
        cases e with
        | direct error => exact .of_returned hreturned rfl
        | redirect r => exact .respond hdoor hreturned (hresolved r rfl).addresses_error
    · rw [heq]
      exact wpE_throw.mpr (wpE_throw.mpr (.of_returned hstart rfl))

end Endpoint

end Server

end OauthAs
