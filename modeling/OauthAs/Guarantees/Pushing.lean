-- SUMMARY: A request that is pushed first is judged as it would have been without.
import OauthAs.Guarantees.Disclosure
import OauthAs.Protocol.Alone
import OauthAs.Server.Service

/-!
# Pushing a request

The parameters of a pushed request are judged, copied into a record, read back from there when the
handle is presented and judged again. The judgement depends on the parameters and the registration,
and every parameter survives the copying, so both judgements are the one that the parameters get
when they are sent directly.
-/

namespace OauthAs

open Sample

/-- A world in which nothing else goes on; the limiter's decisions and the randomness are given. -/
abbrev World.drawing (limit : Attempt → RateLimitDecision) (draw : World → Nat → Option String) :
    World → (e : Effect) → Option (e.Answer × World) :=
  World.resolved fun w e => match e with
    | .check attempt => .decision (limit attempt)
    | .randomHex bytes => .hex (draw w bytes)
    | _ => .none

namespace Server

variable {request : AuthorizationRequest}

open Prog Handler

variable {srv : Server} {limit : Attempt → RateLimitDecision}
  {draw : World → Nat → Option String} {w w' : World}

/-! ## Judgements -/

/-- The parameters sent directly: the object's alone, if there is an object. -/
def directly (srv : Server) (clientId : ClientId) (parameters : List (String × String)) :
    Handler AuthorizationError ValidatedAuthorizationRequest :=
  match parameters.find? fun pair => pair.1 == "request" with
  | some (_, object) => do
    match ← ExceptT.lift (srv.verifiedRequestObject clientId object).run with
    | .error e => throw (.direct e)
    | .ok claims => srv.validateDirectAuthorizationRequest claims.asRequest
  | none => srv.validateDirectAuthorizationRequest (.fromPairs parameters)

/-- What an admitted request comes to with these clients. -/
def verdictInner (srv : Server) (clients : Table Client.clientId) (request : AuthorizationRequest) :
    Except AuthorizationError ValidatedAuthorizationRequest :=
  match request.clientId.filter fun id => !id.isEmpty with
  | none => .error (.refuse .invalidRequest "missing client_id")
  | some clientId =>
    match clients.lookup clientId with
    | none => .error (.refuse .invalidRequest "unknown client_id")
    | some client => srv.validateFor client request

/-- What a request comes to. -/
def verdict (srv : Server) (limit : Attempt → RateLimitDecision) (clients : Table Client.clientId)
    (request : AuthorizationRequest) : Except AuthorizationError ValidatedAuthorizationRequest :=
  match limit (.authorizationRequest (request.clientId.getD "")) with
  | .deny =>
    .error (.refuse .temporarilyUnavailable "too many authorization requests; retry later")
  | .allow => srv.verdictInner clients request

theorem exec_validateDirectAuthorizationRequestInner (request : AuthorizationRequest) :
    exec (World.drawing limit draw) w (srv.validateDirectAuthorizationRequestInner request).run =
      some (srv.verdictInner w.store.clients request, w) := by
  cases hid : request.clientId.filter fun id => !id.isEmpty with
  | none =>
    simp only [validateDirectAuthorizationRequestInner, verdictInner, hid]
    rfl
  | some clientId =>
    have hget : exec (World.drawing limit draw) w (storeOr (fun _ =>
        AuthorizationError.refuse .serverError "storage unavailable") (.getClient clientId)).run =
        some (.ok (w.store.clients.lookup clientId), w) := rfl
    simp only [validateDirectAuthorizationRequestInner, verdictInner, hid]
    rw [exec_bindE, hget]
    cases w.store.clients.lookup clientId with
    | none => rfl
    | some client => exact exec_judge _

theorem exec_validateDirectAuthorizationRequest (request : AuthorizationRequest) :
    exec (World.drawing limit draw) w (srv.validateDirectAuthorizationRequest request).run =
      some (srv.verdict limit w.store.clients request, w) := by
  have hcheck : exec (World.drawing limit draw) w
      (Handler.perform (.check (.authorizationRequest (request.clientId.getD ""))) :
        Handler AuthorizationError RateLimitDecision).run =
      some (.ok (limit (.authorizationRequest (request.clientId.getD ""))), w) := rfl
  simp only [validateDirectAuthorizationRequest, verdict]
  rw [exec_bindE, hcheck]
  cases limit (.authorizationRequest (request.clientId.getD "")) with
  | deny => rfl
  | allow =>
    simp only
    rw [exec_bindE, exec_liftE, exec_validateDirectAuthorizationRequestInner]
    exact exec_judge _

/-- The verdict depends on the registration of the client that the request names. -/
theorem verdict_congr {clients clients' : Table Client.clientId}
    (h : ∀ id, request.clientId = some id → clients.lookup id = clients'.lookup id) :
    srv.verdict limit clients request = srv.verdict limit clients' request := by
  have hinner : srv.verdictInner clients request = srv.verdictInner clients' request := by
    cases hid : request.clientId.filter fun id => !id.isEmpty with
    | none => simp only [verdictInner, hid]
    | some id =>
      have hsome : request.clientId = some id := (Option.filter_eq_some_iff.mp hid).1
      simp only [verdictInner, hid, h id hsome]
  simp only [verdict, hinner]

/-- What the object says at an instant. -/
def objectVerdict (srv : Server) (clientId : ClientId) (object : String) (now : SystemTime) :
    Except ErrorResponse RequestObjectClaims := do
  let claims ← srv.signedPayload clientId object
  srv.checkObjectClaims clientId claims now
  readClaims srv.host.renderJson clientId claims

theorem exec_verifiedRequestObject (clientId : ClientId) (object : String) :
    exec (World.drawing limit draw) w (srv.verifiedRequestObject clientId object).run =
      some (srv.objectVerdict clientId object w.clock, w) := by
  have hnow : exec (World.drawing limit draw) w (now : Handler ErrorResponse SystemTime).run =
    some (.ok w.clock, w) := rfl
  unfold verifiedRequestObject objectVerdict
  rw [exec_bindE, exec_judge]
  cases srv.signedPayload clientId object with
  | error e => rfl
  | ok claims =>
    change _ = some (srv.checkObjectClaims clientId claims w.clock >>= fun _ =>
      readClaims srv.host.renderJson clientId claims, w)
    simp only
    rw [exec_bindE, hnow]
    simp only
    rw [exec_bindE, exec_judge]
    cases srv.checkObjectClaims clientId claims w.clock with
    | error e => rfl
    | ok _ => exact exec_judge _

/-- The request that parameters are about, at an instant. -/
def asked (srv : Server) (clientId : ClientId) (parameters : List (String × String))
    (now : SystemTime) : Except ErrorResponse AuthorizationRequest :=
  match parameters.find? fun pair => pair.1 == "request" with
  | some (_, object) => (srv.objectVerdict clientId object now).map RequestObjectClaims.asRequest
  | none => .ok (.fromPairs parameters)

/-- What parameters come to that are sent directly. -/
def directVerdict (srv : Server) (limit : Attempt → RateLimitDecision)
    (clients : Table Client.clientId) (now : SystemTime) (clientId : ClientId)
    (parameters : List (String × String)) : Except AuthorizationError ValidatedAuthorizationRequest :=
  match srv.asked clientId parameters now with
  | .error e => .error (.direct e)
  | .ok request => srv.verdict limit clients request

theorem exec_directly (clientId : ClientId) (parameters : List (String × String)) :
    exec (World.drawing limit draw) w (srv.directly clientId parameters).run =
      some (srv.directVerdict limit w.store.clients w.clock clientId parameters, w) := by
  unfold directly directVerdict asked
  split
  · rename_i name object hobject
    rw [exec_bindE, exec_liftE, exec_verifiedRequestObject]
    cases srv.objectVerdict clientId object w.clock with
    | error e => rfl
    | ok claims => exact exec_validateDirectAuthorizationRequest claims.asRequest
  · exact exec_validateDirectAuthorizationRequest _

/-! ## The push -/

theorem asRequest_pushedRecord {clientId : ClientId} (h : request.clientId = some clientId)
    (requestUri : String) (pushedAt expiresAt : SystemTime) :
    (pushedRecord clientId request requestUri pushedAt expiresAt).asRequest = request := by
  cases request
  cases h
  rfl

/-- The record keeps the request, under the handle that was answered. -/
structure Lodged (w : World) (clientId : ClientId) (request : AuthorizationRequest)
    (response : PushedAuthorizationResponse) (record : PushedAuthorizationRequest) : Prop where
  stored : w.store.pushed.lookup response.requestUri = some record
  clientId : record.clientId = clientId
  asRequest : record.asRequest = request
  /-- The handle lives at least as long as the client is told. -/
  expires : w.clock + Duration.fromSecs response.expiresIn ≤ record.expiresAt

theorem lookup_of_pushed {g g' : MemoryInner} {record : PushedAuthorizationRequest}
    (h : (StorageOp.putPushedAuthorizationRequest record).exec g = (.ok .applied, g')) :
    g'.pushed.lookup record.requestUri = some record := by
  simp only [StorageOp.exec, StorageOp.succeeding, MemoryInner.putPushedAuthorizationRequest] at h
  split at h
  · cases h
  · cases h
    exact Table.lookup_insert_self _ _

theorem expires_of_deadline (now : SystemTime) (ttl : Duration) :
    now + Duration.fromSecs
        (((srv.deadline now ttl).durationSince now).getD minRequestUriTtl).asSecs ≤
      srv.deadline now ttl := by
  have hle : now ≤ srv.deadline now ttl := le_saturatingDeadline _ _ _
  rw [SystemTime.durationSince, if_pos hle, Option.getD_some, Duration.asSecs, Duration.fromSecs]
  have := Nat.div_mul_le_self (srv.deadline now ttl - now).toNat 1000000000
  lia

theorem lodged_of_exec {clientId : ClientId} {pushedAt : SystemTime}
    {response : PushedAuthorizationResponse}
    (h : exec (World.drawing limit draw) w
      (srv.storePushedRequest clientId request pushedAt).run = some (.ok response, w')) :
    request.clientId = some clientId ∧
      (∃ validated, srv.verdict limit w.store.clients request = .ok validated) ∧
      ∃ record, Lodged w' clientId request response record := by
  unfold storePushedRequest at h
  split at h
  · cases exec_throw_ok h
  split at h
  · cases exec_throw_ok h
  rename_i hid
  split at h
  · cases exec_throw_ok h
  obtain ⟨outcome, v, hvalidate, h⟩ := exec_bind_ok.mp h
  rw [exec_liftE, exec_validateDirectAuthorizationRequest] at hvalidate
  cases hvalidate
  cases hverdict : srv.verdict limit w.store.clients request with
  | error e =>
    rw [hverdict] at h
    cases exec_throw_ok h
  | ok validated =>
    rw [hverdict] at h
    refine ⟨not_not.mp hid, ⟨validated, rfl⟩, ?_⟩
    simp only at h
    split at h
    · cases exec_throw_ok h
    · rename_i par hpar
      obtain ⟨now, v, hnow, h⟩ := exec_bind_ok.mp h
      cases hnow
      obtain ⟨drawn, v, hdraw, h⟩ := exec_bind_ok.mp h
      obtain ⟨-, hv⟩ := World.frame_of_perform rfl (exec_performE_ok.mp hdraw)
      cases drawn with
      | none => cases exec_throw_ok h
      | some hex =>
        obtain ⟨written, u, hput, h⟩ := exec_bind_ok.mp h
        obtain ⟨hput, hu⟩ := exec_of_exec_storeOr hput
        cases written with
        | refusedRevoked => cases exec_throw_ok h
        | applied =>
          obtain ⟨rfl, rfl⟩ := exec_pure_ok.mp h
          refine ⟨_, lookup_of_pushed hput, rfl, asRequest_pushedRecord (not_not.mp hid) _ _ _, ?_⟩
          rw [hu, hv]
          exact expires_of_deadline _ _

theorem asked_of_exec {client : Client} {parameters : List (String × String)}
    (h : exec (World.drawing limit draw) w (srv.pushedParameters client parameters).run =
      some (.ok request, w')) :
    srv.asked client.clientId parameters w.clock = .ok request ∧ w' = w := by
  unfold pushedParameters at h
  split at h
  · rename_i name object hobject
    obtain ⟨claims, v, hclaims, h⟩ := exec_bind_ok.mp h
    rw [exec_verifiedRequestObject] at hclaims
    obtain ⟨hverdict, rfl⟩ := Prod.mk.inj (Option.some.inj hclaims)
    obtain ⟨rfl, rfl⟩ := exec_pure_ok.mp h
    refine ⟨?_, rfl⟩
    rw [asked, hobject]
    exact congrArg (Except.map RequestObjectClaims.asRequest) hverdict
  · rename_i hnone
    split at h
    · cases exec_throw_ok h
    · obtain ⟨rfl, rfl⟩ := exec_pure_ok.mp h
      refine ⟨?_, rfl⟩
      rw [asked, hnone]

/-- A push that was answered lodged a request that passes. -/
theorem exec_pushedAuthorizationRequest {p : PushRequest} {response : PushedAuthorizationResponse}
    (hproof : p.dpopProof = none)
    (h : exec (World.drawing limit draw) w (srv.pushedAuthorizationRequest p).run =
      some (.ok response, w')) :
    ∃ request validated record, srv.asked p.clientId p.parameters w.clock = .ok request ∧
      request.clientId = some p.clientId ∧
      srv.verdict limit w.store.clients request = .ok validated ∧
      Lodged w' p.clientId request response record := by
  unfold pushedAuthorizationRequest at h
  split at h
  · cases exec_throw_ok h
  obtain ⟨pushedAt, v, hnow, h⟩ := exec_bind_ok.mp h
  cases hnow
  obtain ⟨client, v, hauth, h⟩ := exec_bind_ok.mp h
  obtain ⟨hid, ids, rfl⟩ := exec_authenticateClient (fun _ _ _ _ h => ⟨_, h⟩) hauth
  have hid := hid client rfl
  split at h
  · cases exec_throw_ok h
  obtain ⟨request, v, hparameters, h⟩ := exec_bind_ok.mp h
  obtain ⟨hasked, rfl⟩ := asked_of_exec hparameters
  obtain ⟨request', v, hbind, h⟩ := exec_bind_ok.mp h
  rw [hproof] at hbind
  obtain ⟨rfl, rfl⟩ := exec_pure_ok.mp hbind
  obtain ⟨hclient, ⟨validated, hverdict⟩, record, hlodged⟩ := lodged_of_exec h
  rw [hid] at hasked hclient hlodged
  exact ⟨request, validated, record, hasked, hclient, hverdict, hlodged⟩

/-! ## The handle -/

variable (srv) in

/-- A handle that is presented in time by its client is judged as its request is. -/
theorem exec_validatePushedAuthorizationRequest {requestUri : String}
    {record : PushedAuthorizationRequest} (hrecord : w.store.pushed.lookup requestUri = some record)
    (hclock : w.clock < record.expiresAt) :
    ∃ w₂, exec (World.drawing limit draw) w
      (srv.validatePushedAuthorizationRequest record.clientId requestUri).run =
        some (srv.verdict limit w.store.clients record.asRequest, w₂) := by
  let v : World := { w with store := { w.store with pushed := w.store.pushed.erase requestUri } }
  have htake : exec (World.drawing limit draw) w (storeOr (fun _ =>
      AuthorizationError.direct (.new .serverError)) (.takePushedAuthorizationRequest requestUri)).run =
      some (.ok (some record), v) := by
    rw [← hrecord]
    rfl
  have hnow : exec (World.drawing limit draw) v (now : Handler AuthorizationError SystemTime).run =
    some (.ok w.clock, v) := rfl
  refine ⟨v, ?_⟩
  unfold validatePushedAuthorizationRequest
  rw [exec_bindE, htake]
  simp only [ne_eq, not_true_eq_false, if_false]
  rw [exec_bindE, hnow]
  simp only [if_neg (Int.not_le.mpr hclock)]
  exact exec_validateDirectAuthorizationRequest record.asRequest

end Server

/-- Pushing a request changes nothing about it. The parameters are sent directly in a world `w₀` and
pushed in a world `w` with the same registration, at the same instant. -/
theorem pushing_changes_nothing {srv : Server} {limit : Attempt → RateLimitDecision}
    {draw draw₀ : World → Nat → Option String} {w w₀ : World} {p : PushRequest}
    (hproof : p.dpopProof = none) (hclock : w₀.clock = w.clock)
    (hrow : w₀.store.clients.lookup p.clientId = w.store.clients.lookup p.clientId) :
    (∀ response w', Prog.exec (World.drawing limit draw) w (srv.pushedAuthorizationRequest p).run =
        some (.ok response, w') →
      ∃ validated record,
        Prog.exec (World.drawing limit draw₀) w₀ (srv.directly p.clientId p.parameters).run =
          some (.ok validated, w₀) ∧
        w'.store.pushed.lookup response.requestUri = some record ∧
        w'.clock + Duration.fromSecs response.expiresIn ≤ record.expiresAt ∧
        ∀ draw₁ w₁, w₁.store.clients.lookup p.clientId = w.store.clients.lookup p.clientId →
          w₁.store.pushed.lookup response.requestUri = some record →
          w₁.clock < record.expiresAt →
          ∃ w₂, Prog.exec (World.drawing limit draw₁) w₁
            (srv.validatePushedAuthorizationRequest p.clientId response.requestUri).run =
              some (.ok validated, w₂)) ∧
    ∀ error w₀', Prog.exec (World.drawing limit draw₀) w₀
        (srv.directly p.clientId p.parameters).run = some (.error error, w₀') →
      ∀ response w', Prog.exec (World.drawing limit draw) w (srv.pushedAuthorizationRequest p).run ≠
        some (.ok response, w') := by
  have hdirect : ∀ response w', Prog.exec (World.drawing limit draw) w
      (srv.pushedAuthorizationRequest p).run = some (.ok response, w') →
      ∃ request validated record, request.clientId = some p.clientId ∧
        srv.verdict limit w.store.clients request = .ok validated ∧
        Server.Lodged w' p.clientId request response record ∧
        srv.directVerdict limit w₀.store.clients w₀.clock p.clientId p.parameters =
          .ok validated := by
    intro response w' hpush
    obtain ⟨request, validated, record, hasked, hclient, hverdict, hlodged⟩ :=
      Server.exec_pushedAuthorizationRequest hproof hpush
    refine ⟨request, validated, record, hclient, hverdict, hlodged, ?_⟩
    rw [Server.directVerdict, hclock, hasked, ← hverdict]
    refine Server.verdict_congr fun id hid => ?_
    cases hclient.symm.trans hid
    exact hrow
  constructor
  · intro response w' hpush
    obtain ⟨request, validated, record, hclient, hverdict, hlodged, hdirect⟩ :=
      hdirect response w' hpush
    refine ⟨validated, record, ?_, hlodged.stored, hlodged.expires, ?_⟩
    · rw [Server.exec_directly, hdirect]
    · intro draw₁ w₁ hrow₁ hrecord hlive
      obtain ⟨w₂, hpresented⟩ :=
        Server.exec_validatePushedAuthorizationRequest srv hrecord hlive
      refine ⟨w₂, ?_⟩
      rw [← hlodged.clientId, hpresented, hlodged.asRequest, ← hverdict]
      refine congrArg (fun verdict => some (verdict, w₂)) (Server.verdict_congr fun id hid => ?_)
      cases hclient.symm.trans hid
      exact hrow₁
  · intro error w₀' hrefused response w' hpush
    obtain ⟨request, validated, record, hclient, hverdict, hlodged, hdirect⟩ :=
      hdirect response w' hpush
    rw [Server.exec_directly, hdirect] at hrefused
    cases hrefused

namespace Sample

/-- The client is registered, nothing else happened. -/
def appearing : World := { World.initial 0 with store := MemoryInner.putClient .empty app }

/-- A request that says all there is to say. -/
def askingAll : List (String × String) :=
  asking ++ [("redirect_uri", "https://app.example/cb"), ("scope", "read"), ("state", "xyz"),
    ("resource", "https://api.example"), ("authorization_details", "[payment]"),
    ("acr_values", "gold"), ("max_age", "60"), ("dpop_jkt", "thumbprint")]

def pushAll : PushRequest := { push with parameters := askingAll }

/-- The deployment that takes pushed requests, with details of one kind. -/
def detailing : Server where
  config := { pushing.config with authorizationDetailsTypesSupported := some ["payment"] }
  host :=
    { host with parseDetails := fun text => if text = "[payment]" then some [payment] else none }

end Sample

/-- A push, the parameters sent directly, and the handle presented right after the push. -/
theorem pushing_changes_nothing_app :
    ∃ response w' validated w₂,
      Prog.exec (World.drawing (fun _ => .allow) fun _ _ => some code) appearing
        (detailing.pushedAuthorizationRequest pushAll).run = some (.ok response, w') ∧
      Prog.exec (World.drawing (fun _ => .allow) fun _ _ => none) appearing
        (detailing.directly "app" askingAll).run = some (.ok validated, appearing) ∧
      Prog.exec (World.drawing (fun _ => .allow) fun _ _ => none) w'
        (detailing.validatePushedAuthorizationRequest "app" response.requestUri).run =
          some (.ok validated, w₂) := by
  have hrun : (Prog.exec (World.drawing (fun _ => .allow) fun _ _ => some code) appearing
      (detailing.pushedAuthorizationRequest pushAll).run).any (endsWell fun response w' =>
        decide (w'.store.clients.lookup "app" = appearing.store.clients.lookup "app") &&
          (w'.store.pushed.lookup response.requestUri).any fun record =>
            decide (w'.clock < record.expiresAt)) = true := by
    decide +kernel
  obtain ⟨⟨result, w'⟩, hpush, hok⟩ := (Option.any_eq_true _ _).mp hrun
  cases result with
  | error e => cases hok
  | ok response =>
    simp only [endsWell, Bool.and_eq_true, decide_eq_true_eq, Option.any_eq_true] at hok
    obtain ⟨hrow, found, hfound, hlive⟩ := hok
    obtain ⟨validated, record, hdirect, hrecord, -, hpresented⟩ :=
      (pushing_changes_nothing rfl (rfl : appearing.clock = appearing.clock) rfl).1 response w' hpush
    cases hrecord.symm.trans hfound
    obtain ⟨w₂, hpresented⟩ := hpresented (fun _ _ => none) w' hrow hrecord hlive
    exact ⟨response, w', validated, w₂, hpush, hdirect, hpresented⟩

end OauthAs
