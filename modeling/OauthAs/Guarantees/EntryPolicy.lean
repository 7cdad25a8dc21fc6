-- SUMMARY: Where only pushed or only signed requests are taken, codes come from nothing else.
import OauthAs.Protocol.Requests

/-!
# Entry policy

A deployment may insist on pushed requests, on signed requests, or on both. The insisting is done
at the doors: in the query's, at the push and in the object's. Between a push and the code made
from it the request lies in the store. So for every code the call that validated its request is
found, then its door, and behind the door the push or the object.
-/

namespace OauthAs

open Sample

variable {object : String}

/-! ## Signed objects -/

/-- The three segments of an object whose signature verified under the key registered for the
client, and what its payload says. -/
def SignedBy (srv : Server) (clientId : ClientId) (object : String) (claims : RequestObjectClaims) :
    Prop :=
  ∃ keys registered verify header payload signature octets signatureOctets members,
    srv.host.requestObjectKeys = some keys ∧ keys clientId = some registered ∧
    srv.host.jws.verifier registered.alg = some verify ∧
    segments '.' object = [header, payload, signature] ∧
    srv.host.jws.base64Url signature = some signatureOctets ∧
    verify registered.key (header ++ "." ++ payload) signatureOctets = true ∧
    srv.host.jws.base64Url payload = some octets ∧
    srv.host.jws.parseJson octets = some (.object members) ∧
    readClaims srv.host.renderJson clientId members = .ok claims

theorem of_elim_ok {α ε : Type} {o : Option α} {e : ε} {a : α}
    (h : o.elim (.error e) .ok = (.ok a : Except ε α)) : o = some a := by
  cases o with
  | none => cases h
  | some b => exact congrArg some (Except.ok.inj h)

/-- A payload is read only once the signature has verified. -/
theorem of_verifiedPayload {b : JwsBackend} {registered : RegisteredRequestObjectKey}
    {verify : String → String → Octets → Bool} {members : JsonObject}
    (h : verifiedPayload b registered verify object = .ok members) :
    ∃ header payload signature octets signatureOctets,
      segments '.' object = [header, payload, signature] ∧
      b.base64Url signature = some signatureOctets ∧
      verify registered.key (header ++ "." ++ payload) signatureOctets = true ∧
      b.base64Url payload = some octets ∧ b.parseJson octets = some (.object members) := by
  unfold verifiedPayload at h
  split at h
  · rename_i header payload signature hsegments
    obtain ⟨headerOctets, -, h⟩ := except_bind_ok h
    obtain ⟨headerMembers, -, h⟩ := except_bind_ok h
    obtain ⟨-, -, h⟩ := except_bind_ok h
    obtain ⟨signatureOctets, hsignature, h⟩ := except_bind_ok h
    split at h
    · cases h
    · rename_i hverify
      obtain ⟨octets, hoctets, h⟩ := except_bind_ok h
      split at h
      · cases h
      · rename_i hjson
        cases h
        refine ⟨header, payload, signature, octets, signatureOctets, hsegments,
          of_elim_ok hsignature, ?_, of_elim_ok hoctets, hjson⟩
        simpa using hverify
      · cases h
  · cases h

theorem signedBy_of_signedPayload {srv : Server} {clientId : ClientId} {members : JsonObject}
    {claims : RequestObjectClaims} (h : srv.signedPayload clientId object = .ok members)
    (hclaims : readClaims srv.host.renderJson clientId members = .ok claims) :
    SignedBy srv clientId object claims := by
  unfold Server.signedPayload at h
  split at h
  · cases h
  · split at h
    · cases h
    · split at h
      · cases h
      · rename_i keys hkeys
        split at h
        · cases h
        · rename_i registered hregistered
          split at h
          · cases h
          · rename_i verify hverify
            obtain ⟨header, payload, signature, octets, signatureOctets, hsegments, hsignature,
              hverified, hoctets, hjson⟩ := of_verifiedPayload h
            exact ⟨keys, registered, verify, header, payload, signature, octets, signatureOctets,
              members, hkeys, hregistered, hverify, hsegments, hsignature, hverified, hoctets,
              hjson, hclaims⟩

theorem FrontLedger.Believes.signedBy {srv : Server} {l : FrontLedger} {clientId : ClientId}
    {claims : RequestObjectClaims} (h : l.Believes srv clientId object claims) :
    SignedBy srv clientId object claims := by
  obtain ⟨members, -, -, hpayload, -, hclaims⟩ := h
  exact signedBy_of_signedPayload hpayload hclaims

/-! ## What a code was made from -/

/-- The code was made from this request: a registration of its client validated it, and the code
is one for what came out, but for the details the user picked. -/
def AuthorizationCodeRecord.MadeFrom (srv : Server) (r : AuthorizationCodeRecord)
    (request : AuthorizationRequest) : Prop :=
  ∃ client : Client, ∃ v v' m, request.clientId = some client.clientId ∧
    client.clientId = r.clientId ∧ srv.validateFor client request = .ok v ∧
    v' = { v with authorizationDetails := v'.authorizationDetails } ∧
    AuthorizationCodeRecord.IssuedFor srv m v' ∧ r.SameCode m

/-- The client pushed this request, after its authentication had succeeded. -/
def ServiceState.PushedBy (s : ServiceState) (clientId : ClientId)
    (request : AuthorizationRequest) : Prop :=
  ∃ t ∈ s.threads, ∃ p record before after, t.request = .push p ∧ p.clientId = clientId ∧
    record.clientId = clientId ∧ request = record.asRequest ∧
    t.trace = before ++ ⟨.storage (.putPushedAuthorizationRequest record), .ok .applied⟩ :: after ∧
    ⟨.record (.clientAuthentication clientId) .succeeded, ()⟩ ∈ before

/-- The parameters of the request are those of an object the client signed; the key it is bound to
may have come with the push, where the object names none. -/
def SignedParameters (srv : Server) (clientId : ClientId) (request : AuthorizationRequest) : Prop :=
  ∃ object claims, SignedBy srv clientId object claims ∧
    request = { claims.asRequest with dpopJkt := request.dpopJkt } ∧
    ∀ named, claims.dpopJkt = some named → request.dpopJkt = some named

namespace Server

variable {srv : Server} {ok : ServiceState → ServiceMove → ServiceState → Prop}
  {clock : SystemTime} {s s' : ServiceState}

/-- A pushed request in hand was pushed by its client, after that had authenticated; where signed
requests are required its parameters were signed. -/
theorem pushedBy_of_hand (h : srv.ServiceRuns ok clock s) (hrun : srv.service.Reaches ok s s')
    {record : PushedAuthorizationRequest}
    (hhand : ∃ l ∈ srv.serviceDiscipline.ledgers s, l.hand = some record) :
    s'.PushedBy record.clientId record.asRequest ∧
      (srv.requiresSigned = true → SignedParameters srv record.clientId record.asRequest) := by
  obtain ⟨t, ht, p, l, hp, -, hpast, hlodged⟩ := pusher h (.inr hhand)
  obtain ⟨i, hi⟩ := List.mem_iff_getElem?.mp ht
  obtain ⟨t', hi', hrequest, htrace⟩ := hrun.thread hi
  constructor
  · have hstored : t'.Did (.storage (.putPushedAuthorizationRequest record)) (.ok .applied) := by
      have := hlodged.stored
      rw [FrontLedger.Did, hpast] at this
      exact htrace.subset this
    obtain ⟨before, after, hsplit⟩ := List.append_of_mem hstored
    have hq : t'.request = .push p := hrequest.trans hp
    obtain ⟨l', hpast', hallowed⟩ := front_allowed (h.trans hrun) (List.mem_of_getElem? hi')
      (by rw [hq]; rintro _ _ ⟨⟩) hsplit
    rw [hq] at hallowed
    cases hallowed with
    | putBack door hand foreign => cases door
    | lodge request lodges =>
      cases request
      have hauthenticated := lodges.authenticated
      rw [FrontLedger.Did, hpast', ← lodges.owner] at hauthenticated
      exact ⟨t', List.mem_of_getElem? hi', p, record, before, after, hq, lodges.owner.symm, rfl,
        rfl, hsplit, hauthenticated⟩
  · intro hsigned
    obtain ⟨request, hpushes, hsource, hkey⟩ := hlodged.source
    rcases hpushes with ⟨object, claims, -, hbelieves, rfl⟩ | ⟨hunsigned, -⟩
    · refine ⟨object, claims, ?_, hsource, hkey⟩
      rw [hlodged.owner]
      exact hbelieves.signedBy
    · cases hunsigned.symm.trans hsigned

end Server

/-- Where pushed requests are required, every code there ever is was made from a request that its
client pushed after authenticating; where signed requests are required, from the parameters of an
object that the client's registered key signed. -/
theorem codes_enter_by_policy {srv : Server} {clock : SystemTime} {s : ServiceState}
    (h : srv.service.Reaches Sealed (ServiceState.idle (.initial clock)) s)
    {r : AuthorizationCodeRecord} (hr : r ∈ s.world.store.codes) :
    ∃ request, r.MadeFrom srv request ∧
      (srv.requiresPushed = true → s.PushedBy r.clientId request) ∧
      (srv.requiresSigned = true → SignedParameters srv r.clientId request) := by
  obtain ⟨s₁, hreach, hrun, t, ht, q, l, door, v, v', m, hledger, hdoor, hresolved, hv, hfor, hsame⟩ :=
    Server.resolution (fun _ => Table.mem_empty) h (.inl hr)
  obtain ⟨request, hasked, client, -, hnamed, hverdict⟩ := hresolved
  have hclient : client.clientId = r.clientId := by
    obtain ⟨-, hvalidated, -⟩ := Server.of_validateFor_ok hverdict
    obtain ⟨subject, decidedAt, authentication, filed, code, rfl⟩ := hfor
    rw [hsame, ← hvalidated]
    exact (congrArg ValidatedAuthorizationRequest.clientId hv).symm
  refine ⟨request, ⟨client, v, v', m, hnamed, hclient, hverdict, hv, hfor, hsame⟩, ?_⟩
  cases door with
  | query asked =>
    obtain ⟨-, hpushed, hsigned⟩ := hasked
    exact ⟨fun h => absurd (hpushed.symm.trans h) Bool.false_ne_true,
      fun h => absurd (hsigned.symm.trans h) Bool.false_ne_true⟩
  | pushed clientId requestUri =>
    obtain ⟨record, hhand, -, -, rfl⟩ := hasked
    have howner : record.clientId = r.clientId := (Option.some.inj hnamed).trans hclient
    have hpushed := Server.pushedBy_of_hand hreach hrun
      ⟨_, Discipline.mem_ledgers ht, by rw [hledger]; exact hhand⟩
    rw [howner] at hpushed
    exact ⟨fun _ => hpushed.1, hpushed.2⟩
  | signed clientId object =>
    obtain ⟨hpushed, claims, hbelieves, rfl⟩ := hasked
    refine ⟨fun h => absurd (hpushed.symm.trans h) Bool.false_ne_true,
      fun _ => ⟨object, claims, ?_, rfl, fun _ h => h⟩⟩
    have howner : claims.clientId = r.clientId := (Option.some.inj hnamed).trans hclient
    rw [← howner, hbelieves.clientId]
    exact hbelieves.signedBy

namespace Sample

def spelled (text : String) : Octets := text.toList.map fun c => UInt8.ofNat c.toNat

/-- The claims of the client's object: the parameters, and a minute to live. -/
def objectClaims : JsonObject :=
  asking.foldr (fun pair rest => .cons pair.1 (.string pair.2) rest) (.cons "exp" (.number "60") .nil)

/-- A backend that reads one header and one payload, and takes the key itself for the signature. -/
def believing : JwsBackend :=
  { JwsBackend.none with
    base64Url := fun segment => some (spelled segment)
    parseJson := fun octets => if octets = spelled "h" then
        some (.object (.cons "alg" (.string "ES256") .nil))
      else if octets = spelled "c" then some (.object objectClaims)
      else none
    verifier := fun alg => if alg = .es256 then
        some fun key _ signature => decide (signature = spelled key)
      else none
    f64 := fun _ => 60 }

/-- The deployment that takes pushed requests that are signed and no others. -/
def insisting : Server where
  config :=
    { config with
      par := some { ParConfig.new with requirePushedAuthorizationRequests := true }
      jar := some { JarConfig.new with requireSignedRequestObject := true } }
  host :=
    { host with
      jws := believing
      requestObjectKeys := some fun clientId =>
        if clientId = "app" then some ⟨.es256, none, "k"⟩ else none }

/-- The client pushes its object, to the end. -/
def pushesObject : List ServiceMove :=
  [.spawn (.push { push with parameters := [("client_id", "app"), ("request", "h.c.k")] }),
    .run 1 .none, .run 1 (.decision .allow)] ++ goes 1 3 ++ [.run 1 (.decision .allow)] ++
    goes 1 3 ++ [.run 1 (.hex (some code))] ++ goes 1 1

/-- What validation makes of the pushed request. -/
def admitted : ValidatedAuthorizationRequest :=
  { approval.request with redirectUriWasExplicit := false, scope := .empty }

/-- Codes are asked for only for the request the third thread validated. -/
def sealing (s : ServiceState) : ServiceMove → ServiceState → Bool
  | .spawn q, _ => q.approval?.all fun asked => decide (asked.request = admitted) &&
      s.threads[2]?.any fun t => decide (t.reply? = some (.validated (.ok admitted)))
  | _, _ => true

theorem sealed_of_sealing (s : ServiceState) (a : ServiceMove) (s' : ServiceState)
    (h : sealing s a s' = true) : Sealed s a s' := by
  cases a with
  | spawn q =>
    intro asked happroval
    simp only [sealing, happroval, Option.all_some, Bool.and_eq_true, Option.any_eq_true,
      decide_eq_true_eq] at h
    obtain ⟨hadmitted, t, ht, hreply⟩ := h
    exact ⟨t, List.mem_of_getElem? ht, admitted, hreply, by rw [hadmitted]⟩
  | _ => trivial

end Sample

/-- A code made from a request that was signed and pushed, where no others are taken. -/
theorem codes_enter_by_policy_pushed :
    ∃ s, insisting.service.Reaches Sealed (ServiceState.idle (.initial 0)) s ∧
      ∃ r ∈ s.world.store.codes, ∃ request, r.MadeFrom insisting request ∧
        ServiceState.PushedBy s "app" request ∧ SignedParameters insisting "app" request := by
  obtain ⟨s, hs, r, hr, hclient⟩ : ∃ s ∈ insisting.service.runChecked sealing
      (ServiceState.idle (.initial 0)) (appears ++ pushesObject ++ presents 2 ++
        hostIssues 3 ⟨admitted, "user", none⟩ (hex 32 1).text),
      ∃ r ∈ s.world.store.codes.lookup (hex 32 1).text, r.clientId = "app" := by
    decide +kernel
  have hreach := Semantics.reaches_of_runChecked sealed_of_sealing hs
  obtain ⟨request, hmade, hpushed, hsigned⟩ :=
    codes_enter_by_policy hreach (Table.mem_of_lookup hr)
  rw [hclient] at hpushed hsigned
  exact ⟨s, hreach, r, Table.mem_of_lookup hr, request, hmade, hpushed (by decide),
    hsigned (by decide)⟩

end OauthAs
