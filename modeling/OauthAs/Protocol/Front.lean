-- SUMMARY: What a request of the front half did so far, and the calls it may make next.
import OauthAs.Protocol.Rules
import OauthAs.Server.Service

/-!
# The ledgers of the front half

A request to push, to validate, to issue a code or to authorize keeps its whole trace in its
ledger, so that a promise about it can name the calls the promise rests on, and beside it what it
has in hand: a pushed request it took, an identifier it drew. That the handlers make only the
calls allowed here is proved in `Protocol.Doors`.
-/

namespace OauthAs

structure FrontLedger where
  /-- Every call made so far and its answer. -/
  past : List Answered
  /-- A random identifier that no record carries yet. -/
  identifier : Option String
  /-- The pushed request taken out of the store and not put back. -/
  hand : Option PushedAuthorizationRequest
  /-- The pushed request this request lodged. -/
  lodged : Option PushedAuthorizationRequest
  /-- The code this request stored. -/
  minted : Option AuthorizationCodeRecord
  /-- Whether the approval step was asked. -/
  approved : Bool
  /-- What became of the consent since the approval. -/
  consents : ConsentLedger

namespace FrontLedger

def start : FrontLedger := ⟨[], none, none, none, none, false, ⟨none, none⟩⟩

/-- The ledger after further calls that leave nothing in hand. -/
def log (l : FrontLedger) (events : List Answered) : FrontLedger :=
  { l with past := l.past ++ events }

def Did (l : FrontLedger) (e : Effect) (r : e.Answer) : Prop := ⟨e, r⟩ ∈ l.past

/-- A pushed request is written: the one in hand goes back, a new one is lodged. -/
def write (l : FrontLedger) (r : PushedAuthorizationRequest) (outcome : WriteOutcome) :
    FrontLedger :=
  match l.hand with
  | some _ => { l with hand := none }
  | none =>
    { l with
      identifier := none
      lodged := if outcome = .applied then some r else l.lodged }

def stored (l : FrontLedger) : (op : StorageOp) → op.Result → FrontLedger
  | .takePushedAuthorizationRequest _, found => { l with hand := found }
  | .putPushedAuthorizationRequest r, outcome => l.write r outcome
  | .putAuthorizationCode r, _ => { l with identifier := none, minted := some r }
  -- What was looked at before the approval does not count.
  | .findConsent _ _, found =>
    { l with consents := if l.approved then l.consents.look found else l.consents }
  | .compareAndSwapConsent expected updated, done =>
    { l with consents := l.consents.swap expected updated done }
  | _, _ => l

def advance (l : FrontLedger) : (e : Effect) → e.Answer → FrontLedger
  | .storage op, .ok a => l.stored op a
  | .randomHex _, some h => { l with identifier := some h.text }
  | .approve _, _ => { l with approved := true }
  | _, _ => l

def next (l : FrontLedger) (e : Effect) (r : e.Answer) : FrontLedger :=
  (l.advance e r).log [⟨e, r⟩]

@[simp] theorem log_nil (l : FrontLedger) : l.log [] = l := by
  simp [log]

@[simp] theorem log_log (l : FrontLedger) (es fs : List Answered) :
    (l.log es).log fs = l.log (es ++ fs) := by
  simp [log]

@[simp] theorem advance_past (l : FrontLedger) (e : Effect) (r : e.Answer) :
    (l.advance e r).past = l.past := by
  unfold advance
  split
  · unfold stored
    split
    case h_2 =>
      unfold write
      split <;> rfl
    all_goals rfl
  all_goals rfl

theorem next_past (l : FrontLedger) (e : Effect) (r : e.Answer) :
    (l.next e r).past = l.past ++ [⟨e, r⟩] := by
  simp [next, FrontLedger.log]

theorem Did.mono {l l' : FrontLedger} {e : Effect} {r : e.Answer} (h : l.Did e r)
    (hpast : l.past <+: l'.past) : l'.Did e r :=
  hpast.subset h

theorem prefix_next (l : FrontLedger) (e : Effect) (r : e.Answer) : l.past <+: (l.next e r).past := by
  rw [next_past]
  exact List.prefix_append _ _

theorem did_next (l : FrontLedger) (e : Effect) (r : e.Answer) : (l.next e r).Did e r := by
  unfold Did
  rw [next_past]
  exact List.mem_append_right _ List.mem_cons_self

theorem Did.log {l : FrontLedger} {e : Effect} {r : e.Answer} (h : l.Did e r)
    (events : List Answered) : (l.log events).Did e r :=
  List.mem_append_left _ h

/-! ## What a request came to know -/

variable (srv : Server) (l : FrontLedger)

/-- The claims of a request object that the client's registered key signed, found in order at an
instant the request read. -/
def Believes (clientId : ClientId) (object : String) (claims : RequestObjectClaims) : Prop :=
  ∃ payload t, l.Did .now t ∧ srv.signedPayload clientId object = .ok payload ∧
    srv.checkObjectClaims clientId payload t = .ok () ∧
    readClaims srv.host.renderJson clientId payload = .ok claims

/-- The request a door leads to. -/
def Asked (door : Door) (request : AuthorizationRequest) : Prop :=
  match door with
  | .query asked => request = asked ∧ srv.requiresPushed = false ∧ srv.requiresSigned = false
  | .pushed clientId requestUri => ∃ record, l.hand = some record ∧
      record.requestUri = requestUri ∧ record.clientId = clientId ∧ request = record.asRequest
  | .signed clientId object => srv.requiresPushed = false ∧
      ∃ claims, l.Believes srv clientId object claims ∧ request = claims.asRequest

/-- The request was judged against a registration that was read for it. -/
def Judged (request : AuthorizationRequest)
    (verdict : Except AuthorizationError ValidatedAuthorizationRequest) : Prop :=
  ∃ client : Client, l.Did (.storage (.getClient client.clientId)) (.ok (some client)) ∧
    request.clientId = some client.clientId ∧ srv.validateFor client request = verdict

def Resolved (door : Door)
    (verdict : Except AuthorizationError ValidatedAuthorizationRequest) : Prop :=
  ∃ request, l.Asked srv door request ∧ l.Judged srv request verdict

/-- Where an answer to the request goes: the target its registration gives it. -/
def Addresses (door : Door) (r : Redirect) : Prop :=
  ∃ request, ∃ client : Client, l.Asked srv door request ∧
    l.Did (.storage (.getClient client.clientId)) (.ok (some client)) ∧
    request.clientId = some client.clientId ∧ Server.redirectTarget client request = .ok r.target ∧
    r.state = request.state ∧ r.iss = srv.issuerIdentifier

/-- The parameters of a push: those of the object it carries, or its own where none is required. -/
def Pushes (p : PushRequest) (request : AuthorizationRequest) : Prop :=
  (∃ object claims, param p.parameters "request" = some object ∧
    l.Believes srv p.clientId object claims ∧ request = claims.asRequest) ∨
  (srv.requiresSigned = false ∧ request = .fromPairs p.parameters)

/-! ## What a request may do -/

/-- A pushed request is that of the client that was authenticated. -/
structure Sends (p : PushRequest) (r : PushedAuthorizationRequest) : Prop where
  owner : r.clientId = p.clientId
  authenticated : l.Did (.record (.clientAuthentication p.clientId) .succeeded) ()
  /-- A proof that came with the push may add the key, and change nothing. -/
  source : ∃ request, l.Pushes srv p request ∧
    r.asRequest = { request with dpopJkt := r.dpopJkt } ∧
    ∀ named, request.dpopJkt = some named → r.dpopJkt = some named

/-- A pushed request is lodged under a new handle. -/
structure Lodges (p : PushRequest) (r : PushedAuthorizationRequest) : Prop
    extends l.Sends srv p r where
  free : l.hand = none
  first : l.lodged = none
  new : ∃ x, l.identifier = some x ∧ r.requestUri = requestUriPrefix ++ x

inductive WritesPushed (q : ServiceRequest) : PushedAuthorizationRequest → Prop
  | putBack {clientId requestUri : String} {r : PushedAuthorizationRequest}
      (door : srv.door q = some (.pushed clientId requestUri)) (hand : l.hand = some r)
      (foreign : r.clientId ≠ clientId) : WritesPushed q r
  | lodge {p : PushRequest} {r : PushedAuthorizationRequest} (request : q = .push p)
      (lodges : l.Lodges srv p r) : WritesPushed q r

/-- What a code is issued for, which sign-in that takes, and which sign-in was reported. -/
def Issues (q : ServiceRequest) (approval : UserApproval) (requirement : AuthenticationRequirement)
    (authentication : Option Authentication) : Prop :=
  match q with
  | .issueCode asked => approval = asked ∧
      requirement = asked.request.authenticationRequirement ∧ authentication = none
  | .issueCodeWith asked needed reported =>
    approval = asked ∧ requirement = needed ∧ authentication = reported
  | .authorize p => ∃ door validated subject received, srv.door q = some door ∧
      l.Resolved srv door (.ok validated) ∧ p.subject = some subject ∧
      l.past.head? = some ⟨.now, received⟩ ∧ approval = ⟨validated, subject, some received⟩ ∧
      requirement = validated.authenticationRequirement ∧ authentication = p.authentication
  | _ => False

/-- A code is stored right after the sign-in was checked, the limiter asked, the clock read and the
string drawn. -/
structure Mints (q : ServiceRequest) (record : AuthorizationCodeRecord) (approval : UserApproval)
    (requirement : AuthenticationRequirement) (authentication : Option Authentication)
    (checked filed : SystemTime) (code : HexString 32) : Prop where
  first : l.minted = none
  new : l.identifier = some code.text
  issues : l.Issues srv q approval requirement authentication
  satisfied : requirement.satisfiedBy authentication checked = .ok ()
  steps : ∃ before, l.past = before ++
    [⟨.now, checked⟩, ⟨.check (.authorizationRequest approval.request.clientId), .allow⟩,
      ⟨.now, filed⟩, ⟨.randomHex 32, some code⟩]
  record_eq : record = srv.codeRecord approval authentication filed code.text

/-- The client and the user that a request to the authorization endpoint is about. -/
def About (q : ServiceRequest) (clientId : ClientId) (subject : String) : Prop :=
  ∃ p door validated, q = .authorize p ∧ srv.door q = some door ∧
    l.Resolved srv door (.ok validated) ∧ clientId = validated.clientId ∧ p.subject = some subject

/-- A consent is recorded for the pair whose approval said so. -/
def Remembering (q : ServiceRequest) (clientId : ClientId) (subject : String) : Prop :=
  l.About srv q clientId subject ∧ ∃ asked, l.Did (.approve asked) .approveAndRemember

inductive WritesConsent (q : ServiceRequest) : Option ConsentRecord → ConsentRecord → Prop
  | create {u : ConsentRecord} (pair : l.Remembering srv q u.clientId u.subject)
      (new : l.identifier = some u.consentId) (first : l.consents.first = some none)
      (once : l.consents.created = none) : WritesConsent q none u
  | widen {e u : ConsentRecord} (pair : l.Remembering srv q u.clientId u.subject)
      (widens : u.Widens e) : WritesConsent q (some e) u

def MayStore (q : ServiceRequest) : StorageOp → Prop
  | .getClient _ | .claimReplayId _ _ => True
  | .findConsent clientId subject => l.About srv q clientId subject
  | .takePushedAuthorizationRequest requestUri => l.hand = none ∧
      ∃ clientId, srv.door q = some (.pushed clientId requestUri)
  | .putPushedAuthorizationRequest r => l.WritesPushed srv q r
  | .putAuthorizationCode record =>
    ∃ approval requirement authentication checked filed code,
      l.Mints srv q record approval requirement authentication checked filed code
  | .compareAndSwapConsent expected updated => l.WritesConsent srv q expected updated
  | _ => False

def Allowed (q : ServiceRequest) : Effect → Prop
  | .storage op => l.MayStore srv q op
  | .approve asked => l.approved = false ∧ l.About srv q asked.clientId asked.subject
  | .tokenEntropy | .sign _ | .randomUserCode _ => False
  | _ => True

/-! ## What a reply promises -/

end FrontLedger

/-- The approval an issuing call is about. -/
def ServiceRequest.approval? : ServiceRequest → Option UserApproval
  | .issueCode approval | .issueCodeWith approval _ _ => some approval
  | _ => none

namespace FrontLedger

variable (srv : Server) (l : FrontLedger)

/-- What a code is issued for was handed in, or came through the thread's own door. -/
theorem Issues.cases {srv : Server} {l : FrontLedger} {q : ServiceRequest} {approval : UserApproval}
    {requirement : AuthenticationRequirement} {authentication : Option Authentication}
    (h : l.Issues srv q approval requirement authentication) :
    q.approval? = some approval ∨
      ∃ door, srv.door q = some door ∧ l.Resolved srv door (.ok approval.request) := by
  cases q with
  | issueCode asked | issueCodeWith asked needed reported =>
    obtain ⟨rfl, -, -⟩ := h
    exact .inl rfl
  | authorize p =>
    obtain ⟨door, validated, subject, received, hdoor, hresolved, -, -, rfl, -⟩ := h
    exact .inr ⟨door, hdoor, hresolved⟩
  | _ => cases h

/-- A pushed request that is kept was presented by the client that pushed it. -/
def Returned (q : ServiceRequest) : Prop :=
  ∀ r, l.hand = some r → ∃ requestUri, srv.door q = some (.pushed r.clientId requestUri)

def Accepts (q : ServiceRequest) (reply : ServiceReply) : Prop :=
  l.Returned srv q ∧
  match reply with
  | .validated (.ok validated) =>
    ∃ door, srv.door q = some door ∧ l.Resolved srv door (.ok validated)
  | .validated (.error (.redirect e)) =>
    ∃ door, srv.door q = some door ∧ l.Addresses srv door e.redirect
  | .code (.ok response) => ∃ approval, q.approval? = some approval ∧
      response.state = approval.request.state ∧ response.iss = approval.request.issuer
  | .code (.error e) => ∃ approval error, q.approval? = some approval ∧
      e = Server.authorizationErrorFor approval.request error
  | .response (.redirect r) => ∃ door, srv.door q = some door ∧ l.Addresses srv door r
  | _ => True

end FrontLedger

/-- The discipline of the front half. -/
def Server.frontProtocol (srv : Server) (q : ServiceRequest) :
    Protocol Effect Effect.Answer FrontLedger where
  next := FrontLedger.next
  allowed l e := l.Allowed srv q e
  possible := Effect.Possible

end OauthAs
