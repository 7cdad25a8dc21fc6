-- SUMMARY: What a token exchange reads and the one token it writes, as a discipline of its own.
import OauthAs.Protocol.Discipline

/-!
# Exchanges

`IssuedToken.ExchangedFrom` says what an exchange makes of its subject token. The ledger of an
exchange remembers the registrations and access tokens it read and the token it wrote, and its
protocol allows one write: of a token exchanged from what was read. Other requests are not
restricted by it.
-/

namespace OauthAs

open Prog Handler

variable {act : Option ActClaim} {granted : ScopeSet × List String}

/-! ## Actors -/

/-- The actors a claim names, the current one first. -/
def ActClaim.actors : ActClaim → List (String × Option String)
  | .actor sub clientId => [(sub, clientId)]
  | .after sub clientId act => (sub, clientId) :: act.actors

/-- The actors a token records, the current one first. -/
def IssuedToken.actors (t : IssuedToken) : List (String × Option String) :=
  (t.act.map ActClaim.actors).getD []

theorem ActClaim.actors_new (sub : String) (clientId : Option String) (act : Option ActClaim) :
    (ActClaim.new sub clientId act).actors =
      (sub, clientId) :: (act.map ActClaim.actors).getD [] := by
  cases act <;> rfl

theorem countActors_eq {depth : Nat} (h : depth + 1 < maxActChainDepth) (act : ActClaim) :
    countActors (depth + 1) act = min (depth + act.actors.length) maxActChainDepth := by
  induction act generalizing depth with
  | actor sub clientId =>
    simp only [countActors, ActClaim.actors, List.length_singleton]
    omega
  | after sub clientId act ih =>
    simp only [countActors, ActClaim.actors, List.length_cons]
    split
    · have hpos : 0 < act.actors.length := by cases act <;> simp [ActClaim.actors]
      omega
    · rw [ih (by omega)]
      omega

/-- The count is exact up to the bound at which it stops. -/
theorem actChainDepth_eq (act : ActClaim) :
    actChainDepth act = min act.actors.length maxActChainDepth := by
  rw [actChainDepth, countActors_eq (by decide), Nat.zero_add]

theorem length_of_checkActChain {t : IssuedToken} {u : Unit}
    (h : Server.checkActChain t.act = .ok u) : t.actors.length < maxActChainDepth := by
  unfold Server.checkActChain at h
  cases hact : t.act with
  | none =>
    simp only [IssuedToken.actors, hact]
    decide
  | some prior =>
    rw [hact] at h
    simp only at h
    split at h
    · cases h
    · rename_i hdepth
      rw [actChainDepth_eq] at hdepth
      simp only [IssuedToken.actors, hact, Option.map_some, Option.getD_some]
      omega

/-! ## One exchange -/

/-- What an exchange makes of its subject token. -/
structure IssuedToken.ExchangedFrom (t : IssuedToken) (q : TokenExchangeRequest) (client : Client)
    (subjectToken : IssuedToken) : Prop where
  scope : t.scope.tokens ⊆ subjectToken.scope.tokens
  registered : t.scope.tokens ⊆ client.allowedScopes.tokens
  resource : t.resource ⊆ subjectToken.resource
  named : subjectToken.resource ≠ [] → t.resource ≠ []
  expiry : t.expiresAt ≤ subjectToken.expiresAt
  subject : t.subject = subjectToken.subject
  established : t.grantEstablishedAt = subjectToken.grantEstablishedAt
  family : t.familyId = none
  actors : (q.actorToken = none ∧ t.actors = []) ∨
    (q.actorToken ≠ none ∧ subjectToken.actors.length < maxActChainDepth ∧
      ∃ actor, t.actors = actor :: subjectToken.actors)

namespace Server

variable {srv : Server} {client : Client} {q : TokenExchangeRequest} {subject : IssuedToken}

/-- Whatever the clock and the drawn string, the record of an exchange is one of an exchange. -/
theorem exchangedFrom_accessRecord (hjudged : srv.judgeExchange client q subject = .ok granted)
    (hact : (q.actorToken = none ∧ act = none) ∨
      (q.actorToken ≠ none ∧ checkActChain subject.act = .ok () ∧
        ∃ sub clientId, act = some (.new sub clientId subject.act))) (now : SystemTime)
    (accessToken : String) :
    (srv.accessRecord (exchangeIssueArgs client q subject granted act) now none
      accessToken).ExchangedFrom q client subject := by
  obtain ⟨hscope, targets, hresource⟩ := judgeExchange_ok hjudged
  obtain ⟨hsubject, hregistered⟩ := exchangeScope_ok hscope
  obtain ⟨hsub, hnamed, -⟩ := narrowAndPermit_ok hresource
  refine ⟨hsubject, hregistered, hsub, hnamed, Int.min_le_right _ _, rfl, rfl, rfl, ?_⟩
  rcases hact with ⟨hnone, rfl⟩ | ⟨hsome, hchain, sub, clientId, rfl⟩
  · exact .inl ⟨hnone, rfl⟩
  · exact .inr ⟨hsome, length_of_checkActChain hchain, _, ActClaim.actors_new sub clientId subject.act⟩

end Server

/-! ## The ledger -/

structure ExchangeLedger where
  request : Request
  /-- The registrations the request read. -/
  clients : List Client
  /-- The access tokens it read. -/
  found : List IssuedToken
  /-- The access token it wrote. -/
  written : Option IssuedToken

namespace ExchangeLedger

variable {e : Effect} {err : ErrorResponse → ExchangeLedger → Prop}

def start (request : Request) : ExchangeLedger := ⟨request, [], [], none⟩

/-- The ledger after the token was written. -/
def wrote (l : ExchangeLedger) (t : IssuedToken) : ExchangeLedger := { l with written := some t }

def next (l : ExchangeLedger) : (e : Effect) → e.Answer → ExchangeLedger
  | .storage (.getClient _), .ok (some client) => { l with clients := client :: l.clients }
  | .storage (.getToken _), .ok (some t) => { l with found := t :: l.found }
  | .storage (.putToken t), .ok .applied => l.wrote t
  | _, _ => l

/-- An exchange writes one token, exchanged from what it read, and no refresh token. -/
def Allowed (l : ExchangeLedger) : Effect → Prop
  | .storage (.putToken t) => ∀ q, l.request = .tokenExchange q → l.written = none ∧
      ∃ client ∈ l.clients, ∃ subject ∈ l.found, client.clientId = q.clientId ∧
        subject.accessToken = q.subjectToken ∧ t.ExchangedFrom q client subject
  | .storage (.putRefreshToken _) => ∀ q, l.request ≠ .tokenExchange q
  | .storage (.rotateRefreshToken _ _ _ _) => ∀ q, l.request ≠ .tokenExchange q
  | _ => True

/-- An answered exchange hands out the token it wrote. -/
def Accepts (l : ExchangeLedger) (reply : Reply) : Prop :=
  match l.request, reply with
  | .tokenExchange _, .exchanged (.ok e) => ∃ t, l.written = some t ∧
      e.response.accessToken = t.accessToken ∧ e.response.refreshToken = none ∧ e.act = t.act
  | _, _ => True

def protocol : Protocol Effect Effect.Answer ExchangeLedger where
  next := next
  allowed := Allowed
  possible := Effect.Possible

theorem next_request (l : ExchangeLedger) (e : Effect) (r : e.Answer) :
    (l.next e r).request = l.request := by
  unfold next
  split <;> rfl

variable {srv : Server} {l : ExchangeLedger} {ε α : Type}

/-! ## Rules -/

/-- A call that is not one to the store leaves no trace. -/
theorem wpE_aside {ok : e.Answer → ExchangeLedger → Prop} {err : ε → ExchangeLedger → Prop}
    (he : e.isStorage = false) (hok : ∀ r, ok r l) : wpE protocol (Handler.perform e) l ok err := by
  cases e with
  | storage op => cases he
  | _ => exact wpE_performE.mpr ⟨trivial, fun r _ => hok r⟩

theorem wpE_store {op : StorageOp} (htotal : op.Total = true)
    {ok : op.Result → ExchangeLedger → Prop} (hallowed : l.Allowed (.storage op))
    (hok : ∀ g a, (op.exec g).1 = .ok a → ok a (l.next (.storage op) (.ok a))) :
    wpE protocol (store op) l ok err :=
  (Prog.wpE_storeOr rfl htotal).mpr ⟨hallowed, hok⟩

/-- What an exchange knows only grows until it writes its token. -/
structure Reads (l l' : ExchangeLedger) : Prop where
  request : l'.request = l.request
  clients : l.clients ⊆ l'.clients
  found : l.found ⊆ l'.found
  written : l'.written = l.written

theorem Reads.refl (l : ExchangeLedger) : l.Reads l :=
  ⟨rfl, List.Subset.refl _, List.Subset.refl _, rfl⟩

theorem Reads.trans {l₁ l₂ : ExchangeLedger} (h : l.Reads l₁) (h' : l₁.Reads l₂) : l.Reads l₂ :=
  ⟨h'.request.trans h.request, List.Subset.trans h.clients h'.clients,
    List.Subset.trans h.found h'.found, h'.written.trans h.written⟩

theorem reads_authenticates (he : e.authenticates = true) (r : e.Answer) :
    l.Reads (l.next e r) := by
  cases e with
  | storage op =>
    cases op with
    | getClient id =>
      cases r with
      | error e => exact .refl l
      | ok found =>
        cases found with
        | none => exact .refl l
        | some client =>
          exact ⟨rfl, List.subset_cons_self _ _, List.Subset.refl _, rfl⟩
    | claimReplayId id expiresAt => exact .refl l
    | _ => cases he
  | _ => exact .refl l

theorem allowed_authenticates (he : e.authenticates = true) : l.Allowed e := by
  cases e with
  | storage op => cases op <;> trivial
  | _ => trivial

/-- Authentication reads registrations, and one of them is the client it lets in. -/
theorem authenticates_reads : Authenticates protocol l.Reads
    fun id client l' => l.Reads l' ∧ client.clientId = id ∧ client ∈ l'.clients where
  before := ⟨fun _ he => allowed_authenticates he, fun h he _ => h.trans (reads_authenticates he _)⟩
  after _ _ := ⟨fun _ he => allowed_authenticates he, fun ⟨h, hid, hread⟩ he _ =>
    ⟨h.trans (reads_authenticates he _), hid, (reads_authenticates he _).clients hread⟩⟩
  weaken := And.left
  client := by
    rintro l' id _ h ⟨g, rfl⟩
    refine ⟨_, rfl, fun client hfound => ⟨h.trans (reads_authenticates rfl _), ?_, ?_⟩⟩
    · exact Table.key_of_lookup hfound
    · have hlookup : g.getClient id = some client := hfound
      simp only [protocol, next, StorageOp.exec, hlookup]
      exact List.mem_cons_self

theorem wpE_introspect {a : String} {ok : Option IssuedToken → ExchangeLedger → Prop}
    (hok : ∀ l' found, l.Reads l' →
      (∀ t, found = some t → t ∈ l'.found ∧ t.accessToken = a) → ok found l') :
    wpE protocol (Server.introspect a) l ok err := by
  unfold Server.introspect
  rw [wpE_bind]
  refine wpE_store rfl trivial fun g found hfound => ?_
  cases found with
  | none => exact wpE_pure.mpr (hok l none (.refl l) fun _ h => nomatch h)
  | some t =>
    have hkey : t.accessToken = a := Table.key_of_lookup (Except.ok.inj hfound)
    simp only
    rw [wpE_bind]
    refine wpE_aside rfl fun now => wpE_pure.mpr (hok _ _ ?_ fun t' ht' => ?_)
    · exact ⟨rfl, List.Subset.refl _, List.subset_cons_self _ _, rfl⟩
    · obtain ⟨-, ⟨⟩⟩ := Option.ite_none_right_eq_some.mp ht'
      exact ⟨List.mem_cons_self, hkey⟩

theorem looksUp : Server.LooksUp protocol Reads found := ⟨.refl, trivial, wpE_introspect⟩

/-! ## The endpoint -/

section Endpoint
variable {q : TokenExchangeRequest} {client : Client} {subject : IssuedToken}

/-- The issuance of an exchange: one token, and none but the one that is handed out. -/
theorem wpE_issue {ok : TokenResponse → ExchangeLedger → Prop}
    (hallowed : ∀ now accessToken, l.Allowed (.storage (.putToken
      (srv.accessRecord (Server.exchangeIssueArgs client q subject granted act) now none
        accessToken))))
    (hok : ∀ now accessToken (response : TokenResponse), response.accessToken = accessToken →
      ok response (l.wrote
        (srv.accessRecord (Server.exchangeIssueArgs client q subject granted act) now none
          accessToken))) :
    wpE protocol (srv.issue (Server.exchangeIssueArgs client q subject granted act)) l ok
      (fun _ _ => True) := by
  unfold Server.issue
  rw [wpE_bind]
  refine wpE_aside rfl fun now => ?_
  rw [wpE_bind]
  refine wpE_aside rfl fun entropy => ?_
  rw [wpE_bind, wpE_require]
  refine ⟨fun e _ => ?_, fun _ => trivial⟩
  -- What goes on the wire is drawn or signed; either way the ledger stays as it is.
  have hwire : ∀ {ok : String → ExchangeLedger → Prop}, (∀ accessToken, ok accessToken l) →
      wpE protocol (srv.wireAccessToken (Server.exchangeIssueArgs client q subject granted act) now
        (srv.accessExpiry (Server.exchangeIssueArgs client q subject granted act) now)
        e.access.text) l ok (fun _ _ => True) := by
    intro ok hok
    unfold Server.wireAccessToken
    split
    · exact wpE_pure.mpr (hok _)
    · rw [wpE_bind, wpE_require]
      refine ⟨fun claims _ => ?_, fun _ => trivial⟩
      rw [wpE_bind]
      refine wpE_aside rfl fun signed => ?_
      rw [wpE_require]
      exact ⟨fun token _ => hok token, fun _ => trivial⟩
  rw [wpE_bind]
  refine hwire fun accessToken => ?_
  simp only [Server.exchangeIssueArgs, Option.bind_none]
  rw [wpE_bind]
  unfold Server.storeIssuance
  rw [wpE_bind]
  refine wpE_store rfl (hallowed now accessToken) fun g outcome _ => ?_
  cases outcome with
  | refusedRevoked => exact wpE_throw.mpr trivial
  | applied =>
    refine wpE_pure.mpr ?_
    rw [wpE_bind]
    refine wpE_aside rfl fun _ => wpE_pure.mpr ?_
    exact hok now accessToken _ rfl

theorem follows_exchange (q : TokenExchangeRequest) :
    wpE protocol (srv.exchange q) (.start (.tokenExchange q))
      (fun e l => ∃ t, l.written = some t ∧ e.response.accessToken = t.accessToken ∧
        e.response.refreshToken = none ∧ e.act = t.act) (fun _ _ => True) := by
  unfold Server.exchange
  rw [wpE_bind, wpE_judge]
  refine ⟨fun issuedType _ => ?_, fun _ _ => trivial⟩
  rw [wpE_bind]
  refine authenticates_reads.authenticateClient (.refl _) ?_ fun _ _ => trivial
  rintro client l₁ ⟨h₁, hid, hclient⟩
  rw [wpE_bind]
  refine looksUp.exchangeSubject fun l₂ subject h₂ hsubject hkey => ?_
  rw [wpE_bind, wpE_judge]
  refine ⟨fun _ _ => ?_, fun _ _ => trivial⟩
  rw [wpE_bind]
  refine looksUp.exchangeActor fun l₃ semantics act h₃ hact => ?_
  rw [wpE_bind, wpE_judge]
  refine ⟨fun granted hgranted => ?_, fun _ _ => trivial⟩
  have h := (h₁.trans h₂).trans h₃
  rw [wpE_bind]
  refine wpE_issue (fun now accessToken => ?_) fun now accessToken response hresponse => ?_
  · intro q' hq'
    cases h.request.symm.trans hq'
    refine ⟨h.written, client, (h₂.trans h₃).clients hclient, subject, h₃.found hsubject, hid,
      hkey, Server.exchangedFrom_accessRecord hgranted hact now accessToken⟩
  · exact wpE_pure.mpr ⟨_, rfl, hresponse, rfl, rfl⟩

theorem follows_exchangeToken (q : TokenExchangeRequest) :
    wpE protocol (srv.exchangeToken q) (.start (.tokenExchange q))
      (fun e l => ∃ t, l.written = some t ∧ e.response.accessToken = t.accessToken ∧
        e.response.refreshToken = none ∧ e.act = t.act) (fun _ _ => True) := by
  unfold Server.exchangeToken
  rw [wpE_bind, wpE_lift_run]
  refine wpE_mono (fun exchanged l' h => wpE_pure.mpr h) (fun e l' _ => ?_) (follows_exchange q)
  simp only
  rw [wpE_bind]
  exact wpE_aside rfl fun _ => wpE_throw.mpr trivial

end Endpoint

end ExchangeLedger

/-! ## The discipline -/

namespace Server

variable {srv : Server}

/-- A request that is no exchange may do what it likes. -/
theorem follows_unexchanged {q : Request} (hq : ∀ r, q ≠ .tokenExchange r) :
    wp ExchangeLedger.protocol (srv.handle q) (.start q) fun a l => l.Accepts a := by
  refine wp_mono (fun a l hl => ?_) (wp_of_invariant (I := fun l => l.request = q)
    (fun l e hl => ?_) (fun l e r hl _ => (l.next_request e r).trans hl) rfl)
  · unfold ExchangeLedger.Accepts
    split
    · rename_i r _ hr
      exact absurd (hl.symm.trans hr) (hq r)
    · trivial
  · have hne : ∀ r, l.request ≠ .tokenExchange r := fun r hr => hq r (hl.symm.trans hr)
    cases e with
    | storage op =>
      cases op <;> first | trivial | exact hne | exact fun r hr => absurd hr (hne r)
    | _ => trivial

theorem handle_exchanges (q : Request) :
    wp ExchangeLedger.protocol (srv.handle q) (.start q) fun a l => l.Accepts a := by
  by_cases hq : ∃ r, q = .tokenExchange r
  swap
  · exact follows_unexchanged (not_exists.mp hq)
  obtain ⟨q, rfl⟩ := hq
  refine wp_bind.mpr (wp_mono (fun r l hr => wp_ret.mpr ?_) (ExchangeLedger.follows_exchangeToken q))
  unfold ExchangeLedger.Accepts
  split
  · rename_i heq
    cases r <;> cases heq
    exact hr
  · trivial

def exchangeDiscipline (srv : Server) : Discipline srv.semantics ExchangeLedger where
  protocol := ExchangeLedger.protocol
  start := ExchangeLedger.start
  accept := fun a l => l.Accepts a
  handler_follows := handle_exchanges
  perform_possible := perform_possible

end Server

end OauthAs
