-- SUMMARY: What resource servers are shown: narrowed details stay within the grant's, and introspection tells one server nothing about another.
import OauthAs.Lib.Lockstep
import OauthAs.Protocol.Authentication
import OauthAs.Protocol.Ledger
import OauthAs.Server.Introspect

/-!
# Disclosure to resource servers

Two results about what a resource server gets to see of a grant. The first relates narrowing at
the token endpoint to filtering at introspection: the first reads an empty list of locations as the
smallest one, the second as unrestricted. The second compares two runs of introspection on stores
that differ in what is none of the asker's business.
-/

namespace OauthAs

variable {d : AuthorizationDetail} {clientId : ClientId}

/-! ## Narrowing -/

namespace AuthorizationDetail

/-- The locations of an element that are among the given ones. -/
def locationsIn (d : AuthorizationDetail) (mine : List String) : List String :=
  d.locations.filter fun loc => mine.any fun id => id == loc

theorem mem_locationsIn {mine : List String} {loc : String} :
    loc ∈ d.locationsIn mine ↔ loc ∈ d.locations ∧ loc ∈ mine := by
  simp [locationsIn]

/-- An element without locations is shown as it is. -/
theorem forResourceServer_of_unlocated (h : d.locations = []) (mine : List String) :
    d.forResourceServer mine = some d := by
  simp [forResourceServer, h]

/-- A located element is shown at the locations that are the server's, if there are any. -/
theorem forResourceServer_of_located (h : d.locations ≠ []) (mine : List String) :
    d.forResourceServer mine =
      if d.locationsIn mine = [] then none
      else some { d with locations := d.locationsIn mine } := by
  simp only [forResourceServer, List.isEmpty_iff, h, if_false]
  rfl

/-- What is shown of a narrowing that stays located is a narrowing of what is shown. -/
theorem shown_of_located {g shown : AuthorizationDetail} {mine : List String}
    (hnarrow : d.isNarrowingOf g = true) (hlocated : d.locations ≠ [])
    (hshown : d.forResourceServer mine = some shown) :
    ∃ shown', g.forResourceServer mine = some shown' ∧ shown.isNarrowingOf shown' = true := by
  obtain ⟨hsubset, hrest⟩ := isNarrowingOf_iff.mp hnarrow
  rw [forResourceServer_of_located hlocated] at hshown
  split at hshown
  · cases hshown
  · rename_i hmine
    cases hshown
    have hin : d.locationsIn mine ⊆ g.locationsIn mine := by
      intro loc hloc
      obtain ⟨hloc, hown⟩ := mem_locationsIn.mp hloc
      exact mem_locationsIn.mpr ⟨hsubset hloc, hown⟩
    have hg : g.locations ≠ [] := fun hg => hlocated (List.subset_nil.mp (hg ▸ hsubset))
    have hgmine : g.locationsIn mine ≠ [] := fun hg => hmine (List.subset_nil.mp (hg ▸ hin))
    rw [forResourceServer_of_located hg, if_neg hgmine]
    exact ⟨_, rfl, isNarrowingOf_iff.mpr ⟨hin, hrest⟩⟩

end AuthorizationDetail

theorem mem_detailsForResourceServer {details : AuthorizationDetails} {mine : List String}
    {shown : AuthorizationDetail} :
    shown ∈ detailsForResourceServer details mine ↔
      ∃ d ∈ details, d.forResourceServer mine = some shown := by
  simp [detailsForResourceServer]

namespace AuthorizationDetails

/-- An accepted narrowing is the grant itself, or elements that each narrow one of the grant. -/
theorem elements_of_narrow {granted requested narrowed : AuthorizationDetails}
    (h : granted.narrow requested = .ok narrowed) :
    (requested = [] ∧ narrowed = granted) ∨
      (narrowed = requested ∧ ∀ d ∈ requested, ∃ g ∈ granted, d.isNarrowingOf g = true) := by
  by_cases hnil : requested = []
  · subst hnil
    cases h
    exact .inl ⟨rfl, rfl⟩
  · obtain ⟨rfl, -⟩ := (narrow_eq_ok hnil).mp h
    exact .inr ⟨rfl, fun d hd => (within_of_narrow h).exists_of_mem hd⟩

/-- Whether a server sees of the narrowed list only what it would have seen of the granted one. -/
def ShownWithin (narrowed granted : AuthorizationDetails) (mine : List String) : Prop :=
  ∀ shown ∈ detailsForResourceServer narrowed mine,
    ∃ g ∈ detailsForResourceServer granted mine, shown.isNarrowingOf g = true

/-- Nothing that is located is asked for without a location: an element that names none narrows a
granted element that names none. -/
def KeepsLocated (granted requested : AuthorizationDetails) : Prop :=
  ∀ d ∈ requested, d.locations = [] → ∃ g ∈ granted, g.locations = [] ∧ d.isNarrowingOf g = true

end AuthorizationDetails

open AuthorizationDetails in
/-- An accepted narrowing shows every resource server no more than the grant would have, exactly
when it takes no located element out of its locations. -/
theorem narrowed_shown_within_iff {granted requested narrowed : AuthorizationDetails}
    (h : granted.narrow requested = .ok narrowed) :
    (∀ mine, ShownWithin narrowed granted mine) ↔ KeepsLocated granted requested := by
  rcases elements_of_narrow h with ⟨rfl, rfl⟩ | ⟨rfl, hnarrows⟩
  · refine iff_of_true (fun mine shown hshown => ?_) fun d hd => absurd hd List.not_mem_nil
    exact ⟨shown, hshown, shown.isNarrowingOf_self⟩
  · constructor
    · -- A server that is nobody's location is shown exactly the elements without one.
      intro hwithin d hd hempty
      have hshown : d ∈ detailsForResourceServer narrowed [] :=
        mem_detailsForResourceServer.mpr ⟨d, hd, d.forResourceServer_of_unlocated hempty _⟩
      obtain ⟨g, hg, hnarrow⟩ := hwithin [] d hshown
      obtain ⟨g', hg', hshown'⟩ := mem_detailsForResourceServer.mp hg
      by_cases hlocated : g'.locations = []
      · rw [g'.forResourceServer_of_unlocated hlocated] at hshown'
        cases hshown'
        exact ⟨_, hg', hlocated, hnarrow⟩
      · have hnone : g'.locationsIn [] = [] := by simp [AuthorizationDetail.locationsIn]
        rw [AuthorizationDetail.forResourceServer_of_located hlocated, if_pos hnone] at hshown'
        cases hshown'
    · intro hkeeps mine shown hshown
      obtain ⟨d, hd, hd'⟩ := mem_detailsForResourceServer.mp hshown
      by_cases hlocated : d.locations = []
      · obtain ⟨g, hg, hempty, hnarrow⟩ := hkeeps d hd hlocated
        rw [d.forResourceServer_of_unlocated hlocated] at hd'
        cases hd'
        exact ⟨g, mem_detailsForResourceServer.mpr ⟨g, hg, g.forResourceServer_of_unlocated hempty _⟩,
          hnarrow⟩
      · obtain ⟨g, hg, hnarrow⟩ := hnarrows d hd
        obtain ⟨shown', hg', hwithin⟩ := AuthorizationDetail.shown_of_located hnarrow hlocated hd'
        exact ⟨shown', mem_detailsForResourceServer.mpr ⟨g, hg, hg'⟩, hwithin⟩

namespace Sample

/-- A payment to be made at the payroll service. -/
def payment : AuthorizationDetail where
  detailType := "payment"
  locations := ["https://payroll.example"]
  actions := ["initiate", "read"]
  datatypes := []
  identifier := none
  privileges := []
  other := .nil

/-- The same payment wherever it may be. -/
def anywhere : AuthorizationDetail := { payment with locations := [] }

/-- The same payment, to be looked at only. -/
def look : AuthorizationDetail := { payment with actions := ["read"] }

end Sample

open AuthorizationDetails in
/-- Dropping the locations of an element is accepted as a narrowing, and shows it to a server that
the grant never named. -/
theorem narrowed_shown_beyond :
    narrow [Sample.payment] [Sample.anywhere] = .ok [Sample.anywhere] ∧
      ¬ ShownWithin [Sample.anywhere] [Sample.payment] ["https://api.example"] := by
  refine ⟨by decide +kernel, fun h => ?_⟩
  have hnone : detailsForResourceServer [Sample.payment] ["https://api.example"] = [] := by
    decide +kernel
  obtain ⟨g, hg, -⟩ := h Sample.anywhere (by decide +kernel)
  rw [hnone] at hg
  cases hg

open AuthorizationDetails in
theorem narrowed_shown_within_look :
    narrow [Sample.payment] [Sample.look] = .ok [Sample.look] ∧
      ∀ mine, ShownWithin [Sample.look] [Sample.payment] mine :=
  have hnarrow : narrow [Sample.payment] [Sample.look] = .ok [Sample.look] := by decide +kernel
  ⟨hnarrow, (narrowed_shown_within_iff hnarrow).mpr fun d hd hempty => by
    rw [List.mem_singleton.mp hd] at hempty
    cases hempty⟩

/-! ## Introspection, run alone -/

/-- The same world with other tokens in its store. -/
def World.withTokens (w : World) (tokens : Table IssuedToken.accessToken) : World :=
  { w with store := { w.store with tokens := tokens } }

/-- The reply to an introspection request that runs alone. -/
def Server.introspects (srv : Server) (limit : Attempt → RateLimitDecision) (w : World)
    (clientId : ClientId) (cred : ClientCredential) (token : String) :
    Option (Except ErrorResponse IntrospectionResponse) :=
  (Prog.exec (World.alone limit) w
    (srv.introspectionResponseWithCredential clientId cred token).run).map Prod.fst

namespace Server

open Prog Handler

variable {w w' : World}

/-- Only the calls of authentication, which never look at tokens. -/
def blind : Protocol Effect Effect.Answer Unit where
  next _ _ _ := ()
  allowed _ e := e.authenticates = true
  possible := Effect.Possible

theorem authenticates_blind :
    Authenticates blind (fun _ => True) fun id client _ => client.clientId = id where
  before := ⟨fun _ he => he, fun _ _ _ => trivial⟩
  after _ _ := ⟨fun _ he => he, fun h _ _ => h⟩
  weaken _ := trivial
  client := by
    rintro - id _ - ⟨g, rfl⟩
    exact ⟨_, rfl, fun client hfound => Table.key_of_lookup hfound⟩

variable {srv : Server} {limit : Attempt → RateLimitDecision}

/-- A call of authentication changes nothing but the ids kept against replays. -/
theorem perform_blind {e : Effect} {c : Choice} {r : e.Answer} (he : e.authenticates = true)
    (h : w.perform e c = some (r, w')) :
    ∃ ids, w' = { w with store := { w.store with replayIds := ids } } := by
  cases e with
  | storage op =>
    cases c <;> cases h
    cases op with
    | getClient clientId => exact ⟨_, rfl⟩
    | claimReplayId id expiresAt =>
      simp only [StorageOp.exec, StorageOp.succeeding, MemoryInner.claimReplayId]
      split
      · exact ⟨_, rfl⟩
      · exact ⟨_, rfl⟩
    | _ => cases he
  | emit _ | now | check _ | record _ _ | verifySecret _ | dummyAssertionVerify _ =>
    cases c <;> cases h
    exact ⟨_, rfl⟩
  | _ => cases he

/-- Authentication lets in the client that was named and changes nothing but the ids kept against
replays. -/
theorem exec_authenticateClient {perform : World → (e : Effect) → Option (e.Answer × World)}
    (hperform : ∀ w e r w', perform w e = some (r, w') → ∃ c, w.perform e c = some (r, w'))
    {cred : ClientCredential} {result : Except ErrorResponse Client}
    (h : exec perform w (srv.authenticateClient clientId cred).run = some (result, w')) :
    (∀ client, result = .ok client → client.clientId = clientId) ∧
      ∃ ids, w' = { w with store := { w.store with replayIds := ids } } := by
  have hauth : wp blind (srv.authenticateClient clientId cred).run ()
      (outcome (fun client _ => client.clientId = clientId) fun _ _ => True) :=
    authenticates_blind.authenticateClient trivial (fun _ _ hid => hid) fun _ _ => trivial
  have hstep : ∀ (l : Unit) (e : Effect) (v : World) (r : e.Answer) (v' : World),
      blind.allowed l e → (∃ ids, v = { w with store := { w.store with replayIds := ids } }) →
      perform v e = some (r, v') →
        blind.possible e r ∧ ∃ ids, v' = { w with store := { w.store with replayIds := ids } } := by
    intro l e v r v' he hv hperformed
    obtain ⟨ids, rfl⟩ := hv
    obtain ⟨c, hc⟩ := hperform _ e r v' hperformed
    obtain ⟨ids', rfl⟩ := perform_blind he hc
    exact ⟨perform_possible hc, ids', rfl⟩
  obtain ⟨⟨l, hresult⟩, hids⟩ := exec_wp hstep hauth ⟨w.store.replayIds, rfl⟩ h
  refine ⟨?_, hids⟩
  rintro client rfl
  exact hresult

/-- Worlds that are the same but for their tokens. -/
def Masks (tokens tokens' : Table IssuedToken.accessToken) (w w' : World) : Prop :=
  w.store.tokens = tokens ∧ w' = w.withTokens tokens'

theorem exec_blind {op : StorageOp} (h : (Effect.storage op).authenticates = true)
    (g : MemoryInner) (tokens : Table IssuedToken.accessToken) :
    op.exec { g with tokens := tokens } =
        ((op.exec g).1, { (op.exec g).2 with tokens := tokens }) ∧
      (op.exec g).2.tokens = g.tokens := by
  cases op with
  | getClient clientId => exact ⟨rfl, rfl⟩
  | claimReplayId id expiresAt =>
    simp only [StorageOp.exec, StorageOp.succeeding, MemoryInner.claimReplayId]
    split
    · exact ⟨rfl, rfl⟩
    · exact ⟨rfl, rfl⟩
  | _ => cases h

theorem alone_blind {tokens tokens' : Table IssuedToken.accessToken} (e : Effect)
    (he : e.authenticates = true) (h : Masks tokens tokens' w w') :
    Lockstep (fun r v v' => e.Possible r ∧ Masks tokens tokens' v v') (w.alone limit e)
      (w'.alone limit e) := by
  obtain ⟨rfl, rfl⟩ := h
  cases e with
  | storage op =>
    obtain ⟨hexec, htokens⟩ := exec_blind he w.store tokens'
    refine ⟨(op.exec w.store).1, { w with store := (op.exec w.store).2 }, _, rfl, ?_,
      ⟨w.store, rfl⟩, htokens, rfl⟩
    simp only [World.alone, World.perform, World.withTokens, hexec]
  | emit event | now | check attempt | record attempt outcome | verifySecret presented
  | dummyAssertionVerify presented =>
    exact ⟨_, _, _, rfl, rfl, trivial, rfl, rfl⟩
  | _ => cases he

/-! ## What the answer depends on -/

/-- The calls after authentication: the record is looked up and described. -/
theorem exec_introspect {client : Client} {token : String} :
    exec (World.alone limit) w (do
      let record ← introspect token
      pure (srv.introspectionAnswer client record) : Handler ErrorResponse _).run =
      some (.ok (srv.introspectionAnswer client
        ((w.store.tokens.lookup token).filter fun t => decide (w.clock < t.expiresAt))), w) := by
  have hget : w.alone limit (.storage (.getToken token)) =
      some (.ok (w.store.tokens.lookup token), w) := rfl
  change exec (World.alone limit) w (.call (.storage (.getToken token)) _) = _
  simp only [exec, hget]
  cases w.store.tokens.lookup token with
  | none => rfl
  | some t =>
    change some (Except.ok (srv.introspectionAnswer client
      (if w.clock < t.expiresAt then some t else none)), w) = _
    by_cases hlive : w.clock < t.expiresAt
    · rw [if_pos hlive, Option.filter_some, if_pos (decide_eq_true hlive)]
    · rw [if_neg hlive, Option.filter_some, decide_eq_false hlive]
      rfl

/-- Two introspections by one client are answered alike if the records they find are described
alike to it. -/
theorem introspects_eq (tokens : Table IssuedToken.accessToken) {cred : ClientCredential}
    {token token' : String}
    (h : ∀ (client : Client) (now : SystemTime), client.clientId = clientId →
      srv.introspectionAnswer client
          ((w.store.tokens.lookup token).filter fun t => decide (now < t.expiresAt)) =
        srv.introspectionAnswer client
          ((tokens.lookup token').filter fun t => decide (now < t.expiresAt))) :
    ∃ reply, srv.introspects limit w clientId cred token = some reply ∧
      srv.introspects limit (w.withTokens tokens) clientId cred token' = some reply := by
  have hauth : wp blind (srv.authenticateClient clientId cred).run ()
      (outcome (fun client _ => client.clientId = clientId) fun _ _ => True) :=
    authenticates_blind.authenticateClient trivial (fun client _ hid => hid) fun _ _ => trivial
  have hmasks : Masks w.store.tokens tokens w (w.withTokens tokens) := ⟨rfl, rfl⟩
  obtain ⟨verdict, v, v', hv, hv', ⟨⟨⟩, hverdict⟩, htokens, rfl⟩ :=
    exec_lockstep (fun _ e _ _ he => alone_blind e he) hauth hmasks
  have hrun : ∀ (u u' : World) (token : String),
      exec (World.alone limit) u (srv.authenticateClient clientId cred).run = some (verdict, u') →
      srv.introspects limit u clientId cred token =
        (exec (World.alone limit) u' (ExceptT.bindCont (fun client =>
          if client.auth = .publicClient then do
            emit (.clientAuthenticationFailed clientId .notConfidential)
            throw (.new .invalidClient)
          else do
            let record ← introspect token
            pure (srv.introspectionAnswer client record)) verdict)).map Prod.fst := by
    intro u u' token hu
    have hbind : (srv.introspectionResponseWithCredential clientId cred token).run =
        Prog.bind (srv.authenticateClient clientId cred).run _ := rfl
    rw [introspects, hbind, exec_bind, hu]
  rw [hrun w v token hv, hrun _ _ token' hv']
  cases verdict with
  | error e => exact ⟨_, rfl, rfl⟩
  | ok client =>
    simp only [ExceptT.bindCont]
    split
    · exact ⟨_, rfl, rfl⟩
    · refine ⟨_, congrArg (Option.map Prod.fst) exec_introspect,
        (congrArg (Option.map Prod.fst) exec_introspect).trans ?_⟩
      rw [htokens]
      exact congrArg (some ∘ Except.ok) (h client v.clock hverdict).symm

end Server

/-! ## What is none of the asker's business -/

/-- Lists of details that differ in what a resource server answering for `mine` is not named in:
elements located elsewhere, and the other locations of the elements they share. -/
inductive DiffersElsewhere (mine : List String) :
    AuthorizationDetails → AuthorizationDetails → Prop
  | nil : DiffersElsewhere mine [] []
  | shared {details details' : AuthorizationDetails} (d : AuthorizationDetail)
      (locations : List String) (hlocated : d.locations = [] ↔ locations = [])
      (hmine : (d.locations.filter fun loc => loc ∈ mine) = locations.filter fun loc => loc ∈ mine)
      (hrest : DiffersElsewhere mine details details') :
      DiffersElsewhere mine (d :: details) ({ d with locations := locations } :: details')
  | left {details details' : AuthorizationDetails} (d : AuthorizationDetail)
      (hlocated : d.locations ≠ []) (helse : ∀ loc ∈ d.locations, loc ∉ mine)
      (hrest : DiffersElsewhere mine details details') :
      DiffersElsewhere mine (d :: details) details'
  | right {details details' : AuthorizationDetails} (d : AuthorizationDetail)
      (hlocated : d.locations ≠ []) (helse : ∀ loc ∈ d.locations, loc ∉ mine)
      (hrest : DiffersElsewhere mine details details') :
      DiffersElsewhere mine details (d :: details')

namespace DiffersElsewhere

variable {mine : List String}

theorem locationsIn_eq (d : AuthorizationDetail) :
    d.locationsIn mine = d.locations.filter fun loc => loc ∈ mine := by
  refine List.filter_congr fun loc _ => ?_
  rw [Bool.eq_iff_iff]
  simp

theorem hidden (hlocated : d.locations ≠ []) (helse : ∀ loc ∈ d.locations, loc ∉ mine) :
    d.forResourceServer mine = none := by
  have hnone : d.locationsIn mine = [] := by
    rw [locationsIn_eq, List.filter_eq_nil_iff]
    intro loc hloc
    simpa using helse loc hloc
  rw [AuthorizationDetail.forResourceServer_of_located hlocated, if_pos hnone]

/-- An element is shown the same whatever its other locations are. -/
theorem shown {locations : List String} (hlocated : d.locations = [] ↔ locations = [])
    (hmine : (d.locations.filter fun loc => loc ∈ mine) = locations.filter fun loc => loc ∈ mine) :
    d.forResourceServer mine = { d with locations := locations }.forResourceServer mine := by
  by_cases hempty : d.locations = []
  · rw [hlocated.mp hempty, ← hempty]
  · have hempty' : locations ≠ [] := fun h => hempty (hlocated.mpr h)
    have hsame : d.locationsIn mine = { d with locations := locations }.locationsIn mine := by
      rw [locationsIn_eq, locationsIn_eq]
      exact hmine
    rw [AuthorizationDetail.forResourceServer_of_located hempty,
      AuthorizationDetail.forResourceServer_of_located hempty', hsame]

theorem detailsForResourceServer_eq {details details' : AuthorizationDetails}
    (h : DiffersElsewhere mine details details') :
    detailsForResourceServer details mine = detailsForResourceServer details' mine := by
  induction h with
  | nil => rfl
  | shared d locations hlocated hmine _ ih =>
    simp only [detailsForResourceServer, List.filterMap_cons] at ih ⊢
    rw [ih, shown hlocated hmine]
  | left d hlocated helse _ ih | right d hlocated helse _ ih =>
    simp only [detailsForResourceServer, List.filterMap_cons, hidden hlocated helse] at ih ⊢
    exact ih

end DiffersElsewhere

theorem Server.answeredFor_congr {srv : Server} {resource resource' : List String}
    (h : ∀ id ∈ srv.resourcesOf clientId, id ∈ resource ↔ id ∈ resource') :
    srv.answeredFor clientId resource = srv.answeredFor clientId resource' := by
  have hfilter : ((srv.resourcesOf clientId).filter fun id => resource.any fun r => r == id) =
      (srv.resourcesOf clientId).filter fun id => resource'.any fun r => r == id := by
    refine List.filter_congr fun id hid => ?_
    rw [Bool.eq_iff_iff]
    simpa using h id hid
  rw [answeredFor, answeredFor, hfilter]

theorem Server.answeredFor_eq_nil {srv : Server} {resource : List String}
    (h : ∀ id ∈ srv.resourcesOf clientId, id ∉ resource) :
    srv.answeredFor clientId resource = [] := by
  have hfilter : ((srv.resourcesOf clientId).filter fun id => resource.any fun r => r == id) = [] := by
    refine List.filter_eq_nil_iff.mpr fun id hid => ?_
    simpa using h id hid
  rw [answeredFor, hfilter]
  rfl

/-- A client that does not own the token is answered as the resource servers it is registered as. -/
theorem Server.introspectionAnswer_of_ne {srv : Server} {client : Client} {t : IssuedToken}
    (h : t.clientId ≠ client.clientId) :
    srv.introspectionAnswer client (some t) =
      if (srv.answeredFor client.clientId t.resource).isEmpty then .inactive
      else srv.describe t (.resourceServer (srv.answeredFor client.clientId t.resource)) := by
  simp only [introspectionAnswer, introspectionView, if_neg h]
  by_cases hempty : (srv.answeredFor client.clientId t.resource).isEmpty = true
  · simp only [hempty, if_true]
  · simp only [hempty, if_false, Bool.false_eq_true]

/-- Introspection tells a resource server nothing about other resource servers. A client that does
not own a token gets the same reply from two stores that agree except on that token, where its two
versions differ in resources the client is not registered for and in details located elsewhere.
And if none of the token's resources is the client's, it gets the reply for an unknown token. -/
theorem introspection_confined (srv : Server) (limit : Attempt → RateLimitDecision)
    (clientId : ClientId) (cred : ClientCredential) (w : World) {x : String} {t : IssuedToken}
    (ht : w.store.tokens.lookup x = some t) (howner : t.clientId ≠ clientId) :
    (∀ (tokens : Table IssuedToken.accessToken) (resource : List String)
      (details : AuthorizationDetails) (token : String),
      tokens.lookup x = some { t with resource := resource, authorizationDetails := details } →
      (∀ y, y ≠ x → tokens.lookup y = w.store.tokens.lookup y) →
      (∀ id ∈ srv.resourcesOf clientId, id ∈ t.resource ↔ id ∈ resource) →
      DiffersElsewhere (srv.answeredFor clientId t.resource) t.authorizationDetails details →
      ∃ reply, srv.introspects limit w clientId cred token = some reply ∧
        srv.introspects limit (w.withTokens tokens) clientId cred token = some reply) ∧
    (∀ unknown, (∀ id ∈ srv.resourcesOf clientId, id ∉ t.resource) →
      w.store.tokens.lookup unknown = none →
      ∃ reply, srv.introspects limit w clientId cred x = some reply ∧
        srv.introspects limit w clientId cred unknown = some reply) := by
  refine ⟨?_, ?_⟩
  · intro tokens resource details token ht' helse hresource hdetails
    refine Server.introspects_eq tokens fun client now hid => ?_
    by_cases htoken : token = x
    · subst htoken
      rw [ht, ht', Option.filter_some, Option.filter_some]
      split
      · subst hid
        have hother : { t with resource := resource, authorizationDetails := details }.clientId ≠
            client.clientId := howner
        rw [Server.introspectionAnswer_of_ne howner, Server.introspectionAnswer_of_ne hother,
          ← Server.answeredFor_congr hresource]
        simp only [Server.describe, hdetails.detailsForResourceServer_eq]
      · rfl
    · rw [helse token htoken]
  · intro unknown hresource hunknown
    refine Server.introspects_eq w.store.tokens fun client now hid => ?_
    rw [ht, hunknown, Option.filter_some, Option.filter_none]
    split
    · subst hid
      rw [Server.introspectionAnswer_of_ne howner, Server.answeredFor_eq_nil hresource]
      rfl
    · rfl

namespace Sample

/-- A resource server, with a secret of its own. -/
def api : Client :=
  { app with clientId := "api", auth := .confidentialSecret "s3cret", grantTypes := [] }

def withApi : Server :=
  ⟨{ config with resourceServers := some [⟨"api", ["https://api.example"]⟩] }, host⟩

/-- A token of the given client, for the given resources. -/
def tokenOf (clientId : ClientId) (resource : List String) (details : AuthorizationDetails) :
    IssuedToken :=
  { IssuedToken.new "t" clientId (some "user") reading 0 10 with
    resource := resource, authorizationDetails := details }

/-- A store with the resource server and one token. -/
def holding (t : IssuedToken) : World :=
  ⟨{ MemoryInner.empty with clients := Table.empty.insert api, tokens := Table.empty.insert t }, 5, []⟩

/-- What the resource server is told about the token. -/
def tells (w : World) : Option (Except ErrorResponse IntrospectionResponse) :=
  withApi.introspects (fun _ => .allow) w "api" (.secret (some "s3cret")) "t"

def active : Option (Except ErrorResponse IntrospectionResponse) → Bool
  | some (.ok response) => response.active
  | _ => false

end Sample

/-- A resource server that owns the token is answered as its owner and sees everything. -/
theorem introspection_shows_owner :
    Sample.tells (Sample.holding (Sample.tokenOf "api" ["https://api.example"] [])) ≠
      Sample.tells (Sample.holding
        (Sample.tokenOf "api" ["https://api.example", "https://payroll.example"] [])) := by
  decide +kernel

/-- The payroll service and the payment to be made there are not mentioned to the other server,
and the answer is not the empty one. -/
theorem introspection_confined_payroll :
    let t := Sample.tokenOf "app" ["https://api.example", "https://payroll.example"] [Sample.payment]
    let t' := Sample.tokenOf "app" ["https://api.example"] []
    ∃ reply : IntrospectionResponse, reply.active = true ∧
      Sample.tells (Sample.holding t) = some (.ok reply) ∧
      Sample.tells ((Sample.holding t).withTokens (Table.empty.insert t')) = some (.ok reply) := by
  intro t t'
  obtain ⟨reply, hreply, hreply'⟩ :=
    (introspection_confined Sample.withApi (fun _ => .allow) "api" (.secret (some "s3cret"))
      (Sample.holding t) (x := "t") (t := t) rfl (by decide)).1 (Table.empty.insert t')
      ["https://api.example"] [] "t" rfl
      (fun y hy => by
        rw [Table.lookup_insert, Sample.holding, Table.lookup_insert]
        simp [t, t', Sample.tokenOf, IssuedToken.new, Ne.symm hy])
      (by decide +kernel) (.left Sample.payment (by decide) (by decide +kernel) .nil)
  have hactive : Sample.active (Sample.tells (Sample.holding t)) = true := by decide +kernel
  rw [Sample.tells, hreply] at hactive
  cases reply with
  | error e => cases hactive
  | ok reply => exact ⟨reply, hactive, hreply, hreply'⟩

end OauthAs
