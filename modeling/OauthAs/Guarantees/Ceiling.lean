-- SUMMARY: Nothing is granted beyond the registration of a client, so no refresh runs into its ceiling.
import OauthAs.Guarantees.Device
import OauthAs.Protocol.Requests

/-!
# The ceiling of a registration

A scope enters the store through a registration: a request for a code is validated against it, a
device grant is filed and client credentials are issued by it, and an exchange is cut to it.
Everything else passes on what a code, a device grant or a refresh token has. As long as the
registrations do not change, whatever is stored is therefore within what they allow.

The one detour is the device flow. A poll is let through by the grant it reads and issues for the
grant it takes a moment later, so that it matters that a device code never changes its client.
-/

namespace OauthAs

open Sample

variable {client : Client} {clientId : ClientId} {r : RefreshTokenRecord}

/-- The scope is one that the registration of the client allows. -/
def Allows (clients : Table Client.clientId) (clientId : ClientId) (scope : ScopeSet) : Prop :=
  ∃ client, clients.lookup clientId = some client ∧ scope.isSubset client.allowedScopes = true

theorem Allows.mono {clients : Table Client.clientId} {scope wider : ScopeSet}
    (h : Allows clients clientId wider) (hscope : scope.tokens ⊆ wider.tokens) :
    Allows clients clientId scope := by
  obtain ⟨client, hclient, hwider⟩ := h
  refine ⟨client, hclient, ScopeSet.isSubset_iff.mpr ?_⟩
  exact List.Subset.trans hscope (ScopeSet.isSubset_iff.mp hwider)

/-- Codes are asked for only for requests that were validated, and no registration changes. -/
def Steady (s : ServiceState) (a : ServiceMove) (s' : ServiceState) : Prop :=
  Sealed s a s' ∧ s'.world.store.clients = s.world.store.clients

namespace Server

variable {srv : Server} {w : World} {s : ServiceState} {t : ServiceCall}

/-! ## Registrations -/

theorem clients_of_steady (h : srv.service.Reaches Steady (ServiceState.idle w) s) :
    s.world.store.clients = w.store.clients :=
  h.invariant (I := fun s => s.world.store.clients = w.store.clients)
    (fun _ _ _ hI _ hok => hok.2.trans hI) rfl

/-- Whatever registration a request read is the one there is. -/
theorem registered_of_did (h : srv.service.Reaches Steady (ServiceState.idle w) s)
    (ht : t ∈ s.threads) {id : ClientId}
    (hdid : t.Did (.storage (.getClient id)) (.ok (some client))) :
    w.store.clients.lookup id = some client := by
  obtain ⟨i, hi⟩ := List.mem_iff_getElem?.mp ht
  obtain ⟨before, after, htrace⟩ := List.append_of_mem hdid
  obtain ⟨moment⟩ := h.moment hi htrace
  obtain ⟨hexec, -, -⟩ := World.perform_storage moment.performs
  have hfound := Except.ok.inj (congrArg Prod.fst hexec)
  rw [← clients_of_steady moment.reached]
  exact hfound

/-- A registration in a ledger was there or has just been read. -/
theorem clients_next {l : Ledger} {e : Effect} {a : e.Answer} (h : client ∈ (l.next e a).clients) :
    client ∈ l.clients ∨
      (t.Did e a → ∃ id, t.Did (.storage (.getClient id)) (.ok (some client))) := by
  cases e with
  | storage op =>
    cases a with
    | error e => exact .inl h
    | ok a =>
      cases op with
      | getClient id =>
        cases a with
        | none => exact .inl h
        | some c =>
          rcases List.mem_cons.mp h with rfl | h
          · exact .inr fun hdid => ⟨id, hdid⟩
          · exact .inl h
      | _ => first | exact .inl h | (cases a <;> exact .inl h)
  | tokenEntropy | randomHex bytes | sign claims => cases a <;> exact .inl h
  | _ => exact .inl h

/-- The registrations in the ledger of a request are among those there are. -/
theorem registered_of_ledger (h : srv.service.Reaches Steady (ServiceState.idle w) s) {l : Ledger}
    (hl : .api l ∈ srv.serviceDiscipline.ledgers s) (hread : client ∈ l.clients) :
    w.store.clients.lookup client.clientId = some client := by
  obtain ⟨t, ht, hledger⟩ := List.mem_map.mp hl
  have hcall : ∃ id, t.Did (.storage (.getClient id)) (.ok (some client)) :=
    srv.serviceDiscipline.of_ledger (Φ := fun l => ∃ m, l = .api m ∧ client ∈ m.clients) ?_ ?_
      ⟨l, hledger, hread⟩
  · obtain ⟨id, hdid⟩ := hcall
    have hlookup := registered_of_did h ht hdid
    rwa [Table.key_of_lookup hlookup]
  · rintro ⟨m, hm, hread⟩
    cases hq : t.request with
    | api request entry =>
      rw [hq] at hm
      cases hm
      cases hread
    | _ =>
      rw [hq] at hm
      cases hm
  · rintro (m | ⟨q, m⟩) e a ⟨m', hm', hread⟩
    · obtain rfl := ServiceLedger.api.inj hm'
      rcases clients_next hread with hold | hnew
      · exact .inl ⟨m, rfl, hold⟩
      · exact .inr hnew
    · cases hm'

/-! ## Codes -/

/-- What is validated for a client is within its registration. -/
theorem isSubset_of_validateFor {request : AuthorizationRequest}
    {validated : ValidatedAuthorizationRequest} (h : srv.validateFor client request = .ok validated) :
    validated.scope.isSubset client.allowedScopes = true := by
  obtain ⟨target, -, h⟩ := except_bind_ok h
  split at h
  · rename_i v hv
    cases h
    obtain ⟨-, -, hv⟩ := except_bind_ok hv
    obtain ⟨scope, hscope, hv⟩ := except_bind_ok hv
    obtain ⟨resource, -, hv⟩ := except_bind_ok hv
    obtain ⟨details, -, hv⟩ := except_bind_ok hv
    obtain ⟨requirement, -, hv⟩ := except_bind_ok hv
    cases hv
    unfold requestedScope at hscope
    split at hscope
    · cases hscope
      exact isSubset_grantedDefaultScope client
    · split at hscope
      · cases hscope
      · split at hscope
        · rename_i hwithin
          cases hscope
          exact hwithin
        · cases hscope
  · cases h

/-- A code that is stored or carried goes back to a request that was validated. -/
theorem code_allowed (hnone : ∀ r, r ∉ w.store.codes)
    (h : srv.service.Reaches Steady (ServiceState.idle w) s) {r : AuthorizationCodeRecord}
    (hr : r ∈ s.world.store.codes ∨ ∃ l ∈ srv.serviceDiscipline.ledgers s, l.Carries r) :
    Allows w.store.clients r.clientId r.scope := by
  obtain ⟨s₁, -, hrun, t, ht, q, l, door, v, v', m, hledger, -, hresolved, hv, hfor, hsame⟩ :=
    resolution hnone (h.mono fun _ _ _ hok => hok.1) hr
  obtain ⟨request, -, client, hread, -, hverdict⟩ := hresolved
  -- The thread that read the registration is still there.
  obtain ⟨i, hi⟩ := List.mem_iff_getElem?.mp ht
  obtain ⟨t', hi', -, htrace⟩ := hrun.thread hi
  rw [FrontLedger.Did, (front_of_ledger hledger).2.1] at hread
  have hlookup := registered_of_did h (List.mem_of_getElem? hi') (htrace.subset hread)
  obtain ⟨-, hclient, -⟩ := of_validateFor_ok hverdict
  obtain ⟨subject, decidedAt, authentication, filed, code, rfl⟩ := hfor
  have hid : v'.clientId = v.clientId := by rw [hv]
  have hscope : v'.scope = v.scope := by rw [hv]
  have hr : r.clientId = client.clientId ∧ r.scope = v.scope := by
    rw [hsame]
    exact ⟨hid.trans hclient, hscope⟩
  rw [hr.1, hr.2]
  exact ⟨client, hlookup, isSubset_of_validateFor hverdict⟩

end Server

/-! ## Device grants -/

/-- The device grants a request was shown. -/
def Ledger.Shows (l : Ledger) (g : DeviceGrant) : Prop :=
  g ∈ l.devices.seen ∨ l.devices.taken = some g

namespace ServiceLedger

def Shows : ServiceLedger → DeviceGrant → Prop
  | api l, g => l.Shows g
  | front _ _, _ => False

/-- The string under which the request may file a device grant. -/
def filing : ServiceLedger → Option String
  | api l => l.identifier
  | front _ _ => none

end ServiceLedger

/-- A grant that is shown or stored after a call was there before, whatever has been decided
meanwhile, or has just been filed. -/
theorem Ledger.GrantTurn.shown {used : List String} {l l' : Ledger}
    {t t' : Table DeviceGrant.deviceCode} (h : l.GrantTurn used l' t t') {r : DeviceGrant}
    (hr : r ∈ t' ∨ l'.Shows r) :
    (∃ k, (k ∈ t ∨ l.Shows k) ∧ r.SameDevice k) ∨
      (l.identifier = some r.deviceCode ∧ l'.identifier = none ∧ r ∈ t' ∧
        l.Permits r.clientId r.scope) := by
  have hself : ∀ {k : DeviceGrant}, k ∈ t ∨ l.Shows k →
      ∃ k', (k' ∈ t ∨ l.Shows k') ∧ k.SameDevice k' := fun hk => ⟨_, hk, rfl, rfl, rfl⟩
  have hupdated : ∀ {u : DeviceGrant}, (∃ r ∈ l.devices.seen, u.SameDevice r) →
      ∃ k, (k ∈ t ∨ l.Shows k) ∧ u.SameDevice k := by
    rintro u ⟨k, hk, hsame⟩
    exact ⟨k, .inr (.inl hk), hsame⟩
  cases h with
  | keeps devices identifier less =>
    rw [Ledger.Shows, devices] at hr
    exact .inl (hself (hr.imp_left (less r)))
  | sees g stored devices identifier table =>
    rw [Ledger.Shows, devices, table] at hr
    rcases hr with hr | hr | hr
    · exact .inl (hself (.inl hr))
    · rcases List.mem_cons.mp hr with rfl | hr
      · exact .inl (hself (.inl stored))
      · exact .inl (hself (.inr (.inl hr)))
    · exact .inl (hself (.inr (.inr hr)))
  | takes g stored first devices identifier table =>
    rw [Ledger.Shows, devices, table] at hr
    rcases hr with hr | hr | hr
    · exact .inl (hself (.inl (Table.mem_erase.mp hr).1))
    · exact .inl (hself (.inr (.inl hr)))
    · cases hr
      exact .inl (hself (.inl stored))
  | files g new pending devices identifier table permitted =>
    rw [Ledger.Shows, devices] at hr
    rcases hr with hr | hr
    · rcases Table.mem_insert.mp (table ▸ hr) with rfl | ⟨hold, -⟩
      · exact .inr ⟨new, identifier, hr, permitted⟩
      · exact .inl (hself (.inl hold))
    · exact .inl (hself (.inr hr))
  | polls g u stored key state devices identifier table read
  | decides g u stored key pending first decision devices identifier table read =>
    rw [Ledger.Shows, devices, table] at hr
    rcases hr with hr | hr
    · rcases Table.mem_insert.mp hr with rfl | ⟨hr, -⟩
      · exact .inl (hupdated read)
      · exact .inl (hself (.inl hr))
    · exact .inl (hself (.inr hr))

/-- What a call does to the device grants and to what its request has of them. -/
structure DeviceTurn (w w' : World) (l l' : ServiceLedger) : Prop where
  shown : ∀ r, r ∈ w'.store.deviceByCode ∨ l'.Shows r →
    (∃ k, (k ∈ w.store.deviceByCode ∨ l.Shows k) ∧ r.SameDevice k) ∨
      (l.filing = some r.deviceCode ∧ l'.filing = none ∧ r ∈ w'.store.deviceByCode ∧
        ∃ m, l = .api m ∧ m.Permits r.clientId r.scope)
  filing : ∀ x, l'.filing = some x → l.filing = some x ∨ (x ∉ w.used ∧ x ∈ w'.used)

namespace Server

variable {srv : Server} {w w' : World} {e : Effect} {c : Choice} {a : e.Answer}

theorem grantTurn_next {l : Ledger} (hallowed : l.Allowed srv e)
    (hperform : w.perform e c = some (a, w')) :
    l.GrantTurn w.used (l.next e a) w.store.deviceByCode w'.store.deviceByCode := by
  have hi : [l][0]? = some l := rfl
  have hmoves := moves_of_perform hi hallowed hperform
  rcases grantTurn_turns hmoves.turns with ⟨i, l₀, l', hi, hset, -, hturn⟩ | ⟨hsame, hless⟩
  · obtain ⟨rfl, rfl⟩ : i = 0 ∧ l₀ = l := by
      cases i with
      | zero => exact ⟨rfl, (Option.some.inj hi).symm⟩
      | succ i => cases hi
    cases hset
    exact hturn
  · rcases hsame with hsame | ⟨q, hsame⟩
    · rw [show l.next e a = l from List.cons.inj hsame |>.1]
      exact .keeps rfl (fun _ h => .inl h) hless
    · cases congrArg List.length hsame

theorem identifier_next {l : Ledger} {x : String} (hperform : w.perform e c = some (a, w'))
    (h : (l.next e a).identifier = some x) :
    l.identifier = some x ∨ (x ∉ w.used ∧ x ∈ w'.used) := by
  cases e with
  | storage op =>
    cases a with
    | error e => exact .inl h
    | ok a => exact .inl ((Ledger.stored_keeps l op a).2.2.2.2 x h)
  | randomHex bytes =>
    cases a with
    | none => exact .inl h
    | some hex =>
      cases h
      obtain ⟨hfresh, rfl⟩ := World.perform_randomHex hperform
      exact .inr ⟨hfresh, List.mem_cons_self⟩
  | tokenEntropy | sign claims => cases a <;> exact .inl h
  | _ => exact .inl h

theorem deviceTurn {l : ServiceLedger} (hallowed : l.Allowed srv e)
    (hperform : w.perform e c = some (a, w')) : DeviceTurn w w' l (l.next e a) := by
  cases l with
  | api l =>
    refine ⟨fun r hr => ?_, fun x hx => identifier_next hperform hx⟩
    rcases (grantTurn_next hallowed hperform).shown hr with hold | ⟨hnew, hfiled, hstored, hpermits⟩
    · exact .inl hold
    · exact .inr ⟨hnew, hfiled, hstored, l, rfl, hpermits⟩
  | front q l =>
    refine ⟨fun r hr => .inl ⟨r, ?_, rfl, rfl, rfl⟩, fun x hx => by cases hx⟩
    refine hr.imp_left fun hstored => ?_
    rcases World.store_of_perform hperform with ⟨op, rfl, hstore⟩ | hstore
    · rw [hstore] at hstored
      refine ((StorageOp.frame_exec op).deviceByCode ?_).mem hstored
      cases op <;> first | rfl | cases hallowed
    · rwa [hstore] at hstored

end Server

/-- A grant that is stored or that some request was shown. -/
def ShownGrant (w : World) (ls : List ServiceLedger) (g : DeviceGrant) : Prop :=
  g ∈ w.store.deviceByCode ∨ ∃ l ∈ ls, l.Shows g

/-- A device code belongs to one client, which may be granted what is asked for. -/
structure DeviceRegister (clients : Table Client.clientId) (w : World) (ls : List ServiceLedger) :
    Prop where
  drawn : ∀ l ∈ ls, ∀ x, l.filing = some x → x ∈ w.used
  single : ∀ x, OnlyOne (fun l => l.filing = some x) ls
  named : ∀ g, ShownGrant w ls g → g.deviceCode ∈ w.used ∧ ∀ l ∈ ls, l.filing ≠ some g.deviceCode
  agreed : ∀ g g', ShownGrant w ls g → ShownGrant w ls g' → g.deviceCode = g'.deviceCode →
    g.clientId = g'.clientId
  allowed : ∀ g, ShownGrant w ls g → Allows clients g.clientId g.scope

namespace DeviceRegister

variable {srv : Server} {clients : Table Client.clientId} {w w' : World} {ls ls' : List ServiceLedger}

theorem idle (hnone : ∀ g, g ∉ w.store.deviceByCode) : DeviceRegister clients w [] := by
  have hshown : ∀ g, ¬ ShownGrant w [] g := by
    rintro g (hg | ⟨l, hl, -⟩)
    · exact hnone g hg
    · cases hl
  exact ⟨fun _ hl => (List.not_mem_nil hl).elim, fun _ => OnlyOne.nil,
    fun g hg => (hshown g hg).elim, fun g _ hg => (hshown g hg).elim,
    fun g hg => (hshown g hg).elim⟩

/-- Where no more is shown and no string is handed out, nothing changes. -/
theorem of_subset (h : DeviceRegister clients w ls) (hused : w.used ⊆ w'.used)
    (hshown : ∀ g, ShownGrant w' ls' g → ShownGrant w ls g)
    (hfiling : ∀ l ∈ ls', ∀ x, l.filing = some x → l ∈ ls)
    (hsingle : ∀ x, OnlyOne (fun l => l.filing = some x) ls') : DeviceRegister clients w' ls' where
  drawn l hl x hx := hused (h.drawn l (hfiling l hl x hx) x hx)
  single := hsingle
  named g hg := ⟨hused (h.named g (hshown g hg)).1, fun l hl hx =>
    (h.named g (hshown g hg)).2 l (hfiling l hl _ hx) hx⟩
  agreed g g' hg hg' := h.agreed g g' (hshown g hg) (hshown g' hg')
  allowed g hg := h.allowed g (hshown g hg)

theorem call {i : Nat} {l l' : ServiceLedger} (h : DeviceRegister clients w ls)
    (hi : ls[i]? = some l) (hused : w.used ⊆ w'.used) (hturn : DeviceTurn w w' l l')
    (hread : ∀ m, l = .api m → ∀ c ∈ m.clients, clients.lookup c.clientId = some c) :
    DeviceRegister clients w' (ls.set i l') := by
  have hl := List.mem_of_getElem? hi
  -- Whatever is shown goes back to what was shown, or the request has just filed it.
  have hshown : ∀ r, ShownGrant w' (ls.set i l') r →
      (∃ k, ShownGrant w ls k ∧ r.SameDevice k) ∨
        (l.filing = some r.deviceCode ∧ l'.filing = none ∧ r ∈ w'.store.deviceByCode ∧
          ∃ m, l = .api m ∧ m.Permits r.clientId r.scope) := by
    have hcalled : ∀ r, r ∈ w'.store.deviceByCode ∨ l'.Shows r → _ := hturn.shown
    have hback : ∀ {r : DeviceGrant}, (∃ k, (k ∈ w.store.deviceByCode ∨ l.Shows k) ∧
        r.SameDevice k) → ∃ k, ShownGrant w ls k ∧ r.SameDevice k := by
      rintro r ⟨k, hk, hsame⟩
      exact ⟨k, hk.imp_right fun hk => ⟨l, hl, hk⟩, hsame⟩
    rintro r (hr | ⟨m, hm, hr⟩)
    · exact (hcalled r (.inl hr)).imp_left hback
    · rcases List.mem_or_eq_of_mem_set hm with hm | rfl
      · exact .inl ⟨r, .inr ⟨m, hm, hr⟩, rfl, rfl, rfl⟩
      · exact (hcalled r (.inr hr)).imp_left hback
  constructor
  · intro m hm x hx
    rcases List.mem_or_eq_of_mem_set hm with hm | rfl
    · exact hused (h.drawn m hm x hx)
    · rcases hturn.filing x hx with hold | ⟨-, hnew⟩
      · exact hused (h.drawn l hl x hold)
      · exact hnew
  · intro x
    refine (h.single x).set hi fun hx => (hturn.filing x hx).imp_right fun hfresh m hm hmx => ?_
    exact hfresh.1 (h.drawn m hm x hmx)
  · intro r hr
    rcases hshown r hr with ⟨k, hk, hsame⟩ | ⟨hnew, hfiled, -, -⟩
    · obtain ⟨hin, hfree⟩ := h.named k hk
      rw [hsame.code]
      refine ⟨hused hin, fun m hm hmx => ?_⟩
      rcases List.mem_or_eq_of_mem_set hm with hm | rfl
      · exact hfree m hm hmx
      · rcases hturn.filing _ hmx with hold | ⟨hfresh, -⟩
        · exact hfree l hl hold
        · exact hfresh hin
    · refine ⟨hused (h.drawn l hl _ hnew), fun m hm hmx => ?_⟩
      obtain ⟨j, hj⟩ := List.mem_iff_getElem?.mp hm
      by_cases hij : i = j
      · subst hij
        rw [List.getElem?_set_self (List.getElem?_eq_some_iff.mp hi).1] at hj
        cases hj
        cases hfiled.symm.trans hmx
      · rw [List.getElem?_set_ne hij] at hj
        exact hij (h.single _ hi hj hnew hmx)
  · intro r r' hr hr' hcode
    rcases hshown r hr with ⟨k, hk, hsame⟩ | ⟨hnew, -, hstored, -⟩ <;>
      rcases hshown r' hr' with ⟨k', hk', hsame'⟩ | ⟨hnew', -, hstored', -⟩
    · rw [hsame.client, hsame'.client]
      exact h.agreed k k' hk hk' (hsame.code.symm.trans (hcode.trans hsame'.code))
    · exact absurd (hnew'.trans (congrArg some (hcode.symm.trans hsame.code))) ((h.named k hk).2 l hl)
    · exact absurd (hnew.trans (congrArg some (hcode.trans hsame'.code))) ((h.named k' hk').2 l hl)
    · rw [Table.eq_of_key_eq hstored hstored' hcode]
  · intro r hr
    rcases hshown r hr with ⟨k, hk, hsame⟩ | ⟨-, -, -, m, hm, client, hclient, hid, hscope⟩
    · rw [hsame.client, hsame.scope]
      exact h.allowed k hk
    · exact ⟨client, hid ▸ hread m hm client hclient, hscope⟩

theorem step (h : DeviceRegister clients w ls)
    (hread : ∀ m, .api m ∈ ls → ∀ c ∈ m.clients, clients.lookup c.clientId = some c)
    (hstep : srv.serviceDiscipline.LedgerStep w ls w' ls') : DeviceRegister clients w' ls' := by
  cases hstep with
  | spawn q =>
    have hnew : (ServiceLedger.start q).filing = none ∧ ∀ g, ¬ (ServiceLedger.start q).Shows g := by
      cases q with
      | api request entry => exact ⟨rfl, by rintro g (⟨⟨⟩⟩ | ⟨⟨⟩⟩)⟩
      | _ => exact ⟨rfl, fun _ h => h⟩
    refine h.of_subset (List.Subset.refl _) ?_ (fun l hl x hx => ?_) fun x => ?_
    · rintro g (hg | ⟨l, hl, hg⟩)
      · exact .inl hg
      · rcases List.mem_append.mp hl with hl | hl
        · exact .inr ⟨l, hl, hg⟩
        · rw [List.mem_singleton.mp hl] at hg
          exact absurd hg (hnew.2 g)
    · rcases List.mem_append.mp hl with hl | hl
      · exact hl
      · rw [List.mem_singleton.mp hl] at hx
        cases hnew.1.symm.trans hx
    · refine (h.single x).append fun hx => ?_
      cases hnew.1.symm.trans hx
  | run i l e c a w' hi hallowed hpossible hperform =>
    refine h.call hi (World.used_of_perform hperform) (Server.deviceTurn hallowed hperform) ?_
    exact fun m hm => hread m (hm ▸ List.mem_of_getElem? hi)
  | env v w' henv =>
    have hworld : w'.used = w.used ∧ ∀ g ∈ w'.store.deviceByCode, g ∈ w.store.deviceByCode := by
      cases v with
      | tick elapsed =>
        cases henv
        exact ⟨rfl, fun _ hg => hg⟩
      | sweep now =>
        cases henv
        exact ⟨rfl, fun _ hg => ((StorageOp.frame_exec (.sweepExpired now)).deviceByCode rfl).mem hg⟩
    refine h.of_subset (hworld.1 ▸ List.Subset.refl _) (fun g hg => hg.imp_left (hworld.2 g))
      (fun l hl _ _ => hl) h.single

end DeviceRegister

/-! ## Tokens -/

/-- Whatever a request has at hand is within the registrations. -/
structure Ledger.Covered (clients : Table Client.clientId) (l : Ledger) : Prop where
  read : ∀ c ∈ l.clients, clients.lookup c.clientId = some c
  code : ∀ r, l.codes.redeemed = some r → Allows clients r.clientId r.scope
  taken : ∀ d, l.devices.taken = some d → Allows clients d.clientId d.scope
  agreed : ∀ g ∈ l.devices.seen, ∀ d, l.devices.taken = some d → g.deviceCode = d.deviceCode →
    g.clientId = d.clientId
  chain : ∀ r ∈ l.chain.records, Allows clients r.clientId r.scope

namespace Ledger.Covered

variable {srv : Server} {clients : Table Client.clientId} {l : Ledger}

theorem of_permits (h : l.Covered clients) {scope : ScopeSet} (hpermits : l.Permits clientId scope) :
    Allows clients clientId scope := by
  obtain ⟨client, hread, rfl, hscope⟩ := hpermits
  exact ⟨client, h.read client hread, hscope⟩

/-- What a request issues tokens for is within the registrations. -/
theorem of_draws (h : l.Covered clients) {familyId subject : Option String}
    {established : SystemTime} {t : Terms}
    (hgrants : l.Grants srv clientId familyId subject established) (hdraws : l.Draws srv t) :
    Allows clients clientId t.scope := by
  unfold Grants at hgrants
  unfold Draws at hdraws
  cases hq : l.request with
  | authorizationCodeToken p =>
    rw [hq] at hgrants hdraws
    obtain ⟨r, hr, rfl, -⟩ := hgrants
    obtain ⟨r', hr', hoffers⟩ := hdraws
    obtain rfl := Option.some.inj (hr.symm.trans hr')
    exact (h.code r hr).mono hoffers.narrows.scope
  | refreshToken p =>
    rw [hq] at hgrants hdraws
    obtain ⟨-, -, -, -, -, -, -, rfl⟩ := hgrants
    obtain ⟨r, hcontinues, -, howner, hoffers⟩ := hdraws
    rw [← howner]
    refine (h.chain r (ChainLedger.mem_records.mpr ?_)).mono hoffers.narrows.scope
    rcases hcontinues with hrotated | ⟨-, hread⟩
    · exact .inr (.inr (.inl hrotated))
    · exact .inl hread
  | deviceToken c authentication code =>
    rw [hq] at hgrants hdraws
    obtain ⟨rfl, g, s, -, hg, hcode, hclient, -⟩ := hgrants
    obtain ⟨d, hd, hcode', hscope⟩ := hdraws
    -- The poll was let through by `g` and has taken `d`.
    rw [← hclient, h.agreed g hg d hd (hcode.trans hcode'.symm), hscope]
    exact h.taken d hd
  | clientCredentialsToken c authentication scope resource details =>
    rw [hq] at hgrants hdraws
    rw [hgrants.1]
    exact h.of_permits hdraws
  | tokenExchange q =>
    rw [hq] at hgrants hdraws
    obtain ⟨-, -, -, rfl, -⟩ := hgrants
    exact h.of_permits hdraws
  | _ =>
    rw [hq] at hgrants
    exact hgrants.elim

theorem of_mints (h : l.Covered clients) (hmints : l.Mints srv r) :
    Allows clients r.clientId r.scope := by
  rcases hmints.grant with ⟨s, hs, hinherits⟩ | ⟨hroots, hdraws⟩
  · rw [hinherits.grant.1]
    exact (h.chain s hs).mono hinherits.offers.narrows.scope
  · exact h.of_draws hroots.grant hdraws

end Ledger.Covered

/-- Every token there is, and every refresh token a request knows, is within the registrations. -/
structure Capped (clients : Table Client.clientId) (w : World) (ls : List ServiceLedger) : Prop where
  tokens : ∀ t ∈ w.store.tokens, Allows clients t.clientId t.scope
  refresh : ∀ r ∈ w.store.refresh, Allows clients r.clientId r.scope
  records : ∀ l, .api l ∈ ls → ∀ r ∈ l.chain.records, Allows clients r.clientId r.scope

namespace Capped

variable {srv : Server} {clients : Table Client.clientId} {w w' : World} {ls ls' : List ServiceLedger}

theorem of_derives {s : RefreshTokenRecord} (hderives : r.Derives s)
    (h : Allows clients s.clientId s.scope) : Allows clients r.clientId r.scope := by
  have hscope : r.scope = s.scope := congrArg Terms.scope hderives.terms
  rw [hderives.grant.1, hscope]
  exact h

theorem call (i : Nat) {l : Ledger} {e : Effect} {c : Choice} {a : e.Answer}
    (h : Capped clients w ls) (hcovered : l.Covered clients)
    (hallowed : l.Allowed srv e) (hperform : w.perform e c = some (a, w')) :
    Capped clients w' (ls.set i (.api (l.next e a))) := by
  have hself : [l][0]? = some l := rfl
  -- The records known afterwards, by the request that calls.
  have hknown : ∀ r, Known w' [l.next e a] r → Allows clients r.clientId r.scope := by
    intro r hr
    have hturns := (Server.moves_of_perform hself hallowed hperform).turns
    rcases known_step hturns hr with ⟨s, hs, hderives⟩ | ⟨m, hm, -, -, -, hmints, -⟩
    · refine of_derives hderives ?_
      rcases hs with hs | ⟨m, hm, hs⟩
      · exact h.refresh s hs
      · rw [List.mem_singleton.mp hm] at hs
        exact hcovered.chain s hs
    · rw [List.mem_singleton.mp hm] at hmints
      exact hcovered.of_mints hmints
  refine ⟨fun t ht => ?_, fun r hr => hknown r (.inl hr), fun m hm r hr => ?_⟩
  · rcases World.store_of_perform hperform with ⟨op, rfl, hstore⟩ | hstore
    · rw [hstore] at ht
      rcases StorageOp.mem_tokens_exec rfl ht with hold | ⟨rfl, -⟩ | ⟨expected, spent, next, rfl, -⟩
      · exact h.tokens t hold
      · exact hcovered.of_draws hallowed.2.1 hallowed.2.2
      · obtain ⟨p, hrotates⟩ := hallowed
        rw [hrotates.grant.1]
        exact (hcovered.chain expected (ChainLedger.mem_records.mpr (.inl hrotates.read))).mono
          hrotates.offers.narrows.scope
    · exact h.tokens t (hstore ▸ ht)
  · rcases List.mem_or_eq_of_mem_set hm with hm | hm
    · exact h.records m hm r hr
    · rw [ServiceLedger.api.inj hm] at hr
      exact hknown r (.of_record (List.mem_singleton_self _) hr)

theorem step (h : Capped clients w ls) (hcovered : ∀ l, .api l ∈ ls → l.Covered clients)
    (hstep : srv.serviceDiscipline.LedgerStep w ls w' ls') : Capped clients w' ls' := by
  cases hstep with
  | spawn q =>
    refine ⟨h.tokens, h.refresh, fun l hl r hr => ?_⟩
    rcases List.mem_append.mp hl with hl | hl
    · exact h.records l hl r hr
    · cases q with
      | api request entry =>
        rw [ServiceLedger.api.inj (List.mem_singleton.mp hl)] at hr
        cases hr
      | _ => cases List.mem_singleton.mp hl
  | run i l e c a w' hi hallowed hpossible hperform =>
    cases l with
    | api l => exact h.call i (hcovered l (List.mem_of_getElem? hi)) hallowed hperform
    | front q l =>
      have hstore : ∀ op, e = .storage op → op.WritesTokens = false ∧ op.WritesRefresh = false := by
        rintro op rfl
        cases op <;> first | exact ⟨rfl, rfl⟩ | cases hallowed
      have hless : (∀ t ∈ w'.store.tokens, t ∈ w.store.tokens) ∧
          ∀ r ∈ w'.store.refresh, r ∈ w.store.refresh := by
        rcases World.store_of_perform hperform with ⟨op, rfl, hexec⟩ | hsame
        · rw [hexec]
          exact ⟨fun t ht => ((StorageOp.frame_exec op).tokens (hstore op rfl).1).mem ht,
            fun r hr => ((StorageOp.frame_exec op).refresh (hstore op rfl).2).mem hr⟩
        · rw [hsame]
          exact ⟨fun _ ht => ht, fun _ hr => hr⟩
      refine ⟨fun t ht => h.tokens t (hless.1 t ht), fun r hr => h.refresh r (hless.2 r hr), ?_⟩
      intro m hm
      rcases List.mem_or_eq_of_mem_set hm with hm | hm
      · exact h.records m hm
      · cases hm
  | env v w' henv =>
    cases v with
    | tick elapsed =>
      cases henv
      exact ⟨h.tokens, h.refresh, h.records⟩
    | sweep now =>
      cases henv
      have hframe := StorageOp.frame_exec (g := w.store) (.sweepExpired now)
      exact ⟨fun t ht => h.tokens t ((hframe.tokens rfl).mem ht),
        fun r hr => h.refresh r ((hframe.refresh rfl).mem hr), h.records⟩

end Capped

/-- Nothing has been granted yet. -/
def MemoryInner.Ungranted (g : MemoryInner) : Prop :=
  (∀ r, r ∉ g.codes) ∧ (∀ d, d ∉ g.deviceByCode) ∧ (∀ t, t ∉ g.tokens) ∧ ∀ r, r ∉ g.refresh

namespace Server

variable {srv : Server} {w : World} {s : ServiceState} {t : ServiceCall}

section Granting
variable (hnone : w.store.Ungranted) (h : srv.service.Reaches Steady (ServiceState.idle w) s)

include hnone h

theorem deviceRegister_of_steady :
    DeviceRegister w.store.clients s.world (srv.serviceDiscipline.ledgers s) := by
  refine srv.serviceDiscipline.invariant_along h Discipline.follows_of_idle (.idle hnone.2.1) ?_
  intro t a t' hrun hI hok hstep
  exact hI.step (fun m hm c hc => registered_of_ledger hrun hm hc) hstep

theorem capped_of_steady :
    Capped w.store.clients s.world (srv.serviceDiscipline.ledgers s) := by
  refine srv.serviceDiscipline.invariant_along h Discipline.follows_of_idle ?_ ?_
  · exact ⟨fun t ht => (hnone.2.2.1 t ht).elim, fun r hr => (hnone.2.2.2 r hr).elim,
      fun _ hl => (List.not_mem_nil hl).elim⟩
  intro t a t' hrun hI hok hstep
  refine hI.step (fun m hm => ?_) hstep
  have hregister := deviceRegister_of_steady hnone hrun
  constructor
  · exact fun c hc => registered_of_ledger hrun hm hc
  · exact fun r hr => code_allowed hnone.1 hrun (.inr ⟨_, hm, .inr hr⟩)
  · exact fun d hd => hregister.allowed d (.inr ⟨_, hm, .inr hd⟩)
  · exact fun g hg d hd => hregister.agreed g d (.inr ⟨_, hm, .inl hg⟩) (.inr ⟨_, hm, .inr hd⟩)
  · exact hI.records m hm

/-- A refresh token that a request read is within whatever registration of its client it read. -/
theorem isSubset_of_did (ht : t ∈ s.threads) {x : String}
    (hrecord : t.Did (.storage (.getRefreshToken x)) (.ok (some r)) ∨
      t.Did (.storage (.takeRefreshToken x)) (.ok (some r)))
    (hclient : t.Did (.storage (.getClient r.clientId)) (.ok (some client))) :
    r.scope.isSubset client.allowedScopes = true := by
  -- The record was stored at the moment it was read.
  have hallows : Allows w.store.clients r.clientId r.scope := by
    obtain ⟨i, hi⟩ := List.mem_iff_getElem?.mp ht
    rcases hrecord with hdid | hdid <;>
    · obtain ⟨before, after, htrace⟩ := List.append_of_mem hdid
      obtain ⟨moment⟩ := h.moment hi htrace
      obtain ⟨hexec, -, -⟩ := World.perform_storage moment.performs
      have hfound := Except.ok.inj (congrArg Prod.fst hexec)
      exact (capped_of_steady hnone moment.reached).refresh r (Table.mem_of_lookup hfound)
  obtain ⟨client', hclient', hscope⟩ := hallows
  have hlookup := registered_of_did h ht hclient
  rwa [Option.some.inj (hclient'.symm.trans hlookup)] at hscope

end Granting

end Server

/-- Whatever is stored is within the registration of its client, and no refresh is refused for
reaching beyond it: what a request reads of a refresh token is within what it reads of its
client. -/
theorem granted_within_registration {srv : Server} {w : World} {s : ServiceState}
    (hnone : w.store.Ungranted) (h : srv.service.Reaches Steady (ServiceState.idle w) s) :
    (∀ r ∈ s.world.store.codes, Allows s.world.store.clients r.clientId r.scope) ∧
    (∀ g ∈ s.world.store.deviceByCode, Allows s.world.store.clients g.clientId g.scope) ∧
    (∀ t ∈ s.world.store.tokens, Allows s.world.store.clients t.clientId t.scope) ∧
    (∀ r ∈ s.world.store.refresh, Allows s.world.store.clients r.clientId r.scope) ∧
    ∀ t ∈ s.threads,
      (∀ p entry, t.request = .api (.refreshToken p) entry →
        t.reply? ≠ some (.api (.token (.error Server.ceilingRefusal)))) ∧
      ∀ x r client, (t.Did (.storage (.getRefreshToken x)) (.ok (some r)) ∨
          t.Did (.storage (.takeRefreshToken x)) (.ok (some r))) →
        t.Did (.storage (.getClient r.clientId)) (.ok (some client)) →
        r.scope.isSubset client.allowedScopes = true := by
  have hcapped := Server.capped_of_steady hnone h
  rw [Server.clients_of_steady h]
  refine ⟨fun r hr => Server.code_allowed hnone.1 h (.inl hr),
    fun g hg => (Server.deviceRegister_of_steady hnone h).allowed g (.inl hg), hcapped.tokens,
    hcapped.refresh, fun t ht => ⟨fun p entry hq hreply => ?_, fun x r client hr hclient =>
      Server.isSubset_of_did hnone h ht hr hclient⟩⟩
  -- A refusal by the ceiling would have in hand a record beyond its registration.
  obtain ⟨l, hl, hrequest⟩ := srv.summary_api (.refreshToken p) entry t.trace
  rw [← hq] at hl
  have haccepts := srv.serviceDiscipline.accepts (Discipline.follows_run h) ht hreply
  rw [show srv.serviceDiscipline.ledger t = .api l from hl] at haccepts
  obtain ⟨_, ⟨⟩, haccepts⟩ := haccepts
  simp only [Ledger.Accepts, hrequest] at haccepts
  obtain ⟨r, client, hr, hread, hid, hexceeds⟩ := haccepts.2 trivial
  have hmem : ServiceLedger.api l ∈ srv.serviceDiscipline.ledgers s :=
    List.mem_map.mpr ⟨t, ht, hl⟩
  have hknown : r ∈ l.chain.records := ChainLedger.mem_records.mpr (hr.imp_right .inl)
  obtain ⟨client', hclient', hscope⟩ := hcapped.records l hmem r hknown
  have hlookup := Server.registered_of_ledger h hmem hread
  rw [hid, hclient'] at hlookup
  rw [Option.some.inj hlookup, hexceeds] at hscope
  cases hscope

namespace Sample

/-- The scope of the small deployment and one more. -/
def administering : ScopeSet := .ofTokens (⟨"admin", by decide⟩ :: reading.tokens)

/-- A client whose defaults exceed what it is allowed. -/
def eager : World :=
  { World.initial 0 with store := { MemoryInner.empty with
    clients := Table.empty.insert { app with defaultScopes := administering } } }

/-- A device asks without naming a scope, the user approves, and the device polls and refreshes. -/
def eagerPairs : List ServiceMove :=
  [.spawn (.api (.deviceAuthorization "app" (.secret none) none) rfl)] ++ goes 0 1 ++
    [.run 0 (.decision .allow)] ++ goes 0 3 ++
    [.run 0 (.hex (some code)), .run 0 (.userCode (some "BBBBBBBB"))] ++ goes 0 2 ++
    [.spawn (.api (.approveDevice "bbbb-bbbb" "user") rfl), .run 1 (.decision .allow)] ++ goes 1 5 ++
    [.spawn (.api (.deviceToken "app" (.secret none) code) rfl), .run 2 (.decision .allow)] ++
    goes 2 6 ++ [.run 2 (.entropy (some (entropy 1)))] ++ goes 2 3

/-- Nobody asks for a code, and the registrations stay. -/
def keepsRegistrations (s : ServiceState) (a : ServiceMove) (s' : ServiceState) : Bool :=
  asksNone s a s' && decide (s'.world.store.clients.rows = s.world.store.clients.rows)

theorem steady_of_keepsRegistrations (s : ServiceState) (a : ServiceMove) (s' : ServiceState)
    (h : keepsRegistrations s a s' = true) : Steady s a s' := by
  simp only [keepsRegistrations, Bool.and_eq_true, decide_eq_true_eq] at h
  refine ⟨sealed_of_asksNone s a s' h.1, ?_⟩
  cases hs : s.world.store.clients
  cases hs' : s'.world.store.clients
  rw [Table.mk.injEq]
  have hrows := h.2
  rw [hs, hs'] at hrows
  exact hrows

end Sample

/-- The device of a client with too many defaults is given what it is allowed. -/
theorem granted_within_registration_eager :
    ∃ s, server.service.Reaches Steady (ServiceState.idle eager) s ∧
      ∃ r ∈ s.world.store.refresh, r.scope.tokens ≠ [] ∧
        Allows s.world.store.clients r.clientId r.scope := by
  obtain ⟨s, hs, r, hmem, hscope⟩ :
      ∃ s ∈ server.service.runChecked keepsRegistrations (ServiceState.idle eager) eagerPairs,
      ∃ r ∈ s.world.store.refresh.rows, r.scope.tokens ≠ [] := by
    decide +kernel
  have hreach := Semantics.reaches_of_runChecked steady_of_keepsRegistrations hs
  have hnone : eager.store.Ungranted :=
    ⟨fun _ => List.not_mem_nil, fun _ => List.not_mem_nil, fun _ => List.not_mem_nil,
      fun _ => List.not_mem_nil⟩
  exact ⟨s, hreach, r, hmem, hscope,
    (granted_within_registration hnone hreach).2.2.2.1 r hmem⟩

end OauthAs
