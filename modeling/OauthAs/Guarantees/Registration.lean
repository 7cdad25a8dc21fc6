-- SUMMARY: A deleted registration stays deleted, and an update replaces the record it was computed from.
import OauthAs.Protocol.Management

/-!
# Registrations

Updates, deletions and everything else the server does run side by side. A registration leaves the
store only by a deletion and changes only by a swap from the record an update read to what the
update made of it, so a deletion is never undone and no update is lost.
-/

namespace OauthAs

open Sample

/-- A client as a registration and the updates after it leave it. -/
inductive Server.DynamicallyRegistered (srv : Server) : Client → Prop
  | made {c : Client} (h : srv.Makes c) : DynamicallyRegistered srv c
  | updated {c c' : Client} {metadata : ClientMetadata} (h : DynamicallyRegistered srv c)
      (hrebuilds : srv.Rebuilds metadata c c') : DynamicallyRegistered srv c'

/-! ## One update -/

/-- The client has a secret exactly if its method wants one. -/
def Client.Coherent (c : Client) : Prop :=
  ∃ r, c.registration = some r ∧ c.auth.isConfidential = wantsSecret r.tokenEndpointAuthMethod

/-- The records say the same about who was registered, when and with which access token. -/
structure Client.SameRegistration (c c₀ : Client) : Prop where
  clientId : c.clientId = c₀.clientId
  tokenHash : c.registration.map DynamicRegistration.registrationAccessTokenHash =
    c₀.registration.map DynamicRegistration.registrationAccessTokenHash
  issuedAt : c.registration.map DynamicRegistration.clientIdIssuedAt =
    c₀.registration.map DynamicRegistration.clientIdIssuedAt

/-- Whether the client's method is none; a client without a dynamic registration has no method. -/
def Client.UsesNone (c : Client) : Prop :=
  ∃ r, c.registration = some r ∧ r.tokenEndpointAuthMethod = authMethodNone

/-- The verifier of an updated client: a new one, the one it had, or none. -/
theorem Server.updatedAuth_spec (srv : Server) {c : Client} {wants : Bool} {secret : Option String}
    (hsecret : secret.isSome = (wants && !c.auth.isConfidential)) :
    (srv.updatedAuth c wants secret).isConfidential = wants ∧
      (c.auth.isConfidential = wants → srv.updatedAuth c wants secret = c.auth) := by
  cases secret with
  | some secret =>
    -- A secret is made only for a client that had none.
    obtain ⟨rfl, hpublic⟩ : wants = true ∧ c.auth.isConfidential = false := by
      simpa using hsecret.symm
    refine ⟨rfl, fun hsame => ?_⟩
    cases hpublic.symm.trans hsame
  | none =>
    cases wants with
    | true =>
      have hconfidential : c.auth.isConfidential = true := by simpa using hsecret
      exact ⟨hconfidential, fun _ => rfl⟩
    | false =>
      refine ⟨rfl, fun hsame => ?_⟩
      cases hauth : c.auth with
      | publicClient => rfl
      | _ =>
        rw [hauth] at hsame
        cases hsame

namespace Server.Rebuilds

variable {srv : Server} {metadata : ClientMetadata} {c c' : Client}

theorem same (h : srv.Rebuilds metadata c c') : c'.SameRegistration c := by
  obtain ⟨config, registration, registered, secret, expiresAt, -, hregistration, -, -, rfl⟩ := h
  refine ⟨rfl, ?_, ?_⟩ <;> rw [hregistration] <;> rfl

theorem auth_eq (h : srv.Rebuilds metadata c c') :
    ∃ r, c'.registration = some r ∧
      c'.auth.isConfidential = wantsSecret r.tokenEndpointAuthMethod ∧
      (c.auth.isConfidential = c'.auth.isConfidential → c'.auth = c.auth) := by
  obtain ⟨config, registration, registered, secret, expiresAt, -, -, -, hsecret, rfl⟩ := h
  obtain ⟨hwants, hkeeps⟩ := srv.updatedAuth_spec hsecret
  exact ⟨_, rfl, hwants, fun hsame => hkeeps (hsame.trans hwants)⟩

theorem coherent (h : srv.Rebuilds metadata c c') : c'.Coherent := by
  obtain ⟨r, hr, hmethod, -⟩ := h.auth_eq
  exact ⟨r, hr, hmethod⟩

end Server.Rebuilds

theorem Server.DynamicallyRegistered.coherent {srv : Server} {c : Client}
    (h : srv.DynamicallyRegistered c) : c.Coherent := by
  cases h with
  | made h =>
    obtain ⟨config, metadata, registered, clientId, secret, issuedAt, expiresAt, token, -, -,
      hsecret, rfl⟩ := h
    refine ⟨_, rfl, ?_⟩
    cases secret <;> exact hsecret
  | updated h hrebuilds => exact hrebuilds.coherent

theorem Client.Coherent.usesNone_iff {c : Client} (h : c.Coherent) :
    c.UsesNone ↔ c.auth.isConfidential = false := by
  obtain ⟨r, hr, hauth⟩ := h
  rw [hauth]
  constructor
  · rintro ⟨r', hr', hmethod⟩
    cases hr.symm.trans hr'
    rw [wantsSecret, hmethod]
    exact bne_self_eq_false _
  · intro hwants
    refine ⟨r, hr, ?_⟩
    simpa [wantsSecret] using hwants

/-- The verifier changes only where the method moves to or from none. -/
theorem Server.Rebuilds.usesNone_of_auth_ne {srv : Server} {metadata : ClientMetadata}
    {c c' : Client} (h : srv.Rebuilds metadata c c') (hc : c.Coherent) (hne : c'.auth ≠ c.auth) :
    c'.UsesNone ↔ ¬ c.UsesNone := by
  obtain ⟨r, hr, hmethod, hkeeps⟩ := h.auth_eq
  rw [h.coherent.usesNone_iff, hc.usesNone_iff]
  have hmoved : c.auth.isConfidential ≠ c'.auth.isConfidential := fun hsame => hne (hkeeps hsame)
  cases hbefore : c.auth.isConfidential <;> cases hafter : c'.auth.isConfidential <;>
    simp [hbefore, hafter] at hmoved ⊢

/-! ## One row of the store -/

/-- What a call does to the row of a client: nothing, or it deletes the row or swaps it. -/
inductive RowTurn (id : ClientId) (g g' : MemoryInner) : StorageOp → Prop
  | keeps {op : StorageOp} (row : g'.clients.lookup id = g.clients.lookup id) : RowTurn id g g' op
  | deletes {window : RevocationWindow} (row : g'.clients.lookup id = none) :
      RowTurn id g g' (.deleteClient id window)
  | swaps {expected updated : Client} (before : g.clients.lookup id = some expected)
      (after : g'.clients.lookup id = some updated) :
      RowTurn id g g' (.compareAndSwapClient expected updated)

theorem rowTurn_exec {id : ClientId} {g : MemoryInner} {op : StorageOp}
    (hput : ∀ client, op = .putClient client → client.clientId ≠ id) :
    RowTurn id g (op.exec g).2 op := by
  rcases StorageOp.exec_cases g op with hsame | ⟨-, hwrites⟩
  · rw [hsame]
    exact .keeps rfl
  generalize (op.exec g).2 = g' at hwrites
  cases hwrites with
  | putClient client =>
    refine .keeps ?_
    show (g.clients.insert client).lookup id = _
    rw [Table.lookup_insert, if_neg (hput client rfl)]
  | @compareAndSwapClient expected updated found =>
    by_cases hid : updated.clientId = id
    · subst hid
      exact .swaps found (Table.lookup_insert_self _ _)
    · refine .keeps ?_
      rw [Table.lookup_insert, if_neg hid]
  | @deleteClient deleted window named =>
    by_cases hid : id = deleted
    · subst hid
      exact .deletes (Table.lookup_erase_self g.clients id)
    · exact .keeps ((Table.lookup_erase g.clients deleted id).trans (if_neg hid))
  | _ => exact .keeps rfl

/-- A deletion that is answered leaves no row. -/
theorem lookup_of_deleted {id : ClientId} {g g' : MemoryInner} {window : RevocationWindow}
    {existed : Bool} (h : (StorageOp.deleteClient id window).exec g = (.ok existed, g')) :
    g'.clients.lookup id = none := by
  by_cases hempty : id.isEmpty = true
  · obtain ⟨e, he⟩ := StorageOp.rejectEmptyScope_of_isEmpty "client_id" hempty
    simp only [StorageOp.exec, MemoryInner.deleteClient, he] at h
    cases h
  · have hid : id.isEmpty = false := by simpa using hempty
    have hstore := (congrArg Prod.snd h).symm.trans (StorageOp.exec_deleteClient hid)
    rw [show g' = _ from hstore]
    exact Table.lookup_erase_self g.clients id

/-- A swap that is answered with success replaced what was expected. -/
theorem lookup_of_swapped {g g' : MemoryInner} {expected updated : Client}
    (h : (StorageOp.compareAndSwapClient expected updated).exec g = (.ok true, g')) :
    g.clients.lookup updated.clientId = some expected ∧
      g'.clients.lookup updated.clientId = some updated := by
  simp only [StorageOp.exec, StorageOp.succeeding, MemoryInner.compareAndSwapClient] at h
  cases hrow : g.clients.lookup updated.clientId with
  | none =>
    rw [hrow] at h
    cases h
  | some current =>
    simp only [hrow] at h
    split at h
    · rename_i hcurrent
      cases h
      exact ⟨congrArg some hcurrent, Table.lookup_insert_self _ _⟩
    · cases h

/-! ## Runs -/

/-- Nobody puts the client into the store afresh. -/
def PutsNone (id : ClientId) (s : ManagementState) (a : ManagementMove) (_ : ManagementState) :
    Prop :=
  ∀ i c t client, a = .run i c → s.threads[i]? = some t →
    t.call? = some (.storage (.putClient client)) → client.clientId ≠ id

namespace Server

variable {srv : Server} {id : ClientId} {w : World} {s s' : ManagementState} {a : ManagementMove}
variable {c : Client} {t : ManagementCall}

/-- A step changes the row only by a call that a thread makes. -/
theorem row_step (h : srv.management.step s a = some s') (hok : PutsNone id s a s') :
    s'.world.store.clients.lookup id = s.world.store.clients.lookup id ∨
      ∃ t op k, t ∈ s.threads ∧ t.prog = .call (.storage op) k ∧
        RowTurn id s.world.store s'.world.store op := by
  rcases World.store_of_step rfl rfl h with hsame | ⟨now, -, hsweep⟩ |
    ⟨i, c, t, op, k, r, rfl, hi, hprog, hexec, -⟩
  · exact .inl (by rw [hsame])
  · left
    rw [hsweep, (StorageOp.frame_exec (.sweepExpired now)).clients rfl]
  · refine .inr ⟨t, op, k, List.mem_of_getElem? hi, hprog, ?_⟩
    have hstore : (op.exec s.world.store).2 = s'.world.store := congrArg Prod.snd hexec
    rw [← hstore]
    refine rowTurn_exec fun client hop => hok i c t client rfl hi ?_
    subst hop
    exact Thread.call?_eq_some.mpr ⟨k, hprog⟩

/-- A row that is gone does not come back. -/
theorem absent_step (h : srv.management.step s a = some s') (hok : PutsNone id s a s')
    (habsent : s.world.store.clients.lookup id = none) :
    s'.world.store.clients.lookup id = none := by
  rcases row_step h hok with hsame | ⟨t, op, k, -, -, hturn⟩
  · exact hsame.trans habsent
  · cases hturn with
    | keeps row => exact row.trans habsent
    | deletes row => exact row
    | swaps before after => cases habsent.symm.trans before

theorem absent_reaches (h : srv.management.Reaches (PutsNone id) s s')
    (habsent : s.world.store.clients.lookup id = none) :
    s'.world.store.clients.lookup id = none :=
  h.invariant (I := fun s => s.world.store.clients.lookup id = none)
    (fun _ _ _ habsent hstep hok => absent_step hstep hok habsent) habsent

/-- A thread swaps a registration only in an update of it, from what it read. -/
theorem swaps_of_allowed {l : ManagementLedger} {expected updated : Client}
    (h : l.Allowed srv (.storage (.compareAndSwapClient expected updated))) :
    ∃ metadata, srv.Rebuilds metadata expected updated := by
  cases l with
  | service l => cases l <;> cases h
  | managing q past =>
    obtain ⟨-, -, metadata, -, -, hrebuilds⟩ := h
    exact ⟨metadata, hrebuilds⟩

/-- The row stays, goes or is rebuilt. -/
theorem rebuilds_step (hF : srv.managementDiscipline.Follows s)
    (h : srv.management.step s a = some s') (hok : PutsNone id s a s') {c' : Client}
    (hc : s.world.store.clients.lookup id = some c)
    (hc' : s'.world.store.clients.lookup id = some c') :
    c' = c ∨ ∃ metadata, srv.Rebuilds metadata c c' := by
  rcases row_step h hok with hsame | ⟨t, op, k, ht, hprog, hturn⟩
  · exact .inl (Option.some.inj (hc'.symm.trans (hsame.trans hc)))
  · cases hturn with
    | keeps row => exact .inl (Option.some.inj (hc'.symm.trans (row.trans hc)))
    | deletes row => cases row.symm.trans hc'
    | swaps before after =>
      cases hc.symm.trans before
      cases hc'.symm.trans after
      exact .inr (swaps_of_allowed (srv.managementDiscipline.allowed_of_call hF ht hprog))

/-- Whatever is stored is the registration there was, as updates have left it. -/
theorem registered_reaches {c₀ : Client} (hc₀ : srv.DynamicallyRegistered c₀)
    (hstored : w.store.clients.lookup id = some c₀)
    (h : srv.management.Reaches (PutsNone id) ⟨w, []⟩ s)
    (hc : s.world.store.clients.lookup id = some c) :
    srv.DynamicallyRegistered c ∧ c.SameRegistration c₀ := by
  induction h generalizing c with
  | refl =>
    cases hstored.symm.trans hc
    exact ⟨hc₀, rfl, rfl, rfl⟩
  | @tail s s' hr hlast ih =>
    obtain ⟨a, hstep, hok⟩ := hlast
    cases hbefore : s.world.store.clients.lookup id with
    | none => cases (absent_step hstep hok hbefore).symm.trans hc
    | some b =>
      obtain ⟨hb, hsame⟩ := ih hbefore
      have hF := srv.managementDiscipline.follows_run hr
      rcases rebuilds_step hF hstep hok hbefore hc with rfl | ⟨metadata, hrebuilds⟩
      · exact ⟨hb, hsame⟩
      · have hnew := hrebuilds.same
        exact ⟨.updated hb hrebuilds, hnew.clientId.trans hsame.clientId,
          hnew.tokenHash.trans hsame.tokenHash, hnew.issuedAt.trans hsame.issuedAt⟩

/-- A deletion that was reported has been made, and the row is gone. -/
theorem absent_of_deleted (h : srv.management.Reaches (PutsNone id) ⟨w, []⟩ s) (ht : t ∈ s.threads)
    {token : String} (hq : t.request = .delete id token)
    (hreply : t.reply? = some (.deleted (.ok ()))) : s.world.store.clients.lookup id = none := by
  have haccepts := srv.managementDiscipline.accepts (Discipline.follows_run h) ht hreply
  rw [Discipline.ledger, hq, summary_managing srv (by rintro _ _ ⟨⟩)] at haccepts
  obtain ⟨window, existed, hdid⟩ := haccepts
  obtain ⟨i, hi⟩ := List.mem_iff_getElem?.mp ht
  obtain ⟨before, after, htrace⟩ := List.append_of_mem hdid
  obtain ⟨moment⟩ := h.moment hi htrace
  obtain ⟨hexec, -, -⟩ := World.perform_storage moment.performs
  exact absent_reaches moment.leads (lookup_of_deleted hexec)

/-- An update that was reported swapped the record it had read, at some moment of the run. -/
theorem swapped_of_updated (h : srv.management.Reaches (PutsNone id) ⟨w, []⟩ s) {i : Nat}
    (hi : s.threads[i]? = some t) {token : String} {metadata : ClientMetadata}
    (hq : t.request = .update id token metadata) {information : ClientInformation}
    (hreply : t.reply? = some (.information (.ok information))) :
    ∃ (expected updated : Client) (before : Past) (m : srv.management.Moment (PutsNone id) ⟨w, []⟩ s
        i t before (.storage (.compareAndSwapClient expected updated)) (.ok true)),
      before.Did (.storage (.getClient id)) (.ok (some expected)) ∧
      srv.Rebuilds metadata expected updated ∧ updated.clientId = id ∧
      t.Did (.storage (.compareAndSwapClient expected updated)) (.ok true) ∧
      m.prior.world.store.clients.lookup id = some expected ∧
      m.later.world.store.clients.lookup id = some updated := by
  have ht := List.mem_of_getElem? hi
  have haccepts := srv.managementDiscipline.accepts (Discipline.follows_run h) ht hreply
  rw [Discipline.ledger, hq, summary_managing srv (by rintro _ _ ⟨⟩)] at haccepts
  obtain ⟨expected, updated, hdid⟩ := haccepts
  obtain ⟨before, after, htrace⟩ := List.append_of_mem hdid
  -- The call was allowed by what the thread had done before it.
  have hallowed := (srv.managementDiscipline.allowed_of_trace h ht htrace).1
  rw [hq, summary_managing srv (by rintro _ _ ⟨⟩)] at hallowed
  obtain ⟨_, _, _, ⟨⟩, hread, hrebuilds⟩ := hallowed
  obtain ⟨moment⟩ := h.moment hi htrace
  obtain ⟨hexec, -, -⟩ := World.perform_storage moment.performs
  obtain ⟨hbefore, hafter⟩ := lookup_of_swapped hexec
  -- What was read under the id has the id.
  have hid : updated.clientId = id := by
    rw [hrebuilds.same.clientId]
    obtain ⟨before₁, after₁, htrace₁⟩ := List.append_of_mem hread
    rw [htrace₁, List.append_assoc] at htrace
    obtain ⟨moment₁⟩ := h.moment hi htrace
    obtain ⟨hexec₁, -, -⟩ := World.perform_storage moment₁.performs
    exact Table.key_of_lookup (Except.ok.inj (congrArg Prod.fst hexec₁))
  rw [hid] at hbefore hafter
  exact ⟨expected, updated, before, moment, hread, hrebuilds, hid, hdid, hbefore, hafter⟩

/-- While there is no row, no swap succeeds: a thread that has swapped had done so before. -/
theorem swapped_before (h : srv.management.Reaches (PutsNone id) s s')
    (habsent : s.world.store.clients.lookup id = none) {i : Nat} (hi : s'.threads[i]? = some t)
    {expected updated : Client} (hid : updated.clientId = id)
    (hdid : t.Did (.storage (.compareAndSwapClient expected updated)) (.ok true)) :
    ∃ t₀, s.threads[i]? = some t₀ ∧
      t₀.Did (.storage (.compareAndSwapClient expected updated)) (.ok true) := by
  induction h generalizing t with
  | refl => exact ⟨t, hi, hdid⟩
  | @tail s₁ s₂ hr hlast ih =>
    obtain ⟨a, hstep, hok⟩ := hlast
    have hrow := absent_reaches hr habsent
    rcases Semantics.did_of_step hstep hi hdid with ⟨u, hold, hdid⟩ | ⟨u, c, k, -, -, -, hperform⟩
    · exact ih hold hdid
    · obtain ⟨hexec, -, -⟩ := World.perform_storage hperform
      have hbefore := (lookup_of_swapped hexec).1
      rw [hid] at hbefore
      cases hrow.symm.trans hbefore

/-- What a registration puts into the store is a client as registrations make it. -/
theorem makes_of_did {ok} (h : srv.management.Reaches ok ⟨w, []⟩ s) (ht : t ∈ s.threads)
    {metadata : ClientMetadata} {token : Option String} (hq : t.request = .register metadata token)
    (hdid : t.Did (.storage (.putClient c)) (.ok ())) : srv.Makes c := by
  obtain ⟨before, after, htrace⟩ := List.append_of_mem hdid
  have hallowed := (srv.managementDiscipline.allowed_of_trace h ht htrace).1
  rw [hq, summary_managing srv (by rintro _ _ ⟨⟩)] at hallowed
  exact hallowed

end Server

/-- Deleting a registration is final, an update that succeeds replaced the record it was computed
from, and updates keep the id, the access token and the date of a registration, and its verifier
but where the method moves to or from none. -/
theorem registration_final_and_not_lost {srv : Server} {w : World} {id : ClientId} {c₀ : Client}
    (hc₀ : srv.DynamicallyRegistered c₀) (hstored : w.store.clients.lookup id = some c₀)
    {s : ManagementState} (h : srv.management.Reaches (PutsNone id) ⟨w, []⟩ s) :
    -- After a deletion there is no row, and no swap succeeds any more.
    (∀ t ∈ s.threads, ∀ token, t.request = .delete id token →
      t.reply? = some (.deleted (.ok ())) →
      ∀ s' : ManagementState, srv.management.Reaches (PutsNone id) s s' →
        s'.world.store.clients.lookup id = none ∧
        ∀ (i : Nat) (u : ManagementCall) token metadata information, s'.threads[i]? = some u →
          u.request = .update id token metadata →
          u.reply? = some (.information (.ok information)) →
          ∃ (v : ManagementCall) (expected updated : Client), s.threads[i]? = some v ∧
            v.Did (.storage (.compareAndSwapClient expected updated)) (.ok true)) ∧
    -- An update replaces what it read by what it makes of it.
    (∀ (i : Nat) (t : ManagementCall) token metadata information, s.threads[i]? = some t →
      t.request = .update id token metadata → t.reply? = some (.information (.ok information)) →
      ∃ (expected updated : Client) (before : Past)
        (m : srv.management.Moment (PutsNone id) ⟨w, []⟩ s i t before
          (.storage (.compareAndSwapClient expected updated)) (.ok true)),
        before.Did (.storage (.getClient id)) (.ok (some expected)) ∧
        srv.Rebuilds metadata expected updated ∧
        m.prior.world.store.clients.lookup id = some expected ∧
        m.later.world.store.clients.lookup id = some updated) ∧
    (∀ c, s.world.store.clients.lookup id = some c → c.SameRegistration c₀) ∧
    ∀ a (s' : ManagementState) c c', srv.management.step s a = some s' → PutsNone id s a s' →
      s.world.store.clients.lookup id = some c → s'.world.store.clients.lookup id = some c' →
      c'.auth ≠ c.auth → (c'.UsesNone ↔ ¬ c.UsesNone) := by
  refine ⟨?_, ?_, fun c hc => (Server.registered_reaches hc₀ hstored h hc).2, ?_⟩
  · intro t ht token hq hreply s' h'
    have habsent := Server.absent_of_deleted h ht hq hreply
    refine ⟨Server.absent_reaches h' habsent, fun i u token' metadata information hi hq' hreply' => ?_⟩
    obtain ⟨expected, updated, -, -, -, -, hid, hdid, -⟩ :=
      Server.swapped_of_updated (h.trans h') hi hq' hreply'
    obtain ⟨v, hv, hdid'⟩ := Server.swapped_before h' habsent hi hid hdid
    exact ⟨v, expected, updated, hv, hdid'⟩
  · intro i t token metadata information hi hq hreply
    obtain ⟨expected, updated, before, m, hread, hrebuilds, -, -, hbefore, hafter⟩ :=
      Server.swapped_of_updated h hi hq hreply
    exact ⟨expected, updated, before, m, hread, hrebuilds, hbefore, hafter⟩
  · intro a s' c c' hstep hok hc hc' hne
    have hF := srv.managementDiscipline.follows_run h
    rcases Server.rebuilds_step hF hstep hok hc hc' with rfl | ⟨metadata, hrebuilds⟩
    · exact absurd rfl hne
    · exact hrebuilds.usesNone_of_auth_ne
        (Server.registered_reaches hc₀ hstored h hc).1.coherent hne

namespace Sample

/-- A deployment that lets clients register. -/
def enrolling : Server :=
  ⟨{ config with registration := some .new }, host⟩

/-- A client that uses no grant yet. -/
def unassuming (method : String) : ClientMetadata :=
  ⟨[], some method, some [], none, none, none, none⟩

def clientName : String := (hex 16 1).text

def accessToken : String := (hex 32 2).text

def stepsOn (i n : Nat) : List ManagementMove := List.replicate n (.run i .none)

/-- A client without a secret registers. -/
def registersItself : List ManagementMove :=
  [.spawn (.register (unassuming authMethodNone) none), .run 0 (.decision .allow),
    .run 0 (.registration .allow), .run 0 .none, .run 0 (.hex (some clientName)),
    .run 0 (.hex (some accessToken))] ++ stepsOn 0 3

def informed : ManagementReply → Bool
  | .information (.ok _) => true
  | _ => false

/-- Two updates to a method with a secret and a deletion have all read the registration when one
of the updates, the deletion and the other update go through in this order. -/
def updatesAndDeletes : List ManagementMove :=
  [.spawn (.update clientName accessToken (unassuming authMethodBasic)),
    .spawn (.update clientName accessToken (unassuming authMethodPost)),
    .spawn (.delete clientName accessToken),
    .run 0 (.decision .allow), .run 1 (.decision .allow), .run 2 (.decision .allow)] ++
    stepsOn 0 2 ++ stepsOn 1 2 ++ stepsOn 2 2 ++
    [.run 0 (.registration .allow), .run 1 (.registration .allow),
      .run 0 (.hex (some (hex 32 3).text)), .run 1 (.hex (some (hex 32 4).text))] ++
    stepsOn 0 2 ++ stepsOn 2 3 ++ stepsOn 1 1

/-- Nobody puts the client into the store. -/
def putsNone (s : ManagementState) : ManagementMove → ManagementState → Bool
  | .run i _, _ => (s.threads[i]?.bind Thread.call?).all fun
    | .storage (.putClient client) => client.clientId != clientName
    | _ => true
  | _, _ => true

theorem putsNone_of (s : ManagementState) (a : ManagementMove) (s' : ManagementState)
    (h : putsNone s a s' = true) : PutsNone clientName s a s' := by
  rintro i c t client rfl hi hcall
  simpa [putsNone, hi, hcall] using h

end Sample

/-- One update and the deletion have gone through, and the other update has not. -/
theorem registration_final_and_not_lost_raced :
    ∃ (w : World) (c₀ : Client) (s : ManagementState) (t u : ManagementCall)
      (information : ClientInformation), w.store.clients.lookup clientName = some c₀ ∧
      enrolling.management.Reaches (PutsNone clientName) ⟨w, []⟩ s ∧
      t ∈ s.threads ∧ t.request = .delete clientName accessToken ∧
      t.reply? = some (.deleted (.ok ())) ∧ s.world.store.clients.lookup clientName = none ∧
      s.threads[0]? = some u ∧
      u.request = .update clientName accessToken (unassuming authMethodBasic) ∧
      u.reply? = some (.information (.ok information)) ∧
      ∃ expected updated, enrolling.Rebuilds (unassuming authMethodBasic) expected updated := by
  obtain ⟨s₀, hs₀, ⟨t₀, ht₀, hq₀, c₀, hc₀, hdid⟩, s, hs, ⟨t, ht, hq, hreply⟩, u, hu, hq', reply,
      hreply', hinformation⟩ : ∃ s₀ ∈ enrolling.management.run ⟨.initial 0, []⟩ registersItself,
      (∃ t ∈ s₀.threads[0]?, t.request = .register (unassuming authMethodNone) none ∧
        ∃ c ∈ s₀.world.store.clients.lookup clientName,
          t.Did (.storage (.putClient c)) (.ok ())) ∧
      ∃ s ∈ enrolling.management.runChecked putsNone ⟨s₀.world, []⟩ updatesAndDeletes,
        (∃ t ∈ s.threads[2]?, t.request = .delete clientName accessToken ∧
          t.reply? = some (.deleted (.ok ()))) ∧
        ∃ u ∈ s.threads[0]?,
          u.request = .update clientName accessToken (unassuming authMethodBasic) ∧
          ∃ reply ∈ u.reply?, informed reply = true := by
    decide +kernel
  have hmade : enrolling.Makes c₀ :=
    Server.makes_of_did (Semantics.reaches_of_run hs₀) (List.mem_of_getElem? ht₀) hq₀ hdid
  have hreach := Semantics.reaches_of_runChecked putsNone_of hs
  have hmem := List.mem_of_getElem? ht
  obtain ⟨information, rfl⟩ : ∃ information, reply = .information (.ok information) := by
    unfold informed at hinformation
    split at hinformation
    · exact ⟨_, rfl⟩
    · cases hinformation
  obtain ⟨hfinal, hupdates, -⟩ := registration_final_and_not_lost (.made hmade) hc₀ hreach
  obtain ⟨expected, updated, -, -, -, hrebuilds, -⟩ := hupdates 0 u _ _ _ hu hq' hreply'
  exact ⟨s₀.world, c₀, s, t, u, information, hc₀, hreach, hmem, hq, hreply,
    (hfinal t hmem _ hq hreply s .refl).1, hu, hq', hreply', expected, updated, hrebuilds⟩

end OauthAs
