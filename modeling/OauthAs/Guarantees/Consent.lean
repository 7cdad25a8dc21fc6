-- SUMMARY: Consents: one for each client and subject, never back once withdrawn, and only ever widened.
import OauthAs.Protocol.Fresh

/-!
# Consents

A consent is written by one storage call, which compares what the pair holds with what the request
read. It creates a record under an identifier drawn for it, when the pair has none, or widens the
one there is. An identifier is drawn once and a request creates at most one consent, so that a
consent that has left the store cannot come back.
-/

namespace OauthAs

variable {c : Call} {x : String}

/-! ## One call -/

section Stored
variable {srv : Server} {l : Ledger} {op : StorageOp} {g g' : MemoryInner}

/-- A consent created where the pair had none. -/
structure Ledger.CreatesConsent (l : Ledger) (g : MemoryInner) (u : ConsentRecord) : Prop where
  new : l.identifier = some u.consentId
  once : l.consents.created = none
  tidy : u.Tidy
  none : g.findConsent u.clientId u.subject = none

/-- A stored consent written again, covering at least as much. -/
structure MemoryInner.WidensConsent (g : MemoryInner) (e u : ConsentRecord) : Prop where
  stored : e ∈ g.consents
  widens : u.Widens e
  tidy : e.Tidy → u.Tidy

/-- What a call does to the consents: it only removes some, or creates one, or widens one. -/
theorem Ledger.consents_stored {a : op.Result} (may : l.MayStore srv op)
    (hexec : op.exec g = (.ok a, g')) :
    (∀ c ∈ g'.consents, c ∈ g.consents) ∨
      (∃ u, l.CreatesConsent g u ∧ g'.consents = g.consents.insert u ∧
        (l.stored op a).consents.created = some u.consentId) ∨
      ∃ e u, g.WidensConsent e u ∧ g'.consents = g.consents.insert u := by
  obtain ⟨hframe, -⟩ := StorageOp.exec_writes hexec
  cases op with
  | putConsent record => exact may.elim
  | compareAndSwapConsent expected updated =>
    simp only [StorageOp.exec, StorageOp.succeeding, MemoryInner.compareAndSwapConsent] at hexec
    split at hexec
    · rename_i hfind
      cases hexec
      refine .inr ?_
      cases may with
      | create new first once tidy =>
        exact .inl ⟨updated, ⟨new, once, tidy, hfind⟩, rfl, by simp [stored, ConsentLedger.swap]⟩
      | widen widens tidy =>
        exact .inr ⟨_, updated, ⟨(Table.mem_of_find? hfind).1, widens, tidy⟩, rfl⟩
    · cases hexec
      exact .inl fun c hc => hc
  | _ => exact .inl fun c hc => (hframe.consents rfl).mem hc

/-- A call names a created consent only by creating it. -/
theorem Ledger.created_stored {a : op.Result} (may : l.MayStore srv op)
    (h : (l.stored op a).consents.created = some x) :
    l.consents.created = some x ∨ l.identifier = some x := by
  cases op with
  | compareAndSwapConsent expected updated =>
    cases may with
    | create new first once tidy =>
      simp only [stored, ConsentLedger.swap] at h
      split at h
      · exact .inr (new.trans h)
      · exact .inl h
    | widen widens tidy => exact .inl (by simpa [stored, ConsentLedger.swap] using h)
  | _ => first | exact .inl h | (cases a <;> exact .inl h)

end Stored

/-! ## One consent for each pair -/

/-- Each client and subject have at most one consent. -/
def MemoryInner.OnePerPair (g : MemoryInner) : Prop :=
  ∀ a ∈ g.consents, ∀ b ∈ g.consents, a.clientId = b.clientId → a.subject = b.subject → a = b

namespace MemoryInner.OnePerPair

variable {g g' : MemoryInner} {e u : ConsentRecord}

theorem of_subset (h : g.OnePerPair) (hless : ∀ c ∈ g'.consents, c ∈ g.consents) : g'.OnePerPair :=
  fun a ha b hb => h a (hless a ha) b (hless b hb)

/-- A consent takes the place of the one its pair had. -/
theorem insert (h : g.OnePerPair) (hset : g'.consents = g.consents.insert u)
    (hsole : ∀ c ∈ g.consents, c.clientId = u.clientId → c.subject = u.subject →
      c.consentId = u.consentId) : g'.OnePerPair := by
  unfold OnePerPair
  rw [hset]
  intro a ha b hb hclient hsubject
  rcases Table.mem_insert.mp ha with rfl | ⟨hold, hne⟩ <;>
    rcases Table.mem_insert.mp hb with rfl | ⟨hold', hne'⟩
  · rfl
  · exact absurd (hsole b hold' hclient.symm hsubject.symm) hne'
  · exact absurd (hsole a hold hclient hsubject) hne
  · exact h a hold b hold' hclient hsubject

theorem create (h : g.OnePerPair) (hnone : g.findConsent u.clientId u.subject = none)
    (hset : g'.consents = g.consents.insert u) : g'.OnePerPair := by
  refine h.insert hset fun c hc hclient hsubject => ?_
  have := Table.find?_eq_none.mp hnone c hc
  simp [hclient, hsubject] at this

theorem widen (h : g.OnePerPair) (hstored : e ∈ g.consents) (hwidens : u.Widens e)
    (hset : g'.consents = g.consents.insert u) : g'.OnePerPair := by
  refine h.insert hset fun c hc hclient hsubject => ?_
  rw [h c hc e hstored (hclient.trans hwidens.client) (hsubject.trans hwidens.subject), hwidens.id]

end MemoryInner.OnePerPair

/-! ## Along a run -/

section Run
variable {srv : Server} {w w' : World} {ls ls' : List Ledger}

theorem consents_turns (ht : srv.Turns w ls w' ls') :
    (∀ c ∈ w'.store.consents, c ∈ w.store.consents) ∨
      (∃ l ∈ ls, ∃ l' ∈ ls', ∃ u, l.CreatesConsent w.store u ∧
        w'.store.consents = w.store.consents.insert u ∧ l'.consents.created = some u.consentId) ∨
      ∃ e u, w.store.WidensConsent e u ∧ w'.store.consents = w.store.consents.insert u := by
  cases ht.changes with
  | stored i l op a g hi may exec =>
    rcases Ledger.consents_stored may exec with hless | ⟨u, hcreates, hset, hcreated⟩ | hwidens
    · exact .inl hless
    · exact .inr (.inl ⟨l, List.mem_of_getElem? hi, _, mem_set_self hi, u, hcreates, hset, hcreated⟩)
    · exact .inr (.inr hwidens)
  | quiet now w' ls' store ledgers => exact .inl fun c hc => (store.consents rfl).mem hc

/-- Which consents there are, and who created them. -/
structure ConsentCustody (w : World) (ls : List Ledger) : Prop where
  fresh : FreshStrings w ls
  drawn : ∀ l ∈ ls, ∀ x, l.consents.created = some x → x ∈ l.drawn
  created : ∀ c ∈ w.store.consents, ∃ l ∈ ls, l.consents.created = some c.consentId
  unique : w.store.OnePerPair
  tidy : ∀ c ∈ w.store.consents, c.Tidy

/-- Some request created a consent under this identifier, stored or not. -/
def Created (ls : List Ledger) (x : String) : Prop := ∃ l ∈ ls, l.consents.created = some x

theorem Created.turns (h : Created ls x) (ht : srv.Turns w ls w' ls') : Created ls' x := by
  exact ht.exists_mono (fun hg => hg.created x) h

namespace ConsentCustody

theorem start (clock : SystemTime) : ConsentCustody (.initial clock) [] :=
  ⟨⟨by simp, fun _ _ _ _ _ h => nomatch h⟩, by simp, fun _ h => (Table.mem_empty h).elim,
    fun _ h => (Table.mem_empty h).elim, fun _ h => (Table.mem_empty h).elim⟩

/-- An identifier that was used for a consent is not in the hands of a request that has still to
create one. -/
theorem not_created (h : ConsentCustody w ls) {l : Ledger} {u : ConsentRecord} (hl : l ∈ ls)
    (hcreates : l.CreatesConsent w.store u) : ¬ Created ls u.consentId := by
  rintro ⟨m, hm, hcreated⟩
  have hmine := (h.fresh.accounted l hl).identifier _ hcreates.new
  cases h.fresh.eq_of_drawn hl hm hmine (h.drawn m hm _ hcreated)
  exact nomatch hcreates.once.symm.trans hcreated

theorem drawn_turns (h : ConsentCustody w ls) (ht : srv.Turns w ls w' ls') :
    ∀ l ∈ ls', ∀ x, l.consents.created = some x → x ∈ l.drawn := by
  intro l' hl' x hx
  cases ht.turned hl' with
  | same l hl => exact h.drawn l' hl x hx
  | start q => exact nomatch hx
  | stored l op a hl may exec =>
    rw [(Ledger.stored_keeps l op a).1]
    rcases Ledger.created_stored may hx with hold | hnew
    · exact h.drawn l hl x hold
    · exact (h.fresh.accounted l hl).identifier x hnew
  | draws l e hl first fresh => exact List.mem_append_right _ (h.drawn l hl x hx)
  | aside l l' hl aside => exact aside.grows.drawn (h.drawn l hl x (aside.consents ▸ hx))

/-- The step lemma: consents only disappear, or one is created or widened. -/
theorem step (h : ConsentCustody w ls) (hm : srv.Moves w ls w' ls') : ConsentCustody w' ls' := by
  have ht := hm.turns
  have hcreated : ∀ c ∈ w.store.consents, Created ls' c.consentId :=
    fun c hc => Created.turns (h.created c hc) ht
  rcases consents_turns ht with hless | ⟨l, hl, l', hl', u, hcreates, hset, hnew⟩ | ⟨e, u, hwidens, hset⟩
  · exact ⟨h.fresh.step hm, h.drawn_turns ht, fun c hc => hcreated c (hless c hc),
      MemoryInner.OnePerPair.of_subset h.unique hless, fun c hc => h.tidy c (hless c hc)⟩
  · refine ⟨h.fresh.step hm, h.drawn_turns ht, ?_,
      MemoryInner.OnePerPair.create h.unique hcreates.none hset, ?_⟩ <;> rw [hset]
    · exact Table.forall_insert ⟨l', hl', hnew⟩ hcreated
    · exact Table.forall_insert hcreates.tidy h.tidy
  · refine ⟨h.fresh.step hm, h.drawn_turns ht, ?_,
      MemoryInner.OnePerPair.widen h.unique hwidens.stored hwidens.widens hset, ?_⟩ <;> rw [hset]
    · refine Table.forall_insert ?_ hcreated
      rw [hwidens.widens.id]
      exact hcreated e hwidens.stored
    · exact Table.forall_insert (hwidens.tidy (h.tidy e hwidens.stored)) h.tidy

/-- A consent stored under an identifier that was in use before is the one that was stored under
it, or widens it. -/
theorem widens_turns (h : ConsentCustody w ls) (ht : srv.Turns w ls w' ls') {c : ConsentRecord}
    (hused : Created ls c.consentId) (hc : c ∈ w'.store.consents) :
    ∃ e ∈ w.store.consents, c.Widens e := by
  rcases consents_turns ht with hless | ⟨l, hl, l', hl', u, hcreates, hset, hnew⟩ | ⟨e, u, hwidens, hset⟩
  · exact ⟨c, hless c hc, .refl c⟩
  · rw [hset] at hc
    rcases Table.mem_insert.mp hc with rfl | ⟨hold, -⟩
    · exact absurd hused (h.not_created hl hcreates)
    · exact ⟨c, hold, .refl c⟩
  · rw [hset] at hc
    rcases Table.mem_insert.mp hc with rfl | ⟨hold, -⟩
    · exact ⟨e, hwidens.stored, hwidens.widens⟩
    · exact ⟨c, hold, .refl c⟩

end ConsentCustody

variable {ok : State → Move → State → Prop} {clock : SystemTime} {s s' : State}

theorem Server.consentCustody (h : srv.Runs ok clock s) :
    ConsentCustody s.world (srv.discipline.ledgers s) :=
  Discipline.invariant (D := srv.discipline) (I := ConsentCustody) h (.start clock)
    fun _ _ _ _ hI hl => hI.step (moves_of_ledgerStep hl)

/-- From a point of a run on, an identifier that is in use is a matter of what is stored under it
at that point: nothing, or something that is widened. -/
theorem Server.consents_later (h : srv.Runs ok clock s) (h' : srv.semantics.Reaches ok s s')
    (hx : Created (srv.discipline.ledgers s) x) :
    ∀ c ∈ s'.world.store.consents, c.consentId = x →
      ∃ e ∈ s.world.store.consents, c.Widens e := by
  have hF := srv.discipline.follows_run h
  refine (Discipline.invariant_of (D := srv.discipline) (I := fun w ls => ConsentCustody w ls ∧
    Created ls x ∧ ∀ c ∈ w.store.consents, c.consentId = x →
      ∃ e ∈ s.world.store.consents, c.Widens e) h' hF ?_ ?_).2.2
  · exact ⟨Server.consentCustody h, hx, fun c hc _ => ⟨c, hc, .refl c⟩⟩
  · rintro t a t' ⟨hC, hcreated, hI⟩ - hstep
    have hm := moves_of_ledgerStep hstep
    refine ⟨hC.step hm, hcreated.turns hm.turns, fun c hc hid => ?_⟩
    obtain ⟨e, he, hwidens⟩ := hC.widens_turns hm.turns (hid ▸ hcreated) hc
    obtain ⟨e₀, he₀, hwidens₀⟩ := hI e he (hwidens.id.symm.trans hid)
    exact ⟨e₀, he₀, hwidens.trans hwidens₀⟩

end Run

/-! ## The first look -/

/-- What a call found out about the consent of a pair. -/
def consentRead : Answered → Option (Option ConsentRecord)
  | ⟨.storage (.findConsent _ _), .ok found⟩ => some found
  | _ => none

/-- What a request's first look at the consent of a pair found. -/
def Call.firstConsent (c : Call) : Option (Option ConsentRecord) := c.trace.findSome? consentRead

theorem Ledger.first_next (l : Ledger) (e : Effect) (r : e.Answer) :
    (l.next e r).consents.first = l.consents.first.or (consentRead ⟨e, r⟩) := by
  cases e with
  | storage op =>
    cases r with
    | error e =>
      cases op <;> exact Option.or_none.symm
    | ok a =>
      cases op with
      | findConsent clientId subject => rfl
      | _ => first | exact Option.or_none.symm | (cases a <;> exact Option.or_none.symm)
  | _ => first | exact Option.or_none.symm | (cases r <;> exact Option.or_none.symm)

theorem first_eq (srv : Server) (c : Call) :
    (srv.discipline.ledger c).consents.first = c.firstConsent := by
  have key : ∀ (trace : List Answered) (l : Ledger),
      (trace.foldl (fun l ev => l.next ev.1 ev.2) l).consents.first =
        l.consents.first.or (trace.findSome? consentRead) := by
    intro trace
    induction trace with
    | nil => exact fun l => Option.or_none.symm
    | cons ev trace ih =>
      intro l
      rw [List.foldl_cons, ih, Ledger.first_next, List.findSome?_cons, Option.or_assoc]
      cases consentRead ⟨ev.1, ev.2⟩ <;> rfl
  exact key c.trace _

/-- A request whose first look found a consent only ever writes by widening one. -/
theorem widens_of_firstConsent {srv : Server} {ok} {clock : SystemTime} {s : State}
    {r : ConsentRecord} {expected : Option ConsentRecord} {u : ConsentRecord} {done : Bool}
    (h : srv.Runs ok clock s) (hc : c ∈ s.threads) (hfirst : c.firstConsent = some (some r))
    (hdid : c.Did (.storage (.compareAndSwapConsent expected u)) (.ok done)) :
    ∃ e, expected = some e ∧ u.Widens e := by
  have hwrites : ((srv.discipline.ledger c).consents.first = some none) ∨
      ∃ e, expected = some e ∧ u.Widens e := by
    refine Server.holds_of_did (Φ := fun l => l.consents.first = some none ∨
      ∃ e, expected = some e ∧ u.Widens e) h hc hdid ?_ fun hg hl => hl.imp_left (hg.first none)
    intro l hallowed
    cases (hallowed : l.WritesConsent expected u) with
    | create new first once tidy => exact .inl first
    | widen widens tidy => exact .inr ⟨_, rfl, widens⟩
  rw [first_eq, hfirst] at hwrites
  exact hwrites.resolve_left nofun

/-- Consents are unique and never resurrected. In every state each client and subject have at most
one consent, with no resource twice and at most 32. Later a consent stored under the same
identifier is the same one, covering at least as much, and once it is gone nothing is stored under
the identifier again. A request that began by finding a consent never writes one under a new
identifier. -/
theorem consents_unique_never_resurrected {srv : Server} {s₁ s₂ s₃ : State}
    (h₁ : srv.Reachable s₁) (h₂ : srv.semantics.Reaches Semantics.anyStep s₁ s₂)
    (h₃ : srv.semantics.Reaches Semantics.anyStep s₂ s₃) :
    (∀ a ∈ s₁.world.store.consents, ∀ b ∈ s₁.world.store.consents, a.clientId = b.clientId →
      a.subject = b.subject → a = b) ∧
    (∀ a ∈ s₁.world.store.consents, a.resource.Nodup ∧ a.resource.length ≤ 32) ∧
    (∀ a ∈ s₁.world.store.consents, ∀ b ∈ s₂.world.store.consents, b.consentId = a.consentId →
      b.Widens a) ∧
    (∀ a ∈ s₁.world.store.consents, (∀ b ∈ s₂.world.store.consents, b.consentId ≠ a.consentId) →
      ∀ b ∈ s₃.world.store.consents, b.consentId ≠ a.consentId) ∧
    ∀ c ∈ s₁.threads, ∀ r expected u done, Call.firstConsent c = some (some r) →
      c.Did (.storage (.compareAndSwapConsent expected u)) (.ok done) →
        ∃ e, expected = some e ∧ u.Widens e := by
  obtain ⟨clock, h₁⟩ := h₁
  have hcustody := Server.consentCustody h₁
  refine ⟨hcustody.unique, hcustody.tidy, ?_, ?_, ?_⟩
  · intro a ha b hb hid
    obtain ⟨e, he, hwidens⟩ := Server.consents_later h₁ h₂ (hcustody.created a ha) b hb hid
    rwa [Table.eq_of_key_eq he ha (hwidens.id.symm.trans hid)] at hwidens
  · intro a ha hgone b hb hid
    -- The identifier stays in use, and nothing is stored under it at the middle state.
    have hused : Created (srv.discipline.ledgers s₂) a.consentId := by
      obtain ⟨l, hl, hcreated⟩ := hcustody.created a ha
      obtain ⟨j, hj⟩ := List.mem_iff_getElem?.mp hl
      have hF := srv.discipline.follows_run h₁
      obtain ⟨l', hl', hg⟩ := Server.ledgers_grow hF h₂ hj
      exact ⟨l', List.mem_of_getElem? hl', hg.created _ hcreated⟩
    obtain ⟨e, he, hwidens⟩ := Server.consents_later (h₁.trans h₂) h₃ hused b hb hid
    exact hgone e he (hwidens.id.symm.trans hid)
  · exact fun c hc r expected u done hfirst hdid => widens_of_firstConsent h₁ hc hfirst hdid

namespace Sample

def consents (i : Nat) (resource : String) : List Move :=
  .spawn (.recordConsent "app" "user" reading [resource] none) :: go i 2

/-- A consent is recorded under a new identifier. -/
def creates : List Move := consents 0 "https://a.example" ++ [.run 0 (.hex (some (text '1' 32)))] ++ go 0 1

/-- It is widened to a second resource. -/
def widensIt : List Move := consents 1 "https://b.example" ++ go 1 1

def withdraws : List Move := .spawn (.withdrawConsent (text '1' 32)) :: go 2 4

end Sample

theorem consents_unique_never_resurrected_widened : ∃ (s₁ s₂ s₃ : State) (a b : ConsentRecord),
    Sample.server.semantics.run (State.idle (.initial 0)) Sample.creates = some s₁ ∧
      Sample.server.semantics.run s₁ Sample.widensIt = some s₂ ∧
      Sample.server.semantics.run s₂ Sample.withdraws = some s₃ ∧ a ∈ s₁.world.store.consents ∧
      b ∈ s₂.world.store.consents ∧ b.resource ≠ a.resource ∧ b.Widens a ∧
      s₃.world.store.consents.rows = [] := by
  obtain ⟨s₁, hs₁, s₂, hs₂, s₃, hs₃, a, ha, b, hb, hne, hempty⟩ :
      ∃ s₁ ∈ Sample.server.semantics.run (State.idle (.initial 0)) Sample.creates,
      ∃ s₂ ∈ Sample.server.semantics.run s₁ Sample.widensIt,
      ∃ s₃ ∈ Sample.server.semantics.run s₂ Sample.withdraws,
      ∃ a ∈ s₁.world.store.consents.lookup (Sample.text '1' 32),
      ∃ b ∈ s₂.world.store.consents.lookup (Sample.text '1' 32),
        b.resource ≠ a.resource ∧ s₃.world.store.consents.rows = [] := by
    decide +kernel
  obtain ⟨-, -, hwidens, -⟩ := consents_unique_never_resurrected
    ⟨0, Semantics.reaches_of_run hs₁⟩ (Semantics.reaches_of_run hs₂) (Semantics.reaches_of_run hs₃)
  have hid : b.consentId = a.consentId := (Table.key_of_lookup hb).trans (Table.key_of_lookup ha).symm
  exact ⟨s₁, s₂, s₃, a, b, hs₁, hs₂, hs₃, Table.mem_of_lookup ha, Table.mem_of_lookup hb, hne,
    hwidens a (Table.mem_of_lookup ha) b (Table.mem_of_lookup hb) hid, hempty⟩

/-! ## Deleted registrations -/

/-- The request carried out the deletion of a client. -/
def Call.Deletes (c : Call) (clientId : ClientId) : Prop :=
  ∃ window existed, c.Did (.storage (.deleteClient clientId window)) (.ok existed)

/-- No request creates a consent for the client once the client was deleted. -/
def NoLateCreation (clientId : ClientId) (s : State) (a : Move) (_ : State) : Prop :=
  ∀ i choice c u, a = .run i choice → s.threads[i]? = some c →
    c.call? = some (.storage (.compareAndSwapConsent none u)) → u.clientId = clientId →
      ∀ d ∈ s.threads, ¬ Call.Deletes d clientId

section Deleted
variable {srv : Server} {g : MemoryInner} {clientId : ClientId}

/-- No consent for the client is stored. -/
def MemoryInner.NoConsents (g : MemoryInner) (clientId : ClientId) : Prop :=
  ∀ c ∈ g.consents, c.clientId ≠ clientId

/-- A deletion leaves no consent for its client. -/
theorem noConsents_deleteClient {window : RevocationWindow} {existed : Bool}
    (h : (StorageOp.exec g (.deleteClient clientId window)).1 = .ok existed) :
    (StorageOp.exec g (.deleteClient clientId window)).2.NoConsents clientId := by
  cases hempty : clientId.isEmpty with
  | true =>
    obtain ⟨e, he⟩ := StorageOp.rejectEmptyScope_of_isEmpty "client_id" hempty
    simp only [StorageOp.exec, MemoryInner.deleteClient, he] at h
    cases h
  | false =>
    intro c hc
    rw [StorageOp.exec_deleteClient hempty] at hc
    exact of_decide_eq_true (Table.mem_retain.mp hc).2

/-- A call other than the creation of a consent brings none back. -/
theorem noConsents_exec {l : Ledger} {op : StorageOp} (h : g.NoConsents clientId)
    (may : l.MayStore srv op)
    (hop : ∀ u, op = .compareAndSwapConsent none u → u.clientId ≠ clientId) :
    (op.exec g).2.NoConsents clientId := by
  cases op with
  | putConsent record => exact may.elim
  | compareAndSwapConsent expected updated =>
    simp only [StorageOp.exec, StorageOp.succeeding, MemoryInner.compareAndSwapConsent]
    split
    · rename_i hfind
      intro c hc
      rcases Table.mem_insert.mp hc with rfl | ⟨hold, -⟩
      · cases expected with
        | none => exact hop c rfl
        | some e =>
          obtain ⟨he, hpair⟩ := Table.mem_of_find? hfind
          have hclient : e.clientId = c.clientId := by
            simp only [Bool.and_eq_true, beq_iff_eq] at hpair
            exact hpair.1
          rw [← hclient]
          exact h e he
      · exact h c hold
    · exact h
  | _ => exact fun c hc => h c (((StorageOp.frame_exec _).consents rfl).mem hc)

/-- A remembered consent does not outlive the registration it was given to. In every run in which
no consent for a client is created after its deletion, from the deletion on no consent for it is
stored, so that nobody who registers the identifier again finds one. -/
theorem consents_go_with_registration {w : World} {s : State} {d : Call}
    (h : srv.semantics.Reaches (NoLateCreation clientId) (State.idle w) s) (hd : d ∈ s.threads)
    (hdeletes : d.Deletes clientId) :
    s.world.store.NoConsents clientId ∧
      ∀ subject, s.world.store.findConsent clientId subject = none := by
  have hnone : s.world.store.NoConsents clientId := by
    have hI : srv.discipline.Follows s ∧ ((∃ d ∈ s.threads, Call.Deletes d clientId) →
        s.world.store.NoConsents clientId) := by
      refine h.invariant (I := fun s => srv.discipline.Follows s ∧
        ((∃ d ∈ s.threads, Call.Deletes d clientId) → s.world.store.NoConsents clientId)) ?_
        ⟨Discipline.follows_of_idle, by rintro ⟨d, hd, -⟩; cases hd⟩
      rintro s a s' ⟨hF, hI⟩ hstep hok
      refine ⟨(Discipline.ledgerStep hF hstep).2, ?_⟩
      rintro ⟨d, hd, window, existed, hdid⟩
      obtain ⟨j, hj⟩ := List.mem_iff_getElem?.mp hd
      -- Either the client was deleted before, or this step deletes it.
      rcases Semantics.did_of_step hstep hj hdid with ⟨d, hd, hdid⟩ | ⟨-, choice, -, -, -, -, hnow⟩
      · have hdeletes : Call.Deletes d clientId := ⟨window, existed, hdid⟩
        have hbefore := hI ⟨d, List.mem_of_getElem? hd, hdeletes⟩
        rcases World.store_of_step rfl rfl hstep with hsame | ⟨now, -, hsweep⟩ |
          ⟨i, choice, t, op, k, r, rfl, ht, hprog, hexec, -⟩
        · rwa [hsame]
        · rw [hsweep]
          exact fun c hc => hbefore c (((StorageOp.frame_exec (.sweepExpired now)).consents rfl).mem hc)
        · have hstore : (op.exec s.world.store).2 = s'.world.store := congrArg Prod.snd hexec
          rw [← hstore]
          refine noConsents_exec hbefore
            (Discipline.allowed_of_call hF (List.mem_of_getElem? ht) hprog) ?_
          rintro u rfl hu
          exact hok i choice t u rfl ht (Thread.call?_eq_some.mpr ⟨k, hprog⟩) hu d
            (List.mem_of_getElem? hd) hdeletes
      · obtain ⟨hexec, -, -⟩ := World.perform_storage hnow
        have hnone := noConsents_deleteClient (congrArg Prod.fst hexec)
        rwa [hexec] at hnone
    exact hI.2 ⟨d, hd, hdeletes⟩
  refine ⟨hnone, fun subject => Table.find?_eq_none.mpr fun c hc => ?_⟩
  simp [hnone c hc]

end Deleted

namespace Sample

/-- A server on which a client may delete its registration. -/
def managing : Server := ⟨{ config with registration := some .new }, host⟩

def registered : Client :=
  { app with registration := some ⟨.sha256 host.secretDigest "token", none, none, "none"⟩ }

def deletes (i : Nat) : List Move :=
  [.spawn (.deleteRegistration "app" "token"), .run i (.decision .allow)] ++ go i 5

/-- The recording has found no consent when the client is deleted. -/
def recordsLate : List Move :=
  registers 0 registered ++
    [.spawn (.recordConsent "app" "user" reading [] none), .run 1 .none, .run 1 .none,
      .run 1 (.hex (some (text '1' 32)))] ++ deletes 2 ++ go 1 1

/-- The recording is through when the client is deleted. -/
def recordsEarly : List Move :=
  registers 0 registered ++
    [.spawn (.recordConsent "app" "user" reading [] none), .run 1 .none, .run 1 .none,
      .run 1 (.hex (some (text '1' 32))), .run 1 .none] ++ deletes 2

/-- Whether a request deleted the client. -/
def deleted (c : Call) : Bool :=
  c.trace.any fun
    | ⟨.storage (.deleteClient x _), .ok _⟩ => x = "app"
    | _ => false

theorem deletes_of_deleted (h : deleted c = true) : c.Deletes "app" := by
  obtain ⟨⟨e, r⟩, hmem, he⟩ := List.any_eq_true.mp h
  cases e with
  | storage op =>
    cases op with
    | deleteClient x window =>
      cases r with
      | ok existed =>
        cases (of_decide_eq_true he : x = "app")
        exact ⟨window, existed, hmem⟩
      | error e => cases he
    | _ => cases he
  | _ => cases he

theorem deleted_of_deletes (h : c.Deletes "app") : deleted c = true := by
  obtain ⟨window, existed, hdid⟩ := h
  exact List.any_eq_true.mpr ⟨_, hdid, by simp⟩

/-- Whether the step creates a consent, and for whom. -/
def createsFor (s : State) : Move → Option ClientId
  | .run i _ =>
    match s.threads[i]?.bind Thread.call? with
    | some (.storage (.compareAndSwapConsent none u)) => some u.clientId
    | _ => none
  | _ => none

def noLateCreation (s : State) (a : Move) (_ : State) : Bool :=
  createsFor s a ≠ some "app" || s.threads.all fun d => !deleted d

theorem noLateCreation_of {s s' : State} {a : Move} (h : noLateCreation s a s' = true) :
    NoLateCreation "app" s a s' := by
  rintro i choice c u rfl hc hcall hu d hd hdeletes
  have hcreates : createsFor s (.run i choice) = some "app" := by
    simp [createsFor, hc, hcall, hu]
  simp only [noLateCreation, hcreates, ne_eq, not_true_eq_false, decide_false, Bool.false_or,
    List.all_eq_true] at h
  simpa [deleted_of_deletes hdeletes] using h d hd

end Sample

/-- A consent that was being recorded when its client was deleted is stored after the deletion,
although the client is gone and every request has been answered. -/
theorem consents_outlive_registration : ∃ (s : State) (d : Call) (c : ConsentRecord),
    Sample.managing.semantics.run (State.idle (.initial 0)) Sample.recordsLate = some s ∧
      s.Settled ∧ d ∈ s.threads ∧ d.Deletes "app" ∧ s.world.store.clients.lookup "app" = none ∧
      c ∈ s.world.store.consents ∧ c.clientId = "app" := by
  obtain ⟨s, hs, hsettled, d, hd, hdeleted, hgone, c, hc, hclient⟩ :
      ∃ s ∈ Sample.managing.semantics.run (State.idle (.initial 0)) Sample.recordsLate,
      State.Settled s ∧ ∃ d ∈ s.threads[2]?, Sample.deleted d = true ∧
        s.world.store.clients.lookup "app" = none ∧
        ∃ c ∈ s.world.store.consents.lookup (Sample.text '1' 32), c.clientId = "app" := by
    decide +kernel
  exact ⟨s, d, c, hs, hsettled, List.mem_of_getElem? hd, Sample.deletes_of_deleted hdeleted, hgone,
    Table.mem_of_lookup hc, hclient⟩

theorem consents_go_with_registration_recorded : ∃ (s : State) (d e : Call) (c : ConsentRecord),
    Sample.managing.semantics.runChecked Sample.noLateCreation (State.idle (.initial 0))
      Sample.recordsEarly = some s ∧ d ∈ s.threads ∧ d.Deletes "app" ∧ e ∈ s.threads ∧
      e.reply? = some (.consented (.ok c)) ∧ c.clientId = "app" ∧
      s.world.store.NoConsents "app" := by
  obtain ⟨s, hs, d, hd, hdeleted, e, he, hreply⟩ :
      ∃ s ∈ Sample.managing.semantics.runChecked Sample.noLateCreation (State.idle (.initial 0))
        Sample.recordsEarly, ∃ d ∈ s.threads[2]?, Sample.deleted d = true ∧ ∃ e ∈ s.threads[1]?,
          e.reply? = some (.consented (.ok
            ⟨Sample.text '1' 32, "app", "user", Sample.reading, [], 0, none⟩)) := by
    decide +kernel
  have hreach := Semantics.reaches_of_runChecked (fun _ _ _ h => Sample.noLateCreation_of h) hs
  have hdeletes := Sample.deletes_of_deleted hdeleted
  exact ⟨s, d, e, _, hs, List.mem_of_getElem? hd, hdeletes, List.mem_of_getElem? he, hreply, rfl,
    (consents_go_with_registration hreach (List.mem_of_getElem? hd) hdeletes).1⟩

end OauthAs
