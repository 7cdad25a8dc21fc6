-- SUMMARY: A withdrawal against an approval decided before it: no token comes of the approval, but a consent may.
import OauthAs.Guarantees.Consent
import OauthAs.Guarantees.Pushed
import OauthAs.Protocol.Mints
import OauthAs.Protocol.Traces

/-!
# Withdrawals

The user approves a request and wants that remembered, and withdraws the consent there is while the
request is still under way. The code is dated from the arrival of the request, so the barrier of
the withdrawal refuses every token it could yield. The consent is recorded last, by a call that
takes its own look at the store: if the withdrawal comes before that look, the call finds nothing
to widen and creates a consent anew.
-/

namespace OauthAs

open Sample

variable {c : ConsentRecord}
variable {window : RevocationWindow} {q : ServiceRequest} {received : SystemTime}

/-! ## Consents in a run of the service -/

namespace ServiceLedger

/-- The random string at hand, in either half. -/
def draw : ServiceLedger → Option String
  | api l => l.identifier
  | front _ l => l.identifier

def consents : ServiceLedger → ConsentLedger
  | api l => l.consents
  | front _ l => l.consents

/-- Whether the request may still create a consent under the string. -/
def consentNames (x : String) (l : ServiceLedger) : Nat :=
  (l.draw == some x && l.consents.created.isNone).toNat

end ServiceLedger

/-- What an answered call does to the consents. -/
inductive ConsentMove (l : ServiceLedger) (g g' : MemoryInner) : (op : StorageOp) → op.Answer → Prop
  | shrinks {op : StorageOp} {a : op.Answer} (other : op.WritesConsents = false)
      (less : g.consents.Shrinks g'.consents) : ConsentMove l g g' op a
  | refused {expected : Option ConsentRecord} {u : ConsentRecord} (same : g' = g) :
      ConsentMove l g g' (.compareAndSwapConsent expected u) (.ok false)
  | creates {u : ConsentRecord} (new : l.draw = some u.consentId)
      (once : l.consents.created = none) (first : l.consents.first = some none)
      (free : g.findConsent u.clientId u.subject = none) (set : g'.consents = g.consents.insert u) :
      ConsentMove l g g' (.compareAndSwapConsent none u) (.ok true)
  | widens {e u : ConsentRecord} (found : g.findConsent u.clientId u.subject = some e)
      (widens : u.Widens e) (set : g'.consents = g.consents.insert u) :
      ConsentMove l g g' (.compareAndSwapConsent (some e) u) (.ok true)

namespace Server

variable {srv : Server} {w w' : World}
variable {l : ServiceLedger} {op : StorageOp} {a : op.Answer} {g g' : MemoryInner}

/-- The two halves write consents alike. -/
theorem consentMove (hallowed : l.Allowed srv (.storage op)) (hexec : op.exec g = (a, g')) :
    ConsentMove l g g' op a := by
  cases hop : op.WritesConsents with
  | false => exact .shrinks hop ((StorageOp.exec_writes hexec).1.consents hop)
  | true =>
    cases op with
    | putConsent record => cases l <;> cases hallowed
    | compareAndSwapConsent expected updated =>
      simp only [StorageOp.exec, StorageOp.succeeding, MemoryInner.compareAndSwapConsent] at hexec
      split at hexec
      · rename_i hfind
        cases hexec
        cases l with
        | api l =>
          cases (hallowed : l.WritesConsent expected updated) with
          | create new first once tidy => exact .creates new once first hfind rfl
          | widen widens tidy => exact .widens hfind widens rfl
        | front q l =>
          cases (hallowed : l.WritesConsent srv q expected updated) with
          | create pair new first once => exact .creates new once first hfind rfl
          | widen pair widens => exact .widens hfind widens rfl
      · cases hexec
        exact .refused rfl
    | _ => cases hop

/-- A storage call gives a request no string, and a request that has created a consent stays one. -/
theorem draw_stored (l : ServiceLedger) (op : StorageOp) (a : op.Answer) :
    ((l.next (.storage op) a).draw = l.draw ∨ (l.next (.storage op) a).draw = none) ∧
      ((l.next (.storage op) a).consents.created = none → l.consents.created = none) := by
  have hswap : ∀ (c : ConsentLedger) expected updated done,
      (c.swap expected updated done).created = none → c.created = none := by
    intro c expected updated done h
    simp only [ConsentLedger.swap] at h
    split at h
    · cases h
    · exact h
  cases a with
  | error e => cases l <;> exact ⟨.inl rfl, fun h => h⟩
  | ok a =>
    cases l with
    | api l =>
      cases op with
      | putAuthorizationCode r | putDeviceGrant r => exact ⟨.inr rfl, fun h => h⟩
      | compareAndSwapConsent expected updated => exact ⟨.inl rfl, hswap _ _ _ _⟩
      | _ => first | exact ⟨.inl rfl, fun h => h⟩ | (cases a <;> exact ⟨.inl rfl, fun h => h⟩)
    | front q l =>
      cases op with
      | putAuthorizationCode r => exact ⟨.inr rfl, fun h => h⟩
      | compareAndSwapConsent expected updated => exact ⟨.inl rfl, hswap _ _ _ _⟩
      | findConsent clientId subject =>
        refine ⟨.inl rfl, fun h => ?_⟩
        simp only [ServiceLedger.next, ServiceLedger.consents, FrontLedger.next,
          FrontLedger.advance, FrontLedger.stored, FrontLedger.log] at h
        split at h <;> exact h
      | putPushedAuthorizationRequest r =>
        simp only [ServiceLedger.next, ServiceLedger.draw, ServiceLedger.consents,
          FrontLedger.next, FrontLedger.advance, FrontLedger.stored, FrontLedger.write,
          FrontLedger.log]
        split
        · exact ⟨.inl rfl, fun h => h⟩
        · exact ⟨.inr rfl, fun h => h⟩
      | _ => exact ⟨.inl rfl, fun h => h⟩

theorem consentNames_stored (l : ServiceLedger) (op : StorageOp) (a : op.Answer) (x : String) :
    (l.next (.storage op) a).consentNames x ≤ l.consentNames x := by
  obtain ⟨hdraw, hcreated⟩ := draw_stored l op a
  unfold ServiceLedger.consentNames
  refine Bool.toNat_le_toNat ?_
  rw [Bool.le_iff_imp]
  simp only [Bool.and_eq_true, beq_iff_eq, Option.isNone_iff_eq_none]
  rintro ⟨hnew, hnone⟩
  refine ⟨?_, hcreated hnone⟩
  rcases hdraw with h | h
  · exact h.symm.trans hnew
  · cases h.symm.trans hnew

/-- A call that is no storage call keeps the string at hand or hands out a new one. -/
theorem consentNames_next {e : Effect} {c : Choice} {a : e.Answer} (he : e.isStorage = false)
    (hperform : w.perform e c = some (a, w')) :
    (∀ x, (l.next e a).consentNames x = l.consentNames x) ∨
      ∃ y, (l.next e a).draw = some y ∧ y ∉ w.used ∧ y ∈ w'.used := by
  cases e with
  | storage op => cases he
  | randomHex bytes =>
    cases a with
    | none => cases l <;> exact .inl fun _ => rfl
    | some hex =>
      obtain ⟨hfresh, rfl⟩ := World.perform_randomHex hperform
      right
      cases l <;> exact ⟨hex.text, rfl, hfresh, List.mem_cons_self⟩
  | tokenEntropy | sign claims => cases l <;> cases a <;> exact .inl fun _ => rfl
  | _ => cases l <;> exact .inl fun _ => rfl

/-- The consents stored under an identifier. -/
def consentsAt (x : String) (g : MemoryInner) : Nat := g.consents.count fun c => c.consentId == x

/-- A consent is created under a string drawn for it. -/
theorem consentsAt_move (h : ConsentMove l g g' op a) (x : String) :
    consentsAt x g' + (l.next (.storage op) a).consentNames x ≤
      consentsAt x g + l.consentNames x := by
  have hnames := consentNames_stored l op a x
  unfold consentsAt
  cases h with
  | shrinks other less => exact Nat.add_le_add (less.count_le _) hnames
  | refused same =>
    subst same
    exact Nat.add_le_add_left hnames _
  | @creates u new once first free set =>
    -- The string goes from the request to the consent.
    have hafter : (l.next (.storage (.compareAndSwapConsent none u)) (.ok true)).consentNames x = 0 := by
      cases l <;> simp [ServiceLedger.consentNames, ServiceLedger.next, ServiceLedger.consents,
        Ledger.next, Ledger.stored, FrontLedger.next, FrontLedger.advance, FrontLedger.stored,
        FrontLedger.log, ConsentLedger.swap]
    have hbefore : l.consentNames x = (u.consentId == x).toNat := by
      simp [ServiceLedger.consentNames, new, once]
    rw [hafter, hbefore, set, Table.count_insert]
    have := g.consents.count_erase (fun c => c.consentId == x) u.consentId
    omega
  | @widens e u found widens set =>
    refine Nat.add_le_add ?_ hnames
    obtain ⟨hstored, -⟩ := Table.mem_of_find? found
    have herase := g.consents.count_erase (fun c => c.consentId == x) u.consentId
    rw [Table.tally, widens.id, Table.lookup_key hstored] at herase
    rw [set, Table.count_insert, widens.id]
    exact herase.le

theorem pays_consentNames : srv.Pays consentsAt ServiceLedger.consentNames where
  start q x := by cases q <;> rfl
  call {w w' l e c a} hallowed hperform x := by
    rcases e.storage_cases with ⟨op, rfl⟩ | he
    · obtain ⟨hexec, -, -⟩ := World.perform_storage hperform
      exact .inl (consentsAt_move (consentMove hallowed hexec) x)
    · rw [(World.frame_of_perform he hperform).1]
      rcases consentNames_next (l := l) he hperform with hsame | ⟨y, hy, hfresh, hused⟩
      · exact .inl (by rw [hsame x])
      · by_cases hxy : y = x
        · subst hxy
          refine .inr ⟨hfresh, hused, ?_⟩
          have := Bool.toNat_le ((l.next e a).draw == some y && (l.next e a).consents.created.isNone)
          unfold ServiceLedger.consentNames
          omega
        · have hzero : (l.next e a).consentNames x = 0 := by
            simp [ServiceLedger.consentNames, hy, hxy]
          exact .inl (by omega)
  sweep now g x := by
    refine Table.Shrinks.count_le ?_ _
    exact (StorageOp.frame_exec (.sweepExpired now)).consents rfl

theorem onePerPair_move (h : g.OnePerPair) (hmove : ConsentMove l g g' op a) : g'.OnePerPair := by
  cases hmove with
  | shrinks other less => exact h.of_subset fun c hc => less.mem hc
  | refused same => exact same ▸ h
  | creates new once first free set => exact h.create free set
  | widens found widens set => exact h.widen (Table.mem_of_find? found).1 widens set

section Reached
variable {ok : ServiceState → ServiceMove → ServiceState → Prop} {clock : SystemTime}
  {s : ServiceState}

theorem service_onePerPair (h : srv.ServiceRuns ok clock s) :
    s.world.store.OnePerPair := by
  refine srv.serviceDiscipline.invariant (I := fun w _ => w.store.OnePerPair) h
    (fun _ ha => (Table.mem_empty ha).elim) fun w ls w' ls' hI hstep => store_step ?_ ?_ hstep hI
  · exact fun l op g hallowed hg => onePerPair_move hg (consentMove hallowed rfl)
  · exact fun now g hg => hg.of_subset fun c hc =>
      ((StorageOp.frame_exec (.sweepExpired now)).consents rfl).mem hc

/-- Nobody creates a consent under the identifier of one that is stored. -/
theorem not_creates (h : srv.ServiceRuns ok clock s) (hc : c ∈ s.world.store.consents)
    (hl : l ∈ srv.serviceDiscipline.ledgers s) (hdraw : l.draw = some c.consentId) :
    l.consents.created ≠ none := by
  intro hnone
  have hbudget := (pays_consentNames.budget (fun _ => rfl) h).single c.consentId
  have hstored : 1 ≤ consentsAt c.consentId s.world.store :=
    Table.one_le_count hc (beq_self_eq_true _)
  have hname : l.consentNames c.consentId = 1 := by
    simp [ServiceLedger.consentNames, hdraw, hnone]
  have htotal := le_total_of_mem (f := ServiceLedger.consentNames c.consentId) hl
  omega

end Reached

end Server

/-! ## A consent until it is withdrawn -/

/-- One consent, however wide. -/
def ConsentRecord.Same (c k : ConsentRecord) : Prop :=
  c.consentId = k.consentId ∧ c.clientId = k.clientId ∧ c.subject = k.subject

theorem ConsentRecord.Same.trans {a b : ConsentRecord} (h : a.Same b) (h' : b.Same c) : a.Same c :=
  ⟨h.1.trans h'.1, h.2.1.trans h'.2.1, h.2.2.trans h'.2.2⟩

namespace Server

variable {srv : Server} {ok : ServiceState → ServiceMove → ServiceState → Prop} {clock : SystemTime}
  {s s' : ServiceState}

/-- A stored consent stays, or is widened, unless it is withdrawn or its client deleted. -/
theorem consent_kept (h : srv.ServiceRuns ok clock s) (hc : c ∈ s.world.store.consents)
    {l : ServiceLedger} {op : StorageOp} (hl : l ∈ srv.serviceDiscipline.ledgers s)
    (hallowed : l.Allowed srv (.storage op))
    (hrevoke : ∀ window, op ≠ .revokeConsent c.consentId window)
    (hdelete : ∀ window, op ≠ .deleteClient c.clientId window) :
    ∃ c' ∈ (op.exec s.world.store).2.consents, c'.Same c := by
  have hsame : c.Same c := ⟨rfl, rfl, rfl⟩
  cases hop : op.TouchesConsents with
  | false =>
    rw [StorageOp.consents_exec hop]
    exact ⟨c, hc, hsame⟩
  | true =>
    cases op with
    | compareAndSwapConsent expected updated =>
      have hmove := consentMove hallowed (Prod.eta (StorageOp.exec s.world.store
        (.compareAndSwapConsent expected updated))).symm
      generalize (StorageOp.exec s.world.store (.compareAndSwapConsent expected updated)).2 = g'
        at hmove ⊢
      generalize (StorageOp.exec s.world.store (.compareAndSwapConsent expected updated)).1 = a
        at hmove
      cases hmove with
      | shrinks other less => cases other
      | refused same =>
        subst same
        exact ⟨c, hc, hsame⟩
      | creates new once first free set =>
        rw [set]
        refine ⟨c, Table.mem_insert.mpr (.inr ⟨hc, fun hid => ?_⟩), hsame⟩
        exact not_creates h hc hl (new.trans (congrArg some hid.symm)) once
      | @widens e u found widens set =>
        rw [set]
        by_cases hid : c.consentId = updated.consentId
        · have he : e = c := Table.eq_of_key_eq (Table.mem_of_find? found).1 hc
            (widens.id.symm.trans hid.symm)
          subst he
          exact ⟨_, Table.mem_insert_self, widens.id, widens.client, widens.subject⟩
        · exact ⟨c, Table.mem_insert.mpr (.inr ⟨hc, hid⟩), hsame⟩
    | revokeConsent consentId window =>
      have hid : c.consentId ≠ consentId := fun hid => hrevoke window (by rw [hid])
      refine ⟨c, ?_, hsame⟩
      simp only [StorageOp.exec, MemoryInner.revokeConsent]
      repeat' split
      all_goals first | exact hc | exact Table.mem_erase.mpr ⟨hc, hid⟩
    | deleteClient clientId window =>
      have hclient : c.clientId ≠ clientId := fun hid => hdelete window (by rw [hid])
      refine ⟨c, ?_, hsame⟩
      simp only [StorageOp.exec, MemoryInner.deleteClient]
      split
      · exact hc
      · exact Table.mem_retain.mpr ⟨hc, decide_eq_true hclient⟩
    | putConsent record => cases l <;> cases hallowed
    | _ => cases hop

end Server

/-- Recording a barrier again never moves its instant back. -/
theorem BarrierTimes.le_mergeInto (slot : Option BarrierTimes) (recordedAt until_ : SystemTime) :
    ∃ b, mergeInto slot recordedAt until_ = some b ∧ recordedAt ≤ b.recordedAt ∧
      ∀ old, slot = some old → old.recordedAt ≤ b.recordedAt := by
  cases slot with
  | none => exact ⟨_, rfl, Int.le_refl _, fun _ h => nomatch h⟩
  | some old =>
    refine ⟨_, rfl, ?_, ?_⟩
    · simp only [merge]
      split <;> lia
    · rintro _ ⟨⟩
      simp only [merge]
      split <;> lia

namespace MemoryInner

variable {g g' : MemoryInner} {k : ConsentRecord}

/-- The pair has no consent. -/
def Unconsented (g : MemoryInner) (k : ConsentRecord) : Prop :=
  ∀ c ∈ g.consents, c.clientId = k.clientId → c.subject ≠ k.subject

/-- A withdrawal recorded at `r` or later stands for the pair. -/
def Barred (g : MemoryInner) (k : ConsentRecord) (r : SystemTime) : Prop :=
  ∃ b, g.barrierAt (.consent k.clientId k.subject) = some b ∧ r ≤ b.recordedAt

/-- A withdrawal of a stored consent takes the only one of the pair and records its instant. -/
theorem withdrawn_of_exec {n : Nat} (hunique : g.OnePerPair) (hc : c ∈ g.consents)
    (hsame : c.Same k) (hexec : StorageOp.exec g (.revokeConsent k.consentId window) = (.ok n, g')) :
    g'.Unconsented k ∧ g'.Barred k window.recordedAt := by
  obtain ⟨hid, hclient, hsubject⟩ := hsame
  have hlookup : g.consents.lookup k.consentId = some c := hid ▸ Table.lookup_key hc
  have hg' : (StorageOp.exec g (.revokeConsent k.consentId window)).2 = g' :=
    congrArg Prod.snd hexec
  -- A consent without a client or a subject is refused with an error.
  have hnamed : (c.clientId.isEmpty || c.subject.isEmpty) = false := by
    by_contra hempty
    simp only [StorageOp.exec, MemoryInner.revokeConsent, hlookup] at hexec
    rw [Bool.not_eq_false, Bool.or_eq_true] at hempty
    rcases hempty with hempty | hempty
    · obtain ⟨e, he⟩ := StorageOp.rejectEmptyScope_of_isEmpty "client_id" hempty
      rw [he] at hexec
      cases hexec
    · obtain ⟨e, he⟩ := StorageOp.rejectEmptyScope_of_isEmpty "subject" hempty
      rw [he] at hexec
      split at hexec
      · cases hexec
      · cases hexec
      · rename_i hok
        cases hok
  refine ⟨?_, ?_⟩
  · rw [StorageOp.exec_revokeConsent hlookup hnamed] at hg'
    subst hg'
    intro c' hc' hclient' hsubject'
    obtain ⟨hstored, hne⟩ := Table.mem_erase.mp hc'
    rw [hunique c' hstored c hc (hclient'.trans hclient.symm) (hsubject'.trans hsubject.symm)] at hne
    exact hne hid
  · have hsweep : (StorageOp.revokeConsent k.consentId window).isSweep = false := rfl
    have hbarrier := StorageOp.barrierAt_exec (g := g) hsweep (.consent k.clientId k.subject)
    rw [hclient, hsubject] at hnamed
    simp only [hg', StorageOp.recorded, hlookup, hclient, hsubject, hnamed, Bool.false_eq_true,
      if_false, if_true] at hbarrier
    obtain ⟨b, hb, hlate, -⟩ := BarrierTimes.le_mergeInto
      (g.barrierAt (.consent k.clientId k.subject)) window.recordedAt window.until_
    exact ⟨b, hbarrier.trans hb, hlate⟩

/-- Only a sweep takes the barrier away. -/
theorem Barred.exec {r : SystemTime} {op : StorageOp} (h : g.Barred k r)
    (hsweep : op.isSweep = false) : (op.exec g).2.Barred k r := by
  obtain ⟨b, hb, hr⟩ := h
  have hbarrier := StorageOp.barrierAt_exec (g := g) hsweep (.consent k.clientId k.subject)
  split at hbarrier
  · rename_i b' window hrec
    split at hbarrier
    · rename_i heq
      obtain ⟨t, ht, -, hold⟩ := BarrierTimes.le_mergeInto (g.barrierAt b') window.recordedAt
        window.until_
      exact ⟨t, hbarrier.trans ht, Int.le_trans hr (hold b (heq ▸ hb))⟩
    · exact ⟨b, hbarrier.trans hb, hr⟩
  · exact ⟨b, hbarrier.trans hb, hr⟩

end MemoryInner

/-! ## The request and the withdrawal -/

namespace Effect

/-- Whether a call records a consent for the pair. -/
def recordsFor (k : ConsentRecord) : Effect → Bool
  | .storage (.compareAndSwapConsent _ updated) =>
    updated.clientId == k.clientId && updated.subject == k.subject
  | _ => false

/-- Whether a call withdraws the consent. -/
def withdraws (k : ConsentRecord) : Effect → Bool
  | .storage (.revokeConsent consentId _) => consentId == k.consentId
  | _ => false

def isApproval : Effect → Bool
  | .approve _ => true
  | _ => false

end Effect

/-- No other request for the pair: only thread `i` records a consent for it, only thread `j`
withdraws the one there is, and nobody deletes the client. -/
def OnlyThese (k : ConsentRecord) (i j : Nat) (s : ServiceState) (a : ServiceMove)
    (_ : ServiceState) : Prop :=
  match a with
  | .run n _ => ((s.threads[n]?.bind Thread.call?).all fun e => (!e.recordsFor k || n == i) &&
      (!e.withdraws k || n == j) && !e.deletes k.clientId) = true
  | _ => True

/-- No sweep reaps a barrier of the pair. -/
def BarrierKept (k : ConsentRecord) (s : ServiceState) (a : ServiceMove) (_ : ServiceState) : Prop :=
  match a with
  | .env (.sweep now) => ((s.world.store.barrierAt (.consent k.clientId k.subject)).all fun b =>
      decide (now < b.until_)) = true
  | _ => True

instance decidableOnlyThese (k : ConsentRecord) (i j : Nat) (s : ServiceState) (a : ServiceMove)
    (s' : ServiceState) : Decidable (OnlyThese k i j s a s') :=
  match a with
  | .run _ _ => inferInstanceAs (Decidable (_ = true))
  | .spawn _ | .env _ => inferInstanceAs (Decidable True)

instance decidableBarrierKept (k : ConsentRecord) (s : ServiceState) (a : ServiceMove)
    (s' : ServiceState) : Decidable (BarrierKept k s a s') :=
  match a with
  | .env (.sweep _) => inferInstanceAs (Decidable (_ = true))
  | .env (.tick _) | .run _ _ | .spawn _ => inferInstanceAs (Decidable True)

/-- Whether the thread has looked at the consent again since its approval. -/
def ServiceCall.lookedAgain (t : ServiceCall) : Bool :=
  ((t.trace.dropWhile fun ev => !ev.1.isApproval).findSome? consentRead).isSome

/-- The consent is not withdrawn while thread `i` has still to take its second look. -/
def LooksFirst (k : ConsentRecord) (i : Nat) (s : ServiceState) (a : ServiceMove)
    (_ : ServiceState) : Prop :=
  match a with
  | .run n _ => ((s.threads[n]?.bind Thread.call?).all fun e => !e.withdraws k ||
      s.threads[i]?.all fun t => ServiceCall.lookedAgain t || decide t.Finished) = true
  | _ => True

instance decidableLooksFirst (k : ConsentRecord) (i : Nat) (s : ServiceState) (a : ServiceMove)
    (s' : ServiceState) : Decidable (LooksFirst k i s a s') :=
  match a with
  | .run _ _ => inferInstanceAs (Decidable (_ = true))
  | .spawn _ | .env _ => inferInstanceAs (Decidable True)

/-- The consent is stored and thread `j` has not withdrawn it. -/
structure Standing (k : ConsentRecord) (j : Nat) (s : ServiceState) : Prop where
  stored : ∃ c ∈ s.world.store.consents, c.Same k
  unspent : ∀ t, s.threads[j]? = some t → ∀ window n,
    ¬ t.Did (.storage (.revokeConsent k.consentId window)) (.ok n)

/-- Thread `j` withdraws the consent in this step. -/
def Withdraws (k : ConsentRecord) (j : Nat) (s : ServiceState) (a : ServiceMove)
    (s' : ServiceState) : Prop :=
  ∃ choice t t' window n, a = .run j choice ∧ s.threads[j]? = some t ∧ s'.threads[j]? = some t' ∧
    t.call? = some (.storage (.revokeConsent k.consentId window)) ∧
    t'.Did (.storage (.revokeConsent k.consentId window)) (.ok n) ∧
    StorageOp.exec s.world.store (.revokeConsent k.consentId window) = (.ok n, s'.world.store)

namespace Server

variable {srv : Server} {ok : ServiceState → ServiceMove → ServiceState → Prop} {clock : SystemTime}
  {s s' : ServiceState} {k : ConsentRecord} {i j : Nat}

theorem standing_step (h : srv.ServiceRuns ok clock s) {a : ServiceMove}
    (hok : OnlyThese k i j s a s') (hstanding : Standing k j s)
    (hstep : srv.service.step s a = some s') : Standing k j s' ∨ Withdraws k j s a s' := by
  obtain ⟨⟨c, hc, hsame⟩, hunspent⟩ := hstanding
  have hF := srv.serviceDiscipline.follows_run h
  by_cases hspent : ∃ t, s'.threads[j]? = some t ∧ ∃ window n,
      t.Did (.storage (.revokeConsent k.consentId window)) (.ok n)
  · obtain ⟨t, ht, window, n, hdid⟩ := hspent
    rcases Semantics.did_of_step hstep ht hdid with ⟨u, hu, hdid⟩ | ⟨u, c, p, rfl, hu, hprog, hperform⟩
    · exact absurd hdid (hunspent u hu window n)
    · exact .inr ⟨c, u, t, window, n, rfl, hu, ht, Thread.call?_eq_some.mpr ⟨p, hprog⟩, hdid,
        (World.perform_storage hperform).1⟩
  refine .inl ⟨?_, fun t ht window n hdid => hspent ⟨t, ht, window, n, hdid⟩⟩
  rcases World.store_of_step rfl rfl hstep with hstore | ⟨now, -, hstore⟩ |
    ⟨n, choice, t, op, p, r, rfl, hn, hprog, hexec, hn'⟩
  · exact ⟨c, hstore ▸ hc, hsame⟩
  · rw [hstore, StorageOp.consents_exec rfl]
    exact ⟨c, hc, hsame⟩
  · have ht := List.mem_of_getElem? hn
    simp only [OnlyThese, hn, Option.bind_some, Thread.call?_eq_some.mpr ⟨p, hprog⟩,
      Option.all_some, Bool.and_eq_true, Bool.or_eq_true, Bool.not_eq_true', beq_iff_eq] at hok
    obtain ⟨⟨-, hwithdraws⟩, hdeletes⟩ := hok
    have hstore : (op.exec s.world.store).2 = s'.world.store := congrArg Prod.snd hexec
    rw [← hstore]
    cases r with
    | error error =>
      rw [StorageOp.exec_error (congrArg Prod.fst hexec)]
      exact ⟨c, hc, hsame⟩
    | ok m =>
      have hrevoke : ∀ window, op ≠ .revokeConsent c.consentId window := by
        rw [hsame.1]
        rintro window rfl
        cases hwithdraws.resolve_left (by simp [Effect.withdraws])
        exact hspent ⟨_, hn', window, m, Thread.did_resume.mpr (.inr rfl)⟩
      obtain ⟨c', hc', hsame'⟩ := consent_kept h hc (Discipline.mem_ledgers ht)
        (srv.serviceDiscipline.allowed_of_call hF ht hprog) hrevoke
        (by rintro window rfl; simp [Effect.deletes, hsame.2.1] at hdeletes)
      exact ⟨c', hc', hsame'.trans hsame⟩

/-- Only a sweep takes the barrier of the withdrawal away. -/
theorem barred_step (hF : srv.serviceDiscipline.Follows s) {a : ServiceMove} {r : SystemTime}
    (hok : BarrierKept k s a s') (h : s.world.store.Barred k r)
    (hstep : srv.service.step s a = some s') : s'.world.store.Barred k r := by
  rcases World.store_of_step rfl rfl hstep with hstore | ⟨now, rfl, hstore⟩ |
    ⟨n, choice, t, op, p, a, -, hn, hprog, hexec, -⟩
  · rwa [hstore]
  · obtain ⟨b, hb, hr⟩ := h
    simp only [BarrierKept, hb, Option.all_some, decide_eq_true_eq] at hok
    refine ⟨b, ?_, hr⟩
    rw [hstore, StorageOp.barrierAt_sweepExpired, hb, Option.filter_some, if_pos (decide_eq_true hok)]
  · have hallowed := srv.serviceDiscipline.allowed_of_call hF (List.mem_of_getElem? hn) hprog
    have hstore : (op.exec s.world.store).2 = s'.world.store := congrArg Prod.snd hexec
    rw [← hstore]
    refine h.exec ?_
    cases op with
    | sweepExpired now => cases hledger : srv.serviceDiscipline.ledger t <;>
        (rw [hledger] at hallowed; cases hallowed)
    | _ => rfl

/-- Once the consent has been withdrawn the barrier of the withdrawal stands. -/
theorem barred_of_withdrawn (h : srv.ServiceRuns ok clock s) (hstanding : Standing k j s)
    (hrun : srv.service.Reaches (fun s a s' => OnlyThese k i j s a s' ∧ BarrierKept k s a s') s s') :
    Standing k j s' ∨ ∃ t window n, s'.threads[j]? = some t ∧
      t.Did (.storage (.revokeConsent k.consentId window)) (.ok n) ∧
      s'.world.store.Barred k window.recordedAt := by
  refine h.any.invariant_from hrun (I := fun s => Standing k j s ∨ ∃ t window n,
    s.threads[j]? = some t ∧ t.Did (.storage (.revokeConsent k.consentId window)) (.ok n) ∧
    s.world.store.Barred k window.recordedAt) (.inl hstanding) ?_
  rintro s a s' hreach hI hstep ⟨hthese, hunswept⟩
  rcases hI with hstanding | ⟨t, window, n, ht, hdid, hbarred⟩
  · refine (standing_step hreach hthese hstanding hstep).imp_right ?_
    rintro ⟨-, -, t', window, n, -, -, ht', -, hdid, hexec⟩
    obtain ⟨c, hc, hsame⟩ := hstanding.stored
    exact ⟨t', window, n, ht', hdid,
      (MemoryInner.withdrawn_of_exec (service_onePerPair hreach) hc hsame hexec).2⟩
  · right
    have hF := srv.serviceDiscipline.follows_run hreach
    have hbarred' := barred_step hF hunswept hbarred hstep
    rcases Semantics.step_thread hstep ht with hsame | ⟨_, _, _, _, -, -, -, hnext⟩
    · exact ⟨t, window, n, hsame, hdid, hbarred'⟩
    · exact ⟨_, window, n, hnext, Thread.did_resume.mpr (.inl hdid), hbarred'⟩

end Server

/-! ## The second look -/

namespace FrontLedger

/-- The approval counts from its own call on, and the first look after it. -/
theorem approved_first_next (l : FrontLedger) (e : Effect) (r : e.Answer) :
    (l.next e r).approved = (l.approved || e.isApproval) ∧ (l.next e r).consents.first =
      if l.approved then l.consents.first.or (consentRead ⟨e, r⟩) else l.consents.first := by
  have hsame : ∀ l' : FrontLedger, l'.approved = l.approved → l'.consents.first = l.consents.first →
      l'.approved = (l.approved || false) ∧ l'.consents.first =
        if l.approved then l.consents.first.or none else l.consents.first := by
    intro l' happroved hfirst
    rw [Bool.or_false, Option.or_none, ite_self]
    exact ⟨happroved, hfirst⟩
  cases e with
  | approve asked =>
    rw [show consentRead ⟨.approve asked, r⟩ = none from rfl, Option.or_none, ite_self]
    exact ⟨(Bool.or_true _).symm, rfl⟩
  | storage op =>
    cases r with
    | error e => cases op <;> exact hsame _ rfl rfl
    | ok a =>
      cases op with
      | findConsent clientId subject =>
        refine ⟨(Bool.or_false _).symm, ?_⟩
        simp only [next, advance, stored, log, consentRead, ConsentLedger.look]
        split <;> rfl
      | putPushedAuthorizationRequest record =>
        refine hsame _ ?_ ?_ <;> simp only [next, advance, stored, write, log] <;> split <;> rfl
      | _ => exact hsame _ rfl rfl
  | randomHex bytes => cases r <;> exact hsame _ rfl rfl
  | _ => exact hsame _ rfl rfl

theorem approved_next (l : FrontLedger) (e : Effect) (r : e.Answer) :
    (l.next e r).approved = (l.approved || e.isApproval) := (l.approved_first_next e r).1

theorem first_next (l : FrontLedger) (e : Effect) (r : e.Answer) : (l.next e r).consents.first =
    if l.approved then l.consents.first.or (consentRead ⟨e, r⟩) else l.consents.first :=
  (l.approved_first_next e r).2

end FrontLedger

/-- The ledger has the first look after the approval. -/
theorem Server.looked_of_ledger {srv : Server} {t : ServiceCall} {l : FrontLedger}
    (h : srv.serviceDiscipline.ledger t = .front q l) :
    l.consents.first = (t.trace.dropWhile fun ev => !ev.1.isApproval).findSome? consentRead := by
  have key : ∀ (trace : List Answered) (l : FrontLedger),
      ∃ l', trace.foldl (fun l ev => ServiceLedger.next l ev.1 ev.2) (.front q l) = .front q l' ∧
        l'.consents.first = l.consents.first.or ((if l.approved then trace
          else trace.dropWhile fun ev => !ev.1.isApproval).findSome? consentRead) := by
    intro trace
    induction trace with
    | nil => exact fun l => ⟨l, rfl, by simp⟩
    | cons ev trace ih =>
      intro l
      obtain ⟨l', hl', hfirst⟩ := ih (l.next ev.1 ev.2)
      refine ⟨l', hl', hfirst.trans ?_⟩
      rw [FrontLedger.first_next, FrontLedger.approved_next]
      cases happroved : l.approved with
      | true =>
        simp only [Bool.true_or, if_true, List.findSome?_cons, Option.or_assoc]
        cases consentRead ⟨ev.1, ev.2⟩ <;> rfl
      | false =>
        simp only [Bool.false_or, Bool.false_eq_true, if_false]
        cases hev : ev.1.isApproval with
        | true =>
          have hread : consentRead ev = none := by
            obtain ⟨e, r⟩ := ev
            cases e with
            | approve asked => rfl
            | _ => cases hev
          simp [hev, hread]
        | false => simp [hev]
  obtain ⟨rfl, -, hq⟩ := front_of_ledger h
  obtain ⟨l', hl', hfirst⟩ := key t.trace .start
  rw [← ServiceLedger.start_front hq] at hl'
  cases hl'.symm.trans h
  exact hfirst

namespace Server

variable {srv : Server} {ok : ServiceState → ServiceMove → ServiceState → Prop} {clock : SystemTime}
  {s s' : ServiceState} {k : ConsentRecord} {i j : Nat} {t : ServiceCall}

/-- When the approval has just been answered, nothing has been looked at since. -/
theorem unlooked_of_approved {w : World} (h : srv.service.Reaches ok (ServiceState.idle w) s)
    (hi : s.threads[i]? = some t) (hq : ∀ request entry, t.request ≠ .api request entry)
    {before : List Answered} {asked : ApprovalRequest} {d : ApprovalDecision}
    (htrace : t.trace = before ++ [⟨.approve asked, d⟩]) :
    ∃ l, srv.serviceDiscipline.ledger t = .front t.request l ∧ l.consents.first = none := by
  obtain ⟨mo⟩ := h.moment hi htrace
  have hunlooked := srv.serviceDiscipline.ledger_invariant (Φ := fun m => ∀ q l, m = .front q l →
    l.approved = false → l.consents.first = none) mo.reached ?_ ?_ _
    (Discipline.mem_ledgers (List.mem_of_getElem? mo.here))
  · obtain ⟨l, hl, -⟩ := srv.summary_front hq before
    have hcaller : srv.serviceDiscipline.ledger mo.caller = .front t.request l := by
      rw [Discipline.ledger, mo.request, mo.trace, hl]
    have hallowed := (srv.serviceDiscipline.allowed_of_trace h (List.mem_of_getElem? hi) htrace).1
    rw [hl] at hallowed
    refine ⟨l.next (.approve asked) d, ?_, ?_⟩
    · rw [Discipline.ledger, htrace, Discipline.summary, List.foldl_append]
      exact congrArg (fun m => ServiceLedger.next m (.approve asked) d) hl
    · rw [FrontLedger.first_next, hallowed.1]
      exact hunlooked _ l hcaller hallowed.1
  · rintro q _ l hl -
    have hq : ∀ request entry, q ≠ .api request entry := by
      rintro request entry rfl
      cases hl
    cases (ServiceLedger.start_front hq).symm.trans hl
    rfl
  · rintro (l | ⟨q, l⟩) e r hΦ - - q' l' hl' happroved
    · cases hl'
    · cases hl'
      rw [FrontLedger.approved_next, Bool.or_eq_false_iff] at happroved
      rw [FrontLedger.first_next, happroved.1]
      exact hΦ _ l rfl happroved.1

/-- While the consent is stored the request does not find the pair without one. -/
theorem first_kept {l l₀ : FrontLedger} {e : Effect} {r : e.Answer} {choice : Choice} {w w' : World}
    (hstored : ∃ c ∈ w.store.consents, c.Same k) (habout : l₀.About srv q k.clientId k.subject)
    (hallowed : l.Allowed srv q e) (hperform : w.perform e choice = some (r, w'))
    (h : l.consents.first ≠ some none) : (l.next e r).consents.first ≠ some none := by
  have hread : consentRead ⟨e, r⟩ ≠ some none := by
    intro hread
    unfold consentRead at hread
    split at hread
    · rename_i clientId subject found hevent
      cases hevent
      cases hread
      obtain ⟨rfl, rfl⟩ := FrontLedger.About.eq hallowed habout
      obtain ⟨c, hc, -, hclient, hsubject⟩ := hstored
      obtain ⟨hexec, -, -⟩ := World.perform_storage hperform
      have hnone := Table.find?_eq_none.mp (Except.ok.inj (congrArg Prod.fst hexec)) c hc
      simp [hclient, hsubject] at hnone
    · cases hread
  rw [FrontLedger.first_next]
  split
  · cases hfirst : l.consents.first with
    | none => simpa using hread
    | some found => simpa [hfirst] using h
  · exact h

/-- The consent is stored and the request does not know better, or it is gone for good: the request
has made its calls, or will only widen what it saw. -/
def Overtaken (srv : Server) (k : ConsentRecord) (i j : Nat) (s : ServiceState) : Prop :=
  ∃ t l, s.threads[i]? = some t ∧ srv.serviceDiscipline.ledger t = .front t.request l ∧
    (∃ l₀ : FrontLedger, l₀.About srv t.request k.clientId k.subject) ∧
    ((Standing k j s ∧ l.consents.first ≠ some none) ∨
      (s.world.store.Unconsented k ∧ (t.Finished ∨ ∃ e, l.consents.first = some (some e))))

/-- Where the pair has no consent, only thread `i` could create one. -/
theorem unconsented_step (hF : srv.serviceDiscipline.Follows s) {a : ServiceMove}
    (hok : OnlyThese k i j s a s') (h : s.world.store.Unconsented k)
    (hi : ∀ t, s.threads[i]? = some t → (srv.serviceDiscipline.ledger t).consents.first = some none →
      t.Finished)
    (hstep : srv.service.step s a = some s') : s'.world.store.Unconsented k := by
  rcases World.store_of_step rfl rfl hstep with hstore | ⟨now, -, hstore⟩ |
    ⟨n, choice, t, op, p, r, rfl, hn, hprog, hexec, -⟩
  · rwa [hstore]
  · rw [hstore]
    exact fun c hc => h c (((StorageOp.frame_exec (.sweepExpired now)).consents rfl).mem hc)
  · have hallowed := srv.serviceDiscipline.allowed_of_call hF (List.mem_of_getElem? hn) hprog
    simp only [OnlyThese, hn, Option.bind_some, Thread.call?_eq_some.mpr ⟨p, hprog⟩,
      Option.all_some, Bool.and_eq_true, Bool.or_eq_true, Bool.not_eq_true', beq_iff_eq] at hok
    generalize s'.world.store = g' at hexec
    have hinsert : ∀ {u : ConsentRecord}, g'.consents = s.world.store.consents.insert u →
        ¬ (u.clientId = k.clientId ∧ u.subject = k.subject) → g'.Unconsented k := by
      intro u hset hu c hc hclient hsubject
      rw [hset] at hc
      rcases Table.mem_insert.mp hc with rfl | ⟨hold, -⟩
      · exact hu ⟨hclient, hsubject⟩
      · exact h c hold hclient hsubject
    cases consentMove hallowed hexec with
    | shrinks other less => exact fun c hc => h c (less.mem hc)
    | refused same => exact same ▸ h
    | @creates u new once first free set =>
      refine hinsert set fun hpair => ?_
      cases hok.1.1.resolve_left (by simp [Effect.recordsFor, hpair])
      exact Thread.not_finished hprog (hi t hn first)
    | @widens e u found widens set =>
      refine hinsert set fun hpair => ?_
      obtain ⟨hclient, hsubject⟩ := MemoryInner.pair_of_findConsent found
      exact h e (Table.mem_of_find? found).1 (hclient.trans hpair.1) (hsubject.trans hpair.2)

theorem overtaken_step (h : srv.ServiceRuns ok clock s) {a : ServiceMove}
    (hI : srv.Overtaken k i j s) (hthese : OnlyThese k i j s a s')
    (hlooks : LooksFirst k i s a s') (hstep : srv.service.step s a = some s') :
    srv.Overtaken k i j s' := by
  obtain ⟨t, l, ht, hl, ⟨l₀, habout⟩, hphase⟩ := hI
  have hF := srv.serviceDiscipline.follows_run h
  have hallowed : ∀ e p, t.prog = .call e p → l.Allowed srv t.request e := by
    intro e p hprog
    have hallowed := srv.serviceDiscipline.allowed_of_call hF (List.mem_of_getElem? ht) hprog
    rwa [hl] at hallowed
  have hledger : ∀ e r p, srv.serviceDiscipline.ledger (t.resume e r p) =
      .front t.request (l.next e r) := by
    intro e r p
    rw [Discipline.ledger_resume, hl]
    rfl
  rcases hphase with ⟨hstanding, hfirst⟩ | ⟨hgone, hdone⟩
  · rcases standing_step h hthese hstanding hstep with hstanding' |
      ⟨choice, u, u', window, n, rfl, hu, -, hcall, -, hexec⟩
    · rcases Semantics.step_thread hstep ht with hsame | ⟨c, e, p, r, -, hprog, hperform, hnext⟩
      · exact ⟨t, l, hsame, hl, ⟨l₀, habout⟩, .inl ⟨hstanding', hfirst⟩⟩
      · exact ⟨_, _, hnext, hledger e r _, ⟨l₀, habout⟩, .inl ⟨hstanding',
          first_kept hstanding.stored habout (hallowed e p hprog) hperform hfirst⟩⟩
    · obtain ⟨c, hc, hsame⟩ := hstanding.stored
      obtain ⟨hgone, -⟩ :=
        MemoryInner.withdrawn_of_exec (service_onePerPair h) hc hsame hexec
      -- The request has looked by now, and it found the consent, or it has no more calls to make.
      have hdone : t.Finished ∨ ∃ e, l.consents.first = some (some e) := by
        have hlooked : ServiceCall.lookedAgain t = true ∨ t.Finished := by
          simpa [LooksFirst, hu, hcall, Effect.withdraws, ht] using hlooks
        refine hlooked.symm.imp_right fun hlooked => ?_
        rw [ServiceCall.lookedAgain, ← looked_of_ledger hl, Option.isSome_iff_exists] at hlooked
        obtain ⟨_ | e, hfound⟩ := hlooked
        · exact absurd hfound hfirst
        · exact ⟨e, hfound⟩
      rcases Semantics.step_thread hstep ht with hsame | ⟨c, e, p, r, ha, hprog, -, -⟩
      · exact ⟨t, l, hsame, hl, ⟨l₀, habout⟩, .inr ⟨hgone, hdone⟩⟩
      · cases ha
        cases hu.symm.trans ht
        obtain ⟨p', hprog'⟩ := Thread.call?_eq_some.mp hcall
        exact (hallowed _ p' hprog').elim
  · have hgone' : s'.world.store.Unconsented k := by
      refine unconsented_step hF hthese hgone ?_ hstep
      intro t' ht' hfirst
      cases ht'.symm.trans ht
      rw [hl] at hfirst
      refine hdone.resolve_right ?_
      rintro ⟨e, hfound⟩
      cases hfound.symm.trans hfirst
    rcases Semantics.step_thread hstep ht with hsame | ⟨c, e, p, r, -, hprog, -, hnext⟩
    · exact ⟨t, l, hsame, hl, ⟨l₀, habout⟩, .inr ⟨hgone', hdone⟩⟩
    · refine ⟨_, _, hnext, hledger e r _, ⟨l₀, habout⟩, .inr ⟨hgone', .inr ?_⟩⟩
      obtain ⟨found, hfound⟩ := hdone.resolve_left (Thread.not_finished hprog)
      refine ⟨found, ?_⟩
      rw [FrontLedger.first_next, hfound]
      split <;> rfl

theorem overtaken_of_reaches (h : srv.ServiceRuns ok clock s) (hI : srv.Overtaken k i j s)
    (hrun : srv.service.Reaches (fun s a s' => OnlyThese k i j s a s' ∧ LooksFirst k i s a s') s s') :
    srv.Overtaken k i j s' :=
  h.any.invariant_from hrun hI fun _ _ _ hreach hI hstep hok =>
    overtaken_step hreach hI hok.1 hok.2 hstep

end Server

/-! ## What a code can yield -/

/-- The token was issued for the grant the code stands for. -/
def IssuedToken.StemsFrom (t : IssuedToken) (m : AuthorizationCodeRecord) : Prop :=
  t.clientId = m.clientId ∧ t.subject = some m.subject ∧ t.grantEstablishedAt = m.issuedAt

/-- The refresh token was issued for the grant the code stands for. -/
def RefreshTokenRecord.StemsFrom (r : RefreshTokenRecord) (m : AuthorizationCodeRecord) : Prop :=
  r.clientId = m.clientId ∧ r.subject = some m.subject ∧ r.grantEstablishedAt = m.issuedAt

namespace Server

variable {srv : Server} {ok : ServiceState → ServiceMove → ServiceState → Prop} {clock : SystemTime}
  {s : ServiceState}
variable {m : AuthorizationCodeRecord}

/-- A code is for the pair its request was about, and dates from the arrival of the request. -/
theorem minted_about {w : World} (h : srv.service.Reaches ok (ServiceState.idle w) s) {i : Nat}
    {t : ServiceCall} (hi : s.threads[i]? = some t) {p : AuthorizeRequest}
    (hp : t.request = .authorize p) (hd : t.Did (.storage (.putAuthorizationCode m)) (.ok ()))
    (hreceived : t.trace.head? = some ⟨.now, received⟩) {clientId : ClientId} {subject : String}
    (habout : ∃ l₀ : FrontLedger, l₀.About srv t.request clientId subject) :
    m.clientId = clientId ∧ m.subject = subject ∧ m.issuedAt = received := by
  obtain ⟨l₀, habout⟩ := habout
  obtain ⟨before, after, htrace, -, l, -, hpast, approval, _, _, _, filed, code, hmints⟩ :=
    minting h hi (by rintro request entry hq; cases hp.symm.trans hq) hd
  have hissues := hmints.issues
  rw [hp] at hissues habout
  obtain ⟨door, validated, user, instant, hdoor, hresolved, huser, hhead, rfl, -⟩ := hissues
  have hpair : l.About srv (.authorize p) validated.clientId user :=
    ⟨p, door, validated, rfl, hdoor, hresolved, rfl, huser⟩
  obtain ⟨hclient, hsubject⟩ := hpair.eq habout
  rw [htrace, List.head?_append, ← hpast, hhead] at hreceived
  cases hreceived
  rw [hmints.record_eq]
  exact ⟨hclient, hsubject, rfl⟩

/-- What a redemption holds or has redeemed is the code it presented. -/
theorem presented_of_carried {w : World} (h : srv.service.Reaches ok (ServiceState.idle w) s) :
    ∀ m ∈ srv.serviceDiscipline.ledgers s, ∀ l p r, m = .api l →
      l.request = .authorizationCodeToken p →
      (l.codes.hand = some r ∨ l.codes.redeemed = some r) → r.code = p.code := by
  refine srv.serviceDiscipline.ledger_invariant h ?_ ?_
  · rintro (⟨request, entry⟩ | _ | _ | _ | _ | _ | _ | _) l p r ⟨⟩ - (hr | hr) <;> cases hr
  · rintro (l | ⟨q, l⟩) e a hΦ hallowed hpossible _ p r ⟨⟩ hrequest hr
    rw [Ledger.next_request] at hrequest
    rcases hand_next hr with hold | ⟨x, hevent⟩
    · exact hΦ l p r rfl hrequest hold
    · cases hevent
      obtain ⟨p', hrequest', rfl, -⟩ := hallowed
      obtain ⟨g, hfound⟩ := hpossible
      cases hrequest.symm.trans hrequest'
      exact Table.key_of_lookup (Except.ok.inj hfound)

/-- Every token that a redemption of the code writes is one of its grant. -/
theorem stems_of_redemption (h : srv.ServiceRuns ok clock s) {i : Nat} {t : ServiceCall}
    (hi : s.threads[i]? = some t) (hq : ∀ request entry, t.request ≠ .api request entry)
    (hm : t.Did (.storage (.putAuthorizationCode m)) (.ok ())) {x : ServiceCall}
    (hx : x ∈ s.threads) {p : CodePresentation}
    (hp : x.request = .api (.authorizationCodeToken p) rfl) (hcode : p.code = m.code) :
    (∀ token, x.Did (.storage (.putToken token)) (.ok .applied) → token.StemsFrom m) ∧
      ∀ r, x.Did (.storage (.putRefreshToken r)) (.ok .applied) → r.StemsFrom m := by
  -- When the redemption made a call, the grant it acted for was the one of the code.
  have hcarried : ∀ e a, x.Did e a → ∃ l : Ledger, l.request = .authorizationCodeToken p ∧
      l.Allowed srv e ∧ ∀ {clientId familyId subject established},
        l.Grants srv clientId familyId subject established →
        clientId = m.clientId ∧ subject = some m.subject ∧ established = m.issuedAt := by
    intro e a hd
    obtain ⟨before, after, htrace⟩ := List.append_of_mem hd
    obtain ⟨j, hj⟩ := List.mem_iff_getElem?.mp hx
    obtain ⟨mo⟩ := h.moment hj htrace
    have hhere := List.mem_of_getElem? mo.here
    obtain ⟨l, hl, hrequest⟩ := srv.summary_api (.authorizationCodeToken p) rfl before
    have hledger : srv.serviceDiscipline.ledger mo.caller = .api l := by
      rw [Discipline.ledger, mo.request, mo.trace, hp, hl]
    have hallowed := (srv.serviceDiscipline.allowed_of_trace h hx htrace).1
    rw [hp, hl] at hallowed
    refine ⟨l, hrequest, hallowed, fun hgrants => ?_⟩
    unfold Ledger.Grants at hgrants
    rw [hrequest] at hgrants
    obtain ⟨r, hr, hclient, hsubject, hestablished, -⟩ := hgrants
    have hmem := hledger ▸ Discipline.mem_ledgers (D := srv.serviceDiscipline) hhere
    have hpresented := presented_of_carried mo.reached _ hmem l p r rfl hrequest (.inr hr)
    obtain ⟨u, hu, m', hfront, hstored, hsame⟩ := minter (fun _ => Table.mem_empty) mo.reached
      (.inr ⟨_, hmem, .inr hr⟩)
    obtain ⟨n, hn⟩ := List.mem_iff_getElem?.mp hu
    obtain ⟨u', hn', hrequest', htrace'⟩ := Semantics.Reaches.thread
      (Relation.ReflTransGen.head ⟨_, mo.steps, mo.fair⟩ mo.leads) hn
    have hminted := minted_of_did h (List.mem_of_getElem? hi) hq hm
    have hminted' := minted_of_did h (List.mem_of_getElem? hn') (hrequest' ▸ hfront)
      (htrace'.subset hstored)
    have hcode' : r.code = m'.code := by
      rw [hsame]
    obtain ⟨-, rfl⟩ := minted_once h hi hn' hminted hminted'
      (hcode.symm.trans (hpresented.symm.trans hcode'))
    rw [show r.SameCode m from hsame] at hclient hsubject hestablished
    exact ⟨hclient, hsubject, hestablished⟩
  refine ⟨fun token hd => ?_, fun r hd => ?_⟩
  · obtain ⟨l, hrequest, ⟨-, hgrants, -⟩, hstems⟩ := hcarried _ _ hd
    exact hstems hgrants
  · obtain ⟨l, hrequest, hwrites, hstems⟩ := hcarried _ _ hd
    cases (hwrites : l.WritesRefresh srv r) with
    | putBack request | spend request | putUnheld request => cases hrequest.symm.trans request
    | mint free right first drawn key active grant draws chain => exact hstems grant

end Server

/-! ## The guarantee -/

/-- The approval step has just answered the request, to approve and remember, while a consent for
its pair is stored. -/
structure JustApproved (k : ConsentRecord) (received : SystemTime) (t : ServiceCall)
    (s : ServiceState) : Prop where
  authorizes : ∃ p, t.request = .authorize p
  arrived : t.trace.head? = some ⟨.now, received⟩
  approved : ∃ asked, t.trace.getLast? = some ⟨.approve asked, .approveAndRemember⟩ ∧
    asked.clientId = k.clientId ∧ asked.subject = k.subject
  stored : k ∈ s.world.store.consents

/-- A withdrawal against an approval decided before it. Thread `i` is the request whose approval
step has just said to approve and remember while the consent `k` was stored, thread `j` the
withdrawal of `k`, which has made no call yet; no other request is for the pair. Once the
withdrawal went through the pair has no consent, provided the request had taken its second look at
the store by then or had been answered. In any case nothing stored stems from a code of the request
as long as the barrier is not swept, and whatever a redemption of the code writes stems from it. -/
theorem withdrawal_wins_over_approval {srv : Server} {clock received : SystemTime}
    {s₁ s₂ s₃ : ServiceState} {i j : Nat} {k : ConsentRecord} {t withdrawal : ServiceCall}
    (h₁ : srv.service.Reaches Semantics.anyStep (ServiceState.idle (.initial clock)) s₁)
    (hi : s₁.threads[i]? = some t) (happroved : JustApproved k received t s₁)
    (hj : ∀ u, s₁.threads[j]? = some u → u.trace = [])
    (h₂ : srv.service.Reaches (fun s a s' => OnlyThese k i j s a s' ∧ BarrierKept k s a s') s₁ s₂)
    (hwithdrawal : s₂.threads[j]? = some withdrawal)
    (hdone : ∃ window n,
      withdrawal.Did (.storage (.revokeConsent k.consentId window)) (.ok n))
    (hlate : ∀ window n, withdrawal.Did (.storage (.revokeConsent k.consentId window)) (.ok n) →
      received ≤ window.recordedAt)
    (h₃ : srv.service.Reaches (BarrierKept k) s₂ s₃) :
    (srv.service.Reaches (fun s a s' => OnlyThese k i j s a s' ∧ LooksFirst k i s a s') s₁ s₂ →
      ∀ c ∈ s₂.world.store.consents, c.clientId = k.clientId → c.subject ≠ k.subject) ∧
    ∀ t', s₃.threads[i]? = some t' → ∀ m, t'.Did (.storage (.putAuthorizationCode m)) (.ok ()) →
      (∀ token ∈ s₃.world.store.tokens, ¬ token.StemsFrom m) ∧
      (∀ r ∈ s₃.world.store.refresh, ¬ r.StemsFrom m) ∧
      ∀ x ∈ s₃.threads, ∀ p, x.request = .api (.authorizationCodeToken p) rfl → p.code = m.code →
        (∀ token, x.Did (.storage (.putToken token)) (.ok .applied) → token.StemsFrom m) ∧
        ∀ r, x.Did (.storage (.putRefreshToken r)) (.ok .applied) → r.StemsFrom m := by
  obtain ⟨⟨p, hp⟩, harrived, ⟨asked, hlast, hclient, hsubject⟩, hstored⟩ := happroved
  have hfront : ∀ request entry, t.request ≠ .api request entry := by
    rintro request entry hq
    cases hp.symm.trans hq
  obtain ⟨before, htrace⟩ := List.getLast?_eq_some_iff.mp hlast
  obtain ⟨l₀, -, -, habout⟩ := Server.front_allowed h₁ (List.mem_of_getElem? hi) hfront htrace
  rw [hclient, hsubject] at habout
  have hstanding : Standing k j s₁ := by
    refine ⟨⟨k, hstored, rfl, rfl, rfl⟩, fun u hu window n hdid => ?_⟩
    rw [Thread.Did, hj u hu] at hdid
    cases hdid
  have hspent : ¬ Standing k j s₂ := by
    obtain ⟨window, n, hdid⟩ := hdone
    exact fun h => h.unspent withdrawal hwithdrawal window n hdid
  refine ⟨fun hrun => ?_, fun t' hi' m hm => ?_⟩
  · obtain ⟨l, hl, hfirst⟩ := Server.unlooked_of_approved h₁ hi hfront htrace
    have hovertaken : srv.Overtaken k i j s₁ :=
      ⟨t, l, hi, hl, ⟨l₀, habout⟩, .inl ⟨hstanding, by rw [hfirst]; rintro ⟨⟩⟩⟩
    obtain ⟨_, _, -, -, -, hphase⟩ := Server.overtaken_of_reaches h₁ hovertaken hrun
    rcases hphase with ⟨hstanding', -⟩ | ⟨hgone, -⟩
    · exact absurd hstanding' hspent
    · exact hgone
  · have hreach := (h₁.trans h₂.any).trans h₃.any
    -- The barrier of the withdrawal covers the grant of the code.
    have hbarred : s₃.world.store.Barred k received := by
      rcases Server.barred_of_withdrawn h₁ hstanding h₂ with h | ⟨u, window, n, hu, hdid, b, hb, hr⟩
      · exact absurd h hspent
      · cases hu.symm.trans hwithdrawal
        have hF := srv.serviceDiscipline.follows_run (h₁.trans h₂.any)
        refine (h₃.invariant (I := fun s : ServiceState => srv.serviceDiscipline.Follows s ∧
          s.world.store.Barred k received) ?_
          ⟨hF, b, hb, Int.le_trans (hlate window n hdid) hr⟩).2
        rintro s a s' ⟨hF, hbarred⟩ hstep hunswept
        exact ⟨(Discipline.ledgerStep hF hstep).2, Server.barred_step hF hunswept hbarred hstep⟩
    obtain ⟨b, hb, hr⟩ := hbarred
    have hunrevoked := Server.service_unrevoked hreach
    obtain ⟨u, hu, hrequest, hprefix⟩ := (h₂.any.trans h₃.any).thread hi
    cases hu.symm.trans hi'
    obtain ⟨hclient', hsubject', hissued⟩ : m.clientId = k.clientId ∧ m.subject = k.subject ∧
        m.issuedAt = received := by
      refine Server.minted_about hreach hi' (hrequest.trans hp) hm ?_ ⟨l₀, hrequest ▸ habout⟩
      obtain ⟨more, hmore⟩ := hprefix
      rw [← hmore, List.head?_append, harrived]
      rfl
    have hcovered : ∀ {clientId familyId subject established},
        s₃.world.store.Uncovered clientId familyId subject established →
        clientId = m.clientId → subject = some m.subject → established ≠ m.issuedAt := by
      rintro clientId familyId subject established huncovered rfl rfl rfl
      have hlater := huncovered.consent k.subject b (congrArg some hsubject') (hclient' ▸ hb)
      rw [hissued] at hlater
      exact absurd (Int.lt_of_le_of_lt hr hlater) (Int.lt_irrefl _)
    refine ⟨?_, ?_, ?_⟩
    · rintro token htoken ⟨hc, hs, he⟩
      exact hcovered (hunrevoked.tokens token htoken) hc hs he
    · rintro r hr ⟨hc, hs, he⟩
      exact hcovered (hunrevoked.refresh r hr) hc hs he
    · intro x hx p hp' hcode
      exact Server.stems_of_redemption hreach hi' (hrequest ▸ hfront) hm hx hp' hcode

/-! ## Before and after the second look -/

namespace Sample

def browsing : AuthorizeRequest :=
  ⟨"response_type=code&client_id=app&code_challenge_method=S256&code_challenge=" ++ verifier, true,
    some "user", true, none⟩

def remembered : ConsentRecord := ⟨(hex 16 1).text, "app", "user", .empty, [], 0, none⟩

/-- A consent is recorded, and a request comes in and is approved. -/
def approvesAgain : List ServiceMove :=
  appears ++ [.spawn (.api (.recordConsent "app" "user" .empty [] none) rfl)] ++ goes 1 2 ++
    [.run 1 (.hex (some remembered.consentId)), .run 1 .none] ++
    [.spawn (.authorize browsing), .run 2 .none, .run 2 (.decision .allow)] ++ goes 2 3 ++
    [.run 2 (.approval .approveAndRemember)]

/-- The code is issued. -/
def issuesOn : List ServiceMove :=
  [.run 2 .none, .run 2 (.decision .allow), .run 2 .none, .run 2 (.hex (some code))] ++ goes 2 2

/-- The withdrawal of the consent comes in. -/
def withdrawalComes : List ServiceMove := [.spawn (.api (.withdrawConsent remembered.consentId) rfl)]

def asked : ApprovalRequest :=
  Server.approvalRequest browsing "user"
    { approval.request with redirectUriWasExplicit := false, scope := .empty } (some remembered)

/-- The withdrawal is recorded at the epoch. -/
def revokes : Effect := .storage (.revokeConsent remembered.consentId
  ⟨0, server.deadline 0 server.config.longestLifetime⟩)

end Sample

/-- The hypotheses about the withdrawal, as far as they can be read off its trace. -/
theorem late_of_trace {u : ServiceCall}
    (h : (u.trace.all fun
      | ⟨.storage (.revokeConsent _ window), _⟩ => decide (received ≤ window.recordedAt)
      | _ => true) = true) {consentId : String} {n : Nat}
    (hdid : u.Did (.storage (.revokeConsent consentId window)) (.ok n)) :
    received ≤ window.recordedAt :=
  of_decide_eq_true (List.all_eq_true.mp h _ hdid)

theorem approvesAgain_approved {s : ServiceState}
    (h : server.service.run (ServiceState.idle (.initial 0)) approvesAgain = some s) :
    ∃ t, s.threads[2]? = some t ∧ JustApproved remembered 0 t s ∧ s.threads[3]? = none := by
  have hall : ∀ s ∈ server.service.run (ServiceState.idle (.initial 0)) approvesAgain,
      (∃ t ∈ s.threads[2]?, t.request = .authorize browsing ∧
        t.trace.head? = some ⟨.now, (0 : Int)⟩ ∧
        t.trace.getLast? = some ⟨.approve asked, .approveAndRemember⟩) ∧ s.threads[3]? = none ∧
      s.world.store.consents.lookup remembered.consentId = some remembered := by
    decide +kernel
  obtain ⟨⟨t, ht, hp, hhead, hlast⟩, hfree, hstored⟩ := hall s h
  exact ⟨t, ht, ⟨⟨_, hp⟩, hhead, ⟨asked, hlast, rfl, rfl⟩, Table.mem_of_lookup hstored⟩, hfree⟩

/-- The consent is withdrawn after the second look and after the code has been redeemed: nothing is
left of it or of the token, and the request, which has minted its code, gives up. -/
theorem withdrawal_wins_over_approval_looked :
    ∃ s₁ s₂ : ServiceState, ∃ t withdrawal t' redemption : ServiceCall, ∃ m token,
      server.service.Reaches Semantics.anyStep (ServiceState.idle (.initial 0)) s₁ ∧
      s₁.threads[2]? = some t ∧ JustApproved remembered 0 t s₁ ∧
      server.service.Reaches (fun s a s' => OnlyThese remembered 2 3 s a s' ∧
        LooksFirst remembered 2 s a s') s₁ s₂ ∧
      s₂.threads[3]? = some withdrawal ∧ withdrawal.Did revokes (.ok 3) ∧ withdrawal.Finished ∧
      s₂.threads[2]? = some t' ∧ t'.Finished ∧
      t'.Did (.storage (.putAuthorizationCode m)) (.ok ()) ∧
      redemption ∈ s₂.threads ∧
      redemption.Did (.storage (.putToken token)) (.ok .applied) ∧ token.StemsFrom m ∧
      (∀ c ∈ s₂.world.store.consents, c.clientId = "app" → c.subject ≠ "user") ∧
      ∀ token ∈ s₂.world.store.tokens, ¬ token.StemsFrom m := by
  obtain ⟨s₁, hs₁, s₂, hs₂, ⟨u, hu, hdid, hfinished, hlate⟩, ⟨t', ht', hfinished', m, hm, hcode⟩, x,
      hx, hp, token, htoken, -⟩ : ∃ s₁ ∈ server.service.run (ServiceState.idle (.initial 0)) approvesAgain,
      ∃ s₂ ∈ server.service.runChecked (fun s a s' => decide (OnlyThese remembered 2 3 s a s' ∧
          BarrierKept remembered s a s' ∧ LooksFirst remembered 2 s a s')) s₁
        (issuesOn ++ goes 2 2 ++ withdrawalComes ++ redeemsAt 4 3 ++ goes 3 4 ++ goes 2 2),
      (∃ u ∈ s₂.threads[3]?, ⟨revokes, .ok 3⟩ ∈ u.trace ∧ u.Finished ∧ (u.trace.all fun
        | ⟨.storage (.revokeConsent _ window), _⟩ => decide ((0 : Int) ≤ window.recordedAt)
        | _ => true) = true) ∧
      (∃ t ∈ s₂.threads[2]?, t.Finished ∧
        ∃ m ∈ (server.serviceDiscipline.ledger t).minted, (presentation "app").code = m.code) ∧
      ∃ x ∈ s₂.threads[4]?, x.request = .api (.authorizationCodeToken (presentation "app")) rfl ∧
        ∃ token ∈ written x.trace, True := by
    decide +kernel
  obtain ⟨t, ht, happroved, hfree⟩ := approvesAgain_approved hs₁
  have hreach := Semantics.reaches_of_run hs₁
  have hthese := Semantics.reaches_of_runChecked (fun _ _ _ h => of_decide_eq_true h) hs₂
  have hminted := Server.did_of_minted hm
  obtain ⟨hgone, hyields⟩ := withdrawal_wins_over_approval hreach ht happroved
    (by rw [hfree]; rintro _ ⟨⟩) (hthese.mono fun _ _ _ h => ⟨h.1, h.2.1⟩) hu ⟨_, _, hdid⟩
    (fun _ _ => late_of_trace hlate) .refl
  have hlooks : server.service.Reaches (fun s a s' => OnlyThese remembered 2 3 s a s' ∧
      LooksFirst remembered 2 s a s') s₁ s₂ := hthese.mono fun _ _ _ h => ⟨h.1, h.2.2⟩
  obtain ⟨htokens, -, hredeemed⟩ := hyields t' ht' m hminted
  have hstems := (hredeemed x (List.mem_of_getElem? hx) _ hp hcode).1 token (mem_of_written htoken)
  exact ⟨s₁, s₂, t, u, t', x, m, token, hreach, ht, happroved, hlooks, hu, hdid, hfinished, ht',
    hfinished', hminted, List.mem_of_getElem? hx, mem_of_written htoken, hstems, hgone hlooks,
    htokens⟩

/-- The consent is withdrawn between the approval and the second look, with nothing else going on:
both requests are answered, and a consent for the pair is stored. -/
theorem withdrawal_before_second_look_undone :
    ∃ s₁ s₂ : ServiceState, ∃ t withdrawal t' : ServiceCall,
      server.service.Reaches Semantics.anyStep (ServiceState.idle (.initial 0)) s₁ ∧
      s₁.threads[2]? = some t ∧ JustApproved remembered 0 t s₁ ∧ s₁.threads[3]? = none ∧
      server.service.Reaches (fun s a s' => OnlyThese remembered 2 3 s a s' ∧
        BarrierKept remembered s a s') s₁ s₂ ∧
      s₂.threads[3]? = some withdrawal ∧
      withdrawal.request = .api (.withdrawConsent remembered.consentId) rfl ∧
      withdrawal.Did revokes (.ok 0) ∧ withdrawal.Finished ∧
      s₂.threads[2]? = some t' ∧ t'.Finished ∧
      ∃ c ∈ s₂.world.store.consents, c.clientId = "app" ∧ c.subject = "user" := by
  obtain ⟨s₁, hs₁, s₂, hs₂, ⟨u, hu, hdid, hfinished, hrequest⟩, ⟨t', ht', hfinished'⟩, c, hc, hclient,
      hsubject⟩ : ∃ s₁ ∈ server.service.run (ServiceState.idle (.initial 0)) approvesAgain,
      ∃ s₂ ∈ server.service.runChecked (fun s a s' => decide (OnlyThese remembered 2 3 s a s' ∧
          BarrierKept remembered s a s')) s₁ (withdrawalComes ++ goes 3 4 ++ issuesOn ++ goes 2 2 ++
            [.run 2 (.hex (some (hex 16 2).text)), .run 2 .none]),
      (∃ u ∈ s₂.threads[3]?, ⟨revokes, .ok 0⟩ ∈ u.trace ∧ u.Finished ∧
        u.request = .api (.withdrawConsent remembered.consentId) rfl) ∧
      (∃ t ∈ s₂.threads[2]?, t.Finished) ∧
      ∃ c ∈ s₂.world.store.consents.lookup (hex 16 2).text,
        c.clientId = "app" ∧ c.subject = "user" := by
    decide +kernel
  obtain ⟨t, ht, happroved, hfree⟩ := approvesAgain_approved hs₁
  exact ⟨s₁, s₂, t, u, t', Semantics.reaches_of_run hs₁, ht, happroved, hfree,
    Semantics.reaches_of_runChecked (fun _ _ _ h => of_decide_eq_true h) hs₂, hu, hrequest, hdid,
    hfinished, ht', hfinished', c, Table.mem_of_lookup hc, hclient, hsubject⟩

end OauthAs
