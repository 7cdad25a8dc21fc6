-- SUMMARY: A refresh family is a single chain, and a refused chain stays refused under strict rotation.
import OauthAs.Protocol.Provenance

/-!
# Refresh chains

A family has at most one active record, wherever it is: stored, held by a request that took it,
or owed by a request that spent its predecessor. The same is true of a single string: it is
active in one place, was spent once, or is yet to be written. Both are budgets: a weight of the
stored records and a weight of each ledger whose sum no move raises above one.
-/

namespace OauthAs

variable {r : RefreshTokenRecord}

/-! ## Budgets -/

/-- A weight of ledgers that every call pays for with stored records that satisfy `p`. -/
structure Ledger.Pays (srv : Server) (p : RefreshTokenRecord → Bool) (f : Ledger → Nat) (l : Ledger) :
    Prop where
  same : ∀ l' : Ledger, l'.chain.held = l.chain.held → l'.chain.mint = l.chain.mint →
    l'.chain.rotated = l.chain.rotated → l'.chain.successor = l.chain.successor →
    l'.issue.entropy = l.issue.entropy → f l' = f l
  take : ∀ x r, f { l with chain := l.chain.take x r } ≤ f l + (r.any p).toNat
  put : ∀ r, l.WritesRefresh srv r →
    (p r).toNat + f { l with chain := l.chain.put r } ≤ f l
  drop : ∀ l' : Ledger, l' = { l with chain.held := none, issue.setback := true } → f l' ≤ f l
  rotate : ∀ q expected spent access next, l.Rotates srv q expected spent access next →
    (p spent).toNat + (next.any p).toNat +
        f { l with chain := l.chain.rotate expected next, issue.access := some access } ≤
      (p expected).toNat + f l

section Budget
variable {srv : Server} {p : RefreshTokenRecord → Bool} {f : Ledger → Nat} {l : Ledger}
  {g g' : MemoryInner} {op : StorageOp}

theorem Ledger.Pays.stored {a : op.Result} (h : l.Pays srv p f) (may : l.MayStore srv op)
    (hexec : op.exec g = (.ok a, g')) :
    g'.refresh.count p + f (l.stored op a) ≤ g.refresh.count p + f l := by
  have hg' : (op.exec g).2 = g' := (Prod.ext_iff.mp hexec).2
  obtain ⟨hframe, -⟩ := StorageOp.exec_writes hexec
  cases op with
  | takeRefreshToken x =>
    have hcount := StorageOp.count_takeRefreshToken (g := g) p x
    have hlookup : g.refresh.lookup x = a := Except.ok.inj (Prod.ext_iff.mp hexec).1
    have htally : g.refresh.tally p x = (a.any p).toNat := by
      rw [Table.tally, hlookup]
      cases a <;> rfl
    have hf : f (l.stored (.takeRefreshToken x) a) ≤ _ := h.take x a
    rw [hg'] at hcount
    omega
  | putRefreshToken r =>
    cases a with
    | applied =>
      have hf : _ + f (l.stored (.putRefreshToken r) .applied) ≤ _ := h.put r may
      have hcount := StorageOp.count_putRefreshToken_le (g := g) p r
      simp only [StorageOp.exec, StorageOp.succeeding, MemoryInner.putRefreshToken] at hexec
      split at hexec
      · cases hexec
      · cases hexec
        simp only at hcount ⊢
        omega
    | refusedRevoked =>
      have hf := h.drop (l.stored (.putRefreshToken r) .refusedRevoked) rfl
      simp only [StorageOp.exec, StorageOp.succeeding, MemoryInner.putRefreshToken] at hexec
      split at hexec
      · cases hexec
        exact Nat.add_le_add_left hf _
      · cases hexec
  | rotateRefreshToken expected spent access next =>
    by_cases hrot : StorageOp.Rotates g expected
    · obtain ⟨q, hmay⟩ := may
      have hcount := StorageOp.count_rotateRefreshToken_le p access next hrot hmay.spent.1
      have hf := h.rotate q expected spent access next hmay
      rw [hg'] at hcount
      rw [StorageOp.exec_rotateRefreshToken_of hrot] at hexec
      cases hexec
      simp only [Ledger.stored] at hf hcount ⊢
      omega
    · rw [StorageOp.exec_rotateRefreshToken_of_not hrot] at hexec
      cases hexec
      exact Nat.le_refl _
  | _ =>
    refine Nat.add_le_add ((hframe.refresh rfl).count_le p) (Nat.le_of_eq ?_)
    first
    | exact h.same _ rfl rfl rfl rfl rfl
    | (cases a <;> exact h.same _ rfl rfl rfl rfl rfl)

/-- A budget of one is kept if new strings are drawn only where nothing was spent yet. -/
theorem budget_step {w w' : World} {ls ls' : List Ledger} (ht : srv.Turns w ls w' ls')
    (hpays : ∀ l ∈ ls, l.Pays srv p f) (hstart : ∀ q, f (.start q) = 0)
    (hdraws : ∀ l ∈ ls, ∀ e, l.issue.entropy = none → w.Fresh (World.drawnStrings e) →
      f (l.next .tokenEntropy (some e)) ≤ f l ∨
        (w.store.refresh.count p = 0 ∧ total f ls = 0 ∧ f (l.next .tokenEntropy (some e)) ≤ 1))
    (h : w.store.refresh.count p + total f ls ≤ 1) :
    w'.store.refresh.count p + total f ls' ≤ 1 := by
  cases ht with
  | spawn q =>
    rw [total_append_one, hstart]
    exact h
  | stored i l op a g hi may exec =>
    have hl := hpays l (List.mem_of_getElem? hi)
    exact Nat.le_trans (add_total_set_le hi (hl.stored may exec)) h
  | draws i l e hi first fresh =>
    have hset := total_set (f := f) hi (l.next .tokenEntropy (some e))
    rcases hdraws l (List.mem_of_getElem? hi) e first fresh with hle | ⟨hcount, htotal, hle⟩
    · simp only at h ⊢
      omega
    · have := le_total_of_mem (f := f) (List.mem_of_getElem? hi)
      simp only
      omega
  | aside i l l' w' hi aside store used identifier =>
    rw [store]
    have hsame : f l' = f l := by
      refine (hpays l (List.mem_of_getElem? hi)).same l' ?_ ?_ ?_ ?_ aside.entropy <;> rw [aside.chain]
    exact Nat.le_trans (add_total_set_le hi (by rw [hsame])) h
  | alone w' store used =>
    rw [store]
    exact h
  | sweep now =>
    have := ((StorageOp.frame_exec (g := w.store) (.sweepExpired now)).refresh rfl).count_le p
    simp only
    omega

end Budget

/-! ## One active record for each family and each string -/

def activeIn (f : String) (r : RefreshTokenRecord) : Bool := r.state = .active && r.familyId == f

def activeAt (x : String) (r : RefreshTokenRecord) : Bool :=
  r.state = .active && r.refreshToken == x

/-- A request claims a family while it holds its active record or owes its next one. -/
def Ledger.claimsFamily (f : String) (l : Ledger) : Nat :=
  (l.chain.held.any (activeIn f)).toNat + (l.chain.mint == some f).toNat

/-- A request claims a string while it holds it active, after it has spent it, and from drawing
it to writing it. -/
def Ledger.claimsString (x : String) (l : Ledger) : Nat :=
  (l.chain.held.any (activeAt x)).toNat + (l.chain.rotated.any fun r => r.refreshToken == x).toNat +
    (l.chain.successor.isNone && l.issue.entropy.any fun e => e.refresh.text == x).toNat

namespace Ledger

variable {srv : Server} {l : Ledger}

theorem not_spent_active : ¬ (r.state = .spent ∧ r.state = .active) := by
  rintro ⟨h, h'⟩
  cases h.symm.trans h'

theorem pays_family (hrotates : srv.config.reuses = false)
    (hread : ∀ r ∈ l.chain.reads, r.familyId.isEmpty = false) (f : String) :
    l.Pays srv (activeIn f) (claimsFamily f) where
  same := by
    intro l' hheld hmint _ _ _
    simp only [claimsFamily, hheld, hmint]
  take := by
    intro x r
    simp only [claimsFamily, ChainLedger.take]
    omega
  put := by
    intro r hr
    cases hr with
    | putBack request presented held =>
      simp [claimsFamily, ChainLedger.put, held, not_spent_active]
    | spend request strict held active presented unrotated key grant terms spent =>
      simp [claimsFamily, ChainLedger.put, held, spent, active, activeIn]
    | putUnheld request presented free idle read odd =>
      rcases odd with hreuses | hempty
      · rw [hrotates] at hreuses
        cases hreuses
      · rw [hread r read] at hempty
        cases hempty
    | mint free right first drawn key active grant draws chain =>
      simp [claimsFamily, ChainLedger.put, free, right, active, activeIn]
  drop := by
    rintro l' rfl
    simp [claimsFamily]
  rotate := by
    intro q expected spent access next hrot
    have hspent := hrot.spent.spent
    have hnext : next.any (activeIn f) = true → activeIn f expected = true := by
      cases next with
      | none => simp
      | some n =>
        obtain ⟨-, ⟨-, hfam, -, -⟩, -⟩ := hrot.successor n rfl
        simp [activeIn, hrot.active, hfam]
    have hf : claimsFamily f
        { l with chain := l.chain.rotate expected next, issue.access := some access } =
          claimsFamily f l := rfl
    have hs : activeIn f spent = false := by simp [activeIn, hspent]
    rw [hf, hs]
    by_cases hn : next.any (activeIn f) = true
    · simp [hn, hnext hn]
    · simp [hn]

theorem pays_string (hrotates : srv.config.reuses = false)
    (hread : ∀ r ∈ l.chain.reads, r.familyId.isEmpty = false) (x : String) :
    l.Pays srv (activeAt x) (claimsString x) where
  same := by
    intro l' hheld _ hrotated hsuccessor hentropy
    simp only [claimsString, hheld, hrotated, hsuccessor, hentropy]
  take := by
    intro y r
    simp only [claimsString, ChainLedger.take]
    omega
  put := by
    intro r hr
    cases hr with
    | putBack request presented held =>
      simp [claimsString, ChainLedger.put, held, not_spent_active]
      omega
    | spend request strict held active presented unrotated key grant terms spent =>
      simp [claimsString, ChainLedger.put, held, spent, active, activeAt, unrotated]
    | putUnheld request presented free idle read odd =>
      rcases odd with hreuses | hempty
      · rw [hrotates] at hreuses
        cases hreuses
      · rw [hread r read] at hempty
        cases hempty
    | mint free right first drawn key active grant draws chain =>
      simp [claimsString, ChainLedger.put, free, right, active, activeAt, first, drawn, key]
      omega
  drop := by
    rintro l' rfl
    simp [claimsString]
  rotate := by
    intro q expected spent access next hrot
    have hspent := hrot.spent.spent
    have hs : activeAt x spent = false := by simp [activeAt, hspent]
    have he : activeAt x expected = (expected.refreshToken == x) := by simp [activeAt, hrot.active]
    rw [hs, he]
    cases next with
    | none =>
      simp [claimsString, ChainLedger.rotate, hrot.unrotated, hrot.first]
      omega
    | some n =>
      obtain ⟨hactive, -, -, -, e, hentropy, hkey⟩ := hrot.successor n rfl
      simp [claimsString, ChainLedger.rotate, hrot.unrotated, hrot.first, hentropy, activeAt, hactive,
        hkey]
      omega

end Ledger

section Reachable
open Sample
variable {srv : Server} {n : RefreshTokenRecord} {p : RefreshPresentation} {clock : SystemTime}

/-- The two budgets of a server that rotates. -/
structure SingleChains (srv : Server) (w : World) (ls : List Ledger) : Prop where
  provenance : Provenance srv w ls
  family : ∀ f, w.store.refresh.count (activeIn f) + total (Ledger.claimsFamily f) ls ≤ 1
  string : ∀ x, w.store.refresh.count (activeAt x) + total (Ledger.claimsString x) ls ≤ 1

namespace SingleChains

variable {w w' : World} {ls ls' : List Ledger}

/-- A family nobody was handed the name of has no records and no claims. -/
theorem family_unused (h : Provenance srv w ls) {f : String} (hf : f ∉ w.used) :
    w.store.refresh.count (activeIn f) = 0 ∧ total (Ledger.claimsFamily f) ls = 0 := by
  have hrecord : ∀ r, Known w ls r → activeIn f r = false := by
    intro r hr
    have hne : r.familyId ≠ f := by
      rintro rfl
      exact hf (h.family_used hr).1
    simp [activeIn, hne]
  refine ⟨Table.count_eq_zero.mpr fun r hr => hrecord r (.inl hr), total_eq_zero fun l hl => ?_⟩
  have hmint : (l.chain.mint == some f) = false := by
    refine beq_eq_false_iff_ne.mpr fun h' => hf (h.mint_used hl h')
  have hheld : l.chain.held.any (activeIn f) = false := by
    cases hr : l.chain.held with
    | none => rfl
    | some r =>
      exact hrecord r (.of_record hl (ChainLedger.mem_records.mpr (.inr (.inl hr))))
  simp [Ledger.claimsFamily, hheld, hmint]

theorem string_unused (h : Provenance srv w ls) {x : String} (hx : x ∉ w.used) :
    w.store.refresh.count (activeAt x) = 0 ∧ total (Ledger.claimsString x) ls = 0 := by
  have hne : ∀ r, Known w ls r → r.refreshToken ≠ x := by
    rintro r hr rfl
    exact hx (h.key_used hr)
  refine ⟨Table.count_eq_zero.mpr fun r hr => ?_, total_eq_zero fun l hl => ?_⟩
  · simp [activeAt, hne r (.inl hr)]
  have hheld : l.chain.held.any (activeAt x) = false := by
    cases hr : l.chain.held with
    | none => rfl
    | some r =>
      simp [activeAt, hne r (.of_record hl (ChainLedger.mem_records.mpr (.inr (.inl hr))))]
  have hrotated : (l.chain.rotated.any fun r => r.refreshToken == x) = false := by
    cases hr : l.chain.rotated with
    | none => rfl
    | some r =>
      simp [hne r (.of_record hl (ChainLedger.mem_records.mpr (.inr (.inr (.inl hr)))))]
  have hentropy : (l.issue.entropy.any fun e => e.refresh.text == x) = false := by
    cases he : l.issue.entropy with
    | none => rfl
    | some e =>
      have hacc := h.fresh.accounted l hl
      have : e.refresh.text ≠ x := by
        rintro rfl
        exact hx (hacc.used _ (hacc.entropy e he _ (by simp [World.drawnStrings])))
      simp [this]
  simp [Ledger.claimsString, hheld, hrotated, hentropy]

theorem step (hrotates : srv.config.reuses = false) (h : SingleChains srv w ls)
    (hm : srv.Moves w ls w' ls') : SingleChains srv w' ls' := by
  have hread : ∀ l ∈ ls, ∀ r ∈ l.chain.reads, r.familyId.isEmpty = false := by
    intro l hl r hr
    exact (h.provenance.family_used (.of_record hl (ChainLedger.mem_records.mpr (.inl hr)))).2
  refine ⟨h.provenance.step hm, fun f => ?_, fun x => ?_⟩
  · refine budget_step hm.turns (fun l hl => Ledger.pays_family hrotates (hread l hl) f)
      (fun q => rfl) (fun l hl e first fresh => ?_) (h.family f)
    by_cases hf : e.family.text = f
    · subst hf
      obtain ⟨hcount, htotal⟩ := family_unused h.provenance
        (fresh.2 e.family.text (by simp [World.drawnStrings]))
      have hzero := le_total_of_mem (f := Ledger.claimsFamily e.family.text) hl
      refine .inr ⟨hcount, htotal, ?_⟩
      have hmint := (l.next .tokenEntropy (some e)).chain.mint == some e.family.text |>.toNat_le
      simp only [Ledger.claimsFamily, Ledger.next] at hzero hmint ⊢
      omega
    · have hne : (e.family.text == f) = false := beq_eq_false_iff_ne.mpr hf
      refine .inl (Nat.add_le_add_left ?_ _)
      cases hq : l.request.isRefresh <;> simp [Ledger.next, hq, hne]
  · refine budget_step hm.turns (fun l hl => Ledger.pays_string hrotates (hread l hl) x)
      (fun q => rfl) (fun l hl e first fresh => ?_) (h.string x)
    by_cases hx : e.refresh.text = x
    · subst hx
      obtain ⟨hcount, htotal⟩ := string_unused h.provenance
        (fresh.2 e.refresh.text (by simp [World.drawnStrings]))
      have hzero := le_total_of_mem (f := Ledger.claimsString e.refresh.text) hl
      refine .inr ⟨hcount, htotal, ?_⟩
      have hlast := (l.chain.successor.isNone && true).toNat_le
      simp only [Ledger.claimsString, Ledger.next, Option.any_some, beq_self_eq_true] at hzero hlast ⊢
      omega
    · have hne : (e.refresh.text == x) = false := beq_eq_false_iff_ne.mpr hx
      refine .inl ?_
      simp [Ledger.claimsString, Ledger.next, hne]

end SingleChains

theorem singleChains {ok} {s : State} (hrotates : srv.config.reuses = false)
    (h : srv.Runs ok clock s) : SingleChains srv s.world (srv.discipline.ledgers s) := by
  refine Discipline.invariant (D := srv.discipline) (I := SingleChains srv) h ?_
    fun _ _ _ _ hI hl => hI.step hrotates (Server.moves_of_ledgerStep hl)
  exact ⟨provenance_initial clock, fun f => Nat.zero_le 1, fun x => Nat.zero_le 1⟩

/-- The request holds an active record of the family that it took out of the store, or has spent
one and not yet written the next. -/
def Server.Claims (srv : Server) (f : String) (t : Call) : Bool :=
  (srv.discipline.ledger t).chain.held.any (activeIn f) ||
    (srv.discipline.ledger t).chain.mint == some f

/-- The request presented the string and stored an active record under another one. -/
def Call.RotatesInto (t : Call) (x : String) (n : RefreshTokenRecord) : Prop :=
  (∃ p, t.request = .refreshToken p ∧ p.refreshToken = x) ∧ n.state = .active ∧
    n.refreshToken ≠ x ∧
    (t.Did (.storage (.putRefreshToken n)) (.ok .applied) ∨
      ∃ expected spent access,
        t.Did (.storage (.rotateRefreshToken expected spent access (some n))) (.ok true))

/-- What a rotation of the presented string into `n` leaves in the ledger. -/
def Ledger.Rotated (p : RefreshPresentation) (n : RefreshTokenRecord) (l : Ledger) : Prop :=
  l.request = .refreshToken p → l.chain.successor = some n ∧
    ∃ r, l.chain.rotated = some r ∧ r.refreshToken = p.refreshToken

theorem Ledger.Rotated.grows {l l' : Ledger} (h : l.Rotated p n) (hg : l.Grows l') :
    l'.Rotated p n := by
  intro hq
  obtain ⟨hsucc, r, hr, hkey⟩ := h (hg.request.symm.trans hq)
  exact ⟨hg.successor n hsucc, r, hg.rotated r hr, hkey⟩

/-- An active record written under another string than the presented one is a successor. -/
theorem Ledger.rotated_of_put {l : Ledger} (hrotates : srv.config.reuses = false)
    (hl : l.Coherent srv) (hw : l.WritesRefresh srv n) (hactive : n.state = .active)
    (hne : n.refreshToken ≠ p.refreshToken) :
    (l.stored (.putRefreshToken n) .applied).Rotated p n := by
  intro hq
  have hlq : l.request = .refreshToken p := hq
  cases hw with
  | putBack request presented held | putUnheld request presented free idle read odd =>
    cases hlq.symm.trans request
    exact absurd presented hne
  | spend request strict held active presented unrotated key grant terms spent =>
    cases hactive.symm.trans spent
  | mint free right first drawn key active grant draws chain =>
    simp only [Ledger.Grants, hlq] at grant
    obtain ⟨r, hcontinues, -⟩ := grant
    rcases hcontinues with hr | ⟨hreuses, -⟩
    · obtain ⟨p', hq', hkey⟩ := hl.rotated r hr
      cases hlq.symm.trans hq'
      simp [Ledger.stored, ChainLedger.put, free, right, hr, hkey]
    · rw [hrotates] at hreuses
      cases hreuses

theorem ledger_of_rotatesInto {ok} {s : State} {t : Call} {x : String}
    (hrotates : srv.config.reuses = false) (h : srv.Runs ok clock s) (ht : t ∈ s.threads)
    (hn : t.RotatesInto x n) :
    (srv.discipline.ledger t).chain.successor = some n ∧
      ∃ r, (srv.discipline.ledger t).chain.rotated = some r ∧ r.refreshToken = x := by
  obtain ⟨⟨p, hq, rfl⟩, hactive, hne, hdid⟩ := hn
  have hledger : (srv.discipline.ledger t).Rotated p n := by
    rcases hdid with hput | ⟨expected, spent, access, hrotate⟩
    · refine Discipline.did (D := srv.discipline) h ht hput (fun s' l hs' hl hallowed _ => ?_)
        fun l e a hl hallowed _ => hl.grows (Ledger.grows_next hallowed)
      exact Ledger.rotated_of_put hrotates ((Server.provenance hs').coherent l hl) hallowed hactive hne
    · refine Discipline.did (D := srv.discipline) h ht hrotate (fun s' l hs' hl hallowed _ hlq => ?_)
        fun l e a hl hallowed _ => hl.grows (Ledger.grows_next hallowed)
      obtain ⟨p', hmay⟩ := hallowed
      cases (hmay.request.symm.trans hlq : Request.refreshToken p' = .refreshToken p)
      exact ⟨rfl, expected, rfl, hmay.presented⟩
  exact hledger ((srv.ledger_request t).trans hq)

/-- A request that has spent a string claims it. -/
theorem Ledger.one_le_claimsString {l : Ledger}
    (h : l.chain.rotated = some r ∨ (l.chain.held = some r ∧ r.state = .active)) :
    1 ≤ l.claimsString r.refreshToken := by
  rcases h with hr | ⟨hr, hactive⟩
  · simp [claimsString, hr]
    omega
  · simp [claimsString, hr, activeAt, hactive]
    omega

/-- A refresh family is a single chain: in every state a rotating server gets to, the active
records of a family in the store and the requests that hold one or owe the next are together at
most one; and no string is rotated into two successors. -/
theorem family_single_chain {s : State} (hconfig : srv.config.refreshRotation = .rotate)
    (h : srv.Reachable s) :
    (∀ f, s.world.store.refresh.count (activeIn f) + s.threads.countP (srv.Claims f) ≤ 1) ∧
      ∀ t ∈ s.threads, ∀ t' ∈ s.threads, ∀ x n n', Call.RotatesInto t x n →
        Call.RotatesInto t' x n' → n = n' := by
  have hrotates : srv.config.reuses = false := by simp [ServerConfig.reuses, hconfig]
  obtain ⟨clock, hr⟩ := h
  have hchains := singleChains hrotates hr
  refine ⟨fun f => ?_, ?_⟩
  · refine Nat.le_trans (Nat.add_le_add_left (countP_le_total fun t ht => ?_) _) (hchains.family f)
    rcases Bool.or_eq_true_iff.mp ht with h | h <;> simp [Ledger.claimsFamily, h]
  · intro t ht t' ht' x n n' hn hn'
    obtain ⟨hsucc, r, hrot, hkey⟩ := ledger_of_rotatesInto hrotates hr ht hn
    obtain ⟨hsucc', r', hrot', hkey'⟩ := ledger_of_rotatesInto hrotates hr ht' hn'
    obtain ⟨i, hi⟩ := List.mem_iff_getElem?.mp ht
    obtain ⟨j, hj⟩ := List.mem_iff_getElem?.mp ht'
    have hbudget : total (Ledger.claimsString x) (srv.discipline.ledgers s) ≤ 1 :=
      Nat.le_trans (Nat.le_add_left _ _) (hchains.string x)
    have hij : i = j := by
      refine eq_of_total_le_one hbudget (Discipline.ledgers_getElem? hi)
        (Discipline.ledgers_getElem? hj) ?_ ?_
      · exact hkey ▸ Ledger.one_le_claimsString (.inl hrot)
      · exact hkey' ▸ Ledger.one_le_claimsString (.inl hrot')
    subst hij
    cases hi.symm.trans hj
    exact Option.some.inj (hsucc.symm.trans hsucc')

/-- A rotation that has spent the record and not written the next: nothing of the family is active
in the store, and one request claims it. -/
theorem family_single_chain_midway :
    ∃ s, server.semantics.run (State.idle (.initial 0)) (redeemed 1 ++
        admits 3 (.refreshToken (refreshing (entropy 1).refresh.text)) ++ go 3 3) = some s ∧
      s.world.store.refresh.count (activeIn (entropy 1).family.text) = 0 ∧
      s.threads.countP (server.Claims (entropy 1).family.text) = 1 ∧
      ∀ f, s.world.store.refresh.count (activeIn f) + s.threads.countP (server.Claims f) ≤ 1 := by
  obtain ⟨s, hs, hnone, hone⟩ : ∃ s ∈ server.semantics.run (State.idle (.initial 0)) (redeemed 1 ++
      admits 3 (.refreshToken (refreshing (entropy 1).refresh.text)) ++ go 3 3),
        s.world.store.refresh.count (activeIn (entropy 1).family.text) = 0 ∧
          s.threads.countP (server.Claims (entropy 1).family.text) = 1 := by decide +kernel
  exact ⟨s, hs, hnone, hone, (family_single_chain rfl ⟨0, Semantics.reaches_of_run hs⟩).1⟩

/-- Under strict rotation a refusal by the registration's ceiling ends the chain: in no state is
the refused string also one that a request was answered with tokens for. -/
theorem ceiling_refusal_final {s : State} {t t' : Call} {p p' : RefreshPresentation}
    {response : TokenResponse} (hstrict : srv.config.isStrict = true) (h : srv.Reachable s)
    (ht : t ∈ s.threads) (hq : t.request = .refreshToken p)
    (hrefused : t.reply? = some (.token (.error Server.ceilingRefusal)))
    (ht' : t' ∈ s.threads) (hq' : t'.request = .refreshToken p')
    (hsame : p'.refreshToken = p.refreshToken) :
    t'.reply? ≠ some (.token (.ok response)) := by
  intro hok
  have hrotates : srv.config.reuses = false := by
    simpa using (Bool.and_eq_true_iff.mp hstrict).1
  obtain ⟨clock, hr⟩ := h
  have hF := srv.discipline.follows_run hr
  have hledger := (srv.ledger_request t).trans hq
  have hledger' := (srv.ledger_request t').trans hq'
  -- The refused request still holds the record, active, and the other one has spent it.
  have haccept : Ledger.Accepts srv _ _ := Discipline.accepts hF ht hrefused
  have haccept' : Ledger.Accepts srv _ _ := Discipline.accepts hF ht' hok
  simp only [Ledger.Accepts, hledger] at haccept
  simp only [Ledger.Accepts, hledger'] at haccept'
  obtain ⟨r, hheld, hkey, hactive⟩ := haccept.1 hstrict trivial
  obtain ⟨r', hrot, hkey'⟩ := haccept'.1 hstrict
  obtain ⟨i, hi⟩ := List.mem_iff_getElem?.mp ht
  obtain ⟨j, hj⟩ := List.mem_iff_getElem?.mp ht'
  have hbudget : total (Ledger.claimsString p.refreshToken) (srv.discipline.ledgers s) ≤ 1 :=
    Nat.le_trans (Nat.le_add_left _ _) ((singleChains hrotates hr).string p.refreshToken)
  have hij : i = j := by
    refine eq_of_total_le_one hbudget (Discipline.ledgers_getElem? hi)
      (Discipline.ledgers_getElem? hj) ?_ ?_
    · exact hkey ▸ Ledger.one_le_claimsString (.inr ⟨hheld, hactive⟩)
    · exact (hkey'.trans hsame) ▸ Ledger.one_le_claimsString (.inl hrot)
  subst hij
  cases hi.symm.trans hj
  cases hrefused.symm.trans hok

/-! ## The ceiling without strict rotation -/

namespace Sample

/-- The registration loses the scope of the grant. -/
def narrowed : Client := { app with allowedScopes := .empty }

/-- A refresh that the narrowed registration refuses. -/
def refusal : List Move :=
  redeemed 1 ++ registers 3 narrowed ++
    admits 4 (.refreshToken (refreshing (entropy 1).refresh.text)) ++ go 4 1

/-- The registration is widened again and the same token presented. -/
def afterwards : List Move :=
  registers 5 app ++ admits 6 (.refreshToken (refreshing (entropy 1).refresh.text)) ++ go 6 2 ++
    [.run 6 (.entropy (some (entropy 2)))] ++ go 6 2

/-- Whether the refused string is served after all. -/
def servedAfterRefusal (srv : Server) : Prop :=
  ∃ s₁ s₂, srv.semantics.run (State.idle (.initial 0)) refusal = some s₁ ∧
    s₁.threads[4]?.bind Thread.reply? = some (.token (.error Server.ceilingRefusal)) ∧
    srv.semantics.run s₁ afterwards = some s₂ ∧
    s₂.threads[6]?.map Thread.request = s₁.threads[4]?.map Thread.request ∧ served s₂ 6 = true

theorem servedAfterRefusal_of (h : ∃ s₁ ∈ srv.semantics.run (State.idle (.initial 0)) refusal,
      s₁.threads[4]?.bind Thread.reply? = some (.token (.error Server.ceilingRefusal)) ∧
        ∃ s₂ ∈ srv.semantics.run s₁ afterwards,
          s₂.threads[6]?.map Thread.request = s₁.threads[4]?.map Thread.request ∧
            served s₂ 6 = true) : servedAfterRefusal srv := by
  obtain ⟨s₁, hs₁, hreply, s₂, hs₂, hrequest, hserved⟩ := h
  exact ⟨s₁, s₂, hs₁, hreply, hs₂, hrequest, hserved⟩

end Sample

/-- With a retry window, and under the reuse policy, the record was only read, so the refusal
leaves it and the same token is served once the registration is widened again. -/
theorem ceiling_refusal_not_final :
    servedAfterRefusal ⟨{ config with refreshRetryWindow := .fromSecs 30 }, host⟩ ∧
      servedAfterRefusal ⟨{ config with refreshRotation := .reuse }, host⟩ :=
  ⟨servedAfterRefusal_of (by decide +kernel), servedAfterRefusal_of (by decide +kernel)⟩

/-- The same requests under strict rotation: the refused token stays refused. -/
theorem ceiling_refusal_final_strict :
    ∃ s t t', server.semantics.run (State.idle (.initial 0)) (refusal ++ registers 5 app ++
        admits 6 (.refreshToken (refreshing (entropy 1).refresh.text)) ++ go 6 1) = some s ∧
      s.threads[4]? = some t ∧ s.threads[6]? = some t' ∧ t'.Finished ∧
      ∀ response, t'.reply? ≠ some (.token (.ok response)) := by
  obtain ⟨s, hs, ⟨t, ht, hq, hrefused⟩, t', ht', hq', hfinished⟩ :
      ∃ s ∈ server.semantics.run (State.idle (.initial 0)) (refusal ++ registers 5 app ++
        admits 6 (.refreshToken (refreshing (entropy 1).refresh.text)) ++ go 6 1),
      (∃ t ∈ s.threads[4]?, t.request = .refreshToken (refreshing (entropy 1).refresh.text) ∧
        t.reply? = some (.token (.error Server.ceilingRefusal))) ∧
      ∃ t ∈ s.threads[6]?, t.request = .refreshToken (refreshing (entropy 1).refresh.text) ∧
        t.Finished := by
    decide +kernel
  refine ⟨s, t, t', hs, ht, ht', hfinished, fun response => ?_⟩
  exact ceiling_refusal_final rfl ⟨0, Semantics.reaches_of_run hs⟩ (List.mem_of_getElem? ht) hq
    hrefused (List.mem_of_getElem? ht') hq' rfl

end Reachable

end OauthAs
