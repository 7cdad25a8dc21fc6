-- SUMMARY: Whatever the interleaving, nothing committed to the database is covered by a committed barrier.
import OauthAs.Postgres.Duty

/-!
# Revocations race with writes

The check for a barrier and the write it guards are two statements, and a revocation can run
between them. The shared locks of the writer and the exclusive lock of the revocation are on the
same keys whenever the barrier covers the record. So what a writer found out stays true until it
commits, and what a revocation has deleted does not come back before its barrier is committed.
-/

namespace OauthAs.Postgres

open Sql

variable {cond : Where}

/-! ## Barriers and the records they cover -/

/-- The barrier is about the identity the query asks for. -/
def BarrierKey.Names (b : BarrierKey) (q : BarrierQuery) : Prop :=
  match b.scope with
  | .client => b.clientId = q.clientId
  | .family => b.familyId = q.familyId ∧ b.familyId ≠ ""
  | .consent => b.clientId = q.clientId ∧ b.subject = q.subject ∧ b.subject ≠ ""

section Names
variable {b : BarrierKey} {q : BarrierQuery} {t : TableName} {row : Row t}

theorem names_of_coveredBy {row : BarrierRow} {registered : Bool}
    (hvalid : row.toBarrierKey.valid = true) (h : q.coveredBy registered row = true) :
    row.toBarrierKey.Names q := by
  simp only [BarrierKey.valid] at hvalid
  simp only [BarrierQuery.coveredBy, Bool.or_eq_true, Bool.and_eq_true, decide_eq_true_eq] at h
  rcases h with (⟨⟨hscope, hclient⟩, -⟩ | ⟨hscope, hfamily⟩) | ⟨⟨⟨hscope, hclient⟩, hsubject⟩, -⟩
  · simp only [BarrierKey.Names, hscope]
    exact hclient
  · simp only [hscope, decide_eq_true_eq, ne_eq] at hvalid
    simp only [BarrierKey.Names, hscope]
    exact ⟨hfamily, hvalid⟩
  · simp only [hscope, Bool.and_eq_true, decide_eq_true_eq, ne_eq] at hvalid
    simp only [BarrierKey.Names, hscope]
    exact ⟨hclient, hsubject, hvalid.2⟩

/-- Whoever asks holds the lock that the revocation needs. -/
theorem lockKey_of_names {held : List (LockMode × String)} (hnames : b.Names q)
    (hguarded : q.Guarded held) : (.shared, b.lockKey) ∈ held := by
  obtain ⟨scope, clientId, familyId, subject⟩ := b
  cases scope with
  | client =>
    obtain rfl : clientId = q.clientId := hnames
    exact hguarded.client
  | family =>
    obtain ⟨rfl, hne⟩ : familyId = q.familyId ∧ familyId ≠ "" := hnames
    exact hguarded.family hne
  | consent =>
    obtain ⟨rfl, rfl, hne⟩ : clientId = q.clientId ∧ subject = q.subject ∧ subject ≠ "" := hnames
    exact hguarded.consent hne

/-- What a query asks for is what the columns of the row say. -/
theorem columns_of_query (hrow : Projected t row) (hq : grantQuery t row = some q) :
    clientColumn t row = some q.clientId ∧ (familyColumn t row).getD "" = q.familyId ∧
      (subjectColumn t row).getD "" = q.subject := by
  cases t with
  | accessTokens =>
    cases hq
    exact ⟨congrArg some (congrArg AccessTokenRow.clientId hrow),
      congrArg (Option.getD · "") (congrArg AccessTokenRow.familyId hrow),
      congrArg (Option.getD · "") (congrArg AccessTokenRow.subject hrow)⟩
  | refreshTokens =>
    cases hq
    exact ⟨congrArg some (congrArg RefreshTokenRow.clientId hrow),
      congrArg RefreshTokenRow.familyId hrow,
      congrArg (Option.getD · "") (congrArg RefreshTokenRow.subject hrow)⟩
  | pushedRequests =>
    cases hq
    exact ⟨congrArg some (congrArg PushedRequestRow.clientId hrow), rfl, rfl⟩
  | _ => cases hq

theorem eq_some_of_getD {o : Option String} {s : String} (h : o.getD "" = s) (hne : s ≠ "") :
    o = some s := by
  cases o with
  | none => exact absurd h.symm hne
  | some s' => exact congrArg some h

/-- A revocation deletes what its barrier names. -/
theorem cascade_of_names (hrow : Projected t row) (hq : grantQuery t row = some q)
    (hnames : b.Names q) : ∃ cond, (t, cond) ∈ b.cascade ∧ Where.holds t cond row = true := by
  obtain ⟨hclient, hfamily, hsubject⟩ := columns_of_query hrow hq
  obtain ⟨scope, clientId, familyId, subject⟩ := b
  cases scope with
  | client =>
    obtain rfl : clientId = q.clientId := hnames
    refine ⟨.ofClient q.clientId, ?_, decide_eq_true hclient⟩
    cases t with
    | accessTokens | refreshTokens | pushedRequests => simp [BarrierKey.cascade]
    | _ => cases hq
  | family =>
    obtain ⟨rfl, hne⟩ : familyId = q.familyId ∧ familyId ≠ "" := hnames
    have hcolumn := eq_some_of_getD hfamily hne
    refine ⟨.ofFamily q.familyId, ?_, decide_eq_true hcolumn⟩
    cases t with
    | accessTokens | refreshTokens => simp [BarrierKey.cascade]
    | pushedRequests => cases hcolumn
    | _ => cases hq
  | consent =>
    obtain ⟨rfl, rfl, hne⟩ : clientId = q.clientId ∧ subject = q.subject ∧ subject ≠ "" := hnames
    have hcolumn := eq_some_of_getD hsubject hne
    refine ⟨.ofPair q.clientId q.subject, ?_, ?_⟩
    · cases t with
      | accessTokens | refreshTokens => simp [BarrierKey.cascade]
      | pushedRequests => cases hcolumn
      | _ => cases hq
    · simp [Where.holds, hclient, hcolumn]

/-- A revocation deletes nothing but what its barrier names. -/
theorem names_of_cascade (hvalid : b.valid = true) (hcascade : (t, cond) ∈ b.cascade)
    (hholds : Where.holds t cond row = true) (hrow : Projected t row) :
    ∃ q, grantQuery t row = some q ∧ b.Names q := by
  obtain ⟨q, hq⟩ : ∃ q, grantQuery t row = some q := by
    obtain ⟨scope, clientId, familyId, subject⟩ := b
    cases scope <;>
    · simp only [BarrierKey.cascade, List.mem_cons, Prod.mk.injEq, List.not_mem_nil, or_false]
        at hcascade
      rcases hcascade with ⟨rfl, -⟩ | ⟨rfl, -⟩ | ⟨rfl, -⟩ <;> exact ⟨_, rfl⟩
  refine ⟨q, hq, ?_⟩
  obtain ⟨hclient, hfamily, hsubject⟩ := columns_of_query hrow hq
  obtain ⟨scope, clientId, familyId, subject⟩ := b
  cases scope with
  | client =>
    obtain rfl : cond = .ofClient clientId := by simp [BarrierKey.cascade] at hcascade; tauto
    have hcolumn := of_decide_eq_true hholds
    exact Option.some.inj (hcolumn.symm.trans hclient)
  | family =>
    obtain rfl : cond = .ofFamily familyId := by simp [BarrierKey.cascade] at hcascade; tauto
    have hcolumn := of_decide_eq_true hholds
    rw [hcolumn] at hfamily
    exact ⟨hfamily, by simpa [BarrierKey.valid] using hvalid⟩
  | consent =>
    obtain rfl : cond = .ofPair clientId subject := by simp [BarrierKey.cascade] at hcascade; tauto
    simp only [Where.holds, Bool.and_eq_true, decide_eq_true_eq] at hholds
    rw [hholds.2] at hsubject
    refine ⟨Option.some.inj (hholds.1.symm.trans hclient), hsubject, ?_⟩
    have hvalid := Bool.and_eq_true_iff.mp hvalid
    simpa using hvalid.2

end Names

/-! ## The invariant -/

/-- Nothing stored is covered by a stored barrier: what the store's own check would answer for
each record is that no barrier covers it. -/
structure NothingCovered (db : Rows) : Prop where
  tokens : ∀ row ∈ db .accessTokens, (barrierQuery row.payload.clientId row.payload.familyId
    row.payload.subject row.payload.grantEstablishedAt).answer db = false
  refresh : ∀ row ∈ db .refreshTokens, (barrierQuery row.payload.clientId
    (some row.payload.familyId) row.payload.subject row.payload.grantEstablishedAt).answer db = false
  pushed : ∀ row ∈ db .pushedRequests,
    (barrierQuery row.payload.clientId none none row.payload.pushedAt).answer db = false

/-- The rows are as the store writes them. -/
structure WellFormed (db : Rows) : Prop where
  barriers : ∀ row ∈ db .revocationBarriers, row.toBarrierKey.valid = true
  projected : ∀ t, ∀ row ∈ db t, Projected t row

structure Settled (db : Rows) : Prop extends WellFormed db where
  uncovered : ∀ t, ∀ row ∈ db t, ∀ q, grantQuery t row = some q → q.answer db = false

theorem settled_iff {db : Rows} : Settled db ↔ WellFormed db ∧ NothingCovered db := by
  constructor
  · intro h
    exact ⟨h.toWellFormed, fun row hrow => h.uncovered .accessTokens row hrow _ rfl,
      fun row hrow => h.uncovered .refreshTokens row hrow _ rfl,
      fun row hrow => h.uncovered .pushedRequests row hrow _ rfl⟩
  · rintro ⟨hform, h⟩
    refine ⟨hform, fun t row hrow q hq => ?_⟩
    cases t with
    | accessTokens => cases hq; exact h.tokens row hrow
    | refreshTokens => cases hq; exact h.refresh row hrow
    | pushedRequests => cases hq; exact h.pushed row hrow
    | _ => cases hq

theorem wellFormed_empty : WellFormed fun _ => .empty :=
  ⟨fun _ h => absurd h Table.mem_empty, fun _ _ h => absurd h Table.mem_empty⟩

theorem nothingCovered_empty : NothingCovered fun _ => .empty :=
  ⟨fun _ h => absurd h Table.mem_empty, fun _ h => absurd h Table.mem_empty,
    fun _ h => absurd h Table.mem_empty⟩

variable {order : RowOrder Key}

/-- What is true of an open transaction with these duties. -/
structure Upholds (d : Duty) (txn : Txn (schema order)) (db : Rows) : Prop where
  held : d.held ⊆ txn.advisory
  silent : d.wrote = false → txn.writes = []
  cleared : ∀ q, d.cleared = some q → q.Guarded d.held ∧ q.answer db = false
  barrier : ∀ b, d.barrier = some b →
    b.valid = true ∧ (.exclusive, b.lockKey) ∈ d.held ∧ d.cleared = none
  puts : ∀ t row, .put t row ∈ txn.writes →
    Projected t row ∧ ∀ q, grantQuery t row = some q → d.cleared = some q
  records : ∀ row : BarrierRow, .put .revocationBarriers row ∈ txn.writes →
    row.toBarrierKey.valid = true ∧ d.barrier = some row.toBarrierKey
  removes : ∀ k : String, .remove .clients k ∈ txn.writes → d.barrier = some ⟨.client, k, "", ""⟩
  pursuits : ∀ p ∈ d.pursuits, d.owes p.table p.cond = true ∧
    ∀ row ∈ txn.view db p.table, Where.holds p.table p.cond row = true →
      (⟨p.table, key p.table row⟩ : Place) ∈ p.left

section Upholds
variable {d d' : Duty} {txn u : Txn (schema order)} {db : Rows}
variable {q : BarrierQuery} {b : BarrierKey} {t : TableName} {row : Row t}

theorem answer_eq_true :
    q.answer db = true ↔
      ∃ row ∈ db .revocationBarriers,
        q.coveredBy ((db .clients).contains q.clientId) row = true := by
  simp only [BarrierQuery.answer, List.any_eq_true]
  rfl

/-- A transaction makes a record covered only if its barrier names it. -/
theorem Upholds.names (h : Upholds d txn db) (hbefore : q.answer db = false)
    (hafter : q.answer (txn.view db) = true) : ∃ b, d.barrier = some b ∧ b.Names q := by
  obtain ⟨row, hrow, hcovered⟩ := answer_eq_true.mp hafter
  rcases Write.mem_applyAll hrow with hput | ⟨hold, -⟩
  · obtain ⟨hvalid, hbarrier⟩ := h.records row hput
    exact ⟨_, hbarrier, names_of_coveredBy hvalid hcovered⟩
  · -- The barrier stood before, so it is the client that is gone.
    have hopen : q.coveredBy ((db .clients).contains q.clientId) row = false := by
      refine Bool.eq_false_iff.mpr fun hc => ?_
      rw [answer_eq_true.mpr ⟨row, hold, hc⟩] at hbefore
      cases hbefore
    by_cases hremove : .remove .clients q.clientId ∈ txn.writes
    · exact ⟨_, h.removes _ hremove, rfl⟩
    · cases hcontains : (db .clients).contains q.clientId with
      | true =>
        rw [hcontains] at hopen
        have hstill : (txn.view db .clients).contains q.clientId = true :=
          Write.contains_applyAll hcontains hremove
        rw [hstill, hopen] at hcovered
        cases hcovered
      | false =>
        rw [hcontains] at hopen
        -- A barrier that does not refuse while the client is missing does not refuse at all.
        have hnever : ∀ registered, q.coveredBy registered row = false := by
          intro registered
          simp only [BarrierQuery.coveredBy, Bool.not_false, Bool.or_true, Bool.and_true,
            Bool.or_eq_false_iff] at hopen ⊢
          obtain ⟨⟨hclient, hfamily⟩, hconsent⟩ := hopen
          exact ⟨⟨by rw [hclient, Bool.false_and], hfamily⟩, hconsent⟩
        rw [hnever] at hcovered
        cases hcovered

/-- A revocation writes no record of its own that a barrier could cover. -/
theorem Upholds.no_puts (h : Upholds d txn db) (hb : d.barrier = some b)
    (hput : .put t row ∈ txn.writes) : grantQuery t row = none := by
  cases hq : grantQuery t row with
  | none => rfl
  | some q =>
    have hcleared := (h.puts t row hput).2 q hq
    rw [(h.barrier b hb).2.2] at hcleared
    cases hcleared

/-- A deletion that is owed is after what the barrier names. -/
theorem Upholds.pursued (h : Upholds d txn db) {p : Pursuit} (hp : p ∈ d.pursuits)
    {row : Row p.table} (hholds : Where.holds p.table p.cond row = true)
    (hprojected : Projected p.table row) :
    ∃ b q, d.barrier = some b ∧ grantQuery p.table row = some q ∧ b.Names q := by
  have howes := (h.pursuits p hp).1
  simp only [Duty.owes, Option.any_eq_true] at howes
  obtain ⟨b, hb, hcascade⟩ := howes
  obtain ⟨q, hq, hnames⟩ := names_of_cascade (h.barrier b hb).1
    (List.contains_iff_mem.mp hcascade) hholds hprojected
  exact ⟨b, q, hb, hq, hnames⟩

/-- Before a revocation commits, nothing its barrier names is left. -/
theorem Upholds.gone (h : Upholds d txn db) (hdone : ∀ step ∈ b.cascade, d.Done step.1 step.2)
    (hprojected : Projected t row) (hq : grantQuery t row = some q) (hnames : b.Names q) :
    row ∉ txn.view db t := by
  intro hrow
  obtain ⟨cond, hcascade, hholds⟩ := cascade_of_names hprojected hq hnames
  obtain ⟨⟨table, cond', left⟩, hp, htable, hcond, hleft⟩ := hdone _ hcascade
  simp only at htable hcond hleft
  subst htable hcond hleft
  exact List.not_mem_nil ((h.pursuits _ hp).2 row hrow hholds)

theorem Upholds.commits (hdb : Settled db) (h : Upholds d txn db)
    (hdone : ∀ b, d.barrier = some b → ∀ step ∈ b.cascade, d.Done step.1 step.2) :
    Settled (txn.view db) := by
  have hprojected : ∀ t, ∀ row ∈ txn.view db t, Projected t row := by
    intro t row hrow
    rcases Write.mem_applyAll hrow with hput | ⟨hold, -⟩
    · exact (h.puts t row hput).1
    · exact hdb.projected t row hold
  refine ⟨⟨fun row hrow => ?_, hprojected⟩, fun t row hrow q hq => ?_⟩
  · rcases Write.mem_applyAll hrow with hput | ⟨hold, -⟩
    · exact (h.records row hput).1
    · exact hdb.barriers row hold
  · have hbefore : q.answer db = false := by
      rcases Write.mem_applyAll hrow with hput | ⟨hold, -⟩
      · exact (h.cleared q ((h.puts t row hput).2 q hq)).2
      · exact hdb.uncovered t row hold q hq
    refine Bool.eq_false_iff.mpr fun hafter => ?_
    obtain ⟨b, hb, hnames⟩ := h.names hbefore hafter
    exact h.gone (hdone b hb) (hprojected t row hrow) hq hnames hrow

/-- A revocation and a writer of what it names are not both open. -/
theorem not_compatible {e : Duty} (h : Upholds d txn db) (hu : Upholds e u db)
    (hcompatible : Compatible txn u) (hb : d.barrier = some b) (hq : e.cleared = some q)
    (hnames : b.Names q) : False := by
  have hexclusive := h.held (h.barrier b hb).2.1
  have hshared := hu.held (lockKey_of_names hnames (hu.cleared q hq).1)
  cases hcompatible.advisory _ _ _ hexclusive hshared

theorem Upholds.others {e : Duty} (h : Upholds d txn db) (hu : Upholds e u db)
    (hcompatible : Compatible txn u) : Upholds e u (txn.view db) := by
  refine { hu with
    cleared := fun q hq => ⟨(hu.cleared q hq).1, Bool.eq_false_iff.mpr fun hafter => ?_⟩
    pursuits := fun p hp => ⟨(hu.pursuits p hp).1, fun row hrow hholds => ?_⟩ }
  · obtain ⟨b, hb, hnames⟩ := h.names (hu.cleared q hq).2 hafter
    exact not_compatible h hu hcompatible hb hq hnames
  · -- A row that the deletion has not seen would have been put by the transaction that commits.
    rcases Write.mem_applyAll hrow with hput | ⟨hview, huntouched⟩
    · obtain ⟨b, q, hb, hq, -⟩ := hu.pursued hp hholds (hu.puts _ row hput).1
      rw [hu.no_puts hb hput] at hq
      cases hq
    · rcases Write.mem_applyAll hview with hput | ⟨hold, -⟩
      · obtain ⟨hprojected, hquery⟩ := h.puts _ row hput
        obtain ⟨b, q, hb, hq, hnames⟩ := hu.pursued hp hholds hprojected
        exact (not_compatible hu h hcompatible.symm hb (hquery q hq) hnames).elim
      · exact (hu.pursuits p hp).2 row (Write.mem_applyAll_of_ne hold huntouched) hholds

/-! ## Statements -/

theorem upholds_fresh (x : Nat) (db : Rows) : Upholds (.fresh x) (.start x : Txn (schema order)) db where
  held := List.Subset.refl _
  silent _ := rfl
  cleared _ h := by cases h
  barrier _ h := by cases h
  puts _ _ h := by cases h
  records _ h := by cases h
  removes _ h := by cases h
  pursuits _ h := by cases h

/-- What a transaction with these duties may write. -/
def MayWrite (d : Duty) : Write (schema order) → Prop
  | .put .revocationBarriers row =>
    (BarrierRow.toBarrierKey row).valid = true ∧ d.barrier = some (BarrierRow.toBarrierKey row)
  | .put t row => Projected t row ∧ ∀ q, grantQuery t row = some q → d.cleared = some q
  | .remove .clients k => d.barrier = some ⟨.client, k, "", ""⟩
  | .remove _ _ => True

theorem MayWrite.put (h : MayWrite d (.put t row : Write (schema order))) :
    Projected t row ∧ ∀ q, grantQuery t row = some q → d.cleared = some q := by
  cases t with
  | revocationBarriers => exact ⟨trivial, fun _ hq => by cases hq⟩
  | _ => exact h

/-- A write keeps what holds of the transaction. -/
theorem Upholds.writing (h : Upholds d txn db) {w : Write (schema order)} (hw : MayWrite d w) :
    Upholds { d with wrote := true } (txn.writing w) db := by
  have hnew : ∀ {w'}, w' ∈ (txn.writing w).writes → w' ∈ txn.writes ∨ w' = w := by
    intro w' hw'
    rcases List.mem_append.mp hw' with hw' | hw'
    · exact .inl hw'
    · exact .inr (List.mem_singleton.mp hw')
  refine ⟨h.held, ?_, h.cleared, h.barrier, fun t row hput => ?_, fun row hput => ?_,
    fun k hremove => ?_, fun p hp => ⟨(h.pursuits p hp).1, fun row hrow hholds => ?_⟩⟩
  · rintro ⟨⟩
  · rcases hnew hput with hold | rfl
    · exact h.puts t row hold
    · exact hw.put
  · rcases hnew hput with hold | rfl
    · exact h.records row hold
    · exact hw
  · rcases hnew hremove with hold | rfl
    · exact h.removes k hold
    · exact hw
  · rw [Txn.view_writing] at hrow
    rcases Write.mem_apply.mp hrow with rfl | ⟨hold, -⟩
    · -- A revocation puts no row that its own deletion is after.
      obtain ⟨b, q, hb, hq, -⟩ := h.pursued hp hholds hw.put.1
      have hcleared := hw.put.2 q hq
      rw [(h.barrier b hb).2.2] at hcleared
      cases hcleared
    · exact (h.pursuits p hp).2 row hold hholds

theorem Upholds.wrote (h : Upholds d txn db) : Upholds { d with wrote := true } txn db :=
  { h with silent := by rintro ⟨⟩ }

theorem MayWrite.wrote {w : Write (schema order)} (h : MayWrite d w) :
    MayWrite { d with wrote := true } w := by
  cases w with
  | put t row | remove t k => cases t <;> exact h

theorem Upholds.writingAll (h : Upholds d txn db) {ws : List (Write (schema order))}
    (hws : ∀ w ∈ ws, MayWrite d w) : Upholds { d with wrote := true } (txn.writingAll ws) db := by
  induction ws generalizing d txn with
  | nil => exact h.wrote
  | cons w ws ih =>
    obtain ⟨hw, hws⟩ := List.forall_mem_cons.mp hws
    have hrest := ih (h.writing hw) fun w hw => (hws w hw).wrote
    exact hrest

/-- A row that is stored is written; one that is not admitted changes nothing. -/
theorem Upholds.store (h : Upholds d txn db) (view : Rows)
    (hw : MayWrite d (.put t row : Write (schema order))) {f : Except SqlError Unit → Duty}
    (herr : ∀ e, f (.error e) = d) (hok : f (.ok ()) = { d with wrote := true }) :
    Upholds (f (txn.store view t row).1) (txn.store view t row).2 db := by
  rcases txn.store_cases view t row with ⟨e, he⟩ | ⟨-, hstored⟩
  · rw [he, herr]
    exact h
  · rw [hstored, hok]
    exact h.writing hw

theorem mayWrite_put (ht : t ≠ .revocationBarriers)
    (h : Projected t row ∧ ∀ q, grantQuery t row = some q → d.cleared = some q) :
    MayWrite d (.put t row : Write (schema order)) := by
  cases t with
  | revocationBarriers => exact absurd rfl ht
  | _ => exact h

theorem BarrierQuery.Guarded.mono {held held' : List (LockMode × String)} (h : q.Guarded held)
    (hsub : held ⊆ held') : q.Guarded held' :=
  ⟨hsub h.client, fun hne => hsub (h.family hne), fun hne => hsub (h.consent hne)⟩

theorem Upholds.lock (h : Upholds d txn db) (mode : LockMode) (k : String) :
    Upholds { d with held := (mode, k) :: d.held } (txn.locking mode k) db :=
  { h with
    held := List.cons_subset_cons _ h.held
    cleared := fun q hq =>
      ⟨(h.cleared q hq).1.mono (List.subset_cons_self _ _), (h.cleared q hq).2⟩
    barrier := fun b hb =>
      ⟨(h.barrier b hb).1, List.mem_cons_of_mem _ (h.barrier b hb).2.1, (h.barrier b hb).2.2⟩ }

/-- A transaction without a barrier is after nothing. -/
theorem Upholds.no_pursuits (h : Upholds d txn db) (hb : d.barrier = none) : d.pursuits = [] := by
  refine List.eq_nil_iff_forall_not_mem.mpr fun p hp => ?_
  have howes := (h.pursuits p hp).1
  rw [Duty.owes, hb] at howes
  cases howes

theorem Upholds.asked (h : Upholds d txn db) (hguarded : q.Guarded d.held) (hb : d.barrier = none)
    (hwrote : d.wrote = false) :
    Upholds { d with cleared := if q.answer (txn.view db) then none else some q } txn db := by
  have hwrites := h.silent hwrote
  have hview : txn.view db = db := by rw [Txn.view, hwrites]; rfl
  refine { h with
    cleared := fun q' hq' => ?_
    barrier := fun b hb' => ?_
    puts := fun t row hput => ?_ }
  · split at hq'
    · cases hq'
    · rename_i hanswer
      cases hq'
      rw [hview] at hanswer
      exact ⟨hguarded, Bool.eq_false_iff.mpr hanswer⟩
  · rw [hb] at hb'
    cases hb'
  · rw [hwrites] at hput
    cases hput

theorem Upholds.scanned (h : Upholds d txn db) (howes : d.owes t cond = true) {rows : List (Row t)}
    (hrows : ∀ row ∈ txn.view db t, Where.holds t cond row = true → row ∈ rows) :
    Upholds { d with
      pursuits := ⟨t, cond, rows.map fun row => ⟨t, key t row⟩⟩ :: d.pursuits } txn db :=
  { h with
    pursuits := fun p hp => by
      rcases List.mem_cons.mp hp with rfl | hp
      · exact ⟨howes, fun row hrow hholds => List.mem_map_of_mem (hrows row hrow hholds)⟩
      · exact h.pursuits p hp }

/-- A row that a deletion is done with is no longer one it is after. -/
theorem Upholds.dropped (h : Upholds d txn db) {k : Key t}
    (hgone : ∀ row ∈ txn.view db t, key t row = k → Where.holds t cond row = false) :
    Upholds { d with pursuits := d.pursuits.map fun p => p.drop t cond k } txn db := by
  refine { h with pursuits := fun p' hp' => ?_ }
  obtain ⟨⟨table, cond', left⟩, hp, rfl⟩ := List.mem_map.mp hp'
  obtain ⟨howes, hleft⟩ := h.pursuits _ hp
  by_cases hsame : table = t ∧ cond' = cond
  · obtain ⟨rfl, rfl⟩ := hsame
    rw [Pursuit.drop, if_pos ⟨rfl, rfl⟩]
    refine ⟨howes, fun row hrow hholds => List.mem_filter.mpr ⟨hleft row hrow hholds, ?_⟩⟩
    refine decide_eq_true fun heq => ?_
    have hkey : key table row = k := by simpa using heq
    rw [hgone row hrow hkey] at hholds
    cases hholds
  · rw [Pursuit.drop, if_neg hsame]
    exact ⟨howes, hleft⟩

/-- The barrier of a transaction that had none. -/
theorem Upholds.recording (h : Upholds d txn db) (hvalid : b.valid = true)
    (hheld : (.exclusive, b.lockKey) ∈ d.held) (hcleared : d.cleared = none)
    (hb : d.barrier = none) : Upholds { d with barrier := some b } txn db := by
  refine { h with
    barrier := fun b' hb' => ?_
    records := fun row hput => ?_
    removes := fun k hremove => ?_
    pursuits := fun p hp => ?_ }
  · cases hb'
    exact ⟨hvalid, hheld, hcleared⟩
  · have := (h.records row hput).2
    rw [hb] at this
    cases this
  · have := h.removes k hremove
    rw [hb] at this
    cases this
  · rw [h.no_pursuits hb] at hp
    cases hp

/-- What an insert stores: the row itself, or a barrier with the same key. -/
theorem onConflict_of_ne (ht : t ≠ .revocationBarriers) (old new : Row t) :
    onConflict t old new = new := by
  cases t with
  | revocationBarriers => exact absurd rfl ht
  | _ => rfl

theorem Upholds.inserted {w : Sql.World (schema order)} {preferred : List (Resource (schema order))}
    (h : Upholds d txn w.committed) (hmay : d.MayRun (.insert t row : Statement (schema order))) :
    Upholds (d.ran (.insert t row)
        ((.insert t row : Statement (schema order)).run w txn preferred).1)
      ((.insert t row : Statement (schema order)).run w txn preferred).2 w.committed := by
  obtain ⟨new, hkey, hother, hrun⟩ : ∃ new : Row t, key t new = key t row ∧
      (t ≠ .revocationBarriers → new = row) ∧
      (.insert t row : Statement (schema order)).run w txn preferred =
        txn.store (txn.view w.committed) t new := by
    simp only [Statement.run]
    split
    · rename_i old hold
      exact ⟨onConflict t old row, key_onConflict t old row, fun ht => onConflict_of_ne ht old row,
        rfl⟩
    · exact ⟨row, rfl, fun _ => rfl, rfl⟩
  rw [hrun]
  by_cases ht : t = .revocationBarriers
  · subst ht
    obtain ⟨hheld, hcleared, hb⟩ := hmay
    rcases txn.store_cases (txn.view w.committed) .revocationBarriers new with
      ⟨e, he⟩ | ⟨hcheck, hstored⟩
    · rw [he]
      exact h
    · rw [hstored]
      have hsame : BarrierRow.toBarrierKey new = BarrierRow.toBarrierKey row := hkey
      have hvalid : (BarrierRow.toBarrierKey row).valid = true := hsame ▸ hcheck
      have hrecording := h.recording hvalid hheld hcleared hb
      exact hrecording.writing ⟨hcheck, congrArg some hsame.symm⟩
  · obtain rfl := hother ht
    have hput : MayWrite d (.put t new : Write (schema order)) :=
      mayWrite_put ht (by cases t <;> first | exact absurd rfl ht | exact hmay)
    refine h.store _ hput (fun e => d.ran_error (.insert t new) e) ?_
    cases t <;> first | exact absurd rfl ht | rfl

/-- A statement that its duties allow keeps what holds of a transaction. -/
theorem Upholds.ran {w : Sql.World (schema order)} {s : Statement (schema order)}
    {preferred : List (Resource (schema order))} (h : Upholds d txn w.committed)
    (hmay : d.MayRun s) :
    Upholds (d.ran s (s.run w txn preferred).1) (s.run w txn preferred).2 w.committed := by
  cases s with
  | lock mode k => exact h.lock mode k
  | ask q => exact h.asked hmay.1 hmay.2.1 hmay.2.2
  | scan t cond =>
    simp only [Statement.run, Duty.ran]
    split
    · rename_i howes
      exact h.scanned howes fun row hrow hholds => mem_select.mpr ⟨hrow, hholds⟩
    · exact h
  | claim t cond k =>
    simp only [Statement.run]
    split
    · exact { h with }
    · exact h
  | remove t cond k =>
    have hwrite : MayWrite d (.remove t k : Write (schema order)) := by
      cases t <;> exact hmay
    simp only [Statement.run]
    split
    · refine (h.writing hwrite).dropped fun row hrow hkey => ?_
      rw [Txn.view_writing] at hrow
      rcases Write.mem_apply.mp hrow with hput | ⟨-, hne⟩
      · cases hput
      · exact absurd (by rw [Write.resource, ← hkey]) hne
    · rename_i hnone
      exact h.wrote.dropped fun row hrow hkey => matching_eq_none hnone hrow hkey
  | update t cond row =>
    obtain ⟨ht, hquery, hprojected⟩ := hmay
    simp only [Statement.run]
    split
    · have hput : MayWrite d (.put t row : Write (schema order)) :=
        mayWrite_put ht ⟨hprojected, fun q hq => by rw [hquery] at hq; cases hq⟩
      exact h.store _ hput (f := fun r => d.ran (.update t cond row) (r.map fun _ => true))
        (fun _ => rfl) rfl
    · exact h.wrote
  | insert t row => exact h.inserted hmay
  | insertNew t row =>
    obtain rfl : t = .replayIds := hmay
    simp only [Statement.run]
    split
    · exact h.wrote
    · have hput : MayWrite d (.put .replayIds row : Write (schema order)) :=
        ⟨trivial, fun q hq => by cases hq⟩
      exact h.store _ hput (f := fun r => d.ran (.insertNew .replayIds row) (r.map fun _ => true))
        (fun _ => rfl) rfl
  | batch t cond limit =>
    refine h.writingAll fun write hwrite => ?_
    obtain ⟨row, -, rfl⟩ := List.mem_map.mp hwrite
    cases t with
    | clients => exact absurd rfl hmay
    | _ => trivial

end Upholds

/-! ## The result -/

/-- The transactions of the store keep the invariant. -/
theorem rules (order : RowOrder Key) :
    TxnRules (Duty.discipline order) Duty.tx Upholds Settled fun _ _ => True where
  perform _ _ _ := rfl
  start _ := rfl
  begins _ _ := rfl
  begins_not _ _ := rfl
  keeps d e r h := by
    cases e with
    | begin => cases h
    | within x s => exact d.tx_ran s r
    | commit x => rfl
    | rollback x => rfl
  owns d e x hmay htxn := by
    cases e with
    | begin => cases htxn
    | within y s | commit y =>
      cases htxn
      exact hmay.1
    | rollback y =>
      cases htxn
      exact hmay
  opened _ x db _ _ := upholds_fresh x db
  failed d e err txn db h hmay := by
    cases e with
    | begin | commit x | rollback x => exact h
    | within x s =>
      have hkept : Upholds (d.ran s (.error err)) txn db := by
        rw [Duty.ran_error]
        exact h
      exact hkept
  ran d s txn w preferred _ h hmay _ _ := h.ran hmay.2
  commits d txn db hdb h hmay := h.commits hdb hmay.2
  others d e txn u db _ h _ hu hcompatible _ := h.others hu hcompatible

/-- In every interleaving of storage calls, no committed access token, refresh record or pushed
request is covered by a committed barrier. -/
theorem nothing_committed_is_covered (order : RowOrder Key) {db : Rows} (hform : WellFormed db)
    (hdb : NothingCovered db) {s : StoreState order StorageOp.KeepsGrant}
    (hr : (system order StorageOp.KeepsGrant).Reaches Semantics.anyStep ⟨.idle db, []⟩ s) :
    NothingCovered s.world.committed :=
  (settled_iff.mp ((rules order).invariant (settled_iff.mpr ⟨hform, hdb⟩) hr
    fun _ _ _ _ _ _ _ _ _ => trivial).committed).2

namespace Sample

/-- A write and the revocation of its family take turns, and another write follows. -/
def writeAndRevocation :
    List (Action (Sql.Choice (schema textOrder)) { c : StoreCall // c.op.KeepsGrant } Empty) :=
  let token := IssuedToken.new "access" "app" none .empty 0 100
  let turn := fun i => .run i (.proceed [])
  [.spawn ⟨⟨.putToken { token with familyId := some "family" }, 0⟩, trivial⟩,
    .spawn ⟨⟨.revokeTokenFamily "family" ⟨10, 200⟩, 0⟩, trivial⟩]
  ++ [0, 1, 0, 0, 0, 0, 0, 1, 1, 1, 1, 1, 1].map turn
  ++ .spawn ⟨⟨.putToken { token with accessToken := "other" }, 0⟩, trivial⟩
  :: [2, 2, 2, 2, 2].map turn

end Sample

/-- The token of the revoked family is gone, the barrier stands, and the other token is stored. -/
theorem nothing_covered_after_writeAndRevocation :
    ∃ s : StoreState textOrder StorageOp.KeepsGrant,
      (s.world.committed .accessTokens).rows.map AccessTokenRow.accessToken = ["other"] ∧
      (s.world.committed .revocationBarriers).rows.length = 1 ∧
      NothingCovered s.world.committed := by
  obtain ⟨s, hs, htokens, hbarriers⟩ : ∃ s ∈ (system textOrder StorageOp.KeepsGrant).run
      ⟨.idle fun _ => .empty, []⟩ Sample.writeAndRevocation,
      (s.world.committed .accessTokens).rows.map AccessTokenRow.accessToken = ["other"] ∧
        (s.world.committed .revocationBarriers).rows.length = 1 := by
    decide +kernel
  exact ⟨s, htokens, hbarriers, nothing_committed_is_covered textOrder wellFormed_empty
    nothingCovered_empty (Semantics.reaches_of_run hs)⟩

end OauthAs.Postgres
