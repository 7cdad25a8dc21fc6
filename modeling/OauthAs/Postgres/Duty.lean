-- SUMMARY: What a transaction of the PostgreSQL store owes before it may write or commit, and that every call keeps to it.
import OauthAs.Lib.Session
import OauthAs.Lib.Transaction
import OauthAs.Postgres.Store
import OauthAs.Store.Barrier

/-!
# The duties of a transaction

A transaction that writes a token or a pushed request has asked for a barrier before, under shared
locks on everything a barrier could name the record by. A transaction that records a barrier holds
the exclusive lock of what it names, and before it commits it has deleted what the barrier covers.
`Duty` is the ledger of these facts, and every call of the store follows the protocol.
-/

namespace OauthAs.Postgres

open Sql Prog

/-! ## What a barrier covers -/

/-- The query a write of this row depends on; rows that no barrier refuses have none. -/
def grantQuery : (t : TableName) → Row t → Option BarrierQuery
  | .accessTokens, row => some (barrierQuery row.payload.clientId row.payload.familyId
      row.payload.subject row.payload.grantEstablishedAt)
  | .refreshTokens, row => some (barrierQuery row.payload.clientId (some row.payload.familyId)
      row.payload.subject row.payload.grantEstablishedAt)
  | .pushedRequests, row =>
    some (barrierQuery row.payload.clientId none none row.payload.pushedAt)
  | .clients, _ | .deviceGrants, _ | .authorizationCodes, _ | .consents, _ | .replayIds, _
  | .revocationBarriers, _ => none

/-- The columns of a row are those of its payload. -/
def Projected : (t : TableName) → Row t → Prop
  | .accessTokens, row => row = accessTokenRow row.payload
  | .refreshTokens, row => row = refreshTokenRow row.payload
  | .pushedRequests, row => row = pushedRequestRow row.payload
  | .clients, _ | .deviceGrants, _ | .authorizationCodes, _ | .consents, _ | .replayIds, _
  | .revocationBarriers, _ => True

/-- The exclusive lock a revocation takes before it records this barrier. -/
def BarrierKey.lockKey (b : BarrierKey) : String :=
  match b.scope with
  | .client => clientKey b.clientId
  | .family => familyKey b.familyId
  | .consent => consentKey b.clientId b.subject

/-- The deletions a revocation makes before it commits this barrier. -/
def BarrierKey.cascade (b : BarrierKey) : List (TableName × Where) :=
  match b.scope with
  | .client => [(.accessTokens, .ofClient b.clientId), (.refreshTokens, .ofClient b.clientId),
      (.pushedRequests, .ofClient b.clientId)]
  | .family => [(.accessTokens, .ofFamily b.familyId), (.refreshTokens, .ofFamily b.familyId)]
  | .consent => [(.accessTokens, .ofPair b.clientId b.subject),
      (.refreshTokens, .ofPair b.clientId b.subject)]

/-- The shared locks under which a query is asked; the empty family and subject name nothing. -/
structure BarrierQuery.Guarded (q : BarrierQuery) (held : List (LockMode × String)) : Prop where
  client : (.shared, clientKey q.clientId) ∈ held
  family : q.familyId ≠ "" → (.shared, familyKey q.familyId) ∈ held
  consent : q.subject ≠ "" → (.shared, consentKey q.clientId q.subject) ∈ held

/-! ## The ledger -/

/-- A place in the database. -/
abbrev Place : Type := (t : TableName) × Key t

/-- A deletion under way: what it selects and the rows it has not come to yet. -/
structure Pursuit where
  table : TableName
  cond : Where
  left : List Place
deriving DecidableEq

/-- One row of a deletion is done with. -/
def Pursuit.drop (p : Pursuit) (t : TableName) (cond : Where) (k : Key t) : Pursuit :=
  if p.table = t ∧ p.cond = cond then { p with left := p.left.filter (· ≠ ⟨t, k⟩) } else p

structure Duty where
  tx : Option Nat
  held : List (LockMode × String)
  wrote : Bool
  cleared : Option BarrierQuery
  barrier : Option BarrierKey
  pursuits : List Pursuit

namespace Duty

/-- A transaction that has done nothing yet. -/
def fresh (x : Nat) : Duty := ⟨some x, [], false, none, none, []⟩

def start : Duty := ⟨none, [], false, none, none, []⟩

variable {order : RowOrder Key}

/-- Whether the deletion is one that the recorded barrier asks for. -/
def owes (d : Duty) (t : TableName) (cond : Where) : Bool :=
  d.barrier.any fun b => b.cascade.contains (t, cond)

def ran (d : Duty) : (s : Statement (schema order)) → Except SqlError s.Result → Duty
  | .lock mode key, .ok () => { d with held := (mode, key) :: d.held }
  | .ask q, .ok covered => { d with cleared := if covered then none else some q }
  | .scan t cond, .ok rows =>
    if d.owes t cond then
      { d with pursuits := ⟨t, cond, rows.map fun row => ⟨t, key t row⟩⟩ :: d.pursuits }
    else d
  | .remove t cond k, .ok _ =>
    { d with wrote := true, pursuits := d.pursuits.map fun p => p.drop t cond k }
  | .update _ _ _, .ok _ => { d with wrote := true }
  | .insert .revocationBarriers row, .ok () =>
    { d with wrote := true, barrier := some (BarrierRow.toBarrierKey row) }
  | .insert _ _, .ok () => { d with wrote := true }
  | .insertNew _ _, .ok _ => { d with wrote := true }
  | .batch _ _ _, .ok _ => { d with wrote := true }
  | _, _ => d

def next (d : Duty) : (e : Sql.Effect (schema order)) → e.Answer → Duty
  | .begin, .ok x => fresh x
  | .within _ s, r => d.ran s r
  | _, _ => d

/-! ## The protocol -/

def MayRun (d : Duty) : Statement (schema order) → Prop
  | .lock _ _ | .scan _ _ | .claim _ _ _ => True
  | .ask q => BarrierQuery.Guarded q d.held ∧ d.barrier = none ∧ d.wrote = false
  | .remove .clients _ k => d.barrier = some ⟨.client, k, "", ""⟩
  | .remove _ _ _ => True
  | .update t _ row => t ≠ .revocationBarriers ∧ grantQuery t row = none ∧ Projected t row
  | .insert .revocationBarriers row =>
    (.exclusive, (BarrierRow.toBarrierKey row).lockKey) ∈ d.held ∧ d.cleared = none ∧
      d.barrier = none
  | .insert t row => Projected t row ∧ ∀ q, grantQuery t row = some q → d.cleared = some q
  | .insertNew t _ => t = .replayIds
  | .batch t _ _ => t ≠ .clients

/-- The deletion has come to every row it found. -/
def Done (d : Duty) (t : TableName) (cond : Where) : Prop :=
  ∃ p ∈ d.pursuits, p.table = t ∧ p.cond = cond ∧ p.left = []

def May (d : Duty) : Sql.Effect (schema order) → Prop
  | .begin => True
  | .within x s => d.tx = some x ∧ d.MayRun s
  | .commit x => d.tx = some x ∧
      ∀ b, d.barrier = some b → ∀ step ∈ b.cascade, d.Done step.1 step.2
  | .rollback x => d.tx = some x

def protocol (order : RowOrder Key) : Protocol (Sql.Effect (schema order)) Sql.Effect.Answer Duty where
  next := next
  allowed := May
  possible := Sql.Effect.Answers

theorem tx_ran (d : Duty) (s : Statement (schema order)) (r : Except SqlError s.Result) :
    (d.ran s r).tx = d.tx := by
  cases s with
  | scan t cond =>
    cases r with
    | error e => rfl
    | ok rows =>
      simp only [ran]
      split <;> rfl
  | insert t row => cases r <;> cases t <;> rfl
  | lock mode key | ask q | claim t cond k | remove t cond k | update t cond row
  | insertNew t row | batch t cond limit => cases r <;> rfl

/-- A statement that failed changes nothing. -/
theorem ran_error (d : Duty) (s : Statement (schema order)) (e : SqlError) :
    d.ran s (.error e) = d := by
  cases s with
  | insert t row => cases t <;> rfl
  | _ => rfl

/-- A statement that neither records a barrier nor asks for one. -/
def Quiet : Statement (schema order) → Prop
  | .insert .revocationBarriers _ | .ask _ => False
  | _ => True

theorem quiet_ran (d : Duty) {s : Statement (schema order)} (hs : Quiet s)
    (r : Except SqlError s.Result) :
    (d.ran s r).barrier = d.barrier ∧ (d.ran s r).cleared = d.cleared := by
  cases r with
  | error e => simp only [ran_error, and_self]
  | ok a =>
    cases s with
    | ask q => exact hs.elim
    | scan t cond =>
      simp only [ran]
      split <;> exact ⟨rfl, rfl⟩
    | insert t row =>
      cases t with
      | revocationBarriers => exact hs.elim
      | _ => exact ⟨rfl, rfl⟩
    | _ => exact ⟨rfl, rfl⟩

/-! ## Rules -/

section Rules
variable {α : Type} {report : SqlError → StorageError} {x : Nat} {d : Duty}
variable {s : Statement (schema order)} {ok : Unit → Duty → Prop} {clientId : ClientId}
  {familyId subject : Option String} {op : String} {window : RevocationWindow}
variable {q : BarrierQuery} {body : Nat → Program order α} {established : SystemTime}

/-- A body that failed can be rolled back. -/
def Owner (x : Nat) : StorageError → Duty → Prop := fun _ d => d.tx = some x

theorem wpE_sql {ok : s.Result → Duty → Prop} (hx : d.tx = some x) (hs : d.MayRun s)
    (hok : ∀ a, s.Answers (.ok a) → ok a (d.ran s (.ok a))) :
    wpE (protocol order) (statement report x s) d ok (Owner x) := by
  refine wpE_statement.mpr ⟨⟨hx, hs⟩, fun a ha => hok a ha, fun e _ => ?_⟩
  exact (d.tx_ran s (.error e)).trans hx

theorem wpE_commit (hx : d.tx = some x)
    (hdone : ∀ b, d.barrier = some b → ∀ step ∈ b.cascade, d.Done step.1 step.2) (hok : ok () d) :
    wpE (protocol order) (call report (.commit x)) d ok (Owner x) :=
  wpE_call.mpr ⟨⟨hx, hdone⟩, fun _ _ => hok, fun _ _ => hx⟩

theorem wpE_rollback (hx : d.tx = some x) (hok : ok () d) :
    wpE (protocol order) (call report (.rollback x)) d ok (Owner x) :=
  wpE_call.mpr ⟨hx, fun _ _ => hok, fun _ _ => hx⟩

theorem wpE_begun (h : ∀ x, wpE (protocol order) (body x) (fresh x) (fun _ _ => True) (Owner x)) :
    wpE (protocol order) (transaction report body) d (fun _ _ => True) fun _ _ => True := by
  refine wpE_transaction trivial (fun _ _ => trivial) fun x _ => ?_
  exact wpE_mono (fun _ _ _ => trivial) (fun _ _ hx => ⟨hx, fun _ _ => trivial⟩) (h x)

/-- A transaction that records no barrier owes nothing. -/
def Plain (x : Nat) (d : Duty) : Prop := d.tx = some x ∧ d.barrier = none

theorem plain_fresh (x : Nat) : (fresh x).Plain x := ⟨rfl, rfl⟩

theorem Plain.ran (h : d.Plain x) (hs : Quiet s) (r : Except SqlError s.Result) :
    (d.ran s r).Plain x :=
  ⟨(d.tx_ran s r).trans h.1, (d.quiet_ran hs r).1.trans h.2⟩

theorem Plain.wpE_commit (h : d.Plain x) (hok : ok () d) :
    wpE (protocol order) (call report (.commit x)) d ok (Owner x) :=
  Duty.wpE_commit h.1 (fun b hb => by rw [h.2] at hb; cases hb) hok

theorem Plain.wpE_committed (h : d.Plain x) {a : α} {ok : α → Duty → Prop} (hok : ok a d) :
    wpE (protocol order) (do
      call report (.commit x)
      return a) d ok (Owner x) :=
  wpE_bind.mpr (h.wpE_commit (wpE_pure.mpr hok))

theorem wpE_single
    (h : ∀ x, wpE (protocol order) (body x) (fresh x) (fun _ d => d.Plain x) (Owner x)) :
    wpE (protocol order) (autocommit report body) d (fun _ _ => True) fun _ _ => True :=
  wpE_begun fun x => wpE_seq (h x) fun _ _ hd => hd.wpE_committed trivial

/-- A state of the transaction that quiet statements keep. -/
structure Kept (order : RowOrder Key) (x : Nat) (J : Duty → Prop) : Prop where
  tx : ∀ d, J d → d.tx = some x
  ran : ∀ d (s : Statement (schema order)) r, J d → Quiet s → J (d.ran s r)

theorem kept_plain : Kept order x (Plain x) := ⟨fun _ h => h.1, fun _ _ r h hs => h.ran hs r⟩

theorem kept_cleared (q : Option BarrierQuery) :
    Kept order x fun d => d.Plain x ∧ d.cleared = q :=
  ⟨fun _ h => h.1.1, fun d _ r h hs => ⟨h.1.ran hs r, (d.quiet_ran hs r).2.trans h.2⟩⟩

section Kept
variable {J : Duty → Prop} (hJ : Kept order x J) (h : J d) {t : TableName} {cond : Where}
include hJ h

theorem Kept.wpE_run (hs : d.MayRun s) (hq : Quiet s) :
    wpE (protocol order) (statement report x s) d (fun _ d => J d) (Owner x) :=
  wpE_sql (hJ.tx d h) hs fun a _ => hJ.ran d s (.ok a) h hq

/-- A read. -/
theorem Kept.wpE_read {f : List (Row t) → α} :
    wpE (protocol order) (do
      let rows ← statement report x (.scan t cond)
      return f rows) d (fun _ d => J d) (Owner x) :=
  wpE_seq (hJ.wpE_run h trivial trivial) fun _ _ h => wpE_pure.mpr h

/-- Rows are found and tried one after the other. -/
theorem Kept.wpE_firstRow {f : List (Row t) → List (Row t)}
    {take : Key t → Program order (Option (Row t))}
    (htake : ∀ k d, J d → wpE (protocol order) (take k) d (fun _ d => J d) (Owner x)) :
    wpE (protocol order) (do
      let rows ← statement report x (.scan t cond)
      firstOf (σ := schema order) t take (f rows)) d (fun _ d => J d) (Owner x) :=
  wpE_seq (hJ.wpE_run h trivial trivial) fun _ _ h => wpE_firstOf htake h

theorem Kept.wpE_swap {row : Row t}
    (hrow : t ≠ .revocationBarriers ∧ grantQuery t row = none ∧ Projected t row) :
    wpE (protocol order) (updateWhere (σ := schema order) report x t cond row) d
      (fun _ d => J d) (Owner x) := by
  refine wpE_seq (hJ.wpE_run h trivial trivial) fun rows d h => ?_
  cases rows with
  | nil => exact wpE_pure.mpr h
  | cons found rest => exact hJ.wpE_run h hrow trivial

end Kept

theorem mayRun_remove {t : TableName} (ht : t ≠ .clients) (cond : Where) (k : Key t) :
    d.MayRun (.remove t cond k : Statement (schema order)) := by
  cases t with
  | clients => exact absurd rfl ht
  | _ => trivial

/-- A row is taken out of a table other than that of the clients. -/
theorem Kept.wpE_take {J : Duty → Prop} (hJ : Kept order x J) {t : TableName} (ht : t ≠ .clients)
    {cond : Where} (h : J d) :
    wpE (protocol order) (deleteReturning (σ := schema order) report x t cond) d
      (fun _ d => J d) (Owner x) :=
  hJ.wpE_firstRow h (f := id) fun _ _ h => hJ.wpE_run h (mayRun_remove ht cond _) trivial

/-! ## Writes a barrier can refuse -/

theorem guarded_of_keys {held : List (LockMode × String)}
    (h : ∀ k ∈ barrierScopeKeys clientId familyId subject, (LockMode.shared, k) ∈ held)
    (established : SystemTime) :
    (barrierQuery clientId familyId subject established).Guarded held := by
  refine ⟨h _ ?_, fun hfamily => h _ ?_, fun hsubject => h _ ?_⟩
  · simp [barrierScopeKeys, barrierQuery]
  · cases familyId with
    | none => exact absurd rfl hfamily
    | some f => simp [barrierScopeKeys, barrierQuery]
  · cases subject with
    | none => exact absurd rfl hsubject
    | some s => simp [barrierScopeKeys, barrierQuery]

theorem wpE_lockShared {keys : List String} (h : d.Plain x) (hwrote : d.wrote = false) :
    wpE (protocol order) (lockShared op x keys) d (fun _ d' => d'.Plain x ∧ d'.wrote = false ∧
      (∀ k ∈ keys, (LockMode.shared, k) ∈ d'.held) ∧ d.held ⊆ d'.held) (Owner x) := by
  induction keys generalizing d with
  | nil => exact wpE_pure.mpr ⟨h, hwrote, by simp, List.Subset.refl _⟩
  | cons k keys ih =>
    refine wpE_bind.mpr (wpE_sql h.1 trivial fun a _ => ?_)
    refine wpE_mono (fun _ d' hd => ?_) (fun _ _ h => h) (ih h hwrote)
    obtain ⟨hplain, hwrote', hkeys, hheld⟩ := hd
    refine ⟨hplain, hwrote', fun k' hk' => ?_, fun held hmem => ?_⟩
    · rcases List.mem_cons.mp hk' with rfl | hk'
      · exact hheld List.mem_cons_self
      · exact hkeys k' hk'
    · exact hheld (List.mem_cons_of_mem _ hmem)

/-- No barrier was found for this query. -/
def Cleared (x : Nat) (q : BarrierQuery) (d : Duty) : Prop := d.Plain x ∧ d.cleared = some q

/-- Locks, and then asks. -/
theorem wpE_asking {f : Bool → Program order α} {ok : α → Duty → Prop} (h : d.Plain x)
    (hwrote : d.wrote = false)
    (htrue : ∀ d, d.Plain x → wpE (protocol order) (f true) d ok (Owner x))
    (hfalse : ∀ d, d.Cleared x (barrierQuery clientId familyId subject established) →
      wpE (protocol order) (f false) d ok (Owner x)) :
    wpE (protocol order) (do
      lockBarrierScopes op x clientId familyId subject
      let covered ← barrierCovers op x clientId familyId subject established
      f covered) d ok (Owner x) := by
  refine wpE_seq (wpE_lockShared h hwrote) fun _ d hd => ?_
  obtain ⟨hplain, hwrote, hkeys, -⟩ := hd
  refine wpE_bind.mpr (wpE_sql hplain.1 ⟨guarded_of_keys hkeys established, hplain.2, hwrote⟩
    fun covered _ => ?_)
  cases covered with
  | true => exact htrue _ hplain
  | false => exact hfalse _ ⟨hplain, rfl⟩

theorem wpE_guarded {write : Nat → Program order Unit}
    (hwrite : ∀ x d, d.Cleared x (barrierQuery clientId familyId subject established) →
      wpE (protocol order) (write x) d (fun _ d => d.Plain x) (Owner x)) :
    wpE (protocol order) (guarded op clientId familyId subject established write) d
      (fun _ _ => True) fun _ _ => True := by
  refine wpE_begun fun x => wpE_asking (plain_fresh x) rfl (fun d hd => ?_) fun d hd => ?_
  · exact wpE_bind.mpr (wpE_rollback hd.1 (wpE_pure.mpr trivial))
  · exact wpE_seq (hwrite x d hd) fun _ _ hd => hd.wpE_committed trivial

theorem wpE_writeToken {token : IssuedToken} (h : d.Cleared x q)
    (hq : barrierQuery token.clientId token.familyId token.subject token.grantEstablishedAt = q) :
    wpE (protocol order) (writeToken x token) d (fun _ d => d.Cleared x q) (Owner x) := by
  refine (kept_cleared _).wpE_run h ⟨rfl, fun q' hq' => ?_⟩ trivial
  rw [h.2, ← hq]
  exact hq'

theorem wpE_writeRecord {record : RefreshTokenRecord} (h : d.Cleared x q)
    (hq : barrierQuery record.clientId (some record.familyId) record.subject
      record.grantEstablishedAt = q) :
    wpE (protocol order) (writeRecord x record) d (fun _ d => d.Cleared x q) (Owner x) := by
  refine (kept_cleared _).wpE_run h ⟨rfl, fun q' hq' => ?_⟩ trivial
  rw [h.2, ← hq]
  exact hq'

/-- A row is locked. -/
theorem Kept.wpE_lockRow {J : Duty → Prop} (hJ : Kept order x J) {t : TableName} {cond : Where}
    {f : List (Row t) → List (Row t)} (h : J d) :
    wpE (protocol order) (selectForUpdate (σ := schema order) report x t cond f) d
      (fun _ d => J d) (Owner x) :=
  hJ.wpE_firstRow h fun _ _ h => hJ.wpE_run h trivial trivial

theorem wpE_rotate {expected spent : RefreshTokenRecord} {access : IssuedToken}
    {next : Option RefreshTokenRecord}
    (hkeeps : (StorageOp.rotateRefreshToken expected spent access next).KeepsGrant) :
    wpE (protocol order) (rotateRefreshToken expected spent access next) d (fun _ _ => True)
      fun _ _ => True := by
  obtain ⟨⟨hsc, hsf, hss, hsg⟩, ⟨hac, haf, has, hag⟩, hnext⟩ := hkeeps
  refine wpE_begun fun x => wpE_asking (plain_fresh x) rfl (fun d hd => ?_) fun d hd => ?_
  · exact wpE_bind.mpr (wpE_rollback hd.1 (wpE_pure.mpr trivial))
  · generalize hq : barrierQuery expected.clientId (some expected.familyId) expected.subject
      expected.grantEstablishedAt = q at hd
    refine wpE_seq ((kept_cleared _).wpE_lockRow hd) fun row d hd => ?_
    refine wpE_ite.mpr ⟨fun _ => ?_, fun _ => ?_⟩
    · refine wpE_seq (wpE_writeRecord hd (by rw [hsc, hsf, hss, hsg, hq])) fun _ d hd => ?_
      refine wpE_seq (wpE_writeToken hd (by rw [hac, haf, has, hag, hq])) fun _ d hd => ?_
      cases next with
      | none => exact hd.1.wpE_committed trivial
      | some n =>
        obtain ⟨hnc, hnf, hns, hng⟩ := hnext n rfl
        refine wpE_seq (wpE_writeRecord hd (by rw [hnc, hnf, hns, hng, hq])) fun _ d hd => ?_
        exact hd.1.wpE_committed trivial
    · exact wpE_bind.mpr (wpE_rollback hd.1.1 (wpE_pure.mpr trivial))

/-! ## Revocations -/

/-- A transaction that has recorded a barrier and made these deletions. -/
structure Revoking (x : Nat) (b : BarrierKey) (done : List (TableName × Where)) (d : Duty) :
    Prop where
  tx : d.tx = some x
  barrier : d.barrier = some b
  done : ∀ step ∈ done, step ∈ b.cascade → d.Done step.1 step.2

variable {b : BarrierKey} {done : List (TableName × Where)}

theorem Done.ran {t : TableName} {cond : Where} (h : d.Done t cond) (r : Except SqlError s.Result) :
    (d.ran s r).Done t cond := by
  obtain ⟨p, hp, htable, hcond, hleft⟩ := h
  cases r with
  | error e =>
    rw [ran_error]
    exact ⟨p, hp, htable, hcond, hleft⟩
  | ok a =>
    cases s with
    | scan t' cond' =>
      simp only [Duty.ran]
      split
      · exact ⟨p, List.mem_cons_of_mem _ hp, htable, hcond, hleft⟩
      · exact ⟨p, hp, htable, hcond, hleft⟩
    | remove t' cond' k =>
      refine ⟨p.drop t' cond' k, List.mem_map_of_mem hp, ?_⟩
      unfold Pursuit.drop
      split
      · exact ⟨htable, hcond, by rw [hleft]; rfl⟩
      · exact ⟨htable, hcond, hleft⟩
    | insert t' row => cases t' <;> exact ⟨p, hp, htable, hcond, hleft⟩
    | _ => exact ⟨p, hp, htable, hcond, hleft⟩

theorem Revoking.ran (h : d.Revoking x b done) (hs : Quiet s) (r : Except SqlError s.Result) :
    (d.ran s r).Revoking x b done :=
  ⟨(d.tx_ran s r).trans h.tx, (d.quiet_ran hs r).1.trans h.barrier,
    fun step hstep hcascade => (h.done step hstep hcascade).ran r⟩

/-- While a deletion goes through the rows it found, no other row is left to it. -/
structure Chasing (x : Nat) (b : BarrierKey) (done : List (TableName × Where)) (t : TableName)
    (cond : Where) (rows : List (Row t)) (d : Duty) : Prop where
  revoking : d.Revoking x b done
  left : (t, cond) ∈ b.cascade → ∃ p ∈ d.pursuits, p.table = t ∧ p.cond = cond ∧
    ∀ place ∈ p.left, ∃ row ∈ rows, place = ⟨t, key t row⟩

theorem Revoking.scan (order : RowOrder Key) (h : d.Revoking x b done) {t : TableName}
    {cond : Where} (rows : List (Row t)) :
    (d.ran (.scan t cond : Statement (schema order)) (.ok rows)).Chasing x b done t cond rows := by
  refine ⟨h.ran (s := .scan t cond) trivial (.ok rows), fun hcascade => ?_⟩
  have howes : d.owes t cond = true := by
    simp only [owes, h.barrier, Option.any_some]
    exact List.contains_iff_mem.mpr hcascade
  simp only [Duty.ran, howes, if_true]
  refine ⟨_, List.mem_cons_self, rfl, rfl, fun place hplace => ?_⟩
  obtain ⟨row, hrow, rfl⟩ := List.mem_map.mp hplace
  exact ⟨row, hrow, rfl⟩

theorem Chasing.remove (order : RowOrder Key) {t : TableName} {cond : Where} {row : Row t}
    {rest : List (Row t)} (h : d.Chasing x b done t cond (row :: rest)) (a : Option (Row t)) :
    (d.ran (.remove t cond (key t row) : Statement (schema order)) (.ok a)).Chasing x b done t cond
      rest := by
  refine ⟨h.revoking.ran (s := .remove t cond (key t row)) trivial (.ok a), fun hcascade => ?_⟩
  obtain ⟨p, hp, htable, hcond, hleft⟩ := h.left hcascade
  have hdrop : p.drop t cond (key t row) =
      { p with left := p.left.filter (· ≠ ⟨t, key t row⟩) } := by
    unfold Pursuit.drop
    rw [if_pos ⟨htable, hcond⟩]
  refine ⟨p.drop t cond (key t row), List.mem_map_of_mem hp, ?_⟩
  rw [hdrop]
  refine ⟨htable, hcond, fun place hplace => ?_⟩
  obtain ⟨hplace, hne⟩ := List.mem_filter.mp hplace
  obtain ⟨row', hrow', rfl⟩ := hleft place hplace
  rcases List.mem_cons.mp hrow' with rfl | hrow'
  · simp at hne
  · exact ⟨row', hrow', rfl⟩

theorem Chasing.finished {t : TableName} {cond : Where} (h : d.Chasing x b done t cond []) :
    d.Revoking x b ((t, cond) :: done) := by
  refine ⟨h.revoking.tx, h.revoking.barrier, fun step hstep hcascade => ?_⟩
  rcases List.mem_cons.mp hstep with rfl | hstep
  · obtain ⟨p, hp, htable, hcond, hleft⟩ := h.left hcascade
    refine ⟨p, hp, htable, hcond, List.eq_nil_iff_forall_not_mem.mpr fun place hplace => ?_⟩
    obtain ⟨row, hrow, -⟩ := hleft place hplace
    exact List.not_mem_nil hrow
  · exact h.revoking.done step hstep hcascade

/-- One deletion of a cascade. -/
theorem Revoking.wpE_deleteRows {t : TableName} {cond : Where} (h : d.Revoking x b done)
    (hrow : ∀ (row : Row t) (d : Duty), Where.holds t cond row = true → d.barrier = some b →
      d.MayRun (.remove t cond (key t row) : Statement (schema order))) :
    wpE (protocol order) (deleteWhere (σ := schema order) report x t cond) d
      (fun _ d => d.Revoking x b ((t, cond) :: done)) (Owner x) := by
  refine wpE_bind.mpr (wpE_sql h.tx trivial fun rows hrows => ?_)
  refine wpE_removeAll (I := fun rows d => d.Chasing x b done t cond rows ∧
      ∀ row ∈ rows, Where.holds t cond row = true) (fun row rest d hd => ?_)
    (fun _ d hd => hd.1.finished) ⟨h.scan order rows, hrows.1⟩
  obtain ⟨hchasing, hholds⟩ := hd
  have hfound := List.forall_mem_cons.mp hholds
  exact wpE_sql hchasing.revoking.tx (hrow row d hfound.1 hchasing.revoking.barrier)
    fun a _ => ⟨hchasing.remove order a, hfound.2⟩

theorem Revoking.wpE_cascade {t : TableName} {cond : Where} {f : Nat → Program order α}
    {ok : α → Duty → Prop} (h : d.Revoking x b done) (ht : t ≠ .clients)
    (hrest : ∀ n d, d.Revoking x b ((t, cond) :: done) →
      wpE (protocol order) (f n) d ok (Owner x)) :
    wpE (protocol order) (deleteWhere (σ := schema order) report x t cond >>= f) d ok (Owner x) :=
  wpE_seq (h.wpE_deleteRows fun _ _ _ _ => mayRun_remove ht cond _) hrest

/-- All deletions are made, so the barrier may be committed. -/
theorem Revoking.wpE_commit (h : d.Revoking x b done) (hall : b.cascade ⊆ done) (hok : ok () d) :
    wpE (protocol order) (call report (.commit x)) d ok (Owner x) := by
  refine Duty.wpE_commit h.tx (fun b' hb' step hstep => ?_) hok
  rw [h.barrier] at hb'
  cases hb'
  exact h.done step (hall hstep) hstep

/-- The lock and the barrier a revocation begins with. -/
theorem wpE_recording {scope : BarrierScope} {clientId : Option String} {f : Unit → Program order α}
    {ok : α → Duty → Prop} {lockKey : String} (h : d.Plain x) (hcleared : d.cleared = none)
    (hkey : (barrierRow scope clientId familyId subject window).toBarrierKey.lockKey = lockKey)
    (hrest : ∀ d, d.Revoking x ⟨scope, clientId.getD "", familyId.getD "", subject.getD ""⟩ [] →
      wpE (protocol order) (f ()) d ok (Owner x)) :
    wpE (protocol order) (do
      lockBarrierScopeExclusive op x lockKey
      let u ← recordBarrier op x scope clientId familyId subject window
      f u) d ok (Owner x) := by
  refine wpE_bind.mpr (wpE_sql h.1 trivial fun _ _ => wpE_bind.mpr (wpE_sql ?_ ?_ fun _ _ => ?_))
  · exact h.1
  · refine ⟨?_, hcleared, h.2⟩
    rw [hkey]
    exact List.mem_cons_self
  · exact hrest _ ⟨h.1, rfl, by simp⟩

theorem wpE_deleteClient :
    wpE (protocol order) (deleteClient clientId window) d (fun _ _ => True) fun _ _ => True := by
  refine wpE_begun fun x => wpE_recording (plain_fresh x) rfl rfl fun d h => ?_
  iterate 6 refine h.wpE_cascade (by decide) fun _ d h => ?_
  refine wpE_seq (h.wpE_deleteRows fun row d hholds hbarrier => ?_) fun n d h => ?_
  · simp only [Where.holds, primaryKey, Option.some.injEq, decide_eq_true_eq] at hholds
    exact hbarrier.trans (by rw [← hholds]; rfl)
  · refine wpE_bind.mpr (h.wpE_commit ?_ (wpE_pure.mpr trivial))
    simp [BarrierKey.cascade]

theorem wpE_revokeTokenFamily {familyId : String} :
    wpE (protocol order) (revokeTokenFamily familyId window) d (fun _ _ => True)
      fun _ _ => True := by
  refine wpE_begun fun x => wpE_recording (plain_fresh x) rfl rfl fun d h => ?_
  iterate 2 refine h.wpE_cascade (by decide) fun _ d h => ?_
  refine wpE_bind.mpr (h.wpE_commit ?_ (wpE_pure.mpr trivial))
  simp [BarrierKey.cascade]

theorem wpE_revokeConsent {consentId : String} :
    wpE (protocol order) (revokeConsent consentId window) d (fun _ _ => True)
      fun _ _ => True := by
  refine wpE_begun fun x => wpE_seq ((kept_cleared none).wpE_take (by decide) ⟨plain_fresh x, rfl⟩)
    fun row d hd => ?_
  obtain ⟨hplain, hcleared⟩ := hd
  cases row with
  | none => exact hplain.wpE_committed trivial
  | some row =>
    refine wpE_recording hplain hcleared rfl fun d h => ?_
    iterate 4 refine h.wpE_cascade (by decide) fun _ d h => ?_
    refine wpE_bind.mpr (h.wpE_commit ?_ (wpE_pure.mpr trivial))
    simp [BarrierKey.cascade]

/-! ## Every call -/

theorem wpE_compareAndSwapConsent {expected : Option ConsentRecord} {updated : ConsentRecord} :
    wpE (protocol order) (compareAndSwapConsent expected updated) d (fun _ _ => True)
      fun _ _ => True := by
  refine wpE_begun fun x => wpE_seq (kept_plain.wpE_run (plain_fresh x) trivial trivial)
    fun _ d hd => ?_
  refine wpE_seq (kept_plain.wpE_lockRow hd) fun row d hd => ?_
  refine wpE_ite.mpr ⟨fun _ => ?_, fun _ => ?_⟩
  · refine wpE_seq (kept_plain.wpE_run hd ⟨trivial, fun _ h => by cases h⟩ trivial) fun _ d hd => ?_
    exact hd.wpE_committed trivial
  · exact wpE_bind.mpr (wpE_rollback hd.1 (wpE_pure.mpr trivial))

theorem wpE_sweepTable {t : TableName} (ht : t ≠ .clients) {cutoff : Int} {fuel removed : Nat} :
    wpE (protocol order) (sweepTable t cutoff fuel removed) d (fun _ _ => True)
      fun _ _ => True := by
  induction fuel generalizing d removed with
  | zero => exact wpE_pure.mpr trivial
  | succ fuel ih =>
    refine wpE_seq (wpE_single fun x => kept_plain.wpE_run (plain_fresh x) ht trivial)
      fun batch d _ => ?_
    exact wpE_ite.mpr ⟨fun _ => wpE_pure.mpr trivial, fun _ => ih⟩

theorem wpE_sweepAll {ts : List TableName} (hts : ∀ t ∈ ts, t ≠ .clients) {cutoff : Int}
    {fuel removed : Nat} :
    wpE (protocol order) (sweepAll cutoff fuel ts removed) d (fun _ _ => True)
      fun _ _ => True := by
  induction ts generalizing d removed with
  | nil => exact wpE_pure.mpr trivial
  | cons t ts ih =>
    obtain ⟨ht, hts⟩ := List.forall_mem_cons.mp hts
    exact wpE_seq (wpE_sweepTable ht) fun _ _ _ => ih hts

/-- A call that is one statement. -/
theorem wpE_one {report' : SqlError → StorageError} (hs : ∀ x, (fresh x).MayRun s) (hq : Quiet s) :
    wpE (protocol order) (autocommit report fun x => statement report' x s) d (fun _ _ => True)
      fun _ _ => True :=
  wpE_single fun x => kept_plain.wpE_run (plain_fresh x) (hs x) hq

/-- A call that takes a row out of a table. -/
theorem wpE_taking {t : TableName} (ht : t ≠ .clients) {cond : Where} {f : Option (Row t) → α} :
    wpE (protocol order) (autocommit report fun x => do
      let row ← deleteReturning (σ := schema order) report x t cond
      return f row) d (fun _ _ => True) fun _ _ => True :=
  wpE_single fun x => wpE_seq (kept_plain.wpE_take ht (plain_fresh x)) fun _ _ hd => wpE_pure.mpr hd

theorem wpE_deleteToken {accessToken : String} :
    wpE (protocol order) (deleteToken accessToken) d (fun _ _ => True) fun _ _ => True := by
  refine wpE_single fun x => wpE_seq ?_ fun _ _ (hd : Duty.Plain x _) => wpE_pure.mpr hd
  refine wpE_seq (kept_plain.wpE_run (plain_fresh x) trivial trivial) fun rows d hd => ?_
  refine wpE_removeAll (I := fun _ (d : Duty) => d.Plain x) (fun row rest d hd => ?_)
    (fun _ _ hd => hd) hd
  exact kept_plain.wpE_run hd trivial trivial

/-- Every call of the store keeps to its duties. -/
theorem follows (fuel : Nat) (op : StorageOp) (hop : op.KeepsGrant) (d : Duty) :
    wpE (protocol order) (program fuel op) d (fun _ _ => True) fun _ _ => True := by
  cases op with
  | getClient clientId | getDeviceGrant deviceCode | findDeviceGrantByUserCode userCode
  | getToken accessToken | getRefreshToken refreshToken | getConsent consentId
  | findConsent clientId subject | consentsForSubject subject =>
    exact wpE_single fun x => kept_plain.wpE_read (plain_fresh x)
  | putClient client =>
    exact wpE_one (fun _ => ⟨trivial, fun _ h => by cases h⟩) trivial
  | compareAndSwapClient expected updated =>
    exact wpE_single fun x => kept_plain.wpE_swap (plain_fresh x) ⟨by decide, rfl, trivial⟩
  | deleteClient clientId window => exact wpE_deleteClient
  | putDeviceGrant grant =>
    exact wpE_one (fun _ => ⟨trivial, fun _ h => by cases h⟩) trivial
  | takeDeviceGrant deviceCode => exact wpE_taking (by decide)
  | compareAndSwapDeviceGrant expected updated =>
    exact wpE_single fun x => kept_plain.wpE_swap (plain_fresh x) ⟨by decide, rfl, trivial⟩
  | putAuthorizationCode record =>
    exact wpE_one (fun _ => ⟨trivial, fun _ h => by cases h⟩) trivial
  | compareAndSwapAuthorizationCode expected updated =>
    exact wpE_single fun x => kept_plain.wpE_swap (plain_fresh x) ⟨by decide, rfl, trivial⟩
  | takeAuthorizationCode code => exact wpE_taking (by decide)
  | putPushedAuthorizationRequest record =>
    exact wpE_guarded fun x d h => kept_plain.wpE_run h.1 ⟨rfl, fun _ hq => h.2.trans hq⟩ trivial
  | takePushedAuthorizationRequest requestUri => exact wpE_taking (by decide)
  | putToken token =>
    exact wpE_guarded fun x d h => wpE_mono (fun _ _ h => h.1) (fun _ _ h => h)
      (wpE_writeToken h rfl)
  | deleteToken accessToken => exact wpE_deleteToken
  | putRefreshToken record =>
    exact wpE_guarded fun x d h => wpE_mono (fun _ _ h => h.1) (fun _ _ h => h)
      (wpE_writeRecord h rfl)
  | rotateRefreshToken expected spent access next => exact wpE_rotate hop
  | takeRefreshToken refreshToken => exact wpE_taking (by decide)
  | revokeTokenFamily familyId window => exact wpE_revokeTokenFamily
  | putConsent record =>
    exact wpE_one (fun _ => ⟨trivial, fun _ h => by cases h⟩) trivial
  | compareAndSwapConsent expected updated => exact wpE_compareAndSwapConsent
  | revokeConsent consentId window => exact wpE_revokeConsent
  | claimReplayId id expiresAt => exact wpE_one (fun _ => rfl) trivial
  | sweepExpired now => exact wpE_sweepAll (by decide)

end Rules

/-- The store's calls, those that keep the grant of what they rotate, and their duties. -/
def discipline (order : RowOrder Key) : Discipline (system order StorageOp.KeepsGrant) Duty where
  protocol := protocol order
  start _ := start
  accept _ _ := True
  handler_follows c := by
    refine wp_bind.mpr (wp_mono (fun r d _ => trivial) (follows c.1.fuel c.1.op c.2 start))
  perform_possible h := (turn_of_perform h).answers

end Duty

end OauthAs.Postgres
