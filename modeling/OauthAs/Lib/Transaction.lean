-- SUMMARY: What a call does to the database, that locks exclude each other, and the rule for invariants of transactions.
import OauthAs.Lib.Database
import OauthAs.Lib.Pool

/-!
# Transactions that run side by side

`Turn` says everything one call can do to the database. Locks that are held at the same time are
compatible (`Consistent`), whatever the programs do. `TxnRules.invariant` is the rule the proofs
above this layer use: a property of each open transaction and a property of the committed rows
hold throughout every run if a transaction keeps its own by its own statements and that of every
other by its commit. A commit may use that its locks are compatible with those of the other.
-/

namespace OauthAs.Sql

variable {σ : Schema} {e : Effect σ} {s : Statement σ} {r : e.Answer}

/-! ## Writes -/

namespace Write

variable {db : σ.Rows} {w : Write σ} {ws : List (Write σ)} {t : σ.Name} {row : σ.Row t}

/-- The rows after a write are the one written and those it does not name. -/
theorem mem_apply : row ∈ w.apply db t ↔
    w = .put t row ∨ row ∈ db t ∧ w.resource ≠ ⟨t, σ.key t row⟩ := by
  cases w with
  | put t' row' | remove t' k =>
    by_cases ht : t = t'
    · subst ht
      simp [apply, resource, eq_comm]
    · have ht' : t' ≠ t := fun h => ht h.symm
      simp [apply, Function.update_of_ne ht, resource, ht']

theorem applyAll_append (ws ws' : List (Write σ)) :
    applyAll db (ws ++ ws') = applyAll (applyAll db ws) ws' :=
  List.foldl_append

theorem mem_applyAll (h : row ∈ applyAll db ws t) :
    .put t row ∈ ws ∨ row ∈ db t ∧ ∀ w ∈ ws, w.resource ≠ ⟨t, σ.key t row⟩ := by
  induction ws generalizing db with
  | nil => exact .inr ⟨h, by simp⟩
  | cons w ws ih =>
    rcases ih h with hput | ⟨hmem, hrest⟩
    · exact .inl (List.mem_cons_of_mem _ hput)
    · rcases mem_apply.mp hmem with rfl | ⟨hmem, hne⟩
      · exact .inl List.mem_cons_self
      · exact .inr ⟨hmem, List.forall_mem_cons.mpr ⟨hne, hrest⟩⟩

theorem mem_applyAll_of_ne (h : row ∈ db t) (hne : ∀ w ∈ ws, w.resource ≠ ⟨t, σ.key t row⟩) :
    row ∈ applyAll db ws t := by
  induction ws generalizing db with
  | nil => exact h
  | cons w ws ih =>
    obtain ⟨hw, hws⟩ := List.forall_mem_cons.mp hne
    exact ih (mem_apply.mpr (.inr ⟨h, hw⟩)) hws

/-- A key that is filed stays so until its row is removed. -/
theorem contains_applyAll {k : σ.Key t} (h : (db t).contains k = true)
    (hne : .remove t k ∉ ws) : (applyAll db ws t).contains k = true := by
  induction ws generalizing db with
  | nil => exact h
  | cons w ws ih =>
    refine ih ?_ fun hws => hne (List.mem_cons_of_mem _ hws)
    obtain ⟨row, hrow, rfl⟩ := Table.contains_iff.mp h
    by_cases hw : w.resource = ⟨t, σ.key t row⟩
    · cases w with
      | put t' row' =>
        obtain rfl : t' = t := congrArg Sigma.fst hw
        simp only [resource, Sigma.mk.injEq, heq_eq_eq, true_and] at hw
        exact Table.contains_iff.mpr ⟨row', mem_apply.mpr (.inl rfl), hw⟩
      | remove t' k =>
        obtain rfl : t' = t := congrArg Sigma.fst hw
        simp only [resource, Sigma.mk.injEq, heq_eq_eq, true_and] at hw
        rw [hw] at hne
        exact absurd List.mem_cons_self hne
    · exact Table.contains_iff.mpr ⟨row, mem_apply.mpr (.inr ⟨hrow, hw⟩), rfl⟩

end Write

namespace Txn

variable {txn : Txn σ} {db : σ.Rows}

theorem view_writing (w : Write σ) : (txn.writing w).view db = w.apply (txn.view db) := by
  simp only [view, writing, Write.applyAll_append]
  rfl

theorem writingAll_keeps (ws : List (Write σ)) :
    (txn.writingAll ws).id = txn.id ∧ (txn.writingAll ws).advisory = txn.advisory := by
  induction ws generalizing txn with
  | nil => exact ⟨rfl, rfl⟩
  | cons w ws ih => exact ih

theorem mem_writingAll_rows {ws : List (Write σ)} {r : Resource σ}
    (h : r ∈ (txn.writingAll ws).rows) : r ∈ txn.rows ∨ ∃ w ∈ ws, w.resource = r := by
  induction ws generalizing txn with
  | nil => exact .inl h
  | cons w ws ih =>
    rcases ih h with hrows | ⟨w', hw', hr⟩
    · rcases List.mem_cons.mp hrows with rfl | hrows
      · exact .inr ⟨w, List.mem_cons_self, rfl⟩
      · exact .inl hrows
    · exact .inr ⟨w', List.mem_cons_of_mem _ hw', hr⟩

/-- Storing a row either writes it, if the table admits it, or leaves the transaction as it was. -/
theorem store_cases (txn : Txn σ) (db : σ.Rows) (t : σ.Name) (row : σ.Row t) :
    (∃ e, txn.store db t row = (.error e, txn)) ∨
      σ.check t row = true ∧ txn.store db t row = (.ok (), txn.writing (.put t row)) := by
  unfold store
  split
  · exact .inl ⟨_, rfl⟩
  · rename_i hcheck
    split
    · exact .inl ⟨_, rfl⟩
    · exact .inr ⟨by simpa using hcheck, rfl⟩

end Txn

/-! ## What a statement does to its transaction -/

section Run
variable {w : World σ} {txn : Txn σ} {preferred : List (Resource σ)}
variable {db : σ.Rows} {t : σ.Name} {cond : σ.Where} {row : σ.Row t}

theorem mem_select : row ∈ select db t cond ↔ row ∈ db t ∧ σ.holds t cond row = true := by
  simp only [select, List.mem_insertionSort, List.mem_filter]
  rfl

theorem matching_eq_some {k : σ.Key t} :
    matching db t cond k = some row ↔
      row ∈ db t ∧ σ.key t row = k ∧ σ.holds t cond row = true := by
  simp only [matching, Option.filter_eq_some_iff, Table.lookup_eq_some, and_assoc]

theorem matching_eq_none {k : σ.Key t} (h : matching db t cond k = none) (hrow : row ∈ db t)
    (hk : σ.key t row = k) : σ.holds t cond row = false := by
  cases hholds : σ.holds t cond row with
  | false => rfl
  | true =>
    rw [matching_eq_some.mpr ⟨hrow, hk, hholds⟩] at h
    cases h

/-- A statement adds to the locks of its transaction only what it waited for, or rows no other
transaction has locked. -/
structure Extends (w : World σ) (s : Statement σ) (txn txn' : Txn σ) : Prop where
  id : txn'.id = txn.id
  advisory : ∀ held ∈ txn'.advisory, held ∈ txn.advisory ∨ s.wantedKey = some held
  rows : ∀ r ∈ txn'.rows, r ∈ txn.rows ∨ s.wanted = some r ∨ w.free txn.id r = true
  keeps : txn.advisory ⊆ txn'.advisory

theorem Extends.refl (w : World σ) (s : Statement σ) (txn : Txn σ) : Extends w s txn txn :=
  ⟨rfl, fun _ h => .inl h, fun _ h => .inl h, List.Subset.refl _⟩

theorem Extends.writing {write : Write σ} (h : s.wanted = some write.resource) :
    Extends w s txn (txn.writing write) := by
  refine ⟨rfl, fun _ h => .inl h, fun r hr => ?_, List.Subset.refl _⟩
  rcases List.mem_cons.mp hr with rfl | hr
  · exact .inr (.inl h)
  · exact .inl hr

theorem Extends.store (h : s.wanted = some ⟨t, σ.key t row⟩) :
    Extends w s txn (txn.store db t row).2 := by
  rcases txn.store_cases db t row with ⟨e, he⟩ | ⟨-, hok⟩
  · rw [he]
    exact .refl w s txn
  · rw [hok]
    exact .writing h

theorem mem_picked {limit : Nat} {rows : List (σ.Row t)} (h : row ∈ picked preferred t limit rows) :
    row ∈ rows := by
  rcases List.mem_append.mp (List.mem_of_mem_take h) with h | h <;> exact (List.mem_filter.mp h).1

theorem run_extends (s : Statement σ) : Extends w s txn (s.run w txn preferred).2 := by
  cases s with
  | lock mode key =>
    refine ⟨rfl, fun held h => ?_, fun _ h => .inl h, List.subset_cons_self _ _⟩
    rcases List.mem_cons.mp h with rfl | h
    · exact .inr rfl
    · exact .inl h
  | ask q | scan t cond => exact .refl _ _ _
  | claim t cond k =>
    simp only [Statement.run]
    split
    · refine ⟨rfl, fun _ h => .inl h, fun r hr => ?_, List.Subset.refl _⟩
      rcases List.mem_cons.mp hr with rfl | hr
      · exact .inr (.inl rfl)
      · exact .inl hr
    · exact .refl _ _ _
  | remove t cond k =>
    simp only [Statement.run]
    split
    · exact .writing rfl
    · exact .refl _ _ _
  | update t cond row =>
    simp only [Statement.run]
    split
    · exact .store rfl
    · exact .refl _ _ _
  | insert t row =>
    simp only [Statement.run]
    split
    · rename_i old hold
      refine .store ?_
      rw [σ.key_onConflict t old row (Table.key_of_lookup hold)]
      rfl
    · exact .store rfl
  | insertNew t row =>
    simp only [Statement.run]
    split
    · exact .refl _ _ _
    · exact .store rfl
  | batch t cond limit =>
    simp only [Statement.run]
    refine ⟨(txn.writingAll_keeps _).1, fun held h => .inl ?_, fun r hr => ?_, fun held h => ?_⟩
    · rwa [(txn.writingAll_keeps _).2] at h
    · rcases Txn.mem_writingAll_rows hr with hr | ⟨write, hwrite, rfl⟩
      · exact .inl hr
      · obtain ⟨row, hrow, rfl⟩ := List.mem_map.mp hwrite
        have hfree := (List.mem_filter.mp (mem_picked hrow)).2
        simp only [Bool.and_eq_true] at hfree
        exact .inr (.inr hfree.2)
    · rwa [(txn.writingAll_keeps _).2]

end Run

/-! ## What a call does to the database -/

inductive Turn (w : World σ) : (e : Effect σ) → e.Answer → World σ → Prop
  | failed (e : Effect σ) (err : SqlError) : Turn w e (.error err) w
  | opened : Turn w .begin (.ok w.next)
      { w with txns := w.txns.insert (.start w.next), next := w.next + 1 }
  | ran (txn : Txn σ) (s : Statement σ) (preferred : List (Resource σ)) (htxn : txn ∈ w.txns)
      (hfree : w.blockers txn.id s = []) :
      Turn w (.within txn.id s) (s.run w txn preferred).1
        { w with txns := w.txns.insert (s.run w txn preferred).2 }
  | undone (x : Nat) (err : SqlError) : Turn w (.commit x) (.error err) (w.close x)
  | closed (x : Nat) (r : (Effect.rollback (σ := σ) x).Answer) : Turn w (.rollback x) r (w.close x)
  | committed (txn : Txn σ) (htxn : txn ∈ w.txns) :
      Turn w (.commit txn.id) (.ok ()) { w.close txn.id with committed := txn.view w.committed }

theorem turn_of_perform {w w' : World σ} {c : Choice σ} (h : w.perform e c = some (r, w')) :
    Turn w e r w' := by
  cases e with
  | begin =>
    cases c with
    | fail kind =>
      cases h
      exact .failed _ _
    | proceed preferred =>
      cases h
      exact .opened
  | within x s =>
    simp only [World.perform] at h
    split at h
    · cases h
      exact .failed _ _
    · cases h
      exact .failed _ _
    · rename_i txn preferred hx
      split at h
      · rename_i hfree
        cases h
        obtain ⟨htxn, rfl⟩ := Table.lookup_eq_some.mp hx
        exact .ran txn s preferred htxn hfree
      · cases h
  | commit x =>
    simp only [World.perform] at h
    split at h
    · cases h
      exact .failed _ _
    · cases h
      exact .undone x _
    · rename_i txn preferred hx
      cases h
      obtain ⟨htxn, rfl⟩ := Table.lookup_eq_some.mp hx
      exact .committed txn htxn
  | rollback x =>
    cases c <;>
    · cases h
      exact .closed x _

/-! ## What an answer says -/

/-- What is true of the answer of a statement, whatever the database holds: the rows of a scan
satisfy its condition and come in the common order, and a row that was had is the one asked for. -/
def Statement.Answers : (s : Statement σ) → Except SqlError s.Result → Prop
  | .scan t cond, .ok rows => (∀ row ∈ rows, σ.holds t cond row = true) ∧
      rows.Pairwise fun a b =>
        σ.order.le t (σ.key t a) (σ.key t b) = true ∧ σ.key t a ≠ σ.key t b
  | .claim t cond k, .ok (some row) => σ.key t row = k ∧ σ.holds t cond row = true
  | .remove t cond k, .ok (some row) => σ.key t row = k ∧ σ.holds t cond row = true
  | _, _ => True

def Effect.Answers : (e : Effect σ) → e.Answer → Prop
  | .within _ s, r => s.Answers r
  | _, _ => True

theorem select_pairwise (db : σ.Rows) (t : σ.Name) (cond : σ.Where) :
    (select db t cond).Pairwise fun a b =>
      σ.order.le t (σ.key t a) (σ.key t b) = true ∧ σ.key t a ≠ σ.key t b := by
  have hsorted : (select db t cond).Pairwise fun a b =>
      σ.order.le t (σ.key t a) (σ.key t b) = true := by
    have htotal : Std.Total fun a b : σ.Row t => σ.order.le t (σ.key t a) (σ.key t b) = true :=
      ⟨fun a b => σ.order.total t _ _⟩
    have htrans : IsTrans (σ.Row t) fun a b => σ.order.le t (σ.key t a) (σ.key t b) = true :=
      ⟨fun a b c => σ.order.trans t _ _ _⟩
    exact List.pairwise_insertionSort _ _
  have hdistinct : (select db t cond).Pairwise fun a b => σ.key t a ≠ σ.key t b := by
    have hfilter : ((db t).rows.filter (σ.holds t cond)).Pairwise fun a b =>
        σ.key t a ≠ σ.key t b :=
      (List.pairwise_map.mp (db t).nodup).sublist List.filter_sublist
    exact hfilter.perm (List.perm_insertionSort _ _).symm fun h => Ne.symm h
  exact hsorted.and hdistinct

theorem run_answers {w : World σ} {txn : Txn σ} {preferred : List (Resource σ)}
    (s : Statement σ) : s.Answers (s.run w txn preferred).1 := by
  cases s with
  | scan t cond => exact ⟨fun row h => (mem_select.mp h).2, select_pairwise _ t cond⟩
  | claim t cond k | remove t cond k =>
    simp only [Statement.run]
    split
    · rename_i row hrow
      exact (matching_eq_some.mp hrow).2
    · trivial
  | lock mode key | ask q | update t cond row | insert t row | insertNew t row
  | batch t cond limit => trivial

theorem Turn.answers {w w' : World σ} (h : Turn w e r w') : e.Answers r := by
  cases h with
  | failed e err =>
    cases e with
    | within x s => cases s <;> trivial
    | _ => trivial
  | ran txn s preferred htxn hfree => exact run_answers s
  | _ => trivial

/-! ## Locks exclude each other -/

/-- Two transactions whose locks can be held at the same time. -/
structure Compatible (txn u : Txn σ) : Prop where
  advisory : ∀ mode mode' key, (mode, key) ∈ txn.advisory → (mode', key) ∈ u.advisory →
    mode.conflicts mode' = false
  rows : ∀ r ∈ txn.rows, r ∉ u.rows

theorem LockMode.conflicts_comm (a b : LockMode) : a.conflicts b = b.conflicts a := by
  cases a <;> cases b <;> rfl

theorem Compatible.symm {txn u : Txn σ} (h : Compatible txn u) : Compatible u txn where
  advisory mode mode' key hu htxn := by
    rw [LockMode.conflicts_comm]
    exact h.advisory mode' mode key htxn hu
  rows r hu htxn := h.rows r htxn hu

structure World.Consistent (w : World σ) : Prop where
  ids : ∀ txn ∈ w.txns, txn.id < w.next
  compatible : ∀ txn ∈ w.txns, ∀ u ∈ w.txns, txn.id ≠ u.id → Compatible txn u

theorem World.consistent_idle (db : σ.Rows) : (World.idle db).Consistent :=
  ⟨fun _ h => absurd h Table.mem_empty, fun _ h => absurd h Table.mem_empty⟩

/-- A transaction that does not block a statement holds nothing the statement waits for. -/
theorem not_blocks {w : World σ} {x : Nat} (hfree : w.blockers x s = []) {u : Txn σ}
    (hu : u ∈ w.txns) (hne : u.id ≠ x) : u.blocks s = false := by
  have h := List.filter_eq_nil_iff.mp hfree u hu
  simpa [hne] using h

theorem compatible_of_run {w : World σ} {txn u : Txn σ} {preferred : List (Resource σ)}
    (h : Compatible txn u) (hfree : w.blockers txn.id s = []) (hu : u ∈ w.txns)
    (hne : u.id ≠ txn.id) : Compatible (s.run w txn preferred).2 u := by
  have hext : Extends w s txn (s.run w txn preferred).2 := run_extends s
  have hblocks := not_blocks hfree hu hne
  simp only [Txn.blocks, Bool.or_eq_false_iff] at hblocks
  obtain ⟨⟨hrow, hkey⟩, -⟩ := hblocks
  constructor
  · intro mode mode' key hmode hmode'
    rcases hext.advisory _ hmode with hold | hnew
    · exact h.advisory mode mode' key hold hmode'
    · rw [hnew, Option.any_some, List.any_eq_false] at hkey
      have := hkey (mode', key) hmode'
      rw [LockMode.conflicts_comm]
      simpa using this
  · intro r hr hur
    rcases hext.rows r hr with hold | hnew | hopen
    · exact h.rows r hold hur
    · rw [hnew, Option.any_some] at hrow
      exact Bool.false_ne_true (hrow.symm.trans (List.contains_iff_mem.mpr hur))
    · have := List.all_eq_true.mp hopen u hu
      simp [hne, hur] at this

theorem Turn.consistent {w w' : World σ} (h : Turn w e r w') (hw : w.Consistent) :
    w'.Consistent := by
  -- Closing a transaction leaves fewer of them.
  have hclose : ∀ x db, (⟨db, w.txns.erase x, w.next⟩ : World σ).Consistent := by
    refine fun x db => ⟨fun txn htxn => ?_, fun txn htxn u hu => ?_⟩
    · exact hw.ids txn (Table.mem_erase.mp htxn).1
    · exact hw.compatible txn (Table.mem_erase.mp htxn).1 u (Table.mem_erase.mp hu).1
  cases h with
  | failed => exact hw
  | opened =>
    refine ⟨?_, fun txn htxn u hu hne => ?_⟩
    · exact Table.forall_insert (Nat.lt_succ_self _) fun txn htxn =>
        Nat.lt_succ_of_lt (hw.ids txn htxn)
    · have hstart : ∀ u : Txn σ, Compatible (.start w.next) u := fun u =>
        ⟨fun _ _ _ h => absurd h List.not_mem_nil, fun _ h => absurd h List.not_mem_nil⟩
      rcases Table.mem_insert.mp htxn with rfl | ⟨htxn, -⟩
      · exact hstart u
      · rcases Table.mem_insert.mp hu with rfl | ⟨hu, -⟩
        · exact (hstart txn).symm
        · exact hw.compatible txn htxn u hu hne
  | ran txn s preferred htxn hfree =>
    have hid : (s.run w txn preferred).2.id = txn.id := (run_extends s).id
    have hrun : ∀ u ∈ w.txns, u.id ≠ txn.id → Compatible (s.run w txn preferred).2 u :=
      fun u hu hne => compatible_of_run (hw.compatible txn htxn u hu (Ne.symm hne)) hfree hu hne
    refine ⟨?_, fun u hu v hv hne => ?_⟩
    · exact Table.forall_insert (hid ▸ hw.ids txn htxn) hw.ids
    · rcases Table.mem_insert.mp hu with rfl | ⟨hu, hu'⟩
      · rcases Table.mem_insert.mp hv with rfl | ⟨hv, hv'⟩
        · exact absurd rfl hne
        · exact hrun v hv (by rwa [hid] at hv')
      · rcases Table.mem_insert.mp hv with rfl | ⟨hv, hv'⟩
        · exact (hrun u hu (by rwa [hid] at hu')).symm
        · exact hw.compatible u hu v hv hne
  | undone x err | closed x r => exact hclose x _
  | committed txn htxn => exact hclose txn.id _

/-! ## Invariants of transactions -/

section Rules
variable {Q A L : Type} {S : Semantics (World σ) (Effect σ) Effect.Answer (Choice σ) Q A Empty}
  {D : Discipline S L} {tx : L → Option Nat} {P : L → Txn σ → σ.Rows → Prop} {G : σ.Rows → Prop}
  {Pair : L → L → Prop}

/-- What it takes to keep a property `P` of each open transaction and a property `G` of the
committed rows. `tx` is the transaction a ledger is about, and `Pair` is what is known of the
ledgers of two different threads. -/
structure TxnRules (D : Discipline S L) (tx : L → Option Nat) (P : L → Txn σ → σ.Rows → Prop)
    (G : σ.Rows → Prop) (Pair : L → L → Prop) : Prop where
  perform : ∀ w e c, S.perform w e c = w.perform e c
  start : ∀ q, tx (D.start q) = none
  begins : ∀ l x, tx (D.protocol.next l .begin (.ok x)) = some x
  begins_not : ∀ l err, tx (D.protocol.next l .begin (.error err)) = tx l
  keeps : ∀ l e r, e.txn?.isSome = true → tx (D.protocol.next l e r) = tx l
  owns : ∀ l e x, D.protocol.allowed l e → e.txn? = some x → tx l = some x
  opened : ∀ l x db, G db → D.protocol.allowed l .begin →
    P (D.protocol.next l .begin (.ok x)) (.start x) db
  failed : ∀ l e err txn db, P l txn db → D.protocol.allowed l e →
    P (D.protocol.next l e (.error err)) txn db
  ran : ∀ l s txn w preferred, G w.committed → P l txn w.committed →
    D.protocol.allowed l (.within txn.id s) → txn ∈ w.txns → w.blockers txn.id s = [] →
    P (D.protocol.next l (.within txn.id s) (s.run w txn preferred).1)
      (s.run w txn preferred).2 w.committed
  commits : ∀ l txn db, G db → P l txn db → D.protocol.allowed l (.commit txn.id) →
    G (txn.view db)
  others : ∀ l m txn u db, G db → P l txn db → D.protocol.allowed l (.commit txn.id) → P m u db →
    Compatible txn u → Pair l m → P m u (txn.view db)

/-- The state of a run: each open transaction belongs to one thread at most. -/
structure Sound (tx : L → Option Nat) (P : L → Txn σ → σ.Rows → Prop) (G : σ.Rows → Prop)
    (w : World σ) (ls : List L) : Prop where
  consistent : w.Consistent
  committed : G w.committed
  begun : ∀ l ∈ ls, ∀ x, tx l = some x → x < w.next
  single : ∀ x, OnlyOne (fun l => tx l = some x) ls
  inside : ∀ l ∈ ls, ∀ txn ∈ w.txns, tx l = some txn.id → P l txn w.committed

theorem TxnRules.sound_spawn (h : TxnRules D tx P G Pair) {w : World σ} {ls : List L}
    (hs : Sound tx P G w ls) (q : Q) : Sound tx P G w (ls ++ [D.start q]) := by
  have hnew : ∀ l ∈ ls ++ [D.start q], ∀ x, tx l = some x → l ∈ ls := by
    intro l hl x hx
    rcases List.mem_append.mp hl with hl | hl
    · exact hl
    · rw [List.mem_singleton.mp hl, h.start] at hx
      cases hx
  refine ⟨hs.consistent, hs.committed, fun l hl x hx => hs.begun l (hnew l hl x hx) x hx,
    fun x => (hs.single x).append ?_,
    fun l hl txn htxn hx => hs.inside l (hnew l hl _ hx) txn htxn hx⟩
  rw [h.start]
  exact fun hx => nomatch hx

variable {w w' : World σ} {ls : List L} {i : Nat} {l l' : L}

/-- One thread moves on without beginning a transaction. -/
theorem Sound.moved (hs : Sound tx P G w ls) (hi : ls[i]? = some l) (htx : tx l' = tx l)
    (hconsistent : w'.Consistent) (hcommitted : G w'.committed) (hnext : w'.next = w.next)
    (hself : ∀ txn ∈ w'.txns, tx l' = some txn.id → P l' txn w'.committed)
    (hother : ∀ j m, i ≠ j → ls[j]? = some m → ∀ txn ∈ w'.txns, tx m = some txn.id →
      P m txn w'.committed) : Sound tx P G w' (ls.set i l') := by
  refine ⟨hconsistent, hcommitted, fun m hm x hx => ?_, fun x => (hs.single x).set hi fun hx => ?_,
    fun m hm txn htxn hx => ?_⟩
  · rw [hnext]
    rcases List.mem_or_eq_of_mem_set hm with hm | rfl
    · exact hs.begun m hm x hx
    · exact hs.begun l (List.mem_of_getElem? hi) x (htx ▸ hx)
  · rw [htx] at hx
    exact .inl hx
  · obtain ⟨j, hj⟩ := List.mem_iff_getElem?.mp hm
    rcases getElem?_set_cases hi hj with ⟨rfl, rfl⟩ | ⟨hij, hj⟩
    · exact hself txn htxn hx
    · exact hother j m hij hj txn htxn hx

/-- One thread ends its transaction without a commit. -/
theorem Sound.closing (hs : Sound tx P G w ls) (hi : ls[i]? = some l) (htx : tx l' = tx l) {x : Nat}
    (hown : tx l = some x) (hconsistent : (w.close x).Consistent) :
    Sound tx P G (w.close x) (ls.set i l') := by
  refine hs.moved hi htx hconsistent hs.committed rfl (fun u hu hx => ?_)
    fun j m _ hj u hu => hs.inside m (List.mem_of_getElem? hj) u (Table.mem_erase.mp hu).1
  rw [htx, hown] at hx
  exact absurd (Option.some.inj hx).symm (Table.mem_erase.mp hu).2

theorem TxnRules.sound_run (h : TxnRules D tx P G Pair) (hs : Sound tx P G w ls)
    (hpair : ∀ j m, i ≠ j → ls[j]? = some m → Pair l m) (hi : ls[i]? = some l)
    (hallowed : D.protocol.allowed l e) (hturn : Turn w e r w') :
    Sound tx P G w' (ls.set i (D.protocol.next l e r)) := by
  have hl := List.mem_of_getElem? hi
  have hconsistent := hturn.consistent hs.consistent
  -- The transaction of a call is this thread's, so it is no other thread's.
  have hmine : ∀ x, e.txn? = some x → ∀ j m, i ≠ j → ls[j]? = some m → tx m ≠ some x :=
    fun x hx j m hij hj hm => hij (hs.single x hi hj (h.owns l e x hallowed hx) hm)
  cases hturn with
  | failed e err =>
    have htx : tx (D.protocol.next l e (.error err)) = tx l := by
      cases e with
      | begin => exact h.begins_not l err
      | within x s | commit x | rollback x => exact h.keeps l _ _ rfl
    refine hs.moved hi htx hconsistent hs.committed rfl (fun txn htxn hx => ?_)
      fun j m _ hj => hs.inside m (List.mem_of_getElem? hj)
    exact h.failed l e err txn _ (hs.inside l hl txn htxn (htx ▸ hx)) hallowed
  | opened =>
    refine ⟨hconsistent, hs.committed, fun m hm x hx => ?_, fun x => ?_, fun m hm txn htxn hx => ?_⟩
    · rcases List.mem_or_eq_of_mem_set hm with hm | rfl
      · exact Nat.lt_succ_of_lt (hs.begun m hm x hx)
      · rw [h.begins] at hx
        cases hx
        exact Nat.lt_succ_self _
    · refine (hs.single x).set hi fun hx => .inr fun m hm hm' => ?_
      rw [h.begins] at hx
      cases hx
      exact Nat.lt_irrefl _ (hs.begun m hm _ hm')
    · rcases List.mem_or_eq_of_mem_set hm with hm | rfl
      · rcases Table.mem_insert.mp htxn with rfl | ⟨htxn, -⟩
        · exact absurd (hs.begun m hm _ hx) (Nat.lt_irrefl _)
        · exact hs.inside m hm txn htxn hx
      · rw [h.begins] at hx
        rcases Table.mem_insert.mp htxn with rfl | ⟨htxn, hne⟩
        · exact h.opened l _ _ hs.committed hallowed
        · exact absurd (Option.some.inj hx).symm hne
  | ran txn s preferred htxn hfree =>
    have hid : (s.run w txn preferred).2.id = txn.id := (run_extends s).id
    have htx := h.keeps l (.within txn.id s) (s.run w txn preferred).1 rfl
    refine hs.moved hi htx hconsistent hs.committed rfl (fun u hu hx => ?_)
      fun j m hij hj u hu hx => ?_
    · rcases Table.mem_insert.mp hu with rfl | ⟨hu, hne⟩
      · refine h.ran l s txn w preferred hs.committed ?_ hallowed htxn hfree
        exact hs.inside l hl txn htxn (h.owns l _ _ hallowed rfl)
      · rw [htx, h.owns l _ _ hallowed rfl] at hx
        exact absurd ((Option.some.inj hx).symm.trans hid.symm) hne
    · rcases Table.mem_insert.mp hu with rfl | ⟨hu, -⟩
      · exact absurd (hx.trans (congrArg some hid)) (hmine txn.id rfl j m hij hj)
      · exact hs.inside m (List.mem_of_getElem? hj) u hu hx
  | undone x err | closed x r =>
    exact hs.closing hi (h.keeps l _ _ rfl) (h.owns l _ x hallowed rfl) hconsistent
  | committed txn htxn =>
    have hown := h.owns l _ _ hallowed rfl
    have htx := h.keeps l (.commit txn.id) (.ok ()) rfl
    have hP := hs.inside l hl txn htxn hown
    refine hs.moved hi htx hconsistent (h.commits l txn _ hs.committed hP hallowed) rfl
      (fun u hu hx => ?_) fun j m hij hj u hu hx => ?_
    · rw [htx, hown] at hx
      exact absurd (Option.some.inj hx).symm (Table.mem_erase.mp hu).2
    · obtain ⟨hu, hne⟩ := Table.mem_erase.mp hu
      refine h.others l m txn u _ hs.committed hP hallowed
        (hs.inside m (List.mem_of_getElem? hj) u hu hx) ?_ (hpair j m hij hj)
      exact hs.consistent.compatible txn htxn u hu (Ne.symm hne)

theorem TxnRules.sound_step (h : TxnRules D tx P G Pair) {ls' : List L}
    (hstep : Discipline.LedgerStep D w ls w' ls')
    (hpair : ∀ (i j : Nat) l m, i ≠ j → ls[i]? = some l → ls[j]? = some m → Pair l m)
    (hs : Sound tx P G w ls) : Sound tx P G w' ls' := by
  cases hstep with
  | spawn q => exact h.sound_spawn hs q
  | run i l e c r w' hi hallowed hpossible hperform =>
    rw [h.perform] at hperform
    exact h.sound_run hs (fun j m hij hj => hpair i j l m hij hi hj) hi hallowed
      (turn_of_perform hperform)
  | env v w' henv => exact v.elim

/-- The rule: what the transactions keep holds throughout every run that starts with none open. -/
theorem TxnRules.invariant (h : TxnRules D tx P G Pair) {ok} {db : σ.Rows} (hdb : G db)
    {s : System (World σ) (Effect σ) Effect.Answer Q A} (hr : S.Reaches ok ⟨.idle db, []⟩ s)
    (hpair : ∀ s, S.Reaches ok ⟨.idle db, []⟩ s → ∀ (i j : Nat) l m, i ≠ j →
      (D.ledgers s)[i]? = some l → (D.ledgers s)[j]? = some m → Pair l m) :
    Sound tx P G s.world (D.ledgers s) := by
  refine D.invariant_along hr Discipline.follows_of_idle ?_ fun s a s' hreach hs _ hstep => ?_
  · exact ⟨World.consistent_idle db, hdb, by simp [Discipline.ledgers], fun x => .nil,
      by simp [Discipline.ledgers]⟩
  · exact h.sound_step hstep (hpair s hreach) hs

end Rules

end OauthAs.Sql
