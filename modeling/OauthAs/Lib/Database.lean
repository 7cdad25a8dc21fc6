-- SUMMARY: A relational database at read committed: statements, transactions, advisory and row locks.
import Mathlib.Data.List.Sort
import Mathlib.Logic.Function.Basic
import OauthAs.Lib.Prog
import OauthAs.Lib.Table

/-!
# A database at read committed

A `Schema` names the tables, the conditions a statement can select rows by and the identities
advisory locks are taken for. A transaction collects its writes and its locks until it ends. Each
statement looks at the rows committed so far with the writes of its own transaction on top.

A statement that locks several rows takes them one at a time, in an order that is the same for
every statement. It finds the rows with `scan` and then claims them one by one. A row that another
transaction has locked is waited for, and after the wait the condition is checked again on the row
as it is then. A row that no longer satisfies it is left alone and not locked.

Any call can also fail. What a failed transaction wrote is never committed, because a program that
gets an error rolls back (`transaction`).
-/

namespace OauthAs.Sql

/-- An order of the rows of each table, the same for every statement. -/
structure RowOrder {Name : Type} (Key : Name → Type) where
  le : (t : Name) → Key t → Key t → Bool
  total : ∀ t a b, le t a b = true ∨ le t b a = true
  trans : ∀ t a b c, le t a b = true → le t b c = true → le t a c = true
  antisymm : ∀ t a b, le t a b = true → le t b a = true → a = b

structure Schema where
  Name : Type
  Row : Name → Type
  Key : Name → Type
  key : (t : Name) → Row t → Key t
  /-- The conditions of statements, and the rows that satisfy them. -/
  Where : Type
  holds : (t : Name) → Where → Row t → Bool
  /-- Questions about the whole database. -/
  Query : Type
  answer : Query → ((t : Name) → Table (key t)) → Bool
  /-- What an insert makes of the row that is already there under the same key. -/
  onConflict : (t : Name) → (old new : Row t) → Row t
  key_onConflict : ∀ t old new, key t old = key t new → key t (onConflict t old new) = key t new
  /-- The table's own conditions on a row. -/
  check : (t : Name) → Row t → Bool
  /-- Two rows with different keys that may not both be stored. -/
  clashes : (t : Name) → Row t → Row t → Bool
  Advisory : Type
  order : RowOrder Key
  decName : DecidableEq Name
  decKey : ∀ t, DecidableEq (Key t)
  decAdvisory : DecidableEq Advisory

attribute [instance] Schema.decName Schema.decKey Schema.decAdvisory

variable {σ : Schema}

abbrev Schema.Rows (σ : Schema) : Type := (t : σ.Name) → Table (σ.key t)

/-- The place of a row, stored or not. -/
abbrev Resource (σ : Schema) : Type := (t : σ.Name) × σ.Key t

/-! ## Writes -/

inductive Write (σ : Schema) where
  | put (t : σ.Name) (row : σ.Row t)
  | remove (t : σ.Name) (k : σ.Key t)

namespace Write

def resource : Write σ → Resource σ
  | put t row => ⟨t, σ.key t row⟩
  | remove t k => ⟨t, k⟩

def apply (db : σ.Rows) : Write σ → σ.Rows
  | put t row => Function.update db t ((db t).insert row)
  | remove t k => Function.update db t ((db t).erase k)

def applyAll (db : σ.Rows) (ws : List (Write σ)) : σ.Rows := ws.foldl apply db

/-- Whether this is a row that may not be stored beside the given one. -/
def clashesWith (t : σ.Name) (row : σ.Row t) : Write σ → Bool
  | put t' row' => if h : t' = t then σ.clashes t row (h ▸ row') else false
  | remove _ _ => false

end Write

/-! ## Transactions -/

inductive LockMode where
  | shared
  | exclusive
deriving DecidableEq, Repr

/-- Only shared locks go together. -/
def LockMode.conflicts : LockMode → LockMode → Bool
  | shared, shared => false
  | _, _ => true

structure Txn (σ : Schema) where
  id : Nat
  writes : List (Write σ)
  advisory : List (LockMode × σ.Advisory)
  rows : List (Resource σ)

namespace Txn

def start (id : Nat) : Txn σ := ⟨id, [], [], []⟩

/-- The database as the transaction sees it. -/
def view (txn : Txn σ) (db : σ.Rows) : σ.Rows := Write.applyAll db txn.writes

def locking (txn : Txn σ) (mode : LockMode) (key : σ.Advisory) : Txn σ :=
  { txn with advisory := (mode, key) :: txn.advisory }

def lockingRow (txn : Txn σ) (r : Resource σ) : Txn σ := { txn with rows := r :: txn.rows }

/-- A row that is written is locked. -/
def writing (txn : Txn σ) (w : Write σ) : Txn σ :=
  { txn with writes := txn.writes ++ [w], rows := w.resource :: txn.rows }

def writingAll (txn : Txn σ) (ws : List (Write σ)) : Txn σ := ws.foldl writing txn

end Txn

/-! ## Statements -/

inductive Statement (σ : Schema) where
  /-- Takes an advisory lock. -/
  | lock (mode : LockMode) (key : σ.Advisory)
  | ask (q : σ.Query)
  /-- The rows that satisfy a condition, in the common order. -/
  | scan (t : σ.Name) (cond : σ.Where)
  /-- Locks one row and reads it. -/
  | claim (t : σ.Name) (cond : σ.Where) (k : σ.Key t)
  /-- Deletes one row and returns it. -/
  | remove (t : σ.Name) (cond : σ.Where) (k : σ.Key t)
  /-- Replaces the row with this key. -/
  | update (t : σ.Name) (cond : σ.Where) (row : σ.Row t)
  /-- Inserts a row, or updates the one that is there. -/
  | insert (t : σ.Name) (row : σ.Row t)
  /-- Inserts a row unless there is one. -/
  | insertNew (t : σ.Name) (row : σ.Row t)
  /-- Deletes at most so many rows that no other transaction has locked. -/
  | batch (t : σ.Name) (cond : σ.Where) (limit : Nat)

/-- Why a call failed: the row is not admitted by a table, or something else went wrong. -/
inductive SqlError where
  | unique
  | check
  | other (kind : String)
deriving DecidableEq, Repr

/-- How the database resolves what it leaves open: whether a call fails, and which rows a batch
takes first. -/
inductive Choice (σ : Schema) where
  | fail (kind : String)
  | proceed (preferred : List (Resource σ))

namespace Statement

abbrev Result : Statement σ → Type
  | lock _ _ => Unit
  | ask _ => Bool
  | scan t _ => List (σ.Row t)
  | claim t _ _ => Option (σ.Row t)
  | remove t _ _ => Option (σ.Row t)
  | update _ _ _ => Bool
  | insert _ _ => Unit
  | insertNew _ _ => Bool
  | batch _ _ _ => Nat

/-- The row a statement waits for. -/
def wanted : Statement σ → Option (Resource σ)
  | claim t _ k => some ⟨t, k⟩
  | remove t _ k => some ⟨t, k⟩
  | update t _ row => some ⟨t, σ.key t row⟩
  | insert t row => some ⟨t, σ.key t row⟩
  | insertNew t row => some ⟨t, σ.key t row⟩
  | lock _ _ | ask _ | scan _ _ | batch _ _ _ => none

/-- The advisory lock a statement waits for. -/
def wantedKey : Statement σ → Option (LockMode × σ.Advisory)
  | lock mode key => some (mode, key)
  | _ => none

/-- Whether a write of another transaction decides if the row may be stored. -/
def contends : Statement σ → Write σ → Bool
  | update t _ row, w => w.clashesWith t row
  | insert t row, w => w.clashesWith t row
  | insertNew t row, w => w.clashesWith t row
  | _, _ => false

end Statement

/-- Whether a statement of another transaction has to wait for this one to end. -/
def Txn.blocks (txn : Txn σ) (s : Statement σ) : Bool :=
  (s.wanted.any fun r => txn.rows.contains r)
    || (s.wantedKey.any fun want =>
      txn.advisory.any fun held => held.2 = want.2 && held.1.conflicts want.1)
    || txn.writes.any s.contends

/-! ## The database -/

structure World (σ : Schema) where
  committed : σ.Rows
  txns : Table (Txn.id : Txn σ → Nat)
  next : Nat

namespace World

/-- No transaction is open. -/
def idle (db : σ.Rows) : World σ := ⟨db, .empty, 0⟩

/-- The transactions a statement of transaction `x` waits for. -/
def blockers (w : World σ) (x : Nat) (s : Statement σ) : List (Txn σ) :=
  w.txns.rows.filter fun u => u.id ≠ x && u.blocks s

/-- Whether no other transaction has locked the row. -/
def free (w : World σ) (x : Nat) (r : Resource σ) : Bool :=
  w.txns.rows.all fun u => u.id = x || !u.rows.contains r

def close (w : World σ) (x : Nat) : World σ := { w with txns := w.txns.erase x }

end World

/-- The rows of a table that satisfy a condition, in the common order. -/
def select (db : σ.Rows) (t : σ.Name) (cond : σ.Where) : List (σ.Row t) :=
  ((db t).rows.filter (σ.holds t cond)).insertionSort fun a b =>
    σ.order.le t (σ.key t a) (σ.key t b) = true

/-- The row with this key, if it satisfies the condition. -/
def matching (db : σ.Rows) (t : σ.Name) (cond : σ.Where) (k : σ.Key t) : Option (σ.Row t) :=
  ((db t).lookup k).filter (σ.holds t cond)

/-- The rows a batch takes: those preferred before the others. -/
def picked (preferred : List (Resource σ)) (t : σ.Name) (limit : Nat) (rows : List (σ.Row t)) :
    List (σ.Row t) :=
  let prefers := fun row => preferred.contains ⟨t, σ.key t row⟩
  (rows.filter prefers ++ rows.filter fun row => !prefers row).take limit

/-- Stores a row, unless the table does not admit it. -/
def Txn.store (txn : Txn σ) (db : σ.Rows) (t : σ.Name) (row : σ.Row t) :
    Except SqlError Unit × Txn σ :=
  if !σ.check t row then (.error .check, txn)
  else if (db t).rows.any fun other =>
      decide (σ.key t other ≠ σ.key t row) && σ.clashes t row other then (.error .unique, txn)
  else (.ok (), txn.writing (.put t row))

/-- Answers that a row was stored. -/
def stored (r : Except SqlError Unit × Txn σ) : Except SqlError Bool × Txn σ :=
  (r.1.map fun _ => true, r.2)

/-- One statement of a transaction that need not wait. -/
def Statement.run (w : World σ) (txn : Txn σ) (preferred : List (Resource σ)) :
    (s : Statement σ) → Except SqlError s.Result × Txn σ
  | .lock mode key => (.ok (), txn.locking mode key)
  | .ask q => (.ok (σ.answer q (txn.view w.committed)), txn)
  | .scan t cond => (.ok (select (txn.view w.committed) t cond), txn)
  | .claim t cond k =>
    match matching (txn.view w.committed) t cond k with
    | some row => (.ok (some row), txn.lockingRow ⟨t, k⟩)
    | none => (.ok none, txn)
  | .remove t cond k =>
    match matching (txn.view w.committed) t cond k with
    | some row => (.ok (some row), txn.writing (.remove t k))
    | none => (.ok none, txn)
  | .update t cond row =>
    match matching (txn.view w.committed) t cond (σ.key t row) with
    | some _ => stored (txn.store (txn.view w.committed) t row)
    | none => (.ok false, txn)
  | .insert t row =>
    match (txn.view w.committed t).lookup (σ.key t row) with
    | some old => txn.store (txn.view w.committed) t (σ.onConflict t old row)
    | none => txn.store (txn.view w.committed) t row
  | .insertNew t row =>
    if (txn.view w.committed t).contains (σ.key t row) then (.ok false, txn)
    else stored (txn.store (txn.view w.committed) t row)
  | .batch t cond limit =>
    let candidates := (txn.view w.committed t).rows.filter fun row =>
      σ.holds t cond row && w.free txn.id ⟨t, σ.key t row⟩
    let rows := picked preferred t limit candidates
    (.ok rows.length, txn.writingAll (rows.map fun row => .remove t (σ.key t row)))

/-- One call to the database. -/
inductive Effect (σ : Schema) where
  | begin
  | within (x : Nat) (s : Statement σ)
  | commit (x : Nat)
  | rollback (x : Nat)

namespace Effect

abbrev Result : Effect σ → Type
  | begin => Nat
  | within _ s => s.Result
  | commit _ => Unit
  | rollback _ => Unit

abbrev Answer (e : Effect σ) : Type := Except SqlError e.Result

/-- The transaction a call belongs to. -/
def txn? : Effect σ → Option Nat
  | begin => none
  | within x _ => some x
  | commit x => some x
  | rollback x => some x

end Effect

/-- A statement that has to wait is not performed until it need not, but its wait can end in
failure. -/
def World.perform (w : World σ) : (e : Effect σ) → Choice σ → Option (e.Answer × World σ)
  | .begin, .fail kind => some (.error (.other kind), w)
  | .begin, .proceed _ =>
    some (.ok w.next, { w with txns := w.txns.insert (.start w.next), next := w.next + 1 })
  | .within x s, c =>
    match w.txns.lookup x, c with
    | none, _ => some (.error (.other "no transaction"), w)
    | some _, .fail kind => some (.error (.other kind), w)
    | some txn, .proceed preferred =>
      if w.blockers x s = [] then
        some ((s.run w txn preferred).1,
          { w with txns := w.txns.insert (s.run w txn preferred).2 })
      else none
  | .commit x, c =>
    match w.txns.lookup x, c with
    | none, _ => some (.error (.other "no transaction"), w)
    | some _, .fail kind => some (.error (.other kind), w.close x)
    | some txn, .proceed _ => some (.ok (), { w.close x with committed := txn.view w.committed })
  | .rollback x, .fail kind => some (.error (.other kind), w.close x)
  | .rollback x, .proceed _ => some (.ok (), w.close x)

/-! ## Programs -/

abbrev Client (σ : Schema) : Type → Type := Prog (Effect σ) Effect.Answer

/-- Programs that stop at the first call that fails. -/
abbrev Session (σ : Schema) (ε : Type) : Type → Type := ExceptT ε (Client σ)

section Programs
variable {ε α : Type}

/-- One call, its failure reported in the program's own terms. -/
def call (report : SqlError → ε) (e : Effect σ) : Session σ ε e.Result :=
  ExceptT.mk (Prog.call e fun r => .ret (r.mapError report))

def statement (report : SqlError → ε) (x : Nat) (s : Statement σ) : Session σ ε s.Result :=
  call report (.within x s)

/-- A body that failed is rolled back. -/
def transaction (report : SqlError → ε) (body : Nat → Session σ ε α) : Session σ ε α := do
  let x ← call report .begin
  tryCatch (body x) fun e => do
    let _ ← ExceptT.lift (call report (.rollback x)).run
    throw e

/-- A statement that is a transaction of its own. -/
def autocommit (report : SqlError → ε) (body : Nat → Session σ ε α) : Session σ ε α :=
  transaction report fun x => do
    let a ← body x
    call report (.commit x)
    return a

variable (report : SqlError → ε) (x : Nat) (t : σ.Name) (cond : σ.Where)

/-- Deletes the rows found, one by one, and counts those that were still there. -/
def removeAll : List (σ.Row t) → Nat → Session σ ε Nat
  | [], n => return n
  | row :: rest, n => do
    match ← statement report x (.remove t cond (σ.key t row)) with
    | some _ => removeAll rest (n + 1)
    | none => removeAll rest n

def deleteWhere : Session σ ε Nat := do
  let rows ← statement report x (.scan t cond)
  removeAll report x t cond rows 0

/-- The first of the rows found that can still be had. -/
def firstOf (take : σ.Key t → Session σ ε (Option (σ.Row t))) :
    List (σ.Row t) → Session σ ε (Option (σ.Row t))
  | [] => return none
  | row :: rest => do
    match ← take (σ.key t row) with
    | some current => return some current
    | none => firstOf take rest

/-- Deletes and returns a row, for a condition that names one row by its key. -/
def deleteReturning : Session σ ε (Option (σ.Row t)) := do
  let rows ← statement report x (.scan t cond)
  firstOf t (fun k => statement report x (.remove t cond k)) rows

/-- Locks and returns one of the rows, the earliest in the given order that can be had. -/
def selectForUpdate (sort : List (σ.Row t) → List (σ.Row t)) : Session σ ε (Option (σ.Row t)) := do
  let rows ← statement report x (.scan t cond)
  firstOf t (fun k => statement report x (.claim t cond k)) (sort rows)

/-- Replaces a row that satisfies a condition which names it by its key. -/
def updateWhere (row : σ.Row t) : Session σ ε Bool := do
  match ← statement report x (.scan t cond) with
  | [] => return false
  | _ :: _ => statement report x (.update t cond row)

end Programs

end OauthAs.Sql
