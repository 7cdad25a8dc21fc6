-- SUMMARY: Weakest preconditions of the programs that call a database.
import OauthAs.Lib.Database

/-!
# Rules for sessions

One rule for each way to put a session together. A loop over the rows a scan found has an
invariant of the rows still to come and the ledger.
-/

namespace OauthAs.Sql

open Prog

variable {σ : Schema} {L ε α : Type} {P : Protocol (Effect σ) Effect.Answer L}
  {report : SqlError → ε} {l : L}
variable {err : ε → L → Prop}

theorem wpE_call {e : Effect σ} {ok : e.Result → L → Prop} :
    wpE P (call report e) l ok err ↔
      P.allowed l e ∧ (∀ a, P.possible e (.ok a) → ok a (P.next l e (.ok a))) ∧
        ∀ s, P.possible e (.error s) → err (report s) (P.next l e (.error s)) := by
  constructor
  · rintro ⟨hallowed, hnext⟩
    exact ⟨hallowed, fun a ha => hnext (.ok a) ha, fun s hs => hnext (.error s) hs⟩
  · rintro ⟨hallowed, hok, herr⟩
    refine ⟨hallowed, fun r hr => ?_⟩
    cases r with
    | ok a => exact hok a hr
    | error s => exact herr s hr

theorem wpE_statement {x : Nat} {s : Statement σ} {ok : s.Result → L → Prop} :
    wpE P (statement report x s) l ok err ↔
      P.allowed l (.within x s) ∧
        (∀ a, P.possible (.within x s) (.ok a) → ok a (P.next l (.within x s) (.ok a))) ∧
        ∀ e, P.possible (.within x s) (.error e) → err (report e) (P.next l (.within x s) (.error e)) :=
  wpE_call

theorem wpE_tryCatch {body : Session σ ε α} {handler : ε → Session σ ε α} {ok : α → L → Prop} :
    wpE P (tryCatch body handler) l ok err ↔
      wpE P body l ok fun e l => wpE P (handler e) l ok err := by
  have hrun : (tryCatch body handler : Session σ ε α).run =
      Prog.bind body.run fun r =>
        match r with
        | .ok a => .ret (.ok a)
        | .error e => (handler e).run := rfl
  unfold wpE
  rw [hrun, wp_bind]
  constructor
  · refine wp_mono fun r l h => ?_
    cases r <;> exact h
  · refine wp_mono fun r l h => ?_
    cases r <;> exact h

/-- A body that fails must be allowed to roll back. -/
theorem wpE_transaction {body : Nat → Session σ ε α} {ok : α → L → Prop}
    (hbegin : P.allowed l .begin)
    (hfail : ∀ s, P.possible .begin (.error s) → err (report s) (P.next l .begin (.error s)))
    (hbody : ∀ x, P.possible .begin (.ok x) → wpE P (body x) (P.next l .begin (.ok x)) ok
      fun e l => P.allowed l (.rollback x) ∧
        ∀ r, P.possible (.rollback x) r → err e (P.next l (.rollback x) r)) :
    wpE P (transaction report body) l ok err := by
  refine wpE_bind.mpr (wpE_call.mpr ⟨hbegin, fun x hx => ?_, hfail⟩)
  refine wpE_tryCatch.mpr (wpE_mono (fun _ _ h => h) (fun e l h => ?_) (hbody x hx))
  refine wpE_bind.mpr (wpE_lift_run.mpr (wpE_call.mpr ⟨h.1, fun a ha => ?_, fun s hs => ?_⟩))
  · exact h.2 (.ok a) ha
  · exact h.2 (.error s) hs

section Rows
variable {x : Nat} {t : σ.Name} {cond : σ.Where} {err : ε → L → Prop} {rows : List (σ.Row t)}

theorem wpE_removeAll {I : List (σ.Row t) → L → Prop} {ok : Nat → L → Prop}
    (hstep : ∀ row rest l, I (row :: rest) l →
      wpE P (statement report x (.remove t cond (σ.key t row))) l (fun _ l => I rest l) err)
    (hdone : ∀ n l, I [] l → ok n l) {n : Nat} (h : I rows l) :
    wpE P (removeAll report x t cond rows n) l ok err := by
  induction rows generalizing l n with
  | nil => exact hdone n l h
  | cons row rest ih =>
    refine wpE_seq (hstep row rest l h) fun a l h => ?_
    cases a with
    | none => exact ih h
    | some row' => exact ih h

/-- Trying for one row after the other keeps what a single attempt keeps. -/
theorem wpE_firstOf {J : L → Prop} {take : σ.Key t → Session σ ε (Option (σ.Row t))}
    (htake : ∀ k l, J l → wpE P (take k) l (fun _ l => J l) err) (h : J l) :
    wpE P (firstOf t take rows) l (fun _ l => J l) err := by
  induction rows generalizing l with
  | nil => exact h
  | cons row rest ih =>
    refine wpE_seq (htake _ l h) fun a l h => ?_
    cases a with
    | none => exact ih h
    | some current => exact h

end Rows

end OauthAs.Sql
