-- SUMMARY: Effectful programs as call trees, the discipline their calls follow, and weakest preconditions.
import Mathlib.Tactic.Common

/-!
# Programs over effects

A program either returns or makes one call and continues with the answer. What a call does is
left to whoever runs the program (`Lib.Pool` runs many of them against one shared world); here a
program is only judged by the calls it makes.

A `Protocol` describes the calls a program may make as a function of what it did so far. The
summary of the past is a ledger, advanced by `next` with every answered call. `Prog.wp P p l Q`
says that `p`, started with ledger `l`, makes allowed calls only, whatever possible answers it
gets, and returns with `Q`. Programs that may fail are `ExceptT ε (Prog E R)`; `Prog.wpE` is the
same judgement with one postcondition for each way to return.
-/

namespace OauthAs

inductive Prog (E : Type) (R : E → Type) (α : Type) where
  | ret (a : α)
  | call (e : E) (k : R e → Prog E R α)

namespace Prog

variable {E : Type} {R : E → Type} {α β : Type}

def bind : Prog E R α → (α → Prog E R β) → Prog E R β
  | ret a, f => f a
  | call e k, f => call e (fun r => (k r).bind f)

instance : Monad (Prog E R) where
  pure := ret
  bind := bind

/-- The program that makes one call and returns its answer. -/
def perform (e : E) : Prog E R (R e) := call e ret

/-- The answer of a finished program. -/
def result? : Prog E R α → Option α
  | ret a => some a
  | call _ _ => none

theorem result?_eq_some {p : Prog E R α} {a : α} : p.result? = some a ↔ p = ret a := by
  cases p <;> simp [result?]

end Prog

/-- Which calls a program may make, given a ledger of what it did so far, and which answers a
call can get. -/
structure Protocol (E : Type) (R : E → Type) (L : Type) where
  next : L → (e : E) → R e → L
  allowed : L → E → Prop
  possible : (e : E) → R e → Prop

namespace Prog

variable {E : Type} {R : E → Type} {L α β : Type} {P : Protocol E R L}
variable {l : L} {Q : α → L → Prop} {p : Prog E R α} {ok : α → L → Prop}

def wp (P : Protocol E R L) : Prog E R α → L → (α → L → Prop) → Prop
  | ret a, l, Q => Q a l
  | call e k, l, Q => P.allowed l e ∧ ∀ r, P.possible e r → wp P (k r) (P.next l e r) Q

theorem wp_ret {a : α} : wp P (ret a) l Q ↔ Q a l := Iff.rfl

theorem wp_call {e : E} {k : R e → Prog E R α} :
    wp P (call e k) l Q ↔
      P.allowed l e ∧ ∀ r, P.possible e r → wp P (k r) (P.next l e r) Q := Iff.rfl

theorem wp_mono {Q' : α → L → Prop} (h : ∀ a l, Q a l → Q' a l) : wp P p l Q → wp P p l Q' := by
  induction p generalizing l with
  | ret a => exact h a l
  | call e k ih =>
    rintro ⟨hallowed, hk⟩
    exact ⟨hallowed, fun r hr => ih r (hk r hr)⟩

theorem wp_bind {f : α → Prog E R β} {Q : β → L → Prop} :
    wp P (p.bind f) l Q ↔ wp P p l (fun a l => wp P (f a) l Q) := by
  induction p generalizing l with
  | ret a => exact Iff.rfl
  | call e k ih =>
    constructor
    · rintro ⟨hallowed, hk⟩
      exact ⟨hallowed, fun r hr => (ih r).mp (hk r hr)⟩
    · rintro ⟨hallowed, hk⟩
      exact ⟨hallowed, fun r hr => (ih r).mpr (hk r hr)⟩

/-- A protocol that allows every call while an invariant holds, and keeps it, allows every
program. -/
theorem wp_of_invariant {I : L → Prop} (hallowed : ∀ l e, I l → P.allowed l e)
    (hnext : ∀ l e r, I l → P.possible e r → I (P.next l e r)) (hl : I l) :
    wp P p l fun _ l => I l := by
  induction p generalizing l with
  | ret a => exact hl
  | call e k ih => exact ⟨hallowed l e hl, fun r hr => ih r (hnext l e r hl hr)⟩

/-- A program that keeps to a protocol keeps to one whose ledgers contain those of the first and
that allows at least as much there. -/
theorem wp_embed {L' : Type} {P' : Protocol E R L'} {f : L → L'}
    (hnext : ∀ l e r, P'.next (f l) e r = f (P.next l e r))
    (hallowed : ∀ l e, P.allowed l e → P'.allowed (f l) e)
    (hpossible : ∀ e r, P'.possible e r → P.possible e r) (h : wp P p l Q) :
    wp P' p (f l) fun a l' => ∃ l, l' = f l ∧ Q a l := by
  induction p generalizing l with
  | ret a => exact ⟨l, rfl, h⟩
  | call e k ih =>
    refine ⟨hallowed l e h.1, fun r hr => ?_⟩
    rw [hnext]
    exact ih r (h.2 r (hpossible e r hr))

/-! ## Programs that may fail -/

variable {ε : Type}
variable {err : ε → L → Prop} {h : ExceptT ε (Prog E R) α} {f : α → ExceptT ε (Prog E R) β}

/-- The postcondition of a program that may fail: `ok` of a value, `err` of an error. -/
def outcome (ok : α → L → Prop) (err : ε → L → Prop) : Except ε α → L → Prop
  | .ok a, l => ok a l
  | .error e, l => err e l

def wpE (P : Protocol E R L) (h : ExceptT ε (Prog E R) α) (l : L)
    (ok : α → L → Prop) (err : ε → L → Prop) : Prop :=
  wp P h.run l (outcome ok err)

theorem wpE_pure {a : α} : wpE P (pure a) l ok err ↔ ok a l := Iff.rfl

theorem wpE_throw {e : ε} : wpE P (throw e) l ok err ↔ err e l := Iff.rfl

theorem wpE_bind {ok : β → L → Prop} :
    wpE P (h >>= f) l ok err ↔ wpE P h l (fun a l => wpE P (f a) l ok err) err := by
  have hrun : (h >>= f).run = Prog.bind h.run (ExceptT.bindCont f) := rfl
  unfold wpE
  rw [hrun, wp_bind]
  constructor
  · refine wp_mono fun r l h => ?_
    cases r <;> exact h
  · refine wp_mono fun r l h => ?_
    cases r <;> exact h

theorem wpE_mono {ok' : α → L → Prop} {err' : ε → L → Prop} (hok : ∀ a l, ok a l → ok' a l)
    (herr : ∀ e l, err e l → err' e l) : wpE P h l ok err → wpE P h l ok' err' := by
  refine wp_mono fun r l h => ?_
  cases r with
  | ok a => exact hok a l h
  | error e => exact herr e l h

/-- What the first part leaves behind is what the rest goes on from. -/
theorem wpE_seq {ok' : β → L → Prop} (hh : wpE P h l ok err)
    (hf : ∀ a l, ok a l → wpE P (f a) l ok' err) : wpE P (h >>= f) l ok' err :=
  wpE_bind.mpr (wpE_mono hf (fun _ _ h => h) hh)

/-- One call lifted into a program that may fail. -/
def performE (ε : Type) (e : E) : ExceptT ε (Prog E R) (R e) := ExceptT.lift (perform e)

theorem wpE_performE {e : E} {ok : R e → L → Prop} :
    wpE P (performE ε e) l ok err ↔
      P.allowed l e ∧ ∀ r, P.possible e r → ok r (P.next l e r) := Iff.rfl

theorem wpE_ite {c : Prop} [Decidable c] {h' : ExceptT ε (Prog E R) α} :
    wpE P (if c then h else h') l ok err ↔
      (c → wpE P h l ok err) ∧ (¬ c → wpE P h' l ok err) := by
  by_cases hc : c <;> simp [hc]

theorem wpE_guard {c : Prop} [Decidable c] {e : ε} {h : ExceptT ε (Prog E R) β} {ok : β → L → Prop}
    (hthrow : c → err e l) (hrest : ¬ c → wpE P h l ok err) :
    wpE P (if c then throw e >>= f else h) l ok err := by
  refine wpE_ite.mpr ⟨fun hc => ?_, hrest⟩
  rw [wpE_bind, wpE_throw]
  exact hthrow hc

theorem wpE_map {f : α → β} {ok : β → L → Prop} :
    wpE P (f <$> h) l ok err ↔ wpE P h l (fun a => ok (f a)) err :=
  wpE_bind (f := fun a => pure (f a))

/-- A program whose failure the caller looks at. -/
theorem wpE_lift_run {ε' : Type} {ok : Except ε α → L → Prop} {err : ε' → L → Prop} :
    wpE P (ExceptT.lift h.run : ExceptT ε' (Prog E R) (Except ε α)) l ok err ↔
      wpE P h l (fun a => ok (.ok a)) (fun e => ok (.error e)) := by
  have hrun : (ExceptT.lift h.run : ExceptT ε' (Prog E R) (Except ε α)).run =
      Prog.bind h.run (fun x => .ret (.ok x)) := rfl
  unfold wpE
  rw [hrun, wp_bind]
  constructor <;>
  · refine wp_mono fun r l h => ?_
    cases r <;> exact h

end Prog

end OauthAs
