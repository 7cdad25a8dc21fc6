-- SUMMARY: A program run alone against a world, and two such runs that go in lockstep.
import OauthAs.Lib.Prog

/-!
# Runs in lockstep

`Prog.exec` runs a program to its end against a world that answers every call, with nothing else
going on. Two worlds that no allowed call can tell apart give a program the same answers, so the
two runs return, return the same value and leave worlds that still cannot be told apart.
-/

namespace OauthAs

namespace Prog

variable {W E : Type} {R : E → Type} {L α β : Type} {e : E}

/-- Runs a program alone; it gets stuck where the world does not answer. -/
def exec (perform : W → (e : E) → Option (R e × W)) : W → Prog E R α → Option (α × W)
  | w, ret a => some (a, w)
  | w, call e k =>
    match perform w e with
    | none => none
    | some (r, w) => exec perform w (k r)

/-- Runs a program alone and writes down its calls. -/
def traced (perform : W → (e : E) → Option (R e × W)) :
    W → Prog E R α → Option (List ((e : E) × R e) × α)
  | _, ret a => some ([], a)
  | w, call e k =>
    match perform w e with
    | none => none
    | some (r, w) => (traced perform w (k r)).map fun (trace, a) => (⟨e, r⟩ :: trace, a)

variable {perform : W → (e : E) → Option (R e × W)}

theorem traced_call {w : W} {k : R e → Prog E R α} {trace : List ((e : E) × R e)} {a : α}
    (h : traced perform w (call e k) = some (trace, a)) :
    ∃ r v rest, perform w e = some (r, v) ∧ traced perform v (k r) = some (rest, a) ∧
      trace = ⟨e, r⟩ :: rest := by
  simp only [traced] at h
  split at h
  · cases h
  · rename_i r v hperform
    obtain ⟨⟨rest, b⟩, hrest, heq⟩ := Option.map_eq_some_iff.mp h
    cases heq
    exact ⟨r, v, rest, hperform, hrest, rfl⟩

section Protocols
variable {P : Protocol E R L} {I : W → Prop}
  (hstep : ∀ l e w r w', P.allowed l e → I w → perform w e = some (r, w') → P.possible e r ∧ I w')
  {p : Prog E R α} {l : L} {Q : α → L → Prop} (hp : wp P p l Q) {w : W} (hw : I w) {a : α}
include hstep hp hw

/-- A run of a program that keeps to a protocol ends as the protocol demands and keeps what every
allowed call keeps. -/
theorem exec_wp {w' : W} (h : exec perform w p = some (a, w')) : (∃ l', Q a l') ∧ I w' := by
  induction p generalizing l w with
  | ret b =>
    cases h
    exact ⟨⟨l, hp⟩, hw⟩
  | call e k ih =>
    simp only [exec] at h
    split at h
    · cases h
    · rename_i r v hperform
      obtain ⟨hpossible, hv⟩ := hstep l e w r v hp.1 hw hperform
      exact ih r (hp.2 r hpossible) hv h

variable {trace : List ((e : E) × R e)} (h : traced perform w p = some (trace, a))
include h

/-- Its calls make up the ledger it ends with. -/
theorem traced_wp : Q a (trace.foldl (fun l c => P.next l c.1 c.2) l) := by
  induction p generalizing l w trace with
  | ret b =>
    cases h
    exact hp
  | call e k ih =>
    obtain ⟨r, v, rest, hperform, hrest, rfl⟩ := traced_call h
    obtain ⟨hpossible, hv⟩ := hstep l e w r v hp.1 hw hperform
    exact ih r (hp.2 r hpossible) hv hrest

/-- Every call is allowed by what came before it. -/
theorem traced_allowed {before after : List ((e : E) × R e)} {c : (e : E) × R e}
    (htrace : trace = before ++ c :: after) :
    P.allowed (before.foldl (fun l c => P.next l c.1 c.2) l) c.1 := by
  induction p generalizing l w trace before with
  | ret b =>
    cases h
    cases before <;> cases htrace
  | call e k ih =>
    obtain ⟨r, v, rest, hperform, hrest, rfl⟩ := traced_call h
    cases before with
    | nil =>
      cases htrace
      exact hp.1
    | cons first before =>
      cases htrace
      obtain ⟨hpossible, hv⟩ := hstep l e w r v hp.1 hw hperform
      exact ih r (hp.2 r hpossible) hv hrest rfl

end Protocols

theorem exec_bind {w : W} {p : Prog E R α} {f : α → Prog E R β} :
    exec perform w (p.bind f) =
      match exec perform w p with
      | none => none
      | some (a, w) => exec perform w (f a) := by
  induction p generalizing w with
  | ret a => rfl
  | call e k ih =>
    simp only [bind, exec]
    cases perform w e with
    | none => rfl
    | some answer => exact ih answer.1

/-! ## Runs that may fail -/

variable {ε : Type} {w w' : W}

theorem exec_bindE {x : ExceptT ε (Prog E R) α} {f : α → ExceptT ε (Prog E R) β} :
    exec perform w (x >>= f).run =
      match exec perform w x.run with
      | none => none
      | some (.ok a, v) => exec perform v (f a).run
      | some (.error e, v) => some (.error e, v) := by
  have hrun : (x >>= f).run = x.run.bind (ExceptT.bindCont f) := rfl
  rw [hrun, exec_bind]
  cases exec perform w x.run with
  | none => rfl
  | some outcome =>
    obtain ⟨result, v⟩ := outcome
    cases result <;> rfl

theorem exec_liftE {p : Prog E R α} :
    exec perform w (ExceptT.lift p : ExceptT ε (Prog E R) α).run =
      (exec perform w p).map fun outcome => (.ok outcome.1, outcome.2) := by
  have hrun : (ExceptT.lift p : ExceptT ε (Prog E R) α).run = p.bind fun a => .ret (.ok a) := rfl
  rw [hrun, exec_bind]
  cases exec perform w p with
  | none => rfl
  | some outcome => rfl

theorem exec_performE :
    exec perform w (performE ε e : ExceptT ε (Prog E R) (R e)).run =
      (perform w e).map fun answer => (.ok answer.1, answer.2) := by
  have hrun : (performE ε e : ExceptT ε (Prog E R) (R e)).run = .call e fun r => .ret (.ok r) := rfl
  rw [hrun, exec]
  cases perform w e with
  | none => rfl
  | some answer => rfl

/-- A run succeeds exactly if its first part does and what follows does from there. -/
theorem exec_bind_ok {x : ExceptT ε (Prog E R) α} {f : α → ExceptT ε (Prog E R) β} {b : β} :
    exec perform w (x >>= f).run = some (.ok b, w') ↔
      ∃ a v, exec perform w x.run = some (.ok a, v) ∧ exec perform v (f a).run = some (.ok b, w') := by
  rw [exec_bindE]
  cases hx : exec perform w x.run with
  | none => simp
  | some outcome =>
    obtain ⟨result, v⟩ := outcome
    cases result with
    | ok a =>
      constructor
      · exact fun h => ⟨a, v, rfl, h⟩
      · rintro ⟨a', v', heq, h⟩
        cases heq
        exact h
    | error e =>
      constructor
      · intro h
        cases h
      · rintro ⟨a', v', heq, h⟩
        cases heq

theorem exec_pure_ok {a b : α} :
    exec perform w (pure a : ExceptT ε (Prog E R) α).run = some (.ok b, w') ↔ a = b ∧ w = w' := by
  constructor
  · intro h
    cases h
    exact ⟨rfl, rfl⟩
  · rintro ⟨rfl, rfl⟩
    rfl

theorem exec_throw_ok {e : ε} {b : α} :
    ¬ exec perform w (throw e : ExceptT ε (Prog E R) α).run = some (.ok b, w') := by
  intro h
  cases h

theorem exec_performE_ok {r : R e} :
    exec perform w (performE ε e : ExceptT ε (Prog E R) (R e)).run = some (.ok r, w') ↔
      perform w e = some (r, w') := by
  rw [exec_performE]
  cases perform w e with
  | none => simp
  | some answer => simp [Prod.ext_iff]

end Prog

/-- Two outcomes in lockstep: both return, the same value, and leave related worlds. -/
def Lockstep {W α : Type} (Φ : α → W → W → Prop) (o o' : Option (α × W)) : Prop :=
  ∃ a w w', o = some (a, w) ∧ o' = some (a, w') ∧ Φ a w w'

/-- A program that makes allowed calls only does not tell apart what no allowed call does. -/
theorem Prog.exec_lockstep {W E : Type} {R : E → Type} {L α : Type}
    {perform : W → (e : E) → Option (R e × W)} {P : Protocol E R L} {Rel : W → W → Prop}
    (hstep : ∀ l e w w', P.allowed l e → Rel w w' →
      Lockstep (fun r v v' => P.possible e r ∧ Rel v v') (perform w e) (perform w' e))
    {p : Prog E R α} {l : L} {Q : α → L → Prop} (hp : wp P p l Q) {w w' : W} (h : Rel w w') :
    Lockstep (fun a v v' => (∃ l, Q a l) ∧ Rel v v') (exec perform w p) (exec perform w' p) := by
  induction p generalizing l w w' with
  | ret a => exact ⟨a, w, w', rfl, rfl, ⟨l, hp⟩, h⟩
  | call e k ih =>
    obtain ⟨r, v, v', hv, hv', hpossible, hRel⟩ := hstep l e w w' hp.1 h
    simp only [exec, hv, hv']
    exact ih r (hp.2 r hpossible) hRel

end OauthAs
