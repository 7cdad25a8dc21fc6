-- SUMMARY: Programs interleaved over one shared world, their ledgers, and invariants of whole runs.
import Mathlib.Logic.Relation
import Mathlib.Algebra.GroupWithZero.Nat
import Mathlib.Algebra.Order.Group.Nat
import Mathlib.Algebra.Order.BigOperators.Group.List
import OauthAs.Lib.Prog

/-!
# Pools of programs

Any number of requests run against one shared world. A step starts a request, lets one request
make its next call, or lets the environment act. Calls are atomic and nothing else is: between
two calls of one request any other request may run.

Each thread keeps the trace of its answered calls. A `Discipline` names the ledger the trace is
summarised by and proves that every handler follows its protocol. `Discipline.ledgerStep` then
says everything a step can do in terms of the world and the list of ledgers, and every invariant
above this layer is proved against that one lemma.
-/

namespace OauthAs

/-- What requests do (`handler`), what a call does to the world (`perform`, with a choice that
resolves what the world leaves open) and what happens without a request (`environment`). -/
structure Semantics (W E : Type) (R : E → Type) (C Q A V : Type) where
  handler : Q → Prog E R A
  perform : W → (e : E) → C → Option (R e × W)
  environment : W → V → Option W

structure Thread (E : Type) (R : E → Type) (Q A : Type) where
  request : Q
  trace : List ((e : E) × R e)
  prog : Prog E R A

namespace Thread

variable {E : Type} {R : E → Type} {Q A : Type}

def start (request : Q) (prog : Prog E R A) : Thread E R Q A := ⟨request, [], prog⟩

/-- The reply of a finished thread. -/
def reply? (t : Thread E R Q A) : Option A := t.prog.result?

def Finished (t : Thread E R Q A) : Prop := t.reply?.isSome

instance (t : Thread E R Q A) : Decidable t.Finished :=
  inferInstanceAs (Decidable (t.reply?.isSome = true))

/-- A thread that waits for an answer has not finished. -/
theorem not_finished {t : Thread E R Q A} {e : E} {k : R e → Prog E R A}
    (hprog : t.prog = .call e k) : ¬ t.Finished := by
  simp [Finished, reply?, hprog, Prog.result?]

/-- The call a thread makes next. -/
def call? (t : Thread E R Q A) : Option E :=
  match t.prog with
  | .ret _ => none
  | .call e _ => some e

theorem call?_eq_some {t : Thread E R Q A} {e : E} : t.call? = some e ↔ ∃ k, t.prog = .call e k := by
  unfold call?
  cases t.prog with
  | ret a => simp
  | call e' k =>
    refine ⟨?_, ?_⟩
    · rintro ⟨⟩
      exact ⟨k, rfl⟩
    · rintro ⟨k, ⟨⟩⟩
      rfl

/-- The thread after its call `e` was answered by `r`. -/
def resume (t : Thread E R Q A) (e : E) (r : R e) (p : Prog E R A) : Thread E R Q A :=
  ⟨t.request, t.trace ++ [⟨e, r⟩], p⟩

/-- Whether the thread made the call `e` and got the answer `r`. -/
def Did (t : Thread E R Q A) (e : E) (r : R e) : Prop := ⟨e, r⟩ ∈ t.trace

instance [DecidableEq E] [∀ e, DecidableEq (R e)] (t : Thread E R Q A) (e : E) (r : R e) :
    Decidable (t.Did e r) := inferInstanceAs (Decidable (_ ∈ t.trace))

theorem did_resume {t : Thread E R Q A} {e e' : E} {r : R e} {r' : R e'} {p : Prog E R A} :
    (t.resume e' r' p).Did e r ↔
      t.Did e r ∨ (⟨e, r⟩ : (e : E) × R e) = ⟨e', r'⟩ := by
  simp [Did, resume]

end Thread

/-! ## One element replaced or added -/

section Set
variable {L : Type} {ls : List L} {i j : Nat} {l l' : L} {P : L → Prop}

theorem mem_set_self (hi : ls[i]? = some l) : l' ∈ ls.set i l' := by
  obtain ⟨hlt, -⟩ := List.getElem?_eq_some_iff.mp hi
  exact List.mem_of_getElem? (List.getElem?_set_self hlt)

theorem set_self (h : ls[i]? = some l) : ls.set i l = ls := by
  obtain ⟨hlt, rfl⟩ := List.getElem?_eq_some_iff.mp h
  exact List.set_getElem_self hlt

theorem getElem?_set_cases {m : L} (hi : ls[i]? = some l) (hj : (ls.set i l')[j]? = some m) :
    (i = j ∧ l' = m) ∨ (i ≠ j ∧ ls[j]? = some m) := by
  obtain ⟨hlt, -⟩ := List.getElem?_eq_some_iff.mp hi
  by_cases hij : i = j
  · subst hij
    rw [List.getElem?_set_self hlt] at hj
    exact .inl ⟨rfl, Option.some.inj hj⟩
  · rw [List.getElem?_set_ne hij] at hj
    exact .inr ⟨hij, hj⟩

/-- What the replaced element had the new one has. -/
theorem exists_getElem?_set (hi : ls[i]? = some l) (hkeep : P l → P l')
    (h : ∃ m, ls[j]? = some m ∧ P m) : ∃ m, (ls.set i l')[j]? = some m ∧ P m := by
  obtain ⟨m, hj, hP⟩ := h
  by_cases hij : i = j
  · subst hij
    cases hi.symm.trans hj
    exact ⟨l', List.getElem?_set_self (List.getElem?_eq_some_iff.mp hi).1, hkeep hP⟩
  · exact ⟨m, (List.getElem?_set_ne hij).trans hj, hP⟩

theorem exists_mem_set (hi : ls[i]? = some l) (hkeep : P l → P l') (h : ∃ m ∈ ls, P m) :
    ∃ m ∈ ls.set i l', P m := by
  obtain ⟨m, hm, hP⟩ := h
  obtain ⟨j, hj⟩ := List.mem_iff_getElem?.mp hm
  obtain ⟨m', hj', hP'⟩ := exists_getElem?_set hi hkeep ⟨m, hj, hP⟩
  exact ⟨m', List.mem_of_getElem? hj', hP'⟩

theorem forall_mem_set (h : ∀ m ∈ ls, P m) (hl' : P l') : ∀ m ∈ ls.set i l', P m := by
  intro m hm
  rcases List.mem_or_eq_of_mem_set hm with hm | rfl
  · exact h m hm
  · exact hl'

theorem forall_mem_append_one (h : ∀ m ∈ ls, P m) (hl : P l) : ∀ m ∈ ls ++ [l], P m := by
  simpa [or_imp, forall_and] using ⟨h, hl⟩

theorem getElem?_append_cases {m : L} (hj : (ls ++ [l])[j]? = some m) :
    ls[j]? = some m ∨ m = l := by
  rcases Nat.lt_or_ge j ls.length with hlt | hge
  · exact .inl ((List.getElem?_append_left hlt).symm.trans hj)
  · rw [List.getElem?_append_right hge] at hj
    exact .inr (List.mem_singleton.mp (List.mem_of_getElem? hj))

end Set

structure System (W E : Type) (R : E → Type) (Q A : Type) where
  world : W
  threads : List (Thread E R Q A)

inductive Action (C Q V : Type) where
  | spawn (q : Q)
  | run (i : Nat) (c : C)
  | env (v : V)
deriving DecidableEq, Repr

namespace Semantics

variable {W E : Type} {R : E → Type} {C Q A V : Type}
variable {i : Nat} {a : Action C Q V} {t : Thread E R Q A}

def step (S : Semantics W E R C Q A V) (s : System W E R Q A) :
    Action C Q V → Option (System W E R Q A)
  | .spawn q => some { s with threads := s.threads ++ [Thread.start q (S.handler q)] }
  | .run i c =>
    match s.threads[i]? with
    | none => none
    | some t =>
      match t.prog with
      | .ret _ => none
      | .call e k =>
        match S.perform s.world e c with
        | none => none
        | some (r, w) => some ⟨w, s.threads.set i (t.resume e r (k r))⟩
  | .env v =>
    match S.environment s.world v with
    | none => none
    | some w => some { s with world := w }

/-- Runs a schedule, action by action. -/
def run (S : Semantics W E R C Q A V) (s : System W E R Q A) :
    List (Action C Q V) → Option (System W E R Q A)
  | [] => some s
  | a :: as =>
    match S.step s a with
    | none => none
    | some s' => S.run s' as

/-- The steps that meet a side condition on (state before, action, state after). -/
def Step (S : Semantics W E R C Q A V)
    (ok : System W E R Q A → Action C Q V → System W E R Q A → Prop)
    (s s' : System W E R Q A) : Prop :=
  ∃ a, S.step s a = some s' ∧ ok s a s'

/-- Runs all of whose steps meet the side condition. -/
def Reaches (S : Semantics W E R C Q A V)
    (ok : System W E R Q A → Action C Q V → System W E R Q A → Prop) :
    System W E R Q A → System W E R Q A → Prop :=
  Relation.ReflTransGen (S.Step ok)

/-- No side condition. -/
def anyStep : System W E R Q A → Action C Q V → System W E R Q A → Prop := fun _ _ _ => True

variable {S : Semantics W E R C Q A V}
  {ok ok' : System W E R Q A → Action C Q V → System W E R Q A → Prop}
  {s s' : System W E R Q A}

/-- What it takes for a thread to run. -/
theorem step_run {c : C} (h : S.step s (.run i c) = some s') :
    ∃ t e k r w, s.threads[i]? = some t ∧ t.prog = .call e k ∧
      S.perform s.world e c = some (r, w) ∧ s' = ⟨w, s.threads.set i (t.resume e r (k r))⟩ := by
  simp only [step] at h
  split at h
  · cases h
  · rename_i t ht
    split at h
    · cases h
    · rename_i e k hprog
      split at h
      · cases h
      · rename_i r w hperform
        cases h
        exact ⟨t, e, k, r, w, ht, hprog, hperform, rfl⟩

theorem step_env {v : V} (h : S.step s (.env v) = some s') :
    ∃ w, S.environment s.world v = some w ∧ s' = ⟨w, s.threads⟩ := by
  simp only [step] at h
  split at h
  · cases h
  · rename_i w henv
    cases h
    exact ⟨w, henv, rfl⟩

/-- A property kept by every step of a run holds at its end. -/
theorem Reaches.invariant {I : System W E R Q A → Prop} (hr : S.Reaches ok s s')
    (hstep : ∀ s a s', I s → S.step s a = some s' → ok s a s' → I s') (hI : I s) : I s' := by
  induction hr with
  | refl => exact hI
  | tail _ hlast ih =>
    obtain ⟨a, ha, hok⟩ := hlast
    exact hstep _ a _ ih ha hok

/-- The same along a run that goes on from a point of another. -/
theorem Reaches.invariant_from {I : System W E R Q A → Prop} {s₀ : System W E R Q A}
    (h : S.Reaches anyStep s₀ s) (hr : S.Reaches ok s s') (hI : I s)
    (hstep : ∀ s a s', S.Reaches anyStep s₀ s → I s → S.step s a = some s' → ok s a s' → I s') :
    I s' :=
  (hr.invariant (I := fun s => S.Reaches anyStep s₀ s ∧ I s) (fun s a s' hs ha hok =>
    ⟨hs.1.tail ⟨a, ha, trivial⟩, hstep s a s' hs.1 hs.2 ha hok⟩) ⟨h, hI⟩).2

theorem Reaches.mono (h : ∀ s a s', ok s a s' → ok' s a s') (hr : S.Reaches ok s s') :
    S.Reaches ok' s s' :=
  Relation.ReflTransGen.mono (fun _ _ ⟨a, ha, hok⟩ => ⟨a, ha, h _ _ _ hok⟩) _ _ hr

theorem Reaches.any (hr : S.Reaches ok s s') : S.Reaches anyStep s s' :=
  hr.mono fun _ _ _ _ => trivial

theorem Reaches.trans {t : System W E R Q A} (h : S.Reaches ok s s') (h' : S.Reaches ok s' t) :
    S.Reaches ok s t :=
  Relation.ReflTransGen.trans h h'

/-- What a step does to one thread: nothing, or it makes its next call. -/
theorem step_thread (h : S.step s a = some s') (hi : s.threads[i]? = some t) :
    s'.threads[i]? = some t ∨
      ∃ c e k r, a = .run i c ∧ t.prog = .call e k ∧ S.perform s.world e c = some (r, s'.world) ∧
        s'.threads[i]? = some (t.resume e r (k r)) := by
  have hlt := (List.getElem?_eq_some_iff.mp hi).1
  cases a with
  | spawn q =>
    cases h
    exact .inl ((List.getElem?_append_left hlt).trans hi)
  | run j c =>
    obtain ⟨u, e, k, r, w, hj, hprog, hperform, rfl⟩ := step_run h
    by_cases hij : j = i
    · subst hij
      cases hj.symm.trans hi
      exact .inr ⟨c, e, k, r, rfl, hprog, hperform, List.getElem?_set_self hlt⟩
    · exact .inl ((List.getElem?_set_ne hij).trans hi)
  | env v =>
    obtain ⟨w, henv, rfl⟩ := step_env h
    exact .inl hi

/-- A thread that has finished stays as it is. -/
theorem step_finished (h : S.step s a = some s') (ht : t ∈ s.threads) (hfinished : t.Finished) :
    t ∈ s'.threads := by
  obtain ⟨i, hi⟩ := List.mem_iff_getElem?.mp ht
  rcases step_thread h hi with hsame | ⟨c, e, k, r, -, hprog, -, -⟩
  · exact List.mem_of_getElem? hsame
  · exact absurd hfinished (Thread.not_finished hprog)

/-- Where a thread comes from: it is new, it was there before, or it has just made a call. -/
theorem thread_of_step (h : S.step s a = some s') (hi : s'.threads[i]? = some t) :
    (∃ q, a = .spawn q ∧ t = Thread.start q (S.handler q)) ∨ s.threads[i]? = some t ∨
      ∃ u c e k r, a = .run i c ∧ s.threads[i]? = some u ∧ u.prog = .call e k ∧
        S.perform s.world e c = some (r, s'.world) ∧ t = u.resume e r (k r) := by
  cases a with
  | spawn q =>
    cases h
    rcases getElem?_append_cases hi with hi | rfl
    · exact .inr (.inl hi)
    · exact .inl ⟨q, rfl, rfl⟩
  | run j c =>
    obtain ⟨u, e, k, r, w, hj, hprog, hperform, rfl⟩ := step_run h
    rcases getElem?_set_cases hj hi with ⟨rfl, rfl⟩ | ⟨-, hi⟩
    · exact .inr (.inr ⟨u, c, e, k, r, rfl, hj, hprog, hperform, rfl⟩)
    · exact .inr (.inl hi)
  | env v =>
    obtain ⟨w, henv, rfl⟩ := step_env h
    exact .inr (.inl hi)

/-- A call that a thread has made it made before, or makes in this step. -/
theorem did_of_step (h : S.step s a = some s') (hi : s'.threads[i]? = some t) {e : E} {r : R e}
    (hd : t.Did e r) :
    (∃ u, s.threads[i]? = some u ∧ u.Did e r) ∨
      ∃ u c k, a = .run i c ∧ s.threads[i]? = some u ∧ u.prog = .call e k ∧
        S.perform s.world e c = some (r, s'.world) := by
  rcases thread_of_step h hi with ⟨q, -, rfl⟩ | hold |
    ⟨u, c, e', k, r', rfl, hold, hprog, hperform, rfl⟩
  · cases hd
  · exact .inl ⟨t, hold, hd⟩
  · rcases Thread.did_resume.mp hd with hd | hcall
    · exact .inl ⟨u, hold, hd⟩
    · cases hcall
      exact .inr ⟨u, c, k, rfl, hold, hprog, hperform⟩

/-- A thread stays where it is and only makes more calls. -/
theorem Reaches.thread (hr : S.Reaches ok s s') (hi : s.threads[i]? = some t) :
    ∃ t', s'.threads[i]? = some t' ∧ t'.request = t.request ∧ t.trace <+: t'.trace := by
  refine hr.invariant (I := fun s => ∃ t', s.threads[i]? = some t' ∧ t'.request = t.request ∧
    t.trace <+: t'.trace) ?_ ⟨t, hi, rfl, List.prefix_rfl⟩
  rintro s a s' ⟨t', hi', hrequest, htrace⟩ hstep -
  rcases step_thread hstep hi' with hsame | ⟨c, e, k, r, -, -, -, hnext⟩
  · exact ⟨t', hsame, hrequest, htrace⟩
  · exact ⟨_, hnext, hrequest, htrace.trans (List.prefix_append _ _)⟩

/-- The step in which a thread of a run made one of its calls. -/
structure Moment (S : Semantics W E R C Q A V)
    (ok : System W E R Q A → Action C Q V → System W E R Q A → Prop) (s₀ s : System W E R Q A)
    (i : Nat) (t : Thread E R Q A) (before : List ((e : E) × R e)) (e : E) (r : R e) where
  prior : System W E R Q A
  later : System W E R Q A
  caller : Thread E R Q A
  rest : R e → Prog E R A
  choice : C
  reached : S.Reaches ok s₀ prior
  here : prior.threads[i]? = some caller
  request : caller.request = t.request
  trace : caller.trace = before
  calls : caller.prog = .call e rest
  performs : S.perform prior.world e choice = some (r, later.world)
  steps : S.step prior (.run i choice) = some later
  fair : ok prior (.run i choice) later
  leads : S.Reaches ok later s

/-- The moment of a call, later in the run. -/
def Moment.extend {s₀ s s' : System W E R Q A} {i : Nat} {t t' : Thread E R Q A}
    {before : List ((e : E) × R e)} {e : E} {r : R e} (m : S.Moment ok s₀ s i t before e r)
    (h : S.Step ok s s') (hrequest : t'.request = t.request) :
    S.Moment ok s₀ s' i t' before e r :=
  { m with
    request := m.request.trans hrequest.symm
    leads := m.leads.tail h }

theorem Reaches.moment {w : W} (hr : S.Reaches ok ⟨w, []⟩ s) (hi : s.threads[i]? = some t)
    {before after : List ((e : E) × R e)} {e : E} {r : R e}
    (htrace : t.trace = before ++ ⟨e, r⟩ :: after) :
    Nonempty (S.Moment ok ⟨w, []⟩ s i t before e r) := by
  induction hr generalizing t after with
  | refl => cases hi
  | @tail s s' hr hlast ih =>
    obtain ⟨a, hstep, hok⟩ := id hlast
    -- Whatever the thread had done before the last step it did in the run before.
    have hold : ∀ (u : Thread E R Q A) after, s.threads[i]? = some u → u.request = t.request →
        u.trace = before ++ ⟨e, r⟩ :: after → Nonempty (S.Moment ok ⟨w, []⟩ s' i t before e r) := by
      intro u after hu hrequest htrace
      obtain ⟨m⟩ := ih hu htrace
      exact ⟨m.extend hlast hrequest.symm⟩
    rcases thread_of_step hstep hi with ⟨q, -, rfl⟩ | hsame |
      ⟨u, c, e', k, r', rfl, hu, hprog, hperform, rfl⟩
    · cases before <;> cases htrace
    · exact hold t after hsame rfl htrace
    · rcases List.eq_nil_or_concat after with rfl | ⟨more, last, rfl⟩
      · obtain ⟨rfl, hcall⟩ := List.append_inj' htrace rfl
        cases hcall
        exact ⟨⟨s, _, u, k, c, hr, hu, rfl, rfl, hprog, hperform, hstep, hok, .refl⟩⟩
      · have hsplit : before ++ ⟨e, r⟩ :: more.concat last =
            (before ++ ⟨e, r⟩ :: more) ++ [last] := by
          simp
        exact hold u more hu rfl (List.append_inj' (htrace.trans hsplit) rfl).1

/-- Runs a schedule whose every step passes the check. -/
def runChecked (S : Semantics W E R C Q A V)
    (check : System W E R Q A → Action C Q V → System W E R Q A → Bool) (s : System W E R Q A) :
    List (Action C Q V) → Option (System W E R Q A)
  | [] => some s
  | a :: as =>
    match S.step s a with
    | none => none
    | some s' => if check s a s' then S.runChecked check s' as else none

/-- A schedule that runs is a run. -/
theorem reaches_of_runChecked {check : System W E R Q A → Action C Q V → System W E R Q A → Bool}
    (hcheck : ∀ s a s', check s a s' = true → ok s a s') {as : List (Action C Q V)}
    (h : S.runChecked check s as = some s') : S.Reaches ok s s' := by
  induction as generalizing s with
  | nil =>
    cases h
    exact Relation.ReflTransGen.refl
  | cons a as ih =>
    simp only [runChecked] at h
    split at h
    · cases h
    · rename_i mid hmid
      split at h
      · rename_i hc
        exact Relation.ReflTransGen.head ⟨a, hmid, hcheck _ _ _ hc⟩ (ih h)
      · cases h

theorem reaches_of_run {as : List (Action C Q V)} (h : S.run s as = some s') :
    S.Reaches anyStep s s' := by
  induction as generalizing s with
  | nil =>
    cases h
    exact Relation.ReflTransGen.refl
  | cons a as ih =>
    simp only [run] at h
    split at h
    · cases h
    · rename_i mid hmid
      exact Relation.ReflTransGen.head ⟨a, hmid, trivial⟩ (ih h)

end Semantics

/-! ## Ledgers -/

/-- A protocol, the ledger a request starts with, what its reply promises, and the proof that
every handler follows the protocol against every world. -/
structure Discipline {W E : Type} {R : E → Type} {C Q A V : Type} (S : Semantics W E R C Q A V)
    (L : Type) where
  protocol : Protocol E R L
  start : Q → L
  accept : A → L → Prop
  handler_follows : ∀ q, Prog.wp protocol (S.handler q) (start q) accept
  perform_possible : ∀ {w e c r w'}, S.perform w e c = some (r, w') → protocol.possible e r

namespace Discipline

variable {W E : Type} {R : E → Type} {C Q A V L : Type} {S : Semantics W E R C Q A V}
variable {t : Thread E R Q A} {e : E} {w : W} {I : W → List L → Prop} {Φ : L → Prop}

/-- A request and its answered calls, summarised. -/
def summary (D : Discipline S L) (q : Q) (trace : List ((e : E) × R e)) : L :=
  trace.foldl (fun l ev => D.protocol.next l ev.1 ev.2) (D.start q)

/-- The ledger of a thread. -/
def ledger (D : Discipline S L) (t : Thread E R Q A) : L := D.summary t.request t.trace

def ledgers (D : Discipline S L) (s : System W E R Q A) : List L := s.threads.map D.ledger

def Follows (D : Discipline S L) (s : System W E R Q A) : Prop :=
  ∀ t ∈ s.threads, Prog.wp D.protocol t.prog (D.ledger t) D.accept

/-- Everything a step can do to the world and the ledgers. -/
inductive LedgerStep (D : Discipline S L) (w : W) (ls : List L) : W → List L → Prop
  | spawn (q : Q) : LedgerStep D w ls w (ls ++ [D.start q])
  | run (i : Nat) (l : L) (e : E) (c : C) (r : R e) (w' : W) (hi : ls[i]? = some l)
      (hallowed : D.protocol.allowed l e) (hpossible : D.protocol.possible e r)
      (hperform : S.perform w e c = some (r, w')) :
      LedgerStep D w ls w' (ls.set i (D.protocol.next l e r))
  | env (v : V) (w' : W) (henv : S.environment w v = some w') : LedgerStep D w ls w' ls

variable {D : Discipline S L} {s s' : System W E R Q A} {a : Action C Q V}

theorem ledger_start (D : Discipline S L) (q : Q) (p : Prog E R A) :
    D.ledger (Thread.start q p) = D.start q := rfl

theorem ledger_resume (D : Discipline S L) (t : Thread E R Q A) (e : E) (r : R e)
    (p : Prog E R A) : D.ledger (t.resume e r p) = D.protocol.next (D.ledger t) e r := by
  simp [ledger, summary, Thread.resume]

theorem mem_ledgers (h : t ∈ s.threads) : D.ledger t ∈ D.ledgers s :=
  List.mem_map_of_mem h

theorem ledgers_getElem? {i : Nat} (h : s.threads[i]? = some t) :
    (D.ledgers s)[i]? = some (D.ledger t) := by
  simp [ledgers, h]

/-- A thread that follows its protocol makes only calls that are allowed. -/
theorem allowed_of_call (hF : D.Follows s) {k : R e → Prog E R A} (ht : t ∈ s.threads)
    (hprog : t.prog = .call e k) : D.protocol.allowed (D.ledger t) e := by
  have hwp := hF t ht
  rw [hprog, Prog.wp_call] at hwp
  exact hwp.1

/-- The step lemma of the library: a step from a state in which every thread follows its
protocol is a ledger step, and leads to such a state again. -/
theorem ledgerStep (hF : D.Follows s) (h : S.step s a = some s') :
    LedgerStep D s.world (D.ledgers s) s'.world (D.ledgers s') ∧ D.Follows s' := by
  cases a with
  | spawn q =>
    cases h
    refine ⟨?_, ?_⟩
    · simp only [ledgers, List.map_append, List.map_cons, List.map_nil, ledger_start]
      exact .spawn q
    · exact forall_mem_append_one hF (D.handler_follows q)
  | run i c =>
    obtain ⟨t, e, k, r, w, ht, hprog, hperform, rfl⟩ := Semantics.step_run h
    have hwp := hF t (List.mem_of_getElem? ht)
    rw [hprog, Prog.wp_call] at hwp
    have hpossible := D.perform_possible hperform
    refine ⟨?_, ?_⟩
    · simp only [ledgers, List.map_set, ledger_resume]
      exact .run i _ e c r w (ledgers_getElem? ht) hwp.1 hpossible hperform
    · refine forall_mem_set hF ?_
      rw [ledger_resume]
      exact hwp.2 r hpossible
  | env v =>
    obtain ⟨w, henv, rfl⟩ := Semantics.step_env h
    exact ⟨.env v w henv, hF⟩

theorem follows_of_reaches {ok} (hr : S.Reaches ok s s') (hF : D.Follows s) : D.Follows s' :=
  hr.invariant (fun _ _ _ hF h _ => (ledgerStep hF h).2) hF

/-- Nothing in flight: the state a server starts from, whatever the world holds. -/
theorem follows_of_idle : D.Follows ⟨w, []⟩ := by
  intro t ht
  cases ht

theorem follows_run {ok} (hr : S.Reaches ok ⟨w, []⟩ s) : D.Follows s :=
  follows_of_reaches hr follows_of_idle

/-- What holds at the start of a run and is kept by every ledger step of the run holds at its end.
The step is taken in a state of the run, so what holds throughout the run may be used there. -/
theorem invariant_along {ok} (hr : S.Reaches ok s s') (hF : D.Follows s)
    (hI : I s.world (D.ledgers s))
    (hstep : ∀ t a t', S.Reaches ok s t → I t.world (D.ledgers t) → ok t a t' →
      LedgerStep D t.world (D.ledgers t) t'.world (D.ledgers t') → I t'.world (D.ledgers t')) :
    I s'.world (D.ledgers s') := by
  have h : D.Follows s' ∧ I s'.world (D.ledgers s') := by
    induction hr with
    | refl => exact ⟨hF, hI⟩
    | tail hr hlast ih =>
      obtain ⟨a, h, hok⟩ := hlast
      obtain ⟨hl, hF'⟩ := ledgerStep ih.1 h
      exact ⟨hF', hstep _ a _ hr ih.2 hok hl⟩
  exact h.2

/-- The rule for a step that looks at no more than its side condition. -/
theorem invariant_of {ok} (hr : S.Reaches ok s s') (hF : D.Follows s) (hI : I s.world (D.ledgers s))
    (hstep : ∀ s a s', I s.world (D.ledgers s) → ok s a s' →
      LedgerStep D s.world (D.ledgers s) s'.world (D.ledgers s') → I s'.world (D.ledgers s')) :
    I s'.world (D.ledgers s') :=
  invariant_along hr hF hI fun s a s' _ => hstep s a s'

/-- The same rule for a side condition that looks at the action: what the run's next action does
is at hand in each case. -/
theorem invariant_by {ok} (hr : S.Reaches ok s s') (hF : D.Follows s) (hI : I s.world (D.ledgers s))
    (hspawn : ∀ s q s', ok s (.spawn q) s' → I s.world (D.ledgers s) →
      I s.world (D.ledgers s ++ [D.start q]))
    (hrun : ∀ s i c s' t e r w, ok s (.run i c) s' → I s.world (D.ledgers s) →
      s.threads[i]? = some t → t.call? = some e → D.protocol.allowed (D.ledger t) e →
      S.perform s.world e c = some (r, w) →
      I w ((D.ledgers s).set i (D.protocol.next (D.ledger t) e r)))
    (henv : ∀ s v s' w, ok s (.env v) s' → I s.world (D.ledgers s) →
      S.environment s.world v = some w → I w (D.ledgers s)) : I s'.world (D.ledgers s') := by
  have h : D.Follows s' ∧ I s'.world (D.ledgers s') := by
    refine hr.invariant (I := fun s => D.Follows s ∧ I s.world (D.ledgers s)) ?_ ⟨hF, hI⟩
    rintro s a s' ⟨hF, hI⟩ h hok
    refine ⟨(ledgerStep hF h).2, ?_⟩
    cases a with
    | spawn q =>
      cases h
      simp only [ledgers, List.map_append, List.map_cons, List.map_nil, ledger_start]
      exact hspawn s q _ hok hI
    | run i c =>
      obtain ⟨t, e, k, r, w, ht, hprog, hperform, rfl⟩ := Semantics.step_run h
      simp only [ledgers, List.map_set, ledger_resume]
      refine hrun s i c _ t e r w hok hI ht ?_ ?_ hperform
      · simp only [Thread.call?, hprog]
      · exact allowed_of_call hF (List.mem_of_getElem? ht) hprog
    | env v =>
      obtain ⟨w, hw, rfl⟩ := Semantics.step_env h
      exact henv s v _ w hok hI hw
  exact h.2

/-- What holds of the world and no requests, and is kept by every ledger step, holds throughout
every run. -/
theorem invariant {ok} (hr : S.Reaches ok ⟨w, []⟩ s) (h0 : I w [])
    (hstep : ∀ w ls w' ls', I w ls → LedgerStep D w ls w' ls' → I w' ls') :
    I s.world (D.ledgers s) :=
  invariant_of hr follows_of_idle h0 fun _ _ _ hI _ hl => hstep _ _ _ _ hI hl

/-- What a finished thread's reply promises. -/
theorem accepts {a : A} (hF : D.Follows s) (ht : t ∈ s.threads) (ha : t.reply? = some a) :
    D.accept a (D.ledger t) := by
  have hwp := hF t ht
  rw [Prog.result?_eq_some.mp ha] at hwp
  exact hwp

/-- What no answered call changes stays what it was at the start. -/
theorem ledger_eq_start {β : Type} (f : L → β) (hnext : ∀ l e r, f (D.protocol.next l e r) = f l)
    (t : Thread E R Q A) : f (D.ledger t) = f (D.start t.request) :=
  List.foldlRecOn (motive := fun l => f l = f (D.start t.request)) t.trace _ rfl
    fun l hl ev _ => (hnext l ev.1 ev.2).trans hl

/-- Each call of a thread was allowed by the ledger of the calls before it. -/
theorem allowed_of_trace {ok} {r : R e} {before after : List ((e : E) × R e)}
    (hr : S.Reaches ok ⟨w, []⟩ s) (ht : t ∈ s.threads)
    (htrace : t.trace = before ++ ⟨e, r⟩ :: after) :
    D.protocol.allowed (D.summary t.request before) e ∧ D.protocol.possible e r := by
  obtain ⟨i, hi⟩ := List.mem_iff_getElem?.mp ht
  obtain ⟨m⟩ := hr.moment hi htrace
  have hallowed := D.allowed_of_call (follows_run m.reached)
    (List.mem_of_getElem? m.here) m.calls
  rw [ledger, m.request, m.trace] at hallowed
  exact ⟨hallowed, D.perform_possible m.performs⟩

/-- What a ledger says after some of its calls, and every call keeps, it says at the end. -/
theorem ledger_keeps {ok} {after : List ((e : E) × R e)} (hr : S.Reaches ok ⟨w, []⟩ s)
    (ht : t ∈ s.threads)
    (hkeep : ∀ l e r, Φ l → D.protocol.allowed l e → D.protocol.possible e r →
      Φ (D.protocol.next l e r)) (before : List ((e : E) × R e))
    (htrace : t.trace = before ++ after) (h : Φ (D.summary t.request before)) : Φ (D.ledger t) := by
  induction after generalizing before with
  | nil =>
    rw [ledger, htrace, List.append_nil]
    exact h
  | cons ev after ih =>
    obtain ⟨hallowed, hpossible⟩ := D.allowed_of_trace hr ht htrace
    refine ih (before ++ [ev]) (by rw [htrace, List.append_assoc]; rfl) ?_
    rw [summary, List.foldl_append]
    exact hkeep _ ev.1 ev.2 h hallowed hpossible

/-- What every request starts with and every answered call keeps is true of every ledger. -/
theorem ledger_invariant {ok} (hr : S.Reaches ok ⟨w, []⟩ s) (hstart : ∀ q, Φ (D.start q))
    (hnext : ∀ l e r, Φ l → D.protocol.allowed l e → D.protocol.possible e r →
      Φ (D.protocol.next l e r)) : ∀ l ∈ D.ledgers s, Φ l := by
  intro l hl
  obtain ⟨t, ht, rfl⟩ := List.mem_map.mp hl
  exact ledger_keeps hr ht hnext [] rfl (hstart _)

/-- What a call establishes and every later call keeps is true of a thread that made the call.
The call was made in a state of the run, so what holds throughout the run may be used there. -/
theorem did {ok} {r : R e} (hr : S.Reaches ok ⟨w, []⟩ s) (ht : t ∈ s.threads) (hd : t.Did e r)
    (hnow : ∀ s l, S.Reaches ok ⟨w, []⟩ s → l ∈ D.ledgers s → D.protocol.allowed l e →
      D.protocol.possible e r → Φ (D.protocol.next l e r))
    (hkeep : ∀ l e r, Φ l → D.protocol.allowed l e → D.protocol.possible e r →
      Φ (D.protocol.next l e r)) : Φ (D.ledger t) := by
  obtain ⟨before, after, htrace⟩ := List.append_of_mem hd
  obtain ⟨i, hi⟩ := List.mem_iff_getElem?.mp ht
  obtain ⟨m⟩ := hr.moment hi htrace
  obtain ⟨hallowed, hpossible⟩ := D.allowed_of_trace hr ht htrace
  have hhere := D.mem_ledgers (List.mem_of_getElem? m.here)
  rw [ledger, m.request, m.trace] at hhere
  refine ledger_keeps hr ht hkeep (before ++ [⟨e, r⟩])
    (by rw [htrace, List.append_assoc]; rfl) ?_
  rw [summary, List.foldl_append]
  exact hnow m.prior _ m.reached hhere hallowed hpossible

/-- What a ledger does not start with says what follows from each call that can add it. -/
theorem of_ledger {Ψ : Prop} (hstart : ¬ Φ (D.start t.request))
    (hnext : ∀ l e r, Φ (D.protocol.next l e r) → Φ l ∨ (t.Did e r → Ψ)) (h : Φ (D.ledger t)) :
    Ψ := by
  have key : ∀ trace ⊆ t.trace, ∀ l : L,
      Φ (trace.foldl (fun l ev => D.protocol.next l ev.1 ev.2) l) → Φ l ∨ Ψ := by
    intro trace
    induction trace with
    | nil => exact fun _ l h => .inl h
    | cons ev trace ih =>
      intro hsub l h
      rcases ih (fun _ hev => hsub (List.mem_cons_of_mem _ hev)) _ h with h | h
      · exact (hnext l ev.1 ev.2 h).imp_right fun hΨ => hΨ (hsub List.mem_cons_self)
      · exact .inr h
  exact (key t.trace (List.Subset.refl _) _ h).resolve_left hstart

end Discipline

/-! ## At most one thread -/

/-- No two threads have ledgers with this property. -/
def OnlyOne {L : Type} (Q : L → Prop) (ls : List L) : Prop :=
  ∀ ⦃i j : Nat⦄ ⦃l m : L⦄, ls[i]? = some l → ls[j]? = some m → Q l → Q m → i = j

namespace OnlyOne

variable {L : Type} {Q : L → Prop} {ls : List L} {l l' : L}

theorem nil : OnlyOne Q [] := fun _ _ _ _ h => nomatch h

theorem append (h : OnlyOne Q ls) (hl : ¬ Q l) : OnlyOne Q (ls ++ [l]) := by
  have hold : ∀ {j : Nat} {m : L}, (ls ++ [l])[j]? = some m → Q m → ls[j]? = some m :=
    fun hj hm => (getElem?_append_cases hj).resolve_right fun heq => hl (heq ▸ hm)
  exact fun i j m n hi hj hm hn => h (hold hi hm) (hold hj hn) hm hn

/-- A thread gains the property when no thread has it. -/
theorem set (h : OnlyOne Q ls) {i : Nat} (hi : ls[i]? = some l)
    (hnew : Q l' → Q l ∨ ∀ m ∈ ls, ¬ Q m) : OnlyOne Q (ls.set i l') := by
  -- Nobody else has it when this thread comes to have it, or this thread had it before.
  have hother : ∀ {j : Nat} {m : L}, i ≠ j → ls[j]? = some m → Q m → ¬ Q l' := by
    intro j m hij hj hm hl'
    rcases hnew hl' with hl | hnone
    · exact hij (h hi hj hl hm)
    · exact hnone m (List.mem_of_getElem? hj) hm
  intro j k m n hj hk hm hn
  rcases getElem?_set_cases hi hj with ⟨rfl, rfl⟩ | ⟨hij, hj⟩ <;>
    rcases getElem?_set_cases hi hk with ⟨rfl, rfl⟩ | ⟨hik, hk⟩
  · rfl
  · exact absurd hm (hother hik hk hn)
  · exact absurd hn (hother hij hj hm)
  · exact h hj hk hm hn

end OnlyOne

/-! ## Sums over ledgers -/

/-- The sum of a weight over all ledgers. -/
def total {L : Type} (f : L → Nat) (ls : List L) : Nat := (ls.map f).sum

section Total
variable {L : Type} {f g : L → Nat} {ls : List L} {i : Nat} {l : L}

theorem total_append_one : total f (ls ++ [l]) = total f ls + f l := by
  simp [total]

/-- One ledger changes: the sum changes by the difference of its weights. -/
theorem total_set (h : ls[i]? = some l) (l' : L) :
    total f (ls.set i l') + f l = total f ls + f l' := by
  induction ls generalizing i with
  | nil => simp at h
  | cons m ls ih =>
    cases i with
    | zero =>
      simp only [List.getElem?_cons_zero, Option.some.injEq] at h
      subst h
      simp only [total, List.set_cons_zero, List.map_cons, List.sum_cons]
      omega
    | succ i =>
      have := ih (by simpa using h)
      simp only [total, List.set_cons_succ, List.map_cons, List.sum_cons] at this ⊢
      omega

/-- What one ledger gains is paid for outside, or the other way round. -/
theorem add_total_set_le {n n' : Nat} {l' : L} (h : ls[i]? = some l) (hle : n' + f l' ≤ n + f l) :
    n' + total f (ls.set i l') ≤ n + total f ls := by
  have := total_set (f := f) h l'
  omega

theorem total_eq_zero (h : ∀ l ∈ ls, f l = 0) : total f ls = 0 := by
  refine List.sum_eq_zero ?_
  rintro n hn
  obtain ⟨l, hl, rfl⟩ := List.mem_map.mp hn
  exact h l hl

theorem le_total_of_mem (h : l ∈ ls) : f l ≤ total f ls :=
  List.single_le_sum (by simp) _ (List.mem_map_of_mem h)

/-- A heavier weight, and heavier by something at one thread. -/
theorem total_lt_total (h : ∀ l ∈ ls, f l ≤ g l) (hl : l ∈ ls) (hlt : f l < g l) :
    total f ls < total g ls :=
  List.sum_lt_sum f g h ⟨l, hl, hlt⟩

/-- Two different threads each weighing something weigh it together. -/
theorem add_le_total {j : Nat} {m : L} (hij : i ≠ j) (hi : ls[i]? = some l)
    (hj : ls[j]? = some m) : f l + f m ≤ total f ls := by
  wlog hlt : i < j generalizing i j l m
  · have := this hij.symm hj hi (by omega)
    omega
  have hi' : (ls.take j)[i]? = some l := by rw [List.getElem?_take_of_lt hlt, hi]
  have hj' : (ls.drop j)[0]? = some m := by rw [List.getElem?_drop, Nat.add_zero, hj]
  have hl := le_total_of_mem (f := f) (List.mem_of_getElem? hi')
  have hm := le_total_of_mem (f := f) (List.mem_of_getElem? hj')
  have hsplit : total f ls = total f (ls.take j) + total f (ls.drop j) := by
    simp only [total, ← List.sum_append, ← List.map_append, List.take_append_drop]
  omega

/-- Elements that each weigh something are at most as many as their total weight. -/
theorem countP_le_total {T : Type} {q : T → Bool} {h : T → L} {ts : List T}
    (hq : ∀ t, q t = true → 1 ≤ f (h t)) : ts.countP q ≤ total f (ts.map h) := by
  induction ts with
  | nil => simp
  | cons t ts ih =>
    simp only [List.countP_cons, List.map_cons, total, List.sum_cons] at ih ⊢
    cases ht : q t with
    | false => simp only [Bool.false_eq_true, if_false]; omega
    | true =>
      have := hq t ht
      simp only [if_true]
      omega

/-- Two threads that each weigh something within a budget of one are one thread. -/
theorem eq_of_total_le_one {j : Nat} {m : L} (htotal : total f ls ≤ 1) (hi : ls[i]? = some l)
    (hj : ls[j]? = some m) (hl : 1 ≤ f l) (hm : 1 ≤ f m) : i = j := by
  by_contra hij
  have := add_le_total (f := f) hij hi hj
  omega

end Total

end OauthAs
