-- SUMMARY: Concurrent limiter calls: a call reads the clock before it takes the lock, and what that does to a window's budget.
import OauthAs.Lib.Pool
import OauthAs.Limiter.Window

/-!
# Calls at the same time

A call computes its window index from the clock and takes the lock only then, so calls can reach
the lock in another order than they read the clock. The lock itself is held for the whole of
`checkSection` or `recordSection`: a call is two steps, and any other call may run between them.

Rolling compares window indexes for equality only. A late call of an old window therefore clears
the counters of the current one, and the next call clears them again.
-/

namespace OauthAs

namespace Limiter

inductive Effect where
  | now
  | check (attempt : Attempt) (index : Nat)
  | record (attempt : Attempt) (index : Nat)
deriving DecidableEq, Repr

abbrev Effect.Result : Effect → Type
  | .now => Instant
  | .check _ _ => Verdict
  | .record _ _ => Unit

inductive Request where
  | check (attempt : Attempt)
  | record (attempt : Attempt) (outcome : AttemptOutcome)
deriving DecidableEq, Repr

/-- A check answers with its decision, a report with nothing. -/
abbrev Reply := Option RateLimitDecision

structure World where
  clock : Instant
  window : Window

namespace FixedWindowRateLimiter

variable (limiter : FixedWindowRateLimiter)

def check (attempt : Attempt) : Prog Effect Effect.Result Reply := do
  let now ← Prog.perform .now
  let v : Verdict ← Prog.perform (Effect.check attempt (limiter.windowIndex now))
  return some v.decision

def record (attempt : Attempt) (outcome : AttemptOutcome) : Prog Effect Effect.Result Reply :=
  if outcome = .succeeded then pure none
  else do
    let now ← Prog.perform .now
    let _ ← Prog.perform (.record attempt (limiter.windowIndex now))
    return none

def handler : Request → Prog Effect Effect.Result Reply
  | .check attempt => limiter.check attempt
  | .record attempt outcome => limiter.record attempt outcome

def perform (w : World) : (e : Effect) → Option (e.Result × World)
  | .now => some (w.clock, w)
  | .check attempt index =>
    let (v, window) := limiter.checkSection attempt index w.window
    some (v, { w with window := window })
  | .record attempt index =>
    some ((), { w with window := limiter.recordSection attempt index w.window })

/-- Calls run against one limiter while its clock moves forward. -/
def semantics : Semantics World Effect Effect.Result Unit Request Reply Duration where
  handler := limiter.handler
  perform w e _ := limiter.perform w e
  environment w d := some { w with clock := w.clock + d }

end FixedWindowRateLimiter

abbrev Contention := OauthAs.System World Effect Effect.Result Request Reply

/-- No calls yet. -/
def Contention.idle (clock : Instant) : Contention := ⟨⟨clock, .initial⟩, []⟩

/-! ## What a call got -/

/-- The critical section a check went through: its attempt, its window and the verdict. -/
structure Served where
  attempt : Attempt
  index : Nat
  verdict : Verdict
deriving DecidableEq, Repr

/-- A call goes through at most one check, and answers what that check found. -/
def protocol : Protocol Effect Effect.Result (Option Served) where
  next l e r :=
    match e, r with
    | .check attempt index, v => some ⟨attempt, index, v⟩
    | _, _ => l
  allowed l e :=
    match e with
    | .check _ _ => l = none
    | _ => True
  possible _ _ := True

def discipline (limiter : FixedWindowRateLimiter) :
    Discipline limiter.semantics (Option Served) where
  protocol := protocol
  start _ := none
  accept reply l := reply = l.map fun s => s.verdict.decision
  handler_follows q := by
    cases q with
    | check attempt =>
      exact ⟨trivial, fun now _ => ⟨rfl, fun v _ => rfl⟩⟩
    | record attempt outcome =>
      simp only [FixedWindowRateLimiter.semantics, FixedWindowRateLimiter.handler,
        FixedWindowRateLimiter.record]
      split
      · exact rfl
      · exact ⟨trivial, fun now _ => ⟨trivial, fun _ _ => rfl⟩⟩
  perform_possible _ := trivial

/-- An allowed check of an attempt, in a window, paid by its own budget. -/
def granted (attempt : Attempt) (index : Nat) (l : Option Served) : Bool :=
  decide (l = some ⟨attempt, index, ⟨.allow, true⟩⟩)

/-! ## The budget of a window -/

/-- The grants of every window fit its budget: those of the current window are on its counter, a
past window had its capacity, and a future window has none. -/
structure Fits (config : RateLimitConfig) (w : Window) (ls : List (Option Served)) : Prop where
  within : ∀ attempt, (w.budget attempt).attempts ≤ config.capacityOf attempt
  current : ∀ attempt,
    total (fun l => (granted attempt w.index l).toNat) ls ≤ (w.budget attempt).attempts
  past : ∀ attempt index, index < w.index →
    total (fun l => (granted attempt index l).toNat) ls ≤ config.capacityOf attempt
  future : ∀ attempt index, w.index < index →
    total (fun l => (granted attempt index l).toNat) ls = 0

namespace Fits

variable {config : RateLimitConfig} {w w' : Window} {ls : List (Option Served)}

theorem le (h : Fits config w ls) (attempt : Attempt) (index : Nat) :
    total (fun l => (granted attempt index l).toNat) ls ≤ config.capacityOf attempt := by
  rcases Nat.lt_trichotomy index w.index with hlt | rfl | hgt
  · exact h.past attempt index hlt
  · exact Nat.le_trans (h.current attempt) (h.within attempt)
  · rw [h.future attempt index hgt]
    exact Nat.zero_le _

theorem initial : Fits config .initial [] where
  within attempt := by cases attempt <;> exact Nat.zero_le _
  current _ := Nat.zero_le _
  past _ _ _ := Nat.zero_le _
  future _ _ _ := rfl

/-- A window that is not rolled back keeps fitting. -/
theorem rollTo (h : Fits config w ls) {index : Nat} (hle : w.index ≤ index) :
    Fits config (w.rollTo index) ls := by
  rcases Nat.eq_or_lt_of_le hle with heq | hlt
  · rwa [w.rollTo_same heq]
  · refine ⟨?_, ?_, ?_, ?_⟩
    · intro attempt
      rw [w.budget_rollTo_of_ne attempt (Nat.ne_of_lt hlt)]
      exact Nat.zero_le _
    · intro attempt
      rw [w.rollTo_index, h.future attempt index hlt]
      exact Nat.zero_le _
    · exact fun attempt i _ => h.le attempt i
    · intro attempt i hi
      rw [w.rollTo_index] at hi
      exact h.future attempt i (Nat.lt_trans hlt hi)

/-- Charging more than is granted keeps fitting. -/
theorem grow (h : Fits config w ls) (hindex : w'.index = w.index)
    (hwithin : ∀ attempt, (w'.budget attempt).attempts ≤ config.capacityOf attempt)
    (hgrow : ∀ attempt, (w.budget attempt).attempts ≤ (w'.budget attempt).attempts) :
    Fits config w' ls where
  within := hwithin
  current attempt := by
    rw [hindex]
    exact Nat.le_trans (h.current attempt) (hgrow attempt)
  past attempt index hlt := h.past attempt index (hindex ▸ hlt)
  future attempt index hlt := h.future attempt index (hindex ▸ hlt)

theorem record (h : Fits config w ls) (attempt : Attempt) :
    Fits config (recordIn config attempt w) ls := by
  have hpenalised : ∀ {b : ClientBudget}, b.attempts ≤ config.capacityOf attempt →
      b.attempts ≤ (penaliseOn config attempt b).attempts ∧
        (penaliseOn config attempt b).attempts ≤ config.capacityOf attempt := by
    intro b hb
    cases attempt with
    | deviceUserCodeEntry | clientRegistration => exact ⟨le_penalise hb _, penalise_le _ _ _⟩
    | clientAuthentication clientId | authorizationRequest clientId => exact ⟨Nat.le_refl _, hb⟩
  refine h.grow (w.recordIn_index attempt) ?_ ?_
  · intro other
    rw [Window.recordIn_budget]
    split
    · rename_i hown
      rw [hown.1]
      exact (hpenalised (h.within attempt)).2
    · exact h.within other
  · intro other
    rw [Window.recordIn_budget]
    split
    · rename_i hown
      rw [hown.1]
      exact (hpenalised (h.within attempt)).1
    · exact Nat.le_refl _

/-- A check raises a counter by what it grants, and only within the capacity. -/
theorem attempts_checkIn (h : Fits config w ls) (attempt other : Attempt) :
    ((checkIn config attempt w).2.budget other).attempts =
        (w.budget other).attempts +
          (granted other w.index (some ⟨attempt, w.index, (checkIn config attempt w).1⟩)).toNat ∧
      ((checkIn config attempt w).2.budget other).attempts ≤ config.capacityOf other := by
  have hown : (checkIn config attempt w).1.own = _ := w.checkIn_own attempt
  rw [Window.checkIn_budget]
  split
  · rename_i hother
    obtain ⟨rfl, howns⟩ := hother
    have hdecision := Window.checkIn_decision howns
    rw [howns] at hown
    cases hd : (chargeAttempt (w.budget other) (config.capacityOf other)).1 with
    | allow =>
      have hv : (checkIn config other w).1 = ⟨.allow, true⟩ := by rw [← hd, ← hdecision, ← hown]
      obtain ⟨hcharged, hle⟩ := chargeAttempt_allow hd
      rw [hcharged, hv]
      exact ⟨by simp [granted], by simp only; omega⟩
    | deny =>
      have hv : (checkIn config other w).1.decision = .deny := hdecision.trans hd
      rw [(chargeAttempt_deny hd).1]
      refine ⟨?_, h.within other⟩
      simp only [granted, Option.some.injEq, Served.mk.injEq, true_and]
      rw [decide_eq_false (fun heq => by rw [heq] at hv; cases hv)]
      rfl
  · rename_i hother
    refine ⟨?_, h.within other⟩
    have hne : ¬ some (Served.mk attempt w.index (checkIn config attempt w).1) =
        some ⟨other, w.index, ⟨.allow, true⟩⟩ := by
      intro heq
      obtain ⟨rfl, -, hv⟩ := Served.mk.inj (Option.some.inj heq)
      rw [hv] at hown
      exact hother ⟨rfl, hown.symm⟩
    rw [granted, decide_eq_false hne]
    rfl

theorem check (h : Fits config w ls) (attempt : Attempt) {i : Nat} (hi : ls[i]? = some none) :
    Fits config (checkIn config attempt w).2
      (ls.set i (some ⟨attempt, w.index, (checkIn config attempt w).1⟩)) := by
  have htotal : ∀ other index,
      total (fun l => (granted other index l).toNat)
          (ls.set i (some ⟨attempt, w.index, (checkIn config attempt w).1⟩)) =
        total (fun l => (granted other index l).toNat) ls +
          (granted other index (some ⟨attempt, w.index, (checkIn config attempt w).1⟩)).toNat :=
    fun other index => total_set (f := fun l => (granted other index l).toNat) hi _
  -- Only the grants of the current window change.
  have helse : ∀ other index, index ≠ w.index →
      granted other index (some ⟨attempt, w.index, (checkIn config attempt w).1⟩) = false := by
    intro other index hne
    exact decide_eq_false fun heq => hne (Served.mk.inj (Option.some.inj heq)).2.1.symm
  refine ⟨fun other => (h.attempts_checkIn attempt other).2, ?_, ?_, ?_⟩
  · intro other
    rw [w.checkIn_index, htotal, (h.attempts_checkIn attempt other).1]
    exact Nat.add_le_add_right (h.current other) _
  · intro other index hlt
    rw [w.checkIn_index] at hlt
    rw [htotal, helse other index (Nat.ne_of_lt hlt)]
    exact h.past other index hlt
  · intro other index hlt
    rw [w.checkIn_index] at hlt
    rw [htotal, helse other index (Nat.ne_of_gt hlt)]
    exact h.future other index hlt

end Fits

/-- Calls take the lock in the order of their windows: no step rolls the window back. -/
def InOrder (s : Contention) (_ : Action Unit Request Duration) (s' : Contention) : Prop :=
  s.world.window.index ≤ s'.world.window.index

instance (s : Contention) (a : Action Unit Request Duration) (s' : Contention) :
    Decidable (InOrder s a s') :=
  inferInstanceAs (Decidable (_ ≤ _))

/-- One step of a run that never rolls back. -/
theorem fits_step {limiter : FixedWindowRateLimiter} {w w' : World} {ls ls' : List (Option Served)}
    (h : Fits limiter.config w.window ls) (horder : w.window.index ≤ w'.window.index)
    (hstep : (discipline limiter).LedgerStep w ls w' ls') :
    Fits limiter.config w'.window ls' := by
  cases hstep with
  | spawn q =>
    have htotal : ∀ attempt index, total (fun l => (granted attempt index l).toNat) (ls ++ [none]) =
        total (fun l => (granted attempt index l).toNat) ls := fun _ _ => total_append_one
    refine ⟨h.within, ?_, ?_, ?_⟩
    · intro attempt
      exact htotal attempt _ ▸ h.current attempt
    · intro attempt index hlt
      exact htotal attempt _ ▸ h.past attempt index hlt
    · intro attempt index hlt
      exact htotal attempt _ ▸ h.future attempt index hlt
  | run i l e c r w' hi hallowed hpossible hperform =>
    cases e with
    | now =>
      cases hperform
      have hsame : ls.set i ((discipline limiter).protocol.next l .now w.clock) = ls := set_self hi
      rwa [hsame]
    | check attempt index =>
      cases hperform
      obtain rfl : l = none := hallowed
      have hle : w.window.index ≤ index :=
        le_of_le_of_eq horder (limiter.checkSection_index attempt index w.window)
      have hchecked := (h.rollTo hle).check attempt hi
      rw [Window.rollTo_index] at hchecked
      exact hchecked
    | record attempt index =>
      cases hperform
      have hle : w.window.index ≤ index :=
        le_of_le_of_eq horder (limiter.recordSection_index attempt index w.window)
      have hsame : ls.set i ((discipline limiter).protocol.next l (.record attempt index) ()) = ls :=
        set_self hi
      rw [hsame]
      exact (h.rollTo hle).record attempt
  | env v w' henv =>
    cases henv
    exact h

/-- Whether a trace step is a grant. -/
def grants (attempt : Attempt) (index : Nat) : (e : Effect) × e.Result → Bool
  | ⟨.check a i, v⟩ => decide (a = attempt) && decide (i = index) && decide (v = ⟨.allow, true⟩)
  | _ => false

/-- How many calls of a window were granted an attempt out of its own budget. -/
def Contention.granted (s : Contention) (attempt : Attempt) (index : Nat) : Nat :=
  s.threads.countP fun t => t.trace.any (grants attempt index)

/-- A grant stays on the ledger of its call. -/
theorem granted_of_trace {limiter : FixedWindowRateLimiter} {ok} {clock : Instant} {s : Contention}
    (h : limiter.semantics.Reaches ok (Contention.idle clock) s) {attempt : Attempt} {index : Nat}
    {t : Thread Effect Effect.Result Request Reply} (ht : t ∈ s.threads)
    (hg : t.trace.any (grants attempt index) = true) :
    Limiter.granted attempt index ((discipline limiter).ledger t) = true := by
  obtain ⟨⟨e, r⟩, hmem, hgrants⟩ := List.any_eq_true.mp hg
  have he : (⟨e, r⟩ : (e : Effect) × e.Result) = ⟨.check attempt index, ⟨.allow, true⟩⟩ := by
    cases e with
    | now => cases hgrants
    | record a i => cases hgrants
    | check a i =>
      simp only [grants, Bool.and_eq_true, decide_eq_true_eq] at hgrants
      obtain ⟨⟨rfl, rfl⟩, rfl⟩ := hgrants
      rfl
  rw [he] at hmem
  refine Discipline.did (Φ := fun l => Limiter.granted attempt index l = true) h ht hmem ?_ ?_
  · intro _ _ _ _ _ _
    exact decide_eq_true rfl
  · intro l e r hl hallowed _
    cases e with
    | now => exact hl
    | record a i => exact hl
    | check a i =>
      rw [show l = none from hallowed] at hl
      cases hl

/-- A window's budget is spent once. In every run in which no call takes the lock with an older
window than the one it finds, every window grants an attempt no more than its capacity. -/
theorem window_grants_within (limiter : FixedWindowRateLimiter) {clock : Instant} {s : Contention}
    (h : limiter.semantics.Reaches InOrder (Contention.idle clock) s) (attempt : Attempt) (index : Nat) :
    s.granted attempt index ≤ limiter.config.capacityOf attempt := by
  have hfits : Fits limiter.config s.world.window ((discipline limiter).ledgers s) :=
    Discipline.invariant_of (I := fun w ls => Fits limiter.config w.window ls) h
      Discipline.follows_of_idle Fits.initial fun _ _ _ hI hok hl => fits_step hI hok hl
  refine Nat.le_trans ?_ (hfits.le attempt index)
  have hcount : s.granted attempt index ≤
      s.threads.countP fun t => Limiter.granted attempt index ((discipline limiter).ledger t) :=
    List.countP_mono_left fun t ht hg => granted_of_trace h ht hg
  refine Nat.le_trans hcount (countP_le_total fun t ht => ?_)
  rw [ht]
  exact Nat.le_refl _

namespace Sample

/-- A limiter that takes one device user code in a millisecond. -/
def once : FixedWindowRateLimiter :=
  ⟨{ (default : RateLimitConfig) with window := minWindow, deviceUserCodeCapacity := 1 }, 0⟩

def enters : Action Unit Request Duration := .spawn (.check .deviceUserCodeEntry)

/-- The first call reads the clock in the first window and waits. The second is served in the
second window, then the first, and then a third call of the second window. -/
def late : List (Action Unit Request Duration) :=
  [enters, .run 0 (), .env minWindow, enters, .run 1 (), .run 1 (), .run 0 (), enters, .run 2 (),
    .run 2 ()]

/-- The same calls, where the late one is served before its window ends. -/
def timely : List (Action Unit Request Duration) :=
  [enters, .run 0 (), .run 0 (), .env minWindow, enters, .run 1 (), .run 1 (), enters, .run 2 (),
    .run 2 ()]

end Sample

/-- A call that is late at the lock hands out its successors' budget a second time. -/
theorem window_grants_twice :
    ∃ s : Contention, Sample.once.semantics.Reaches Semantics.anyStep (Contention.idle 0) s ∧
      Sample.once.config.capacityOf .deviceUserCodeEntry < s.granted .deviceUserCodeEntry 1 := by
  obtain ⟨s, hs, hgranted⟩ : ∃ s ∈ Sample.once.semantics.run (Contention.idle 0) Sample.late,
      Sample.once.config.capacityOf .deviceUserCodeEntry <
        Contention.granted s .deviceUserCodeEntry 1 := by
    decide +kernel
  exact ⟨s, Semantics.reaches_of_run hs, hgranted⟩

theorem window_grants_within_timely :
    ∃ s : Contention, Sample.once.semantics.Reaches InOrder (Contention.idle 0) s ∧
      s.granted .deviceUserCodeEntry 1 = 1 ∧
      s.granted .deviceUserCodeEntry 1 ≤ Sample.once.config.capacityOf .deviceUserCodeEntry := by
  obtain ⟨s, hs, hgranted⟩ : ∃ s ∈ Sample.once.semantics.runChecked
      (fun s a s' => decide (InOrder s a s')) (Contention.idle 0) Sample.timely,
      Contention.granted s .deviceUserCodeEntry 1 = 1 := by
    decide +kernel
  have hreaches : Sample.once.semantics.Reaches InOrder (Contention.idle 0) s :=
    Semantics.reaches_of_runChecked (fun _ _ _ h => of_decide_eq_true h) hs
  exact ⟨s, hreaches, hgranted, window_grants_within _ hreaches _ _⟩

end Limiter

end OauthAs
