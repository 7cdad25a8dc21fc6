-- SUMMARY: Sequences of limiter calls: the counters stay bounded, failures lock nobody out cheaply, and tracked identifiers are isolated.
import Mathlib.Data.List.Induction
import OauthAs.Limiter.Window

/-!
# Calls in sequence

A limiter serves a list of calls, each with its own instant. Two results are proved about such
lists. What a budget holds is bounded, and a refusal is paid for by attempts and not by failures.
And a budget that is charged under its owner's name only is served as if nobody else were there:
the limiter, seen from one attempt, simulates a cell that holds that attempt's budget alone.
-/

namespace OauthAs

namespace Limiter

variable {b : ClientBudget}

/-- A call, with the instant it was made at. -/
inductive Use where
  | check (attempt : Attempt) (now : Instant)
  | record (attempt : Attempt) (outcome : AttemptOutcome) (now : Instant)
deriving DecidableEq, Repr

namespace Use

def attempt : Use → Attempt
  | .check attempt _ => attempt
  | .record attempt _ _ => attempt

def now : Use → Instant
  | .check _ now => now
  | .record _ _ now => now

end Use

/-- What a call came to: a decision, a penalty, or nothing for a success. The first two say whether
the budget was the attempt's own. -/
inductive Answer where
  | decided (v : Verdict)
  | charged (own : Bool)
  | untouched
deriving DecidableEq, Repr

/-- No budget but the attempt's own was charged. -/
def Answer.own : Answer → Bool
  | .decided v => v.own
  | .charged own => own
  | .untouched => true

/-- The calls of a list with their answers, for anything that serves calls one by one. -/
def history {σ : Type} (serve : σ → Use → Answer × σ) : σ → List Use → List (Use × Answer)
  | _, [] => []
  | s, u :: us => (u, (serve s u).1) :: history serve (serve s u).2 us

def after {σ : Type} (serve : σ → Use → Answer × σ) (s : σ) (us : List Use) : σ :=
  us.foldl (fun s u => (serve s u).2) s

def FixedWindowRateLimiter.serve (limiter : FixedWindowRateLimiter) (w : Window) :
    Use → Answer × Window
  | .check attempt now =>
    let (v, w) := limiter.checkSection attempt (limiter.windowIndex now) w
    (.decided v, w)
  | .record attempt outcome now =>
    let own := (w.rollTo (limiter.windowIndex now)).owns limiter.config attempt
    (if outcome = .succeeded then .untouched else .charged own,
      limiter.recordAt attempt outcome now w)

/-- What a call makes of the budget it is about. -/
def Use.spend (config : RateLimitConfig) (b : ClientBudget) : Use → ClientBudget
  | .check attempt _ => (chargeAttempt b (config.capacityOf attempt)).2
  | .record attempt _ _ => penaliseOn config attempt b

/-- A call leaves the window alone, or it rolls it and spends the budget it is about. -/
theorem serve_cases (limiter : FixedWindowRateLimiter) (w : Window) (u : Use) :
    (limiter.serve w u).2 = w ∨ (limiter.serve w u).2.index = limiter.windowIndex u.now ∧
      ∀ attempt, (limiter.serve w u).2.budget attempt =
        let rolled := w.rollTo (limiter.windowIndex u.now)
        if attempt = u.attempt ∧ rolled.owns limiter.config u.attempt = true then
          u.spend limiter.config (rolled.budget u.attempt)
        else rolled.budget attempt := by
  cases u with
  | check a now =>
    exact .inr ⟨limiter.checkSection_index _ _ _, fun _ => Window.checkIn_budget _⟩
  | record a outcome now =>
    simp only [FixedWindowRateLimiter.serve, FixedWindowRateLimiter.recordAt]
    split
    · exact .inl rfl
    · exact .inr ⟨limiter.recordSection_index _ _ _, fun _ => Window.recordIn_budget _⟩

theorem history_append {σ : Type} (serve : σ → Use → Answer × σ) (s : σ) (us : List Use) (u : Use) :
    history serve s (us ++ [u]) =
      history serve s us ++ [(u, (serve (after serve s us) u).1)] := by
  induction us generalizing s with
  | nil => rfl
  | cons v us ih => simp only [List.cons_append, history, ih]; rfl

theorem after_append {σ : Type} (serve : σ → Use → Answer × σ) (s : σ) (us : List Use) (u : Use) :
    after serve s (us ++ [u]) = (serve (after serve s us) u).2 := by
  simp [after]

/-! ## What the counters hold -/

/-- A budget within its capacity: failures have a half to themselves and no more. -/
structure ClientBudget.Within (b : ClientBudget) (capacity : Nat) : Prop where
  attempts : b.attempts ≤ capacity
  failures : b.failures ≤ capacity / 2

theorem within_empty (capacity : Nat) : ({} : ClientBudget).Within capacity :=
  ⟨Nat.zero_le _, Nat.zero_le _⟩

theorem chargeAttempt_within {capacity : Nat} (h : b.Within capacity) :
    (chargeAttempt b capacity).2.Within capacity := by
  cases hd : (chargeAttempt b capacity).1 with
  | allow =>
    obtain ⟨hcharged, hle⟩ := chargeAttempt_allow hd
    rw [hcharged]
    exact ⟨by simp only; omega, h.failures⟩
  | deny => rwa [(chargeAttempt_deny hd).1]

theorem penaliseFailure_within {capacity : Nat} (h : b.Within capacity) (cost : Nat) :
    (penaliseFailure b (capacity / 2) cost).Within capacity :=
  ⟨h.attempts, penalise_le _ _ _⟩

theorem charge_le {counter capacity cost : Nat} (h : counter ≤ capacity) :
    (charge counter capacity cost).2 ≤ capacity := by
  cases hd : (charge counter capacity cost).1 with
  | allow =>
    obtain ⟨hcharged, hcost⟩ := charge_allow hd
    omega
  | deny => rwa [(charge_deny hd).1]

/-- Bounded counters: a bounded number of short keys, and every budget within the capacity that
applies to it. -/
structure Counters.Bounded (c : Counters) (capacity : String → Nat) (shared maxTracked : Nat) :
    Prop where
  size : c.tracked.size ≤ maxTracked
  keys : ∀ row ∈ c.tracked, row.1.utf8ByteSize ≤ maxTrackedClientIdLen
  budgets : ∀ row ∈ c.tracked, row.2.Within (capacity row.1)
  overflow : c.overflow.Within shared

namespace Counters

variable {c : Counters} {capacity : String → Nat} {shared maxTracked : Nat}

theorem bounded_empty : Counters.empty.Bounded capacity shared maxTracked where
  size := Nat.zero_le _
  keys _ h := absurd h Table.mem_empty
  budgets _ h := absurd h Table.mem_empty
  overflow := within_empty _

theorem Bounded.own (h : c.Bounded capacity shared maxTracked) (clientId : String) :
    (c.own clientId).Within (capacity clientId) := by
  unfold Counters.own
  cases hrow : c.tracked.lookup clientId with
  | none => exact within_empty _
  | some row =>
    have hbudget := h.budgets row (Table.mem_of_lookup hrow)
    rwa [Table.key_of_lookup hrow] at hbudget

/-- The budget an identifier is charged against is within the capacity it is charged by. -/
theorem Bounded.counter (h : c.Bounded capacity shared maxTracked) (clientId : String) :
    (c.counter clientId maxTracked).1.1.Within
      (if (c.counter clientId maxTracked).1.2 then capacity clientId else shared) := by
  unfold Counters.counter
  split
  · exact h.own clientId
  · exact h.overflow

/-- An identifier gets a row only while there is room and only if it is short enough. -/
theorem Bounded.put (h : c.Bounded capacity shared maxTracked) {clientId : String}
    (hb : b.Within (if (c.counter clientId maxTracked).1.2 then capacity clientId else shared)) :
    ((c.counter clientId maxTracked).2 b).Bounded capacity shared maxTracked := by
  rw [counter_own] at hb
  unfold Counters.counter
  split
  · rename_i htracks
    rw [if_pos htracks] at hb
    simp only [tracks, Bool.and_eq_true, decide_eq_true_eq, Bool.or_eq_true] at htracks
    refine ⟨?_, ?_, ?_, h.overflow⟩
    · rcases htracks.2 with hcontains | hroom
      · rw [Table.size_insert_of_contains hcontains]
        exact h.size
      · exact Nat.le_trans (Table.size_insert_le _ _) hroom
    · exact Table.forall_insert htracks.1 h.keys
    · exact Table.forall_insert hb h.budgets
  · rename_i htracks
    rw [if_neg htracks] at hb
    exact ⟨h.size, h.keys, h.budgets, hb⟩

end Counters

/-- A window all of whose counters are bounded. -/
structure Window.Bounded (w : Window) (config : RateLimitConfig) : Prop where
  deviceUserCode : w.deviceUserCode ≤ config.deviceUserCodeCapacity
  registration : w.registration ≤ config.clientRegistrationCapacity
  clients : w.clients.Bounded config.clientAuthenticationCapacityFor
    config.clientAuthenticationCapacity config.maxTrackedClients
  authorization : w.authorization.Bounded (fun _ => config.authorizationRequestCapacity)
    config.authorizationRequestCapacity config.maxTrackedClients

namespace Window.Bounded

variable {w : Window} {config : RateLimitConfig}

theorem cleared (index : Nat) : Bounded ⟨index, 0, .empty, .empty, 0⟩ config :=
  ⟨Nat.zero_le _, Nat.zero_le _, Counters.bounded_empty, Counters.bounded_empty⟩

theorem rollTo (h : w.Bounded config) (index : Nat) : (w.rollTo index).Bounded config := by
  unfold Window.rollTo
  split
  · exact h
  · exact cleared index

theorem checkIn (h : w.Bounded config) (attempt : Attempt) :
    (checkIn config attempt w).2.Bounded config := by
  cases attempt with
  | deviceUserCodeEntry =>
    exact ⟨charge_le h.deviceUserCode, h.registration, h.clients, h.authorization⟩
  | clientAuthentication clientId =>
    have hcharged := chargeAttempt_within (h.clients.counter clientId)
    exact ⟨h.deviceUserCode, h.registration, h.clients.put hcharged, h.authorization⟩
  | authorizationRequest clientId =>
    have hcounter := h.authorization.counter clientId
    refine ⟨h.deviceUserCode, h.registration, h.clients, h.authorization.put ?_⟩
    rw [ite_self] at hcounter ⊢
    exact chargeAttempt_within hcounter
  | clientRegistration =>
    exact ⟨h.deviceUserCode, charge_le h.registration, h.clients, h.authorization⟩

theorem recordIn (h : w.Bounded config) (attempt : Attempt) :
    (recordIn config attempt w).Bounded config := by
  cases attempt with
  | deviceUserCodeEntry =>
    exact ⟨penalise_le _ _ _, h.registration, h.clients, h.authorization⟩
  | clientAuthentication clientId =>
    have hcounter := h.clients.counter clientId
    have hpenalised : (penaliseFailure (w.clients.counter clientId config.maxTrackedClients).1.1
        (if (w.clients.counter clientId config.maxTrackedClients).1.2 then
          config.clientAuthenticationFailureCeilingFor clientId
        else config.clientAuthenticationFailureCeiling)
        config.clientAuthenticationFailureCost).Within
        (if (w.clients.counter clientId config.maxTrackedClients).1.2 then
          config.clientAuthenticationCapacityFor clientId
        else config.clientAuthenticationCapacity) := by
      split <;> rename_i htracked <;> simp only [htracked] at hcounter
      · exact penaliseFailure_within hcounter _
      · exact penaliseFailure_within hcounter _
    exact ⟨h.deviceUserCode, h.registration, h.clients.put hpenalised, h.authorization⟩
  | authorizationRequest clientId =>
    have hcounter := h.authorization.counter clientId
    refine ⟨h.deviceUserCode, h.registration, h.clients, h.authorization.put ?_⟩
    rw [ite_self] at hcounter ⊢
    exact penaliseFailure_within hcounter _
  | clientRegistration =>
    exact ⟨h.deviceUserCode, penalise_le _ _ _, h.clients, h.authorization⟩

/-- One call keeps every counter bounded. -/
theorem serve {limiter : FixedWindowRateLimiter} (h : w.Bounded limiter.config) (u : Use) :
    (limiter.serve w u).2.Bounded limiter.config := by
  cases u with
  | check attempt now => exact (h.rollTo _).checkIn attempt
  | record attempt outcome now =>
    simp only [FixedWindowRateLimiter.serve, FixedWindowRateLimiter.recordAt]
    split
    · exact h
    · exact (h.rollTo _).recordIn attempt

/-- So does every list of calls. -/
theorem after {limiter : FixedWindowRateLimiter} (h : w.Bounded limiter.config) (us : List Use) :
    (after limiter.serve w us).Bounded limiter.config := by
  induction us generalizing w with
  | nil => exact h
  | cons u us ih => exact ih (h.serve u)

end Window.Bounded

/-! ## Refusals are paid for -/

/-- The attempts that name a client, whose budgets count failures apart. -/
def identifies : Attempt → Bool
  | .clientAuthentication _ => true
  | .authorizationRequest _ => true
  | .deviceUserCodeEntry => false
  | .clientRegistration => false

/-- An allowed check of an attempt, in a window, paid by its own budget. -/
def FixedWindowRateLimiter.grants (limiter : FixedWindowRateLimiter) (attempt : Attempt)
    (index : Nat) : Use × Answer → Bool
  | (.check a now, .decided v) =>
    decide (a = attempt) && decide (limiter.windowIndex now = index) && decide (v = ⟨.allow, true⟩)
  | _ => false

theorem penaliseOn_attempts {attempt : Attempt} (h : identifies attempt = true)
    (config : RateLimitConfig) (b : ClientBudget) :
    (penaliseOn config attempt b).attempts = b.attempts := by
  cases attempt <;> first | rfl | cases h

theorem Window.Bounded.budget {w : Window} {config : RateLimitConfig} (h : w.Bounded config)
    {attempt : Attempt} (hid : identifies attempt = true) :
    (w.budget attempt).Within (config.capacityOf attempt) := by
  cases attempt with
  | clientAuthentication clientId => exact h.clients.own clientId
  | authorizationRequest clientId => exact h.authorization.own clientId
  | deviceUserCodeEntry => cases hid
  | clientRegistration => cases hid

/-- Rolling a window only ever forgets. -/
theorem Window.attempts_rollTo_le {w : Window} {attempt : Attempt} {f : Nat → Nat} (index : Nat)
    (h : (w.budget attempt).attempts ≤ f w.index) :
    ((w.rollTo index).budget attempt).attempts ≤ f index := by
  by_cases heq : w.index = index
  · rwa [w.rollTo_same heq, ← heq]
  · rw [w.budget_rollTo_of_ne attempt heq]
    exact Nat.zero_le _

section Spent

variable (limiter : FixedWindowRateLimiter) {attempt : Attempt}

/-- One call spends an attempt of a budget only by granting it. -/
theorem attempts_serve_le (hid : identifies attempt = true) {w : Window} {f : Nat → Nat} (u : Use)
    (h : (w.budget attempt).attempts ≤ f w.index) :
    ((limiter.serve w u).2.budget attempt).attempts ≤ f (limiter.serve w u).2.index +
      (limiter.grants attempt (limiter.serve w u).2.index (u, (limiter.serve w u).1)).toNat := by
  rcases serve_cases limiter w u with hsame | ⟨hindex, hbudget⟩
  · rw [hsame]
    exact Nat.le_add_right_of_le h
  have hrolled := w.attempts_rollTo_le (limiter.windowIndex u.now) h
  rw [hbudget, hindex]
  simp only
  split
  · rename_i hown
    obtain ⟨rfl, hown⟩ := hown
    cases u with
    | check attempt now =>
      simp only [Use.attempt, Use.now, Use.spend] at hown hrolled ⊢
      have hdecision := Window.checkIn_decision hown
      have hflag : (checkIn limiter.config attempt (w.rollTo (limiter.windowIndex now))).1.own = _ :=
        Window.checkIn_own _ _
      cases hd : (chargeAttempt ((w.rollTo (limiter.windowIndex now)).budget attempt)
          (limiter.config.capacityOf attempt)).1 with
      | allow =>
        have hv : (checkIn limiter.config attempt (w.rollTo (limiter.windowIndex now))).1 =
            ⟨.allow, true⟩ := by
          rw [← hd, ← hdecision, ← hown, ← hflag]
        rw [(chargeAttempt_allow hd).1]
        simpa [FixedWindowRateLimiter.grants, FixedWindowRateLimiter.serve,
          FixedWindowRateLimiter.checkSection, hv] using hrolled
      | deny =>
        rw [(chargeAttempt_deny hd).1]
        exact Nat.le_add_right_of_le hrolled
    | record attempt outcome now =>
      simp only [Use.attempt, Use.spend] at hid ⊢
      rw [penaliseOn_attempts hid]
      exact Nat.le_add_right_of_le hrolled
  · exact Nat.le_add_right_of_le hrolled

variable {limiter} in

/-- A decision about an attempt's own budget is the decision of that budget alone. -/
theorem own_of_decided {w : Window} {now : Instant} {d : RateLimitDecision}
    (h : (limiter.serve w (.check attempt now)).1 = .decided ⟨d, true⟩) :
    (w.rollTo (limiter.windowIndex now)).owns limiter.config attempt = true ∧
      (chargeAttempt ((w.rollTo (limiter.windowIndex now)).budget attempt)
        (limiter.config.capacityOf attempt)).1 = d := by
  have hv : (checkIn limiter.config attempt (w.rollTo (limiter.windowIndex now))).1 = ⟨d, true⟩ :=
    Answer.decided.inj h
  have hown : (checkIn limiter.config attempt (w.rollTo (limiter.windowIndex now))).1.own = _ :=
    Window.checkIn_own _ _
  rw [hv] at hown
  have hdecision := Window.checkIn_decision hown.symm
  rw [hv] at hdecision
  exact ⟨hown.symm, hdecision.symm⟩

/-- In every list of calls, what a budget spent in its window was granted in that window. -/
theorem attempts_le_granted (hid : identifies attempt = true) (us : List Use) :
    ((after limiter.serve .initial us).budget attempt).attempts ≤
      (history limiter.serve .initial us).countP
        (limiter.grants attempt (after limiter.serve .initial us).index) := by
  induction us using List.reverseRecOn with
  | nil => cases attempt <;> exact Nat.zero_le _
  | append_singleton us u ih =>
    have hstep := attempts_serve_le limiter hid u ih
      (f := fun k => (history limiter.serve .initial us).countP (limiter.grants attempt k))
    rw [after_append, history_append, List.countP_append, Table.countP_cons_toNat, List.countP_nil,
      Nat.zero_add]
    exact hstep

end Spent

/-- Failures cannot lock a client out cheaply. After any calls, a check is refused only if at least
the half of the capacity that failures cannot reach was granted to the same identifier in the same
window, however many failures were reported. The counters are bounded at every point, and an
allowed check leaves the two counters of its budget within the capacity together. -/
theorem refusal_paid_for (limiter : FixedWindowRateLimiter) (us : List Use) :
    (after limiter.serve .initial us).Bounded limiter.config ∧
    (∀ attempt now, identifies attempt = true →
      (limiter.serve (after limiter.serve .initial us) (.check attempt now)).1 =
        .decided ⟨.deny, true⟩ →
      limiter.config.capacityOf attempt - limiter.config.capacityOf attempt / 2 ≤
        (history limiter.serve .initial us).countP
          (limiter.grants attempt (limiter.windowIndex now))) ∧
    (∀ attempt now, identifies attempt = true →
      (limiter.serve (after limiter.serve .initial us) (.check attempt now)).1 =
        .decided ⟨.allow, true⟩ →
      ∀ b, b = (limiter.serve (after limiter.serve .initial us) (.check attempt now)).2.budget
        attempt → b.attempts + b.failures ≤ limiter.config.capacityOf attempt) := by
  have hbounded : (after limiter.serve .initial us).Bounded limiter.config :=
    (Window.Bounded.cleared 0).after us
  refine ⟨hbounded, ?_, ?_⟩
  · intro attempt now hid hanswer
    have hspent := Window.attempts_rollTo_le (limiter.windowIndex now)
      (attempts_le_granted limiter hid us)
      (f := fun k => (history limiter.serve .initial us).countP (limiter.grants attempt k))
    obtain ⟨hown, hdenied⟩ := own_of_decided hanswer
    have hfailures := ((hbounded.rollTo (limiter.windowIndex now)).budget hid).failures
    have hexhausted := (chargeAttempt_deny hdenied).2
    omega
  · rintro attempt now - hanswer b rfl
    obtain ⟨hown, hallowed⟩ := own_of_decided hanswer
    obtain ⟨hcharged, hle⟩ := chargeAttempt_allow hallowed
    simp only [FixedWindowRateLimiter.serve, FixedWindowRateLimiter.checkSection,
      Window.checkIn_budget, hown, and_self, if_true, hcharged]
    exact hle

/-- A limiter that lets a client authenticate twice in a window. -/
def Sample.twice : FixedWindowRateLimiter :=
  ⟨{ (default : RateLimitConfig) with
      clientAuthenticationCapacity := 2, clientAuthenticationFailureCost := 1 }, 0⟩

/-- The same client authenticates twice, and then one of the two turns out to have failed. -/
def Sample.failsLate : List Use :=
  [.check (.clientAuthentication "a") 0, .check (.clientAuthentication "a") 0,
    .record (.clientAuthentication "a") .failed 0]

/-- The sum of both counters is not bounded by the capacity: a failure is clamped at its own
ceiling, whatever the attempts have spent. -/
theorem counters_exceed_capacity :
    Sample.failsLate.Pairwise (fun u v => u.now ≤ v.now) ∧
      ∃ row ∈ (after Sample.twice.serve .initial Sample.failsLate).clients.tracked,
        Sample.twice.config.clientAuthenticationCapacityFor row.1 <
          row.2.attempts + row.2.failures :=
  ⟨by decide, ("a", ⟨2, 1⟩), Table.mem_of_lookup (k := "a") (by decide +kernel), by decide⟩

/-- After them the third attempt is refused, and two were granted where one is the least. -/
theorem refusal_paid_for_twice :
    (Sample.twice.serve (after Sample.twice.serve .initial Sample.failsLate)
      (.check (.clientAuthentication "a") 0)).1 = .decided ⟨.deny, true⟩ ∧
    Sample.twice.config.capacityOf (.clientAuthentication "a") -
        Sample.twice.config.capacityOf (.clientAuthentication "a") / 2 ≤
      (history Sample.twice.serve .initial Sample.failsLate).countP
        (Sample.twice.grants (.clientAuthentication "a") (Sample.twice.windowIndex 0)) :=
  have hrefused : (Sample.twice.serve (after Sample.twice.serve .initial Sample.failsLate)
      (.check (.clientAuthentication "a") 0)).1 = .decided ⟨.deny, true⟩ := by decide +kernel
  ⟨hrefused, (refusal_paid_for Sample.twice Sample.failsLate).2.1 _ 0 rfl hrefused⟩

/-! ## Isolation -/

/-- One budget alone, with the window it was last charged in. -/
structure Cell where
  index : Nat
  budget : ClientBudget

namespace Cell

/-- The budget as a window finds it. -/
def found (c : Cell) (index : Nat) : ClientBudget := if c.index = index then c.budget else {}

/-- How a budget is served when nobody else calls. -/
def serve (limiter : FixedWindowRateLimiter) (attempt : Attempt) (c : Cell) : Use → Answer × Cell
  | .check _ now =>
    let index := limiter.windowIndex now
    let (d, b) := chargeAttempt (c.found index) (limiter.config.capacityOf attempt)
    (.decided ⟨d, true⟩, ⟨index, b⟩)
  | .record _ outcome now =>
    if outcome = .succeeded then (.untouched, c)
    else
      let index := limiter.windowIndex now
      (.charged true, ⟨index, penaliseOn limiter.config attempt (c.found index)⟩)

/-- A window agrees with a cell about an attempt, and is at least as late. -/
structure Shows (w : Window) (attempt : Attempt) (c : Cell) : Prop where
  later : c.index ≤ w.index
  budget : w.budget attempt = c.found w.index

variable {limiter : FixedWindowRateLimiter} {w : Window} {attempt : Attempt} {c : Cell} {u : Use}

/-- In every window from this one on they find the same budget. -/
theorem Shows.rollTo (h : Shows w attempt c) {index : Nat} (hle : w.index ≤ index) :
    (w.rollTo index).budget attempt = c.found index := by
  by_cases heq : w.index = index
  · rw [w.rollTo_same heq, h.budget, heq]
  · have hlt : c.index ≠ index := by
      have := h.later
      omega
    rw [w.budget_rollTo_of_ne attempt heq, Cell.found, if_neg hlt]

/-- A call of somebody else's goes by the cell. -/
theorem Shows.other (h : Shows w attempt c) (hle : w.index ≤ limiter.windowIndex u.now)
    (hother : u.attempt ≠ attempt) : Shows (limiter.serve w u).2 attempt c := by
  rcases serve_cases limiter w u with hsame | ⟨hindex, hbudget⟩
  · rwa [hsame]
  · refine ⟨hindex ▸ Nat.le_trans h.later hle, ?_⟩
    rw [hbudget, hindex]
    exact (if_neg fun hown => hother hown.1.symm).trans (h.rollTo hle)

/-- A call about the attempt that charges its own budget is answered as the cell answers it. -/
theorem Shows.own (h : Shows w attempt c) (hle : w.index ≤ limiter.windowIndex u.now)
    (hattempt : u.attempt = attempt) (hown : (limiter.serve w u).1.own = true) :
    (limiter.serve w u).1 = (c.serve limiter attempt u).1 ∧
      Shows (limiter.serve w u).2 attempt (c.serve limiter attempt u).2 := by
  have hrolled := h.rollTo hle
  cases u with
  | check a now =>
    obtain rfl : a = attempt := hattempt
    obtain ⟨v, hv⟩ : ∃ v, (limiter.serve w (.check a now)).1 = .decided ⟨v, true⟩ :=
      ⟨_, congrArg Answer.decided (congrArg (Verdict.mk _) hown)⟩
    obtain ⟨howns, hd⟩ := own_of_decided hv
    simp only [Use.now] at hrolled
    rw [hrolled] at hd
    refine ⟨?_, ?_, ?_⟩
    · rw [hv, ← hd]
      rfl
    · simp [FixedWindowRateLimiter.serve, FixedWindowRateLimiter.checkSection, Cell.serve]
    · simp only [FixedWindowRateLimiter.serve, FixedWindowRateLimiter.checkSection, Cell.serve,
        Window.checkIn_budget, Window.checkIn_index, Window.rollTo_index, howns, and_self, if_true,
        Cell.found]
      rw [hrolled]
      rfl
  | record a outcome now =>
    obtain rfl : a = attempt := hattempt
    simp only [Use.now] at hrolled
    simp only [FixedWindowRateLimiter.serve, FixedWindowRateLimiter.recordAt, Cell.serve] at hown ⊢
    split
    · exact ⟨rfl, h⟩
    · rename_i hfailed
      rw [if_neg hfailed] at hown
      have howns : (w.rollTo (limiter.windowIndex now)).owns limiter.config a = true := hown
      refine ⟨by rw [howns], ?_, ?_⟩
      · simp [FixedWindowRateLimiter.recordSection]
      · simp only [FixedWindowRateLimiter.recordSection, Window.recordIn_budget,
          Window.recordIn_index, Window.rollTo_index, howns, and_self, if_true, Cell.found]
        rw [hrolled]
        rfl

end Cell

theorem FixedWindowRateLimiter.windowIndex_mono (limiter : FixedWindowRateLimiter) {i j : Instant}
    (h : i ≤ j) : limiter.windowIndex i ≤ limiter.windowIndex j := by
  have hdiv := Nat.div_le_div_right (c := limiter.config.effectiveWindow)
    (Nat.sub_le_sub_right h limiter.base)
  unfold windowIndex
  omega

/-- The calls about an attempt, with their answers. -/
def FixedWindowRateLimiter.answersTo (limiter : FixedWindowRateLimiter) (attempt : Attempt)
    (us : List Use) : List (Use × Answer) :=
  (history limiter.serve .initial us).filter (fun p => p.1.attempt = attempt)

/-- A limiter that charges an attempt's own budget whenever it charges it at all answers it as the
cell does that hears of nobody else. -/
theorem history_cell {limiter : FixedWindowRateLimiter} {attempt : Attempt} {us : List Use}
    (hordered : us.Pairwise fun u v => u.now ≤ v.now) {w : Window} {c : Cell}
    (hshows : Cell.Shows w attempt c) (hlate : ∀ u ∈ us, w.index ≤ limiter.windowIndex u.now)
    (hown : ∀ p ∈ history limiter.serve w us, p.1.attempt = attempt → p.2.own = true) :
    (history limiter.serve w us).filter (fun p => p.1.attempt = attempt) =
      history (Cell.serve limiter attempt) c (us.filter fun u => u.attempt = attempt) := by
  -- The window only ever moves forward, so the cell stays shown by it.
  induction us generalizing w c with
  | nil => rfl
  | cons u us ih =>
    obtain ⟨hfirst, hordered⟩ := List.pairwise_cons.mp hordered
    have hle := hlate u List.mem_cons_self
    have hlate' : ∀ v ∈ us, (limiter.serve w u).2.index ≤ limiter.windowIndex v.now := by
      intro v hv
      rcases serve_cases limiter w u with hsame | ⟨hindex, -⟩
      · rw [hsame]
        exact hlate v (List.mem_cons_of_mem _ hv)
      · rw [hindex]
        exact limiter.windowIndex_mono (hfirst v hv)
    have hown' : ∀ p ∈ history limiter.serve (limiter.serve w u).2 us,
        p.1.attempt = attempt → p.2.own = true := fun p hp => hown p (List.mem_cons_of_mem _ hp)
    by_cases hattempt : u.attempt = attempt
    · obtain ⟨hanswer, hshows'⟩ := hshows.own hle hattempt (hown _ List.mem_cons_self hattempt)
      simp only [history, List.filter_cons, hattempt, decide_true, if_true, hanswer]
      rw [ih hordered hshows' hlate' hown']
    · simp only [history, List.filter_cons, hattempt, decide_false, Bool.false_eq_true, if_false]
      exact ih hordered (hshows.other hle hattempt) hlate' hown'

/-- Tracked identifiers are isolated. Two sequences of calls that agree in the calls about one
attempt, and charge its own budget in each of them, give it the same answers, whatever else they
contain. -/
theorem tracked_isolated (limiter : FixedWindowRateLimiter) (attempt : Attempt) {us vs : List Use}
    (hus : us.Pairwise fun u v => u.now ≤ v.now) (hvs : vs.Pairwise fun u v => u.now ≤ v.now)
    (hsame : (us.filter fun u => u.attempt = attempt) = vs.filter fun u => u.attempt = attempt)
    (husOwn : ∀ p ∈ limiter.answersTo attempt us, p.2.own = true)
    (hvsOwn : ∀ p ∈ limiter.answersTo attempt vs, p.2.own = true) :
    limiter.answersTo attempt us = limiter.answersTo attempt vs := by
  have hinitial : Cell.Shows .initial attempt ⟨0, {}⟩ := by
    refine ⟨Nat.le_refl _, ?_⟩
    cases attempt <;> rfl
  have hcell : ∀ ws : List Use, (ws.Pairwise fun u v => u.now ≤ v.now) →
      (∀ p ∈ limiter.answersTo attempt ws, p.2.own = true) →
      limiter.answersTo attempt ws =
        history (Cell.serve limiter attempt) ⟨0, {}⟩ (ws.filter fun u => u.attempt = attempt) := by
    intro ws hordered hown
    refine history_cell hordered hinitial (fun _ _ => Nat.zero_le _) fun p hp hattempt => ?_
    exact hown p (List.mem_filter.mpr ⟨hp, decide_eq_true hattempt⟩)
  rw [hcell us hus husOwn, hcell vs hvs hvsOwn, hsame]

/-- A client that fails among others is answered as if it were alone. -/
theorem tracked_isolated_failsLate :
    let strangers : List Use := [.check (.clientAuthentication "b") 0,
      .record (.clientAuthentication "b") .failed 0, .check .clientRegistration 0]
    Sample.twice.answersTo (.clientAuthentication "a") (strangers ++ Sample.failsLate) =
      Sample.twice.answersTo (.clientAuthentication "a") Sample.failsLate :=
  tracked_isolated _ _ (by decide) (by decide) (by decide) (by decide +kernel) (by decide +kernel)

end Limiter

end OauthAs
