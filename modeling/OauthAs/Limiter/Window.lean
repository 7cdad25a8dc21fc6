-- SUMMARY: The fixed-window rate limiter: its configuration, its counters, and what one call does to them.
import OauthAs.Config
import OauthAs.Lib.Table

/-!
# The fixed-window limiter

A limiter keeps the counters of one window. A call first rolls them to the window of its own
instant, which clears everything unless that is the window they belong to, and then charges one
budget. Device user codes and client registrations have one counter each. Client authentications
and authorization requests have a budget for each identifier, kept in a bounded map, and a shared
overflow budget for the identifiers that found no room.
-/

namespace OauthAs

/-- Nanoseconds of a clock that never runs backwards. -/
abbrev Instant := Nat

namespace Limiter

variable {capacity : Nat}

def attemptCost : Nat := 1

def clientAuthenticationFailureCeilingDivisor : Nat := 2

def maxTrackedClientIdLen : Nat := 128

def minWindow : Duration := 1000000

/-- `u64::MAX`, where window indexes saturate. -/
def u64Max : Nat := 2 ^ 64 - 1

structure RateLimitConfig where
  window : Duration
  deviceUserCodeCapacity : Nat
  deviceUserCodeFailureCost : Nat
  clientAuthenticationCapacity : Nat
  clientAuthenticationCapacityOverrides : Table (Prod.fst : String × Nat → String)
  clientAuthenticationFailureCost : Nat
  authorizationRequestCapacity : Nat
  authorizationRequestFailureCost : Nat
  clientRegistrationCapacity : Nat
  clientRegistrationFailureCost : Nat
  maxTrackedClients : Nat

namespace RateLimitConfig

instance : Inhabited RateLimitConfig where
  default :=
    { window := Duration.fromSecs 60, deviceUserCodeCapacity := 200, deviceUserCodeFailureCost := 9
      clientAuthenticationCapacity := 6000, clientAuthenticationCapacityOverrides := .empty
      clientAuthenticationFailureCost := 199, authorizationRequestCapacity := 3000
      authorizationRequestFailureCost := 9, clientRegistrationCapacity := 60
      clientRegistrationFailureCost := 9, maxTrackedClients := 4096 }

variable (config : RateLimitConfig)

def effectiveWindow : Duration := max config.window minWindow

def clientAuthenticationFailureCeiling : Nat :=
  config.clientAuthenticationCapacity / clientAuthenticationFailureCeilingDivisor

def clientAuthenticationCapacityFor (clientId : String) : Nat :=
  if config.clientAuthenticationCapacityOverrides.rows.isEmpty then
    config.clientAuthenticationCapacity
  else
    ((config.clientAuthenticationCapacityOverrides.lookup clientId).map Prod.snd).getD
      config.clientAuthenticationCapacity

def clientAuthenticationFailureCeilingFor (clientId : String) : Nat :=
  config.clientAuthenticationCapacityFor clientId / clientAuthenticationFailureCeilingDivisor

def authorizationRequestFailureCeiling : Nat :=
  config.authorizationRequestCapacity / clientAuthenticationFailureCeilingDivisor

end RateLimitConfig

/-! ## Counters -/

structure ClientBudget where
  attempts : Nat := 0
  failures : Nat := 0
deriving DecidableEq, Repr, Inhabited

/-- The budgets of one kind of attempt: a map for the identifiers that got a counter of their own,
and the budget that all others share. -/
structure Counters where
  tracked : Table (Prod.fst : String × ClientBudget → String)
  overflow : ClientBudget

structure Window where
  index : Nat
  deviceUserCode : Nat
  clients : Counters
  authorization : Counters
  registration : Nat

def Counters.empty : Counters := ⟨.empty, {}⟩

/-- The window a limiter starts with. -/
def Window.initial : Window := ⟨0, 0, .empty, .empty, 0⟩

/-- Starts a fresh budget unless the counters belong to this window. -/
def Window.rollTo (w : Window) (index : Nat) : Window :=
  if w.index = index then w
  else ⟨index, 0, .empty, .empty, 0⟩

namespace Counters

/-- Whether an identifier has a counter of its own, or gets one now. -/
def tracks (c : Counters) (clientId : String) (maxTracked : Nat) : Bool :=
  decide (clientId.utf8ByteSize ≤ maxTrackedClientIdLen) &&
    (c.tracked.contains clientId || decide (c.tracked.size < maxTracked))

/-- An identifier's own budget, whole until it is first charged. -/
def own (c : Counters) (clientId : String) : ClientBudget :=
  ((c.tracked.lookup clientId).map Prod.snd).getD {}

/-- The budget an identifier is charged against and whether it is its own, and the counters once
that budget is replaced. -/
def counter (c : Counters) (clientId : String) (maxTracked : Nat) :
    (ClientBudget × Bool) × (ClientBudget → Counters) :=
  if c.tracks clientId maxTracked then
    ((c.own clientId, true), fun b => { c with tracked := c.tracked.insert (clientId, b) })
  else ((c.overflow, false), fun b => { c with overflow := b })

end Counters

def Window.clientCounter (w : Window) (clientId : String) (maxTracked : Nat) :
    (ClientBudget × Bool) × (ClientBudget → Window) :=
  let (b, put) := w.clients.counter clientId maxTracked
  (b, fun b => { w with clients := put b })

/-- The source keeps no note of whether the budget is the identifier's own; verdicts do. -/
def Window.authorizationCounter (w : Window) (clientId : String) (maxTracked : Nat) :
    (ClientBudget × Bool) × (ClientBudget → Window) :=
  let (b, put) := w.authorization.counter clientId maxTracked
  (b, fun b => { w with authorization := put b })

/-! ## Calls -/

def charge (counter capacity cost : Nat) : RateLimitDecision × Nat :=
  if cost > capacity - counter then (.deny, counter) else (.allow, counter + cost)

/-- The source's addition saturates at `u64::MAX`, which no capacity exceeds. -/
def penalise (counter capacity cost : Nat) : Nat := min (counter + cost) capacity

/-- What the critical section of a check finds: the decision, and whether the budget it charged
belongs to nobody else. The budgets without identifiers have one counter each. -/
structure Verdict where
  decision : RateLimitDecision
  own : Bool
deriving DecidableEq, Repr

/-- An attempt is charged against what the failures have not taken. -/
def chargeAttempt (b : ClientBudget) (capacity : Nat) : RateLimitDecision × ClientBudget :=
  let (d, attempts) := charge b.attempts (capacity - b.failures) attemptCost
  (d, { b with attempts := attempts })

def checkIn (config : RateLimitConfig) (attempt : Attempt) (w : Window) : Verdict × Window :=
  match attempt with
  | .deviceUserCodeEntry =>
    let (d, n) := charge w.deviceUserCode config.deviceUserCodeCapacity attemptCost
    (⟨d, true⟩, { w with deviceUserCode := n })
  | .clientAuthentication clientId =>
    let shared := config.clientAuthenticationCapacity
    let overridden := config.clientAuthenticationCapacityFor clientId
    let ((b, tracked), put) := w.clientCounter clientId config.maxTrackedClients
    let (d, b) := chargeAttempt b (if tracked then overridden else shared)
    (⟨d, tracked⟩, put b)
  | .authorizationRequest clientId =>
    let ((b, tracked), put) := w.authorizationCounter clientId config.maxTrackedClients
    let (d, b) := chargeAttempt b config.authorizationRequestCapacity
    (⟨d, tracked⟩, put b)
  | .clientRegistration =>
    let (d, n) := charge w.registration config.clientRegistrationCapacity attemptCost
    (⟨d, true⟩, { w with registration := n })

/-- A failure is charged up to the ceiling of the failures. -/
def penaliseFailure (b : ClientBudget) (ceiling cost : Nat) : ClientBudget :=
  { b with failures := penalise b.failures ceiling cost }

def recordIn (config : RateLimitConfig) (attempt : Attempt) (w : Window) : Window :=
  match attempt with
  | .deviceUserCodeEntry =>
    { w with
      deviceUserCode := penalise w.deviceUserCode config.deviceUserCodeCapacity
        config.deviceUserCodeFailureCost }
  | .clientAuthentication clientId =>
    let shared := config.clientAuthenticationFailureCeiling
    let overridden := config.clientAuthenticationFailureCeilingFor clientId
    let ((b, tracked), put) := w.clientCounter clientId config.maxTrackedClients
    put (penaliseFailure b (if tracked then overridden else shared)
      config.clientAuthenticationFailureCost)
  | .authorizationRequest clientId =>
    let ((b, _), put) := w.authorizationCounter clientId config.maxTrackedClients
    put (penaliseFailure b config.authorizationRequestFailureCeiling
      config.authorizationRequestFailureCost)
  | .clientRegistration =>
    { w with
      registration := penalise w.registration config.clientRegistrationCapacity
        config.clientRegistrationFailureCost }

structure FixedWindowRateLimiter where
  config : RateLimitConfig
  base : Instant

def FixedWindowRateLimiter.windowIndex (limiter : FixedWindowRateLimiter) (now : Instant) : Nat :=
  min ((now - limiter.base) / limiter.config.effectiveWindow) u64Max

namespace FixedWindowRateLimiter

variable (limiter : FixedWindowRateLimiter)

/-- The critical section of a check, once its window index is known. -/
def checkSection (attempt : Attempt) (index : Nat) (w : Window) : Verdict × Window :=
  checkIn limiter.config attempt (w.rollTo index)

def recordSection (attempt : Attempt) (index : Nat) (w : Window) : Window :=
  recordIn limiter.config attempt (w.rollTo index)

def recordAt (attempt : Attempt) (outcome : AttemptOutcome) (now : Instant) (w : Window) : Window :=
  if outcome = .succeeded then w
  else limiter.recordSection attempt (limiter.windowIndex now) w

end FixedWindowRateLimiter

/-! ## One budget at a time

Each attempt is charged against a budget of its own or against an overflow budget. What a call
does to the budgets that belong to somebody is what it would do to that one budget alone. -/

/-- What an attempt can spend when it has a counter of its own. -/
def RateLimitConfig.capacityOf (config : RateLimitConfig) : Attempt → Nat
  | .deviceUserCodeEntry => config.deviceUserCodeCapacity
  | .clientAuthentication clientId => config.clientAuthenticationCapacityFor clientId
  | .authorizationRequest _ => config.authorizationRequestCapacity
  | .clientRegistration => config.clientRegistrationCapacity

namespace Window

/-- The budget of an attempt. The budgets without identifiers never count failures apart. -/
def budget (w : Window) : Attempt → ClientBudget
  | .deviceUserCodeEntry => ⟨w.deviceUserCode, 0⟩
  | .clientAuthentication clientId => w.clients.own clientId
  | .authorizationRequest clientId => w.authorization.own clientId
  | .clientRegistration => ⟨w.registration, 0⟩

/-- Whether an attempt is charged against its own budget. -/
def owns (w : Window) (config : RateLimitConfig) : Attempt → Bool
  | .deviceUserCodeEntry => true
  | .clientAuthentication clientId => w.clients.tracks clientId config.maxTrackedClients
  | .authorizationRequest clientId => w.authorization.tracks clientId config.maxTrackedClients
  | .clientRegistration => true

end Window

/-- What a failure does to the budget of an attempt. -/
def penaliseOn (config : RateLimitConfig) (attempt : Attempt) (b : ClientBudget) : ClientBudget :=
  match attempt with
  | .deviceUserCodeEntry =>
    ⟨penalise b.attempts config.deviceUserCodeCapacity config.deviceUserCodeFailureCost, b.failures⟩
  | .clientAuthentication clientId =>
    penaliseFailure b (config.clientAuthenticationFailureCeilingFor clientId)
      config.clientAuthenticationFailureCost
  | .authorizationRequest _ =>
    penaliseFailure b config.authorizationRequestFailureCeiling
      config.authorizationRequestFailureCost
  | .clientRegistration =>
    ⟨penalise b.attempts config.clientRegistrationCapacity config.clientRegistrationFailureCost,
      b.failures⟩

namespace Counters

variable (c : Counters) (clientId : String) (maxTracked : Nat)

theorem own_insert (b : ClientBudget) (other : String) :
    { c with tracked := c.tracked.insert (clientId, b) : Counters }.own other =
      if other = clientId then b else c.own other := by
  simp only [own, Table.lookup_insert]
  by_cases h : other = clientId
  · simp [h]
  · simp [h, Ne.symm h]

theorem counter_own : (c.counter clientId maxTracked).1.2 = c.tracks clientId maxTracked := by
  unfold counter
  split <;> rename_i h <;> simp [h]

theorem counter_budget (h : c.tracks clientId maxTracked = true) :
    (c.counter clientId maxTracked).1.1 = c.own clientId := by
  simp [counter, h]

/-- Replacing the budget an identifier is charged against changes no other identifier's. -/
theorem own_counter (b : ClientBudget) (other : String) :
    ((c.counter clientId maxTracked).2 b).own other =
      if other = clientId ∧ c.tracks clientId maxTracked = true then b else c.own other := by
  by_cases h : c.tracks clientId maxTracked = true
  · simp only [counter, h, if_true, and_true]
    exact c.own_insert clientId b other
  · simp only [counter, h, and_false, if_false, Bool.false_eq_true]
    rfl

end Counters

namespace Window

variable {config : RateLimitConfig} (w : Window) (attempt : Attempt)

@[simp] theorem rollTo_index (index : Nat) : (w.rollTo index).index = index := by
  unfold rollTo
  split
  · assumption
  · rfl

theorem rollTo_same {index : Nat} (h : w.index = index) : w.rollTo index = w := by
  simp [rollTo, h]

theorem budget_rollTo_of_ne {index : Nat} (h : w.index ≠ index) :
    (w.rollTo index).budget attempt = {} := by
  rw [rollTo, if_neg h]
  cases attempt <;> rfl

@[simp] theorem checkIn_index : (checkIn config attempt w).2.index = w.index := by
  cases attempt <;> rfl

@[simp] theorem recordIn_index : (recordIn config attempt w).index = w.index := by
  cases attempt <;> rfl

theorem checkIn_own : (checkIn config attempt w).1.own = w.owns config attempt := by
  cases attempt with
  | deviceUserCodeEntry => rfl
  | clientAuthentication clientId => exact w.clients.counter_own clientId _
  | authorizationRequest clientId => exact w.authorization.counter_own clientId _
  | clientRegistration => rfl

variable {w attempt}

/-- A check that charges the attempt's own budget decides by that budget alone. -/
theorem checkIn_decision (h : w.owns config attempt = true) :
    (checkIn config attempt w).1.decision =
      (chargeAttempt (w.budget attempt) (config.capacityOf attempt)).1 := by
  cases attempt with
  | deviceUserCodeEntry => rfl
  | clientAuthentication clientId =>
    simp only [owns] at h
    simp only [checkIn, clientCounter, Counters.counter_own, h, if_true,
      Counters.counter_budget _ _ _ h]
    rfl
  | authorizationRequest clientId =>
    simp only [checkIn, authorizationCounter, Counters.counter_budget _ _ _ h]
    rfl
  | clientRegistration => rfl

/-- A check changes the attempt's own budget, if that is the one it charges, and no other. -/
theorem checkIn_budget (other : Attempt) :
    (checkIn config attempt w).2.budget other =
      if other = attempt ∧ w.owns config attempt = true then
        (chargeAttempt (w.budget attempt) (config.capacityOf attempt)).2
      else w.budget other := by
  cases attempt with
  | deviceUserCodeEntry | clientRegistration =>
    cases other <;> simp [checkIn, budget, owns, chargeAttempt, RateLimitConfig.capacityOf]
  | clientAuthentication clientId =>
    cases other with
    | clientAuthentication other =>
      simp only [checkIn, clientCounter, budget, owns, Counters.own_counter, Counters.counter_own,
        Attempt.clientAuthentication.injEq, RateLimitConfig.capacityOf]
      split
      · rename_i h
        rw [Counters.counter_budget _ _ _ h.2, if_pos h.2]
      · rfl
    | _ => simp [checkIn, clientCounter, budget]
  | authorizationRequest clientId =>
    cases other with
    | authorizationRequest other =>
      simp only [checkIn, authorizationCounter, budget, owns, Counters.own_counter,
        Attempt.authorizationRequest.injEq, RateLimitConfig.capacityOf]
      split
      · rename_i h
        rw [Counters.counter_budget _ _ _ h.2]
      · rfl
    | _ => simp [checkIn, authorizationCounter, budget]

/-- So does the report of a failure. -/
theorem recordIn_budget (other : Attempt) :
    (recordIn config attempt w).budget other =
      if other = attempt ∧ w.owns config attempt = true then
        penaliseOn config attempt (w.budget attempt)
      else w.budget other := by
  cases attempt with
  | deviceUserCodeEntry | clientRegistration =>
    cases other <;> simp [recordIn, budget, owns, penaliseOn]
  | clientAuthentication clientId =>
    cases other with
    | clientAuthentication other =>
      simp only [recordIn, clientCounter, budget, owns, Counters.own_counter, Counters.counter_own,
        Attempt.clientAuthentication.injEq, penaliseOn]
      split
      · rename_i h
        rw [Counters.counter_budget _ _ _ h.2, if_pos h.2]
      · rfl
    | _ => simp [recordIn, clientCounter, budget]
  | authorizationRequest clientId =>
    cases other with
    | authorizationRequest other =>
      simp only [recordIn, authorizationCounter, budget, owns, Counters.own_counter,
        Attempt.authorizationRequest.injEq, penaliseOn]
      split
      · rename_i h
        rw [Counters.counter_budget _ _ _ h.2]
      · rfl
    | _ => simp [recordIn, authorizationCounter, budget]

end Window

namespace FixedWindowRateLimiter

variable (limiter : FixedWindowRateLimiter) (attempt : Attempt) (index : Nat) (w : Window)

@[simp] theorem checkSection_index : (limiter.checkSection attempt index w).2.index = index := by
  rw [checkSection, Window.checkIn_index, Window.rollTo_index]

@[simp] theorem recordSection_index : (limiter.recordSection attempt index w).index = index := by
  rw [recordSection, Window.recordIn_index, Window.rollTo_index]

end FixedWindowRateLimiter

/-! ## What a call costs -/

theorem charge_allow {counter cost : Nat} (h : (charge counter capacity cost).1 = .allow) :
    (charge counter capacity cost).2 = counter + cost ∧ cost ≤ capacity - counter := by
  unfold charge at h ⊢
  split at h
  · cases h
  · rename_i hcost
    rw [if_neg hcost]
    exact ⟨rfl, Nat.le_of_not_gt hcost⟩

theorem charge_deny {counter cost : Nat} (h : (charge counter capacity cost).1 = .deny) :
    (charge counter capacity cost).2 = counter ∧ capacity - counter < cost := by
  unfold charge at h ⊢
  split at h
  · rename_i hcost
    rw [if_pos hcost]
    exact ⟨rfl, hcost⟩
  · cases h

/-- An allowed attempt is paid for, out of what the failures left. -/
theorem chargeAttempt_allow {b : ClientBudget} (h : (chargeAttempt b capacity).1 = .allow) :
    (chargeAttempt b capacity).2 = { b with attempts := b.attempts + 1 } ∧
      b.attempts + 1 + b.failures ≤ capacity := by
  obtain ⟨hcounter, hcost⟩ := charge_allow h
  refine ⟨?_, ?_⟩
  · simp only [chargeAttempt, hcounter]
    rfl
  · simp only [attemptCost] at hcost
    omega

/-- A refused attempt costs nothing, and the budget is spent. -/
theorem chargeAttempt_deny {b : ClientBudget} (h : (chargeAttempt b capacity).1 = .deny) :
    (chargeAttempt b capacity).2 = b ∧ capacity ≤ b.attempts + b.failures := by
  obtain ⟨hcounter, hcost⟩ := charge_deny h
  refine ⟨?_, ?_⟩
  · simp only [chargeAttempt, hcounter]
  · simp only [attemptCost] at hcost
    omega

theorem le_penalise {counter : Nat} (h : counter ≤ capacity) (cost : Nat) :
    counter ≤ penalise counter capacity cost :=
  Nat.le_min.mpr ⟨Nat.le_add_right _ _, h⟩

theorem penalise_le (counter capacity cost : Nat) : penalise counter capacity cost ≤ capacity :=
  Nat.min_le_right _ _

end Limiter

end OauthAs
