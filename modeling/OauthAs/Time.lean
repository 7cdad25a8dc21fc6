-- SUMMARY: Instants, durations and deadlines that saturate at the platform's last instant.
import Mathlib.Algebra.GroupWithZero.Nat

/-!
# Time

Instants are nanoseconds relative to the Unix epoch and durations are nanoseconds. A platform has
a last representable instant, its ceiling: adding past it fails, and `saturatingDeadline` then
approaches it by halving.
-/

namespace OauthAs

/-- Nanoseconds relative to the Unix epoch; instants before the epoch are negative. -/
abbrev SystemTime := Int

/-- Nanoseconds. -/
abbrev Duration := Nat

def unixEpoch : SystemTime := 0

def Duration.fromSecs (n : Nat) : Duration := n * 1000000000

/-- The longest duration: all seconds of a 64-bit counter and the last nanosecond. -/
def Duration.max : Duration := (2 ^ 64 - 1) * 1000000000 + 999999999

def Duration.saturatingAdd (a b : Duration) : Duration := min (a + b) Duration.max

/-- Whole seconds of a duration. -/
def Duration.asSecs (d : Duration) : Nat := d / 1000000000

/-- `t + d`, unless that is past the platform's last instant. -/
def SystemTime.checkedAdd (ceiling t : SystemTime) (d : Duration) : Option SystemTime :=
  if t + d ≤ ceiling then some (t + d) else none

/-- The time elapsed from `earlier` to `t`; absent when `earlier` is the later one. -/
def SystemTime.durationSince (t earlier : SystemTime) : Option Duration :=
  if earlier ≤ t then some (t - earlier).toNat else none

/-- Seconds since the epoch, absent for an instant before it. -/
def unixSeconds (t : SystemTime) : Option Nat :=
  (t.durationSince unixEpoch).map Duration.asSecs

/-- The loop of `saturatingDeadline`: halve the span until it is at most a second, adding every
half that fits. The span itself bounds the number of halvings. -/
def halveUntilFits (ceiling : SystemTime) : Nat → Duration → SystemTime → SystemTime
  | 0, _, out => out
  | fuel + 1, span, out =>
    if span > Duration.fromSecs 1 then
      let span := span / 2
      match SystemTime.checkedAdd ceiling out span with
      | some next => halveUntilFits ceiling fuel span next
      | none => halveUntilFits ceiling fuel span out
    else out

/-- `base + span`, saturating instead of failing. -/
def saturatingDeadline (ceiling base : SystemTime) (span : Duration) : SystemTime :=
  match SystemTime.checkedAdd ceiling base span with
  | some exact => exact
  | none => halveUntilFits ceiling span span base

theorem checkedAdd_eq_some {ceiling t u : SystemTime} {d : Duration} :
    SystemTime.checkedAdd ceiling t d = some u ↔ t + d ≤ ceiling ∧ t + d = u := by
  simp [SystemTime.checkedAdd]

/-- A run of the loop that makes `n` halvings, each while the span is over a second. -/
inductive Halves (ceiling : SystemTime) : (n : Nat) → Duration → (out result : SystemTime) → Prop
  | done {span : Duration} {out : SystemTime} (h : span ≤ Duration.fromSecs 1) :
      Halves ceiling 0 span out out
  | halve {n : Nat} {span : Duration} {out result : SystemTime} (h : Duration.fromSecs 1 < span)
      (rest : Halves ceiling n (span / 2)
        ((SystemTime.checkedAdd ceiling out (span / 2)).getD out) result) :
      Halves ceiling (n + 1) span out result

/-- The loop ends: the span bounds the number of its halvings. -/
theorem halves_halveUntilFits (ceiling : SystemTime) {fuel : Nat} {span : Duration}
    (h : span ≤ fuel) (out : SystemTime) :
    ∃ n, Halves ceiling n span out (halveUntilFits ceiling fuel span out) := by
  induction fuel generalizing span out with
  | zero => exact ⟨0, .done (Nat.le_trans h (Nat.zero_le _))⟩
  | succ fuel ih =>
    simp only [halveUntilFits]
    split
    · rename_i hlong
      have hhalf : span / 2 ≤ fuel := by
        have : 0 < span := Nat.zero_lt_of_lt hlong
        lia
      obtain ⟨n, hn⟩ := ih hhalf ((SystemTime.checkedAdd ceiling out (span / 2)).getD out)
      refine ⟨n + 1, .halve hlong ?_⟩
      revert hn
      cases SystemTime.checkedAdd ceiling out (span / 2) <;> exact id
    · rename_i hshort
      exact ⟨0, .done (Nat.le_of_not_lt hshort)⟩

namespace Halves

variable {ceiling : SystemTime} {n : Nat} {span : Duration} {out result : SystemTime}

theorem le (h : Halves ceiling n span out result) : out ≤ result := by
  induction h with
  | done => exact Int.le_refl _
  | @halve _ span out _ _ _ ih =>
    refine Int.le_trans ?_ ih
    unfold SystemTime.checkedAdd
    split
    · exact Int.le_add_of_nonneg_right (Int.natCast_nonneg _)
    · exact Int.le_refl _

/-- Before each halving the ceiling is no further away than the span, but for the nanoseconds that
the halvings so far have rounded off. -/
theorem near (h : Halves ceiling n span out result) {lost : Nat} (hout : out ≤ ceiling)
    (hgap : ceiling ≤ out + span + lost) :
    result ≤ ceiling ∧ ceiling ≤ result + Duration.fromSecs 1 + (lost + n) := by
  induction h generalizing lost with
  | done hshort => exact ⟨hout, by lia⟩
  | @halve n span out result _ _ ih =>
    have hstep : (SystemTime.checkedAdd ceiling out (span / 2)).getD out ≤ ceiling ∧
        ceiling ≤ (SystemTime.checkedAdd ceiling out (span / 2)).getD out + (span / 2 : Nat) +
          (lost + 1 : Nat) := by
      unfold SystemTime.checkedAdd
      split
      · exact ⟨‹_›, by simp only [Option.getD_some]; lia⟩
      · exact ⟨hout, by simp only [Option.getD_none]; lia⟩
    obtain ⟨hle, hnear⟩ := ih hstep.1 hstep.2
    exact ⟨hle, by lia⟩

end Halves

/-- A deadline that is representable is exact. -/
theorem saturatingDeadline_of_le {ceiling base : SystemTime} {span : Duration}
    (h : base + span ≤ ceiling) : saturatingDeadline ceiling base span = base + span := by
  simp [saturatingDeadline, SystemTime.checkedAdd, h]

/-- A deadline is never before the instant it is counted from. -/
theorem le_saturatingDeadline (ceiling base : SystemTime) (span : Duration) :
    base ≤ saturatingDeadline ceiling base span := by
  unfold saturatingDeadline
  split
  · rename_i exact hexact
    obtain ⟨-, rfl⟩ := checkedAdd_eq_some.mp hexact
    lia
  · obtain ⟨n, hn⟩ := halves_halveUntilFits ceiling (Nat.le_refl span) base
    exact hn.le

/-- A deadline is exact, or misses the platform's last instant by at most a second and the
nanoseconds rounded off on the way. -/
theorem saturatingDeadline_near {ceiling base : SystemTime} (span : Duration)
    (hbase : base ≤ ceiling) :
    base ≤ saturatingDeadline ceiling base span ∧
    (base + span ≤ ceiling → saturatingDeadline ceiling base span = base + span) ∧
    (ceiling < base + span → ∃ n, Halves ceiling n span base (saturatingDeadline ceiling base span) ∧
      saturatingDeadline ceiling base span ≤ ceiling ∧
      ceiling ≤ saturatingDeadline ceiling base span + (Duration.fromSecs 1 + n : Nat)) := by
  refine ⟨le_saturatingDeadline .., saturatingDeadline_of_le, fun hpast => ?_⟩
  have hloop : saturatingDeadline ceiling base span = halveUntilFits ceiling span span base := by
    simp [saturatingDeadline, SystemTime.checkedAdd, Int.not_le.mpr hpast]
  obtain ⟨n, hn⟩ := halves_halveUntilFits ceiling (Nat.le_refl span) base
  obtain ⟨hle, hnear⟩ := hn.near hbase (show ceiling ≤ base + span + (0 : Nat) by lia)
  rw [hloop]
  exact ⟨n, hn, hle, by lia⟩

/-- A span two nanoseconds too long, five seconds before the last instant. -/
theorem saturatingDeadline_near_five : ∃ n, Halves 5000000000 n 5000000002 0
    (saturatingDeadline 5000000000 0 5000000002) ∧
    saturatingDeadline 5000000000 0 5000000002 ≤ 5000000000 ∧
    5000000000 ≤ saturatingDeadline 5000000000 0 5000000002 + (Duration.fromSecs 1 + n : Nat) :=
  (saturatingDeadline_near 5000000002 (by decide)).2.2 (by decide)

theorem unixSeconds_eq_none {t : SystemTime} : unixSeconds t = none ↔ t < unixEpoch := by
  simp [unixSeconds, SystemTime.durationSince, unixEpoch]

end OauthAs
