-- SUMMARY: Internet addresses, their ranges, and the dotted spelling of a version 4 address.
import Mathlib.Algebra.GroupWithZero.Nat

/-!
# Internet addresses

Addresses of both versions by their pieces and as one number, ranges of addresses that share their
leading bits, and the one spelling of a version 4 address that leaves nothing to interpret: four
decimal numerals without leading zeros.
-/

namespace OauthAs

namespace Net

structure Ipv4 where
  a : UInt8
  b : UInt8
  c : UInt8
  d : UInt8
deriving DecidableEq, Repr

/-- The eight segments of a version 6 address. -/
structure Ipv6 where
  s₀ : UInt16
  s₁ : UInt16
  s₂ : UInt16
  s₃ : UInt16
  s₄ : UInt16
  s₅ : UInt16
  s₆ : UInt16
  s₇ : UInt16
deriving DecidableEq, Repr

def Ipv4.toNat (x : Ipv4) : Nat :=
  x.a.toNat * 2 ^ 24 + x.b.toNat * 2 ^ 16 + x.c.toNat * 2 ^ 8 + x.d.toNat

def Ipv6.toNat (x : Ipv6) : Nat :=
  x.s₀.toNat * 2 ^ 112 + x.s₁.toNat * 2 ^ 96 + x.s₂.toNat * 2 ^ 80 + x.s₃.toNat * 2 ^ 64 +
    x.s₄.toNat * 2 ^ 48 + x.s₅.toNat * 2 ^ 32 + x.s₆.toNat * 2 ^ 16 + x.s₇.toNat

theorem Ipv4.toNat_lt (x : Ipv4) : x.a.toNat < 2 ^ 8 ∧ x.b.toNat < 2 ^ 8 ∧ x.c.toNat < 2 ^ 8 ∧
    x.d.toNat < 2 ^ 8 :=
  ⟨x.a.toNat_lt, x.b.toNat_lt, x.c.toNat_lt, x.d.toNat_lt⟩

theorem Ipv6.toNat_lt (x : Ipv6) : x.s₀.toNat < 2 ^ 16 ∧ x.s₁.toNat < 2 ^ 16 ∧
    x.s₂.toNat < 2 ^ 16 ∧ x.s₃.toNat < 2 ^ 16 ∧ x.s₄.toNat < 2 ^ 16 ∧ x.s₅.toNat < 2 ^ 16 ∧
    x.s₆.toNat < 2 ^ 16 ∧ x.s₇.toNat < 2 ^ 16 :=
  ⟨x.s₀.toNat_lt, x.s₁.toNat_lt, x.s₂.toNat_lt, x.s₃.toNat_lt, x.s₄.toNat_lt, x.s₅.toNat_lt,
    x.s₆.toNat_lt, x.s₇.toNat_lt⟩

/-- The addresses that share their first `length` bits with `base`. -/
structure Range where
  width : Nat
  base : Nat
  length : Nat
deriving DecidableEq, Repr

def Range.Contains (r : Range) (address : Nat) : Prop :=
  address / 2 ^ (r.width - r.length) = r.base / 2 ^ (r.width - r.length)

instance Range.decidableContains (r : Range) (address : Nat) : Decidable (r.Contains address) :=
  inferInstanceAs (Decidable (_ = _))

/-- An address in a range is in every range around it. -/
theorem Range.Contains.widen {r : Range} {address length : Nat} (h : r.Contains address)
    (hlength : length ≤ r.length) (hwidth : r.length ≤ r.width) :
    Range.Contains { r with length } address := by
  have hpow : 2 ^ (r.width - length) = 2 ^ (r.width - r.length) * 2 ^ (r.length - length) := by
    rw [← Nat.pow_add]
    congr 1
    omega
  unfold Contains at h ⊢
  dsimp only
  rw [hpow, ← Nat.div_div_eq_div_mul, ← Nat.div_div_eq_div_mul, h]

/-- A range of version 4 addresses, by the first of them. -/
def v4Range (a b c d : UInt8) (length : Nat) : Range := ⟨32, (Ipv4.mk a b c d).toNat, length⟩

/-- A range of version 6 addresses, by the first segments of the first of them. -/
def v6Range (s₀ s₁ : UInt16) (length : Nat) : Range :=
  ⟨128, (Ipv6.mk s₀ s₁ 0 0 0 0 0 0).toNat, length⟩

/-! ## The dotted spelling -/

/-- The value of a decimal numeral. -/
def decimalValue (digits : List Char) : Nat := digits.foldl (fun n c => 10 * n + (c.toNat - 48)) 0

/-- A numeral of at most three digits, without leading zeros, that fits an octet. -/
def octet (digits : List Char) : Option UInt8 :=
  if digits ≠ [] ∧ digits.length ≤ 3 ∧ digits.all Char.isDigit ∧
      (digits.head? = some '0' → digits.length = 1) ∧ decimalValue digits < 256 then
    some (UInt8.ofNat (decimalValue digits))
  else none

namespace Ipv4

def fromStr (text : List Char) : Option Ipv4 :=
  match text.splitOn '.' with
  | [a, b, c, d] => do
    return ⟨← octet a, ← octet b, ← octet c, ← octet d⟩
  | _ => none

def display (x : Ipv4) : List Char :=
  ['.'].intercalate ([x.a, x.b, x.c, x.d].map fun n => Nat.toDigits 10 n.toNat)

end Ipv4

theorem octet_toDigits (n : UInt8) : octet (Nat.toDigits 10 n.toNat) = some n := by
  have hall : ∀ n < 256, octet (Nat.toDigits 10 n) = some (UInt8.ofNat n) := by decide +kernel
  rw [hall n.toNat n.toNat_lt, UInt8.ofNat_toNat]

theorem dot_not_mem_toDigits (n : UInt8) : '.' ∉ Nat.toDigits 10 n.toNat := by
  have hall : ∀ n < 256, '.' ∉ Nat.toDigits 10 n := by decide +kernel
  exact hall n.toNat n.toNat_lt

theorem Ipv4.fromStr_display (x : Ipv4) : fromStr x.display = some x := by
  have hsplit : x.display.splitOn '.' = [x.a, x.b, x.c, x.d].map fun n => Nat.toDigits 10 n.toNat := by
    refine List.splitOn_intercalate '.' ?_ (by simp)
    intro digits hdigits
    obtain ⟨n, -, rfl⟩ := List.mem_map.mp hdigits
    exact dot_not_mem_toDigits n
  simp [fromStr, hsplit, octet_toDigits]

theorem octet_eq_some {digits : List Char} {n : UInt8} (h : octet digits = some n) :
    digits ≠ [] ∧ (∀ c ∈ digits, c.isDigit = true) ∧
      (digits.head? = some '0' → digits.length = 1) ∧ decimalValue digits = n.toNat := by
  unfold octet at h
  split at h
  · rename_i hdigits
    obtain ⟨hne, -, hall, hzero, hlt⟩ := hdigits
    cases h
    refine ⟨hne, List.all_eq_true.mp hall, hzero, ?_⟩
    exact (UInt8.toNat_ofNat_of_lt' hlt).symm
  · cases h

end Net

end OauthAs
