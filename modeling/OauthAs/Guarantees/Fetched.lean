-- SUMMARY: The host that a client identifier URL is fetched from is the host that was checked.
import OauthAs.Cimd
import OauthAs.Error
import OauthAs.Lib.UrlHost
import Mathlib.Data.List.TakeWhile
import Mathlib.Tactic.IntervalCases

/-!
# The host of a client identifier

Two parsers read a client identifier: the checks here and the URL parser of whoever fetches the
document. The checks refuse every character that the two would read differently, so both take the
same piece of text for the host, and a host that the URL parser reads as an address is one that the
checks read as the same address.
-/

namespace OauthAs

open Net

variable {last : List Char}

/-! ## The ranges that are for special use -/

def v4Loopback : Range := v4Range 127 0 0 0 8

def v4SpecialUse : List Range :=
  [v4Range 0 0 0 0 8, v4Range 10 0 0 0 8, v4Range 172 16 0 0 12, v4Range 192 168 0 0 16,
    v4Range 100 64 0 0 10, v4Range 169 254 0 0 16, v4Range 192 0 0 0 24, v4Range 192 0 2 0 24,
    v4Range 198 51 100 0 24, v4Range 203 0 113 0 24, v4Range 192 88 99 0 24, v4Range 198 18 0 0 15,
    v4Range 224 0 0 0 4, v4Range 240 0 0 0 4]

def v6Loopback : Range := ⟨128, 1, 128⟩

/-- Version 4 addresses in version 6 form. -/
def v4Mapped : Range := ⟨128, 0xffff * 2 ^ 32, 96⟩

def v4Compatible : Range := ⟨128, 0, 96⟩

def v6SpecialUse : List Range :=
  [v6Range 0 0 8, v6Range 0x64 0xff9b 96, v6Range 0x100 0 64, v6Range 0x2001 0 23,
    v6Range 0x2001 0xdb8 32, v6Range 0x2002 0 16, v6Range 0xfc00 0 7, v6Range 0xfe80 0 10,
    v6Range 0xff00 0 8]

def OutsideV4 (allowLoopback : Bool) (address : Nat) : Prop :=
  (∀ r ∈ v4SpecialUse, ¬ r.Contains address) ∧
    (v4Loopback.Contains address → allowLoopback = true)

/-- An embedded version 4 address is judged as itself. -/
def OutsideV6 (allowLoopback : Bool) (address : Nat) : Prop :=
  if v6Loopback.Contains address then allowLoopback = true
  else if v4Mapped.Contains address ∨ v4Compatible.Contains address then
    OutsideV4 allowLoopback (address % 2 ^ 32)
  else ∀ r ∈ v6SpecialUse, ¬ r.Contains address

/-- A host that is no special-use address; loopback is one unless it is allowed. -/
def OutsideSpecialUse (allowLoopback : Bool) : Url.Host → Prop
  | .domain _ => True
  | .ipv4 address => OutsideV4 allowLoopback address
  | .ipv6 address => OutsideV6 allowLoopback address.toNat

section Version4
variable {x : Ipv4} {a b c : UInt8}

/-- A range that ends inside the first octet. -/
theorem contains_v4_4 (h : (v4Range a 0 0 0 4).Contains x.toNat) :
    x.a.toNat / 16 = a.toNat / 16 := by
  have hx := x.toNat_lt
  simp only [Range.Contains, v4Range, Ipv4.toNat, UInt8.toNat_zero, Nat.reducePow,
    Nat.reduceSub] at h
  omega

/-- A range that ends inside the second octet. -/
theorem contains_v4_second {k : Nat} (hk : k ≤ 8)
    (h : (v4Range a b 0 0 (8 + k)).Contains x.toNat) :
    x.a = a ∧ x.b.toNat / 2 ^ (8 - k) = b.toNat / 2 ^ (8 - k) := by
  have hx := x.toNat_lt
  have hb' := b.toNat_lt
  rw [← UInt8.toNat_inj]
  simp only [Range.Contains, v4Range, Ipv4.toNat, UInt8.toNat_zero] at h
  interval_cases k <;>
  · simp only [Nat.reducePow, Nat.reduceSub, Nat.reduceAdd] at h ⊢
    omega

theorem contains_v4_24 (h : (v4Range a b c 0 24).Contains x.toNat) :
    x.a = a ∧ x.b = b ∧ x.c = c := by
  have hx := x.toNat_lt
  have hb' := b.toNat_lt
  have hc' := c.toNat_lt
  rw [← UInt8.toNat_inj, ← UInt8.toNat_inj, ← UInt8.toNat_inj]
  simp only [Range.Contains, v4Range, Ipv4.toNat, UInt8.toNat_zero, Nat.reducePow,
    Nat.reduceSub] at h
  omega

theorem contains_v4_16 (h : (v4Range a b 0 0 16).Contains x.toNat) : x.a = a ∧ x.b = b := by
  obtain ⟨ha, hb⟩ := contains_v4_second (k := 8) (Nat.le_refl 8) h
  refine ⟨ha, UInt8.toNat_inj.mp ?_⟩
  simpa using hb

theorem special_of_contains_v4 {r : Range} (hr : r ∈ v4SpecialUse) (h : r.Contains x.toNat)
    (allowLoopback : Bool) : isSpecialUseV4 x allowLoopback = true := by
  have high : 14 ≤ x.a.toNat / 16 → isSpecialUseV4 x allowLoopback = true := by
    intro hlead
    have ha : x.a ≠ 127 ∧ 224 ≤ x.a := by
      rw [ne_eq, ← UInt8.toNat_inj, UInt8.le_iff_toNat_le]
      simp only [UInt8.reduceToNat]
      omega
    simp [isSpecialUseV4, ha]
  have lead : ∀ {a : UInt8}, (v4Range a 0 0 0 8).Contains x.toNat → x.a = a := fun h =>
    (contains_v4_second (k := 0) (Nat.zero_le 8) h).1
  simp only [v4SpecialUse, List.mem_cons, List.not_mem_nil, or_false] at hr
  rcases hr with rfl | rfl | rfl | rfl | rfl | rfl | rfl | rfl | rfl | rfl | rfl | rfl | rfl | rfl
  · simp [isSpecialUseV4, lead h]
  · simp [isSpecialUseV4, lead h]
  · obtain ⟨ha, hb⟩ := contains_v4_second (k := 4) (by decide) h
    have hb : 16 ≤ x.b ∧ x.b ≤ 31 := by
      simp only [UInt8.le_iff_toNat_le, UInt8.reduceToNat, Nat.reducePow, Nat.reduceSub] at hb ⊢
      omega
    simp [isSpecialUseV4, ha, hb]
  · simp [isSpecialUseV4, contains_v4_16 h]
  · obtain ⟨ha, hb⟩ := contains_v4_second (k := 2) (by decide) h
    have hb : 64 ≤ x.b ∧ x.b ≤ 127 := by
      simp only [UInt8.le_iff_toNat_le, UInt8.reduceToNat, Nat.reducePow, Nat.reduceSub] at hb ⊢
      omega
    simp [isSpecialUseV4, ha, hb]
  · simp [isSpecialUseV4, contains_v4_16 h]
  · simp [isSpecialUseV4, contains_v4_24 h]
  · simp [isSpecialUseV4, contains_v4_24 h]
  · simp [isSpecialUseV4, contains_v4_24 h]
  · simp [isSpecialUseV4, contains_v4_24 h]
  · simp [isSpecialUseV4, contains_v4_24 h]
  · obtain ⟨ha, hb⟩ := contains_v4_second (k := 7) (by decide) h
    have hb : x.b = 18 ∨ x.b = 19 := by
      simp only [← UInt8.toNat_inj, UInt8.reduceToNat, Nat.reducePow, Nat.reduceSub] at hb ⊢
      omega
    simp [isSpecialUseV4, ha, hb]
  · exact high (contains_v4_4 h).symm.le
  · exact high ((by decide : 14 ≤ 240 / 16).trans (contains_v4_4 h).symm.le)

theorem outsideV4_of_not_special {allowLoopback : Bool}
    (h : isSpecialUseV4 x allowLoopback = false) : OutsideV4 allowLoopback x.toNat := by
  refine ⟨fun r hr hcontains => ?_, fun hcontains => ?_⟩
  · rw [special_of_contains_v4 hr hcontains] at h
    cases h
  · have ha := (contains_v4_second (k := 0) (Nat.zero_le 8) hcontains).1
    simpa [isSpecialUseV4, ha] using h

end Version4

section Version6
variable {x : Ipv6} {length : Nat}

theorem embedsV4_iff : embedsV4 x = true ↔
    v4Mapped.Contains x.toNat ∨ v4Compatible.Contains x.toNat := by
  have hx := x.toNat_lt
  simp only [embedsV4, Bool.and_eq_true, Bool.or_eq_true, beq_iff_eq, ← UInt16.toNat_inj,
    Range.Contains, v4Mapped, v4Compatible, Ipv6.toNat, UInt16.reduceToNat, Nat.reducePow,
    Nat.reduceSub, Nat.reduceMul, Nat.reduceDiv]
  omega

theorem toNat_high (s : UInt16) : (s >>> 8).toUInt8.toNat = s.toNat / 256 := by
  have h := s.toNat_lt
  rw [UInt16.toNat_toUInt8, UInt16.toNat_shiftRight, Nat.shiftRight_eq_div_pow]
  change s.toNat / 2 ^ 8 % 2 ^ 8 = _
  omega

theorem toNat_low (s : UInt16) : (s &&& 0xff).toUInt8.toNat = s.toNat % 256 := by
  have hmask : s.toNat &&& (2 ^ 8 - 1) = s.toNat % 2 ^ 8 := Nat.and_two_pow_sub_one_eq_mod _ _
  rw [UInt16.toNat_toUInt8, UInt16.toNat_and]
  change (s.toNat &&& (2 ^ 8 - 1)) % 2 ^ 8 = _
  omega

theorem embeddedV4_toNat : (embeddedV4 x).toNat = x.toNat % 2 ^ 32 := by
  have hx := x.toNat_lt
  simp only [embeddedV4, Ipv4.toNat, Ipv6.toNat, toNat_high, toNat_low]
  omega

theorem contains_v6Loopback : v6Loopback.Contains x.toNat ↔ x = localhostV6 := by
  constructor
  · intro h
    simp only [Range.Contains, v6Loopback, Ipv6.toNat, Nat.reducePow, Nat.reduceSub, Nat.div_one] at h
    have hzero : ∀ s : UInt16, s.toNat = 0 → s = 0 := fun s hs => UInt16.toNat_inj.mp hs
    have hone : ∀ s : UInt16, s.toNat = 1 → s = 1 := fun s hs => UInt16.toNat_inj.mp hs
    obtain ⟨s₀, s₁, s₂, s₃, s₄, s₅, s₆, s₇⟩ := x
    dsimp only at h
    rw [hzero s₀ (by omega), hzero s₁ (by omega), hzero s₂ (by omega), hzero s₃ (by omega),
      hzero s₄ (by omega), hzero s₅ (by omega), hzero s₆ (by omega), hone s₇ (by omega)]
    rfl
  · rintro rfl
    decide

/-- The two leading segments of an address in a range, as far as the range fixes them. -/
theorem contains_v6 {s₀ s₁ : UInt16} (hlength : length ≤ 32)
    (h : (v6Range s₀ s₁ length).Contains x.toNat) :
    (x.s₀.toNat * 2 ^ 16 + x.s₁.toNat) / 2 ^ (32 - length) =
      (s₀.toNat * 2 ^ 16 + s₁.toNat) / 2 ^ (32 - length) := by
  have hpow : 2 ^ (128 - length) = 2 ^ 96 * 2 ^ (32 - length) := by
    rw [← Nat.pow_add]
    congr 1
    omega
  have hlead : ∀ y : Ipv6, y.toNat / 2 ^ 96 = y.s₀.toNat * 2 ^ 16 + y.s₁.toNat := by
    intro y
    have hy := y.toNat_lt
    unfold Ipv6.toNat
    omega
  unfold Range.Contains v6Range at h
  dsimp only at h
  rwa [hpow, ← Nat.div_div_eq_div_mul, ← Nat.div_div_eq_div_mul, hlead, hlead] at h

/-- A range that ends inside the first segment. -/
theorem high_of_contains {s₀ : UInt16} (hlength : length ≤ 16)
    (h : (v6Range s₀ 0 length).Contains x.toNat) :
    x.s₀.toNat / 2 ^ (16 - length) = s₀.toNat / 2 ^ (16 - length) := by
  have hpow : 2 ^ (32 - length) = 2 ^ 16 * 2 ^ (16 - length) := by
    rw [← Nat.pow_add]
    congr 1
    omega
  have hfirst : ∀ a b : UInt16, (a.toNat * 2 ^ 16 + b.toNat) / 2 ^ 16 = a.toNat := by
    intro a b
    have hb := b.toNat_lt
    omega
  have hbits := contains_v6 (Nat.le_trans hlength (by decide)) h
  rwa [hpow, ← Nat.div_div_eq_div_mul, ← Nat.div_div_eq_div_mul, hfirst, hfirst] at hbits

/-- A range that ends after the first segment. -/
theorem lead_of_contains {s₀ s₁ : UInt16} (hlead : 16 ≤ length) (hlength : length ≤ 128)
    (h : (v6Range s₀ s₁ length).Contains x.toNat) : x.s₀ = s₀ := by
  have hbits := contains_v6 (by decide) (h.widen hlead hlength : (v6Range s₀ s₁ 16).Contains x.toNat)
  have h₁ := x.s₁.toNat_lt
  have h₁' := s₁.toNat_lt
  refine UInt16.toNat_inj.mp ?_
  omega

/-- The leading segments that a listed range has and the checks do not. -/
def Net.Ipv6.IsReservedLead (x : Ipv6) : Prop := 0 < x.s₀ ∧ x.s₀ < 0x100 ∧ x.s₀ ≠ 0x64

theorem special_of_high (h : (x.s₀ &&& 0xfe00) = 0xfc00 ∨ (x.s₀ &&& 0xffc0) = 0xfe80 ∨
    (x.s₀ >>> 8) = 0xff) : isSpecialUseLead x = true := by
  have hne : x.s₀ ≠ 0x0100 ∧ x.s₀ ≠ 0x2001 := by
    constructor <;>
    · intro hs
      rw [hs] at h
      revert h
      decide
  unfold isSpecialUseLead
  rw [if_neg hne.1, if_neg hne.2]
  split
  · rfl
  · split
    · rfl
    · split
      · rfl
      · simpa [or_assoc] using h

theorem special_of_contains_v6 {r : Range} (hr : r ∈ v6SpecialUse) (h : r.Contains x.toNat)
    (hlead : ¬ x.IsReservedLead) : isSpecialUseLead x = true := by
  have hx := x.toNat_lt
  have hrest : ∀ n, x.s₀.toNat / n * n + x.s₀.toNat % n = x.s₀.toNat := fun n => by
    rw [Nat.mul_comm, Nat.div_add_mod]
  have hofNat : ∀ {n}, x.s₀.toNat = n → x.s₀ = UInt16.ofNat n := fun h => by
    rw [← h, UInt16.ofNat_toNat]
  simp only [v6SpecialUse, List.mem_cons, List.not_mem_nil, or_false] at hr
  rcases hr with rfl | rfl | rfl | rfl | rfl | rfl | rfl | rfl | rfl
  · have hhigh := high_of_contains (by decide) h
    have hs₀ : x.s₀ = 0 ∨ x.s₀ = 0x64 := by
      simp only [Ipv6.IsReservedLead, UInt16.lt_iff_toNat_lt, ne_eq, ← UInt16.toNat_inj,
        UInt16.reduceToNat, Nat.reducePow, Nat.reduceSub, Nat.reduceDiv] at hhigh hlead ⊢
      omega
    rcases hs₀ with hs₀ | hs₀ <;> simp [isSpecialUseLead, hs₀]
  · simp [isSpecialUseLead, lead_of_contains (by decide) (by decide) h]
  · have hs₀ := lead_of_contains (by decide) (by decide) h
    have hs : x.s₁ = 0 ∧ x.s₂ = 0 ∧ x.s₃ = 0 := by
      simp only [Range.Contains, v6Range, Ipv6.toNat, hs₀, ← UInt16.toNat_inj, UInt16.reduceToNat,
        Nat.reducePow, Nat.reduceSub, Nat.reduceMul, Nat.reduceAdd, Nat.reduceDiv] at h ⊢
      omega
    simp [isSpecialUseLead, hs₀, hs]
  · have hs₀ := lead_of_contains (by decide) (by decide) h
    have hs₁ : x.s₁ < 0x200 := by
      have hbits := contains_v6 (by decide) h
      simp only [hs₀, UInt16.lt_iff_toNat_lt, UInt16.reduceToNat, Nat.reducePow, Nat.reduceSub,
        Nat.reduceMul, Nat.reduceAdd, Nat.reduceDiv] at hbits ⊢
      omega
    simp [isSpecialUseLead, hs₀, hs₁]
  · have hs₀ := lead_of_contains (by decide) (by decide) h
    have hs₁ : x.s₁ = 0xdb8 := by
      have hbits := contains_v6 (by decide) h
      simp only [hs₀, ← UInt16.toNat_inj, UInt16.reduceToNat, Nat.reducePow, Nat.reduceSub,
        Nat.reduceMul, Nat.reduceAdd, Nat.reduceDiv] at hbits ⊢
      omega
    simp [isSpecialUseLead, hs₀, hs₁]
  · simp [isSpecialUseLead, lead_of_contains (by decide) (by decide) h]
  · have hhigh := high_of_contains (by decide) h
    have hmask : ∀ r < 512, (UInt16.ofNat (126 * 512 + r) &&& 0xfe00) = 0xfc00 := by decide +kernel
    refine special_of_high (.inl ?_)
    rw [hofNat (hrest 512).symm, show x.s₀.toNat / 512 = 126 from hhigh]
    exact hmask _ (Nat.mod_lt _ (by decide))
  · have hhigh := high_of_contains (by decide) h
    have hmask : ∀ r < 64, (UInt16.ofNat (1018 * 64 + r) &&& 0xffc0) = 0xfe80 := by decide +kernel
    refine special_of_high (.inr (.inl ?_))
    rw [hofNat (hrest 64).symm, show x.s₀.toNat / 64 = 1018 from hhigh]
    exact hmask _ (Nat.mod_lt _ (by decide))
  · have hhigh := high_of_contains (by decide) h
    have hmask : ∀ r < 256, (UInt16.ofNat (255 * 256 + r) >>> 8) = 0xff := by decide +kernel
    refine special_of_high (.inr (.inr ?_))
    rw [hofNat (hrest 256).symm, show x.s₀.toNat / 256 = 255 from hhigh]
    exact hmask _ (Nat.mod_lt _ (by decide))

theorem contains_of_isReservedLead (h : x.IsReservedLead) : (v6Range 0 0 8).Contains x.toNat := by
  have hs₀ : x.s₀.toNat < 256 := UInt16.lt_iff_toNat_lt.mp h.2.1
  have hx := x.toNat_lt
  simp only [Range.Contains, v6Range, Ipv6.toNat, UInt16.reduceToNat, Nat.reducePow, Nat.reduceSub,
    Nat.reduceMul, Nat.reduceAdd, Nat.reduceDiv]
  omega

theorem not_isReservedLead_of_zero (h : x.s₀ = 0) : ¬ x.IsReservedLead := by
  intro hlead
  rw [Ipv6.IsReservedLead, h] at hlead
  exact absurd hlead.1 (by decide)

/-- What the checks let pass is outside the listed ranges, but for one lead. -/
theorem outsideV6_iff {readV6 : List Char → Option Ipv6} {host : List Char} {allowLoopback : Bool}
    (hdotted : Ipv4.fromStr host = none) (hread : readV6 host = some x)
    (h : isSpecialUseLiteral readV6 host allowLoopback = false) :
    OutsideV6 allowLoopback x.toNat ↔ ¬ x.IsReservedLead := by
  unfold isSpecialUseLiteral at h
  simp only [specialUseDotted, hdotted, hread, Option.map_none, Option.getD_none,
    Ipv4.fromStr_display, Option.map_some, Option.getD_some] at h
  unfold OutsideV6
  by_cases hlocal : x = localhostV6
  · rw [if_pos (contains_v6Loopback.mpr hlocal)]
    rw [if_pos hlocal] at h
    refine iff_of_true (by simpa using h) (not_isReservedLead_of_zero (by rw [hlocal]; rfl))
  rw [if_neg (mt contains_v6Loopback.mp hlocal)]
  rw [if_neg hlocal] at h
  by_cases hembeds : embedsV4 x = true
  · rw [if_pos (embedsV4_iff.mp hembeds), ← embeddedV4_toNat]
    rw [if_pos hembeds] at h
    have hs₀ : x.s₀ = 0 := by
      simp only [embedsV4, Bool.and_eq_true, beq_iff_eq] at hembeds
      exact hembeds.1.1.1.1.1
    exact iff_of_true (outsideV4_of_not_special h) (not_isReservedLead_of_zero hs₀)
  · rw [if_neg (mt embedsV4_iff.mpr hembeds)]
    rw [if_neg hembeds] at h
    constructor
    · intro houtside hlead
      exact houtside _ List.mem_cons_self (contains_of_isReservedLead hlead)
    · intro hlead r hr hcontains
      rw [special_of_contains_v6 hr hcontains hlead] at h
      cases h

end Version6

/-! ## The text of the host -/

/-- The authority that the checks look at. -/
def ClientIdUrl.authority (raw : String) : List Char :=
  (raw.toList.drop "https://".length).takeWhile fun c => c != '/' && c != '?'

/-- What is known of an identifier that passed. -/
structure ClientIdUrl.Passed (readV6 : List Char → Option Ipv6) (policy : CimdPolicy) (raw : String)
    (host : List Char) : Prop where
  visible : ∀ c ∈ raw.toList, 0x20 < c.toNat ∧ c.toNat < 128
  scheme : "https://".toList ++ raw.toList.drop "https://".length = raw.toList
  fragment : '#' ∉ raw.toList
  userinfo : '@' ∉ authority raw
  backslash : '\\' ∉ authority raw
  percent : '%' ∉ authority raw
  examined : hostOf (authority raw) = some host
  dotted : ':' ∉ host → endsInANumber host = true → Ipv4.fromStr host ≠ none
  special : isSpecialUseLiteral readV6 host policy.allowLoopback = false

theorem checkHost_eq_ok {readV6 : List Char → Option Ipv6} {policy : CimdPolicy}
    {authority : List Char} (h : checkHost readV6 policy authority = .ok ()) :
    ∃ host, hostOf authority = some host ∧
      (':' ∉ host → endsInANumber host = true → Ipv4.fromStr host ≠ none) ∧
      '\\' ∉ authority ∧ '%' ∉ authority ∧
      isSpecialUseLiteral readV6 host policy.allowLoopback = false := by
  unfold checkHost at h
  cases hhost : hostOf authority with
  | none =>
    rw [hhost] at h
    cases h
  | some host =>
    simp only [hhost, ite_error_eq_ok] at h
    obtain ⟨hdotted, hbackslash, hpercent, hspecial, -⟩ := h
    refine ⟨host, rfl, ?_, by simpa using hbackslash, by simpa using hpercent, by simpa using hspecial⟩
    intro hcolon hnumber hnone
    exact hdotted (by simp [hcolon, hnumber, hnone])

theorem ClientIdUrl.passed_of_parse {readV6 : List Char → Option Ipv6} {policy : CimdPolicy}
    {raw : String} {url : ClientIdUrl} (h : parse readV6 policy raw = .ok url) :
    ∃ host, Passed readV6 policy raw host := by
  unfold parse at h
  simp only [ite_error_eq_ok] at h
  obtain ⟨-, hvisible, hscheme, hfragment, h⟩ := h
  cases hrest : checkAfterScheme readV6 policy (raw.toList.drop "https://".length) with
  | error e =>
    rw [hrest] at h
    cases h
  | ok _ =>
    simp only [checkAfterScheme, ite_error_eq_ok] at hrest
    obtain ⟨huserinfo, -, -, -, hrest⟩ := hrest
    obtain ⟨host, hexamined, hdotted, hbackslash, hpercent, hspecial⟩ := checkHost_eq_ok hrest
    refine ⟨host, ?_, ?_, by simpa using hfragment, by simpa [authority] using huserinfo, hbackslash,
      hpercent, hexamined, hdotted, hspecial⟩
    · intro c hc
      simp only [Bool.not_eq_true, Bool.not_eq_false', List.all_eq_true, Bool.and_eq_true,
        decide_eq_true_eq] at hvisible
      have hbounds := hvisible c hc
      omega
    · simp only [Bool.not_eq_true, Bool.not_eq_false', List.isPrefixOf_iff_prefix] at hscheme
      exact List.prefix_iff_eq_append.mp hscheme

namespace ClientIdUrl

variable {readV6 : List Char → Option Ipv6} {policy : CimdPolicy} {raw : String} {host : List Char}

theorem mem_raw_of_mem_authority {c : Char} (h : c ∈ authority raw) : c ∈ raw.toList :=
  List.mem_of_mem_drop ((List.takeWhile_prefix _).subset h)

/-- Both parsers end the authority at the same place. -/
theorem takeWhile_eq_authority (h : Passed readV6 policy raw host) :
    (raw.toList.drop "https://".length).takeWhile (fun c => !Url.isTerminator c) = authority raw := by
  have hsplit : (raw.toList.drop "https://".length).takeWhile (fun c => !Url.isTerminator c) =
      (authority raw).takeWhile fun c => !Url.isTerminator c := by
    rw [authority, List.takeWhile_takeWhile]
    congr 1
    funext c
    rw [Bool.eq_iff_iff]
    simp only [Url.isTerminator, Bool.not_eq_true', Bool.or_eq_false_iff, beq_eq_false_iff_ne,
      Bool.and_eq_true, bne_iff_ne, decide_eq_true_eq]
    tauto
  rw [hsplit, List.takeWhile_eq_self_iff]
  intro c hc
  have hend := List.mem_takeWhile_imp hc
  simp only [Bool.and_eq_true, bne_iff_ne, ne_eq] at hend
  have hhash : c ≠ '#' := fun heq => h.fragment (heq ▸ mem_raw_of_mem_authority hc)
  have hback : c ≠ '\\' := fun heq => h.backslash (heq ▸ hc)
  simp [Url.isTerminator, hend, hhash, hback]

/-- An authority with a host starts right after the slashes. -/
theorem head_of_passed (h : Passed readV6 policy raw host) :
    ∀ c ∈ (raw.toList.drop "https://".length).head?, c ≠ '/' ∧ c ≠ '\\' := by
  intro c hc
  have hexamined := h.examined
  have hback := h.backslash
  unfold authority at hexamined hback
  cases hrest : raw.toList.drop "https://".length with
  | nil =>
    rw [hrest] at hc
    cases hc
  | cons d rest =>
    rw [hrest] at hc hexamined hback
    cases hc
    constructor
    · rintro rfl
      cases hexamined
    · rintro rfl
      exact hback (by simp)

theorem authority_eq_written (h : Passed readV6 policy raw host) {written : List Char}
    (hwritten : Url.writtenHost raw.toList = some written) :
    written ≠ [] ∧ ∃ port : Option (List Char),
      authority raw = written ++ port.elim [] (':' :: ·) := by
  rw [← h.scheme] at hwritten
  have hplain := Url.writtenHost_plain
    (fun c hc => (h.visible c (List.mem_of_mem_drop hc)).1) (head_of_passed h)
    (by rw [takeWhile_eq_authority h]; exact h.userinfo) hwritten
  rwa [takeWhile_eq_authority h] at hplain

end ClientIdUrl

/-! ## Names and numbers -/

theorem isAsciiHexdigit_of_digitValue {c : Char} (hc : c.toNat < 128)
    (h : Url.digitValue c.toLower < 16) : isAsciiHexdigit c = true :=
  Url.ascii_cases (P := fun c => Url.digitValue c.toLower < 16 → isAsciiHexdigit c = true)
    (by decide) hc h

theorem isDigit_of_digitValue {c : Char} (hc : c.toNat < 128) (h : Url.digitValue c.toLower < 10) :
    c.isDigit = true :=
  Url.ascii_cases (P := fun c => Url.digitValue c.toLower < 10 → c.isDigit = true) (by decide) hc h

theorem toLower_eq_zero {c : Char} (hc : c.toNat < 128) (h : c.toLower = '0') : c = '0' :=
  Url.ascii_cases (P := fun c => c.toLower = '0' → c = '0') (by decide) hc h

theorem toLower_eq_x {c : Char} (hc : c.toNat < 128) (h : c.toLower = 'x') : c = 'x' ∨ c = 'X' :=
  Url.ascii_cases (P := fun c => c.toLower = 'x' → c = 'x' ∨ c = 'X') (by decide) hc h

theorem toLower_ne_X {c : Char} (hc : c.toNat < 128) : c.toLower ≠ 'X' :=
  Url.ascii_cases (P := fun c => c.toLower ≠ 'X') (by decide) hc

theorem isNumberLabel_hex (hascii : ∀ c ∈ last, c.toNat < 128)
    (h : ∀ c ∈ last, Url.digitValue c.toLower < 16) : last.all isAsciiHexdigit = true :=
  List.all_eq_true.mpr fun c hc => isAsciiHexdigit_of_digitValue (hascii c hc) (h c hc)

theorem isNumberLabel_decimal (hne : last ≠ []) (h : ∀ c ∈ last, c.isDigit = true) :
    isNumberLabel last = true := by
  unfold isNumberLabel
  split
  · exact absurd rfl hne
  · exact absurd (h 'x' (by simp)) (by decide)
  · exact absurd (h 'X' (by simp)) (by decide)
  · exact List.all_eq_true.mpr h

/-- A part that is a number to the URL parser is one to the checks. -/
theorem isNumberLabel_of_isNumber (hascii : ∀ c ∈ last, c.toNat < 128)
    (h : Url.isNumber (last.map Char.toLower) = true) : isNumberLabel last = true := by
  cases last with
  | nil => cases h
  | cons c rest =>
    have hne : c :: rest ≠ [] := by simp
    rw [Url.isNumber, Bool.or_eq_true, Bool.and_eq_true, List.all_eq_true] at h
    rcases h with ⟨-, hdigits⟩ | hnumber
    · refine isNumberLabel_decimal hne fun d hd => ?_
      exact Url.ascii_cases (P := fun c => c.toLower.isDigit = true → c.isDigit = true) (by decide)
        (hascii d hd) (hdigits _ (List.mem_map_of_mem hd))
    · rcases Url.ipv4Number_isSome hnumber with ⟨digits, hpart, hhex⟩ | ⟨digits, hpart, -⟩ | hdecimal
      · cases rest with
        | nil => simp at hpart
        | cons d rest =>
          simp only [List.map_cons, List.cons.injEq] at hpart
          obtain ⟨hzero, hx, rfl⟩ := hpart
          have hrest : rest.all isAsciiHexdigit = true :=
            isNumberLabel_hex (fun e he => hascii e (by simp [he]))
              fun e he => hhex _ (List.mem_map_of_mem he)
          cases toLower_eq_zero (hascii c (by simp)) hzero
          rcases toLower_eq_x (hascii d (by simp)) hx with rfl | rfl <;> exact hrest
      · cases rest with
        | nil => simp at hpart
        | cons d rest =>
          simp only [List.map_cons, List.cons.injEq] at hpart
          exact absurd hpart.2.1 (toLower_ne_X (hascii d (by simp)))
      · refine isNumberLabel_decimal hne fun d hd => ?_
        exact isDigit_of_digitValue (hascii d hd) (hdecimal _ (List.mem_map_of_mem hd))

theorem endsInANumber_of_endsInNumber {host : List Char} (hne : host ≠ [])
    (hascii : ∀ c ∈ host, c.toNat < 128)
    (h : Url.endsInNumber (host.map Char.toLower) = true) : endsInANumber host = true := by
  rw [Url.endsInNumber, Url.parts_map_toLower hascii, List.getLast?_map, Option.any_map,
    Option.any_eq_true] at h
  obtain ⟨last, hlast, hnumber⟩ := h
  unfold endsInANumber
  dsimp only
  rw [← Url.parts_eq hne, Option.any_eq_true]
  refine ⟨last, hlast, isNumberLabel_of_isNumber (fun c hc => hascii c ?_) hnumber⟩
  exact Url.mem_of_mem_parts (List.mem_of_getLast? hlast) hc

/-! ## The host that is fetched -/

/-- The host that the checks read in a text; names are compared without regard to case. -/
def ReadAs (readV6 : List Char → Option Ipv6) (examined : List Char) : Url.Host → Prop
  | .domain name =>
    name = examined.map Char.toLower ∧ Ipv4.fromStr examined = none ∧ readV6 examined = none
  | .ipv4 address => ∃ x, Ipv4.fromStr examined = some x ∧ x.toNat = address
  | .ipv6 address => Ipv4.fromStr examined = none ∧ readV6 examined = some address

/-- A version 6 address whose lead is listed but not checked. -/
def Url.Host.IsReserved : Url.Host → Prop
  | .ipv6 address => address.IsReservedLead
  | _ => False

namespace ClientIdUrl

theorem colon_not_mem {name : List Char} (hforbidden : ∀ c ∈ name.map Char.toLower,
    Url.isForbiddenDomain c = false) : ':' ∉ name := by
  intro hcolon
  have hc := hforbidden _ (List.mem_map_of_mem hcolon)
  revert hc
  decide

variable {reader : Url.Reader} {policy : CimdPolicy} {raw : String} {host written : List Char}
  {fetched : Url.Host} (h : Passed reader.ipv6 policy raw host)
include h

theorem readAs_bracketed {text : List Char} {x : Ipv6}
    (hwritten : Url.writtenHost raw.toList = some ('[' :: text)) (hlast : text.getLast? = some ']')
    (hread : reader.ipv6 text.dropLast = some x) : ReadAs reader.ipv6 host (.ipv6 x) := by
  obtain ⟨init, rfl⟩ := List.getLast?_eq_some_iff.mp hlast
  rw [List.dropLast_concat] at hread
  have hcolon := reader.ipv6_colon init x hread
  have hbracket := reader.ipv6_bracket init x hread
  obtain ⟨-, port, hauthority⟩ := authority_eq_written h hwritten
  have hexamined := h.examined
  rw [hauthority] at hexamined
  have htake : ((init ++ [']']) ++ port.elim [] (':' :: ·)).takeWhile (· != ']') = init := by
    rw [List.append_assoc, List.takeWhile_append_of_pos, List.singleton_append,
      List.takeWhile_cons_of_neg (by simp), List.append_nil]
    intro c hc
    have hne : c ≠ ']' := fun heq => hbracket (heq ▸ hc)
    simpa using hne
  have hhost : hostOf ('[' :: (init ++ [']']) ++ port.elim [] (':' :: ·)) = some init := by
    unfold hostOf
    simp only [List.cons_append, htake]
    rw [if_neg]
    simpa using List.ne_nil_of_mem hcolon
  cases hexamined.symm.trans hhost
  refine ⟨?_, hread⟩
  cases hdotted : Ipv4.fromStr host with
  | none => rfl
  | some x => exact absurd hcolon (Url.colon_not_mem_of_fromStr hdotted)

/-- A host without brackets ends where the port starts. -/
theorem examined_eq_written (hwritten : Url.writtenHost raw.toList = some written)
    (hbracket : written.head? ≠ some '[') (hcolon : ':' ∉ written) : host = written := by
  obtain ⟨hne, port, hauthority⟩ := authority_eq_written h hwritten
  have hexamined := h.examined
  rw [hauthority] at hexamined
  have htake : (written ++ port.elim [] (':' :: ·)).takeWhile (· != ':') = written := by
    rw [List.takeWhile_append_of_pos]
    · cases port <;> simp
    · intro c hc
      have hne : c ≠ ':' := fun heq => hcolon (heq ▸ hc)
      simpa using hne
  have hhost : hostOf (written ++ port.elim [] (':' :: ·)) = some written := by
    unfold hostOf
    dsimp only
    split
    · rename_i heq
      cases written with
      | nil => exact absurd rfl hne
      | cons c rest =>
        cases heq
        exact absurd rfl hbracket
    · rw [htake, if_neg]
      simpa using hne
  exact Option.some.inj (hexamined.symm.trans hhost)

/-- A plain name is what it was written as, in lower case. -/
theorem name_of_written (hwritten : Url.writtenHost raw.toList = some written)
    (hplain : ¬ Url.IsPunycode written) : (∀ c ∈ written, c.toNat < 128) ∧
      reader.domainToAscii (reader.decoded written) = some (written.map Char.toLower) := by
  obtain ⟨hne, port, hauthority⟩ := authority_eq_written h hwritten
  have hmem : ∀ c ∈ written, c ∈ authority raw := by
    intro c hc
    rw [hauthority]
    exact List.mem_append_left _ hc
  have hascii : ∀ c ∈ written, c.toNat < 128 := fun c hc =>
    (h.visible c (mem_raw_of_mem_authority (hmem c hc))).2
  refine ⟨hascii, ?_⟩
  rw [reader.decoded_plain written fun c hc => ⟨hascii c hc, fun heq => h.percent (heq ▸ hmem c hc)⟩]
  exact reader.domainToAscii_plain written hne hascii hplain

/-- The checks read the host that is fetched. -/
theorem readAs_fetched (hfetched : Url.fetchedHost reader raw.toList = some fetched)
    (hplain : ∀ written, Url.writtenHost raw.toList = some written → ¬ Url.IsPunycode written) :
    ReadAs reader.ipv6 host fetched := by
  obtain ⟨written, hwritten, hparse⟩ := Option.bind_eq_some_iff.mp hfetched
  rcases Url.parseHost_eq_some hparse with ⟨inner, x, rfl, hlast, hread, rfl⟩ |
    ⟨hbracket, name, hname, hforbidden, hkind⟩
  · exact readAs_bracketed h hwritten hlast hread
  obtain ⟨hascii, hlower⟩ := name_of_written h hwritten (hplain written hwritten)
  cases hname.symm.trans hlower
  have hcolon := colon_not_mem hforbidden
  cases examined_eq_written h hwritten hbracket hcolon
  have hne := (authority_eq_written h hwritten).1
  rcases hkind with ⟨hnumber, n, hn, rfl⟩ | ⟨hnumber, rfl⟩
  · -- an address to the URL parser: the checks insisted on the dotted spelling
    have hdotted := h.dotted hcolon (endsInANumber_of_endsInNumber hne hascii hnumber)
    obtain ⟨x, hx⟩ := Option.ne_none_iff_exists'.mp hdotted
    rw [Url.map_toLower_of_fromStr hx, Url.ipv4_of_fromStr hx] at hn
    exact ⟨x, hx, Option.some.inj hn⟩
  · refine ⟨rfl, ?_, ?_⟩
    · cases hx : Ipv4.fromStr host with
      | none => rfl
      | some x =>
        rw [Url.map_toLower_of_fromStr hx, Url.endsInNumber_of_fromStr hx] at hnumber
        cases hnumber
    · cases hx : reader.ipv6 host with
      | none => rfl
      | some x => exact absurd (reader.ipv6_colon host x hx) hcolon

/-- What the checks let pass is outside the listed ranges, but for the reserved leads. -/
theorem outside_iff (hread : ReadAs reader.ipv6 host fetched) :
    OutsideSpecialUse policy.allowLoopback fetched ↔ ¬ fetched.IsReserved := by
  cases fetched with
  | domain name => exact iff_of_true trivial id
  | ipv4 address =>
    obtain ⟨x, hx, rfl⟩ := hread
    have hspecial := h.special
    simp only [isSpecialUseLiteral, specialUseDotted, hx, Option.map_some, Option.getD_some] at hspecial
    exact iff_of_true (outsideV4_of_not_special hspecial) id
  | ipv6 address => exact outsideV6_iff hread.1 hread.2 h.special

end ClientIdUrl

/-- A client identifier is checked for the host that will be fetched: the URL parser reads the host
that the checks examined, and an address is outside the special-use ranges unless it is in the part
of the reserved block that the checks leave out. -/
theorem fetched_host_checked {reader : Url.Reader} {policy : CimdPolicy} {raw : String}
    {url : ClientIdUrl} {fetched : Url.Host}
    (hparse : ClientIdUrl.parse reader.ipv6 policy raw = .ok url)
    (hfetched : Url.fetchedHost reader raw.toList = some fetched)
    (hplain : ∀ written, Url.writtenHost raw.toList = some written → ¬ Url.IsPunycode written) :
    (∃ examined, hostOf (ClientIdUrl.authority raw) = some examined ∧
      ReadAs reader.ipv6 examined fetched) ∧
    (OutsideSpecialUse policy.allowLoopback fetched ↔ ¬ fetched.IsReserved) := by
  obtain ⟨host, hpassed⟩ := ClientIdUrl.passed_of_parse hparse
  have hread := ClientIdUrl.readAs_fetched hpassed hfetched hplain
  exact ⟨⟨host, hpassed.examined, hread⟩, ClientIdUrl.outside_iff hpassed hread⟩

namespace Sample

/-- A reader that knows the spelling of one version 6 address. -/
def oneAddress : Url.Reader where
  decoded text := text
  domainToAscii name := some (name.map Char.toLower)
  ipv6 text := if text = "1::1".toList then some ⟨1, 0, 0, 0, 0, 0, 0, 1⟩ else none
  decoded_plain _ _ := rfl
  domainToAscii_plain _ _ _ _ := rfl
  ipv6_colon text address h := by
    split at h
    · rename_i heq
      rw [heq]
      decide
    · cases h
  ipv6_bracket text address h := by
    split at h
    · rename_i heq
      rw [heq]
      decide
    · cases h

end Sample

open Sample

/-- A public address, spelled as the checks demand. -/
theorem fetched_host_checked_dotted :
    ∃ url, ClientIdUrl.parse oneAddress.ipv6 .new "https://8.8.8.8:443/app" = .ok url ∧
      Url.fetchedHost oneAddress "https://8.8.8.8:443/app".toList = some (.ipv4 0x08080808) ∧
      OutsideSpecialUse false (.ipv4 0x08080808) := by
  have hparse : ClientIdUrl.parse oneAddress.ipv6 .new "https://8.8.8.8:443/app" =
      .ok ⟨"https://8.8.8.8:443/app"⟩ := by decide +kernel
  have hfetched : Url.fetchedHost oneAddress "https://8.8.8.8:443/app".toList =
      some (.ipv4 0x08080808) := by decide +kernel
  have hwritten : Url.writtenHost "https://8.8.8.8:443/app".toList = some "8.8.8.8".toList := by
    decide +kernel
  have hplain : ¬ ∃ label ∈ "8.8.8.8".toList.splitOn '.', "xn--".toList <+: label.map Char.toLower := by
    decide +kernel
  have hchecked := fetched_host_checked hparse hfetched fun written h => by
    cases hwritten.symm.trans h
    exact hplain
  exact ⟨_, hparse, hfetched, hchecked.2.mpr id⟩

/-- An address in the reserved block `::/8` passes. -/
theorem reserved_address_passes :
    ∃ url address, ClientIdUrl.parse oneAddress.ipv6 .new "https://[1::1]/app" = .ok url ∧
      Url.fetchedHost oneAddress "https://[1::1]/app".toList = some (.ipv6 address) ∧
      (v6Range 0 0 8).Contains address.toNat ∧ ¬ OutsideSpecialUse false (.ipv6 address) := by
  refine ⟨⟨"https://[1::1]/app"⟩, ⟨1, 0, 0, 0, 0, 0, 0, 1⟩, by decide +kernel, by decide +kernel,
    by decide +kernel, ?_⟩
  change ¬ OutsideV6 false _
  rw [OutsideV6, if_neg (by decide +kernel), if_neg (by decide +kernel)]
  intro houtside
  exact houtside _ List.mem_cons_self (by decide +kernel)

end OauthAs
