-- SUMMARY: Unpadded base64url, decoded strictly: every text that is accepted is the one encoding of its octets.
import Mathlib.Data.List.Basic
import Mathlib.Tactic.Common

/-!
# Base64url

Three octets are four symbols of six bits. A rest of one or two octets takes two or three symbols,
whose unused bits must be zero; padding is not accepted. So encoding and decoding are inverse to
each other, and no two texts decode to the same octets.
-/

namespace OauthAs.Base64url

variable {n : Nat} {ns : List Nat} {octets : List UInt8} {text : String}

def alphabet : List Char :=
  "ABCDEFGHIJKLMNOPQRSTUVWXYZabcdefghijklmnopqrstuvwxyz0123456789-_".toList

/-- The symbol of six bits. -/
def symbol (n : Nat) : Char := alphabet.getD n 'A'

/-- The six bits of a symbol. -/
def value? (c : Char) : Option Nat :=
  if c ∈ alphabet then some (alphabet.idxOf c) else none

theorem value?_symbol (h : n < 64) : value? (symbol n) = some n := by
  have hall : ∀ n < 64, value? (symbol n) = some n := by decide +kernel
  exact hall n h

theorem symbol_of_value? {c : Char} (h : value? c = some n) :
    n < 64 ∧ symbol n = c ∧ c ∈ alphabet := by
  unfold value? at h
  split at h
  · rename_i hc
    cases h
    have hlt : alphabet.idxOf c < alphabet.length := List.idxOf_lt_length_iff.mpr hc
    refine ⟨hlt, ?_, hc⟩
    rw [symbol, List.getD_eq_getElem?_getD, List.getElem?_eq_getElem hlt, Option.getD_some]
    exact List.getElem_idxOf hlt
  · cases h

/-! ## Groups -/

/-- The six-bit groups of octets. -/
def groups : List UInt8 → List Nat
  | [] => []
  | [a] => [a.toNat / 4, a.toNat % 4 * 16]
  | [a, b] => [a.toNat / 4, a.toNat % 4 * 16 + b.toNat / 16, b.toNat % 16 * 4]
  | a :: b :: c :: rest =>
    a.toNat / 4 :: (a.toNat % 4 * 16 + b.toNat / 16) :: (b.toNat % 16 * 4 + c.toNat / 64) ::
      c.toNat % 64 :: groups rest

/-- The octets of six-bit groups; bits that are left over have to be zero. -/
def ungroup : List Nat → Option (List UInt8)
  | [] => some []
  | [_] => none
  | [p, q] => if q % 16 = 0 then some [.ofNat (p * 4 + q / 16)] else none
  | [p, q, r] =>
    if r % 4 = 0 then some [.ofNat (p * 4 + q / 16), .ofNat (q % 16 * 16 + r / 4)] else none
  | p :: q :: r :: s :: rest =>
    (ungroup rest).map fun octets =>
      .ofNat (p * 4 + q / 16) :: .ofNat (q % 16 * 16 + r / 4) :: .ofNat (r % 4 * 64 + s) :: octets

theorem groups_lt (octets : List UInt8) : ∀ n ∈ groups octets, n < 64 := by
  fun_induction groups octets with
  | case1 => simp
  | case2 a =>
    have ha := a.toNat_lt
    simp only [List.mem_cons, List.not_mem_nil, or_false]
    rintro n (rfl | rfl) <;> omega
  | case3 a b =>
    have ha := a.toNat_lt
    have hb := b.toNat_lt
    simp only [List.mem_cons, List.not_mem_nil, or_false]
    rintro n (rfl | rfl | rfl) <;> omega
  | case4 a b c rest ih =>
    have ha := a.toNat_lt
    have hb := b.toNat_lt
    have hc := c.toNat_lt
    simp only [List.mem_cons]
    rintro n (rfl | rfl | rfl | rfl | hn)
    · omega
    · omega
    · omega
    · omega
    · exact ih n hn

theorem ofNat_eq {a : UInt8} (h : n = a.toNat) : UInt8.ofNat n = a := by
  rw [h, UInt8.ofNat_toNat]

theorem ungroup_groups (octets : List UInt8) : ungroup (groups octets) = some octets := by
  fun_induction groups octets with
  | case1 => rfl
  | case2 a =>
    have ha := a.toNat_lt
    rw [ungroup, if_pos (by omega), ofNat_eq (a := a) (by omega)]
  | case3 a b =>
    have ha := a.toNat_lt
    have hb := b.toNat_lt
    rw [ungroup, if_pos (by omega), ofNat_eq (a := a) (by omega), ofNat_eq (a := b) (by omega)]
  | case4 a b c rest ih =>
    have ha := a.toNat_lt
    have hb := b.toNat_lt
    have hc := c.toNat_lt
    rw [ungroup, ih, Option.map_some, ofNat_eq (a := a) (by omega), ofNat_eq (a := b) (by omega),
      ofNat_eq (a := c) (by omega)]

theorem toNat_ofNat (h : n < 256) : (UInt8.ofNat n).toNat = n := by
  rw [UInt8.toNat_ofNat', Nat.mod_eq_of_lt h]

theorem groups_of_ungroup (hns : ∀ n ∈ ns, n < 64) (h : ungroup ns = some octets) :
    groups octets = ns := by
  fun_induction ungroup ns generalizing octets with
  | case1 =>
    cases h
    rfl
  | case2 | case4 | case6 => cases h
  | case3 p q hq =>
    cases h
    simp only [List.mem_cons, List.not_mem_nil, or_false, forall_eq_or_imp, forall_eq] at hns
    rw [groups, toNat_ofNat (by omega)]
    congr 1
    · omega
    · congr 1
      omega
  | case5 p q r hr =>
    cases h
    simp only [List.mem_cons, List.not_mem_nil, or_false, forall_eq_or_imp, forall_eq] at hns
    rw [groups, toNat_ofNat (by omega), toNat_ofNat (by omega)]
    congr 1
    · omega
    · congr 1
      · omega
      · congr 1
        omega
  | case7 p q r s rest ih =>
    obtain ⟨more, hmore, rfl⟩ := Option.map_eq_some_iff.mp h
    simp only [List.mem_cons, forall_eq_or_imp] at hns
    obtain ⟨hp, hq, hr, hs, hrest⟩ := hns
    rw [groups, toNat_ofNat (by omega), toNat_ofNat (by omega), toNat_ofNat (by omega),
      ih hrest hmore]
    congr 1
    · omega
    · congr 1
      · omega
      · congr 1
        · omega
        · congr 1
          omega

/-! ## Texts -/

def encode (octets : List UInt8) : String := String.ofList ((groups octets).map symbol)

def decode (text : String) : Option (List UInt8) := (text.toList.mapM value?).bind ungroup

theorem mapM_value?_symbol (h : ∀ n ∈ ns, n < 64) : (ns.map symbol).mapM value? = some ns := by
  induction ns with
  | nil => rfl
  | cons n ns ih =>
    obtain ⟨hn, hns⟩ := List.forall_mem_cons.mp h
    rw [List.map_cons, List.mapM_cons, value?_symbol hn, ih hns]
    rfl

theorem symbols_of_mapM {cs : List Char} (h : cs.mapM value? = some ns) :
    (∀ n ∈ ns, n < 64) ∧ ns.map symbol = cs ∧ ∀ c ∈ cs, c ∈ alphabet := by
  induction cs generalizing ns with
  | nil =>
    cases h
    simp
  | cons c cs ih =>
    rw [List.mapM_cons] at h
    obtain ⟨n, hn, h⟩ := Option.bind_eq_some_iff.mp h
    obtain ⟨more, hmore, h⟩ := Option.bind_eq_some_iff.mp h
    cases h
    obtain ⟨hlt, hsymbol, hc⟩ := symbol_of_value? hn
    obtain ⟨hlts, hsymbols, hcs⟩ := ih hmore
    exact ⟨List.forall_mem_cons.mpr ⟨hlt, hlts⟩, by rw [List.map_cons, hsymbol, hsymbols],
      List.forall_mem_cons.mpr ⟨hc, hcs⟩⟩

theorem decode_encode (octets : List UInt8) : decode (encode octets) = some octets := by
  rw [decode, encode, String.toList_ofList, mapM_value?_symbol (groups_lt octets), Option.bind_some,
    ungroup_groups]

theorem encode_decode (h : decode text = some octets) : encode octets = text := by
  obtain ⟨ns, hns, hoctets⟩ := Option.bind_eq_some_iff.mp h
  obtain ⟨hlt, hsymbols, -⟩ := symbols_of_mapM hns
  rw [encode, groups_of_ungroup hlt hoctets, hsymbols, String.ofList_toList]

theorem decode_injective {text' : String} (h : decode text = some octets)
    (h' : decode text' = some octets) : text = text' :=
  (encode_decode h).symm.trans (encode_decode h')

theorem encode_injective : Function.Injective encode := by
  intro octets octets' h
  have hdecode := decode_encode octets
  rw [h, decode_encode] at hdecode
  exact (Option.some.inj hdecode).symm

theorem mem_alphabet_of_decode (h : decode text = some octets) :
    ∀ c ∈ text.toList, c ∈ alphabet := by
  obtain ⟨ns, hns, -⟩ := Option.bind_eq_some_iff.mp h
  exact (symbols_of_mapM hns).2.2

example : decode "TWFu" = some [77, 97, 110] := by decide +kernel

example : decode "TWE=" = none := by decide +kernel

end OauthAs.Base64url
