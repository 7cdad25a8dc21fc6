-- SUMMARY: Every advertised endpoint is served at the path a client asks for, if its URL has no query and no fragment.
import Mathlib.Data.List.TakeWhile
import OauthAs.Server.Routes

/-!
# Advertised endpoints are served

A client takes the path out of an advertised URL and escapes what may not stand in a path; the
digits of escapes are written in either case (`Spells`). The service took the same URL apart at
the issuer. The two agree on every octet of the path, whatever the spelling, except that the
service does not know about queries and fragments: it files them as part of the path.
-/

namespace OauthAs

variable {scheme lead : Octets} {q : UInt8}

/-! ## Octets -/

theorem hexValue_cases {b v : UInt8} (h : hexValue b = some v) :
    (48 ≤ b ∧ b ≤ 57 ∧ v = b - 48) ∨ (97 ≤ b ∧ b ≤ 102 ∧ v = b - 97 + 10) ∨
      (65 ≤ b ∧ b ≤ 70 ∧ v = b - 65 + 10) := by
  unfold hexValue at h
  split at h
  · rename_i hb
    exact .inl ⟨hb.1, hb.2, (Option.some.inj h).symm⟩
  · split at h
    · rename_i hb
      exact .inr (.inl ⟨hb.1, hb.2, (Option.some.inj h).symm⟩)
    · split at h
      · rename_i hb
        exact .inr (.inr ⟨hb.1, hb.2, (Option.some.inj h).symm⟩)
      · cases h

/-- A digit is determined by its value and its case. -/
theorem toAsciiUppercase_of_hexValue {b v : UInt8} (h : hexValue b = some v) :
    toAsciiUppercase b = hexDigit v := by
  rcases hexValue_cases h with ⟨h₁, h₂, rfl⟩ | ⟨h₁, h₂, rfl⟩ | ⟨h₁, h₂, rfl⟩ <;>
    simp only [toAsciiUppercase, hexDigit] <;> split <;> split <;>
    simp only [UInt8.le_iff_toNat_le, UInt8.lt_iff_toNat_lt, UInt8.ext_iff, UInt8.toNat_add, UInt8.toNat_sub,
      UInt8.reduceToNat] at * <;> omega

theorem hexValue_hexDigit {v : UInt8} (h : v < 16) : hexValue (hexDigit v) = some v := by
  unfold hexDigit hexValue
  split <;> split <;> (try split) <;> (try split) <;>
    simp only [UInt8.le_iff_toNat_le, UInt8.lt_iff_toNat_lt, Option.some.injEq, UInt8.ext_iff,
      UInt8.toNat_add, UInt8.toNat_sub, UInt8.reduceToNat, reduceCtorEq] at * <;> omega

theorem toAsciiUppercase_eq_self {b : UInt8} (h : (decide (97 ≤ b) && decide (b ≤ 122)) = false) :
    toAsciiUppercase b = b := by
  unfold toAsciiUppercase
  refine if_neg fun hb => ?_
  rw [decide_eq_true hb.1, decide_eq_true hb.2] at h
  cases h

theorem hexValue_lt {b v : UInt8} (h : hexValue b = some v) : v < 16 := by
  rcases hexValue_cases h with ⟨h₁, h₂, rfl⟩ | ⟨h₁, h₂, rfl⟩ | ⟨h₁, h₂, rfl⟩ <;>
    simp only [UInt8.le_iff_toNat_le, UInt8.lt_iff_toNat_lt, UInt8.toNat_add, UInt8.toNat_sub,
      UInt8.reduceToNat] at * <;> omega

/-- Digits of one value differ in their case only. -/
theorem toAsciiUppercase_congr {b b' : UInt8} (h : (hexValue b).isSome = true)
    (hsame : hexValue b' = hexValue b) : toAsciiUppercase b' = toAsciiUppercase b := by
  obtain ⟨v, hv⟩ := Option.isSome_iff_exists.mp h
  rw [toAsciiUppercase_of_hexValue hv, toAsciiUppercase_of_hexValue (hsame.trans hv)]

theorem hexValue_toAsciiUppercase {b : UInt8} (h : (hexValue b).isSome = true) :
    hexValue (toAsciiUppercase b) = hexValue b := by
  obtain ⟨v, hv⟩ := Option.isSome_iff_exists.mp h
  rw [toAsciiUppercase_of_hexValue hv, hv, hexValue_hexDigit (hexValue_lt hv)]

theorem shift_lt (b : UInt8) : b >>> 4 < 16 := by
  have hb := b.toNat_lt
  simp only [UInt8.lt_iff_toNat_lt, UInt8.toNat_shiftRight, UInt8.reduceToNat, Nat.reduceMod,
    Nat.shiftRight_eq_div_pow]
  omega

theorem mask_lt (b : UInt8) : b &&& 15 < 16 := by
  simp only [UInt8.lt_iff_toNat_lt, UInt8.toNat_and, UInt8.reduceToNat]
  exact Nat.lt_succ_of_le Nat.and_le_right

/-! ## Escapes -/

theorem startsEscape_eq_true {b : UInt8} {rest : Octets} :
    startsEscape (b :: rest) = true ↔ b = 37 ∧ ∃ h l tail, rest = h :: l :: tail ∧
      (hexValue h).isSome = true ∧ (hexValue l).isSome = true := by
  constructor
  · intro hs
    unfold startsEscape at hs
    split at hs
    · rename_i h l tail heq
      cases heq
      exact ⟨rfl, h, l, tail, rfl, Bool.and_eq_true_iff.mp hs⟩
    · cases hs
  · rintro ⟨rfl, h, l, tail, rfl, hh, hl⟩
    simp [startsEscape, hh, hl]

/-- Octets one by one, but escapes as a whole. -/
theorem escape_induction {motive : Octets → Prop} (nil : motive [])
    (escape : ∀ h l rest, (hexValue h).isSome = true → (hexValue l).isSome = true → motive rest →
      motive (37 :: h :: l :: rest))
    (plain : ∀ b rest, startsEscape (b :: rest) = false → motive rest → motive (b :: rest))
    (path : Octets) : motive path := by
  induction path using uppercaseEach.induct with
  | case1 => exact nil
  | case2 b h l rest hs ih =>
    obtain ⟨rfl, h', l', tail, heq, hh, hl⟩ := startsEscape_eq_true.mp hs
    cases heq
    exact escape h l rest hh hl ih
  | case3 b rest hs hshort =>
    obtain ⟨-, h, l, tail, rfl, -⟩ := startsEscape_eq_true.mp hs
    exact absurd rfl (hshort h l tail)
  | case4 b rest hs ih => exact plain b rest (Bool.not_eq_true _ ▸ hs) ih

section Encode
variable {b h l : UInt8} {rest : Octets}

theorem encodeRoutePath_escape (hh : (hexValue h).isSome = true) (hl : (hexValue l).isSome = true) :
    encodeRoutePath (37 :: h :: l :: rest) =
      37 :: toAsciiUppercase h :: toAsciiUppercase l :: encodeRoutePath rest := by
  rw [encodeRoutePath, if_pos (startsEscape_eq_true.mpr ⟨rfl, h, l, rest, rfl, hh, hl⟩)]

theorem encodeRoutePath_verbatim (hs : startsEscape (b :: rest) = false) (hb : isVerbatim b = true) :
    encodeRoutePath (b :: rest) = b :: encodeRoutePath rest := by
  rw [encodeRoutePath.eq_def]
  simp only [hs, hb, Bool.false_eq_true, if_false, if_true]

theorem startsEscape_of_outside (hb : isVerbatim b = false) : startsEscape (b :: rest) = false := by
  rw [← Bool.not_eq_true]
  intro hs
  obtain ⟨rfl, -⟩ := startsEscape_eq_true.mp hs
  exact absurd hb (by decide)

theorem encodeRoutePath_outside (hb : isVerbatim b = false) :
    encodeRoutePath (b :: rest) =
      37 :: hexDigit (b >>> 4) :: hexDigit (b &&& 15) :: encodeRoutePath rest := by
  rw [encodeRoutePath.eq_def]
  simp only [startsEscape_of_outside hb, hb, Bool.false_eq_true, if_false]

theorem uppercaseEach_escape (hh : (hexValue h).isSome = true) (hl : (hexValue l).isSome = true) :
    uppercaseEach (37 :: h :: l :: rest) =
      37 :: toAsciiUppercase h :: toAsciiUppercase l :: uppercaseEach rest := by
  rw [uppercaseEach, if_pos (startsEscape_eq_true.mpr ⟨rfl, h, l, rest, rfl, hh, hl⟩)]

theorem uppercaseEach_other (hs : startsEscape (b :: rest) = false) :
    uppercaseEach (b :: rest) = b :: uppercaseEach rest := by
  rw [uppercaseEach.eq_def]
  simp only [hs, Bool.false_eq_true, if_false]

end Encode

/-- The test that saves the copy is exact. -/
theorem uppercaseEscapes_eq (path : Octets) : uppercaseEscapes path = uppercaseEach path := by
  unfold uppercaseEscapes
  split
  · rfl
  · rename_i hneeds
    rw [Bool.not_eq_true] at hneeds
    induction path using escape_induction with
    | nil => rfl
    | escape h l rest hh hl ih =>
      simp only [needsUppercase, startsLowercaseEscape, startsEscape, hh, hl, Bool.true_and,
        Bool.or_eq_false_iff] at hneeds
      obtain ⟨⟨hlower, hlower'⟩, -, -, hrest⟩ := hneeds
      rw [uppercaseEach_escape hh hl, toAsciiUppercase_eq_self hlower,
        toAsciiUppercase_eq_self hlower', ← ih hrest]
    | plain b rest hs ih =>
      simp only [needsUppercase, Bool.or_eq_false_iff] at hneeds
      rw [uppercaseEach_other hs, ← ih hneeds.2]

/-- A path as a client may put it on the wire: octets of the path grammar stand for themselves,
others are escaped, and the digits of an escape are written in either case. -/
inductive Spells : Octets → Octets → Prop
  | nil : Spells [] []
  | escape {h l h' l' : UInt8} {rest wire : Octets} (high : (hexValue h).isSome = true)
      (low : (hexValue l).isSome = true) (sameHigh : hexValue h' = hexValue h)
      (sameLow : hexValue l' = hexValue l) (tail : Spells rest wire) :
      Spells (37 :: h :: l :: rest) (37 :: h' :: l' :: wire)
  | verbatim {b : UInt8} {rest wire : Octets} (grammar : isVerbatim b = true)
      (plain : startsEscape (b :: rest) = false) (tail : Spells rest wire) :
      Spells (b :: rest) (b :: wire)
  | outside {b h l : UInt8} {rest wire : Octets} (grammar : isVerbatim b = false)
      (high : hexValue h = some (b >>> 4)) (low : hexValue l = some (b &&& 15))
      (tail : Spells rest wire) : Spells (b :: rest) (37 :: h :: l :: wire)

namespace Spells

variable {path wire : Octets}

/-- A hexadecimal digit at the front of what is sent stands for itself. -/
theorem of_digit {d : UInt8} (h : Spells path (d :: wire)) (hd : (hexValue d).isSome = true) :
    ∃ rest, path = d :: rest ∧ Spells rest wire := by
  cases h with
  | escape | outside => exact absurd hd (by decide)
  | verbatim grammar plain tail => exact ⟨_, rfl, tail⟩

/-- What starts no escape in the path starts none on the wire. -/
theorem startsEscape_false {b : UInt8} (h : Spells path wire)
    (hs : startsEscape (b :: path) = false) : startsEscape (b :: wire) = false := by
  rw [← Bool.not_eq_true] at hs ⊢
  intro hwire
  obtain ⟨rfl, d, d', tail, rfl, hd, hd'⟩ := startsEscape_eq_true.mp hwire
  obtain ⟨rest, rfl, hrest⟩ := h.of_digit hd
  obtain ⟨rest', rfl, -⟩ := hrest.of_digit hd'
  exact hs (startsEscape_eq_true.mpr ⟨rfl, d, d', rest', rfl, hd, hd'⟩)

/-- However a path is spelled, it arrives as the route table has it. -/
theorem uppercase_eq (h : Spells path wire) : uppercaseEscapes wire = encodeRoutePath path := by
  rw [uppercaseEscapes_eq]
  induction h with
  | nil => rfl
  | escape high low sameHigh sameLow tail ih =>
    rw [encodeRoutePath_escape high low, uppercaseEach_escape (sameHigh ▸ high) (sameLow ▸ low), ih,
      toAsciiUppercase_congr high sameHigh, toAsciiUppercase_congr low sameLow]
  | verbatim grammar plain tail ih =>
    rw [encodeRoutePath_verbatim plain grammar,
      uppercaseEach_other (startsEscape_false tail plain), ih]
  | outside grammar high low tail ih =>
    rw [encodeRoutePath_outside grammar,
      uppercaseEach_escape (high ▸ rfl) (low ▸ rfl), ih,
      toAsciiUppercase_of_hexValue high, toAsciiUppercase_of_hexValue low]

/-- A path can be sent the way the route table has it. -/
theorem encode (path : Octets) : Spells path (encodeRoutePath path) := by
  induction path using escape_induction with
  | nil =>
    rw [encodeRoutePath]
    exact .nil
  | escape h l rest hh hl ih =>
    rw [encodeRoutePath_escape hh hl]
    exact .escape hh hl (hexValue_toAsciiUppercase hh) (hexValue_toAsciiUppercase hl) ih
  | plain b rest hs ih =>
    cases hb : isVerbatim b with
    | true =>
      rw [encodeRoutePath_verbatim hs hb]
      exact .verbatim hb hs ih
    | false =>
      rw [encodeRoutePath_outside hb]
      exact .outside hb (hexValue_hexDigit (shift_lt b)) (hexValue_hexDigit (mask_lt b)) ih

end Spells

/-! ## Paths of URLs -/

/-- Octets of a scheme. -/
def isSchemeOctet (b : UInt8) : Bool :=
  isAsciiAlphanumeric b || b == 43 || b == 45 || b == 46

/-- Where a query or a fragment begins. -/
def endsPath (b : UInt8) : Bool := b == 63 || b == 35

/-- The path in what follows the `://` of a URL. A client asks for `/` if there is none. -/
def pathAfterScheme (rest : Octets) : Octets :=
  let path := (rest.dropWhile fun b => !(b == 47 || endsPath b)).takeWhile fun b => !endsPath b
  if path.isEmpty then [47] else path

/-- The path a client asks for, given the URL of a resource; a text without a scheme is none. -/
def requestPath (url : Octets) : Option Octets :=
  match url.takeWhile isSchemeOctet, url.dropWhile isSchemeOctet with
  | _ :: _, 58 :: 47 :: 47 :: rest => some (pathAfterScheme rest)
  | _, _ => none

theorem requestPath_eq_some {url path : Octets} (h : requestPath url = some path) :
    ∃ scheme rest, url = scheme ++ 58 :: 47 :: 47 :: rest ∧
      (∀ b ∈ scheme, isSchemeOctet b = true) ∧ path = pathAfterScheme rest := by
  unfold requestPath at h
  split at h
  · rename_i b tail rest hscheme hrest
    refine ⟨url.takeWhile isSchemeOctet, rest, ?_, fun b hb => List.all_eq_true.mp List.all_takeWhile b hb,
      (Option.some.inj h).symm⟩
    rw [← hrest, List.takeWhile_append_dropWhile]
  · cases h

theorem afterScheme_append (h : ∀ b ∈ scheme, isSchemeOctet b = true) (rest : Octets) :
    afterScheme (scheme ++ rest) = afterScheme rest := by
  induction scheme with
  | nil => rfl
  | cons b scheme ih =>
    rw [List.forall_mem_cons] at h
    have hb : b ≠ 58 := by
      rintro rfl
      exact absurd h.1 (by decide)
    rw [List.cons_append, afterScheme, if_neg fun hb' => hb hb'.1, ih h.2]

theorem afterScheme_url (h : ∀ b ∈ scheme, isSchemeOctet b = true) (rest : Octets) :
    afterScheme (scheme ++ 58 :: 47 :: 47 :: rest) = some rest := by
  rw [afterScheme_append h]
  simp [afterScheme]

/-- A URL under an issuer without a trailing slash continues behind the issuer's authority, unless
the issuer is nothing but a scheme. -/
theorem issuer_cases {after issuer rest : Octets} (hscheme : ∀ b ∈ scheme, isSchemeOctet b = true)
    (htrim : issuer.getLast? ≠ some 47)
    (h : scheme ++ 58 :: 47 :: 47 :: after = issuer ++ 47 :: rest) :
    (issuer = scheme ++ [58] ∧ rest = 47 :: after) ∨
      ∃ a, a ≠ [] ∧ issuer = scheme ++ 58 :: 47 :: 47 :: a ∧ after = a ++ 47 :: rest := by
  rcases List.append_eq_append_iff.mp h with ⟨a, rfl, ha⟩ | ⟨a, rfl, ha⟩
  · rcases a with _ | ⟨_, _ | ⟨_, _ | ⟨_, _ | ⟨b, a⟩⟩⟩⟩
    · cases ha
    · cases ha
      exact .inl ⟨rfl, rfl⟩
    · cases ha
      exact absurd (by simp) htrim
    · cases ha
      exact absurd (by simp) htrim
    · simp only [List.cons_append, List.cons.injEq] at ha
      obtain ⟨rfl, rfl, rfl, ha⟩ := ha
      exact .inr ⟨b :: a, List.cons_ne_nil b a, rfl, ha⟩
  · rcases a with _ | ⟨b, a⟩
    · cases ha
    · cases ha
      exact absurd (hscheme 47 (by simp)) (by decide)

theorem trimEndSlashes_eq_self {path : Octets} (h : path.getLast? ≠ some 47) :
    trimEndSlashes path = path := by
  unfold trimEndSlashes
  cases hrev : path.reverse with
  | nil => rw [List.dropWhile_nil, List.reverse_nil, List.reverse_eq_nil_iff.mp hrev]
  | cons b tail =>
    have hb : (b == 47) = false := by
      rw [← Bool.not_eq_true]
      intro hb
      rw [List.getLast?_eq_head?_reverse, hrev, List.head?_cons, eq_of_beq hb] at h
      exact h rfl
    rw [List.dropWhile_cons, hb, if_neg Bool.false_ne_true, ← hrev, List.reverse_reverse]

/-- What the service takes for the path of a URL is all of it from the first slash behind the
authority on. -/
theorem issuerPath_append {a : Octets} (rest : Octets)
    (hscheme : ∀ b ∈ scheme, isSchemeOctet b = true)
    (htrim : (scheme ++ 58 :: 47 :: 47 :: a).getLast? ≠ some 47) :
    issuerPath (scheme ++ 58 :: 47 :: 47 :: a) = a.dropWhile (· != 47) ∧
      issuerPath (scheme ++ 58 :: 47 :: 47 :: a) ++ 47 :: rest =
        (a ++ 47 :: rest).dropWhile (· != 47) := by
  have hlast : (a.dropWhile (· != 47)).getLast? ≠ some 47 := by
    intro hlast
    obtain ⟨lead, hlead⟩ := List.dropWhile_suffix (l := a) (· != 47)
    refine htrim ?_
    rw [show scheme ++ 58 :: 47 :: 47 :: a = (scheme ++ 58 :: 47 :: 47 :: lead) ++
      a.dropWhile (· != 47) by simp [hlead], List.getLast?_append, hlast, Option.some_or]
  have hpath : issuerPath (scheme ++ 58 :: 47 :: 47 :: a) = a.dropWhile (· != 47) := by
    rw [issuerPath, afterScheme_url hscheme, Option.getD_some, trimEndSlashes_eq_self hlast]
  refine ⟨hpath, ?_⟩
  rw [hpath, List.dropWhile_append]
  split
  · rename_i hempty
    rw [List.isEmpty_iff.mp hempty]
    simp
  · rfl

/-- Up to a query or a fragment the client looks for the same slash. -/
theorem dropWhile_lead (h : ∀ b ∈ lead, endsPath b = false) (tail : Octets)
    (htail : (tail.dropWhile fun b => !(b == 47 || endsPath b)) = tail) :
    ((lead ++ tail).dropWhile fun b => !(b == 47 || endsPath b)) =
      lead.dropWhile (· != 47) ++ tail := by
  induction lead with
  | nil => exact htail
  | cons b lead ih =>
    rw [List.forall_mem_cons] at h
    simp only [List.cons_append, List.dropWhile_cons, h.1, Bool.or_false, bne]
    split
    · exact ih h.2
    · rfl

/-- Without a query and a fragment the client takes the same. -/
theorem pathAfterScheme_plain {rest : Octets} (h : ∀ b ∈ rest, endsPath b = false)
    (hslash : 47 ∈ rest) : pathAfterScheme rest = rest.dropWhile (· != 47) := by
  have hsame := dropWhile_lead h [] rfl
  simp only [List.append_nil] at hsame
  have hall : ((rest.dropWhile (· != 47)).takeWhile fun b => !endsPath b) =
      rest.dropWhile (· != 47) := by
    refine List.takeWhile_eq_self_iff.mpr fun b hb => ?_
    rw [h b ((List.dropWhile_suffix _).subset hb)]
    rfl
  have hne : rest.dropWhile (· != 47) ≠ [] := by
    intro hnil
    have := List.dropWhile_eq_nil_iff.mp hnil 47 hslash
    simp at this
  simp only [pathAfterScheme, hsame, hall, List.isEmpty_iff, hne, if_false]

/-- With a query or a fragment it stops there. -/
theorem pathAfterScheme_ends {tail : Octets} (h : ∀ b ∈ lead, endsPath b = false)
    (hq : endsPath q = true) :
    pathAfterScheme (lead ++ q :: tail) =
      if 47 ∈ lead then lead.dropWhile (· != 47) else [47] := by
  have hdrop := dropWhile_lead h (q :: tail) (by simp [hq])
  have htake : ((lead.dropWhile (· != 47) ++ q :: tail).takeWhile fun b => !endsPath b) =
      lead.dropWhile (· != 47) := by
    rw [List.takeWhile_append_of_pos]
    · simp [hq]
    · intro b hb
      rw [h b ((List.dropWhile_suffix _).subset hb)]
      rfl
  simp only [pathAfterScheme, hdrop, htake, List.isEmpty_iff, List.dropWhile_eq_nil_iff]
  by_cases hslash : 47 ∈ lead
  · rw [if_pos hslash, if_neg]
    intro hall
    simpa using hall 47 hslash
  · rw [if_neg hslash, if_pos]
    intro b hb
    simp only [bne_iff_ne, ne_eq]
    rintro rfl
    exact hslash hb

/-! ## Escaping is compositional -/

/-- An escape does not reach across an octet that is no digit. -/
theorem startsEscape_append {b y : UInt8} {rest ys : Octets} (hy : hexValue y = none) :
    startsEscape (b :: (rest ++ y :: ys)) = startsEscape (b :: rest) := by
  rw [Bool.eq_iff_iff, startsEscape_eq_true, startsEscape_eq_true]
  refine and_congr_right fun _ => ?_
  rcases rest with _ | ⟨h, _ | ⟨l, rest⟩⟩
  · simp [hy]
  · simp [hy]
  · simp

theorem encodeRoutePath_append {xs ys : Octets} {y : UInt8} (hy : hexValue y = none) :
    encodeRoutePath (xs ++ y :: ys) = encodeRoutePath xs ++ encodeRoutePath (y :: ys) := by
  induction xs using escape_induction with
  | nil =>
    rw [encodeRoutePath]
    rfl
  | escape h l rest hh hl ih => simp only [List.cons_append, encodeRoutePath_escape hh hl, ih]
  | plain b rest hs ih =>
    cases hb : isVerbatim b with
    | true =>
      rw [List.cons_append, encodeRoutePath_verbatim ((startsEscape_append hy).trans hs) hb, ih,
        encodeRoutePath_verbatim hs hb, List.cons_append]
    | false => simp only [List.cons_append, encodeRoutePath_outside hb, ih]

theorem encodeRoutePath_slash (rest : Octets) :
    encodeRoutePath (47 :: rest) = 47 :: encodeRoutePath rest :=
  encodeRoutePath_verbatim (by rw [← Bool.not_eq_true, startsEscape_eq_true]; rintro ⟨⟨⟩, -⟩)
    (by decide)

theorem encodeRoutePath_eq_nil {path : Octets} : encodeRoutePath path = [] ↔ path = [] := by
  constructor
  · intro h
    have hspells := Spells.encode path
    rw [h] at hspells
    cases hspells
    rfl
  · rintro rfl
    rw [encodeRoutePath]

/-! ## Which URLs are served -/

/-- The issuer has a scheme, and the URL has no query and no fragment. (Or both are cut off: a URL
that only adds a slash to an issuer without a path is asked for at the root.) -/
def Addressed (issuer url : Octets) : Prop :=
  (afterScheme issuer).isSome = true ∧
    ((∀ b ∈ url, endsPath b = false) ∨ (issuerPath issuer = [] ∧ url = issuer ++ [47]))

theorem endsPath_of_scheme {b : UInt8} (h : isSchemeOctet b = true) : endsPath b = false := by
  rw [← Bool.not_eq_true]
  intro hb
  simp only [endsPath, Bool.or_eq_true, beq_iff_eq] at hb
  rcases hb with rfl | rfl
  · exact absurd h (by decide)
  · exact absurd h (by decide)

theorem hexValue_of_endsPath (h : endsPath q = true) : hexValue q = none := by
  simp only [endsPath, Bool.or_eq_true, beq_iff_eq] at h
  rcases h with rfl | rfl <;> decide

/-- Up to where a query or a fragment begins. -/
theorem exists_endsPath {rest : Octets} (h : ¬ ∀ b ∈ rest, endsPath b = false) :
    ∃ lead q tail, rest = lead ++ q :: tail ∧ (∀ b ∈ lead, endsPath b = false) ∧
      endsPath q = true := by
  obtain ⟨q, hfind⟩ : ∃ q, rest.find? endsPath = some q := by
    rw [← Option.isSome_iff_exists]
    simpa using h
  obtain ⟨hq, lead, tail, rfl, hlead⟩ := List.find?_eq_some_iff_append.mp hfind
  exact ⟨lead, q, tail, rfl, fun b hb => by simpa using hlead b hb, hq⟩

theorem dropWhile_eq_nil {rest : Octets} (h : 47 ∉ rest) : rest.dropWhile (· != 47) = [] := by
  refine List.dropWhile_eq_nil_iff.mpr fun b hb => ?_
  simp only [bne_iff_ne, ne_eq]
  rintro rfl
  exact h hb

/-- The part of a text from its first slash on. -/
theorem exists_slash {rest : Octets} (h : 47 ∈ rest) :
    ∃ lead tail, rest = lead ++ 47 :: tail ∧ rest.dropWhile (· != 47) = 47 :: tail := by
  obtain ⟨lead, tail, rfl, hlead⟩ := List.eq_append_cons_of_mem h
  refine ⟨lead, tail, rfl, ?_⟩
  rw [List.dropWhile_append, dropWhile_eq_nil hlead]
  rfl

theorem length_encode_dropWhile_le (rest : Octets) :
    (encodeRoutePath (rest.dropWhile (· != 47))).length ≤ (encodeRoutePath rest).length := by
  by_cases h : 47 ∈ rest
  · obtain ⟨lead, tail, rfl, hdrop⟩ := exists_slash h
    rw [hdrop, encodeRoutePath_append (by decide), List.length_append]
    omega
  · rw [dropWhile_eq_nil h, encodeRoutePath_eq_nil.mpr rfl]
    exact Nat.zero_le _

/-- What a client asks for is no longer than what follows the scheme, or it is the root. -/
theorem length_encode_pathAfterScheme_le (after : Octets) :
    (encodeRoutePath (pathAfterScheme after)).length ≤ (encodeRoutePath after).length + 1 := by
  have hroot : (encodeRoutePath [47]).length = 1 := by decide
  by_cases hplain : ∀ b ∈ after, endsPath b = false
  · by_cases hslash : 47 ∈ after
    · rw [pathAfterScheme_plain hplain hslash]
      have := length_encode_dropWhile_le after
      omega
    · have hnone : pathAfterScheme after = [47] := by
        have hall : (after.dropWhile fun b => !(b == 47 || endsPath b)) = [] := by
          refine List.dropWhile_eq_nil_iff.mpr fun b hb => ?_
          have hb47 : b ≠ 47 := fun heq => hslash (heq ▸ hb)
          simp [hplain b hb, hb47]
        simp only [pathAfterScheme, hall, List.takeWhile_nil, List.isEmpty_nil, if_true]
      rw [hnone, hroot]
      omega
  · obtain ⟨lead, q, tail, rfl, hlead, hq⟩ := exists_endsPath hplain
    rw [pathAfterScheme_ends hlead hq, encodeRoutePath_append (hexValue_of_endsPath hq),
      List.length_append]
    split
    · have := length_encode_dropWhile_le lead
      omega
    · rw [hroot]
      omega

/-- An issuer that is nothing but a scheme makes the authority part of the path. -/
theorem encode_ne_of_scheme (after : Octets) :
    encodeRoutePath (pathAfterScheme after) ≠ encodeRoutePath (47 :: 47 :: after) := by
  intro h
  have hle := length_encode_pathAfterScheme_le after
  rw [h, encodeRoutePath_slash, encodeRoutePath_slash, List.length_cons, List.length_cons] at hle
  omega

/-- A query or a fragment that is filed as part of the path makes it another one, unless the path
is a single slash either way. -/
theorem encode_ends_iff {tail : Octets} (hlead : ∀ b ∈ lead, endsPath b = false)
    (hq : endsPath q = true) (hslash : 47 ∈ lead ++ q :: tail) :
    encodeRoutePath (pathAfterScheme (lead ++ q :: tail)) =
        encodeRoutePath ((lead ++ q :: tail).dropWhile (· != 47)) ↔
      (lead ++ q :: tail).dropWhile (· != 47) = [47] := by
  rw [pathAfterScheme_ends hlead hq]
  by_cases hmem : 47 ∈ lead
  · obtain ⟨front, back, rfl, hdrop⟩ := exists_slash hmem
    have hdrop' : (front ++ 47 :: back ++ q :: tail).dropWhile (· != 47) =
        47 :: back ++ q :: tail := by
      rw [List.dropWhile_append, hdrop]
      rfl
    rw [if_pos hmem, hdrop, hdrop', encodeRoutePath_append (hexValue_of_endsPath hq),
      List.self_eq_append_right, encodeRoutePath_eq_nil]
    simp
  · obtain ⟨front, back, heq, hdrop⟩ := exists_slash hslash
    rw [if_neg hmem, hdrop, encodeRoutePath_slash, encodeRoutePath_slash]
    simp only [List.cons.injEq, true_and, encodeRoutePath_eq_nil.mpr rfl]
    rw [eq_comm, encodeRoutePath_eq_nil]

theorem encode_requestPath_iff {issuer url rest path : Octets} (htrim : issuer.getLast? ≠ some 47)
    (hurl : url = issuer ++ 47 :: rest) (hpath : requestPath url = some path) :
    encodeRoutePath path = encodeRoutePath (issuerPath issuer ++ 47 :: rest) ↔
      Addressed issuer url := by
  obtain ⟨scheme, after, hscheme_url, hscheme, rfl⟩ := requestPath_eq_some hpath
  rcases issuer_cases hscheme htrim (hscheme_url.symm.trans hurl) with
    ⟨rfl, rfl⟩ | ⟨a, -, rfl, rfl⟩
  · have hnone : afterScheme (scheme ++ [58]) = none := afterScheme_append hscheme _
    have hslash : 47 ∉ scheme ++ [58] := by
      intro hmem
      rcases List.mem_append.mp hmem with hmem | hmem
      · exact absurd (hscheme 47 hmem) (by decide)
      · exact absurd hmem (by decide)
    have hempty : issuerPath (scheme ++ [58]) = [] := by
      rw [issuerPath, hnone, Option.getD_none, dropWhile_eq_nil hslash]
      rfl
    rw [hempty, List.nil_append]
    refine iff_of_false (encode_ne_of_scheme after) fun h => ?_
    rw [Addressed, hnone] at h
    cases h.1
  · obtain ⟨hissuer, hroute⟩ := issuerPath_append rest hscheme htrim
    have hslash : 47 ∈ a ++ 47 :: rest := by simp
    have hsome : (afterScheme (scheme ++ 58 :: 47 :: 47 :: a)).isSome = true := by
      rw [afterScheme_url hscheme]
      rfl
    have hends : (∀ b ∈ url, endsPath b = false) ↔ ∀ b ∈ a ++ 47 :: rest, endsPath b = false := by
      rw [hscheme_url, List.forall_mem_append]
      refine ⟨fun h b hb => h.2 b (by simp [hb]),
        fun h => ⟨fun b hb => endsPath_of_scheme (hscheme b hb), ?_⟩⟩
      simp only [List.forall_mem_cons]
      exact ⟨by decide, by decide, by decide, by simpa using h⟩
    have hroot : (issuerPath (scheme ++ 58 :: 47 :: 47 :: a) = [] ∧
        url = scheme ++ 58 :: 47 :: 47 :: a ++ [47]) ↔
        (a ++ 47 :: rest).dropWhile (· != 47) = [47] := by
      rw [← hroute, hurl]
      cases issuerPath (scheme ++ 58 :: 47 :: 47 :: a) <;> simp
    rw [hroute, Addressed, hroot, hends]
    by_cases hplain : ∀ b ∈ a ++ 47 :: rest, endsPath b = false
    · rw [pathAfterScheme_plain hplain hslash]
      exact iff_of_true rfl ⟨hsome, .inl hplain⟩
    · obtain ⟨lead, q, tail, heq, hlead, hq⟩ := exists_endsPath hplain
      rw [heq] at hslash hplain ⊢
      rw [encode_ends_iff hlead hq hslash]
      exact ⟨fun h => ⟨hsome, .inr h⟩, fun h => h.2.resolve_left hplain⟩

/-! ## The published issuer -/

theorem getLast_utf8EncodeChar {c : Char} (h : c ≠ '/') :
    (String.utf8EncodeChar c).getLast? ≠ some 47 := by
  have hval : c.val.toNat ≠ 47 := fun heq => h (Char.ext (UInt32.toNat_inj.mp heq))
  unfold String.utf8EncodeChar
  dsimp only
  -- The last octet of a longer encoding is a continuation octet.
  split <;> [skip; split] <;> [skip; skip; split] <;>
    simp only [List.getLast?_cons_cons, List.getLast?_singleton, ne_eq, Option.some.injEq,
      UInt8.ext_iff, UInt8.toNat_ofNat', UInt8.reduceToNat] <;>
    omega

/-- The issuer is published without a slash at its end. -/
theorem ServerConfig.getLast_trimmedIssuer (config : ServerConfig) :
    (octets config.trimmedIssuer).getLast? ≠ some 47 := by
  rw [ServerConfig.trimmedIssuer, octets, String.toList_ofList]
  cases hrest : config.issuer.toList.reverse.dropWhile (· == '/') with
  | nil => simp
  | cons c rest =>
    have hc : c ≠ '/' := by
      have := List.head?_dropWhile_not (· == '/') config.issuer.toList.reverse
      rw [hrest] at this
      simpa using this
    obtain ⟨b, hb⟩ : ∃ b, (String.utf8EncodeChar c).getLast? = some b := by
      have hne : String.utf8EncodeChar c ≠ [] := by
        rw [ne_eq, ← List.length_eq_zero_iff, String.length_utf8EncodeChar]
        exact (Char.utf8Size_pos c).ne'
      exact ⟨_, List.getLast?_eq_some_getLast hne⟩
    rw [List.reverse_cons, List.flatMap_append, List.flatMap_singleton, List.getLast?_append, hb,
      Option.some_or, ← hb]
    exact getLast_utf8EncodeChar hc

namespace AuthorizationServerMetadata

theorem markAlgVerifiable_frame (build : Build) (alg : JwsAlg) (m : AuthorizationServerMetadata) :
    (m.markAlgVerifiable build alg).issuer = m.issuer ∧
      (m.markAlgVerifiable build alg).introspectionEndpoint = m.introspectionEndpoint := by
  simp only [markAlgVerifiable, markProofs, markRequestObjects, markAssertions]
  constructor <;> (repeat' split) <;> rfl

end AuthorizationServerMetadata

namespace Deployment

variable {d : Deployment}

theorem metadata_frame (d : Deployment) : d.metadata.issuer = d.config.trimmedIssuer ∧
    d.metadata.introspectionEndpoint = d.config.introspectionEndpoint := by
  -- No algorithm that is marked touches either of them.
  refine List.foldlRecOn (motive := fun m : AuthorizationServerMetadata =>
    m.issuer = d.config.trimmedIssuer ∧ m.introspectionEndpoint = d.config.introspectionEndpoint)
    _ _ ⟨rfl, rfl⟩ fun m hm alg _ => ?_
  obtain ⟨hissuer, hintrospection⟩ := m.markAlgVerifiable_frame d.build alg
  exact ⟨hissuer.trans hm.1, hintrospection.trans hm.2⟩

theorem servedMetadata_frame (d : Deployment) :
    d.servedMetadata.issuer = d.config.trimmedIssuer ∧
      d.servedMetadata.introspectionEndpoint = d.config.introspectionEndpoint := by
  rw [servedMetadata]
  split <;> exact d.metadata_frame

end Deployment

/-! ## Endpoints -/

/-- The endpoints a client learns of from the document. -/
inductive Endpoint where
  | authorization
  | token
  | deviceAuthorization
  | introspection
  | revocation
  | registration
  | pushedRequest
  | keySet
deriving DecidableEq, Repr

namespace Endpoint

/-- The URL the document gives for an endpoint. -/
def advertised (m : AuthorizationServerMetadata) : Endpoint → Option String
  | authorization => some m.authorizationEndpoint
  | token => some m.tokenEndpoint
  | deviceAuthorization => some m.deviceAuthorizationEndpoint
  | introspection => m.introspectionEndpoint
  | revocation => m.revocationEndpoint
  | registration => m.registrationEndpoint
  | pushedRequest => m.pushedAuthorizationRequestEndpoint
  | keySet => m.jwksUri

def route : Endpoint → Route
  | authorization => .authorize
  | token => .token
  | deviceAuthorization => .device
  | introspection => .introspect
  | revocation => .revoke
  | registration => .register
  | pushedRequest => .par
  | keySet => .jwks

/-- Where the table has an endpoint. -/
def path (r : Routes) : Endpoint → Option Octets
  | authorization => some r.authorize
  | token => some r.token
  | deviceAuthorization => some r.device
  | introspection => r.introspect
  | revocation => r.revoke
  | registration => r.register
  | pushedRequest => r.par
  | keySet => r.jwks

end Endpoint

namespace Routes

variable {r : Routes}

theorem nodup_of_firstDuplicate {paths : List Octets} (h : firstDuplicate paths = none) :
    paths.Nodup := by
  induction paths with
  | nil => exact List.nodup_nil
  | cons path rest ih =>
    rw [firstDuplicate] at h
    split at h
    · cases h
    · rename_i hnot
      refine List.nodup_cons.mpr ⟨fun hmem => hnot ?_, ih h⟩
      simpa using hmem

/-- The fixed paths are among those that are compared with each other. -/
theorem nodup_table (h : firstDuplicate r.claimed = none) : (r.table.map Prod.fst).Nodup := by
  refine (nodup_of_firstDuplicate h).sublist ?_
  have hfst (path : Option Octets) (route : Route) :
      ((path.map (·, route)).toList.map Prod.fst) = path.toList := by
    cases path <;> rfl
  simp only [table, claimed, List.map_append, hfst]
  -- The paths of single registrations are compared, but are no fixed path.
  exact ((List.sublist_append_left _ _).append (List.Sublist.refl _)).append (List.Sublist.refl _)

theorem mem_table (e : Endpoint) (p : Octets) : (p, e.route) ∈ r.table ↔ e.path r = some p := by
  have hfst {path : Option Octets} {route : Route} :
      (p, e.route) ∈ (path.map (·, route)).toList ↔ path = some p ∧ route = e.route := by
    cases path <;> simp [eq_comm]
  simp only [table, List.mem_append, hfst]
  cases e <;> simp [Endpoint.route, Endpoint.path, eq_comm]

/-- With all paths different, a path resolves to an endpoint exactly if the endpoint is there. -/
theorem resolve_iff (h : firstDuplicate r.claimed = none) (e : Endpoint) (p : Octets) :
    r.resolve p = some e.route ↔ e.path r = some p := by
  let rows : Table (Prod.fst : Octets × Route → Octets) := ⟨r.table, nodup_table h⟩
  have hrow (entry : Octets × Route) :
      r.table.find? (fun entry => entry.1 = p) = some entry ↔ entry ∈ r.table ∧ entry.1 = p :=
    Table.lookup_eq_some (t := rows)
  rw [← mem_table, resolve]
  split
  · rename_i entry hentry
    obtain ⟨hmem, rfl⟩ := (hrow entry).mp hentry
    constructor
    · intro heq
      rw [← Option.some.inj heq]
      exact hmem
    · intro hmem'
      have := (hrow _).mpr ⟨hmem', rfl⟩
      rw [hentry] at this
      rw [Option.some.inj this]
  · rename_i hnone
    refine iff_of_false (fun heq => ?_) fun hmem => ?_
    · -- Only a client id is looked for elsewhere, and that is no endpoint of the document.
      obtain ⟨rest, -, hrest⟩ := Option.bind_eq_some_iff.mp heq
      split at hrest
      · cases e <;> cases hrest
      · cases hrest
    · rw [(hrow _).mpr ⟨hmem, rfl⟩] at hnone
      cases hnone

end Routes

/-! ## Building the table -/

theorem endpointPath_eq {issuer url : String} {rest : Octets} (name : String)
    (hurl : octets url = octets issuer ++ 47 :: rest) :
    endpointPath issuer name url =
      .ok (encodeRoutePath (issuerPath (octets issuer) ++ 47 :: rest)) := by
  have hstrip : stripText (octets issuer) (octets url) = some (47 :: rest) := by
    rw [stripText, if_pos (List.isPrefixOf_iff_prefix.mpr ⟨_, hurl.symm⟩), hurl, List.drop_left]
  simp only [endpointPath, hstrip]

namespace Deployment

variable {d : Deployment} {r : Routes}

/-- What the table of a service has at an endpoint whose URL is under the issuer. -/
structure Built (d : Deployment) (r : Routes) : Prop where
  path : ∀ {e : Endpoint} {url : String} {rest : Octets},
    e.advertised d.servedMetadata = some url →
    octets url = octets d.servedMetadata.issuer ++ 47 :: rest →
    e.path r = some (encodeRoutePath (issuerPath (octets d.servedMetadata.issuer) ++ 47 :: rest))
  distinct : firstDuplicate r.claimed = none

section Paths
variable {issuer name url : String} {advertised : Option String} {path? : Option Octets}
  {rest : Octets} (hsome : advertised = some url) (hurl : octets url = octets issuer ++ 47 :: rest)

include hurl

theorem path_of_endpointPath {path : Octets} (h : endpointPath issuer name url = .ok path) :
    path = encodeRoutePath (issuerPath (octets issuer) ++ 47 :: rest) := by
  rw [endpointPath_eq name hurl] at h
  exact (Except.ok.inj h).symm

include hsome

theorem path_of_optionalPath (h : optionalPath issuer name advertised = .ok path?) :
    path? = some (encodeRoutePath (issuerPath (octets issuer) ++ 47 :: rest)) := by
  subst hsome
  rw [optionalPath, endpointPath_eq name hurl] at h
  exact (Except.ok.inj h).symm

/-- A build without signing does not publish a key set under its issuer. -/
theorem path_of_jwksPath (h : d.jwksPath issuer advertised = .ok path?) :
    path? = some (encodeRoutePath (issuerPath (octets issuer) ++ 47 :: rest)) := by
  unfold jwksPath at h
  split at h
  · exact path_of_optionalPath hsome hurl h
  · subst hsome
    simp only [endpointPath_eq "jwks_uri" hurl, reduceCtorEq] at h

end Paths

theorem built_of_routes (h : d.routes = .ok r) : d.Built r := by
  unfold routes at h
  obtain ⟨authorize, hauthorize, h⟩ := except_bind_ok h
  obtain ⟨token, htoken, h⟩ := except_bind_ok h
  obtain ⟨device, hdevice, h⟩ := except_bind_ok h
  obtain ⟨introspect, hintrospect, h⟩ := except_bind_ok h
  obtain ⟨revoke, hrevoke, h⟩ := except_bind_ok h
  obtain ⟨register, hregister, h⟩ := except_bind_ok h
  obtain ⟨par, hpar, h⟩ := except_bind_ok h
  obtain ⟨jwks, hjwks, h⟩ := except_bind_ok h
  dsimp only at h
  split at h
  · cases h
  · rename_i hdistinct
    obtain rfl := Except.ok.inj h
    refine ⟨fun {e url rest} hadvertised hurl => ?_, hdistinct⟩
    cases e with
    | authorization => cases hadvertised; exact congrArg some (path_of_endpointPath hurl hauthorize)
    | token => cases hadvertised; exact congrArg some (path_of_endpointPath hurl htoken)
    | deviceAuthorization => cases hadvertised; exact congrArg some (path_of_endpointPath hurl hdevice)
    | introspection =>
      have hconfig : d.config.introspectionEndpoint = some url :=
        d.servedMetadata_frame.2.symm.trans hadvertised
      rw [hconfig] at hintrospect
      exact congrArg some (path_of_endpointPath hurl hintrospect)
    | revocation => exact path_of_optionalPath hadvertised hurl hrevoke
    | registration => exact path_of_optionalPath hadvertised hurl hregister
    | pushedRequest => exact path_of_optionalPath hadvertised hurl hpar
    | keySet => exact path_of_jwksPath hadvertised hurl hjwks

/-- A URL the document gives for an endpoint, under the issuer. -/
def Publishes (d : Deployment) (e : Endpoint) (url : String) : Prop :=
  e.advertised d.servedMetadata = some url ∧
    octets d.servedMetadata.issuer ++ [47] <+: octets url

/-- However a client spells the path of a published URL, the service takes it to the endpoint. -/
def Serves (d : Deployment) (r : Routes) (e : Endpoint) (url : String) : Prop :=
  d.Publishes e url → ∀ path, requestPath (octets url) = some path →
    ∀ wire, Spells path wire → r.resolve (uppercaseEscapes wire) = some e.route

theorem serves_iff (h : d.Built r) (e : Endpoint) (url : String) :
    d.Serves r e url ↔ (d.Publishes e url → (requestPath (octets url)).isSome = true →
      Addressed (octets d.servedMetadata.issuer) (octets url)) := by
  refine imp_congr_right ?_
  rintro ⟨hadvertised, rest, hrest⟩
  have hurl : octets url = octets d.servedMetadata.issuer ++ 47 :: rest := by
    rw [← hrest, List.append_assoc]
    rfl
  have htrim : (octets d.servedMetadata.issuer).getLast? ≠ some 47 := by
    rw [d.servedMetadata_frame.1]
    exact d.config.getLast_trimmedIssuer
  have hresolve (p : Octets) : r.resolve p = some e.route ↔
      p = encodeRoutePath (issuerPath (octets d.servedMetadata.issuer) ++ 47 :: rest) := by
    rw [Routes.resolve_iff h.distinct, h.path hadvertised hurl, Option.some.injEq, eq_comm]
  constructor
  · intro hserved hsome
    obtain ⟨path, hpath⟩ := Option.isSome_iff_exists.mp hsome
    have := (hresolve _).mp (hserved path hpath _ (Spells.encode path))
    rw [(Spells.encode path).uppercase_eq] at this
    exact (encode_requestPath_iff htrim hurl hpath).mp this
  · intro haddressed path hpath wire hwire
    rw [hresolve, hwire.uppercase_eq]
    exact (encode_requestPath_iff htrim hurl hpath).mpr
      (haddressed (Option.isSome_iff_exists.mpr ⟨path, hpath⟩))

end Deployment

/-- A service that was built serves what it advertises exactly if no URL it publishes under its
issuer has a query or a fragment, other than after the authority of an issuer without a path. -/
theorem advertised_served_iff {d : Deployment} {r : Routes} (h : d.routes = .ok r) :
    (∀ e url, d.Serves r e url) ↔
      ∀ e url, d.Publishes e url → (requestPath (octets url)).isSome = true →
        Addressed (octets d.servedMetadata.issuer) (octets url) :=
  forall_congr' fun e => forall_congr' fun url =>
    Deployment.serves_iff (Deployment.built_of_routes h) e url

namespace Sample

/-- A server with the paths a configuration has by default, under an issuer with a path. -/
def tenant (token : Option String) : Deployment where
  build := ⟨false, false, false, false, false, false, false, false, false, false, false, false, false⟩
  config := { ServerConfig.new "https://as.example/t1/" "https://as.example/t1/device" with
    tokenEndpoint := token }
  jwsVerifiers := none
  backends := ⟨fun _ _ _ => false, fun _ _ _ => false, fun _ _ _ => false, fun _ _ _ => false⟩

/-- The paths of the tenant, with that of its token endpoint. -/
def tenantRoutes (token : String) : Routes where
  wellKnown := octets "/.well-known/oauth-authorization-server/t1"
  authorize := octets "/t1/authorize"
  token := octets token
  device := octets "/t1/device_authorization"
  introspect := some (octets "/t1/introspect")
  revoke := some (octets "/t1/revoke")
  verification := some (octets "/t1/device")
  register := none
  manage := none
  par := none
  jwks := none

end Sample

theorem advertised_served_tenant :
    (Sample.tenant none).routes = .ok (Sample.tenantRoutes "/t1/token") ∧
      (Sample.tenant none).Publishes .token "https://as.example/t1/token" ∧
      ∀ e url, (Sample.tenant none).Serves (Sample.tenantRoutes "/t1/token") e url := by
  have hroutes : (Sample.tenant none).routes = .ok (Sample.tenantRoutes "/t1/token") := by
    decide +kernel
  refine ⟨hroutes, ⟨by decide +kernel, by decide +kernel⟩, (advertised_served_iff hroutes).mpr ?_⟩
  rintro e url ⟨hadvertised, -⟩ -
  -- The four that are advertised are decided alike.
  cases e <;> cases hadvertised <;> exact ⟨by decide +kernel, .inl (by decide +kernel)⟩

/-- A token endpoint with a query is advertised, and the service is built; what a client sends for
it is answered by no endpoint. -/
theorem query_not_served :
    (Sample.tenant (some "https://as.example/t1/token?v=2")).routes =
        .ok (Sample.tenantRoutes "/t1/token%3Fv=2") ∧
      (Sample.tenant (some "https://as.example/t1/token?v=2")).Publishes .token
        "https://as.example/t1/token?v=2" ∧
      requestPath (octets "https://as.example/t1/token?v=2") = some (octets "/t1/token") ∧
      Spells (octets "/t1/token") (octets "/t1/token") ∧
      (Sample.tenantRoutes "/t1/token%3Fv=2").resolve (uppercaseEscapes (octets "/t1/token")) =
        none := by
  refine ⟨by decide +kernel, ⟨by decide +kernel, by decide +kernel⟩, by decide +kernel, ?_,
    by decide +kernel⟩
  have hencoded : encodeRoutePath (octets "/t1/token") = octets "/t1/token" := by decide +kernel
  have := Spells.encode (octets "/t1/token")
  rwa [hencoded] at this

end OauthAs
