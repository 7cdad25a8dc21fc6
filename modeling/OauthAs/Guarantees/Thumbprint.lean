-- SUMMARY: The thumbprint of a key identifies the key, but for RSA numbers with zeros in front.
import Mathlib.Data.List.TakeWhile
import Mathlib.Data.Nat.Digits.Lemmas
import OauthAs.Jwk
import OauthAs.Lib.Text

/-!
# Thumbprints

The digest is taken over the members as they were sent. Equal texts are equal keys, because nothing
that base64url is written with can end a member early. Equal keys are equal texts as far as a key
has one spelling only: the coordinates of curves have a fixed width, but the numbers of an RSA key
may be sent with zero octets in front, and each such spelling has a thumbprint of its own.
-/

namespace OauthAs.Jwt

variable {text : String} {object : JsonObject} {key a b : Jwk}

/-! ## Keys -/

/-- A big-endian number. -/
def uint (octets : Octets) : Nat := Nat.ofDigits 256 (octets.reverse.map UInt8.toNat)

/-- How many zero octets are in front of a number. -/
def zeros (octets : Octets) : Nat := (octets.takeWhile (· = 0)).length

/-- What a key is, however it was written down. -/
inductive PublicKey where
  | ec (crv : EcCurve) (x y : Octets)
  | rsa (n e : Nat)
  | okp (crv : OkpCurve) (x : Octets)
deriving DecidableEq

def PublicKey.kind : PublicKey → KeyKind
  | .ec _ _ _ => .ec
  | .rsa _ _ => .rsa
  | .okp _ _ => .okp

namespace Jwk

def publicKey : Jwk → Option PublicKey
  | .ec crv x y _ => do some (.ec crv (← Base64url.decode x) (← Base64url.decode y))
  | .rsa n e _ => do some (.rsa (uint (← Base64url.decode n)) (uint (← Base64url.decode e)))
  | .okp crv x _ => do some (.okp crv (← Base64url.decode x))

/-- The zero octets in front of the numbers of an RSA key. -/
def padding : Jwk → Nat × Nat
  | .rsa n e _ => (zeros ((Base64url.decode n).getD []), zeros ((Base64url.decode e).getD []))
  | _ => (0, 0)

/-- The members of the key can be decoded. -/
def Decodes : Jwk → Prop
  | .ec _ x y _ => (∃ a, Base64url.decode x = some a) ∧ ∃ b, Base64url.decode y = some b
  | .rsa n e _ => (∃ a, Base64url.decode n = some a) ∧ ∃ b, Base64url.decode e = some b
  | .okp _ x _ => ∃ a, Base64url.decode x = some a

end Jwk

/-! ## What was read -/

theorem decodes_of_checkCoordinate (h : checkCoordinate text = .ok ()) :
    ∃ octets, Base64url.decode text = some octets := by
  unfold checkCoordinate at h
  split at h
  · rename_i bytes hbytes
    exact ⟨bytes, hbytes⟩
  · cases h

theorem decodes_of_ecFromJson (h : Jwk.ecFromJson object = .ok key) : key.Decodes := by
  obtain ⟨crv, -, h⟩ := except_bind_ok h
  split at h
  · cases h
  · obtain ⟨x, -, h⟩ := except_bind_ok h
    obtain ⟨y, -, h⟩ := except_bind_ok h
    obtain ⟨⟨⟩, hx, h⟩ := except_bind_ok h
    obtain ⟨⟨⟩, hy, h⟩ := except_bind_ok h
    cases h
    exact ⟨decodes_of_checkCoordinate hx, decodes_of_checkCoordinate hy⟩

theorem decodes_of_rsaFromJson (h : Jwk.rsaFromJson object = .ok key) : key.Decodes := by
  obtain ⟨n, -, h⟩ := except_bind_ok h
  obtain ⟨e, -, h⟩ := except_bind_ok h
  split at h
  · cases h
  · rename_i hsome
    cases h
    rw [Bool.not_eq_true, Bool.or_eq_false_iff] at hsome
    exact ⟨Option.isSome_iff_exists.mp (by simpa using hsome.1),
      Option.isSome_iff_exists.mp (by simpa using hsome.2)⟩

theorem decodes_of_okpFromJson (h : Jwk.okpFromJson object = .ok key) : key.Decodes := by
  obtain ⟨crv, -, h⟩ := except_bind_ok h
  split at h
  · cases h
  · obtain ⟨x, -, h⟩ := except_bind_ok h
    split at h
    · rename_i bytes hbytes
      split at h
      · cases h
        exact ⟨bytes, hbytes⟩
      · cases h
    · cases h

theorem decodes_of_fromJson {value : Json} (h : Jwk.fromJson value = .ok key) : key.Decodes := by
  unfold Jwk.fromJson at h
  split at h
  · split at h
    · cases h
    · obtain ⟨kty, -, h⟩ := except_bind_ok h
      split at h
      · exact decodes_of_ecFromJson h
      · split at h
        · exact decodes_of_rsaFromJson h
        · split at h
          · exact decodes_of_okpFromJson h
          · cases h
  · cases h

/-! ## Texts -/

/-- The key under no name. -/
def Jwk.unnamed : Jwk → Jwk
  | .ec crv x y _ => .ec crv x y none
  | .rsa n e _ => .rsa n e none
  | .okp crv x _ => .okp crv x none

theorem quote_notMem (h : ∃ octets, Base64url.decode text = some octets) : '"' ∉ text.toList := by
  obtain ⟨octets, hoctets⟩ := h
  intro hquote
  have hmem := Base64url.mem_alphabet_of_decode hoctets '"' hquote
  revert hmem
  decide +kernel

/-- A member after a given start is determined by the document, and so is what follows. -/
theorem member_inj {start text' : String} {rest rest' : List Char}
    (htext : ∃ octets, Base64url.decode text = some octets)
    (htext' : ∃ octets, Base64url.decode text' = some octets)
    (h : start.toList ++ (text.toList ++ '"' :: rest) =
      start.toList ++ (text'.toList ++ '"' :: rest')) : text = text' ∧ rest = rest' := by
  obtain ⟨htexts, hrest⟩ :=
    Text.append_cons_inj (quote_notMem htext) (quote_notMem htext') (List.append_cancel_left h)
  exact ⟨String.toList_inj.mp htexts, hrest⟩

/-- The document of each kind of key, cut at its members. -/
theorem toList_thumbprintInput (key : Jwk) :
    key.thumbprintInput.toList =
      match key with
      | .ec .p256 x y _ =>
        "\x7b\"crv\":\"P-256\",\"kty\":\"EC\",\"x\":\"".toList ++ (x.toList ++ '"' ::
          (",\"y\":\"".toList ++ (y.toList ++ '"' :: ['\x7d'])))
      | .rsa n e _ =>
        "\x7b\"e\":\"".toList ++ (e.toList ++ '"' ::
          (",\"kty\":\"RSA\",\"n\":\"".toList ++ (n.toList ++ '"' :: ['\x7d'])))
      | .okp .ed25519 x _ =>
        "\x7b\"crv\":\"Ed25519\",\"kty\":\"OKP\",\"x\":\"".toList ++
          (x.toList ++ '"' :: ['\x7d']) := by
  cases key with
  | ec crv x y kid | okp crv x kid =>
    cases crv
    simp only [Jwk.thumbprintInput, String.toList_append, List.append_assoc]
    rfl
  | rsa n e kid =>
    simp only [Jwk.thumbprintInput, String.toList_append, List.append_assoc]
    rfl

/-- The character that tells the kinds of key apart. -/
theorem kind_of_thumbprintInput (key : Jwk) :
    key.thumbprintInput.toList[2]? = some (if key.keyKind = .rsa then 'e' else 'c') ∧
      (key.keyKind ≠ .rsa →
        key.thumbprintInput.toList[8]? = some (if key.keyKind = .ec then 'P' else 'E')) := by
  rw [toList_thumbprintInput]
  cases key with
  | ec crv x y kid | okp crv x kid =>
    cases crv
    exact ⟨rfl, fun _ => rfl⟩
  | rsa n e kid => exact ⟨rfl, fun h => absurd rfl h⟩

theorem keyKind_of_thumbprintInput (h : a.thumbprintInput = b.thumbprintInput) :
    a.keyKind = b.keyKind := by
  obtain ⟨ha, ha'⟩ := kind_of_thumbprintInput a
  obtain ⟨hb, hb'⟩ := kind_of_thumbprintInput b
  rw [h, hb] at ha
  rw [h] at ha'
  cases hka : a.keyKind <;> cases hkb : b.keyKind <;> simp_all

/-- Keys have the same document exactly if their members are the same texts. -/
theorem thumbprintInput_inj (ha : a.Decodes) (hb : b.Decodes) :
    a.thumbprintInput = b.thumbprintInput ↔ a.unnamed = b.unnamed := by
  constructor
  · intro h
    have hkind := keyKind_of_thumbprintInput h
    have hlist := congrArg String.toList h
    rw [toList_thumbprintInput, toList_thumbprintInput] at hlist
    cases a with
    | ec crv x y kid =>
      cases b with
      | ec crv' x' y' kid' =>
        cases crv
        cases crv'
        obtain ⟨hx, hrest⟩ := member_inj ha.1 hb.1 hlist
        obtain ⟨hy, -⟩ := member_inj ha.2 hb.2 hrest
        rw [Jwk.unnamed, Jwk.unnamed, hx, hy]
      | _ => cases hkind
    | rsa n e kid =>
      cases b with
      | rsa n' e' kid' =>
        obtain ⟨he, hrest⟩ := member_inj ha.2 hb.2 hlist
        obtain ⟨hn, -⟩ := member_inj ha.1 hb.1 hrest
        rw [Jwk.unnamed, Jwk.unnamed, he, hn]
      | _ => cases hkind
    | okp crv x kid =>
      cases b with
      | okp crv' x' kid' =>
        cases crv
        cases crv'
        obtain ⟨hx, -⟩ := member_inj ha hb hlist
        rw [Jwk.unnamed, Jwk.unnamed, hx]
      | _ => cases hkind
  · intro h
    have hunnamed : ∀ key : Jwk, key.thumbprintInput = key.unnamed.thumbprintInput := by
      intro key
      cases key <;> rfl
    rw [hunnamed a, hunnamed b, h]

/-! ## Numbers -/

theorem uint_replicate_append (k : Nat) (octets : Octets) :
    uint (List.replicate k 0 ++ octets) = uint octets := by
  unfold uint
  rw [List.reverse_append, List.map_append, List.reverse_replicate, List.map_replicate]
  exact Nat.ofDigits_append_replicate_zero _

theorem replicate_zeros_append (octets : Octets) :
    List.replicate (zeros octets) 0 ++ octets.dropWhile (· = 0) = octets := by
  have hzeros : octets.takeWhile (· = 0) = List.replicate (zeros octets) 0 := by
    refine List.eq_replicate_of_mem fun octet hoctet => ?_
    simpa using List.mem_takeWhile_imp hoctet
  rw [← hzeros, List.takeWhile_append_dropWhile]

/-- Without zeros in front a number has one spelling only. -/
theorem digits_uint {octets : Octets} (h : octets.head? ≠ some 0) :
    Nat.digits 256 (uint octets) = octets.reverse.map UInt8.toNat := by
  refine Nat.digits_ofDigits 256 (by decide) _ ?_ ?_
  · intro digit hdigit
    obtain ⟨octet, -, rfl⟩ := List.mem_map.mp hdigit
    exact octet.toNat_lt
  · intro hne hlast
    cases octets with
    | nil => exact hne rfl
    | cons octet octets =>
      rw [List.getLast_map, List.getLast_reverse] at hlast
      have hzero : octet = 0 := UInt8.toNat_inj.mp hlast
      exact h (congrArg some hzero)

theorem uint_inj {octets octets' : Octets} (huint : uint octets = uint octets')
    (hzeros : zeros octets = zeros octets') : octets = octets' := by
  have hhead : ∀ octets : Octets, (octets.dropWhile (· = 0)).head? ≠ some 0 := by
    intro octets h
    have := List.head?_dropWhile_not (· = 0) octets
    rw [h] at this
    cases this
  have hrest : octets.dropWhile (· = 0) = octets'.dropWhile (· = 0) := by
    rw [← replicate_zeros_append octets, ← replicate_zeros_append octets', uint_replicate_append,
      uint_replicate_append] at huint
    have hdigits := congrArg (Nat.digits 256) huint
    rw [digits_uint (hhead octets), digits_uint (hhead octets')] at hdigits
    exact List.reverse_inj.mp
      (List.map_injective_iff.mpr (fun _ _ => UInt8.toNat_inj.mp) hdigits)
  rw [← replicate_zeros_append octets, ← replicate_zeros_append octets', hzeros, hrest]

/-! ## Thumbprints -/

theorem kind_publicKey (h : key.Decodes) : key.publicKey.map PublicKey.kind = some key.keyKind := by
  cases key with
  | ec crv x y kid | rsa n e kid =>
    obtain ⟨⟨a, ha⟩, b, hb⟩ := h
    rw [Jwk.publicKey, ha, hb]
    rfl
  | okp crv x kid =>
    obtain ⟨a, ha⟩ := h
    rw [Jwk.publicKey, ha]
    rfl

/-- The same key with the same zeros in front is the same texts, and the other way round. -/
theorem unnamed_inj (ha : a.Decodes) (hb : b.Decodes) :
    a.unnamed = b.unnamed ↔ a.publicKey = b.publicKey ∧ a.padding = b.padding := by
  have hpublic : ∀ key : Jwk, key.publicKey = key.unnamed.publicKey := by
    intro key
    cases key <;> rfl
  have hpadding : ∀ key : Jwk, key.padding = key.unnamed.padding := by
    intro key
    cases key <;> rfl
  constructor
  · intro h
    rw [hpublic a, hpublic b, hpadding a, hpadding b, h]
    exact ⟨rfl, rfl⟩
  · rintro ⟨hkey, hzeros⟩
    have hkind : some a.keyKind = some b.keyKind := by
      rw [← kind_publicKey ha, ← kind_publicKey hb, hkey]
    cases a with
    | ec crv x y kid =>
      cases b with
      | ec crv' x' y' kid' =>
        obtain ⟨⟨x₁, hx₁⟩, ⟨y₁, hy₁⟩⟩ := ha
        obtain ⟨⟨x₂, hx₂⟩, ⟨y₂, hy₂⟩⟩ := hb
        rw [Jwk.publicKey, Jwk.publicKey, hx₁, hy₁, hx₂, hy₂] at hkey
        obtain ⟨rfl, rfl, rfl⟩ := PublicKey.ec.inj (Option.some.inj hkey)
        rw [Jwk.unnamed, Jwk.unnamed, Base64url.decode_injective hx₁ hx₂,
          Base64url.decode_injective hy₁ hy₂]
      | _ => cases hkind
    | rsa n e kid =>
      cases b with
      | rsa n' e' kid' =>
        obtain ⟨⟨n₁, hn₁⟩, ⟨e₁, he₁⟩⟩ := ha
        obtain ⟨⟨n₂, hn₂⟩, ⟨e₂, he₂⟩⟩ := hb
        rw [Jwk.publicKey, Jwk.publicKey, hn₁, he₁, hn₂, he₂] at hkey
        obtain ⟨hn, he⟩ := PublicKey.rsa.inj (Option.some.inj hkey)
        simp only [Jwk.padding, hn₁, he₁, hn₂, he₂, Option.getD_some, Prod.mk.injEq] at hzeros
        obtain rfl := uint_inj hn hzeros.1
        obtain rfl := uint_inj he hzeros.2
        rw [Jwk.unnamed, Jwk.unnamed, Base64url.decode_injective hn₁ hn₂,
          Base64url.decode_injective he₁ he₂]
      | _ => cases hkind
    | okp crv x kid =>
      cases b with
      | okp crv' x' kid' =>
        obtain ⟨x₁, hx₁⟩ := ha
        obtain ⟨x₂, hx₂⟩ := hb
        rw [Jwk.publicKey, Jwk.publicKey, hx₁, hx₂] at hkey
        obtain ⟨rfl, rfl⟩ := PublicKey.okp.inj (Option.some.inj hkey)
        rw [Jwk.unnamed, Jwk.unnamed, Base64url.decode_injective hx₁ hx₂]
      | _ => cases hkind

theorem thumbprint_inj {sha256 : String → Octets} (hsha : Function.Injective sha256)
    (ha : a.Decodes) (hb : b.Decodes) :
    a.thumbprint sha256 = b.thumbprint sha256 ↔
      a.publicKey = b.publicKey ∧ a.padding = b.padding := by
  rw [← unnamed_inj ha hb, ← thumbprintInput_inj ha hb]
  exact ⟨fun h => hsha (Base64url.encode_injective h), fun h => by rw [Jwk.thumbprint,
    Jwk.thumbprint, h]⟩

/-- The thumbprints of two documents tell the keys apart exactly if one key is written with the same
zeros in front in both. -/
theorem thumbprint_identifies_iff {sha256 : String → Octets} (hsha : Function.Injective sha256)
    {va vb : Json} {a b : Jwk} (ha : Jwk.fromJson va = .ok a) (hb : Jwk.fromJson vb = .ok b) :
    (a.thumbprint sha256 = b.thumbprint sha256 ↔ a.publicKey = b.publicKey) ↔
      (a.publicKey = b.publicKey → a.padding = b.padding) := by
  rw [thumbprint_inj hsha (decodes_of_fromJson ha) (decodes_of_fromJson hb)]
  exact and_iff_left_iff_imp

namespace Sample

def rsaKey (e : String) (kid : JsonObject) : Json :=
  .object (.cons "kty" (.string "RSA") (.cons "n" (.string "sXch") (.cons "e" (.string e) kid)))

end Sample

/-- Any injection does for the digest. -/
theorem thumbprint_identifies_renamed :
    Jwk.fromJson (Sample.rsaKey "AQAB" .nil) = .ok (.rsa "sXch" "AQAB" none) ∧
      (Jwk.thumbprint utf8 (.rsa "sXch" "AQAB" none) =
          Jwk.thumbprint utf8 (.rsa "sXch" "AQAB" (some "old")) ↔
        Jwk.publicKey (.rsa "sXch" "AQAB" none) =
          Jwk.publicKey (.rsa "sXch" "AQAB" (some "old"))) :=
  have hread : Jwk.fromJson (Sample.rsaKey "AQAB" .nil) = .ok (.rsa "sXch" "AQAB" none) := by
    decide +kernel
  have hnamed : Jwk.fromJson (Sample.rsaKey "AQAB" (.cons "kid" (.string "old") .nil)) =
      .ok (.rsa "sXch" "AQAB" (some "old")) := by
    decide +kernel
  ⟨hread, (thumbprint_identifies_iff utf8_injective hread hnamed).mpr fun _ => rfl⟩

/-- The exponent 65537 with a zero octet in front is read, and has another thumbprint. -/
theorem padded_exponent_has_another_thumbprint :
    Jwk.fromJson (Sample.rsaKey "AQAB" .nil) = .ok (.rsa "sXch" "AQAB" none) ∧
      Jwk.fromJson (Sample.rsaKey "AAEAAQ" .nil) = .ok (.rsa "sXch" "AAEAAQ" none) ∧
      Jwk.publicKey (.rsa "sXch" "AQAB" none) = Jwk.publicKey (.rsa "sXch" "AAEAAQ" none) ∧
      Jwk.thumbprint utf8 (.rsa "sXch" "AQAB" none) ≠
        Jwk.thumbprint utf8 (.rsa "sXch" "AAEAAQ" none) := by
  refine ⟨by decide +kernel, by decide +kernel, by decide +kernel, ?_⟩
  intro h
  have htexts := utf8_injective (Base64url.encode_injective h)
  revert htexts
  decide +kernel

end OauthAs.Jwt
