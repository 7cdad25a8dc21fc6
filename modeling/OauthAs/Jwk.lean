-- SUMMARY: Public keys as JSON: which documents are read, and the thumbprint of what was read.
import OauthAs.Jws
import OauthAs.Lib.Base64

/-!
# JSON Web Keys

A key is read from JSON that anybody may have written. One with a private member is refused before
anything else is looked at, and the members that make up a key are kept as the texts they arrived
as. The thumbprint is a digest over a document built from those texts.
-/

namespace OauthAs.Jwt

/-- The octets of a text. -/
def utf8 (text : String) : Octets := text.toByteArray.data.toList

theorem utf8_injective : Function.Injective utf8 := by
  intro a b h
  exact String.toByteArray_inj.mp (ByteArray.ext (Array.toList_inj.mp h))

inductive EcCurve where
  | p256
deriving DecidableEq, Repr

inductive OkpCurve where
  | ed25519
deriving DecidableEq, Repr

def EcCurve.joseName : EcCurve → String
  | .p256 => "P-256"

def OkpCurve.joseName : OkpCurve → String
  | .ed25519 => "Ed25519"

/-- One public key, its members in base64url. -/
inductive Jwk where
  | ec (crv : EcCurve) (x y : String) (kid : Option String)
  | rsa (n e : String) (kid : Option String)
  | okp (crv : OkpCurve) (x : String) (kid : Option String)
deriving DecidableEq, Repr

structure VerifyError where
  message : String
deriving DecidableEq, Repr

/-- The members that carry private or symmetric key material. -/
def privateJwkMembers : List String := ["d", "p", "q", "dp", "dq", "qi", "oth", "k"]

def checkCoordinate (b64 : String) : Except VerifyError Unit :=
  match Base64url.decode b64 with
  | some bytes =>
    if bytes.length = 32 then .ok ()
    else .error ⟨"a P-256 coordinate is exactly 32 base64url-encoded bytes"⟩
  | none => .error ⟨"a P-256 coordinate is exactly 32 base64url-encoded bytes"⟩

namespace Jwk

/-- A member that has to be there, as text. -/
def member (object : JsonObject) (name : String) : Except VerifyError String :=
  match (object.get? name).bind Json.asStr with
  | some text => .ok text
  | none => .error ⟨"the JWK is missing a required member"⟩

def kidMember (object : JsonObject) : Option String := (object.get? "kid").bind Json.asStr

def ecFromJson (object : JsonObject) : Except VerifyError Jwk := do
  let crv ← member object "crv"
  if crv ≠ "P-256" then throw ⟨"only the P-256 curve is supported"⟩
  else do
    let x ← member object "x"
    let y ← member object "y"
    checkCoordinate x
    checkCoordinate y
    pure (.ec .p256 x y (kidMember object))

def rsaFromJson (object : JsonObject) : Except VerifyError Jwk := do
  let n ← member object "n"
  let e ← member object "e"
  if (Base64url.decode n).isNone || (Base64url.decode e).isNone then
    throw ⟨"an RSA n/e is base64urlUInt (unpadded base64url)"⟩
  else pure (.rsa n e (kidMember object))

def okpFromJson (object : JsonObject) : Except VerifyError Jwk := do
  let crv ← member object "crv"
  if crv ≠ "Ed25519" then throw ⟨"only the Ed25519 curve is supported"⟩
  else do
    let x ← member object "x"
    match Base64url.decode x with
    | some bytes =>
      if bytes.length = 32 then pure (.okp .ed25519 x (kidMember object))
      else throw ⟨"an Ed25519 public key is exactly 32 base64url-encoded bytes"⟩
    | none => throw ⟨"an Ed25519 public key is exactly 32 base64url-encoded bytes"⟩

/-- Private members are refused first, whatever else is right or wrong. -/
def fromJson : Json → Except VerifyError Jwk
  | .object object =>
    if privateJwkMembers.any fun name => (object.get? name).isSome then
      .error ⟨"the JWK carries a private or symmetric key parameter"⟩
    else do
      let kty ← member object "kty"
      if kty = "EC" then ecFromJson object
      else if kty = "RSA" then rsaFromJson object
      else if kty = "OKP" then okpFromJson object
      else throw ⟨"only EC, RSA, and OKP keys are supported"⟩
  | _ => .error ⟨"a JWK must be a JSON object"⟩

def kid : Jwk → Option String
  | .ec _ _ _ kid => kid
  | .rsa _ _ kid => kid
  | .okp _ _ kid => kid

def keyKind : Jwk → KeyKind
  | .ec _ _ _ _ => .ec
  | .rsa _ _ _ => .rsa
  | .okp _ _ _ => .okp

/-- What the thumbprint is taken over: the members that make up the key, in order, and no other. -/
def thumbprintInput : Jwk → String
  | .ec crv x y _ =>
    "\x7b\"crv\":\"" ++ crv.joseName ++ "\",\"kty\":\"EC\",\"x\":\"" ++ x ++ "\",\"y\":\"" ++ y ++
      "\"\x7d"
  | .rsa n e _ => "\x7b\"e\":\"" ++ e ++ "\",\"kty\":\"RSA\",\"n\":\"" ++ n ++ "\"\x7d"
  | .okp crv x _ =>
    "\x7b\"crv\":\"" ++ crv.joseName ++ "\",\"kty\":\"OKP\",\"x\":\"" ++ x ++ "\"\x7d"

/-- The thumbprint, for a digest of texts. -/
def thumbprint (sha256 : String → Octets) (key : Jwk) : String :=
  Base64url.encode (sha256 key.thumbprintInput)

end Jwk

end OauthAs.Jwt
