-- SUMMARY: Compact JWS tokens: how one is taken apart, the algorithms it may name, and what it is checked with.
import OauthAs.Client
import OauthAs.Details

/-!
# Signed tokens

DPoP proofs, client assertions and request objects are compact JWS tokens. Decoding base64url,
reading JSON and checking a signature are the work of other libraries and are collected in
`JwsBackend`; which segments there are, which algorithm a header may name and what is read from
the header and the payload is decided here.
-/

namespace OauthAs

abbrev Octets := List UInt8

/-- The pieces between separators: one more than there are separators. -/
def segments (separator : Char) (text : String) : List String :=
  (text.toList.splitOn separator).map String.ofList

/-! ## Reading JSON -/

def JsonObject.get? : JsonObject → String → Option Json
  | .nil, _ => none
  | .cons key value rest, name => if key = name then some value else rest.get? name

def JsonArray.toList : JsonArray → List Json
  | .nil => []
  | .cons head tail => head :: tail.toList

def Json.asStr : Json → Option String
  | .string text => some text
  | _ => none

/-- The value of a decimal numeral. -/
def decimal (digits : List Char) : Nat := digits.foldl (fun n c => 10 * n + (c.toNat - 48)) 0

/-- A numeral of decimal digits that fits an unsigned 64-bit integer. -/
def parseU64 (text : String) : Option Nat :=
  if !text.isEmpty && text.toList.all Char.isDigit && decide (decimal text.toList < 2 ^ 64) then
    some (decimal text.toList)
  else none

/-- A number written as a non-negative integer of 64 bits. -/
def Json.asU64 : Json → Option Nat
  | .number text => parseU64 text
  | _ => none

/-! ## Keys and algorithms -/

inductive KeyKind where
  | ec
  | rsa
  | okp
deriving DecidableEq, Repr

def JwsAlg.joseName : JwsAlg → String
  | .es256 => "ES256"
  | .rs256 => "RS256"
  | .edDsa => "EdDSA"
  | .ps256 => "PS256"

def JwsAlg.keyKind : JwsAlg → KeyKind
  | .es256 => .ec
  | .rs256 => .rsa
  | .ps256 => .rsa
  | .edDsa => .okp

def JwsAlg.all : List JwsAlg := [.es256, .rs256, .edDsa, .ps256]

/-- The one reading of an algorithm name; symmetric algorithms and `none` have no spelling here. -/
def classifyAlg (name : String) : Option JwsAlg := JwsAlg.all.find? fun alg => alg.joseName == name

/-- A public key: its text, what kind of key it is, and its thumbprint. -/
structure Jwk where
  text : String
  kind : KeyKind
  thumbprint : String
deriving DecidableEq, Repr

def consistent (alg : JwsAlg) (key : Jwk) : Bool := alg.keyKind == key.kind

/-- What signed tokens are decoded and checked with. -/
structure JwsBackend where
  base64Url : String → Option Octets
  parseJson : Octets → Option Json
  /-- A public key read from JSON; one with a private member is not read. -/
  readJwk : Json → Option Jwk
  /-- The installed verifiers: whether a signature over the signing input is by the key. -/
  verifier : JwsAlg → Option (String → String → Octets → Bool)
  hs256 : String → String → Octets → Bool
  /-- The value of a JSON number, whatever its spelling. -/
  f64 : String → Rat

/-- Nothing is decoded and no verifier is installed. -/
def JwsBackend.none : JwsBackend where
  base64Url _ := Option.none
  parseJson _ := Option.none
  readJwk _ := Option.none
  verifier _ := Option.none
  hs256 _ _ _ := false
  f64 _ := 0

/-! ## Compact tokens -/

structure CompactJws where
  signingInput : String
  header : JsonObject
  payload : JsonObject
  signature : Octets

namespace CompactJws

/-- A segment that decodes to a JSON object. -/
def object (b : JwsBackend) (segment : String) : Option JsonObject := do
  match ← b.parseJson (← b.base64Url segment) with
  | .object members => some members
  | _ => none

/-- Exactly three segments: two objects and the signature over them as they arrived. -/
def parse (b : JwsBackend) (token : String) : Option CompactJws :=
  match segments '.' token with
  | [header, payload, signature] => do
    some ⟨header ++ "." ++ payload, ← object b header, ← object b payload, ← b.base64Url signature⟩
  | _ => none

def headerStr (jws : CompactJws) (name : String) : Option String := (jws.header.get? name).bind Json.asStr

/-- No extension is implemented, so a header that demands one is refused. -/
def rejectUnknownCrit (jws : CompactJws) : Bool := (jws.header.get? "crit").isNone

def claimStr (jws : CompactJws) (name : String) : Option String := (jws.payload.get? name).bind Json.asStr

def claimTime (jws : CompactJws) (name : String) : Option Nat := (jws.payload.get? name).bind Json.asU64

end CompactJws

/-- The registration's algorithm, or any that a verifier is installed for. -/
inductive AlgPolicy where
  | registered (alg : JwsAlg)
  | anyInstalled
deriving DecidableEq, Repr

def expectAlg (b : JwsBackend) (jws : CompactJws) (policy : AlgPolicy) : Option JwsAlg := do
  let alg ← classifyAlg (← jws.headerStr "alg")
  match policy with
  | .registered expected => if alg = expected then some alg else none
  | .anyInstalled => if (b.verifier alg).isSome then some alg else none

end OauthAs
