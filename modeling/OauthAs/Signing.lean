-- SUMMARY: The signing configuration: the active key, the retired keys, and rotation.
import OauthAs.Config
import OauthAs.Jwk

/-!
# Signing configuration

Tokens are signed with the active key. Rotation replaces it and keeps the public half of the
previous key in the published set, so that tokens signed before the swap still verify. A retired
key leaves the set when the host says so.
-/

namespace OauthAs.Jwt

/-- What is read of a signing backend, once, when it becomes the active one. -/
structure Signer where
  alg : JwsAlg
  publicJwk : Jwk
deriving DecidableEq, Repr

/-- One character of a JSON string. -/
def escapeChar (c : Char) : String :=
  if c = '"' then "\\\""
  else if c = '\\' then "\\\\"
  else if c = '\n' then "\\n"
  else if c = '\r' then "\\r"
  else if c = '\t' then "\\t"
  else if c = '\x08' then "\\b"
  else if c = '\x0c' then "\\f"
  else if c.toNat < 0x20 then
    "\\u00" ++ String.ofList [Nat.digitChar (c.toNat / 16), Nat.digitChar (c.toNat % 16)]
  else String.singleton c

/-- The protected header of every token that is signed under `kid`. -/
def encodedJoseHeader (alg : JwsAlg) (kid : String) : String :=
  Base64url.encode (utf8 ("\x7b\"alg\":\"" ++ alg.joseName ++ "\",\"typ\":\"at+jwt\",\"kid\":\"" ++
    String.join (kid.toList.map escapeChar) ++ "\"\x7d"))

structure JwtConfig where
  signer : Signer
  alg : JwsAlg
  /-- The public half of the signing key, read from the signer once. -/
  active : Jwk
  /-- The public halves of keys that signed before. -/
  retired : List Jwk
  audience : Audience
  jwksUri : Option String
  encodedHeader : String
deriving DecidableEq, Repr

namespace JwtConfig

def new (signer : Signer) (audience : String) : JwtConfig where
  signer := signer
  alg := signer.alg
  active := signer.publicJwk
  retired := []
  audience := .one audience
  jwksUri := none
  encodedHeader := encodedJoseHeader signer.alg (signer.publicJwk.kid.getD "")

/-- The retired keys that share a name neither with the key that leaves nor with the one that
comes. Names are compared as options. -/
def kept (c : JwtConfig) (newActive : Signer) : List Jwk :=
  c.retired.filter fun jwk => jwk.kid ≠ c.active.kid ∧ jwk.kid ≠ newActive.publicJwk.kid

/-- Promote a key and retire the current one. -/
def rotateTo (c : JwtConfig) (newActive : Signer) : JwtConfig :=
  { c with
    signer := newActive
    alg := newActive.alg
    active := newActive.publicJwk
    encodedHeader := encodedJoseHeader newActive.alg (newActive.publicJwk.kid.getD "")
    retired :=
      if c.active.kid ≠ newActive.publicJwk.kid then c.active :: c.kept newActive
      else c.kept newActive }

def forgetRetiredKeyBreakingItsLiveTokens (c : JwtConfig) (kid : String) : JwtConfig :=
  { c with retired := c.retired.filter fun jwk => jwk.kid ≠ some kid }

def kid (c : JwtConfig) : String := c.active.kid.getD ""

/-- The key set to serve: the active key, then the retired ones. -/
def jwks (c : JwtConfig) : List Jwk := c.active :: c.retired

end JwtConfig

end OauthAs.Jwt
