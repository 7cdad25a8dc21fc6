-- SUMMARY: Single-use credentials: DPoP proofs and client assertions, judged at one instant and claimed afterwards.
import OauthAs.Server.Issue

/-!
# Proofs of possession and client assertions

Both are signed tokens that carry an identifier and are good for a while. `verifyProof` and
`verifyAssertion` judge one at an instant and say which identifier it spends and until when that
has to be remembered; the caller then claims the identifier in the store, which succeeds once.
The checks stand in the source's order.
-/

namespace OauthAs

def clockSkewLeeway : Duration := .fromSecs 60

/-- The instant a numeric date names. -/
def numericInstant (ceiling : SystemTime) (secs : Nat) : Option SystemTime :=
  SystemTime.checkedAdd ceiling unixEpoch (.fromSecs secs)

/-! ## DPoP proofs -/

def dpopProofTyp : String := "dpop+jwt"

def maxProofAge : Duration := .fromSecs 300

def maxProofBytes : Nat := 4096

def maxJtiBytes : Nat := 128

/-- A URL without its query and fragment. -/
def htuOf (url : String) : String := String.ofList (url.toList.takeWhile fun c => c != '?' && c != '#')

/-- What follows the first `://`, and what comes before it and including it. -/
def splitScheme (before : List Char) : List Char → Option (List Char × List Char)
  | [] => none
  | c :: rest =>
    if "://".toList.isPrefixOf (c :: rest) then some (before ++ "://".toList, rest.drop 2)
    else splitScheme (before ++ [c]) rest

/-- Scheme and authority, and the path. -/
def splitOrigin (url : String) : List Char × List Char :=
  match splitScheme [] url.toList with
  | some (scheme, rest) =>
    (scheme ++ rest.takeWhile (· != '/'), rest.dropWhile (· != '/'))
  | none => ([], url.toList)

/-- The scheme and the authority are compared without regard to ASCII case, the path as it is. -/
def htuEq (claimed expected : String) : Bool :=
  let (claimedOrigin, claimedPath) := splitOrigin (htuOf claimed)
  let (expectedOrigin, expectedPath) := splitOrigin (htuOf expected)
  claimedOrigin.map Char.toLower == expectedOrigin.map Char.toLower && claimedPath == expectedPath

structure VerifiedProof where
  jkt : String
  jti : String
  replayUntil : SystemTime
deriving DecidableEq, Repr

/-- The key a proof carries, once the proof is seen to be one and to be signed by that key. -/
def proofKey (b : JwsBackend) (jws : CompactJws) : Except DpopFailure Jwk :=
  if jws.headerStr "typ" ≠ some dpopProofTyp then .error .notAProof
  else
    match expectAlg b jws .anyInstalled with
    | none => .error .unsupportedAlgorithm
    | some alg =>
      match (jws.header.get? "jwk").bind b.readJwk with
      | none => .error .badProofKey
      | some jwk =>
        if !consistent alg jwk then .error .badProofKey
        else
          match b.verifier alg with
          | none => .error .unsupportedAlgorithm
          | some verify =>
            if verify jwk.text jws.signingInput jws.signature then .ok jwk
            else .error .badSignature

/-- A proof is for one request line. -/
def proofBinding (jws : CompactJws) (htm htu : String) : Except DpopFailure Unit :=
  if jws.claimStr "htm" ≠ some htm then .error .wrongMethod
  else if (jws.claimStr "htu").any (htuEq · htu) then .ok ()
  else .error .wrongUri

/-- The instant until which a proof has to be remembered. It is accepted before that instant. -/
def proofWindow (ceiling : SystemTime) (jws : CompactJws) (now : SystemTime) :
    Except DpopFailure SystemTime :=
  match (jws.claimTime "iat").bind (numericInstant ceiling) with
  | none => .error .staleProof
  | some issuedAt =>
    match SystemTime.checkedAdd ceiling issuedAt maxProofAge,
      SystemTime.checkedAdd ceiling now clockSkewLeeway with
    | some replayUntil, some horizon =>
      if issuedAt > horizon ∨ replayUntil ≤ now then .error .staleProof else .ok replayUntil
    | _, _ => .error .staleProof

def proofJti (jws : CompactJws) : Except DpopFailure String :=
  let jti := (jws.claimStr "jti").getD ""
  if jti.isEmpty then .error .missingJti
  else if jti.utf8ByteSize > maxJtiBytes then .error .malformed
  else .ok jti

def verifyProof (b : JwsBackend) (ceiling : SystemTime) (proof htm htu : String)
    (now : SystemTime) : Except DpopFailure VerifiedProof :=
  if proof.utf8ByteSize > maxProofBytes then .error .malformed
  else
    match CompactJws.parse b proof with
    | none => .error .malformed
    | some jws =>
      if !jws.rejectUnknownCrit then .error .malformed
      else do
        let jwk ← proofKey b jws
        proofBinding jws htm htu
        let replayUntil ← proofWindow ceiling jws now
        let jti ← proofJti jws
        return ⟨jwk.thumbprint, jti, replayUntil⟩

/-! ## Client assertions -/

def maxAssertionBytes : Nat := 4096

def maxAssertionLifetime : Duration := .fromSecs 600

def acceptedTyp : List String := ["JWT", "jwt", "client-authentication+jwt"]

def AssertionKeys.signingAlg : AssertionKeys → String
  | .clientSecret _ => "HS256"
  | .publicKeys alg _ => alg.joseName

/-- Which `aud` values name this server: any of some, as a string or in an array, or exactly one,
as a string. -/
inductive AudienceRule where
  | anyOf (audiences : List String)
  | exactly (expected : String)
deriving DecidableEq, Repr

def audienceMatches (jws : CompactJws) (rule : AudienceRule) : Bool :=
  match rule, jws.payload.get? "aud" with
  | .anyOf audiences, some (.string one) => audiences.contains one
  | .anyOf audiences, some (.array many) =>
    (many.toList.filterMap Json.asStr).any fun one => audiences.contains one
  | .exactly expected, some (.string one) => one == expected
  | _, _ => false

/-- Whether the registration's keys signed the assertion; any one public key is enough. -/
def assertionSigned (b : JwsBackend) (keys : AssertionKeys) (jws : CompactJws) : Bool :=
  match keys with
  | .clientSecret secret => b.hs256 secret jws.signingInput jws.signature
  | .publicKeys alg keys =>
    match b.verifier alg with
    | some verify => keys.any fun key => verify key jws.signingInput jws.signature
    | none => false

/-- The assertion's own expiry. It is accepted before that instant. -/
def assertionWindow (ceiling : SystemTime) (jws : CompactJws) (now : SystemTime) :
    Except AssertionFailure SystemTime :=
  match (jws.claimTime "exp").bind (numericInstant ceiling) with
  | none => .error .expired
  | some expiresAt =>
    if now ≥ expiresAt then .error .expired
    else
      match SystemTime.checkedAdd ceiling now maxAssertionLifetime with
      | none => .error .expired
      | some latest => if expiresAt > latest then .error .expired else .ok expiresAt

/-- The optional dates an assertion starts to be good at. -/
def assertionStarted (ceiling : SystemTime) (jws : CompactJws) (now : SystemTime) : Bool :=
  match SystemTime.checkedAdd ceiling now clockSkewLeeway with
  | none => false
  | some horizon =>
    ["nbf", "iat"].all fun claim => (jws.claimTime claim).all fun value =>
      (numericInstant ceiling value).any fun instant => decide (instant ≤ horizon)

def assertionJti (jws : CompactJws) : Except AssertionFailure String :=
  let jti := (jws.claimStr "jti").getD ""
  if jti.isEmpty then .error .missingJti else .ok jti

def verifyAssertion (b : JwsBackend) (ceiling : SystemTime) (rule : AudienceRule)
    (keys : AssertionKeys) (assertion : String) (clientId : ClientId) (now : SystemTime) :
    Except AssertionFailure VerifiedAssertion :=
  if assertion.utf8ByteSize > maxAssertionBytes then .error .malformed
  else
    match CompactJws.parse b assertion with
    | none => .error .malformed
    | some jws =>
      if (jws.headerStr "typ").any fun typ => !acceptedTyp.contains typ then .error .malformed
      else if jws.headerStr "alg" ≠ some keys.signingAlg then .error .algorithmMismatch
      else if !jws.rejectUnknownCrit then .error .malformed
      else if !assertionSigned b keys jws then .error .badSignature
      else if jws.claimStr "iss" ≠ some clientId ∨ jws.claimStr "sub" ≠ some clientId then
        .error .wrongPrincipal
      else if !audienceMatches jws rule then .error .wrongAudience
      else do
        let expiresAt ← assertionWindow ceiling jws now
        if !assertionStarted ceiling jws now then .error .notYetValid
        else do
          let jti ← assertionJti jws
          return ⟨jti, expiresAt⟩

/-- The checks an assertion has to pass, and what is left of it then. -/
structure AssertionAccepted (b : JwsBackend) (ceiling : SystemTime) (rule : AudienceRule)
    (keys : AssertionKeys) (assertion : String) (clientId : ClientId) (now : SystemTime)
    (jws : CompactJws) (v : VerifiedAssertion) : Prop where
  size : assertion.utf8ByteSize ≤ maxAssertionBytes
  typ : ∀ typ, jws.headerStr "typ" = some typ → acceptedTyp.contains typ = true
  alg : jws.headerStr "alg" = some keys.signingAlg
  crit : jws.rejectUnknownCrit = true
  signed : assertionSigned b keys jws = true
  iss : jws.claimStr "iss" = some clientId
  sub : jws.claimStr "sub" = some clientId
  audience : audienceMatches jws rule = true
  window : assertionWindow ceiling jws now = .ok v.expiresAt
  started : assertionStarted ceiling jws now = true
  jti : assertionJti jws = .ok v.jti

theorem verifyAssertion_eq_ok {b : JwsBackend} {ceiling now : SystemTime} {rule : AudienceRule}
    {keys : AssertionKeys} {assertion : String} {clientId : ClientId} {v : VerifiedAssertion} :
    verifyAssertion b ceiling rule keys assertion clientId now = .ok v ↔
      ∃ jws, CompactJws.parse b assertion = some jws ∧
        AssertionAccepted b ceiling rule keys assertion clientId now jws v := by
  unfold verifyAssertion
  cases hjws : CompactJws.parse b assertion with
  | none => simp
  | some jws =>
    simp only [ite_error_eq_ok, except_bind_eq_ok, not_or, ne_eq, not_not, Bool.not_eq_true']
    constructor
    · rintro ⟨hsize, htyp, halg, hcrit, hsigned, hprincipal, haudience, deadline, hwindow, hstarted,
        jti, hjti, ⟨⟩⟩
      refine ⟨jws, rfl, Nat.le_of_not_lt hsize, fun typ heq => ?_, halg, by simpa using hcrit,
        by simpa using hsigned, hprincipal.1, hprincipal.2, by simpa using haudience, hwindow,
        by simpa using hstarted, hjti⟩
      rw [heq] at htyp
      simpa using htyp
    · rintro ⟨_, ⟨⟩, h⟩
      refine ⟨Nat.not_lt.mpr h.size, ?_, h.alg, by simp [h.crit], by simp [h.signed], ⟨h.iss, h.sub⟩,
        by simp [h.audience], _, h.window, by simp [h.started], _, h.jti, rfl⟩
      cases heq : jws.headerStr "typ" with
      | none => exact Bool.false_ne_true
      | some typ => simpa using h.typ typ heq

namespace Server

open Handler

variable (srv : Server)

def tokenEndpoint : String := srv.config.tokenEndpoint.getD (srv.issuerIdentifier ++ "/token")

def audienceRule : AudienceRule :=
  match srv.config.assertionAudience with
  | .rfc7523 => .anyOf [srv.tokenEndpoint, srv.issuerIdentifier]
  | .issuerOnly => .exactly srv.issuerIdentifier

/-- The server that verifies client assertions with the backend its host supplies. -/
def verifying : Server :=
  { srv with host := { srv.host with
      verifyAssertion := verifyAssertion srv.host.jws srv.host.ceiling srv.audienceRule } }

def invalidDpopProof : ErrorResponse := .new .invalidDpopProof

/-- A request without a proof goes on unbound unless proofs are required; one with a proof is
bound to the proof's key, once. -/
def verifyDpopInner (proof : Option String) (htm htu : String) :
    Handler ErrorResponse (Option String) :=
  match proof with
  | none =>
    if srv.config.requireDpop then
      throw (invalidDpopProof.withDescription
        "this server requires a DPoP proof on every token request")
    else pure none
  | some proof =>
    if JwsAlg.all.all fun alg => (srv.host.jws.verifier alg).isNone then do
      emit (.dpopProofRefused .unsupportedAlgorithm)
      throw invalidDpopProof
    else do
      let now ← now
      match verifyProof srv.host.jws srv.host.ceiling proof htm htu now with
      | .error failure =>
        emit (.dpopProofRefused failure)
        throw invalidDpopProof
      | .ok verified =>
        if ← store (.claimReplayId (replayKey "dpop" verified.jkt verified.jti)
            verified.replayUntil) then
          pure (some verified.jkt)
        else do
          emit (.dpopProofRefused .replayed)
          throw invalidDpopProof

end Server

end OauthAs
