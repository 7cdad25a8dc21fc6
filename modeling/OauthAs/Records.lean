-- SUMMARY: The records the server persists: tokens, codes, device grants, pushed requests, consents.
import OauthAs.Client
import OauthAs.Details

/-!
# Stored records

Every record is filed under the string a client presents for it. A grant's identity (client,
subject, family and the instant it was established) travels on every record minted from it,
because that is what a revocation recorded in the meantime is judged against.
-/

namespace OauthAs

/-- What the host reported about how the user signed in. -/
structure Authentication where
  authTime : SystemTime
  acr : Option String
deriving DecidableEq, Repr

namespace Authentication

/-- How long ago the user signed in; absent for an instant in the future. -/
def age (a : Authentication) (now : SystemTime) : Option Duration := now.durationSince a.authTime

end Authentication

/-- RFC 9470: what an authorization request asks of the user's sign-in. -/
structure AuthenticationRequirement where
  acrValues : List String
  maxAge : Option Duration
deriving DecidableEq, Repr

/-- Why a reported sign-in does not do. -/
inductive StepUpFailure where
  | notReported
  | stale
  | acrNotMet
deriving DecidableEq, Repr

namespace AuthenticationRequirement

def none : AuthenticationRequirement := ⟨[], .none⟩

def isEmpty (r : AuthenticationRequirement) : Bool := r.acrValues.isEmpty && r.maxAge.isNone

/-- Freshness before class; what was not reported satisfies only a requirement that asks nothing. -/
def satisfiedBy (r : AuthenticationRequirement) (authentication : Option Authentication)
    (now : SystemTime) : Except StepUpFailure Unit :=
  if r.isEmpty then .ok ()
  else
    match authentication with
    | .none => .error .notReported
    | some a =>
      if r.maxAge.any fun maxAge => decide ((a.age now).getD 0 > maxAge) then .error .stale
      else if !r.acrValues.isEmpty && !a.acr.any fun acr => r.acrValues.contains acr then
        .error .acrNotMet
      else .ok ()

end AuthenticationRequirement

/-- RFC 8693 `act`: the current actor, and whoever acted before it. -/
inductive ActClaim where
  | actor (sub : String) (clientId : Option String)
  | after (sub : String) (clientId : Option String) (act : ActClaim)
deriving DecidableEq, Repr

/-- A new current actor in front of the actors before it. -/
def ActClaim.new (sub : String) (clientId : Option String) : Option ActClaim → ActClaim
  | none => .actor sub clientId
  | some act => .after sub clientId act

/-! ## Tokens -/

inductive TokenType where
  | bearer
  | dpop
deriving DecidableEq, Repr

inductive TokenTypeHint where
  | accessToken
  | refreshToken
deriving DecidableEq, Repr

structure TokenResponse where
  accessToken : String
  tokenType : TokenType
  expiresIn : Nat
  refreshToken : Option String
  scope : Option String
  authorizationDetails : AuthorizationDetails
deriving DecidableEq

structure IssuedToken where
  accessToken : String
  clientId : ClientId
  subject : Option String
  scope : ScopeSet
  resource : List String
  authorizationDetails : AuthorizationDetails
  issuedAt : SystemTime
  grantEstablishedAt : SystemTime
  expiresAt : SystemTime
  jkt : Option String
  x5tS256 : Option CertificateThumbprint
  familyId : Option String
  act : Option ActClaim
  authentication : Option Authentication
deriving DecidableEq

/-- A token assembled by hand: no family, and a grant instant that predates every revocation. -/
def IssuedToken.new (accessToken : String) (clientId : ClientId) (subject : Option String)
    (scope : ScopeSet) (issuedAt expiresAt : SystemTime) : IssuedToken :=
  { accessToken, clientId, subject, scope, resource := [], authorizationDetails := [], issuedAt,
    grantEstablishedAt := unixEpoch, expiresAt, jkt := none, x5tS256 := none, familyId := none,
    act := none, authentication := none }

inductive RefreshTokenState where
  | active
  | spent
deriving DecidableEq, Repr

/-- The response a rotation answered with, kept so that a retry gets the same answer. -/
structure RefreshTokenRetry where
  response : TokenResponse
  until_ : SystemTime
  jkt : Option String
deriving DecidableEq

structure RefreshTokenRecord where
  refreshToken : String
  clientId : ClientId
  subject : Option String
  scope : ScopeSet
  resource : List String
  authorizationDetails : AuthorizationDetails
  grantEstablishedAt : SystemTime
  expiresAt : Option SystemTime
  jkt : Option String
  x5tS256 : Option CertificateThumbprint
  familyId : String
  state : RefreshTokenState
  retry : Option RefreshTokenRetry
  authentication : Option Authentication
deriving DecidableEq

/-- A record assembled by hand: active, without a deadline, its grant instant as early as above. -/
def RefreshTokenRecord.new (refreshToken : String) (clientId : ClientId) (subject : Option String)
    (scope : ScopeSet) (familyId : String) : RefreshTokenRecord :=
  { refreshToken, clientId, subject, scope, resource := [], authorizationDetails := [],
    grantEstablishedAt := unixEpoch, expiresAt := none, jkt := none, x5tS256 := none, familyId,
    state := .active, retry := none, authentication := none }

/-! ## Authorization codes -/

inductive CodeChallengeMethod where
  | s256
deriving DecidableEq, Repr

/-- A consumed code remembers what its redemption minted, once that is known; a replayed one
remembers that it was presented again. -/
inductive AuthorizationCodeState where
  | issued
  | consumed (accessToken refreshToken : Option String)
  | replayed (accessToken refreshToken : Option String)
deriving DecidableEq, Repr

/-- The strings minted from a code that is no longer redeemable. -/
def AuthorizationCodeState.minted :
    AuthorizationCodeState → Option (Option String × Option String)
  | .issued => none
  | .consumed accessToken refreshToken => some (accessToken, refreshToken)
  | .replayed accessToken refreshToken => some (accessToken, refreshToken)

theorem AuthorizationCodeState.minted_eq_none {s : AuthorizationCodeState} :
    s.minted = none ↔ s = .issued := by
  cases s <;> simp [minted]

structure AuthorizationCodeRecord where
  code : String
  clientId : ClientId
  redirectUri : String
  redirectUriWasExplicit : Bool
  scope : ScopeSet
  subject : String
  codeChallenge : String
  codeChallengeMethod : CodeChallengeMethod
  resource : List String
  authorizationDetails : AuthorizationDetails
  issuedAt : SystemTime
  expiresAt : SystemTime
  state : AuthorizationCodeState
  authentication : Option Authentication
  dpopJkt : Option String
deriving DecidableEq

/-! ## Device grants -/

inductive DeviceGrantState where
  | pending
  | approved (subject : String)
  | denied
deriving DecidableEq, Repr

structure DeviceGrant where
  deviceCode : String
  userCode : String
  clientId : ClientId
  scope : ScopeSet
  state : DeviceGrantState
  createdAt : SystemTime
  expiresAt : SystemTime
  interval : Duration
  lastPollAt : Option SystemTime
deriving DecidableEq

/-- The Unicode `White_Space` property. -/
def isWhitespace (c : Char) : Bool :=
  let n := c.toNat
  (0x09 ≤ n && n ≤ 0x0D) || n = 0x20 || n = 0x85 || n = 0xA0 || n = 0x1680
    || (0x2000 ≤ n && n ≤ 0x200A) || n = 0x2028 || n = 0x2029 || n = 0x202F || n = 0x205F
    || n = 0x3000

/-- What a person typed, without whitespace and hyphens, in ASCII upper case. -/
def normalizeUserCode (entered : String) : String :=
  String.ofList ((entered.toList.filter fun c => !isWhitespace c && c != '-').map Char.toUpper)

/-! ## Pushed requests and consents -/

structure PushedAuthorizationRequest where
  requestUri : String
  clientId : ClientId
  responseType : Option String
  redirectUri : Option String
  scope : Option String
  state : Option String
  codeChallenge : Option String
  codeChallengeMethod : Option String
  resource : List String
  authorizationDetails : Option String
  acrValues : Option String
  maxAge : Option String
  dpopJkt : Option String
  pushedAt : SystemTime
  expiresAt : SystemTime
deriving DecidableEq, Repr

structure ConsentRecord where
  consentId : String
  clientId : ClientId
  subject : String
  scope : ScopeSet
  resource : List String
  grantedAt : SystemTime
  authentication : Option Authentication
deriving DecidableEq

/-- The most resources a consent remembers. -/
def maxConsentResources : Nat := 32

/-- Adds resources one by one while there is room, skipping those already there. -/
def ConsentRecord.addResources : List String → List String → List String
  | held, [] => held
  | held, r :: rest =>
    if held.length ≥ maxConsentResources then held
    else if held.contains r then addResources held rest
    else addResources (held ++ [r]) rest

def ConsentRecord.extend (c : ConsentRecord) (scope : ScopeSet) (resource : List String) :
    ConsentRecord :=
  { c with
    scope := if scope.isSubset c.scope then c.scope
      else ScopeSet.ofTokens (c.scope.tokens ++ scope.tokens)
    resource := ConsentRecord.addResources c.resource resource }

/-! ## What widening a consent keeps -/

namespace ConsentRecord

/-- No resource twice, and no more than fit. -/
def Tidy (c : ConsentRecord) : Prop := c.resource.Nodup ∧ c.resource.length ≤ maxConsentResources

/-- The same consent, covering at least as much. -/
structure Widens (c before : ConsentRecord) : Prop where
  id : c.consentId = before.consentId
  client : c.clientId = before.clientId
  subject : c.subject = before.subject
  grantedAt : c.grantedAt = before.grantedAt
  scope : before.scope.tokens ⊆ c.scope.tokens
  resource : before.resource ⊆ c.resource

theorem Widens.refl (c : ConsentRecord) : c.Widens c :=
  ⟨rfl, rfl, rfl, rfl, List.Subset.refl _, List.Subset.refl _⟩

theorem Widens.trans {a b c : ConsentRecord} (h : a.Widens b) (h' : b.Widens c) : a.Widens c where
  id := h.id.trans h'.id
  client := h.client.trans h'.client
  subject := h.subject.trans h'.subject
  grantedAt := h.grantedAt.trans h'.grantedAt
  scope := List.Subset.trans h'.scope h.scope
  resource := List.Subset.trans h'.resource h.resource

theorem subset_addResources (held new : List String) : held ⊆ addResources held new := by
  fun_induction addResources held new with
  | case1 | case2 => exact List.Subset.refl _
  | case3 held r rest hroom hheld ih => exact ih
  | case4 held r rest hroom hheld ih =>
    exact List.Subset.trans (List.subset_append_left held [r]) ih

theorem tidy_addResources {held new : List String} (hnodup : held.Nodup)
    (hlength : held.length ≤ maxConsentResources) :
    (addResources held new).Nodup ∧ (addResources held new).length ≤ maxConsentResources := by
  fun_induction addResources held new with
  | case1 | case2 => exact ⟨hnodup, hlength⟩
  | case3 held r rest hroom hheld ih => exact ih hnodup hlength
  | case4 held r rest hroom hheld ih =>
    refine ih (List.nodup_append.mpr ⟨hnodup, List.pairwise_singleton _ r, ?_⟩) ?_
    · rintro a ha b hb rfl
      rw [List.mem_singleton.mp hb] at ha
      exact hheld (List.contains_iff_mem.mpr ha)
    · rw [List.length_append]
      exact Nat.lt_of_not_le hroom

theorem extend_widens (c : ConsentRecord) (scope : ScopeSet) (resource : List String) :
    (c.extend scope resource).Widens c := by
  refine ⟨rfl, rfl, rfl, rfl, fun x hx => ?_, subset_addResources _ _⟩
  simp only [extend]
  split
  · exact hx
  · exact ScopeSet.mem_ofTokens.mpr (List.mem_append_left _ hx)

theorem Tidy.extend {c : ConsentRecord} (h : c.Tidy) (scope : ScopeSet) (resource : List String) :
    (c.extend scope resource).Tidy :=
  tidy_addResources h.1 h.2

end ConsentRecord

end OauthAs
