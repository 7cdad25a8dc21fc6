-- SUMMARY: The calls a request makes to the world outside it, and handlers as programs over them.
import OauthAs.Config
import OauthAs.Lib.Prog
import OauthAs.Store.Operation

/-!
# Effects

A handler reaches the world through storage calls, the clock, randomness, the token signer, the
rate limiter, the audit sink, the host's approval step and its policy for registrations. Each of
these is one effect, and a handler is a program over them that returns a value or an error. Storage
calls are the atomic steps between which other requests may run.
-/

namespace OauthAs

/-- Lower-case hexadecimal of `bytes` random bytes. -/
def isHex (bytes : Nat) (text : String) : Bool :=
  text.length = 2 * bytes && text.toList.all fun c => c.isDigit || ('a' ≤ c && c ≤ 'f')

structure HexString (bytes : Nat) where
  text : String
  shape : isHex bytes text = true
deriving DecidableEq

/-- What an issuance draws in one go: a family id, an access token and a refresh token. -/
structure TokenEntropy where
  family : HexString 16
  access : HexString 32
  refresh : HexString 32
deriving DecidableEq

structure Confirmation where
  jkt : Option String
  x5tS256 : Option CertificateThumbprint
deriving DecidableEq, Repr

structure AccessTokenClaims where
  iss : String
  exp : Nat
  aud : Audience
  sub : String
  clientId : String
  iat : Nat
  jti : String
  scope : Option String
  authorizationDetails : AuthorizationDetails
  authTime : Option Nat
  acr : Option String
  cnf : Option Confirmation
  act : Option ActClaim
deriving DecidableEq

/-- What the host's approval step is shown of an authorization request. -/
structure ApprovalRequest where
  subject : String
  clientId : ClientId
  scope : ScopeSet
  redirectUri : String
  state : Option String
  resource : List String
  authorizationDetails : AuthorizationDetails
  query : String
  remembered : Option ConsentRecord
deriving DecidableEq

/-- The answer of the approval step; `respond` stands for a page of the host's own. -/
inductive ApprovalDecision where
  | approve
  | approveAndRemember
  | deny
  | respond
deriving DecidableEq, Repr

inductive Effect where
  | storage (op : StorageOp)
  | now
  | tokenEntropy
  | randomHex (bytes : Nat)
  | randomUserCode (length : Nat)
  | sign (claims : AccessTokenClaims)
  | check (attempt : Attempt)
  | record (attempt : Attempt) (outcome : AttemptOutcome)
  | verifySecret (presented : String)
  | dummyAssertionVerify (presented : Option String)
  | emit (event : Event)
  | approve (request : ApprovalRequest)
  | authorizeRegistration (attempt : RegistrationAttempt)
deriving DecidableEq

abbrev Effect.Answer : Effect → Type
  | storage op => op.Answer
  | now => SystemTime
  | tokenEntropy => Option TokenEntropy
  | randomHex bytes => Option (HexString bytes)
  | randomUserCode _ => Option String
  | sign _ => Option String
  | check _ => RateLimitDecision
  | record _ _ => Unit
  | verifySecret _ => Unit
  | dummyAssertionVerify _ => Unit
  | emit _ => Unit
  | approve _ => ApprovalDecision
  | authorizeRegistration _ => RegistrationDecision

instance Effect.decidableEqAnswer (e : Effect) : DecidableEq e.Answer := by
  cases e <;> exact inferInstance

/-- A call of a request, with its answer. -/
abbrev Answered := (e : Effect) × e.Answer

/-- A program that answers with a value or fails with an error. -/
abbrev Handler (ε α : Type) := ExceptT ε (Prog Effect Effect.Answer) α

namespace Handler

variable {ε : Type}

def perform (e : Effect) : Handler ε e.Answer := Prog.performE ε e

/-- A storage call whose failure the caller looks at. -/
def tryStore (op : StorageOp) : Handler ε op.Answer := perform (.storage op)

/-- A storage call whose failure ends the request. -/
def storeOr (onError : StorageError → ε) (op : StorageOp) : Handler ε op.Result := do
  match ← tryStore op with
  | .ok a => pure a
  | .error e => throw (onError e)

/-- The host sees the real error; the wire gets the opaque code. -/
def storageError (_ : StorageError) : ErrorResponse := .new .serverError

def store (op : StorageOp) : Handler ErrorResponse op.Result := storeOr storageError op

def now : Handler ε SystemTime := perform .now

def emit (event : Event) : Handler ε Unit := perform (.emit event)

/-- A value that has to be there. -/
def require {α : Type} (error : ε) : Option α → Handler ε α
  | some a => pure a
  | none => throw error

/-- A pure judgement that may fail. -/
def judge {α : Type} : Except ε α → Handler ε α
  | .ok a => pure a
  | .error e => throw e

end Handler

end OauthAs
