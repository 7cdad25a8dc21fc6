-- SUMMARY: The error codes and error responses of the protocol endpoints.
import Mathlib.Tactic.Common

/-!
# Errors
-/

namespace OauthAs

inductive ErrorCode where
  | invalidRequest
  | invalidClient
  | invalidGrant
  | unauthorizedClient
  | unsupportedGrantType
  | invalidScope
  | accessDenied
  | unsupportedResponseType
  | serverError
  | temporarilyUnavailable
  | authorizationPending
  | slowDown
  | expiredToken
  | invalidAuthorizationDetails
  | invalidTarget
  | insufficientUserAuthentication
  | invalidDpopProof
  | invalidRequestUri
  | invalidRequestObject
  | requestNotSupported
deriving DecidableEq, Repr

structure ErrorResponse where
  error : ErrorCode
  errorDescription : Option String
  errorUri : Option String
deriving DecidableEq, Repr

namespace ErrorResponse

def new (error : ErrorCode) : ErrorResponse := ⟨error, none, none⟩

def withDescription (e : ErrorResponse) (description : String) : ErrorResponse :=
  { e with errorDescription := some description }

end ErrorResponse

/-- A failure of the store. The reference store raises it for an empty identifier and for a user
code that is already indexed; the text is for the host's log and never reaches a client. -/
structure StorageError where
  message : String
deriving DecidableEq, Repr

/-! ## Judgements in sequence -/

theorem except_bind_error {ε α β : Type} {x : Except ε α} {f : α → Except ε β} {e : ε}
    (h : x >>= f = .error e) : x = .error e ∨ ∃ a, x = .ok a ∧ f a = .error e := by
  cases x with
  | error e' =>
    cases h
    exact .inl rfl
  | ok a => exact .inr ⟨a, rfl, h⟩

theorem ite_error_eq_ok {ε α : Type} {p : Prop} [Decidable p] {e : ε} {x : Except ε α} {a : α} :
    (if p then .error e else x) = .ok a ↔ ¬ p ∧ x = .ok a := by
  by_cases hp : p <;> simp [hp]

theorem except_bind_eq_ok {ε α β : Type} {x : Except ε α} {f : α → Except ε β} {b : β} :
    x >>= f = .ok b ↔ ∃ a, x = .ok a ∧ f a = .ok b := by
  cases x <;> simp [bind, Except.bind]

theorem except_bind_ok {ε α β : Type} {x : Except ε α} {f : α → Except ε β} {b : β}
    (h : x >>= f = .ok b) : ∃ a, x = .ok a ∧ f a = .ok b :=
  except_bind_eq_ok.mp h

end OauthAs
