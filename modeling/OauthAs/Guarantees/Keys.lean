-- SUMMARY: The keys of single-use identifiers and of locks are injective.
import OauthAs.Lib.Text
import OauthAs.Postgres.Schema
import OauthAs.Server.Authenticate

/-!
# Keys

Client identifiers, subjects and the identifiers of tokens are arbitrary texts, so a key that is put
together from them states the size of each part that something follows.
-/

namespace OauthAs

open Text Postgres

theorem toList_replayKey (kind owner jti : String) :
    (replayKey kind owner jti).toList = kind.toList ++ ':' :: (sized owner ++ jti.toList) := by
  simp [replayKey, sized, String.toList_append]

theorem toList_scopeKey (scope first second : String) : (scopeKey scope first second).toList =
    scope.toList ++ ':' :: (sized first ++ ':' :: (sized second ++ [])) := by
  simp [scopeKey, sized, String.toList_append]

/-- Neither a client nor a key can take the single-use identifier of another, and no two revocable
identities have one lock. -/
theorem keys_injective :
    (∀ kind ∈ ["ca", "dpop"], ∀ kind' ∈ ["ca", "dpop"], ∀ owner jti owner' jti',
      replayKey kind owner jti = replayKey kind' owner' jti' →
        kind = kind' ∧ owner = owner' ∧ jti = jti') ∧
    ∀ scope ∈ ["client", "family", "consent", "consent_cas"],
      ∀ scope' ∈ ["client", "family", "consent", "consent_cas"], ∀ first second first' second',
        scopeKey scope first second = scopeKey scope' first' second' →
          scope = scope' ∧ first = first' ∧ second = second' := by
  have hkinds : ∀ kind ∈ ["ca", "dpop"], ':' ∉ kind.toList := by decide
  have hscopes : ∀ scope ∈ ["client", "family", "consent", "consent_cas"], ':' ∉ scope.toList := by
    decide
  refine ⟨fun kind hkind kind' hkind' owner jti owner' jti' h => ?_,
    fun scope hscope scope' hscope' first second first' second' h => ?_⟩
  · have h := congrArg String.toList h
    rw [toList_replayKey, toList_replayKey] at h
    obtain ⟨hk, h⟩ := append_cons_inj (hkinds kind hkind) (hkinds kind' hkind') h
    obtain ⟨ho, hj⟩ := sized_inj h
    exact ⟨String.toList_injective hk, ho, String.toList_injective hj⟩
  · have h := congrArg String.toList h
    rw [toList_scopeKey, toList_scopeKey] at h
    obtain ⟨hs, h⟩ := append_cons_inj (hscopes scope hscope) (hscopes scope' hscope') h
    obtain ⟨hfirst, h⟩ := sized_inj h
    exact ⟨String.toList_injective hs, hfirst, (sized_inj (List.cons.inj h).2).1⟩

end OauthAs
