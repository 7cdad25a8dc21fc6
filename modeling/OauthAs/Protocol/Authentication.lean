-- SUMMARY: What client authentication calls, and its rule for every protocol that admits those calls.
import OauthAs.Server.Authenticate

/-!
# Authentication under any protocol

Authentication asks the limiter, looks the client up, reads the clock, claims a replay id, verifies
and reports. A protocol that allows these calls and keeps an invariant over them keeps it over the
whole of `authenticateClient`, whatever the outcome. Once the client is found a stronger invariant,
which may speak about the registration, takes over.
-/

namespace OauthAs

open Prog Handler

namespace Prog

variable {L ε α : Type} {P : Protocol Effect Effect.Answer L} {l : L} {ok : α → L → Prop}
  {err : ε → L → Prop}

theorem wpE_require {error : ε} {o : Option α} :
    wpE P (require error o) l ok err ↔
      (∀ a, o = some a → ok a l) ∧ (o = none → err error l) := by
  cases o <;> simp [require, wpE_pure, wpE_throw]

theorem wpE_judge {x : Except ε α} :
    wpE P (judge x) l ok err ↔
      (∀ a, x = .ok a → ok a l) ∧ (∀ e, x = .error e → err e l) := by
  cases x <;> simp [judge, wpE_pure, wpE_throw]

end Prog

/-- The calls client authentication is made of. -/
def Effect.authenticates : Effect → Bool
  | .storage (.getClient _) | .storage (.claimReplayId _ _) => true
  | .now | .check _ | .record _ _ => true
  | .verifySecret _ | .dummyAssertionVerify _ => true
  | .emit (.clientAuthenticationFailed _ _) => true
  | _ => false

/-- The protocol allows the calls of authentication and they keep the invariant. -/
structure Admits {L : Type} (P : Protocol Effect Effect.Answer L) (I : L → Prop) : Prop where
  allowed : ∀ {l e}, I l → e.authenticates = true → P.allowed l e
  next : ∀ {l e r}, I l → e.authenticates = true → P.possible e r → I (P.next l e r)

/-- The protocol admits authentication: with `I` throughout, and with `K id client` from where the
registration of `id` was read. -/
structure Authenticates {L : Type} (P : Protocol Effect Effect.Answer L) (I : L → Prop)
    (K : ClientId → Client → L → Prop) : Prop where
  before : Admits P I
  after : ∀ id client, Admits P (K id client)
  weaken : ∀ {id client l}, K id client l → I l
  client : ∀ {l id r}, I l → P.possible (.storage (.getClient id)) r →
    ∃ found : Option Client, r = .ok found ∧
      ∀ client ∈ found, K id client (P.next l (.storage (.getClient id)) r)

section Rules
variable {L : Type} {P : Protocol Effect Effect.Answer L} {I : L → Prop} {l : L} {ε : Type}
  {srv : Server}

namespace Admits

variable {err : ErrorResponse → L → Prop}

theorem perform (h : Admits P I) (hl : I l) {e : Effect} (he : e.authenticates = true)
    {ok : e.Answer → L → Prop} {err : ε → L → Prop} (hok : ∀ r l, I l → ok r l) :
    wpE P (Handler.perform e) l ok err :=
  wpE_performE.mpr ⟨h.allowed hl he, fun r hr => hok r _ (h.next hl he hr)⟩

theorem secretExpired (h : Admits P I) (hl : I l) {client : Client} {ok : Bool → L → Prop}
    (hok : ∀ b l, I l → ok b l) : wpE P (Server.secretExpired client) l ok err := by
  unfold Server.secretExpired
  split
  · exact wpE_pure.mpr (hok _ _ hl)
  · refine wpE_ite.mpr ⟨fun _ => wpE_pure.mpr (hok _ _ hl), fun _ => ?_⟩
    rw [wpE_bind]
    exact h.perform hl rfl fun t l hl => wpE_pure.mpr (hok _ _ hl)

theorem authenticateByAssertion (h : Admits P I) (hl : I l) {client : Client}
    {cred : ClientCredential} {ok : Bool × Except AssertionFailure Unit → L → Prop}
    (hok : ∀ r l, I l → ok r l) : wpE P (srv.authenticateByAssertion client cred) l ok err := by
  unfold Server.authenticateByAssertion
  refine wpE_ite.mpr ⟨fun _ => wpE_pure.mpr (hok _ _ hl), fun _ => ?_⟩
  split
  · exact wpE_pure.mpr (hok _ _ hl)
  · rw [wpE_bind]
    refine h.perform hl rfl fun t l hl => ?_
    split
    · exact wpE_pure.mpr (hok _ _ hl)
    · rw [wpE_bind]
      refine h.perform hl rfl fun r l hl => ?_
      split
      · exact wpE_pure.mpr (hok _ _ hl)
      · exact wpE_pure.mpr (hok _ _ hl)
  · exact wpE_pure.mpr (hok _ _ hl)

theorem verifyWith (h : Admits P I) (hl : I l) {auth : ClientAuth} {presented : Option String}
    {ok : Bool → L → Prop} (hok : ∀ b l, I l → ok b l) :
    wpE P (srv.verifyWith auth presented) l ok err := by
  have hverified (p : String) (b : Bool) :
      wpE P (do Handler.perform (.verifySecret p); pure b) l ok err := by
    rw [wpE_bind]
    exact h.perform hl rfl fun _ l hl => wpE_pure.mpr (hok _ _ hl)
  unfold Server.verifyWith
  split
  · exact wpE_pure.mpr (hok _ _ hl)
  · exact hverified _ _
  · split
    · exact hverified _ _
    · exact wpE_pure.mpr (hok _ _ hl)
  · exact wpE_pure.mpr (hok _ _ hl)

theorem dummyVerify (h : Admits P I) (hl : I l) {presented : Option String} {ok : Unit → L → Prop}
    (hok : ∀ l, I l → ok () l) : wpE P (srv.dummyVerify presented) l ok err := by
  unfold Server.dummyVerify
  split
  · rw [wpE_bind]
    exact h.verifyWith hl fun _ l hl => wpE_pure.mpr (hok l hl)
  · exact wpE_pure.mpr (hok l hl)

theorem settleCredentialCost (h : Admits P I) (hl : I l) {cred : ClientCredential}
    {paid : CredentialCost} {ok : Unit → L → Prop} (hok : ∀ l, I l → ok () l) :
    wpE P (srv.settleCredentialCost cred paid) l ok err := by
  have hassertion : ∀ l, I l → wpE P
      (if (!paid.assertion && assertionCouldBeVerified cred) = true then
        Handler.perform (.dummyAssertionVerify cred.clientAssertion) else pure ()) l ok err :=
    fun l hl => wpE_ite.mpr ⟨fun _ => h.perform hl rfl fun _ l hl => hok l hl,
      fun _ => wpE_pure.mpr (hok l hl)⟩
  unfold Server.settleCredentialCost
  refine wpE_ite.mpr ⟨fun _ => ?_, fun _ => hassertion l hl⟩
  rw [wpE_bind]
  exact h.dummyVerify hl fun l hl => hassertion l hl

end Admits

namespace Authenticates

variable {K : ClientId → Client → L → Prop} {clientId : ClientId} {cred : ClientCredential}
variable {err : ErrorResponse → L → Prop}

theorem classifyClientCredential (h : Authenticates P I K) (hl : I l)
    {ok : CredentialCost × ClientAuthVerdict → L → Prop}
    (hrefused : ∀ paid failure l, I l → ok (paid, .refused failure) l)
    (hauthenticated : ∀ paid client l, K clientId client l → ok (paid, .authenticated client) l) :
    wpE P (srv.classifyClientCredential clientId cred) l ok err := by
  unfold Server.classifyClientCredential store storeOr
  rw [wpE_bind, wpE_bind]
  refine wpE_performE.mpr ⟨h.before.allowed hl rfl, fun r hr => ?_⟩
  have hnext := h.before.next hl rfl hr
  obtain ⟨found, rfl, hfound⟩ := h.client hl hr
  rw [wpE_pure]
  cases found with
  | none => exact wpE_pure.mpr (hrefused _ _ _ hnext)
  | some client =>
    have hclient := hfound client rfl
    have hadmits := h.after clientId client
    have hweaken : ∀ paid failure l, K clientId client l → ok (paid, .refused failure) l :=
      fun paid failure l hl => hrefused paid failure l (h.weaken hl)
    simp only
    rw [wpE_bind]
    refine hadmits.secretExpired hclient fun expired l hl => ?_
    refine wpE_ite.mpr ⟨fun _ => wpE_pure.mpr (hweaken _ _ _ hl), fun _ => ?_⟩
    refine wpE_ite.mpr ⟨fun _ => ?_, fun _ => ?_⟩
    · rw [wpE_bind]
      refine hadmits.authenticateByAssertion hl fun verdict l hl => ?_
      split
      · exact wpE_pure.mpr (hauthenticated _ _ _ hl)
      · exact wpE_pure.mpr (hweaken _ _ _ hl)
    · split
      · split
        · exact wpE_pure.mpr (hauthenticated _ _ _ hl)
        · exact wpE_pure.mpr (hweaken _ _ _ hl)
      · rw [wpE_bind]
        refine hadmits.verifyWith hl fun verified l hl => ?_
        refine wpE_ite.mpr ⟨fun _ => ?_, fun _ => ?_⟩
        · exact wpE_pure.mpr (hauthenticated _ _ _ hl)
        · exact wpE_pure.mpr (hweaken _ _ _ hl)

/-- Authentication keeps the invariant. Letting a client in whose registration it read, it reports
the success last. -/
theorem authenticateClient_reports (h : Authenticates P I K) (hl : I l) {ok : Client → L → Prop}
    (hok : ∀ client l, K clientId client l →
      P.possible (.record (.clientAuthentication clientId) .succeeded) () →
      ok client (P.next l (.record (.clientAuthentication clientId) .succeeded) ()))
    (herr : ∀ l, I l → err (.new .invalidClient) l) :
    wpE P (srv.authenticateClient clientId cred) l ok err := by
  unfold Server.authenticateClient Server.admitClientAuthentication
  rw [wpE_bind, wpE_bind]
  refine h.before.perform hl rfl fun decision l hl => ?_
  cases decision with
  | deny =>
    simp only
    rw [wpE_bind]
    exact h.before.perform hl rfl fun _ l hl => wpE_throw.mpr (herr l hl)
  | allow =>
    rw [wpE_pure, wpE_bind]
    refine h.classifyClientCredential hl (fun paid failure l hl => ?_) (fun paid client l hl => ?_)
    · simp only
      rw [wpE_bind]
      refine h.before.settleCredentialCost hl fun l hl => ?_
      rw [wpE_bind]
      refine h.before.perform hl rfl fun _ l hl => ?_
      rw [wpE_bind]
      exact h.before.perform hl rfl fun _ l hl => wpE_throw.mpr (herr l hl)
    · simp only
      rw [wpE_bind]
      refine wpE_performE.mpr ⟨(h.after clientId client).allowed hl rfl, fun r hr => ?_⟩
      exact wpE_pure.mpr (hok client l hl hr)

/-- Authentication keeps the invariant, and lets in a client whose registration it read. -/
theorem authenticateClient (h : Authenticates P I K) (hl : I l) {ok : Client → L → Prop}
    (hok : ∀ client l, K clientId client l → ok client l)
    (herr : ∀ l, I l → err (.new .invalidClient) l) :
    wpE P (srv.authenticateClient clientId cred) l ok err :=
  h.authenticateClient_reports hl
    (fun client _ hl hr => hok client _ ((h.after clientId client).next hl rfl hr)) herr

end Authenticates

end Rules

end OauthAs
