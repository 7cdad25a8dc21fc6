-- SUMMARY: What a refused client authentication tells: one answer, and one verification if somebody can make it.
import OauthAs.Lib.Lockstep
import OauthAs.Protocol.Authentication
import OauthAs.Server.System

/-!
# What a refusal tells

An unknown client, an expired or a public one, one that authenticates in another way and one with
another secret are refused at different places. What the caller can see of that is the answer and
the time it takes, of which the verification of a secret is the part that matters. The exit of
`authenticateClient` owes a dummy verification to every request that presented a secret and was
not charged for a real one. It takes every registration with a secret to have been charged, so a
hash that nobody can check, in a scheme of the host's without its verifier, costs nothing at all.
-/

namespace OauthAs

open Prog Handler

def Effect.verifiesSecret : Effect → Bool
  | .verifySecret _ => true
  | _ => false

/-- The number of secret verifications among the calls of a request, real or dummy. -/
def secretVerifications (trace : List Answered) : Nat :=
  trace.countP fun c => c.1.verifiesSecret

/-- What a refused request has to pay. -/
def ClientCredential.owed (cred : ClientCredential) : Nat := cred.clientSecret.isSome.toNat

/-- Whether the client's secret has expired at this time. -/
def Client.secretExpiredAt (client : Client) (now : SystemTime) : Bool :=
  (client.registration.bind DynamicRegistration.clientSecretExpiresAt).any fun expiresAt =>
    expiresAt ≠ 0 && (unixSeconds now).any fun since => decide (since ≥ expiresAt)

namespace Server

variable {srv : Server} {limit : Attempt → RateLimitDecision} {w : World}
variable {err : ErrorResponse → Nat → Prop}

/-- Whether anybody can check a secret against the hash. -/
def knows (srv : Server) (hash : SecretHash) : Bool :=
  hash.scheme == SecretHash.sha256Hex || srv.host.secretVerifier.isSome

/-- Secrets presented for the client can be verified: unless it is unknown or its secret has
expired, a hash that it is registered with can be checked. -/
def CanVerify (srv : Server) (w : World) (clientId : ClientId) : Prop :=
  ∀ client ∈ w.store.clients.lookup clientId, client.secretExpiredAt w.clock = false →
    ∀ hash, client.auth = .confidentialSecretHash hash → srv.knows hash = true

/-- Whether a secret presented for the registration is verified. -/
def verifies (srv : Server) : ClientAuth → Bool
  | .confidentialSecret _ => true
  | .confidentialSecretHash hash => srv.knows hash
  | _ => false

theorem judge_isSome {hash : SecretHash} {p : String} :
    (hash.judge srv.host.secretDigest p srv.host.secretVerifier).isSome = srv.knows hash := by
  unfold SecretHash.judge knows
  split
  · simp [*]
  · simp [*]

theorem canVerify_iff {client : Client} {clientId : ClientId}
    (hclient : w.store.clients.lookup clientId = some client)
    (hexpired : client.secretExpiredAt w.clock = false) (hholds : client.auth.holdsSecret = true) :
    srv.CanVerify w clientId ↔ srv.verifies client.auth = true := by
  simp only [CanVerify, hclient, Option.mem_some_iff, forall_eq', hexpired, forall_const]
  cases hauth : client.auth with
  | confidentialSecret secret => simp [verifies]
  | confidentialSecretHash hash => simp [verifies]
  | _ => simp [hauth, ClientAuth.holdsSecret] at hholds

/-- Counts secret verifications. A call changes nothing, and is answered as the world and the given
limiter do. -/
def tallying (limit : Attempt → RateLimitDecision) (w : World) : Protocol Effect Effect.Answer Nat where
  next n e _ := n + e.verifiesSecret.toNat
  allowed _ e := ∀ r v, w.alone limit e = some (r, v) → v = w
  possible e r := w.alone limit e = some (r, w)

theorem tallying_foldl (trace : List Answered) (n : Nat) :
    trace.foldl (fun l c => (tallying limit w).next l c.1 c.2) n = n + secretVerifications trace := by
  induction trace generalizing n with
  | nil => rfl
  | cons c trace ih =>
    rw [List.foldl_cons, ih]
    simp only [secretVerifications, Table.countP_cons_toNat, tallying]
    omega

/-- A call that verifies nothing and leaves the world alone. -/
theorem tallying_perform {ε : Type} {n : Nat} {e : Effect} (he : e.verifiesSecret = false)
    (hquiet : ∀ r v, w.alone limit e = some (r, v) → v = w) {ok : e.Answer → Nat → Prop}
    {err : ε → Nat → Prop} (hok : ∀ r, w.alone limit e = some (r, w) → ok r n) :
    wpE (tallying limit w) (Handler.perform e) n ok err := by
  refine wpE_performE.mpr ⟨hquiet, fun r hr => ?_⟩
  have hsame : (tallying limit w).next n e r = n := by simp [tallying, he]
  rw [hsame]
  exact hok r hr

variable {n : Nat} {cred : ClientCredential} {clientId : ClientId}

theorem tallying_secretExpired (client : Client) {ok : Bool → Nat → Prop}
    (hok : ok (client.secretExpiredAt w.clock) n) :
    wpE (tallying limit w) (secretExpired client) n ok err := by
  unfold secretExpired
  unfold Client.secretExpiredAt at hok
  split
  · rename_i hnone
    exact wpE_pure.mpr (by simpa [hnone] using hok)
  · rename_i expiresAt hsome
    simp only [hsome, Option.any_some] at hok
    refine wpE_ite.mpr ⟨fun hzero => wpE_pure.mpr (by simpa [hzero] using hok), fun hzero => ?_⟩
    rw [wpE_bind]
    refine tallying_perform rfl (by rintro _ _ ⟨⟩; rfl) ?_
    rintro _ ⟨⟩
    exact wpE_pure.mpr (by simpa [hzero] using hok)

theorem tallying_verifyWith (auth : ClientAuth) {presented : Option String} {ok : Bool → Nat → Prop}
    (hok : ∀ b, ok b (n + if srv.verifies auth then presented.isSome.toNat else 0)) :
    wpE (tallying limit w) (srv.verifyWith auth presented) n ok err := by
  have hverified (p : String) (b : Bool) (hok : ok b (n + 1)) :
      wpE (tallying limit w) (do Handler.perform (.verifySecret p); pure b) n ok err := by
    rw [wpE_bind]
    exact wpE_performE.mpr ⟨by rintro _ _ ⟨⟩; rfl, fun _ _ => wpE_pure.mpr hok⟩
  unfold verifyWith
  split
  · exact wpE_pure.mpr (hok _)
  · exact hverified _ _ (hok _)
  · rename_i hash p
    have hknows : srv.verifies (.confidentialSecretHash hash) = _ := (judge_isSome (p := p)).symm
    rw [hknows] at hok
    split
    · rename_i hjudge
      exact hverified _ _ (by simpa [hjudge] using hok _)
    · rename_i hjudge
      exact wpE_pure.mpr (by simpa [hjudge] using hok _)
  · -- Nothing was presented, or nothing is compared with it.
    rename_i hnone hsecret hhash
    refine wpE_pure.mpr ?_
    cases presented with
    | none => simpa using hok false
    | some p =>
      cases auth with
      | publicClient => exact (hnone rfl).elim
      | confidentialSecret secret => exact (hsecret secret p rfl rfl).elim
      | confidentialSecretHash hash => exact (hhash hash p rfl rfl).elim
      | _ => exact hok false

/-- The dummy is a hash that somebody can check. -/
theorem tallying_dummyVerify {ok : Unit → Nat → Prop} (hok : ok () (n + cred.owed)) :
    wpE (tallying limit w) (srv.dummyVerify cred.clientSecret) n ok err := by
  unfold ClientCredential.owed at hok
  unfold dummyVerify
  split
  · rename_i p hp
    rw [wpE_bind]
    refine tallying_verifyWith _ fun b => wpE_pure.mpr ?_
    have hknows : srv.knows ((srv.host.secretVerifier.bind SecretVerifier.dummyHash).getD
        (.sha256 srv.host.secretDigest
          "oauth-as dummy verification input; no registration is stored under this")) = true := by
      cases hverifier : srv.host.secretVerifier with
      | none => simp [knows, SecretHash.sha256]
      | some v => simp [knows, hverifier]
    rw [hp] at hok
    simpa only [verifies, hknows, if_true] using hok
  · rename_i hnone
    rw [hnone] at hok
    exact wpE_pure.mpr hok

/-- What a refusal costs in the end. -/
def Priced (srv : Server) (w : World) (clientId : ClientId) (cred : ClientCredential) (n : Nat) :
    Prop :=
  (srv.CanVerify w clientId → n = cred.owed) ∧ (¬ srv.CanVerify w clientId → n = 0)

/-- What is verified so far, and whether the exit still owes the dummy. -/
def Charged (srv : Server) (w : World) (clientId : ClientId) (cred : ClientCredential)
    (paid : CredentialCost) (n : Nat) : Prop :=
  if paid.secret then srv.Priced w clientId cred n else n = 0 ∧ srv.CanVerify w clientId

/-- Classifying verifies a secret if it says so and anybody can. -/
theorem tallying_classifyClientCredential (hassertion : cred.clientAssertion = none)
    {ok : CredentialCost × ClientAuthVerdict → Nat → Prop}
    (hok : ∀ paid verdict n, srv.Charged w clientId cred paid n → ok (paid, verdict) n) :
    wpE (tallying limit w) (srv.classifyClientCredential clientId cred) 0 ok err := by
  unfold classifyClientCredential store storeOr
  rw [wpE_bind, wpE_bind]
  refine tallying_perform rfl (by rintro _ _ ⟨⟩; rfl) ?_
  rintro _ ⟨⟩
  change wpE (tallying limit w) (pure (w.store.clients.lookup clientId)) 0 _ _
  rw [wpE_pure]
  cases hclient : w.store.clients.lookup clientId with
  | none =>
    refine wpE_pure.mpr (hok _ _ _ ⟨rfl, fun client hmem => ?_⟩)
    rw [hclient] at hmem
    cases hmem
  | some client =>
    have hcan (h : client.secretExpiredAt w.clock = false →
        ∀ hash, client.auth ≠ .confidentialSecretHash hash) : srv.CanVerify w clientId := by
      intro client' hmem hexpired hash hhash
      cases hclient.symm.trans hmem
      exact absurd hhash (h hexpired hash)
    simp only
    rw [wpE_bind]
    refine tallying_secretExpired client ?_
    refine wpE_ite.mpr ⟨fun hexpired => ?_, fun hlive => ?_⟩
    · exact wpE_pure.mpr (hok _ _ _ ⟨rfl, hcan (by simp [hexpired])⟩)
    have hlive : client.secretExpiredAt w.clock = false := by simpa using hlive
    refine wpE_ite.mpr ⟨fun hsome => ?_, fun _ => ?_⟩
    · rw [hassertion] at hsome
      cases hsome
    · split
      · rename_i hauth
        split
        · exact wpE_pure.mpr (hok _ _ _ ⟨rfl, hcan (by simp [hauth])⟩)
        · exact wpE_pure.mpr (hok _ _ _ ⟨rfl, hcan (by simp [hauth])⟩)
      · rw [wpE_bind]
        refine tallying_verifyWith client.auth fun verified => ?_
        have hcharged : srv.Charged w clientId cred ⟨client.auth.holdsSecret, false⟩
            (0 + if srv.verifies client.auth then cred.clientSecret.isSome.toNat else 0) := by
          unfold Charged
          split
          · rename_i hholds
            have hiff : srv.CanVerify w clientId ↔ _ := canVerify_iff hclient hlive hholds
            simp +contextual [Priced, hiff, ClientCredential.owed]
          · rename_i hholds
            cases hauth : client.auth with
            | confidentialSecret _ | confidentialSecretHash _ =>
              simp [hauth, ClientAuth.holdsSecret] at hholds
            | _ => exact ⟨rfl, hcan (by simp [hauth])⟩
        refine wpE_ite.mpr ⟨fun _ => ?_, fun _ => ?_⟩
        · exact wpE_pure.mpr (hok _ _ _ hcharged)
        · exact wpE_pure.mpr (hok _ _ _ hcharged)

/-- The exit brings what was verified to the price. -/
theorem tallying_settleCredentialCost (hassertion : cred.clientAssertion = none)
    {paid : CredentialCost} (hpaid : srv.Charged w clientId cred paid n) {ok : Unit → Nat → Prop}
    (hok : ∀ n, srv.Priced w clientId cred n → ok () n) :
    wpE (tallying limit w) (srv.settleCredentialCost cred paid) n ok err := by
  have hnone : ¬ (!paid.assertion && assertionCouldBeVerified cred) = true := by
    simp [assertionCouldBeVerified, hassertion]
  unfold settleCredentialCost
  unfold Charged at hpaid
  refine wpE_ite.mpr ⟨fun hunpaid => ?_, fun hpaid' => ?_⟩
  · rw [if_neg (by simpa using hunpaid)] at hpaid
    obtain ⟨rfl, hcan⟩ := hpaid
    rw [wpE_bind]
    refine tallying_dummyVerify (wpE_ite.mpr ⟨fun h => absurd h hnone, fun _ => wpE_pure.mpr ?_⟩)
    exact hok _ ⟨fun _ => Nat.zero_add _, fun hcannot => absurd hcan hcannot⟩
  · rw [if_pos (by simpa using hpaid')] at hpaid
    exact wpE_ite.mpr ⟨fun h => absurd h hnone, fun _ => wpE_pure.mpr (hok n hpaid)⟩

/-- A refusal has one answer, and its price. -/
theorem tallying_authenticateClient (hassertion : cred.clientAssertion = none)
    (hlimit : limit (.clientAuthentication clientId) = .allow) :
    wpE (tallying limit w) (srv.authenticateClient clientId cred) 0 (fun _ _ => True)
      fun e n => e = .new .invalidClient ∧ srv.Priced w clientId cred n := by
  unfold authenticateClient admitClientAuthentication
  rw [wpE_bind, wpE_bind]
  refine tallying_perform rfl (by rintro _ _ ⟨⟩; rfl) ?_
  rintro _ ⟨⟩
  rw [hlimit]
  rw [wpE_pure, wpE_bind]
  refine tallying_classifyClientCredential hassertion fun paid verdict n hpaid => ?_
  cases verdict with
  | authenticated client =>
    simp only
    rw [wpE_bind]
    exact tallying_perform rfl (by rintro _ _ ⟨⟩; rfl) fun _ _ => wpE_pure.mpr trivial
  | refused failure =>
    simp only
    rw [wpE_bind]
    refine tallying_settleCredentialCost hassertion hpaid fun n hpriced => ?_
    rw [wpE_bind]
    refine tallying_perform rfl (by rintro _ _ ⟨⟩; rfl) fun _ _ => ?_
    rw [wpE_bind]
    exact tallying_perform rfl (by rintro _ _ ⟨⟩; rfl) fun _ _ => wpE_throw.mpr ⟨rfl, hpriced⟩

/-- The calls of a client authentication that runs alone, and its outcome. -/
def authenticates (srv : Server) (limit : Attempt → RateLimitDecision) (w : World)
    (clientId : ClientId) (cred : ClientCredential) :
    Option (List Answered × Except ErrorResponse Client) :=
  Prog.traced (World.alone limit) w (srv.authenticateClient clientId cred).run

theorem refusal_priced (hassertion : cred.clientAssertion = none)
    (hlimit : limit (.clientAuthentication clientId) = .allow)
    {trace : List Answered} {e : ErrorResponse}
    (h : srv.authenticates limit w clientId cred = some (trace, .error e)) :
    e = .new .invalidClient ∧ srv.Priced w clientId cred (secretVerifications trace) := by
  have hpriced := Prog.traced_wp (P := tallying limit w) (I := (· = w))
    (fun l e v r v' hallowed hv hperform => ?_) (tallying_authenticateClient hassertion hlimit) rfl h
  · rwa [tallying_foldl, Nat.zero_add] at hpriced
  · cases hv
    cases hallowed r v' hperform
    exact ⟨hperform, rfl⟩

theorem Priced.eq_iff (h : srv.Priced w clientId cred n) :
    (n = if cred.clientSecret.isSome then 1 else 0) ↔
      cred.clientSecret = none ∨ srv.CanVerify w clientId := by
  have howed : cred.owed = if cred.clientSecret.isSome then 1 else 0 := by
    cases hs : cred.clientSecret <;> simp [ClientCredential.owed, hs]
  rw [← howed]
  by_cases hcan : srv.CanVerify w clientId
  · simp [hcan, h.1 hcan]
  · rw [h.2 hcan]
    cases hs : cred.clientSecret <;> simp [ClientCredential.owed, hs, hcan]

end Server

/-- Two stores that both refuse a request, which carries no assertion and which the limiter
allows, answer it alike. Each verifies its secret once, or nothing if it presents none, exactly if
both can verify what is presented for the client. -/
theorem refusal_reveals_no_registration_iff {srv : Server} {limit : Attempt → RateLimitDecision}
    {w w' : World} {clientId : ClientId} {cred : ClientCredential}
    (hassertion : cred.clientAssertion = none)
    (hlimit : limit (.clientAuthentication clientId) = .allow)
    {trace trace' : List ((e : Effect) × e.Answer)} {e e' : ErrorResponse}
    (h : srv.authenticates limit w clientId cred = some (trace, .error e))
    (h' : srv.authenticates limit w' clientId cred = some (trace', .error e')) :
    (e = e' ∧ secretVerifications trace = (if cred.clientSecret.isSome then 1 else 0) ∧
        secretVerifications trace' = if cred.clientSecret.isSome then 1 else 0) ↔
      cred.clientSecret = none ∨ srv.CanVerify w clientId ∧ srv.CanVerify w' clientId := by
  obtain ⟨rfl, hprice⟩ := Server.refusal_priced hassertion hlimit h
  obtain ⟨rfl, hprice'⟩ := Server.refusal_priced hassertion hlimit h'
  rw [hprice.eq_iff, hprice'.eq_iff]
  tauto

namespace Sample

/-- A world whose store holds one client, with the given way to authenticate. -/
def registering (auth : ClientAuth) : World :=
  { World.initial 0 with store := { MemoryInner.empty with
    clients := Table.empty.insert { app with auth := auth } } }

/-- A secret presented for the client. -/
def guesses (w : World) : Option (List Answered × Except ErrorResponse Client) :=
  server.authenticates (fun _ => .allow) w app.clientId (.secret (some "guess"))

end Sample

open Sample in
/-- A client nobody registered and one with another secret. -/
theorem refusal_reveals_no_registration_guess :
    ∃ trace trace' e e', guesses (.initial 0) = some (trace, .error e) ∧
      guesses (registering (.confidentialSecret "own")) = some (trace', .error e') ∧ e = e' ∧
      secretVerifications trace = 1 ∧ secretVerifications trace' = 1 := by
  have hunknown : ∃ trace e, guesses (.initial 0) = some (trace, .error e) := ⟨_, _, rfl⟩
  have hother : ∃ trace e, guesses (registering (.confidentialSecret "own")) =
      some (trace, .error e) := ⟨_, _, rfl⟩
  obtain ⟨trace, e, h⟩ := hunknown
  obtain ⟨trace', e', h'⟩ := hother
  obtain ⟨he, hcount, hcount'⟩ := (refusal_reveals_no_registration_iff rfl rfl h h').mpr
    (.inr ⟨by rintro _ ⟨⟩, by rintro _ ⟨⟩ - _ ⟨⟩⟩)
  exact ⟨trace, trace', e, e', h, h', he, hcount, hcount'⟩

open Sample in
/-- A client nobody registered and one whose hash nobody can check. -/
theorem refusal_reveals_unchecked_hash :
    ∃ trace trace' e e', guesses (.initial 0) = some (trace, .error e) ∧
      guesses (registering (.confidentialSecretHash ⟨"argon2id", "stored"⟩)) =
        some (trace', .error e') ∧
      secretVerifications trace = 1 ∧ secretVerifications trace' = 0 :=
  ⟨_, _, _, _, rfl, rfl, rfl, rfl⟩

end OauthAs
