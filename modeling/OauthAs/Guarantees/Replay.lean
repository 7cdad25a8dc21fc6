-- SUMMARY: DPoP proofs and client assertions are good once, unless a sweep at their deadline runs before a pending claim.
import OauthAs.Protocol.Moves
import OauthAs.Server.Proof

/-!
# Single use of proofs and assertions

A presentation reads the clock, judges the token at that instant, and claims the token's
identifier in a later call. Which identifier is claimed and until when it is kept depends on the
token alone, and a token is judged good only before that deadline. So as long as the store keeps
the claim the second presentation of a token loses, and once a sweep has dropped the claim no
presentation is judged good any more. What is left is a presentation that was judged in time and
claims late: `NoSweepPassesClaim` asks that no sweep at the deadline overtakes it.
-/

namespace OauthAs

open Prog Handler

/-! ## Presentations -/

inductive Presentation where
  | proof (proof htm htu : String)
  | assertion (client : Client) (cred : ClientCredential)
deriving DecidableEq

inductive Verdict where
  | proof (result : Except ErrorResponse (Option String))
  | assertion (result : Except ErrorResponse (Bool × Except AssertionFailure Unit))

namespace Verdict

def Accepted : Verdict → Bool
  | .proof (.ok (some _)) => true
  | .assertion (.ok (_, .ok ())) => true
  | _ => false

end Verdict

namespace Presentation

/-- Both present the same signed token. -/
def SameToken : Presentation → Presentation → Prop
  | .proof p _ _, .proof p' _ _ => p = p'
  | .assertion _ cred, .assertion _ cred' => cred.clientAssertion = cred'.clientAssertion
  | _, _ => False

/-- The token is judged good at an instant, and spends an identifier until a deadline. -/
def Verifies (srv : Server) (t : SystemTime) (id : String) (deadline : SystemTime) :
    Presentation → Prop
  | .proof p htm htu => ∃ v, verifyProof srv.host.jws srv.host.ceiling p htm htu t = .ok v ∧
      id = replayKey "dpop" v.jkt v.jti ∧ deadline = v.replayUntil
  | .assertion client cred => ∃ keys assertion v, cred.clientAssertion = some assertion ∧
      verifyAssertion srv.host.jws srv.host.ceiling srv.audienceRule keys assertion client.clientId t
        = .ok v ∧ id = replayKey "ca" client.clientId v.jti ∧ deadline = v.expiresAt

end Presentation

namespace Server

variable (srv : Server)

def present : Presentation → Prog Effect Effect.Answer Verdict
  | .proof p htm htu => .proof <$> (srv.verifyDpopInner (some p) htm htu).run
  | .assertion client cred => .assertion <$> (srv.verifying.authenticateByAssertion client cred).run

/-- Any number of presentations over one store, with time passing and sweeps in between. -/
def presenting : Semantics World Effect Effect.Answer Choice Presentation Verdict Occurrence where
  handler := srv.present
  perform := World.perform
  environment := World.environment

end Server

/-- The world and the presentations made so far. -/
abbrev Presenting := System World Effect Effect.Answer Presentation Verdict

abbrev Presenter := Thread Effect Effect.Answer Presentation Verdict

/-! ## What a token is judged by -/

section Judged
variable {b : JwsBackend} {ceiling now now' deadline : SystemTime}
variable {jws : CompactJws} {assertion : String}

/-- A proof is remembered until an instant that its `iat` fixes, and is good only before it. -/
theorem proofWindow_ok (h : proofWindow ceiling jws now = .ok deadline) :
    now < deadline ∧ ∃ issuedAt, (jws.claimTime "iat").bind (numericInstant ceiling) = some issuedAt ∧
      deadline = issuedAt + maxProofAge := by
  unfold proofWindow at h
  split at h
  · cases h
  · rename_i issuedAt hissued
    split at h
    · rename_i replayUntil horizon huntil hhorizon
      obtain ⟨hin, ⟨⟩⟩ := ite_error_eq_ok.mp h
      obtain ⟨-, hsum⟩ := checkedAdd_eq_some.mp huntil
      exact ⟨Int.lt_of_not_ge fun hle => hin (.inr hle), issuedAt, hissued, hsum.symm⟩
    · cases h

/-- What a good proof says depends on the proof, not on the request or the instant. -/
def ProofSays (b : JwsBackend) (ceiling : SystemTime) (proof : String) (v : VerifiedProof) : Prop :=
  ∃ jws jwk issuedAt, CompactJws.parse b proof = some jws ∧ proofKey b jws = .ok jwk ∧
    (jws.claimTime "iat").bind (numericInstant ceiling) = some issuedAt ∧ v.jkt = jwk.thumbprint ∧
    proofJti jws = .ok v.jti ∧ v.replayUntil = issuedAt + maxProofAge

theorem verifyProof_ok {proof htm htu : String} {v : VerifiedProof}
    (h : verifyProof b ceiling proof htm htu now = .ok v) :
    now < v.replayUntil ∧ ProofSays b ceiling proof v := by
  simp only [verifyProof, ite_error_eq_ok] at h
  obtain ⟨-, h⟩ := h
  split at h
  · cases h
  · rename_i jws hjws
    simp only [ite_error_eq_ok, except_bind_eq_ok] at h
    obtain ⟨-, jwk, hjwk, -, -, deadline, hwindow, jti, hjti, ⟨⟩⟩ := h
    obtain ⟨hlt, issuedAt, hissued, hdeadline⟩ := proofWindow_ok hwindow
    exact ⟨hlt, jws, jwk, issuedAt, hjws, hjwk, hissued, rfl, hjti, hdeadline⟩

theorem ProofSays.unique {proof : String} {v v' : VerifiedProof} (h : ProofSays b ceiling proof v)
    (h' : ProofSays b ceiling proof v') : v = v' := by
  obtain ⟨jws, jwk, issuedAt, hjws, hjwk, hissued, hjkt, hjti, huntil⟩ := h
  obtain ⟨jws', jwk', issuedAt', hjws', hjwk', hissued', hjkt', hjti', huntil'⟩ := h'
  cases hjws.symm.trans hjws'
  cases hjwk.symm.trans hjwk'
  cases hissued.symm.trans hissued'
  cases v
  cases v'
  simp only at hjkt hjkt' huntil huntil' hjti hjti'
  cases hjti.symm.trans hjti'
  rw [hjkt, hjkt', huntil, huntil']

/-- An assertion is remembered until its own expiry, and is good only before it. -/
theorem assertionWindow_ok (h : assertionWindow ceiling jws now = .ok deadline) :
    now < deadline ∧ (jws.claimTime "exp").bind (numericInstant ceiling) = some deadline := by
  unfold assertionWindow at h
  split at h
  · cases h
  · rename_i expiresAt hexpires
    rw [ite_error_eq_ok] at h
    obtain ⟨hbefore, h⟩ := h
    split at h
    · cases h
    · obtain ⟨-, ⟨⟩⟩ := ite_error_eq_ok.mp h
      exact ⟨Int.lt_of_not_ge hbefore, hexpires⟩

/-- What a good assertion says depends on the assertion, not on the instant. -/
def AssertionSays (b : JwsBackend) (ceiling : SystemTime) (assertion : String)
    (clientId : ClientId) (v : VerifiedAssertion) : Prop :=
  ∃ jws, CompactJws.parse b assertion = some jws ∧ jws.claimStr "iss" = some clientId ∧
    assertionJti jws = .ok v.jti ∧ (jws.claimTime "exp").bind (numericInstant ceiling) = some v.expiresAt

theorem verifyAssertion_ok {rule : AudienceRule} {keys : AssertionKeys} {clientId : ClientId}
    {v : VerifiedAssertion} (h : verifyAssertion b ceiling rule keys assertion clientId now = .ok v) :
    now < v.expiresAt ∧ AssertionSays b ceiling assertion clientId v := by
  obtain ⟨jws, hjws, h⟩ := verifyAssertion_eq_ok.mp h
  obtain ⟨hlt, hexp⟩ := assertionWindow_ok h.window
  exact ⟨hlt, jws, hjws, h.iss, h.jti, hexp⟩

theorem AssertionSays.unique {clientId clientId' : ClientId} {v v' : VerifiedAssertion}
    (h : AssertionSays b ceiling assertion clientId v)
    (h' : AssertionSays b ceiling assertion clientId' v') : clientId = clientId' ∧ v = v' := by
  obtain ⟨jws, hjws, hiss, hjti, hexp⟩ := h
  obtain ⟨jws', hjws', hiss', hjti', hexp'⟩ := h'
  cases hjws.symm.trans hjws'
  cases hiss.symm.trans hiss'
  cases v
  cases v'
  simp only at hjti hjti' hexp hexp'
  cases hexp.symm.trans hexp'
  cases hjti.symm.trans hjti'
  exact ⟨rfl, rfl⟩

end Judged

namespace Presentation

variable {srv : Server} {q q' : Presentation} {t t' deadline deadline' : SystemTime}
  {id id' : String}

theorem Verifies.lt (h : q.Verifies srv t id deadline) : t < deadline := by
  cases q with
  | proof p htm htu =>
    obtain ⟨v, hv, -, rfl⟩ := h
    exact (verifyProof_ok hv).1
  | assertion client cred =>
    obtain ⟨keys, assertion, v, -, hv, -, rfl⟩ := h
    exact (verifyAssertion_ok hv).1

/-- One token spends one identifier, until one deadline. -/
theorem Verifies.unique (h : q.Verifies srv t id deadline) (h' : q'.Verifies srv t' id' deadline')
    (hsame : q.SameToken q') : id = id' ∧ deadline = deadline' := by
  cases q with
  | proof p htm htu =>
    cases q' with
    | assertion client cred => exact hsame.elim
    | proof p' htm' htu' =>
      obtain rfl : p = p' := hsame
      obtain ⟨v, hv, rfl, rfl⟩ := h
      obtain ⟨v', hv', rfl, rfl⟩ := h'
      cases (verifyProof_ok hv).2.unique (verifyProof_ok hv').2
      exact ⟨rfl, rfl⟩
  | assertion client cred =>
    cases q' with
    | proof p htm htu => exact hsame.elim
    | assertion client' cred' =>
      obtain ⟨keys, assertion, v, hcred, hv, rfl, rfl⟩ := h
      obtain ⟨keys', assertion', v', hcred', hv', rfl, rfl⟩ := h'
      have hcreds : cred.clientAssertion = cred'.clientAssertion := hsame
      cases (hcred.symm.trans hcreds).trans hcred'
      obtain ⟨hclient, rfl⟩ := (verifyAssertion_ok hv).2.unique (verifyAssertion_ok hv').2
      exact ⟨by rw [hclient], rfl⟩

end Presentation

/-! ## The course of a presentation -/

/-- Where a presentation is: it has to read the clock, to claim, or it has claimed. -/
inductive Phase where
  | entered
  | judged (t : SystemTime)
  | claimed (id : String) (deadline : SystemTime) (first : Bool)
  | ended
deriving DecidableEq

namespace Phase

def read (t : SystemTime) : Phase → Phase
  | entered => judged t
  | claimed id deadline first => claimed id deadline first
  | _ => ended

def claim (id : String) (deadline : SystemTime) (first : Bool) : Phase → Phase
  | claimed id deadline first => claimed id deadline first
  | judged _ => claimed id deadline first
  | _ => ended

def leave : Phase → Phase
  | claimed id deadline first => claimed id deadline first
  | _ => ended

end Phase

structure PresentationLedger where
  presentation : Presentation
  phase : Phase

namespace PresentationLedger

def next (l : PresentationLedger) : (e : Effect) → e.Answer → PresentationLedger
  | .now, t => { l with phase := l.phase.read t }
  | .storage (.claimReplayId id deadline), .ok first =>
    { l with phase := l.phase.claim id deadline first }
  | _, _ => { l with phase := l.phase.leave }

/-- Only what was judged good is claimed, right after the judgement, and nothing else is stored. -/
def Allowed (srv : Server) (l : PresentationLedger) : Effect → Prop
  | .storage (.claimReplayId id deadline) =>
    ∃ t, l.phase = .judged t ∧ l.presentation.Verifies srv t id deadline
  | .storage _ => False
  | _ => True

/-- A presentation is accepted because its claim was the first. -/
def Accepts (verdict : Verdict) (l : PresentationLedger) : Prop :=
  verdict.Accepted = true → ∃ id deadline, l.phase = .claimed id deadline true

end PresentationLedger

namespace Server

variable {srv : Server}

def claiming (srv : Server) : Protocol Effect Effect.Answer PresentationLedger where
  next := PresentationLedger.next
  allowed := PresentationLedger.Allowed srv
  possible _ _ := True

theorem claiming_verifyDpop (p htm htu : String) :
    wpE srv.claiming (srv.verifyDpopInner (some p) htm htu) ⟨.proof p htm htu, .entered⟩
      (fun _ l => ∃ id deadline, l.phase = .claimed id deadline true) (fun _ _ => True) := by
  unfold verifyDpopInner
  refine wpE_ite.mpr ⟨fun _ => ?_, fun _ => ?_⟩
  · rw [wpE_bind]
    exact wpE_performE.mpr ⟨trivial, fun _ _ => wpE_throw.mpr trivial⟩
  · rw [wpE_bind]
    refine wpE_performE.mpr ⟨trivial, fun t _ => ?_⟩
    cases hv : verifyProof srv.host.jws srv.host.ceiling p htm htu t with
    | error failure =>
      simp only
      rw [wpE_bind]
      exact wpE_performE.mpr ⟨trivial, fun _ _ => wpE_throw.mpr trivial⟩
    | ok v =>
      simp only [Handler.store, storeOr, tryStore]
      rw [wpE_bind, wpE_bind]
      refine wpE_performE.mpr ⟨⟨t, rfl, v, hv, rfl, rfl⟩, fun answer _ => ?_⟩
      cases answer with
      | error e => exact wpE_throw.mpr trivial
      | ok first =>
        cases first with
        | false =>
          refine wpE_pure.mpr ?_
          simp only [Bool.false_eq_true, if_false]
          rw [wpE_bind]
          exact wpE_performE.mpr ⟨trivial, fun _ _ => wpE_throw.mpr trivial⟩
        | true => exact wpE_pure.mpr ⟨_, _, rfl⟩

theorem claiming_authenticateByAssertion (client : Client) (cred : ClientCredential) :
    wpE srv.claiming (srv.verifying.authenticateByAssertion client cred)
      ⟨.assertion client cred, .entered⟩
      (fun a l => a.2 = .ok () → ∃ id deadline, l.phase = .claimed id deadline true)
      (fun _ _ => True) := by
  unfold authenticateByAssertion
  refine wpE_ite.mpr ⟨fun _ => wpE_pure.mpr (by intro h; cases h), fun _ => ?_⟩
  split
  · exact wpE_pure.mpr (by intro h; cases h)
  · rename_i assertion keys hcred hauth
    rw [wpE_bind]
    refine wpE_performE.mpr ⟨trivial, fun t _ => ?_⟩
    cases hv : srv.verifying.host.verifyAssertion keys assertion client.clientId t with
    | error reason => exact wpE_pure.mpr (by intro h; cases h)
    | ok v =>
      simp only [tryStore]
      rw [wpE_bind]
      refine wpE_performE.mpr ⟨⟨t, rfl, keys, assertion, v, hcred, hv, rfl, rfl⟩, fun answer _ => ?_⟩
      cases answer with
      | error e => exact wpE_pure.mpr (by intro h; cases h)
      | ok first =>
        cases first with
        | false => exact wpE_pure.mpr (by intro h; cases h)
        | true => exact wpE_pure.mpr fun _ => ⟨_, _, rfl⟩
  · exact wpE_pure.mpr (by intro h; cases h)

theorem present_follows (q : Presentation) :
    wp srv.claiming (srv.present q) ⟨q, .entered⟩ PresentationLedger.Accepts := by
  cases q with
  | proof p htm htu =>
    refine wp_bind.mpr (wp_mono (fun r l h => ?_) (claiming_verifyDpop p htm htu))
    cases r with
    | error e => exact fun h => by cases h
    | ok a => exact fun _ => h
  | assertion client cred =>
    refine wp_bind.mpr (wp_mono (fun r l h => ?_) (claiming_authenticateByAssertion client cred))
    cases r with
    | error e => exact fun h => by cases h
    | ok a =>
      obtain ⟨paid, result⟩ := a
      cases result with
      | error reason => exact fun h => by cases h
      | ok u => exact fun _ => h rfl

def presentingDiscipline (srv : Server) : Discipline srv.presenting PresentationLedger where
  protocol := srv.claiming
  start q := ⟨q, .entered⟩
  accept := PresentationLedger.Accepts
  handler_follows := present_follows
  perform_possible _ := trivial

end Server

/-! ## At most one first claim -/

/-- A sweep is made at the current time, and not when a claim is pending whose deadline has come. -/
def NoSweepPassesClaim (s : Presenting)
    (a : Action Choice Presentation Occurrence)
    (_ : Presenting) : Prop :=
  ∀ now, a = .env (.sweep now) → now = s.world.clock ∧
    ∀ t ∈ s.threads, ∀ id deadline, t.call? = some (.storage (.claimReplayId id deadline)) →
      now < deadline

section Claims
variable {srv : Server} {s s' : Presenting} {t : Presenter} {id : String} {deadline : SystemTime}
variable {l : PresentationLedger}

def Server.phase (srv : Server) (t : Presenter) : Phase :=
  (srv.presentingDiscipline.ledger t).phase

theorem presentation_ledger (srv : Server) (t : Presenter) :
    (srv.presentingDiscipline.ledger t).presentation = t.request := by
  refine Discipline.ledger_eq_start (D := srv.presentingDiscipline)
    PresentationLedger.presentation (fun l e r => ?_) t
  show (l.next e r).presentation = l.presentation
  unfold PresentationLedger.next
  split <;> rfl

theorem phase_next_judged {e : Effect} {r : e.Answer} {u : SystemTime}
    (h : (l.next e r).phase = .judged u) : (⟨e, r⟩ : Answered) = ⟨.now, u⟩ := by
  unfold PresentationLedger.next at h
  split at h
  · cases hp : l.phase <;> simp only [hp, Phase.read] at h <;> cases h
    rfl
  · cases hp : l.phase <;> simp only [hp, Phase.claim] at h <;> cases h
  · cases hp : l.phase <;> simp only [hp, Phase.leave] at h <;> cases h

theorem phase_next_claimed {e : Effect} {r : e.Answer} {first : Bool}
    (h : (l.next e r).phase = .claimed id deadline first) :
    l.phase = .claimed id deadline first ∨
      (⟨e, r⟩ : Answered) =
        ⟨.storage (.claimReplayId id deadline), .ok first⟩ := by
  unfold PresentationLedger.next at h
  split at h
  · cases hp : l.phase <;> simp only [hp, Phase.read] at h <;> cases h
    exact .inl rfl
  · cases hp : l.phase <;> simp only [hp, Phase.claim] at h <;> cases h
    · exact .inr rfl
    · exact .inl rfl
  · cases hp : l.phase <;> simp only [hp, Phase.leave] at h <;> cases h
    exact .inl rfl

/-- Whoever is about to claim has judged the token it presents. -/
theorem judged_of_pending (hF : srv.presentingDiscipline.Follows s) (ht : t ∈ s.threads)
    (hcall : t.call? = some (.storage (.claimReplayId id deadline))) :
    ∃ u, srv.phase t = .judged u ∧ t.request.Verifies srv u id deadline := by
  obtain ⟨k, hprog⟩ := Thread.call?_eq_some.mp hcall
  obtain ⟨u, hphase, hverifies⟩ := Discipline.allowed_of_call hF ht hprog
  rw [presentation_ledger] at hverifies
  exact ⟨u, hphase, hverifies⟩

/-- The claims that were made. A successful claim is still stored, or its deadline has come and
nobody is about to claim the same. -/
structure Claims (srv : Server) (s : Presenting) :
    Prop where
  verified : ∀ t ∈ s.threads, ∀ id deadline first, srv.phase t = .claimed id deadline first →
    ∃ u, t.request.Verifies srv u id deadline
  kept : ∀ t ∈ s.threads, ∀ id deadline, srv.phase t = .claimed id deadline true →
    (id, deadline) ∈ s.world.store.replayIds ∨ (deadline ≤ s.world.clock ∧
      ∀ t' ∈ s.threads, t'.call? ≠ some (.storage (.claimReplayId id deadline)))
  unique : ∀ (i j : Nat) t t' id deadline, s.threads[i]? = some t → s.threads[j]? = some t' →
    srv.phase t = .claimed id deadline true → srv.phase t' = .claimed id deadline true → i = j

namespace Claims

theorem start (w : World) : Claims srv ⟨w, []⟩ := by
  refine ⟨?_, ?_, ?_⟩
  · intro t ht
    cases ht
  · intro t ht
    cases ht
  · intro i j t t' id deadline hi
    cases hi

theorem onlyOne (h : Claims srv s) (id : String) (deadline : SystemTime) :
    OnlyOne (fun t => srv.phase t = .claimed id deadline true) s.threads :=
  fun i j t t' hi hj => h.unique i j t t' id deadline hi hj

theorem spawn (hF : srv.presentingDiscipline.Follows s') (h : Claims srv s) {q : Presentation}
    (hs' : s' = ⟨s.world, s.threads ++ [Thread.start q (srv.present q)]⟩) : Claims srv s' := by
  have hnew : srv.phase (Thread.start q (srv.present q)) = .entered := rfl
  subst hs'
  refine ⟨?_, ?_, ?_⟩
  · refine forall_mem_append_one h.verified fun id deadline first hphase => ?_
    rw [hnew] at hphase
    cases hphase
  · intro t ht id deadline hphase
    rcases List.mem_append.mp ht with ht | ht
    · refine (h.kept t ht id deadline hphase).imp_right fun ⟨hle, hnone⟩ => ⟨hle, ?_⟩
      intro t' ht' hcall
      rcases List.mem_append.mp ht' with hold | hlast
      · exact hnone t' hold hcall
      · obtain ⟨u, hjudged, -⟩ := judged_of_pending hF ht' hcall
        rw [List.mem_singleton.mp hlast, hnew] at hjudged
        cases hjudged
    · rw [List.mem_singleton.mp ht, hnew] at hphase
      cases hphase
  · intro i j t t' id deadline hi hj
    exact (h.onlyOne id deadline).append (by simp [hnew]) hi hj

/-- What a claim does: it is the first only if nothing is stored under the identifier, and then it
is stored itself. -/
theorem exec_claim {g g' : MemoryInner} {first : Bool}
    (h : (StorageOp.claimReplayId id deadline).exec g = (.ok first, g')) :
    (∀ c ∈ g.replayIds, c ∈ g'.replayIds) ∧
      (first = true → (∀ c ∈ g.replayIds, c.1 ≠ id) ∧ (id, deadline) ∈ g'.replayIds) := by
  simp only [StorageOp.exec, StorageOp.succeeding, MemoryInner.claimReplayId] at h
  split at h
  · cases h
    exact ⟨fun c hc => hc, fun hfirst => by cases hfirst⟩
  · rename_i hcontains
    have hfree : ∀ c ∈ g.replayIds, c.1 ≠ id := fun c hc hid =>
      hcontains (Table.contains_iff.mpr ⟨c, hc, hid⟩)
    cases h
    exact ⟨fun c hc => Table.mem_insert.mpr (.inr ⟨hc, hfree c hc⟩), fun _ =>
      ⟨hfree, Table.mem_insert_self⟩⟩

/-- The step lemma for a call: a claim that is made while an earlier one for the same is kept loses,
and whoever becomes ready to claim read the clock before the deadline. -/
theorem run (hF : srv.presentingDiscipline.Follows s) (hF' : srv.presentingDiscipline.Follows s')
    (h : Claims srv s) {i : Nat} {c : Choice}
    (hstep : srv.presenting.step s (.run i c) = some s') : Claims srv s' := by
  obtain ⟨t, e, k, r, w, hi, hprog, hperform, rfl⟩ := Semantics.step_run hstep
  have hmem := List.mem_of_getElem? hi
  have hcall : t.call? = some e := Thread.call?_eq_some.mpr ⟨k, hprog⟩
  have hclock : w.clock = s.world.clock := World.clock_of_perform hperform
  have hphase : srv.phase (t.resume e r (k r)) =
      ((srv.presentingDiscipline.ledger t).next e r).phase :=
    congrArg PresentationLedger.phase (Discipline.ledger_resume srv.presentingDiscipline t e r (k r))
  have hallowed : (srv.presentingDiscipline.ledger t).Allowed srv e :=
    Discipline.allowed_of_call hF hmem hprog
  -- What is stored stays, and a first claim is stored where nothing was.
  have hstored : (∀ c ∈ s.world.store.replayIds, c ∈ w.store.replayIds) ∧
      ∀ id deadline, (⟨e, r⟩ : Answered) =
        ⟨.storage (.claimReplayId id deadline), .ok true⟩ →
        (∀ c ∈ s.world.store.replayIds, c.1 ≠ id) ∧ (id, deadline) ∈ w.store.replayIds := by
    cases e with
    | storage op =>
      obtain ⟨hexec, -, -⟩ := World.perform_storage hperform
      cases op with
      | claimReplayId id' deadline' =>
        cases r with
        | error e => cases hexec
        | ok first =>
          refine ⟨(exec_claim hexec).1, ?_⟩
          rintro id deadline ⟨⟩
          exact (exec_claim hexec).2 rfl
      | _ => exact hallowed.elim
    | _ =>
      obtain ⟨hstore, -⟩ := World.frame_of_perform rfl hperform
      refine ⟨fun c hc => hstore ▸ hc, ?_⟩
      rintro id deadline ⟨⟩
  -- A presentation that is about to claim for the first time has just read the clock.
  have hpending : ∀ t' ∈ s.threads.set i (t.resume e r (k r)), ∀ id deadline,
      t'.call? = some (.storage (.claimReplayId id deadline)) →
      t' ∈ s.threads ∨ s.world.clock < deadline := by
    intro t' ht' id deadline hcall'
    rcases List.mem_or_eq_of_mem_set ht' with hold | rfl
    · exact .inl hold
    · obtain ⟨u, hjudged, hverifies⟩ := judged_of_pending hF' ht' hcall'
      cases phase_next_judged (hphase.symm.trans hjudged)
      obtain ⟨hu, -⟩ := World.perform_now hperform
      exact .inr (hu ▸ hverifies.lt)
  have hkeeps : ∀ {id : String} {deadline : SystemTime},
      (id, deadline) ∈ s.world.store.replayIds ∨ (deadline ≤ s.world.clock ∧
        ∀ t' ∈ s.threads, t'.call? ≠ some (.storage (.claimReplayId id deadline))) →
      (id, deadline) ∈ w.store.replayIds ∨ (deadline ≤ w.clock ∧
        ∀ t' ∈ s.threads.set i (t.resume e r (k r)),
          t'.call? ≠ some (.storage (.claimReplayId id deadline))) := by
    rintro id deadline (hin | ⟨hle, hnone⟩)
    · exact .inl (hstored.1 _ hin)
    · refine .inr ⟨hclock ▸ hle, fun t' ht' hcall' => ?_⟩
      rcases hpending t' ht' id deadline hcall' with hold | hlt
      · exact hnone t' hold hcall'
      · exact absurd hle (Int.not_le.mpr hlt)
  refine ⟨?_, ?_, ?_⟩
  · refine forall_mem_set h.verified fun id deadline first hclaimed => ?_
    rcases phase_next_claimed (hphase.symm.trans hclaimed) with hbefore | hnow
    · exact h.verified t hmem id deadline first hbefore
    · cases hnow
      obtain ⟨u, -, hverifies⟩ := hallowed
      rw [presentation_ledger] at hverifies
      exact ⟨u, hverifies⟩
  · intro t' ht' id deadline hclaimed
    rcases List.mem_or_eq_of_mem_set ht' with hold | rfl
    · exact hkeeps (h.kept t' hold id deadline hclaimed)
    · rcases phase_next_claimed (hphase.symm.trans hclaimed) with hbefore | hnow
      · exact hkeeps (h.kept t hmem id deadline hbefore)
      · exact .inl (hstored.2 id deadline hnow).2
  · -- A second first claim would have found the first one.
    intro a b x y id deadline ha hb
    refine (h.onlyOne id deadline).set hi (fun hclaimed => ?_) ha hb
    refine (phase_next_claimed (hphase.symm.trans hclaimed)).imp_right fun hnow m hm hfirst => ?_
    rcases h.kept m hm id deadline hfirst with hin | ⟨-, hnone⟩
    · exact (hstored.2 id deadline hnow).1 _ hin rfl
    · cases hnow
      exact hnone t hmem hcall

theorem env (h : Claims srv s) {v : Occurrence}
    (hstep : srv.presenting.step s (.env v) = some s')
    (hok : NoSweepPassesClaim s (.env v) s') : Claims srv s' := by
  obtain ⟨w, hw, rfl⟩ := Semantics.step_env hstep
  refine ⟨h.verified, ?_, h.unique⟩
  intro t ht id deadline hclaimed
  cases v with
  | tick elapsed =>
    cases hw
    refine (h.kept t ht id deadline hclaimed).imp_right fun ⟨hle, hnone⟩ => ⟨?_, hnone⟩
    exact Int.le_trans hle (Int.le_add_of_nonneg_right (Int.natCast_nonneg elapsed))
  | sweep now =>
    cases hw
    obtain ⟨hnow, hpending⟩ := hok now rfl
    rcases h.kept t ht id deadline hclaimed with hin | hgone
    · rcases Int.lt_or_le now deadline with hlt | hle
      · exact .inl (Table.mem_retain.mpr ⟨hin, decide_eq_true hlt⟩)
      · refine .inr ⟨hnow ▸ hle, fun t' ht' hcall => ?_⟩
        exact absurd hle (Int.not_le.mpr (hpending t' ht' id deadline hcall))
    · exact .inr hgone

end Claims

/-- A DPoP proof or a client assertion is accepted at most once, in every run in which sweeps are
made at the current time and no sweep passes a pending claim at its deadline. -/
theorem token_accepted_once {w : World} {i j : Nat}
    {t t' : Presenter} {verdict verdict' : Verdict}
    (h : srv.presenting.Reaches NoSweepPassesClaim ⟨w, []⟩ s)
    (hi : s.threads[i]? = some t) (hj : s.threads[j]? = some t')
    (hsame : t.request.SameToken t'.request)
    (ht : t.reply? = some verdict) (haccepted : verdict.Accepted = true)
    (ht' : t'.reply? = some verdict') (haccepted' : verdict'.Accepted = true) : i = j := by
  have hI : srv.presentingDiscipline.Follows s ∧ Claims srv s := by
    refine h.invariant (I := fun s => srv.presentingDiscipline.Follows s ∧ Claims srv s) ?_
      ⟨Discipline.follows_of_idle, .start w⟩
    rintro s a s' ⟨hF, hC⟩ hstep hok
    have hF' := (Discipline.ledgerStep hF hstep).2
    refine ⟨hF', ?_⟩
    cases a with
    | spawn q =>
      cases hstep
      exact hC.spawn hF' rfl
    | run i c => exact hC.run hF hF' hstep
    | env v => exact hC.env hstep hok
  obtain ⟨hF, hC⟩ := hI
  have hmem := List.mem_of_getElem? hi
  have hmem' := List.mem_of_getElem? hj
  obtain ⟨id, deadline, hclaimed⟩ := Discipline.accepts hF hmem ht haccepted
  obtain ⟨id', deadline', hclaimed'⟩ := Discipline.accepts hF hmem' ht' haccepted'
  obtain ⟨u, hverifies⟩ := hC.verified t hmem id deadline true hclaimed
  obtain ⟨u', hverifies'⟩ := hC.verified t' hmem' id' deadline' true hclaimed'
  obtain ⟨rfl, rfl⟩ := hverifies.unique hverifies' hsame
  exact hC.unique i j t t' id deadline hi hj hclaimed hclaimed'

end Claims

namespace Sample

def members : List (String × Json) → JsonObject
  | [] => .nil
  | (key, value) :: rest => .cons key value (members rest)

/-- A backend that reads three fixed segments and takes every signature for good. -/
def signing : JwsBackend where
  base64Url segment := some (segment.toList.map fun c => c.toNat.toUInt8)
  parseJson octets := some (.object (members (
    if octets = [112] then
      [("typ", .string "dpop+jwt"), ("alg", .string "ES256"), ("jwk", .null)]
    else if octets = [97] then [("alg", .string "HS256")]
    else
      [("htm", .string "POST"), ("htu", .string "https://as.example/token"),
        ("iat", .number "0"), ("exp", .number "300"), ("jti", .string "jti"),
        ("iss", .string "app"), ("sub", .string "app"), ("aud", .string "https://as.example")])))
  readJwk _ := some ⟨"key", .ec, "thumbprint"⟩
  verifier alg := if alg = .es256 then some fun _ _ _ => true else none
  hs256 _ _ _ := true
  f64 _ := 0

def signed : Server := ⟨config, { host with jws := signing }⟩

/-- A proof made at the epoch for the token endpoint. -/
def possession : Presentation := .proof "p.c.s" "POST" "https://as.example/token"

/-- An assertion that expires 300 seconds after the epoch. -/
def asserted : Presentation :=
  .assertion { app with auth := .confidentialAssertion (.clientSecret "secret") }
    ⟨none, some clientAssertionType, some "a.c.s", none⟩

/-- Both are judged in time, one claims, the claim is swept at its deadline, the other claims. -/
def claimsLate (q : Presentation) : List (Action Choice Presentation Occurrence) :=
  [.spawn q, .spawn q, .run 0 .none, .run 1 .none, .run 0 .none, .env (.tick (.fromSecs 300)),
    .env (.sweep 300000000000), .run 1 .none]

/-- Whether a presentation of the token was accepted. -/
def accepts (q : Presentation) (s : Presenting) (i : Nat) : Bool :=
  (s.threads[i]?).any fun t => decide (t.request = q) && t.reply?.any Verdict.Accepted

theorem reply_of_accepts {q : Presentation} {s : Presenting} {i : Nat}
    (h : accepts q s i = true) : ∃ t verdict, s.threads[i]? = some t ∧ t.request = q ∧
      t.reply? = some verdict ∧ verdict.Accepted = true := by
  simp only [accepts, Option.any_eq_true, Bool.and_eq_true, decide_eq_true_eq] at h
  obtain ⟨t, ht, hq, verdict, hreply, haccepted⟩ := h
  exact ⟨t, verdict, ht, hq, hreply, haccepted⟩

def sweepsNow (s : Presenting) : Action Choice Presentation Occurrence → Presenting → Bool
  | .env (.sweep now), _ => now = s.world.clock
  | _, _ => true

theorem claimsLate_accepted : ∀ q ∈ [possession, asserted],
    ∃ s ∈ signed.presenting.runChecked sweepsNow ⟨.initial 0, []⟩ (claimsLate q),
      accepts q s 0 = true ∧ accepts q s 1 = true := by
  decide +kernel

end Sample

theorem Presentation.SameToken.refl (q : Presentation) : q.SameToken q := by
  cases q <;> rfl

/-- A proof is accepted twice when a sweep at its deadline runs between the judgement of the second
presentation and its claim; so is an assertion. -/
theorem token_accepted_twice :
    ∃ (s : Presenting) (t t' : Presenter) (verdict verdict' : Verdict),
      Sample.signed.presenting.Reaches (fun s a _ => ∀ now, a = .env (.sweep now) →
        now = s.world.clock) ⟨.initial 0, []⟩ s ∧
      s.threads[0]? = some t ∧ s.threads[1]? = some t' ∧ t.request.SameToken t'.request ∧
      t.reply? = some verdict ∧ verdict.Accepted = true ∧
      t'.reply? = some verdict' ∧ verdict'.Accepted = true := by
  obtain ⟨s, hs, hfirst, hsecond⟩ := Sample.claimsLate_accepted Sample.possession (by simp)
  obtain ⟨t, verdict, ht, hq, hreply, haccepted⟩ := Sample.reply_of_accepts hfirst
  obtain ⟨t', verdict', ht', hq', hreply', haccepted'⟩ := Sample.reply_of_accepts hsecond
  refine ⟨s, t, t', verdict, verdict', ?_, ht, ht', ?_, hreply, haccepted, hreply', haccepted'⟩
  · refine Semantics.reaches_of_runChecked (fun s a _ h now ha => ?_) hs
    rw [ha] at h
    exact of_decide_eq_true h
  · rw [hq, hq']
    exact .refl _

namespace Sample

/-- The second presentation loses before the claim is swept. -/
def claimsInTime : List (Action Choice Presentation Occurrence) :=
  [.spawn possession, .spawn possession, .run 0 .none, .run 1 .none, .run 0 .none, .run 1 .none,
    .run 1 .none, .env (.tick (.fromSecs 300)), .env (.sweep 300000000000)]

def sweepsBehind (s : Presenting) : Action Choice Presentation Occurrence → Presenting → Bool
  | .env (.sweep now), _ => decide (now = s.world.clock) && s.threads.all fun t =>
      match t.call? with
      | some (.storage (.claimReplayId _ deadline)) => decide (now < deadline)
      | _ => true
  | _, _ => true

theorem noSweepPassesClaim_of_sweepsBehind {s s' : Presenting}
    {a : Action Choice Presentation Occurrence} (h : sweepsBehind s a s' = true) :
    NoSweepPassesClaim s a s' := by
  rintro now rfl
  simp only [sweepsBehind, Bool.and_eq_true, decide_eq_true_eq, List.all_eq_true] at h
  refine ⟨h.1, fun t ht id deadline hcall => ?_⟩
  have := h.2 t ht
  rw [hcall] at this
  exact of_decide_eq_true this

end Sample

theorem token_accepted_once_swept : ∃ (s : Presenting) (t : Presenter) (verdict : Verdict) (i : Nat),
    Sample.signed.presenting.Reaches NoSweepPassesClaim ⟨.initial 0, []⟩ s ∧
      s.threads[0]? = some t ∧ s.threads[i]? = some t ∧ t.reply? = some verdict ∧
      verdict.Accepted = true ∧ 0 = i := by
  obtain ⟨s, hs, haccepts⟩ : ∃ s ∈ Sample.signed.presenting.runChecked Sample.sweepsBehind
      ⟨.initial 0, []⟩ Sample.claimsInTime, Sample.accepts Sample.possession s 0 = true := by
    decide +kernel
  obtain ⟨t, verdict, ht, -, hreply, haccepted⟩ := Sample.reply_of_accepts haccepts
  have hreach := Semantics.reaches_of_runChecked
    (fun _ _ _ h => Sample.noSweepPassesClaim_of_sweepsBehind h) hs
  exact ⟨s, t, verdict, 0, hreach, ht, ht, hreply, haccepted,
    token_accepted_once hreach ht ht (.refl _) hreply haccepted hreply haccepted⟩

end OauthAs
