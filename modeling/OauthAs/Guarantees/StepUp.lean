-- SUMMARY: Whether a code carries the sign-in its request demands, on every path that issues codes.
import OauthAs.Protocol.Requests

/-!
# Step-up

A request may demand how recently and how strongly the user signed in. Validation parses the demand
and carries it along; one of the calls that issue codes is handed a demand a second time and checks
that one. What is stored is as good as the request demands exactly if the demand handed in is.
-/

namespace OauthAs

open Sample

/-! ## The demand -/

namespace AuthenticationRequirement

/-- A sign-in recent enough at this instant, and of a class that is asked for. -/
structure Met (r : AuthenticationRequirement) (a : Authentication) (now : SystemTime) : Prop where
  fresh : ∀ maxAge, r.maxAge = some maxAge → (a.age now).getD 0 ≤ maxAge
  classed : r.acrValues ≠ [] → ∃ acr, a.acr = some acr ∧ acr ∈ r.acrValues

variable {r : AuthenticationRequirement} {authentication : Option Authentication}
  {now : SystemTime}

theorem satisfiedBy_of_isEmpty (h : r.isEmpty = true) : r.satisfiedBy authentication now = .ok () := by
  simp [satisfiedBy, h]

/-- A demand that asks for something is satisfied only by a sign-in that was reported. -/
theorem satisfiedBy_iff (h : r.isEmpty = false) :
    r.satisfiedBy authentication now = .ok () ↔ ∃ a, authentication = some a ∧ r.Met a now := by
  cases authentication with
  | none => simp [satisfiedBy, h]
  | some a =>
    have hfresh : r.maxAge.any (fun maxAge => decide ((a.age now).getD 0 > maxAge)) = false ↔
        ∀ maxAge, r.maxAge = some maxAge → (a.age now).getD 0 ≤ maxAge := by
      cases r.maxAge <;> simp
    have hclassed : (!r.acrValues.isEmpty && !a.acr.any fun acr => r.acrValues.contains acr) = false ↔
        (r.acrValues ≠ [] → ∃ acr, a.acr = some acr ∧ acr ∈ r.acrValues) := by
      cases a.acr <;> simp [List.isEmpty_iff, imp_iff_not_or]
    have hmet : r.Met a now ↔ _ ∧ _ :=
      ⟨fun h => ⟨hfresh.mpr h.fresh, hclassed.mpr h.classed⟩,
        fun h => ⟨hfresh.mp h.1, hclassed.mp h.2⟩⟩
    simp only [satisfiedBy, h, Bool.false_eq_true, if_false, Option.some.injEq, exists_eq_left']
    rw [hmet]
    split
    · simp_all
    · split <;> simp_all

end AuthenticationRequirement

/-! ## The codes that are stored -/

namespace ServiceCall

variable (srv : Server) (t : ServiceCall)

/-- The request a thread issues codes for: the one the caller had validated, or the one that came
to the endpoint, validated by the thread itself. -/
def IssuesFor (v : ValidatedAuthorizationRequest) : Prop :=
  match t.request with
  | .issueCode approval | .issueCodeWith approval _ _ => v = approval.request
  | _ => ∃ request client, t.Judges srv request client ∧ srv.validateFor client request = .ok v

/-- The code was stored with a sign-in that met the demand when the thread checked it. -/
def StepsUp (record : AuthorizationCodeRecord) (own : AuthenticationRequirement) : Prop :=
  ∃ a checked filed code clientId before after, record.authentication = some a ∧
    own.Met a checked ∧
    t.trace = before ++ ⟨.now, checked⟩ :: ⟨.check (.authorizationRequest clientId), .allow⟩ ::
      ⟨.now, filed⟩ :: ⟨.randomHex 32, some code⟩ ::
      ⟨.storage (.putAuthorizationCode record), .ok ()⟩ :: after

/-- Every code the thread stored is one for its request, and carries the sign-in the request
demands, if it demands any. -/
def EnforcesStepUp : Prop :=
  ∀ record, t.Did (.storage (.putAuthorizationCode record)) (.ok ()) →
    ∃ v, t.IssuesFor srv v ∧ record.IssuedFor srv v ∧
      ∀ request client own, srv.validateFor client request = .ok v →
        AuthenticationRequirement.fromRequest request = .ok own → own.isEmpty = false →
        t.StepsUp record own

end ServiceCall

namespace Server

variable {srv : Server}
variable {requirement : AuthenticationRequirement} {authentication : Option Authentication}

/-- Whoever satisfies the demand that is handed in satisfies the demand of the validated request. -/
def Heeds (srv : Server) : ServiceRequest → Prop
  | .issueCodeWith approval requirement authentication =>
    (∃ request client, srv.validateFor client request = .ok approval.request) →
      ∀ instant, requirement.satisfiedBy authentication instant = .ok () →
        approval.request.authenticationRequirement.satisfiedBy authentication instant = .ok ()
  | _ => True

/-- The demand that was checked covers the demand of the request the code is for. -/
theorem covers_of_issues {q : ServiceRequest} (hheeds : srv.Heeds q) {l : FrontLedger}
    {approval : UserApproval} {checked : SystemTime}
    (hissues : l.Issues srv q approval requirement authentication)
    (hsatisfied : requirement.satisfiedBy authentication checked = .ok ())
    (hvalid : ∃ request client, srv.validateFor client request = .ok approval.request) :
    approval.request.authenticationRequirement.satisfiedBy authentication checked = .ok () := by
  cases q with
  | issueCode asked =>
    obtain ⟨rfl, rfl, rfl⟩ := hissues
    exact hsatisfied
  | issueCodeWith asked needed reported =>
    obtain ⟨rfl, rfl, rfl⟩ := hissues
    exact hheeds hvalid checked hsatisfied
  | authorize p =>
    obtain ⟨door, validated, subject, received, -, -, -, -, rfl, rfl, rfl⟩ := hissues
    exact hsatisfied
  | _ => cases hissues

/-- What a call does once the sign-in has been judged. -/
def judged (srv : Server) (approval : UserApproval) (authentication : Option Authentication) :
    Except StepUpFailure Unit → Handler AuthorizationErrorRedirect AuthorizationResponse
  | .error failure => throw (authorizationErrorFor approval.request failure.errorResponse)
  | .ok () => srv.issueAuthorizationCodeInner approval authentication

/-- A call whose demand is satisfied stores its code, unless it is throttled. -/
theorem stores_of_satisfied (srv : Server) (approval : UserApproval) {instant : SystemTime}
    (h : requirement.satisfiedBy authentication instant = .ok ()) :
    ∃ s, ∃ t : ServiceCall,
      srv.service.Reaches Semantics.anyStep (ServiceState.idle (.initial instant)) s ∧
      t ∈ s.threads ∧ t.request = .issueCodeWith approval requirement authentication ∧
      t.trace = [⟨.now, instant⟩,
        ⟨.check (.authorizationRequest approval.request.clientId), .allow⟩, ⟨.now, instant⟩,
        ⟨.randomHex 32, some (hex 32 0)⟩,
        ⟨.storage (.putAuthorizationCode (srv.codeRecord approval authentication instant
          (hex 32 0).text)), .ok ()⟩] := by
  -- Once the sign-in has passed, the call goes on as the shared step does.
  have hfirst : srv.service.run (ServiceState.idle (.initial instant))
      [.spawn (.issueCodeWith approval requirement authentication), .run 0 .none] =
      some ⟨.initial instant, [⟨.issueCodeWith approval requirement authentication,
        [⟨.now, instant⟩],
        ServiceReply.code <$> (srv.issueAuthorizationCodeInner approval authentication).run⟩]⟩ := by
    have hgoes : srv.judged approval authentication (requirement.satisfiedBy authentication instant) =
        srv.issueAuthorizationCodeInner approval authentication := by
      rw [h]
      rfl
    rw [← hgoes]
    rfl
  have hrest : srv.service.run ⟨.initial instant,
      [⟨.issueCodeWith approval requirement authentication, [⟨.now, instant⟩],
        ServiceReply.code <$> (srv.issueAuthorizationCodeInner approval authentication).run⟩]⟩
      [.run 0 (.decision .allow), .run 0 .none, .run 0 (.hex (some (hex 32 0).text)),
        .run 0 .none] = some _ := rfl
  exact ⟨_, _, (Semantics.reaches_of_run hfirst).trans (Semantics.reaches_of_run hrest),
    List.mem_singleton_self _, rfl, rfl⟩

/-- The request a ledger issues for, told by the thread. -/
theorem issuesFor_of_issues {ok} {w : World} {s : ServiceState} {t u : ServiceCall}
    {l : FrontLedger} (h : srv.service.Reaches ok (ServiceState.idle w) s) (hu : u ∈ s.threads)
    (hledger : srv.serviceDiscipline.ledger u = .front t.request l) (htrace : u.trace <+: t.trace)
    {approval : UserApproval}
    (hissues : l.Issues srv t.request approval requirement authentication) :
    t.IssuesFor srv approval.request := by
  unfold ServiceCall.IssuesFor
  cases hq : t.request with
  | issueCode asked | issueCodeWith asked needed reported =>
    rw [hq] at hissues
    exact congrArg UserApproval.request hissues.1
  | authorize p =>
    have hrequest := (front_of_ledger hledger).1
    rw [hq] at hissues
    obtain ⟨door, validated, subject, received, hdoor, hresolved, -, -, rfl, -⟩ := hissues
    rw [← hq] at hdoor
    obtain ⟨request, client, hjudges, hverdict⟩ :=
      judges_of_resolved h hu hledger hdoor hresolved
    exact ⟨request, client, hjudges.mono hrequest.symm htrace, hverdict⟩
  | _ =>
    rw [hq] at hissues
    cases hissues

theorem enforcesStepUp_of_heeds {ok} {clock : SystemTime} {s : ServiceState} {t : ServiceCall}
    (h : srv.ServiceRuns ok clock s) (ht : t ∈ s.threads)
    (hq : ∀ request entry, t.request ≠ .api request entry) (hheeds : srv.Heeds t.request) :
    t.EnforcesStepUp srv := by
  intro record hdid
  obtain ⟨i, hi⟩ := List.mem_iff_getElem?.mp ht
  obtain ⟨before, after, htrace, moment, l, hledger, hpast, approval, requirement, authentication,
    checked, filed, code, hmints⟩ := minting h hi hq hdid
  have hcaller := List.mem_of_getElem? moment.here
  have hearlier : moment.caller.trace <+: t.trace := by
    rw [moment.trace, htrace]
    exact List.prefix_append _ _
  refine ⟨approval.request, issuesFor_of_issues moment.reached hcaller hledger hearlier
    hmints.issues, ⟨_, _, _, _, _, hmints.record_eq⟩, ?_⟩
  intro request client own hvalid hown hasks
  have hsame : own = approval.request.authenticationRequirement := by
    obtain ⟨-, -, -, -, hparsed⟩ := of_validateFor_ok hvalid
    exact Except.ok.inj (hown.symm.trans hparsed)
  have hcovered := covers_of_issues hheeds hmints.issues hmints.satisfied ⟨request, client, hvalid⟩
  rw [← hsame] at hcovered
  obtain ⟨a, hreported, hmet⟩ := (AuthenticationRequirement.satisfiedBy_iff hasks).mp hcovered
  obtain ⟨earlier, hsteps⟩ := hmints.steps
  refine ⟨a, checked, filed, code, approval.request.clientId, earlier, after, ?_, hmet, ?_⟩
  · rw [hmints.record_eq]
    exact hreported
  · rw [htrace, ← hpast, hsteps]
    simp

end Server

/-- Every code that a call stores carries the sign-in its validated request demands, met when the
call checked it, exactly if whoever satisfies the demand the call is handed satisfies the
request's. Two of the three calls are handed none. -/
theorem step_up_enforced_iff (srv : Server) {q : ServiceRequest}
    (hq : ∀ request entry, q ≠ .api request entry) :
    (∀ clock s, srv.service.Reaches Semantics.anyStep (ServiceState.idle (.initial clock)) s →
      ∀ t ∈ s.threads, t.request = q → ServiceCall.EnforcesStepUp srv t) ↔ srv.Heeds q := by
  constructor
  · intro henforced
    cases q with
    | issueCodeWith approval requirement authentication =>
      rintro ⟨request, client, hvalid⟩ instant hsatisfied
      cases hasks : approval.request.authenticationRequirement.isEmpty with
      | true => exact AuthenticationRequirement.satisfiedBy_of_isEmpty hasks
      | false =>
        obtain ⟨s, t, hreach, ht, hrequest, htrace⟩ :=
          Server.stores_of_satisfied srv approval hsatisfied
        obtain ⟨v, hfor, -, hsteps⟩ := henforced instant s hreach t ht hrequest _ (by
          rw [Thread.Did, htrace]
          exact List.mem_cons_of_mem _ (List.mem_cons_of_mem _ (List.mem_cons_of_mem _
            (List.mem_cons_of_mem _ List.mem_cons_self))))
        rw [ServiceCall.IssuesFor, hrequest] at hfor
        subst hfor
        obtain ⟨-, -, -, -, hparsed⟩ := Server.of_validateFor_ok hvalid
        obtain ⟨a, checked, filed, code, clientId, before, after, hcarried, hmet, hsplit⟩ :=
          hsteps request client _ hvalid hparsed hasks
        -- The trace has just the five calls, so it was checked at this instant.
        have hlength := congrArg List.length (htrace.symm.trans hsplit)
        have hbefore : before = [] := by
          rw [← List.length_eq_zero_iff]
          simp only [List.length_cons, List.length_nil, List.length_append] at hlength
          omega
        subst hbefore
        have hchecked : (⟨.now, instant⟩ : Answered) = ⟨.now, checked⟩ :=
          (List.cons.inj (htrace.symm.trans hsplit)).1
        cases hchecked
        exact (AuthenticationRequirement.satisfiedBy_iff hasks).mpr ⟨a, hcarried, hmet⟩
    | _ => trivial
  · rintro hheeds clock s hreach t ht rfl
    exact Server.enforcesStepUp_of_heeds hreach ht hq hheeds

/-! ## A request that demands a class -/

namespace Sample

def demanding : AuthorizationRequest := .fromPairs (asking ++ [("acr_values", "gold")])

def demanded : ValidatedAuthorizationRequest :=
  { approval.request with
    redirectUriWasExplicit := false
    scope := .empty
    authenticationRequirement := ⟨["gold"], none⟩ }

/-- The host issues the code with the demand it hands in, and a report. -/
def issuing (requirement : AuthenticationRequirement) (authentication : Option Authentication) :
    ServiceRequest :=
  .issueCodeWith ⟨demanded, "user", none⟩ requirement authentication

theorem validateFor_demanding : server.validateFor app demanding = .ok demanded := by
  decide +kernel

end Sample

/-- Handed the request's own demand and a report of that class, the call stores the code with it. -/
theorem step_up_enforced_gold :
    (∀ request entry, issuing ⟨["gold"], none⟩ (some ⟨0, some "gold"⟩) ≠ .api request entry) ∧
      ∃ s, server.service.Reaches Semantics.anyStep (ServiceState.idle (.initial 0)) s ∧
        ∃ t ∈ s.threads, t.request = issuing ⟨["gold"], none⟩ (some ⟨0, some "gold"⟩) ∧
          ∃ record, ServiceCall.StepsUp t record ⟨["gold"], none⟩ := by
  have hq : ∀ request entry,
      issuing ⟨["gold"], none⟩ (some ⟨0, some "gold"⟩) ≠ .api request entry := by
    rintro request entry ⟨⟩
  have hsatisfied : AuthenticationRequirement.satisfiedBy ⟨["gold"], none⟩ (some ⟨0, some "gold"⟩) 0 =
      .ok () := by
    decide
  obtain ⟨s, t, hreach, ht, hrequest, htrace⟩ :=
    Server.stores_of_satisfied server ⟨demanded, "user", none⟩ hsatisfied
  have henforced := (step_up_enforced_iff server hq).mpr fun _ _ h => h
  obtain ⟨v, hfor, -, hsteps⟩ := henforced 0 s hreach t ht hrequest _ (by
    rw [Thread.Did, htrace]
    exact List.mem_cons_of_mem _ (List.mem_cons_of_mem _ (List.mem_cons_of_mem _
      (List.mem_cons_of_mem _ List.mem_cons_self))))
  rw [ServiceCall.IssuesFor, hrequest] at hfor
  subst hfor
  exact ⟨hq, s, hreach, t, ht, hrequest, _,
    hsteps demanding app _ validateFor_demanding (by decide) (by decide)⟩

/-- Handed no demand and no report, the call stores a code for a request that demands a class. -/
theorem step_up_handed_in_overrides :
    ∃ s, server.service.Reaches Semantics.anyStep (ServiceState.idle (.initial 0)) s ∧
      (∃ t ∈ s.threads, t.request = .validate demanding ∧
        t.reply? = some (.validated (.ok demanded))) ∧
      AuthenticationRequirement.fromRequest demanding = .ok ⟨["gold"], none⟩ ∧
      ∃ t ∈ s.threads, t.request = issuing .none none ∧
        ∃ record ∈ s.world.store.codes, t.Did (.storage (.putAuthorizationCode record)) (.ok ()) ∧
          record.authentication = none := by
  obtain ⟨s, hs, ⟨t, ht, hvalidate, hvalidated⟩, u, hu, hissues, record, hrecord, hdid, hnone⟩ :
      ∃ s ∈ server.service.run (ServiceState.idle (.initial 0))
      (appears ++ [.spawn (.validate demanding), .run 1 (.decision .allow)] ++ goes 1 2 ++
        [.spawn (issuing .none none), .run 2 .none, .run 2 (.decision .allow), .run 2 .none,
          .run 2 (.hex (some code)), .run 2 .none]),
      (∃ t ∈ s.threads[1]?, t.request = .validate demanding ∧
        t.reply? = some (.validated (.ok demanded))) ∧
      ∃ t ∈ s.threads[2]?, t.request = issuing .none none ∧
        ∃ record ∈ s.world.store.codes.lookup code,
          t.Did (.storage (.putAuthorizationCode record)) (.ok ()) ∧
            record.authentication = none := by
    decide +kernel
  exact ⟨s, Semantics.reaches_of_run hs, ⟨t, List.mem_of_getElem? ht, hvalidate, hvalidated⟩,
    by decide, u, List.mem_of_getElem? hu, hissues, record, Table.mem_of_lookup hrecord, hdid,
    hnone⟩

end OauthAs
