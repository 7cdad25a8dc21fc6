-- SUMMARY: Every handler keeps to the ledger protocol; the discipline of the running server.
import OauthAs.Protocol.Redemption
import OauthAs.Protocol.Rotation

namespace OauthAs

open Prog Handler

/-- Whether anything is promised about the replies to a request. -/
def Request.promises : Request → Bool
  | .authorizationCodeToken _ | .refreshToken _ | .revoke _ _ _ _ => true
  | .approveDevice _ _ | .denyDevice _ | .deviceToken _ _ _ => true
  | _ => false

def Effect.isStorage : Effect → Bool
  | .storage _ => true
  | _ => false

namespace Ledger

theorem accepts_of_promises {srv : Server} {l : Ledger} {reply : Reply}
    (h : l.request.promises = false) : l.Accepts srv reply := by
  unfold Accepts
  cases hq : l.request <;> first | trivial | (rw [hq] at h; cases h)

theorem stored_request (l : Ledger) (op : StorageOp) (a : op.Result) :
    (l.stored op a).request = l.request := by
  unfold stored
  split <;> rfl

theorem next_request (l : Ledger) (e : Effect) (r : e.Answer) :
    (l.next e r).request = l.request := by
  unfold next
  split <;> first | rfl | exact stored_request ..

end Ledger

/-- A program stays the program of its request. -/
theorem Prog.wp_request {srv : Server} {α : Type} {p : Prog Effect Effect.Answer α} {l : Ledger}
    {Q : α → Ledger → Prop} (h : wp srv.protocol p l Q) :
    wp srv.protocol p l fun a l' => Q a l' ∧ l'.request = l.request := by
  induction p generalizing l with
  | ret a => exact ⟨h, rfl⟩
  | call e k ih =>
    refine ⟨h.1, fun r hr => ?_⟩
    refine wp_mono (fun a l' hl' => ⟨hl'.1, hl'.2.trans ?_⟩) (ih r (h.2 r hr))
    exact l.next_request e r

namespace Server

variable {srv : Server} {l : Ledger} {ε α : Type} {reply : Except ε α → Reply} {h : Handler ε α}
variable {scope : ScopeSet}

/-! ## Registrations and consents -/

section Trivial
variable {ok : α → Ledger → Prop} {err : ε → Ledger → Prop} {clientId : ClientId}

theorem follows_registerClient (client : Client) :
    wpE srv.protocol (registerClient client) l (fun _ _ => True) (fun _ _ => True) := by
  unfold registerClient
  split
  · exact wpE_throw.mpr trivial
  · exact (wpE_storeOr_total rfl).mpr ⟨trivial, fun _ _ _ => trivial⟩

theorem wpE_registrationAuthFailed {failure : ClientAuthFailure} {attempted : Bool} :
    wpE srv.protocol (registrationAuthFailed (α := α) clientId failure attempted) l
      ok (fun _ _ => True) := by
  unfold registrationAuthFailed
  rw [wpE_bind, wpE_emit]
  refine ⟨trivial, wpE_ite.mpr ⟨fun _ => ?_, fun _ => wpE_throw.mpr trivial⟩⟩
  rw [wpE_bind]
  exact wpE_perform.mpr ⟨trivial, fun _ _ => wpE_throw.mpr trivial⟩

theorem wpE_authenticateRegistration {token : String}
    {ok : Client × DynamicRegistration → Ledger → Prop}
    (hok : ∀ r cs, ok r { l with clients := cs }) :
    wpE srv.protocol (srv.authenticateRegistration clientId token) l ok (fun _ _ => True) := by
  unfold authenticateRegistration
  rw [wpE_bind, wpE_require]
  refine ⟨fun config _ => ?_, fun _ => trivial⟩
  refine wpE_guard (fun _ => trivial) fun _ => ?_
  rw [wpE_bind]
  refine wpE_perform.mpr ⟨trivial, fun decision _ => ?_⟩
  cases decision with
  | deny => exact wpE_registrationAuthFailed
  | allow =>
    simp only
    rw [wpE_bind, wpE_storeOr_total rfl]
    refine ⟨trivial, fun g found _ => ?_⟩
    split
    · exact wpE_registrationAuthFailed
    · split
      · exact wpE_registrationAuthFailed
      · refine wpE_ite.mpr ⟨fun _ => ?_, fun _ => wpE_registrationAuthFailed⟩
        rw [wpE_bind]
        exact wpE_perform.mpr ⟨trivial, fun _ _ => wpE_pure.mpr (hok _ _)⟩

theorem follows_deleteRegistration (clientId : ClientId) (token : String) :
    wpE srv.protocol (srv.deleteRegistration clientId token)
      (.start (.deleteRegistration clientId token)) (fun _ _ => True) (fun _ _ => True) := by
  unfold deleteRegistration
  rw [wpE_bind]
  refine wpE_authenticateRegistration fun _ _ => ?_
  rw [wpE_bind]
  refine wpE_revocationWindow fun t window hwindow => ?_
  rw [wpE_bind, wpE_storeOr]
  refine ⟨⟨hwindow, token, rfl⟩, fun g => ⟨fun _ _ => ?_, fun _ _ => trivial⟩⟩
  exact wpE_emit.mpr ⟨trivial, trivial⟩

theorem widenedConsent_widens (base : ConsentRecord) (scope : ScopeSet) (resource : List String)
    (authentication : Option Authentication) :
    (widenedConsent base scope resource authentication).Widens base ∧
      (base.Tidy → (widenedConsent base scope resource authentication).Tidy) := by
  have h := base.extend_widens scope resource
  unfold widenedConsent
  split
  · exact ⟨⟨h.id, h.client, h.subject, h.grantedAt, h.scope, h.resource⟩,
      fun ht => ht.extend scope resource⟩
  · exact ⟨h, fun ht => ht.extend scope resource⟩

/-- Under the protocol consents of this pair may be recorded: what a ledger keeps of the consents,
and what it allows as long as the invariant holds. -/
structure Remembers {L : Type} (P : Protocol Effect Effect.Answer L) (clientId : ClientId)
    (subject : String) (consents : L → ConsentLedger) (I : L → Prop) : Prop where
  possible : P.possible = Effect.Possible
  looks : ∀ {l}, I l → P.allowed l (.storage (.findConsent clientId subject)) ∧ ∀ found,
    I (P.next l (.storage (.findConsent clientId subject)) (.ok found)) ∧
      consents (P.next l (.storage (.findConsent clientId subject)) (.ok found)) =
        (consents l).look found
  draws : ∀ {l}, I l → P.allowed l (.randomHex 16) ∧ ∀ drawn,
    I (P.next l (.randomHex 16) drawn) ∧ consents (P.next l (.randomHex 16) drawn) = consents l
  widens : ∀ {l base record}, I l → base.clientId = clientId → base.subject = subject →
    record.Widens base → (base.Tidy → record.Tidy) →
      P.allowed l (.storage (.compareAndSwapConsent (some base) record))
  creates : ∀ {l id record}, I l → (consents l).first = some none → (consents l).created = none →
    record.consentId = HexString.text id → record.clientId = clientId → record.subject = subject →
      record.Tidy → P.allowed (P.next l (.randomHex 16) (some id))
        (.storage (.compareAndSwapConsent none record))
  swaps : ∀ {l} expected record done, I l →
    I (P.next l (.storage (.compareAndSwapConsent expected record)) (.ok done)) ∧
      consents (P.next l (.storage (.compareAndSwapConsent expected record)) (.ok done)) =
        (consents l).swap expected record done

/-- One attempt after the other, as long as nothing was created. -/
theorem Remembers.wpE_loop {L : Type} {P : Protocol Effect Effect.Answer L} {subject : String}
    {consents : L → ConsentLedger} {I : L → Prop} {l : L}
    (h : Remembers P clientId subject consents I) (scope : ScopeSet) (resource : List String)
    (authentication : Option Authentication) (now : SystemTime) (attempts : Nat)
    (startedAsWiden : Option Bool) (hI : I l) (hcreated : (consents l).created = none)
    (hstarted : startedAsWiden = (consents l).first.map Option.isSome) :
    wpE P (recordConsentLoop clientId subject scope resource authentication now attempts
      startedAsWiden) l (fun _ l => I l) (fun _ l => I l) := by
  induction attempts generalizing l startedAsWiden with
  | zero => exact wpE_throw.mpr hI
  | succ attempts ih =>
    unfold recordConsentLoop
    rw [wpE_bind, Prog.wpE_storeOr h.possible rfl]
    refine ⟨(h.looks hI).1, fun g expected hexpected => ?_⟩
    obtain ⟨hlooked, hlook⟩ := (h.looks hI).2 expected
    generalize P.next l (.storage (.findConsent clientId subject)) (.ok expected) = l₁
      at hlooked hlook ⊢
    refine wpE_ite.mpr ⟨fun _ => wpE_throw.mpr hlooked, fun hshape => ?_⟩
    have hagain : ∀ l₂, I l₂ → consents l₂ = consents l₁ → ∀ record swapped,
        wpE P (if swapped = true then pure record else
          recordConsentLoop clientId subject scope resource authentication now attempts
            (some (startedAsWiden.getD expected.isSome)))
          (P.next l₂ (.storage (.compareAndSwapConsent expected record)) (.ok swapped))
          (fun _ l => I l) (fun _ l => I l) := by
      intro l₂ hI₂ hsame record swapped
      obtain ⟨hI₃, hswap⟩ := h.swaps expected record swapped hI₂
      rw [hsame, hlook] at hswap
      refine wpE_ite.mpr ⟨fun _ => wpE_pure.mpr hI₃, fun hno => ih _ hI₃ ?_ ?_⟩
      · rw [hswap]
        simp [ConsentLedger.swap, hno, ConsentLedger.look, hcreated]
      · -- What the next attempt is told agrees with what the first look found.
        rw [hswap, hstarted]
        cases hfirst : (consents l).first <;> simp [ConsentLedger.swap, ConsentLedger.look, hfirst]
    rw [wpE_bind]
    cases expected with
    | some base =>
      obtain ⟨hwidens, htidy⟩ := widenedConsent_widens base scope resource authentication
      obtain ⟨hclient, hsubject⟩ := MemoryInner.pair_of_findConsent (Except.ok.inj hexpected)
      refine wpE_pure.mpr ?_
      rw [wpE_bind, Prog.wpE_storeOr h.possible rfl]
      exact ⟨h.widens hlooked hclient hsubject hwidens htidy,
        fun g swapped _ => hagain _ hlooked rfl _ swapped⟩
    | none =>
      obtain ⟨hdraw, hdrawn⟩ := h.draws hlooked
      unfold consentBase
      rw [wpE_bind]
      refine wpE_performE.mpr ⟨hdraw, fun drawn _ => ?_⟩
      rw [wpE_bind, wpE_require]
      refine ⟨?_, fun _ => (hdrawn drawn).1⟩
      rintro id rfl
      obtain ⟨hwidens, htidy⟩ := widenedConsent_widens
        ⟨id.text, clientId, subject, .empty, [], now, none⟩ scope resource authentication
      have hfirst : (consents l₁).first = some none := by
        rw [hlook]
        cases hfirst : (consents l).first with
        | none => simp [ConsentLedger.look, hfirst]
        | some found =>
          cases found with
          | none => simp [ConsentLedger.look, hfirst]
          | some e => exact absurd ⟨by rw [hstarted, hfirst]; rfl, rfl⟩ hshape
      rw [wpE_pure, wpE_bind, Prog.wpE_storeOr h.possible rfl]
      refine ⟨h.creates hlooked hfirst ?_ hwidens.id hwidens.client hwidens.subject
        (htidy ⟨List.nodup_nil, Nat.zero_le _⟩), fun g swapped _ => ?_⟩
      · rw [hlook]
        exact hcreated
      · exact hagain _ (hdrawn _).1 (hdrawn _).2 _ swapped

theorem remembers (srv : Server) (clientId : ClientId) (subject : String) :
    Remembers srv.protocol clientId subject Ledger.consents fun _ => True where
  possible := rfl
  looks _ := ⟨trivial, fun _ => ⟨trivial, rfl⟩⟩
  draws _ := ⟨trivial, fun drawn => ⟨trivial, by cases drawn <;> rfl⟩⟩
  widens _ _ _ hwidens htidy := .widen hwidens htidy
  creates _ hfirst honce hid _ _ htidy := .create (congrArg some hid.symm) hfirst honce htidy
  swaps _ _ _ _ := ⟨trivial, rfl⟩

theorem follows_recordConsent (clientId : ClientId) (subject : String) (scope : ScopeSet)
    (resource : List String) (authentication : Option Authentication) :
    wpE srv.protocol (recordConsent clientId subject scope resource authentication)
      (.start (.recordConsent clientId subject scope resource authentication))
      (fun _ _ => True) (fun _ _ => True) := by
  unfold recordConsent
  refine wpE_ite.mpr ⟨fun _ => wpE_throw.mpr trivial, fun _ => ?_⟩
  rw [wpE_bind, wpE_now]
  intro now
  exact (srv.remembers clientId subject).wpE_loop scope resource authentication now 2 none
    trivial rfl rfl

theorem follows_withdrawConsent (consentId : String) :
    wpE srv.protocol (srv.withdrawConsent consentId) (.start (.withdrawConsent consentId))
      (fun _ _ => True) (fun _ _ => True) := by
  unfold withdrawConsent
  rw [wpE_bind, wpE_storeOr_total rfl]
  refine ⟨trivial, fun g record _ => ?_⟩
  rw [wpE_bind]
  refine wpE_revocationWindow fun t window hwindow => ?_
  rw [wpE_bind, wpE_storeOr]
  refine ⟨⟨hwindow, rfl⟩, fun g => ⟨fun n _ => ?_, fun _ _ => trivial⟩⟩
  split
  · rw [wpE_bind, wpE_emit]
    exact ⟨trivial, wpE_pure.mpr trivial⟩
  · exact wpE_pure.mpr trivial

end Trivial

/-! ## The token endpoint -/

theorem validateResourcesFrom_error {seen : Nat} {out requested : List String} {e : ErrorResponse}
    (h : srv.validateResourcesFrom seen out requested = .error e) : e.error = .invalidTarget := by
  induction requested generalizing seen out with
  | nil => cases h
  | cons value rest ih =>
    simp only [validateResourcesFrom] at h
    split at h
    · cases h
      rfl
    · split at h
      · cases h
        rfl
      · rcases except_bind_error h with h | ⟨-, -, h⟩
        · unfold targetIsPermitted at h
          repeat' split at h
          all_goals cases h
          rfl
        · exact ih h

/-- A grant is looked at with permitted resources only. -/
theorem wpE_withResources {requested : List String}
    {grant : List String → Handler ErrorResponse α} {ok : α → Ledger → Prop}
    {err : ErrorResponse → Ledger → Prop}
    (hgrant : ∀ resources, srv.Permits resources → wpE srv.protocol (grant resources) l ok err)
    (herr : ∀ e, e.error = .invalidTarget → err e l) :
    wpE srv.protocol (srv.withResources requested grant) l ok err := by
  unfold withResources
  rw [wpE_bind, wpE_judge]
  refine ⟨fun resources h => hgrant resources (permits_of_validateResources h), fun e h => ?_⟩
  exact herr e (validateResourcesFrom_error h)

/-! ## Issuing codes -/

theorem follows_issueAuthorizationCode (approval : UserApproval)
    (authentication : Option Authentication) :
    wpE srv.protocol (srv.issueAuthorizationCodeInner approval authentication)
      (.start (.issueAuthorizationCode approval authentication)) (fun _ _ => True)
      (fun _ _ => True) := by
  unfold issueAuthorizationCodeInner
  rw [wpE_bind]
  refine wpE_perform.mpr ⟨trivial, fun decision _ => ?_⟩
  cases decision with
  | deny => exact wpE_throw.mpr trivial
  | allow =>
    simp only
    rw [wpE_bind, wpE_now]
    intro now
    rw [wpE_bind]
    refine wpE_perform.mpr ⟨trivial, fun drawn _ => ?_⟩
    cases drawn with
    | none =>
      simp only
      rw [wpE_bind]
      exact wpE_perform.mpr ⟨trivial, fun _ _ => wpE_throw.mpr trivial⟩
    | some code =>
      simp only
      rw [wpE_bind, wpE_tryStore_total rfl]
      refine ⟨.file rfl rfl rfl List.mem_cons_self, fun g _ _ => ?_⟩
      rw [wpE_bind]
      exact wpE_perform.mpr ⟨trivial, fun _ _ => wpE_pure.mpr trivial⟩

/-! ## Client credentials -/

/-- Whatever the default of a registration, no more is granted than it allows. -/
theorem isSubset_grantedDefaultScope (client : Client) :
    (grantedDefaultScope client).isSubset client.allowedScopes = true := by
  unfold grantedDefaultScope
  split
  · assumption
  · refine ScopeSet.isSubset_iff.mpr fun s hs => ?_
    obtain ⟨-, hany⟩ := List.mem_filter.mp (ScopeSet.mem_ofTokens.mp hs)
    obtain ⟨a, ha, heq⟩ := List.any_eq_true.mp hany
    cases a
    cases s
    cases beq_iff_eq.mp heq
    exact ha

theorem isSubset_of_resolveScope {client : Client} {requested : Option ScopeSet}
    (h : resolveScope client requested = .ok scope) :
    scope.isSubset client.allowedScopes = true := by
  unfold resolveScope at h
  split at h
  · cases h
    exact isSubset_grantedDefaultScope client
  · split at h
    · cases h
      assumption
    · cases h

theorem follows_clientCredentialsToken (clientId : ClientId) (bound : Bound)
    (requestedScope : Option ScopeSet) (given resource : List String)
    (details : AuthorizationDetails) :
    wpE srv.protocol
      (srv.clientCredentialsToken clientId bound requestedScope resource details)
      (.start (.clientCredentialsToken clientId bound requestedScope given details))
      (fun _ _ => True) (fun _ _ => True) := by
  unfold clientCredentialsToken
  rw [wpE_bind, wpE_now]
  intro established
  rw [wpE_bind]
  refine wpE_authenticateClient (fun cs ts client hclient hmem => ?_) fun _ _ => trivial
  refine wpE_ite.mpr ⟨fun _ => ?_, fun _ => ?_⟩
  · rw [wpE_bind, wpE_emit]
    exact ⟨trivial, wpE_throw.mpr trivial⟩
  refine wpE_ite.mpr ⟨fun _ => wpE_throw.mpr trivial, fun _ => ?_⟩
  rw [wpE_bind, wpE_judge]
  refine ⟨fun scope hscope => ?_, fun _ _ => trivial⟩
  refine wpE_issue ⟨rfl, rfl, rfl, rfl, rfl, rfl⟩ rfl (.inl rfl) ?_ ?_ ?_ ?_
    (fun _ _ _ _ => trivial) fun _ _ _ _ _ => trivial
  · intro l' e hissuing _
    have hq : l'.request = .clientCredentialsToken clientId bound requestedScope given details :=
      hissuing.request
    unfold Ledger.Grants
    rw [hq]
    exact ⟨hclient, rfl, rfl⟩
  · intro l' hissuing
    have hq : l'.request = .clientCredentialsToken clientId bound requestedScope given details :=
      hissuing.request
    unfold Ledger.Draws
    rw [hq]
    refine ⟨client, ?_, hclient, isSubset_of_resolveScope hscope⟩
    rw [hissuing.clients]
    exact List.mem_append_left _ hmem
  · exact fun _ hq => nomatch hq
  · intro e hissues
    simp [issuesRefresh] at hissues

/-! ## Token exchange -/

section Exchange
variable {request : TokenExchangeRequest} {client : Client} {subject : IssuedToken}

theorem exchangeScope_ok (h : exchangeScope client request subject = .ok scope) :
    scope.tokens ⊆ subject.scope.tokens ∧ scope.tokens ⊆ client.allowedScopes.tokens := by
  have hceiling : ∀ scope' : ScopeSet, scope'.tokens ⊆ subject.scope.tokens →
      (if !scope'.isSubset client.allowedScopes then
        .error ((ErrorResponse.new .invalidScope).withDescription
          "scope exceeds the exchanging client registration")
      else .ok scope' : Except ErrorResponse ScopeSet) = .ok scope →
      scope.tokens ⊆ subject.scope.tokens ∧ scope.tokens ⊆ client.allowedScopes.tokens := by
    intro scope' hsubject h
    split at h
    · cases h
    · rename_i hregistered
      cases h
      exact ⟨hsubject, ScopeSet.isSubset_iff.mp (by simpa using hregistered)⟩
  unfold exchangeScope at h
  split at h
  · exact hceiling _ (List.Subset.refl _) h
  · split at h
    · rename_i hsubset
      exact hceiling _ (ScopeSet.isSubset_iff.mp hsubset) h
    · cases h

theorem judgeExchange_ok {granted : ScopeSet × List String}
    (h : srv.judgeExchange client request subject = .ok granted) :
    exchangeScope client request subject = .ok granted.1 ∧
      ∃ targets, srv.narrowAndPermit subject.resource targets = .ok granted.2 := by
  obtain ⟨scope, hscope, h⟩ := except_bind_ok h
  obtain ⟨-, -, h⟩ := except_bind_ok h
  obtain ⟨targets, -, h⟩ := except_bind_ok h
  obtain ⟨resource, hresource, h⟩ := except_bind_ok h
  cases h
  exact ⟨hscope, targets, hresource⟩

/-- The protocol lets a request look access tokens up. `R` says what that does to what is known, and
`known` which tokens were found. -/
structure LooksUp {L : Type} (P : Protocol Effect Effect.Answer L) (R : L → L → Prop)
    (known : L → List IssuedToken) : Prop where
  refl : ∀ l, R l l
  reports : ∀ {l id}, P.allowed l (.emit (.clientAuthenticationFailed id .notConfidential))
  introspect : ∀ {l a} {ok : Option IssuedToken → L → Prop} {err : ErrorResponse → L → Prop},
    (∀ l' found, R l l' → (∀ t, found = some t → t ∈ known l' ∧ t.accessToken = a) → ok found l') →
    wpE P (introspect a) l ok err

section LooksUp
variable {L : Type} {P : Protocol Effect Effect.Answer L} {R : L → L → Prop}
  {known : L → List IssuedToken} {l : L}

theorem LooksUp.exchangeSubject (h : LooksUp P R known) {ok : IssuedToken → L → Prop}
    (hok : ∀ l' subject, R l l' → subject ∈ known l' →
      subject.accessToken = request.subjectToken → ok subject l') :
    wpE P (exchangeSubject client request) l ok (fun _ _ => True) := by
  unfold Server.exchangeSubject
  refine wpE_ite.mpr ⟨fun _ => ?_, fun _ => ?_⟩
  · rw [wpE_bind]
    refine wpE_performE.mpr ⟨h.reports, fun _ _ => ?_⟩
    rw [wpE_bind, wpE_throw]
    trivial
  refine wpE_guard (fun _ => trivial) fun _ => ?_
  refine wpE_guard (fun _ => trivial) fun _ => ?_
  rw [wpE_bind]
  refine h.introspect fun l' found hl' hfound => ?_
  rw [wpE_require]
  refine ⟨fun subject hsubject => ?_, fun _ => trivial⟩
  exact hok l' subject hl' (hfound subject hsubject).1 (hfound subject hsubject).2

/-- Without an actor token no actor is named; with one the client goes in front of the actors of
the subject token. -/
theorem LooksUp.exchangeActor (h : LooksUp P R known)
    {ok : ExchangeSemantics × Option ActClaim → L → Prop}
    (hok : ∀ l' semantics act, R l l' →
      (request.actorToken = none ∧ act = none) ∨
        (request.actorToken ≠ none ∧ checkActChain subject.act = .ok () ∧
          ∃ sub clientId, act = some (.new sub clientId subject.act)) →
      ok (semantics, act) l') :
    wpE P (exchangeActor client request subject) l ok (fun _ _ => True) := by
  unfold Server.exchangeActor
  split
  · rename_i hactor _
    exact wpE_pure.mpr (hok l _ _ (h.refl l) (.inl ⟨hactor, rfl⟩))
  · exact wpE_throw.mpr trivial
  · exact wpE_throw.mpr trivial
  · rename_i actorToken _ hactor _
    refine wpE_guard (fun _ => trivial) fun _ => ?_
    rw [wpE_bind]
    refine h.introspect fun l' found hl' _ => ?_
    rw [wpE_bind, wpE_require]
    refine ⟨fun actor _ => ?_, fun _ => trivial⟩
    refine wpE_guard (fun _ => trivial) fun _ => ?_
    rw [wpE_bind, wpE_judge]
    refine ⟨fun _ hchain => wpE_pure.mpr (hok l' _ _ hl' (.inr ⟨?_, hchain, _, _, rfl⟩)), fun _ _ => trivial⟩
    rw [hactor]
    exact Option.some_ne_none actorToken

end LooksUp

theorem looksUp : LooksUp srv.protocol Ledger.Consulting fun l => l.issue.found :=
  ⟨.refl, trivial, wpE_introspect⟩

theorem follows_exchange (request : TokenExchangeRequest) :
    wpE srv.protocol (srv.exchange request) (.start (.tokenExchange request)) (fun _ _ => True)
      (fun _ _ => True) := by
  unfold exchange
  rw [wpE_bind, wpE_judge]
  refine ⟨fun issuedType _ => ?_, fun _ _ => trivial⟩
  rw [wpE_bind]
  refine wpE_authenticateClient (fun cs ts client hclient hmem => ?_) fun _ _ => trivial
  rw [wpE_bind]
  refine looksUp.exchangeSubject fun l₁ subject h₁ hfound hkey => ?_
  rw [wpE_bind, wpE_judge]
  refine ⟨fun _ _ => ?_, fun _ _ => trivial⟩
  rw [wpE_bind]
  refine looksUp.exchangeActor fun l₂ semantics act h₂ _ => ?_
  rw [wpE_bind, wpE_judge]
  refine ⟨fun granted hjudged => ?_, fun _ _ => trivial⟩
  have h := h₁.trans h₂
  rw [wpE_bind]
  refine wpE_issue ⟨h.entropy, h.wire, h.access, h.deleted, h.held, h.successor⟩ rfl
    (.inr fun _ _ _ => trivial) ?_ ?_ ?_ ?_ (fun _ _ _ _ => wpE_pure.mpr trivial)
    fun _ _ _ _ _ => trivial
  · intro l' e hissuing _
    have hq : l'.request = .tokenExchange request := hissuing.request.trans h.request
    unfold Ledger.Grants
    rw [hq]
    refine ⟨subject, ?_, hkey, hclient, rfl, rfl, rfl⟩
    rw [hissuing.found]
    exact h₂.found _ hfound
  · intro l' hissuing
    have hq : l'.request = .tokenExchange request := hissuing.request.trans h.request
    unfold Ledger.Draws
    rw [hq]
    refine ⟨client, ?_, hclient, ScopeSet.isSubset_iff.mpr (exchangeScope_ok (judgeExchange_ok hjudged).1).2⟩
    rw [hissuing.clients, h.clients]
    exact List.mem_append_left _ hmem
  · exact fun q hq => nomatch h.request.symm.trans hq
  · intro e hissues
    simp [issuesRefresh, exchangeIssueArgs] at hissues

theorem follows_exchangeToken (request : TokenExchangeRequest) :
    wpE srv.protocol (srv.exchangeToken request) (.start (.tokenExchange request))
      (fun _ _ => True) (fun _ _ => True) := by
  unfold exchangeToken
  rw [wpE_bind, wpE_lift_run]
  refine wpE_mono (fun exchanged l' _ => wpE_pure.mpr trivial) (fun e l' _ => ?_)
    (follows_exchange request)
  simp only
  rw [wpE_bind, wpE_emit]
  exact ⟨trivial, wpE_throw.mpr trivial⟩

end Exchange

/-! ## The device flow -/

section Device
variable {grant : DeviceGrant} {state : DeviceGrantState} {enteredUserCode : String}

/-- Looking for a free user code sees grants and changes nothing else. -/
theorem wpE_uniqueUserCode (attempts : Nat) {ok : String → Ledger → Prop}
    {err : ErrorResponse → Ledger → Prop} (hok : ∀ devices code, ok code { l with devices := devices })
    (herr : ∀ l e, err e l) :
    wpE srv.protocol (srv.uniqueUserCode attempts) l ok err := by
  induction attempts generalizing l with
  | zero => exact wpE_throw.mpr (herr _ _)
  | succ attempts ih =>
    unfold uniqueUserCode
    rw [wpE_bind]
    refine wpE_perform.mpr ⟨trivial, fun drawn _ => ?_⟩
    rw [wpE_bind, wpE_require]
    refine ⟨fun raw _ => ?_, fun _ => herr _ _⟩
    rw [wpE_bind, wpE_store_total rfl]
    refine ⟨trivial, fun g found _ => ?_⟩
    cases found with
    | none => exact wpE_pure.mpr (hok l.devices _)
    | some grant => exact ih fun devices code => hok devices code

theorem follows_deviceAuthorization (clientId : ClientId) (cred : ClientCredential)
    (requestedScope : Option ScopeSet) :
    wpE srv.protocol (srv.deviceAuthorization clientId cred requestedScope)
      (.start (.deviceAuthorization clientId cred requestedScope)) (fun _ _ => True)
      (fun _ _ => True) := by
  unfold deviceAuthorization
  rw [wpE_bind, wpE_now]
  intro createdAt
  rw [wpE_bind]
  refine wpE_authenticateClient (fun cs ts client hclient hmem => ?_) fun _ _ => trivial
  refine wpE_ite.mpr ⟨fun _ => wpE_throw.mpr trivial, fun _ => ?_⟩
  rw [wpE_bind, wpE_judge]
  refine ⟨fun scope hscope => ?_, fun _ _ => trivial⟩
  rw [wpE_bind, wpE_now]
  intro now
  rw [wpE_bind]
  refine wpE_perform.mpr ⟨trivial, fun drawn _ => ?_⟩
  rw [wpE_bind, wpE_require]
  refine ⟨?_, fun _ => trivial⟩
  rintro deviceCode rfl
  rw [wpE_bind]
  refine wpE_uniqueUserCode _ (fun devices userCode => ?_) fun _ _ => trivial
  rw [wpE_bind]
  refine wpE_storeOr.mpr ⟨⟨rfl, rfl, ?_, ⟨now, List.mem_cons_self, rfl⟩, client, ?_, rfl, ?_⟩,
    fun g => ⟨fun _ _ => ?_, ?_⟩⟩
  · exact List.mem_cons_of_mem _ (List.mem_append_right ts List.mem_cons_self)
  · exact List.mem_append_left _ hmem
  · exact isSubset_of_resolveScope hscope
  · exact wpE_pure.mpr trivial
  · exact fun _ _ => trivial

theorem wpE_pendingGrantByUserCode {ok : DeviceGrant → Ledger → Prop}
    {err : DeviceApprovalError → Ledger → Prop} (hfirst : l.devices.taken = none)
    (hok : ∀ l' grant, l'.request = l.request → l'.devices.decided = l.devices.decided →
      l'.devices.seen = grant :: l.devices.seen → grant.state = .pending → ok grant l')
    (herr : ∀ l' e, l'.devices.decided = l.devices.decided → err e l') :
    wpE srv.protocol (pendingGrantByUserCode enteredUserCode) l ok err := by
  unfold pendingGrantByUserCode
  rw [wpE_bind]
  refine wpE_perform.mpr ⟨trivial, fun decision _ => ?_⟩
  cases decision with
  | deny => exact wpE_throw.mpr (herr _ _ rfl)
  | allow =>
    simp only
    rw [wpE_bind, wpE_lift_run]
    have hrefused : ∀ (l' : Ledger) (e : DeviceApprovalError),
        l'.devices.decided = l.devices.decided → wpE srv.protocol (do
          Handler.perform (.record .deviceUserCodeEntry .failed)
          throw e : Handler DeviceApprovalError DeviceGrant) l' ok err := by
      intro l' e hl'
      rw [wpE_bind]
      exact wpE_perform.mpr ⟨trivial, fun _ _ => wpE_throw.mpr (herr _ _ hl')⟩
    unfold lookupPendingGrantByUserCode
    rw [wpE_bind, wpE_storeOr_total rfl]
    refine ⟨trivial, fun g found _ => ?_⟩
    rw [wpE_bind, wpE_require]
    refine ⟨?_, ?_⟩
    · rintro grant rfl
      rw [wpE_bind, wpE_now]
      intro now
      refine wpE_ite.mpr ⟨fun _ => ?_, fun _ => ?_⟩
      · rw [wpE_bind, wpE_tryStore_total rfl]
        refine ⟨hfirst, fun _ taken _ => wpE_throw.mpr (hrefused _ _ ?_)⟩
        cases taken <;> rfl
      refine wpE_ite.mpr ⟨fun _ => wpE_throw.mpr (hrefused _ _ rfl), fun hpending => ?_⟩
      refine wpE_pure.mpr ?_
      simp only
      rw [wpE_bind]
      refine wpE_perform.mpr ⟨trivial, fun _ _ => wpE_pure.mpr ?_⟩
      exact hok _ grant rfl rfl rfl (not_not.mp hpending)
    · rintro rfl
      exact hrefused _ _ rfl

theorem wpE_decideDevice {event : Event} (hseen : l.devices.seen = [grant])
    (hpending : grant.state = .pending) (hfirst : l.devices.decided = none)
    (hdecides : l.Decides state) (hstate : state ≠ .pending)
    (hevent : ∀ l : Ledger, l.MayReport event) :
    wpE srv.protocol (decideDevice grant state event) l (fun _ l' => l'.DecidedAs state)
      (fun _ l' => l'.devices.decided = none) := by
  have hread : grant ∈ l.devices.seen := hseen ▸ List.mem_cons_self
  unfold decideDevice
  rw [wpE_bind]
  refine wpE_storeOr.mpr ⟨⟨⟨grant, hread, hpending, rfl, rfl, rfl, rfl, rfl⟩, .inr ⟨rfl, hfirst, hdecides⟩⟩,
    fun g => ⟨fun swapped _ => ?_, fun _ _ => hfirst⟩⟩
  refine wpE_ite.mpr ⟨fun hswapped => wpE_emit.mpr ⟨hevent _, ?_⟩, fun hno => wpE_throw.mpr ?_⟩
  · refine ⟨{ grant with state := state }, ?_, rfl, fun r hr => ?_⟩
    · simp [Ledger.stored, DeviceLedger.swap, hswapped, hstate]
    · rw [List.mem_singleton.mp (hseen ▸ hr : r ∈ [grant])]
  · simp [Ledger.stored, DeviceLedger.swap, hno, hfirst]

/-- A decision on the grant that the user code names. -/
theorem wpE_settleDevice {q : Request} {event : DeviceGrant → Event}
    (hdecides : ∀ l : Ledger, l.request = q → l.Decides state) (hstate : state ≠ .pending)
    (hevent : ∀ grant (l : Ledger), l.MayReport (event grant)) :
    wpE srv.protocol
      (do let grant ← pendingGrantByUserCode enteredUserCode; decideDevice grant state (event grant))
      (.start q) (fun _ l => l.DecidedAs state) (fun _ l => l.devices.decided = none) := by
  rw [wpE_bind]
  refine wpE_pendingGrantByUserCode rfl (fun l' grant hq hdecided hseen hpending => ?_)
    fun _ _ hnone => hnone
  exact wpE_decideDevice hseen hpending hdecided (hdecides l' hq) hstate (hevent grant)

theorem follows_approveDevice (enteredUserCode subject : String) :
    wpE srv.protocol (approveDevice enteredUserCode subject)
      (.start (.approveDevice enteredUserCode subject))
      (fun _ l => l.DecidedAs (.approved subject)) (fun _ l => l.devices.decided = none) := by
  refine wpE_settleDevice (fun l hq => ?_) nofun fun _ _ => trivial
  unfold Ledger.Decides
  rw [hq]

theorem follows_denyDevice (enteredUserCode : String) :
    wpE srv.protocol (denyDevice enteredUserCode) (.start (.denyDevice enteredUserCode))
      (fun _ l => l.DecidedAs .denied) (fun _ l => l.devices.decided = none) := by
  refine wpE_settleDevice (fun l hq => ?_) nofun fun _ _ => trivial
  unfold Ledger.Decides
  rw [hq]

theorem wpE_answerPoll {clientId : ClientId} {bound : Bound} {deviceCode : String} {client : Client}
    {now : SystemTime} (hrequest : l.request = .deviceToken clientId bound deviceCode)
    (hready : l.Ready) (hclient : client.clientId = clientId) (hseen : grant ∈ l.devices.seen)
    (hfirst : l.devices.taken = none) (hkey : grant.deviceCode = deviceCode)
    (howner : grant.clientId = client.clientId) :
    wpE srv.protocol (srv.answerPoll client bound deviceCode grant now) l
      (fun response l' => l'.Answers response ∧
        ∃ g, l'.devices.taken = some g ∧ g.deviceCode = deviceCode) (fun _ _ => True) := by
  unfold answerPoll
  split
  · rename_i hpending
    rw [wpE_bind]
    refine wpE_storeOr.mpr ⟨⟨⟨grant, hseen, hpending, rfl, rfl, rfl, rfl, rfl⟩, .inl hpending⟩,
      fun g => ⟨?_, ?_⟩⟩
    · exact fun _ _ => wpE_throw.mpr trivial
    · exact fun _ _ => trivial
  · rw [wpE_bind, wpE_tryStore_total rfl]
    exact ⟨hfirst, fun _ _ _ => wpE_throw.mpr trivial⟩
  · rename_i subject hstate
    rw [wpE_bind, wpE_store_total rfl]
    refine ⟨hfirst, fun g taken htaken => ?_⟩
    rw [wpE_bind, wpE_require]
    refine ⟨?_, fun _ => trivial⟩
    rintro taken rfl
    have htakenKey : taken.deviceCode = deviceCode := by
      have hlookup := Except.ok.inj htaken
      simp only [MemoryInner.takeDeviceGrant] at hlookup
      split at hlookup
      · rename_i found hfound
        cases hlookup
        exact Table.key_of_lookup hfound
      · cases hlookup
    refine wpE_issue ⟨hready.entropy, hready.wire, hready.access, hready.deleted, hready.held,
      hready.successor⟩ rfl (.inl rfl) ?_ ?_ ?_ ?_ (fun l' response hissuing hanswers => ?_)
      fun _ _ _ _ _ => trivial
    · intro l' e hissuing hentropy
      have hq : l'.request = .deviceToken clientId bound deviceCode :=
        hissuing.request.trans hrequest
      unfold Ledger.Grants
      rw [hq]
      refine ⟨hclient, grant, subject, taken, ?_, hkey, howner.trans hclient, hstate, rfl, ?_,
        htakenKey, rfl, ownFamily_familyFor rfl hentropy⟩
      · rw [hissuing.devices]
        exact hseen
      · rw [hissuing.devices]
        rfl
    · intro l' hissuing
      have hq : l'.request = .deviceToken clientId bound deviceCode :=
        hissuing.request.trans hrequest
      unfold Ledger.Draws
      rw [hq]
      refine ⟨taken, ?_, htakenKey, rfl⟩
      rw [hissuing.devices]
      rfl
    · intro q hq
      cases hrequest.symm.trans hq
    · refine mint_of_chain_none rfl ?_
      change l.request.isRefresh = false
      rw [hrequest]
      rfl
    · refine ⟨hanswers, taken, ?_, htakenKey⟩
      rw [hissuing.devices]
      rfl

theorem follows_deviceToken (clientId : ClientId) (bound : Bound) (deviceCode : String) :
    wpE srv.protocol (srv.deviceToken clientId bound deviceCode)
      (.start (.deviceToken clientId bound deviceCode))
      (fun response l => l.Answers response ∧
        ∃ g, l.devices.taken = some g ∧ g.deviceCode = deviceCode) (fun _ _ => True) := by
  unfold deviceToken
  rw [wpE_bind]
  refine wpE_authenticateClient (fun cs ts client hclient hmem => ?_) fun _ _ => trivial
  refine wpE_ite.mpr ⟨fun _ => wpE_throw.mpr trivial, fun _ => ?_⟩
  rw [wpE_bind, wpE_store_total rfl]
  refine ⟨trivial, fun g found hfound => ?_⟩
  rw [wpE_bind, wpE_require]
  refine ⟨?_, fun _ => trivial⟩
  rintro grant rfl
  have hkey : grant.deviceCode = deviceCode := Table.key_of_lookup (Except.ok.inj hfound)
  refine wpE_ite.mpr ⟨fun _ => wpE_throw.mpr trivial, fun howner => ?_⟩
  rw [wpE_bind, wpE_now]
  intro now
  refine wpE_ite.mpr ⟨fun _ => ?_, fun _ => ?_⟩
  · rw [wpE_bind, wpE_tryStore_total rfl]
    exact ⟨rfl, fun _ _ _ => wpE_throw.mpr trivial⟩
  refine wpE_ite.mpr ⟨fun _ => ?_, fun _ => ?_⟩
  · rw [wpE_bind]
    refine wpE_storeOr.mpr ⟨⟨⟨grant, List.mem_cons_self, rfl, rfl, rfl, rfl, rfl, rfl⟩, .inl rfl⟩,
      fun g => ⟨?_, ?_⟩⟩
    · exact fun _ _ => wpE_throw.mpr trivial
    · exact fun _ _ => trivial
  · exact wpE_answerPoll rfl ⟨rfl, rfl, rfl, rfl, rfl, rfl⟩ hclient List.mem_cons_self rfl hkey
      (not_not.mp howner)

end Device

/-! ## Revocation -/

section Revocation
variable {clientId : ClientId} {cred : ClientCredential} {token : String}
  {hint : Option TokenTypeHint} {client : Client} {err : ErrorResponse → Ledger → Prop}
variable {ok : Bool → Ledger → Prop}

/-- A revocation that looked for a refresh token has dealt with it. -/
theorem wpE_tryRefresh (hrequest : l.request = .revoke clientId cred token hint)
    (hclient : client.clientId = clientId)
    (hok : ∀ l' found, l'.request = l.request → l'.Revoked clientId token → ok found l') :
    wpE srv.protocol (srv.tryRefresh client token) l ok err := by
  unfold tryRefresh
  rw [wpE_bind, wpE_store_total rfl]
  refine ⟨trivial, fun g found hfound => ?_⟩
  cases found with
  | none => exact wpE_pure.mpr (hok _ _ rfl (.inl List.mem_cons_self))
  | some record =>
    have hkey : record.refreshToken = token := Table.key_of_lookup (Except.ok.inj hfound)
    refine wpE_ite.mpr ⟨fun hforeign => wpE_pure.mpr (hok _ _ rfl ?_), fun _ => ?_⟩
    · exact .inr (.inl ⟨record, List.mem_cons_self, hkey, .inl fun h => hforeign (h.trans hclient.symm)⟩)
    rw [wpE_bind]
    refine wpE_revocationWindow fun t window hwindow => ?_
    -- Whatever became of the cascade, the record is taken and the revocation reported.
    have hrest : ∀ (l' : Ledger) (failed : Bool), l'.request = l.request →
        l'.Revoked clientId token → wpE srv.protocol (do
          let _ ← store (.takeRefreshToken token)
          emit (.tokenRevoked client.clientId .refreshToken failed)
          pure true) l' ok err := by
      intro l' failed hq hrevoked
      rw [wpE_bind, wpE_store_total rfl]
      refine ⟨?_, fun g taken _ => ?_⟩
      · simp only [Ledger.MayStore, Ledger.TakesRefresh, hq, hrequest]
      rw [wpE_bind, wpE_emit]
      exact ⟨trivial, wpE_pure.mpr (hok _ _ hq hrevoked)⟩
    rw [wpE_bind, wpE_tryStore]
    refine ⟨⟨⟨record, .inl List.mem_cons_self, rfl, fun q hq => ?_, fun q hq => ?_⟩, hwindow⟩,
      fun g => ?_⟩
    · cases hrequest.symm.trans hq
    · cases hrequest.symm.trans hq
    cases hrevoke : (StorageOp.exec g (.revokeTokenFamily record.familyId window)).1 with
    | ok n =>
      refine hrest _ _ rfl (.inr (.inl ⟨record, List.mem_cons_self, hkey, .inr (.inl ?_)⟩))
      exact List.mem_cons_self
    | error e =>
      refine hrest _ _ rfl (.inr (.inl ⟨record, List.mem_cons_self, hkey, .inr (.inr ?_)⟩))
      exact isEmpty_of_revokeTokenFamily_error hrevoke

/-- Looking for an access token leaves the chain alone. -/
theorem wpE_tryAccess (hok : ∀ l' found, l'.request = l.request → l'.chain = l.chain →
      (∀ t ∈ l.issue.found, t ∈ l'.issue.found) →
      (found = true → ∃ t ∈ l'.issue.found, t.accessToken = token) → ok found l') :
    wpE srv.protocol (tryAccess client token) l ok err := by
  unfold tryAccess
  rw [wpE_bind, wpE_store_total rfl]
  refine ⟨trivial, fun g found hfound => ?_⟩
  cases found with
  | none => exact wpE_pure.mpr (hok _ _ rfl rfl (fun _ h => h) nofun)
  | some t =>
    have hkey : t.accessToken = token := Table.key_of_lookup (Except.ok.inj hfound)
    refine wpE_ite.mpr ⟨fun _ => wpE_pure.mpr (hok _ _ rfl rfl ?_ nofun), fun _ => ?_⟩
    · exact fun _ h => List.mem_cons_of_mem _ h
    rw [wpE_bind, wpE_store_total rfl]
    refine ⟨trivial, fun g _ _ => ?_⟩
    rw [wpE_bind, wpE_emit]
    refine ⟨trivial, wpE_pure.mpr (hok _ _ rfl rfl ?_ ?_)⟩
    · exact fun _ h => List.mem_cons_of_mem _ h
    · exact fun _ => ⟨t, List.mem_cons_self, hkey⟩

theorem follows_revokeWithCredential (clientId : ClientId) (cred : ClientCredential)
    (token : String) (hint : Option TokenTypeHint) :
    wpE srv.protocol (srv.revokeWithCredential clientId cred token hint)
      (.start (.revoke clientId cred token hint)) (fun _ l => l.Revoked clientId token)
      (fun _ _ => True) := by
  unfold revokeWithCredential
  rw [wpE_bind]
  refine wpE_authenticateClient (fun cs ts client hclient hmem => ?_) fun _ _ => trivial
  split <;> unfold orElse <;> rw [wpE_bind]
  · refine wpE_tryAccess fun l' found hq hchain _ hfound => ?_
    refine wpE_ite.mpr ⟨fun h => wpE_pure.mpr (.inr (.inr (hfound h))), fun _ => ?_⟩
    rw [wpE_bind]
    exact wpE_tryRefresh hq hclient fun l'' _ _ hrevoked => wpE_pure.mpr hrevoked
  · refine wpE_tryRefresh rfl hclient fun l' found _ hrevoked => ?_
    refine wpE_ite.mpr ⟨fun _ => wpE_pure.mpr hrevoked, fun _ => ?_⟩
    rw [wpE_bind]
    refine wpE_tryAccess fun l'' _ _ hchain hmono _ => wpE_pure.mpr ?_
    unfold Ledger.Revoked
    rw [hchain]
    exact hrevoked.imp_right (Or.imp_right fun ⟨t, ht, hkey⟩ => ⟨t, hmono t ht, hkey⟩)

end Revocation

/-! ## The discipline -/

/-- The reply of a handler. -/
theorem wp_reply
    (hh : wpE srv.protocol h l (fun a l' => l'.request = l.request → l'.Accepts srv (reply (.ok a)))
      (fun e l' => l'.request = l.request → l'.Accepts srv (reply (.error e)))) :
    wp srv.protocol (reply <$> h.run) l fun a l' => l'.Accepts srv a := by
  refine wp_bind.mpr (wp_mono (fun r l' hr => ?_) (wp_request hh))
  obtain ⟨hr, hq⟩ := hr
  cases r with
  | ok a => exact hr hq
  | error e => exact hr hq

/-- A reply that promises nothing. -/
theorem wp_reply_true (hq : l.request.promises = false)
    (hh : wpE srv.protocol h l (fun _ _ => True) (fun _ _ => True)) :
    wp srv.protocol (reply <$> h.run) l fun a l' => l'.Accepts srv a := by
  refine wp_reply (wpE_mono (fun a l' _ hl' => ?_) (fun e l' _ hl' => ?_) hh) <;>
  · rw [← hl'] at hq
    exact Ledger.accepts_of_promises hq

/-- A reply that promises what its handler establishes. -/
theorem wp_reply_of {P : α → Ledger → Prop} {N : ε → Ledger → Prop} (hh : wpE srv.protocol h l P N)
    (hok : ∀ a (l' : Ledger), P a l' →
      Ledger.Accepts srv { l' with request := l.request } (reply (.ok a)))
    (herr : ∀ e (l' : Ledger), N e l' →
      Ledger.Accepts srv { l' with request := l.request } (reply (.error e))) :
    wp srv.protocol (reply <$> h.run) l fun a l' => l'.Accepts srv a := by
  refine wp_reply (wpE_mono (fun a l' hP hq => ?_) (fun e l' hN hq => ?_) hh)
  · have := hok a l' hP
    rwa [← hq] at this
  · have := herr e l' hN
    rwa [← hq] at this

theorem handle_follows (q : Request) :
    wp srv.protocol (srv.handle q) (.start q) fun a l => l.Accepts srv a := by
  cases q with
  | registerClient client =>
    exact wp_reply_true rfl (follows_registerClient client)
  | deleteRegistration clientId token =>
    exact wp_reply_true rfl (follows_deleteRegistration clientId token)
  | issueAuthorizationCode approval authentication =>
    exact wp_reply_true rfl (follows_issueAuthorizationCode approval authentication)
  | authorizationCodeToken p =>
    refine wp_reply (wpE_mono (fun _ _ h _ => h) (fun _ _ h _ => h)
      (wpE_withResources (fun _ hpermits => follows_authorizationCodeToken p hpermits) ?_))
    exact fun _ _ => ⟨nofun, .of_none rfl rfl, .inl rfl, fun _ h => nomatch h⟩
  | clientCredentialsToken clientId bound scope resource details =>
    exact wp_reply_true rfl (wpE_withResources (fun _ _ =>
      follows_clientCredentialsToken clientId bound scope resource _ details) fun _ _ => trivial)
  | deviceAuthorization clientId cred scope =>
    exact wp_reply_true rfl (follows_deviceAuthorization clientId cred scope)
  | approveDevice userCode subject =>
    exact wp_reply_of (follows_approveDevice userCode subject) (fun _ _ h => h) fun _ _ h => h
  | denyDevice userCode =>
    exact wp_reply_of (follows_denyDevice userCode) (fun _ _ h => h) fun _ _ h => h
  | deviceToken clientId bound deviceCode =>
    exact wp_reply_of (follows_deviceToken clientId bound deviceCode) (fun _ _ h => h) fun _ _ _ => trivial
  | refreshToken p =>
    refine wp_reply (wpE_mono (fun _ _ h _ => h) (fun _ _ h _ => h)
      (wpE_withResources (fun _ hpermits => follows_refreshToken p hpermits) fun e he => ?_))
    refine ⟨?_, ?_⟩
    · rintro - rfl
      cases he
    · rintro rfl
      cases he
  | tokenExchange request =>
    exact wp_reply_true rfl (follows_exchangeToken request)
  | revoke clientId cred token hint =>
    exact wp_reply_of (follows_revokeWithCredential clientId cred token hint) (fun _ _ h => h)
      fun _ _ _ => trivial
  | recordConsent clientId subject scope resource authentication =>
    exact wp_reply_true rfl (follows_recordConsent clientId subject scope resource authentication)
  | withdrawConsent consentId =>
    exact wp_reply_true rfl (follows_withdrawConsent consentId)

def discipline (srv : Server) : Discipline srv.semantics Ledger where
  protocol := srv.protocol
  start := Ledger.start
  accept := fun a l => l.Accepts srv a
  handler_follows := handle_follows
  perform_possible := perform_possible

/-- A ledger is about the request of its thread. -/
theorem ledger_request (srv : Server) (t : Call) :
    (srv.discipline.ledger t).request = t.request :=
  Discipline.ledger_eq_start Ledger.request (fun l e r => l.next_request e r) t

end Server

end OauthAs
