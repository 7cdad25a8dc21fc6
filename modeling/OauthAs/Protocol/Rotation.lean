-- SUMMARY: The refresh endpoint keeps to the protocol under every rotation policy.
import OauthAs.Protocol.Rules

namespace OauthAs

open Prog Handler

namespace Ledger

/-- What answering from a cached response leaves alone: it reads records and the clock. -/
structure Consulting (l l' : Ledger) : Prop where
  request : l'.request = l.request
  entropy : l'.issue.entropy = l.issue.entropy
  wire : l'.issue.wire = l.issue.wire
  access : l'.issue.access = l.issue.access
  deleted : l'.issue.deleted = l.issue.deleted
  held : l'.chain.held = l.chain.held
  rotated : l'.chain.rotated = l.chain.rotated
  mint : l'.chain.mint = l.chain.mint
  successor : l'.chain.successor = l.chain.successor
  reads : ∀ r ∈ l.chain.reads, r ∈ l'.chain.reads
  found : ∀ t ∈ l.issue.found, t ∈ l'.issue.found
  clocks : ∀ t ∈ l.clocks, t ∈ l'.clocks
  clients : l'.clients = l.clients

namespace Consulting

variable {l l₁ l₂ : Ledger}

theorem refl (l : Ledger) : l.Consulting l :=
  ⟨rfl, rfl, rfl, rfl, rfl, rfl, rfl, rfl, rfl, fun _ h => h, fun _ h => h, fun _ h => h, rfl⟩

theorem trans (h : l.Consulting l₁) (h' : l₁.Consulting l₂) : l.Consulting l₂ where
  request := h'.request.trans h.request
  entropy := h'.entropy.trans h.entropy
  wire := h'.wire.trans h.wire
  access := h'.access.trans h.access
  deleted := h'.deleted.trans h.deleted
  held := h'.held.trans h.held
  rotated := h'.rotated.trans h.rotated
  mint := h'.mint.trans h.mint
  successor := h'.successor.trans h.successor
  reads := fun r hr => h'.reads r (h.reads r hr)
  found := fun t ht => h'.found t (h.found t ht)
  clocks := fun t ht => h'.clocks t (h.clocks t ht)
  clients := h'.clients.trans h.clients

theorem tick (l : Ledger) (ts : List SystemTime) : l.Consulting (l.tick ts) :=
  { refl l with clocks := fun _ h => List.mem_append_right _ h }

theorem getToken (l : Ledger) (a : String) (t : Option IssuedToken) :
    l.Consulting (l.stored (.getToken a) t) := by
  cases t with
  | none => exact refl l
  | some t => exact { refl l with found := fun _ h => List.mem_cons_of_mem _ h }

theorem getRefreshToken (l : Ledger) (s : String) (r : Option RefreshTokenRecord) :
    l.Consulting (l.stored (.getRefreshToken s) r) := by
  cases r with
  | none => exact { refl l with }
  | some r => exact { refl l with reads := fun _ h => List.mem_cons_of_mem _ h }

end Consulting

end Ledger

namespace Server

variable {srv : Server} {l : Ledger} {p : RefreshPresentation} {err : ErrorResponse → Ledger → Prop}
variable {e : ErrorResponse} {granted : ScopeSet × List String × AuthorizationDetails}

/-! ## Refusals -/

theorem narrowAndPermit_error {granted requested : List String}
    (h : srv.narrowAndPermit granted requested = .error e) : e.error = .invalidTarget := by
  rcases except_bind_error h with h | ⟨issued, -, h⟩
  · unfold narrowResources at h
    repeat' split at h
    all_goals cases h
    rfl
  · split at h
    · cases h
    · dsimp only at h
      split at h <;> cases h
      rfl

theorem narrow_error {granted requested : AuthorizationDetails}
    (h : granted.narrow requested = .error e) : e.error = .invalidAuthorizationDetails := by
  unfold AuthorizationDetails.narrow at h
  repeat' split at h
  all_goals cases h
  rfl

/-! ## Answering from the cache -/

theorem wpE_introspect {a : String} {ok : Option IssuedToken → Ledger → Prop}
    (hok : ∀ l' found, l.Consulting l' →
      (∀ t, found = some t → t ∈ l'.issue.found ∧ t.accessToken = a) → ok found l') :
    wpE srv.protocol (introspect a) l ok err := by
  unfold introspect
  rw [wpE_bind, wpE_store_total rfl]
  refine ⟨trivial, fun g found hfound => ?_⟩
  have hread := Ledger.Consulting.getToken l a found
  cases found with
  | none => exact wpE_pure.mpr (hok _ _ hread fun _ h => nomatch h)
  | some t =>
    have hkey : t.accessToken = a := Table.key_of_lookup (Except.ok.inj hfound)
    simp only
    rw [wpE_bind, wpE_now]
    intro now
    refine wpE_pure.mpr (hok _ _ (hread.trans (.tick _ _)) fun t' ht' => ?_)
    obtain ⟨-, ⟨⟩⟩ := Option.ite_none_right_eq_some.mp ht'
    exact ⟨List.mem_cons_self, hkey⟩

theorem wpE_retrySuccessor {record : RefreshTokenRecord} {next : Option String}
    {ok : Unit → Ledger → Prop} (hok : ∀ l', l.Consulting l' → ok () l')
    (herr : ∀ l' e, l.Consulting l' → e ≠ ceilingRefusal → err e l') :
    wpE srv.protocol (retrySuccessor record next) l ok err := by
  unfold retrySuccessor
  split
  · exact wpE_pure.mpr (hok l (.refl l))
  · rename_i s
    rw [wpE_bind, wpE_store_total rfl]
    refine ⟨trivial, fun g found _ => ?_⟩
    have hread := Ledger.Consulting.getRefreshToken l s found
    rw [wpE_bind, wpE_require]
    refine ⟨fun r _ => ?_, fun _ => herr _ _ hread (by decide)⟩
    refine wpE_ite.mpr ⟨fun _ => wpE_throw.mpr (herr _ _ hread (by decide)), fun _ => ?_⟩
    exact wpE_pure.mpr (hok _ hread)

/-- Either the deadline of the cached response has come, or it is answered, or there is an
error. -/
theorem wpE_refreshRetryResponse {record : RefreshTokenRecord} {client : Client} {bound : Bound}
    {requestedScope : Option ScopeSet} {requestedResources : List String}
    {requestedDetails : AuthorizationDetails} {ok : Option TokenResponse → Ledger → Prop}
    (hnone : ∀ l', l.Consulting l' →
      (∀ d, record.retry = some d → ∃ t ∈ l'.clocks, d.until_ ≤ t) → ok none l')
    (hsome : ∀ l' d response, l.Consulting l' → record.retry = some d →
      response.accessToken = d.response.accessToken →
      response.refreshToken = d.response.refreshToken → (∃ t ∈ l'.clocks, t < d.until_) →
      ok (some response) l')
    (herr : ∀ l' e, l.Consulting l' → e ≠ ceilingRefusal → err e l') :
    wpE srv.protocol (srv.refreshRetryResponse record client bound requestedScope
      requestedResources requestedDetails) l ok err := by
  unfold refreshRetryResponse
  split
  · rename_i hretry
    refine wpE_pure.mpr (hnone l (.refl l) fun d hd => ?_)
    cases hretry.symm.trans hd
  · rename_i d hretry
    rw [wpE_bind, wpE_now]
    intro now
    have hnow : now ∈ (l.tick [now]).clocks := List.mem_cons_self
    have hl := Ledger.Consulting.tick l [now]
    refine wpE_ite.mpr ⟨fun hpast => wpE_pure.mpr (hnone _ hl ?_), fun hahead => ?_⟩
    · intro d' hd'
      cases hretry.symm.trans hd'
      exact ⟨now, hnow, hpast⟩
    refine wpE_guard (fun _ => herr _ _ hl (by decide)) fun _ => ?_
    refine wpE_guard (fun _ => herr _ _ hl (by decide)) fun _ => ?_
    refine wpE_guard (fun _ => herr _ _ hl (by decide)) fun _ => ?_
    rw [wpE_bind]
    refine wpE_introspect fun l₁ found h₁ _ => ?_
    have hl₁ := hl.trans h₁
    rw [wpE_bind, wpE_require]
    refine ⟨fun token _ => ?_, fun _ => herr _ _ hl₁ (by decide)⟩
    refine wpE_guard (fun _ => herr _ _ hl₁ (by decide)) fun _ => ?_
    refine wpE_guard (fun _ => herr _ _ hl₁ (by decide)) fun _ => ?_
    rw [wpE_bind, wpE_judge]
    refine ⟨fun resource _ => ?_, fun e he => herr _ _ hl₁ ?_⟩
    swap
    · rintro rfl
      cases narrowAndPermit_error he
    refine wpE_guard (fun _ => herr _ _ hl₁ (by decide)) fun _ => ?_
    rw [wpE_bind, wpE_judge]
    refine ⟨fun details _ => ?_, fun e he => herr _ _ hl₁ ?_⟩
    swap
    · rintro rfl
      cases narrow_error he
    refine wpE_guard (fun _ => herr _ _ hl₁ (by decide)) fun _ => ?_
    rw [wpE_bind]
    refine wpE_retrySuccessor (fun l₂ h₂ => ?_) fun l₂ e h₂ => herr _ _ (hl₁.trans h₂)
    rw [wpE_bind, wpE_now]
    intro later
    have h₃ := Ledger.Consulting.tick l₂ [later]
    refine wpE_pure.mpr (hsome _ d _ ((hl₁.trans h₂).trans h₃) hretry rfl rfl ?_)
    exact ⟨now, h₃.clocks _ (h₂.clocks _ (h₁.clocks _ hnow)), not_le.mp hahead⟩

/-! ## Retryable rotation -/

/-- What a rotation caches with both records it writes. -/
def cachedRetry (srv : Server) (expected : RefreshTokenRecord) (access : IssuedToken)
    (response : TokenResponse) (bound : Bound) : RefreshTokenRetry :=
  ⟨response, srv.retryDeadline expected access, bound.jkt⟩

/-- The loser of a rotation answers with what the winner cached. -/
theorem wpE_commitRefreshRetry {expected : RefreshTokenRecord} {access : IssuedToken}
    {next : Option RefreshTokenRecord} {response : TokenResponse} {client : Client} {bound : Bound}
    {ok : Option TokenResponse → Ledger → Prop} {next' : Option RefreshTokenRecord}
    (hnext : next' = next.map fun n =>
      { n with retry := some (srv.cachedRetry expected access response bound) })
    (hrotates : l.Rotates srv p expected
      (srv.retrySpent expected access (srv.cachedRetry expected access response bound)) access next')
    (hwon : ok none { l with
      chain := l.chain.rotate expected next'
      issue.access := some access })
    (hlost : ∀ l' response, l'.request = l.request → l'.Recovered p response →
      ok (some response) l')
    (herr : ∀ l' e, l'.request = l.request → e ≠ ceilingRefusal → err e l') :
    wpE srv.protocol (srv.commitRefreshRetry expected access next response client bound) l ok
      err := by
  subst hnext
  unfold commitRefreshRetry
  rw [wpE_bind, wpE_store_total rfl]
  refine ⟨⟨p, hrotates⟩, fun g rotated _ => ?_⟩
  refine wpE_ite.mpr ⟨fun hrotated => ?_, fun hlose => ?_⟩
  · subst hrotated
    exact wpE_pure.mpr hwon
  · have hfalse : rotated = false := by simpa using hlose
    subst hfalse
    rw [wpE_bind, wpE_store_total rfl]
    refine ⟨trivial, fun g found hfound => ?_⟩
    have hread := Ledger.Consulting.getRefreshToken l expected.refreshToken found
    rw [wpE_bind, wpE_require]
    refine ⟨?_, fun _ => herr _ _ hread.request (by decide)⟩
    rintro current rfl
    have hkey : current.refreshToken = expected.refreshToken :=
      Table.key_of_lookup (Except.ok.inj hfound)
    rw [wpE_bind]
    refine wpE_refreshRetryResponse (fun l' hl' _ => ?_) (fun l' d r hl' hd ha hr ht => ?_)
      fun l' e hl' => herr _ _ (hl'.request.trans hread.request)
    · rw [wpE_map, wpE_require]
      exact ⟨(fun _ h => nomatch h), fun _ =>
        herr _ _ (hl'.request.trans hread.request) (by decide)⟩
    · rw [wpE_map, wpE_require]
      refine ⟨?_, nofun⟩
      rintro _ ⟨⟩
      refine hlost _ _ (hl'.request.trans hread.request) ⟨current, d, ?_, ?_, hd, ha, hr, ht⟩
      · exact hl'.reads _ List.mem_cons_self
      · rw [hkey, hrotates.presented]

/-- An issuance that commits a retryable rotation. -/
theorem wpE_issue_retry {expected : RefreshTokenRecord} {client : Client}
    {ok : TokenResponse → Ledger → Prop} (hready : l.Ready) (hrequest : l.request = .refreshToken p)
    (hretryable : srv.config.isRetryable = true) (hread : expected ∈ l.chain.reads)
    (hkey : expected.refreshToken = p.refreshToken) (hactive : expected.state = .active)
    (howner : client.clientId = expected.clientId) (hpresenter : expected.clientId = p.clientId)
    (hstale : ∀ d, expected.retry = some d → ∃ t ∈ l.clocks, d.until_ ≤ t)
    (hrotated : l.chain.rotated = none)
    (hoffers : srv.Offers ⟨granted.1, granted.2.1, granted.2.2, expected.authentication⟩
      expected.terms)
    (hok : ∀ l' response, l'.request = l.request → l'.Recovered p response ∨
      (l'.Answers response ∧ l'.chain.rotated = some expected) → ok response l')
    (herr : ∀ l' e, l'.request = l.request → e ≠ ceilingRefusal → err e l') :
    wpE srv.protocol (srv.issue (refreshIssueArgs client p expected granted (some expected) true)) l
      ok err := by
  unfold issue
  rw [wpE_bind, wpE_now]
  intro now
  rw [wpE_bind]
  refine wpE_perform.mpr ⟨hready.entropy, fun entropy _ => ?_⟩
  rw [wpE_bind, wpE_require]
  refine ⟨?_, ?_⟩
  swap
  · rintro rfl
    exact herr _ _ rfl (by decide)
  rintro e rfl
  rw [wpE_bind]
  refine wpE_wireAccessToken rfl hready.wire (fun d w accessToken hwire => ?_)
    (fun _ _ _ => herr _ _ rfl (by decide)) (herr _ _ rfl (by decide))
  simp only [refreshIssueArgs, Option.bind_some]
  rw [wpE_bind]
  refine wpE_commitRefreshRetry (p := p) rfl ?_ ?_ ?_ ?_
  · constructor
    case request => exact hrequest
    case retryable => exact hretryable
    case presented => exact hkey
    case owner => exact hpresenter
    case read => exact hread
    case active => exact hactive
    case stale =>
      intro d hd
      obtain ⟨t, ht, hle⟩ := hstale d hd
      exact ⟨t, List.mem_cons_of_mem _ ht, hle⟩
    case unrotated => exact hrotated
    case first => exact hready.successor
    case writes =>
      refine ⟨hwire, hready.access, ?_⟩
      simp [Ledger.next, Ledger.tick, hready.deleted]
    case grant => exact ⟨howner, rfl, rfl, rfl⟩
    case offers => exact hoffers
    case clock => exact List.mem_cons_self
    case cached =>
      refine ⟨_, rfl, rfl, ?_, rfl, ?_⟩
      · simp only [cachedRetry, tokenResponse, Option.map_map]
        rfl
      · intro n hn
        obtain ⟨m, -, rfl⟩ := Option.map_eq_some_iff.mp hn
        rfl
    case successor =>
      intro n hn
      obtain ⟨m, hm, rfl⟩ := Option.map_eq_some_iff.mp hn
      obtain ⟨-, ⟨⟩⟩ := Option.ite_none_right_eq_some.mp hm
      exact ⟨rfl, ⟨howner, rfl, rfl, rfl⟩, rfl, rfl, e, rfl, rfl⟩
  · rw [wpE_bind, wpE_emit]
    refine ⟨trivial, wpE_pure.mpr (hok _ _ rfl (.inr ⟨⟨⟨_, rfl, rfl⟩, ?_⟩, rfl⟩))⟩
    simp only [Ledger.successorKey, ChainLedger.rotate, tokenResponse, Option.map_map]
    rfl
  · intro l' response hq hrecovered
    exact wpE_pure.mpr (hok _ _ hq (.inl hrecovered))
  · exact fun l' e' hq => herr _ _ hq

/-! ## The presented record -/

/-- The request has the presented record: in its hand under strict rotation, read otherwise.
Nothing was done with it yet. -/
structure Presented (srv : Server) (p : RefreshPresentation) (record : RefreshTokenRecord)
    (l : Ledger) : Prop where
  request : l.request = .refreshToken p
  key : record.refreshToken = p.refreshToken
  entropy : l.issue.entropy = none
  wire : l.issue.wire = none
  access : l.issue.access = none
  deleted : l.issue.deleted = []
  custody : (srv.config.isStrict = true ∧ l.chain.held = some record) ∨
    (srv.config.isStrict = false ∧ l.chain.held = none ∧ record ∈ l.chain.reads)
  rotated : l.chain.rotated = none
  mint : l.chain.mint = none
  successor : l.chain.successor = none

/-- With a retry window, the deadline of the record's cached response has come. -/
def Stale (srv : Server) (record : RefreshTokenRecord) (l : Ledger) : Prop :=
  srv.config.isRetryable = true → ∀ d, record.retry = some d → ∃ t ∈ l.clocks, d.until_ ≤ t

theorem Stale.consulting {record : RefreshTokenRecord} {l' : Ledger} (h : Stale srv record l)
    (hl : l.Consulting l') : Stale srv record l' := by
  intro hr d hd
  obtain ⟨t, ht, hle⟩ := h hr d hd
  exact ⟨t, hl.clocks _ ht, hle⟩

namespace Presented

variable {record : RefreshTokenRecord}

theorem consulting {l' : Ledger} (h : Presented srv p record l) (hl : l.Consulting l') :
    Presented srv p record l' where
  request := hl.request.trans h.request
  key := h.key
  entropy := hl.entropy.trans h.entropy
  wire := hl.wire.trans h.wire
  access := hl.access.trans h.access
  deleted := hl.deleted.trans h.deleted
  custody := by
    rw [hl.held]
    refine h.custody.imp_right fun ⟨hs, hheld, hread⟩ => ⟨hs, hheld, hl.reads _ hread⟩
  rotated := hl.rotated.trans h.rotated
  mint := hl.mint.trans h.mint
  successor := hl.successor.trans h.successor

theorem held (h : Presented srv p record l) (hstrict : srv.config.isStrict = true) :
    l.chain.held = some record := by
  simpa [hstrict] using h.custody

theorem lax (h : Presented srv p record l) (hlax : srv.config.isStrict = false) :
    l.chain.held = none ∧ record ∈ l.chain.reads := by
  simpa [hlax] using h.custody

theorem found (h : Presented srv p record l) :
    record ∈ l.chain.reads ∨ l.chain.held = some record :=
  h.custody.elim (fun hs => .inr hs.2) fun hr => .inl hr.2.2

/-- The record may be written back where the source does so. -/
theorem writesRefresh (h : Presented srv p record l)
    (hodd : srv.config.isStrict = false →
      srv.config.reuses = true ∨ record.familyId.isEmpty = true) :
    l.WritesRefresh srv record := by
  rcases h.custody with ⟨-, hheld⟩ | ⟨hlax, hfree, hread⟩
  · exact .putBack h.request h.key hheld
  · exact .putUnheld h.request h.key hfree h.mint hread (hodd hlax)

end Presented

section Presented
variable {record : RefreshTokenRecord} {client : Client}
variable {ok : TokenResponse → Ledger → Prop} {resources : List String}

theorem reuses_of_not_strict (hstrict : srv.config.isStrict = false)
    (hwindow : srv.config.refreshRetryWindow = 0) : srv.config.reuses = true := by
  simpa [ServerConfig.isStrict, hwindow] using hstrict

theorem not_strict_of_retryable (h : srv.config.isRetryable = true) :
    srv.config.isStrict = false := by
  have hwindow := (Bool.and_eq_true_iff.mp h).2
  simp only [bne_iff_ne, ne_eq] at hwindow
  simp [ServerConfig.isStrict, hwindow]

theorem wpE_restoreAndRefuse {α : Type} {error : ErrorResponse} {ok : α → Ledger → Prop}
    (h : Presented srv p record l) (herr : ∀ l', l'.request = l.request → err error l') :
    wpE srv.protocol (srv.restoreAndRefuse record error) l ok err := by
  unfold restoreAndRefuse restoreRefreshToken
  rw [wpE_bind]
  refine wpE_ite.mpr ⟨fun _ => wpE_pure.mpr (wpE_throw.mpr (herr l rfl)), fun hwindow => ?_⟩
  rw [wpE_bind, wpE_store_total rfl]
  refine ⟨h.writesRefresh fun hs => .inl (reuses_of_not_strict hs (not_not.mp hwindow)), ?_⟩
  intro g outcome _
  refine wpE_pure.mpr (wpE_throw.mpr (herr _ ?_))
  cases outcome <;> rfl

theorem isEmpty_of_revokeTokenFamily_error {g : MemoryInner} {f : String} {w : RevocationWindow}
    {e : StorageError} (h : (StorageOp.exec g (.revokeTokenFamily f w)).1 = .error e) :
    f.isEmpty = true := by
  cases hf : f.isEmpty with
  | true => rfl
  | false => simp [StorageOp.exec, MemoryInner.revokeTokenFamily, MemoryInner.rejectEmptyScope, hf] at h

theorem wpE_reuseDetected (h : Presented srv p record l) (hstale : Stale srv record l)
    (hspent : record.state = .spent)
    (herr : ∀ l' e, l'.request = l.request → e ≠ ceilingRefusal → err e l') :
    wpE srv.protocol (srv.reuseDetected client record) l ok err := by
  unfold reuseDetected
  rw [wpE_bind]
  refine wpE_revocationWindow fun t window hwindow => ?_
  have h' := h.consulting (.tick l [t])
  rw [wpE_bind, wpE_tryStore]
  refine ⟨⟨⟨record, ?_, rfl, fun q hq => (nomatch h'.request.symm.trans hq), ?_⟩, hwindow⟩,
    fun g => ?_⟩
  · exact h'.found
  · intro q hq
    cases h'.request.symm.trans hq
    exact ⟨h.key, hspent, fun d hr hd => hstale.consulting (.tick l [t]) hr d hd⟩
  · split
    · rename_i n hn
      rw [hn, wpE_bind, wpE_emit]
      exact ⟨List.mem_cons_self, wpE_throw.mpr (herr _ _ rfl (by decide))⟩
    · rename_i e he
      rw [he, wpE_bind, wpE_tryStore_total rfl]
      refine ⟨h'.writesRefresh fun _ => .inr (isEmpty_of_revokeTokenFamily_error he), ?_⟩
      intro g outcome _
      rw [wpE_bind, wpE_emit]
      refine ⟨trivial, wpE_throw.mpr (herr _ _ ?_ (by decide))⟩
      cases outcome <;> rfl

/-- Spending the record turns the hand into the right to mint a successor. -/
theorem wpE_spendRecord {ok : Unit → Ledger → Prop} (h : Presented srv p record l)
    (hstrict : srv.config.isStrict = true) (hactive : record.state = .active)
    (hok : ∀ ts, ok () { l.tick ts with
      chain := { l.chain with
        held := none, rotated := some record, mint := some record.familyId } })
    (herr : ∀ l' e, l'.request = l.request → e ≠ ceilingRefusal → err e l') :
    wpE srv.protocol (srv.spendRecord record) l ok err := by
  have hheld := h.held hstrict
  -- Both spent forms are the record itself but for its state and deadline.
  have hput : ∀ ts (spent : RefreshTokenRecord), spent.refreshToken = record.refreshToken →
      spent.SameGrant record → spent.terms = record.terms → spent.state = .spent →
      ∀ k : WriteOutcome → Handler ErrorResponse Unit,
      k .refusedRevoked = throw revokedWhileRefreshing → k .applied = pure () →
      wpE srv.protocol (store (.putRefreshToken spent) >>= k) (l.tick ts) ok err := by
    intro ts spent hkey hgrant hterms hspent k hrefused happlied
    rw [wpE_bind, wpE_store_total rfl]
    refine ⟨.spend h.request hstrict hheld hactive h.key h.rotated hkey hgrant hterms hspent, ?_⟩
    intro g outcome _
    cases outcome with
    | refusedRevoked =>
      rw [hrefused]
      exact wpE_throw.mpr (herr _ _ rfl (by decide))
    | applied =>
      rw [happlied, wpE_pure]
      simpa [Ledger.stored, Ledger.tick, ChainLedger.put, hheld, hspent, hactive] using hok ts
  unfold spendRecord
  split
  · rw [wpE_bind, wpE_pure]
    refine hput [] _ ?_ (by exact ⟨rfl, rfl, rfl, rfl⟩) ?_ ?_ _ ?_ ?_ <;> rfl
  · rw [wpE_bind, wpE_now]
    intro now
    rw [wpE_bind, wpE_pure]
    refine hput [now] _ ?_ (by exact ⟨rfl, rfl, rfl, rfl⟩) ?_ ?_ _ ?_ ?_ <;> rfl

theorem Presented.ready (h : Presented srv p record l) (hstrict : srv.config.isStrict = false) :
    l.Ready :=
  ⟨h.entropy, h.wire, h.access, h.deleted, (h.lax hstrict).1, h.successor⟩

theorem wpE_expired {ok : Bool → Ledger → Prop} (hok : ∀ ts b, ok b (l.tick ts)) :
    wpE srv.protocol (refreshRecordOf.expired record) l ok err := by
  unfold refreshRecordOf.expired
  split
  · exact wpE_pure.mpr (hok [] false)
  · rw [wpE_bind, wpE_now]
    intro now
    exact wpE_pure.mpr (hok [now] _)

/-- Only the registration's ceiling is reported as such. -/
theorem judgeRefresh_error (h : srv.judgeRefresh record p resources = .error e) :
    e ≠ ceilingRefusal := by
  rintro rfl
  have hgranted : ∀ scope : ScopeSet, (srv.narrowGrant record.resource record.authorizationDetails
      resources p.requestedDetails >>= fun granted => .ok (scope, granted)) ≠
        .error ceilingRefusal := by
    intro scope h
    rcases except_bind_error h with h | ⟨granted, -, h⟩
    · rcases except_bind_error h with h | ⟨r, -, h⟩
      · cases narrowAndPermit_error h
      · rcases except_bind_error h with h | ⟨d, -, h⟩
        · cases narrow_error h
        · cases h
    · cases h
  unfold judgeRefresh at h
  split at h
  · exact hgranted _ h
  · split at h
    · exact hgranted _ h
    · rcases except_bind_error h with h | ⟨scope, -, h⟩
      · revert h
        decide
      · exact hgranted _ h

/-- A refresh that may go ahead is offered terms within the record's. -/
theorem offers_of_judgeRefresh (hpermits : srv.Permits resources)
    (h : srv.judgeRefresh record p resources = .ok granted) :
    srv.Offers ⟨granted.1, granted.2.1, granted.2.2, record.authentication⟩ record.terms := by
  have hgranted : ∀ scope : ScopeSet, scope.tokens ⊆ record.scope.tokens →
      (srv.narrowGrant record.resource record.authorizationDetails resources p.requestedDetails >>=
        fun granted => .ok (scope, granted)) = .ok granted →
      srv.Offers ⟨granted.1, granted.2.1, granted.2.2, record.authentication⟩ record.terms := by
    intro scope hscope h
    obtain ⟨issued, hnarrow, h⟩ := except_bind_ok h
    cases h
    exact offers_of_narrowGrant hscope hpermits hnarrow
  unfold judgeRefresh at h
  split at h
  · exact hgranted _ (List.Subset.refl _) h
  · split at h
    · rename_i hsubset
      exact hgranted _ (ScopeSet.isSubset_iff.mp hsubset) h
    · cases h

section Rotating
variable (h : Presented srv p record l) (hstale : Stale srv record l)
  (hactive : srv.config.reuses = false → record.state = .active)
  (howner : client.clientId = record.clientId) (hpresenter : record.clientId = p.clientId)
  (hok : ∀ l' response, l'.request = l.request →
    (srv.config.reuses = false → l'.Recovered p response ∨
      (l'.Answers response ∧ l'.chain.rotated = some record)) →
    (srv.config.isStrict = true → l'.chain.rotated = some record) → ok response l')

include h hstale hactive howner hpresenter hok

/-- The three policies: reuse issues for a record it read, strict rotation spends the record and
issues, and a retryable rotation does both in one call. -/
theorem wpE_rotateRecord
    (hoffers : srv.Offers ⟨granted.1, granted.2.1, granted.2.2, record.authentication⟩ record.terms)
    (herr : ∀ l' e, l'.request = l.request → e ≠ ceilingRefusal → err e l') :
    wpE srv.protocol (srv.rotateRecord client p record granted) l ok err := by
  have hgrants : ∀ l' : Ledger, l'.request = l.request → l'.Continues srv record →
      l'.Grants srv client.clientId (some record.familyId) record.subject record.grantEstablishedAt := by
    intro l' hq hfor
    simp only [Ledger.Grants, hq.trans h.request]
    exact ⟨record, hfor, h.key, howner, rfl, rfl, rfl, howner.trans hpresenter⟩
  have hdraws : ∀ l' : Ledger, l'.request = l.request → l'.Continues srv record →
      l'.Draws srv ⟨granted.1, granted.2.1, granted.2.2, record.authentication⟩ := by
    intro l' hq hfor
    simp only [Ledger.Draws, hq.trans h.request]
    exact ⟨record, hfor, h.key, hpresenter, hoffers⟩
  unfold rotateRecord
  refine wpE_ite.mpr ⟨fun hreuses => ?_, fun hrotates => ?_⟩
  · have hlax : srv.config.isStrict = false := by simp [ServerConfig.isStrict, hreuses]
    have hread := (h.lax hlax).2
    rw [wpE_bind]
    refine wpE_issue (h.ready hlax) rfl (.inl rfl) ?_ ?_ ?_ ?_ ?_ ?_
    · intro l' e hissuing _
      exact hgrants l' hissuing.request (.inr ⟨hreuses, hissuing.reads ▸ hread⟩)
    · intro l' hissuing
      exact hdraws l' hissuing.request (.inr ⟨hreuses, hissuing.reads ▸ hread⟩)
    · intro q _ hissues
      simp [issuesRefresh, refreshIssueArgs] at hissues
    · intro e hissues
      simp [issuesRefresh, refreshIssueArgs] at hissues
    · intro l' response hissuing _
      refine wpE_pure.mpr (hok _ _ hissuing.request (fun hno => ?_) fun hs => ?_)
      · rw [hreuses] at hno
        cases hno
      · rw [hlax] at hs
        cases hs
    · exact fun l' e hissuing _ hne => herr l' e hissuing.request hne
  · have hno : srv.config.reuses = false := by simpa using hrotates
    refine wpE_ite.mpr ⟨fun hwindow => ?_, fun hwindow => ?_⟩
    · have hstrict : srv.config.isStrict = true := by
        simp [ServerConfig.isStrict, hno, hwindow]
      rw [wpE_bind]
      refine wpE_spendRecord h hstrict (hactive hno) (fun ts => ?_)
        fun l' e hq hne => herr l' e hq hne
      refine wpE_issue ⟨h.entropy, h.wire, h.access, h.deleted, rfl, h.successor⟩ rfl (.inl rfl)
        ?_ ?_ ?_ ?_ ?_ ?_
      · exact fun l' e hissuing _ => hgrants l' hissuing.request (.inl hissuing.rotated)
      · exact fun l' hissuing => hdraws l' hissuing.request (.inl hissuing.rotated)
      · exact fun _ _ _ => ⟨record, rfl, fun _ _ _ =>
          ⟨hactive hno, ⟨howner, rfl, rfl, rfl⟩, hoffers, rfl⟩⟩
      · intro e _
        rw [mint_next_entropy]
        change (if l.request.isRefresh = true then _ else _) = _
        rw [h.request]
        rfl
      · intro l' response hissuing hanswers
        exact hok _ _ hissuing.request (fun _ => .inr ⟨hanswers, hissuing.rotated⟩)
          fun _ => hissuing.rotated
      · exact fun l' e hissuing _ hne => herr l' e hissuing.request hne
    · have hretryable : srv.config.isRetryable = true := by
        simp [ServerConfig.isRetryable, hno, hwindow]
      have hlax : srv.config.isStrict = false := by
        simp [ServerConfig.isStrict, hwindow]
      refine wpE_issue_retry (h.ready hlax) h.request hretryable (h.lax hlax).2 h.key (hactive hno)
        howner hpresenter (hstale hretryable) h.rotated hoffers (fun l' response hq hres => ?_)
        fun l' e hq hne => herr l' e hq hne
      refine hok _ _ hq (fun _ => hres) fun hs => ?_
      rw [hlax] at hs
      cases hs

/-- A live record that its own client presented. -/
theorem wpE_refreshRecordOf (hregistered : client ∈ l.clients) (hpermits : srv.Permits resources)
    (herr : ∀ l' e, l'.request = l.request →
      (srv.config.isStrict = true → e = ceilingRefusal → l'.chain.held = some record) →
      (e = ceilingRefusal → l'.Exceeds) → err e l') :
    wpE srv.protocol (srv.refreshRecordOf client p resources record) l ok err := by
  have hrefuse : ∀ l' e, l'.request = l.request → e ≠ ceilingRefusal → err e l' :=
    fun l' e hq hne => herr l' e hq (fun _ heq => absurd heq hne) fun heq => absurd heq hne
  unfold refreshRecordOf
  refine wpE_ite.mpr ⟨fun _ => ?_, fun _ => ?_⟩
  · exact wpE_restoreAndRefuse h fun l' hq => hrefuse l' _ hq (by decide)
  refine wpE_ite.mpr ⟨fun _ => ?_, fun _ => ?_⟩
  · exact wpE_restoreAndRefuse h fun l' hq => hrefuse l' _ hq (by decide)
  rw [wpE_bind]
  refine wpE_expired fun ts expired => ?_
  have h' := h.consulting (.tick l ts)
  refine wpE_ite.mpr ⟨fun _ => wpE_throw.mpr (hrefuse _ _ rfl (by decide)), fun _ => ?_⟩
  refine wpE_ite.mpr ⟨fun hexceeds => wpE_throw.mpr (herr _ _ rfl (fun hstrict _ => ?_) fun _ => ?_),
    fun _ => ?_⟩
  · exact h'.held hstrict
  · exact ⟨record, client, h'.found, hregistered, howner, by simpa using hexceeds⟩
  split
  · rename_i e he
    exact wpE_restoreAndRefuse h' fun l' hq => hrefuse l' e hq (judgeRefresh_error he)
  · rename_i granted hjudged
    refine wpE_rotateRecord h' (hstale.consulting (.tick l ts)) hactive howner hpresenter hok
      (offers_of_judgeRefresh hpermits hjudged) ?_
    exact hrefuse

end Rotating

end Presented

/-! ## The endpoint -/

theorem wpE_presentedRecord {ok : Option RefreshTokenRecord → Ledger → Prop}
    (cs : List Client) (ts : List SystemTime)
    (hmissing : ∀ l', l'.request = .refreshToken p → ok none l')
    (hpresented : ∀ l' record, Presented srv p record l' → (∀ c ∈ cs, c ∈ l'.clients) →
      ok (some record) l') :
    wpE srv.protocol (srv.presentedRecord p.refreshToken)
      ((Ledger.start (.refreshToken p)).read cs ts) ok err := by
  have hclients : ∀ c ∈ cs, c ∈ cs ++ [] := fun c hc => List.mem_append_left _ hc
  unfold presentedRecord
  refine wpE_ite.mpr ⟨fun hstrict => ?_, fun hlax => ?_⟩
  · rw [wpE_store_total rfl]
    refine ⟨⟨rfl, hstrict, rfl⟩, fun g found hfound => ?_⟩
    cases found with
    | none => exact hmissing _ rfl
    | some record =>
      refine hpresented _ record ?_ hclients
      have hkey : record.refreshToken = p.refreshToken := Table.key_of_lookup (Except.ok.inj hfound)
      exact ⟨rfl, hkey, rfl, rfl, rfl, rfl, .inl ⟨hstrict, rfl⟩, rfl, rfl, rfl⟩
  · rw [wpE_store_total rfl]
    refine ⟨trivial, fun g found hfound => ?_⟩
    cases found with
    | none => exact hmissing _ rfl
    | some record =>
      refine hpresented _ record ?_ hclients
      have hkey : record.refreshToken = p.refreshToken := Table.key_of_lookup (Except.ok.inj hfound)
      exact ⟨rfl, hkey, rfl, rfl, rfl, rfl,
        .inr ⟨by simpa using hlax, rfl, List.mem_cons_self⟩, rfl, rfl, rfl⟩

/-- The refresh endpoint keeps to the protocol. -/
theorem follows_refreshToken (p : RefreshPresentation) {resources : List String}
    (hpermits : srv.Permits resources) :
    wpE srv.protocol (srv.refreshToken p resources) (.start (.refreshToken p))
      (fun response l => l.Accepts srv (.token (.ok response)))
      (fun e l => l.Accepts srv (.token (.error e))) := by
  have hrefuse : ∀ (l : Ledger) e, l.request = .refreshToken p → e ≠ ceilingRefusal →
      l.Accepts srv (.token (.error e)) := by
    intro l e hq hne
    simp only [Ledger.Accepts, hq]
    exact ⟨fun _ heq => absurd heq hne, fun heq => absurd heq hne⟩
  unfold refreshToken
  rw [wpE_bind]
  refine wpE_authenticateClient (fun cs ts client hclient hmem => ?_)
    fun cs ts => hrefuse _ _ rfl (by decide)
  refine wpE_ite.mpr ⟨fun _ => wpE_throw.mpr (hrefuse _ _ rfl (by decide)), fun _ => ?_⟩
  rw [wpE_bind]
  refine wpE_presentedRecord cs ts (fun l hq => ?_) fun l record h hclients => ?_
  · rw [wpE_bind, wpE_require]
    exact ⟨(fun _ h => nomatch h), fun _ => hrefuse _ _ hq (by decide)⟩
  rw [wpE_bind, wpE_require]
  refine ⟨?_, fun h => nomatch h⟩
  rintro _ ⟨⟩
  refine wpE_ite.mpr ⟨fun _ => ?_, fun howner => ?_⟩
  · exact wpE_restoreAndRefuse h fun l' hq => hrefuse _ _ (hq.trans h.request) (by decide)
  -- What is done with the record once no cached response is due for it.
  have hlive : ∀ l, Presented srv p record l → Stale srv record l → client ∈ l.clients →
      wpE srv.protocol
        (if (!srv.config.reuses && record.state == .spent) = true then srv.reuseDetected client record
          else srv.refreshRecordOf client p resources record) l
        (fun response l => l.Accepts srv (.token (.ok response)))
        (fun e l => l.Accepts srv (.token (.error e))) := by
    intro l h hstale hregistered
    refine wpE_ite.mpr ⟨fun hreuse => ?_, fun hlive => ?_⟩
    · refine wpE_reuseDetected h hstale ?_ fun l' e hq hne => hrefuse _ _ (hq.trans h.request) hne
      simpa using (Bool.and_eq_true_iff.mp hreuse).2
    · refine wpE_refreshRecordOf h hstale ?_ (not_not.mp howner).symm
        ((not_not.mp howner).trans hclient) ?_ hregistered hpermits ?_
      · intro hno
        cases hstate : record.state with
        | active => rfl
        | spent => simp [hno, hstate] at hlive
      · intro l' response hq hres hrotated
        simp only [Ledger.Accepts, hq.trans h.request]
        refine ⟨fun hs => ⟨record, hrotated hs, h.key⟩, fun hr => ?_⟩
        have hno : srv.config.reuses = false := by
          simpa using (Bool.and_eq_true_iff.mp hr).1
        exact (hres hno).imp_right fun ⟨ha, hrot⟩ => ⟨ha, record, hrot, h.key⟩
      · intro l' e hq hheld hexceeds
        simp only [Ledger.Accepts, hq.trans h.request]
        refine ⟨fun hs heq => ?_, hexceeds⟩
        refine ⟨record, hheld hs heq, h.key, ?_⟩
        cases hstate : record.state with
        | active => rfl
        | spent =>
          have hno : srv.config.reuses = false := by
            simpa using (Bool.and_eq_true_iff.mp hs).1
          simp [hno, hstate] at hlive
  refine wpE_ite.mpr ⟨fun hretryable => ?_, fun hno => ?_⟩
  · have hlax : srv.config.isStrict = false := not_strict_of_retryable hretryable
    rw [wpE_bind]
    refine wpE_refreshRetryResponse (fun l' hl' hpast => ?_) (fun l' d response hl' hd ha hr ht => ?_)
      fun l' e hl' hne => hrefuse _ _ (hl'.request.trans h.request) hne
    · refine hlive l' (h.consulting hl') (fun _ => hpast) ?_
      rw [hl'.clients]
      exact hclients client hmem
    · refine wpE_pure.mpr ?_
      simp only [Ledger.Accepts, hl'.request.trans h.request]
      refine ⟨fun hs => ?_, fun _ => .inl ⟨record, d, ?_, h.key, hd, ha, hr, ht⟩⟩
      · rw [hlax] at hs
        cases hs
      · exact hl'.reads _ (h.lax hlax).2
  · rw [wpE_bind, wpE_pure]
    exact hlive l h (fun hr => absurd hr hno) (hclients client hmem)

end Server

end OauthAs
