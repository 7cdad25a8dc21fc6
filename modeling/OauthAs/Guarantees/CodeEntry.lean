-- SUMMARY: A user code entered on the verification page is counted once, and a refused one is not looked up.
import OauthAs.Lib.Lockstep
import OauthAs.Server.Service
import OauthAs.Server.Verification

/-!
# Entering a user code

A request that reports a failed decision resolves its code a second time. The tally of a request
counts its checks, its admitted checks and its records; no call is allowed before the check, none
after a check that was denied, and no second check or record ever.
-/

namespace OauthAs

open Sample

/-! ## The tally of a request -/

/-- What a request told the limiter about user codes, and what it heard. -/
structure Tally where
  checks : Nat
  admitted : Nat
  records : Nat

namespace Answered

def isEntryCheck : Answered → Bool
  | ⟨.check .deviceUserCodeEntry, _⟩ => true
  | _ => false

def isAdmission : Answered → Bool
  | ⟨.check .deviceUserCodeEntry, .allow⟩ => true
  | _ => false

def isEntryRecord : Answered → Bool
  | ⟨.record .deviceUserCodeEntry _, _⟩ => true
  | _ => false

theorem isAdmission_iff {c : Answered} :
    c.isAdmission = true ↔ c = ⟨.check .deviceUserCodeEntry, .allow⟩ := by
  unfold isAdmission
  split <;> simp_all

end Answered

namespace Tally

def count (t : Tally) (c : Answered) : Tally where
  checks := t.checks + c.isEntryCheck.toNat
  admitted := t.admitted + c.isAdmission.toNat
  records := t.records + c.isEntryRecord.toNat

/-- Nobody asked the limiter yet. -/
def unasked : Tally := ⟨0, 0, 0⟩

def refused : Tally := ⟨1, 0, 0⟩

def admittedOnce : Tally := ⟨1, 1, 0⟩

def charged : Tally := ⟨1, 1, 1⟩

/-- The check comes first and once, the record once after an admission, everything else after an
admission. -/
structure Allows (t : Tally) (e : Effect) : Prop where
  first : t.checks = 0 → e = .check .deviceUserCodeEntry
  once : e = .check .deviceUserCodeEntry → t.checks = 0
  admitted : t.checks ≠ 0 → 0 < t.admitted
  record : ∀ outcome, e = .record .deviceUserCodeEntry outcome → t.records < t.admitted

theorem foldl_count (t : Tally) (trace : List Answered) :
    trace.foldl count t = ⟨t.checks + trace.countP Answered.isEntryCheck,
      t.admitted + trace.countP Answered.isAdmission,
      t.records + trace.countP Answered.isEntryRecord⟩ := by
  induction trace generalizing t with
  | nil => rfl
  | cons c trace ih =>
    rw [List.foldl_cons, ih]
    simp only [count, List.countP_cons, mk.injEq]
    refine ⟨?_, ?_, ?_⟩ <;> split <;> simp_all <;> omega

end Tally

def entries : Protocol Effect Effect.Answer Tally where
  next t e r := t.count ⟨e, r⟩
  allowed := Tally.Allows
  possible _ _ := True

/-! ## What the page does -/

namespace Effect

/-- Calls the tally does not count. -/
def isUncounted : Effect → Bool
  | .check .deviceUserCodeEntry | .record .deviceUserCodeEntry _ => false
  | _ => true

end Effect

namespace Tally

/-- A request that was admitted. -/
def Admitted (t : Tally) : Prop := t.checks ≠ 0 ∧ 0 < t.admitted

theorem admitted_admittedOnce : admittedOnce.Admitted := ⟨by decide, by decide⟩

theorem admitted_charged : charged.Admitted := ⟨by decide, by decide⟩

/-- Asked at most once, and told how it went exactly if it was admitted. -/
def Settled (t : Tally) : Prop := t.checks ≤ 1 ∧ t.records = t.admitted

theorem settled_unasked : unasked.Settled := ⟨by decide, rfl⟩

theorem settled_refused : refused.Settled := ⟨by decide, rfl⟩

theorem settled_charged : charged.Settled := ⟨by decide, rfl⟩

variable {ε : Type} {err : ε → Tally → Prop}

open Prog Handler

theorem wpE_uncounted {e : Effect} (he : e.isUncounted = true) {t : Tally} (ht : t.Admitted)
    {ok : e.Answer → Tally → Prop} (h : ∀ r, ok r t) : wpE entries (perform e) t ok err := by
  have hcheck : e ≠ .check .deviceUserCodeEntry := by
    rintro rfl
    cases he
  have hrecord : ∀ outcome, e ≠ .record .deviceUserCodeEntry outcome := by
    rintro outcome rfl
    cases he
  refine wpE_performE.mpr ⟨⟨fun h => absurd h ht.1, fun h => absurd h hcheck, fun _ => ht.2,
    fun outcome h => absurd h (hrecord outcome)⟩, fun r _ => ?_⟩
  have hnext : t.count ⟨e, r⟩ = t := by
    have hc : Answered.isEntryCheck ⟨e, r⟩ = false := by
      unfold Answered.isEntryCheck
      split <;> simp_all
    have ha : Answered.isAdmission ⟨e, r⟩ = false := by
      unfold Answered.isAdmission
      split <;> simp_all
    have hr : Answered.isEntryRecord ⟨e, r⟩ = false := by
      unfold Answered.isEntryRecord
      split <;> simp_all
    simp [count, hc, ha, hr]
  change ok r (t.count ⟨e, r⟩)
  rw [hnext]
  exact h r

theorem wpE_check {ok : RateLimitDecision → Tally → Prop} (hdeny : ok .deny refused)
    (hallow : ok .allow admittedOnce) :
    wpE entries (perform (.check .deviceUserCodeEntry)) unasked ok err := by
  refine wpE_performE.mpr ⟨⟨fun _ => rfl, fun _ => rfl, fun h => absurd rfl h,
    fun outcome h => by cases h⟩, fun r _ => ?_⟩
  cases r with
  | deny => exact hdeny
  | allow => exact hallow

theorem wpE_record {outcome : AttemptOutcome} {ok : Unit → Tally → Prop} (h : ok () charged) :
    wpE entries (perform (.record .deviceUserCodeEntry outcome)) admittedOnce ok err := by
  refine wpE_performE.mpr ⟨⟨fun h => ?_, fun h => ?_, fun _ => ?_, fun _ _ => ?_⟩, fun _ _ => h⟩
  · cases h
  · cases h
  · exact admitted_admittedOnce.2
  · exact Nat.zero_lt_one

theorem wpE_storeOr {onError : StorageError → ε} {op : StorageOp} {t : Tally} (ht : t.Admitted)
    {ok : op.Result → Tally → Prop} (hok : ∀ a, ok a t) (herr : ∀ e, err (onError e) t) :
    wpE entries (storeOr onError op) t ok err := by
  refine wpE_bind.mpr (wpE_uncounted rfl ht fun r => ?_)
  cases r with
  | ok a => exact hok a
  | error e => exact herr e

end Tally

namespace Verification

variable {code entered subject : String} {t : Tally} {err : Throttled → Tally → Prop}
  {visitor : Visitor} {e : DeviceApprovalError}
variable {message : Option String}

open Prog Handler Tally

theorem displayedGrant_uncounted (ht : t.Admitted) :
    wpE entries (displayedGrant code) t (fun _ t' => t' = t) err := by
  refine wpE_bind.mpr (wpE_uncounted rfl ht fun r => ?_)
  cases r <;> exact rfl

theorem displayedName_uncounted {clientId : ClientId} (ht : t.Admitted) :
    wpE entries (displayedName clientId) t (fun _ t' => t' = t) err := by
  refine wpE_bind.mpr (wpE_uncounted rfl ht fun r => ?_)
  cases r <;> exact rfl

/-- What is displayed of a grant that was found. -/
theorem described_charged {grant : Option DeviceGrant} :
    wpE entries (match grant with
      | none => pure none
      | some grant => do
        let name ← displayedName grant.clientId
        pure (some (grant, name))) charged (fun _ t => t = charged) err := by
  cases grant with
  | none => exact rfl
  | some grant => exact wpE_bind.mpr (displayedName_uncounted admitted_charged)

theorem pendingGrant_uncharged :
    wpE entries (pendingGrant code .uncharged) unasked (fun _ t => t = charged)
      (fun _ t => t = refused) := by
  refine wpE_bind.mpr (wpE_bind.mpr (wpE_check rfl ?_))
  refine wpE_bind.mpr (wpE_mono ?_ (fun _ _ h => h) (displayedGrant_uncounted admitted_admittedOnce))
  rintro grant _ rfl
  exact wpE_bind.mpr (wpE_record described_charged)

theorem pendingGrant_alreadyCharged :
    wpE entries (pendingGrant code .alreadyCharged) charged (fun _ t => t = charged)
      (fun _ t => t = charged) := by
  refine wpE_bind.mpr (wpE_pure.mpr (wpE_bind.mpr
    (wpE_mono ?_ (fun _ _ h => h) (displayedGrant_uncounted admitted_charged))))
  rintro grant _ rfl
  exact described_charged

/-- A rendered page leaves the tally as the lookup of its code does. -/
theorem renderVerification_of {status : Nat} {entry : CodeEntry} {Q : Tally → Prop} (ht : Q t)
    (h : wpE entries (pendingGrant entered entry) t (fun _ => Q) (fun _ => Q)) :
    wp entries (renderVerification visitor entered status message entry) t fun _ => Q := by
  unfold renderVerification
  cases formToken visitor.protection with
  | error page => exact ht
  | ok csrf =>
    refine wp_bind.mpr ?_
    unfold lookUp
    split
    · exact ht
    · refine wp_mono (fun lookedUp t' h' => ?_) h
      cases lookedUp <;> exact h'

theorem renderVerification_uncharged {status : Nat} :
    wp entries (renderVerification visitor entered status message .uncharged) unasked
      fun _ => Settled := by
  refine renderVerification_of settled_unasked (wpE_mono ?_ ?_ pendingGrant_uncharged)
  · rintro grant _ rfl
    exact settled_charged
  · rintro e _ rfl
    exact settled_refused

/-- How a decision leaves the tally: a refused one is told apart by its error. -/
def Decided : DeviceApprovalError → Tally → Prop
  | .rateLimited, t => t = refused
  | _, t => t = charged

theorem lookupPendingGrantByUserCode_uncounted (ht : t.Admitted) :
    wpE entries (Server.lookupPendingGrantByUserCode code) t (fun _ t' => t' = t)
      (fun e t' => e ≠ .rateLimited ∧ t' = t) := by
  refine wpE_bind.mpr (wpE_storeOr ht (fun found => ?_) fun e => ⟨by simp, rfl⟩)
  refine wpE_bind.mpr ?_
  cases found with
  | none => exact ⟨by simp, rfl⟩
  | some grant =>
    refine wpE_bind.mpr (wpE_uncounted rfl ht fun now => wpE_ite.mpr ⟨fun _ => ?_, fun _ => ?_⟩)
    · exact wpE_bind.mpr (wpE_uncounted rfl ht fun _ => ⟨by simp, rfl⟩)
    · exact wpE_ite.mpr ⟨fun _ => ⟨by simp, rfl⟩, fun _ => rfl⟩

theorem decided_charged (h : e ≠ .rateLimited) : Decided e charged := by
  cases e with
  | rateLimited => exact absurd rfl h
  | _ => exact rfl

theorem pendingGrantByUserCode_decided :
    wpE entries (Server.pendingGrantByUserCode code) unasked (fun _ t => t = charged) Decided := by
  refine wpE_bind.mpr (wpE_check rfl ?_)
  refine wpE_bind.mpr (wpE_lift_run.mpr (wpE_mono ?_ ?_
    (lookupPendingGrantByUserCode_uncounted admitted_admittedOnce)))
  · rintro grant _ rfl
    exact wpE_bind.mpr (wpE_record rfl)
  · rintro e _ ⟨he, rfl⟩
    exact wpE_bind.mpr (wpE_record (decided_charged he))

theorem decideDevice_decided {grant : DeviceGrant} {state : DeviceGrantState} {event : Event} :
    wpE entries (Server.decideDevice grant state event) charged (fun _ t => t = charged) Decided := by
  refine wpE_bind.mpr (wpE_storeOr admitted_charged (fun swapped => ?_) fun e => rfl)
  refine wpE_ite.mpr ⟨fun _ => wpE_uncounted rfl admitted_charged fun _ => rfl, fun _ => rfl⟩

theorem decideEntry_decided {denied : Bool} :
    wpE entries (decideEntry code subject denied) unasked (fun _ t => t = charged) Decided := by
  refine wpE_ite.mpr ⟨fun _ => ?_, fun _ => ?_⟩ <;>
  · refine wpE_bind.mpr (wpE_mono ?_ (fun _ _ h => h) pendingGrantByUserCode_decided)
    rintro grant _ rfl
    exact decideDevice_decided

theorem pendingGrant_after (h : Decided e t) :
    wpE entries (pendingGrant code (entryAfter e)) t (fun _ => Settled) (fun _ => Settled) := by
  cases e with
  | rateLimited =>
    cases h
    exact settled_refused
  | _ =>
    cases h
    refine wpE_mono ?_ ?_ pendingGrant_alreadyCharged <;>
    · rintro a _ rfl
      exact settled_charged

theorem settled_of_decided (h : Decided e t) : t.Settled := by
  cases e with
  | rateLimited =>
    cases h
    exact settled_refused
  | _ =>
    cases h
    exact settled_charged

theorem concludeSubmission_settled {denied : Bool} :
    wp entries (concludeSubmission visitor code subject denied) unasked fun _ => Settled := by
  refine wp_bind.mpr (wp_mono ?_ decideEntry_decided)
  intro outcome t h
  cases outcome with
  | ok _ =>
    cases h
    exact settled_charged
  | error e => exact renderVerification_of (settled_of_decided h) (pendingGrant_after h)

end Verification

namespace Server

open Prog Tally Verification

theorem acceptedSubmission_settled {visitor : Visitor} {form : List (String × String)} :
    wp entries (acceptedSubmission visitor form) unasked fun _ => Settled := by
  unfold acceptedSubmission
  dsimp only
  split
  · exact renderVerification_uncharged
  · split
    · exact renderVerification_uncharged
    · cases visitor.subject with
      | none => exact settled_unasked
      | some subject => exact concludeSubmission_settled

theorem verification_settled (srv : Server) (visitor : Visitor) (request : VerificationRequest) :
    wp entries (srv.verification visitor request) unasked fun _ => Settled := by
  cases request with
  | page query =>
    change wp entries (srv.verificationPageHandler visitor query) unasked _
    unfold verificationPageHandler
    split
    · exact settled_unasked
    · exact renderVerification_uncharged
  | submit body =>
    change wp entries (srv.verificationSubmitHandler visitor body) unasked _
    unfold verificationSubmitHandler
    split
    · exact settled_unasked
    · split
      · exact settled_unasked
      · split
        · exact settled_unasked
        · exact acceptedSubmission_settled

end Server

/-! ## What a run of the page does -/

namespace Prog

variable {W α : Type} {perform : W → (e : Effect) → Option (e.Answer × W)} {w : W}
  {p : Prog Effect Effect.Answer α} {Q : α → Tally → Prop}
variable {trace : List Answered} {a : α}

/-- A program that is held to the tally makes no call, or asks the limiter first and returns when
that is denied. -/
theorem asks_first (hp : wp entries p .unasked Q) :
    (∃ a, p = .ret a) ∨ ∃ k a, p = .call (.check .deviceUserCodeEntry) k ∧ k .deny = .ret a := by
  cases p with
  | ret a => exact .inl ⟨a, rfl⟩
  | call e k =>
    obtain ⟨hallowed, hk⟩ := hp
    cases hallowed.first rfl
    have hdeny := hk .deny trivial
    refine .inr ⟨k, ?_⟩
    cases hk' : k .deny with
    | ret a => exact ⟨a, rfl, rfl⟩
    | call e' k' =>
      rw [hk'] at hdeny
      exact absurd (hdeny.1.admitted Nat.one_ne_zero) (Nat.lt_irrefl 0)

theorem entries_step (l : Tally) (e : Effect) (w : W) (r : e.Answer) (w' : W)
    (_ : entries.allowed l e) (_ : True) (_ : perform w e = some (r, w')) :
    entries.possible e r ∧ True := ⟨trivial, trivial⟩

theorem traced_tally (hp : wp entries p .unasked fun _ => Tally.Settled)
    (h : traced perform w p = some (trace, a)) :
    trace.countP Answered.isEntryCheck ≤ 1 ∧
      trace.countP Answered.isEntryRecord = trace.countP Answered.isAdmission := by
  have hsettled : Tally.Settled (trace.foldl Tally.count .unasked) :=
    traced_wp (I := fun _ => True) entries_step hp trivial h
  rw [Tally.foldl_count] at hsettled
  simpa only [Tally.Settled, Tally.unasked, Nat.zero_add] using hsettled

/-- Every call but the check itself comes after an admission. -/
theorem traced_admitted (hp : wp entries p .unasked Q) {before after : List Answered} {c : Answered}
    (h : traced perform w p = some (trace, a)) (htrace : trace = before ++ c :: after)
    (hc : c.1 ≠ .check .deviceUserCodeEntry) : ⟨.check .deviceUserCodeEntry, .allow⟩ ∈ before := by
  have hallowed : Tally.Allows (before.foldl Tally.count .unasked) c.1 :=
    traced_allowed (I := fun _ => True) entries_step hp trivial h htrace
  rw [Tally.foldl_count] at hallowed
  have hadmitted := hallowed.admitted fun h => hc (hallowed.first h)
  simp only [Tally.unasked, Nat.zero_add, List.countP_pos_iff] at hadmitted
  obtain ⟨admission, hmem, hadmission⟩ := hadmitted
  rw [Answered.isAdmission_iff] at hadmission
  exact hadmission ▸ hmem

/-- A run that is denied goes like every run that is. -/
theorem traced_denied (hp : wp entries p .unasked fun _ => Tally.Settled)
    (h : traced perform w p = some (trace, a))
    (hdenied : ⟨.check .deviceUserCodeEntry, .deny⟩ ∈ trace) {V : Type}
    {perform' : V → (e : Effect) → Option (e.Answer × V)} {v v' : V}
    (hdeny : perform' v (.check .deviceUserCodeEntry) = some (.deny, v')) :
    traced perform' v p = some (trace, a) := by
  have honce := (traced_tally hp h).1
  obtain ⟨b, rfl⟩ | ⟨k, b, rfl, hk⟩ := asks_first hp
  · cases h
    cases hdenied
  · simp only [traced] at h ⊢
    simp only [hdeny, hk, traced, Option.map_some]
    cases hperform : perform w (.check .deviceUserCodeEntry) with
    | none =>
      rw [hperform] at h
      cases h
    | some answer =>
      obtain ⟨d, u⟩ := answer
      simp only [hperform, Option.map_eq_some_iff] at h
      obtain ⟨⟨rest, b'⟩, hrest, heq⟩ := h
      cases heq
      cases d with
      | deny =>
        rw [hk] at hrest
        cases hrest
        rfl
      | allow =>
        -- a second check is one too many
        have hmem : (⟨.check .deviceUserCodeEntry, .deny⟩ : Answered) ∈ rest := by
          simpa using hdenied
        have hpos : 0 < rest.countP Answered.isEntryCheck :=
          List.countP_pos_iff.mpr ⟨_, hmem, rfl⟩
        have hfirst : Answered.isEntryCheck ⟨.check .deviceUserCodeEntry, .allow⟩ = true := rfl
        rw [List.countP_cons_of_pos hfirst] at honce
        dsimp only at honce
        omega

end Prog

/-- Entering a user code is charged once and a refusal tells nothing: a request to the verification
page asks the limiter about the entry at most once and reports back exactly if it was admitted, looks
codes up after an admission only, and answers a denied entry alike whatever the store holds. -/
theorem code_entry_charged_once {W : Type} {perform : W → (e : Effect) → Option (e.Answer × W)}
    {w : W} (srv : Server) (visitor : Visitor) (request : VerificationRequest)
    {trace : List Answered} {page : Page}
    (h : Prog.traced perform w (srv.verification visitor request) = some (trace, page)) :
    trace.countP Answered.isEntryCheck ≤ 1 ∧
    trace.countP Answered.isEntryRecord = trace.countP Answered.isAdmission ∧
    (∀ before code found after,
      trace = before ++ ⟨.storage (.findDeviceGrantByUserCode code), found⟩ :: after →
      ⟨.check .deviceUserCodeEntry, .allow⟩ ∈ before) ∧
    (⟨.check .deviceUserCodeEntry, .deny⟩ ∈ trace →
      ∀ (V : Type) (perform' : V → (e : Effect) → Option (e.Answer × V)) (v v' : V),
        perform' v (.check .deviceUserCodeEntry) = some (.deny, v') →
        Prog.traced perform' v (srv.verification visitor request) = some (trace, page)) := by
  have hp := srv.verification_settled visitor request
  obtain ⟨honce, hrecords⟩ := Prog.traced_tally hp h
  refine ⟨honce, hrecords, ?_, ?_⟩
  · intro before code found after htrace
    exact Prog.traced_admitted hp h htrace (by simp)
  · intro hdenied V perform' v v' hdeny
    exact Prog.traced_denied hp h hdenied hdeny

namespace Sample

def signedIn : Visitor where
  contentType := some "application/x-www-form-urlencoded"
  secFetchSite := some "same-origin"
  origin := none
  subject := some "user"
  protection := .tokens (some "next") (some "token")

/-- The form approves a code that nobody was given. -/
def guess : VerificationRequest := .submit
  ("csrf_token=token&action=approve&user_code=GUESS".toList.map fun c => UInt8.ofNat c.toNat)

end Sample

/-- A wrong code is looked up twice and charged once; refused, it is answered as in any world. -/
theorem code_entry_charged_once_guessed : ∃ trace page trace' page',
    Prog.traced (World.alone fun _ => .allow) (.initial 0)
      (server.verification signedIn guess) = some (trace, page) ∧
    trace.countP Answered.isEntryRecord = trace.countP Answered.isAdmission ∧
    Prog.traced (World.alone fun _ => .deny) (.initial 0)
      (server.verification signedIn guess) = some (trace', page') ∧
    ∀ w : World, Prog.traced (World.alone fun _ => .deny) w
      (server.verification signedIn guess) = some (trace', page') := by
  obtain ⟨⟨trace, page⟩, hrun, -⟩ : ∃ run ∈ Prog.traced (World.alone fun _ => .allow) (.initial 0)
      (server.verification signedIn guess), True := by
    decide +kernel
  obtain ⟨⟨trace', page'⟩, hrun', hmem⟩ : ∃ run ∈ Prog.traced (World.alone fun _ => .deny)
      (.initial 0) (server.verification signedIn guess),
      ⟨.check .deviceUserCodeEntry, .deny⟩ ∈ run.1 := by
    decide +kernel
  refine ⟨trace, page, trace', page', hrun, ?_, hrun', fun w => ?_⟩
  · exact (code_entry_charged_once server signedIn guess hrun).2.1
  · exact (code_entry_charged_once server signedIn guess hrun').2.2.2
      hmem World (World.alone fun _ => .deny) w w rfl

end OauthAs
