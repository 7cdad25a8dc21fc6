-- SUMMARY: What the management of registrations does to the store: an update swaps what it read for what it makes of it.
import OauthAs.Protocol.Service
import OauthAs.Server.Registration

/-!
# The discipline of registration management

The ledger of a management call is its trace. Two things matter: a swap of a registration is made
only by an update, from the record the update read, and a call that reports success has made its
write.
-/

namespace OauthAs

open Prog Handler

/-- A client as a registration makes it. -/
def Server.Makes (srv : Server) (c : Client) : Prop :=
  ∃ config metadata registered clientId secret issuedAt expiresAt token,
    srv.config.registration = some config ∧ ClientMetadata.validate metadata config = .ok registered ∧
    Option.isSome secret = wantsSecret registered.tokenEndpointAuthMethod ∧
    c = srv.registeredClient registered clientId secret issuedAt expiresAt token

/-- What an update makes of a record: a secret is made only for a client that wants one and has
none. -/
def Server.Rebuilds (srv : Server) (metadata : ClientMetadata) (c c' : Client) : Prop :=
  ∃ config registration registered secret expiresAt, srv.config.registration = some config ∧
    c.registration = some registration ∧ metadata.validate config = .ok registered ∧
    Option.isSome secret =
      (wantsSecret registered.tokenEndpointAuthMethod && !c.auth.isConfidential) ∧
    c' = srv.updatedClient c registration registered secret expiresAt

abbrev Past := List Answered

def Past.Did (past : Past) (e : Effect) (a : e.Answer) : Prop := ⟨e, a⟩ ∈ past

/-- The swaps a management call makes. -/
def ManagementRequest.Swaps (srv : Server) (q : ManagementRequest) (past : Past)
    (expected updated : Client) : Prop :=
  ∃ clientId token metadata, q = .update clientId token metadata ∧
    past.Did (.storage (.getClient clientId)) (.ok (some expected)) ∧
    srv.Rebuilds metadata expected updated

def ManagementRequest.Allowed (srv : Server) (q : ManagementRequest) (past : Past) : Effect → Prop
  | .storage (.putClient client) => srv.Makes client
  | .storage (.compareAndSwapClient expected updated) => q.Swaps srv past expected updated
  | _ => True

/-- What a reply promises. -/
def ManagementRequest.Accepts (q : ManagementRequest) (past : Past) (reply : ManagementReply) :
    Prop :=
  match q, reply with
  | .update _ _ _, .information (.ok _) =>
    ∃ expected updated, past.Did (.storage (.compareAndSwapClient expected updated)) (.ok true)
  | .delete clientId _, .deleted (.ok _) =>
    ∃ window existed, past.Did (.storage (.deleteClient clientId window)) (.ok existed)
  | _, _ => True

inductive ManagementLedger where
  | service (l : ServiceLedger)
  | managing (q : ManagementRequest) (past : Past)

namespace ManagementLedger

def start : ManagementRequest → ManagementLedger
  | .service q _ => .service (.start q)
  | q => .managing q []

def next : ManagementLedger → (e : Effect) → e.Answer → ManagementLedger
  | service l, e, a => service (l.next e a)
  | managing q past, e, a => managing q (past ++ [⟨e, a⟩])

def Allowed (srv : Server) : ManagementLedger → Effect → Prop
  | service l, e => l.Allowed srv e
  | managing q past, e => q.Allowed srv past e

def Accepts (srv : Server) (reply : ManagementReply) : ManagementLedger → Prop
  | service l => ∃ a, reply = .service a ∧ l.Accepts srv a
  | managing q past => q.Accepts past reply

end ManagementLedger

namespace Server

variable {srv : Server} {q : ManagementRequest} {past : Past} {ε α : Type} {ok : α → Past → Prop}

/-- The protocol of one management call. -/
def managing (srv : Server) (q : ManagementRequest) : Protocol Effect Effect.Answer Past where
  next := fun past e a => past ++ [⟨e, a⟩]
  allowed := q.Allowed srv
  possible := Effect.Possible

/-! ## Calls -/

theorem managing_storeOr {op : StorageOp} {ok : op.Result → Past → Prop}
    (hallowed : q.Allowed srv past (.storage op)) (hok : ∀ a, ok a (past ++ [⟨.storage op, .ok a⟩]))
    {onError : StorageError → ε} :
    wpE (srv.managing q) (storeOr onError op) past ok fun _ _ => True := by
  unfold storeOr
  rw [wpE_bind]
  refine wpE_performE.mpr ⟨hallowed, fun a _ => ?_⟩
  cases a with
  | ok a => exact hok a
  | error e => exact trivial

/-- Nothing but a write of a client is restricted. -/
theorem managing_effect {e : Effect} (he : e.isStorage = false) {ok : e.Answer → Past → Prop}
    {err : ε → Past → Prop} (hok : ∀ a, ok a (past ++ [⟨e, a⟩])) :
    wpE (srv.managing q) (perform e) past ok err := by
  refine wpE_performE.mpr ⟨?_, fun a _ => hok a⟩
  cases e with
  | storage op => cases he
  | _ => trivial

theorem managing_require {x : Option α} {e : ε} (hok : ∀ a, x = some a → ok a past) :
    wpE (srv.managing q) (require e x) past ok fun _ _ => True := by
  cases x with
  | none => exact trivial
  | some a => exact hok a rfl

theorem managing_judge {x : Except ε α} (hok : ∀ a, x = .ok a → ok a past) :
    wpE (srv.managing q) (judge x) past ok fun _ _ => True := by
  cases x with
  | error e => exact trivial
  | ok a => exact hok a rfl

theorem managing_registrationAuthFailed {clientId : ClientId} {failure : ClientAuthFailure}
    {attempted : Bool} :
    wpE (srv.managing q) (registrationAuthFailed clientId failure attempted) past ok
      fun _ _ => True := by
  unfold registrationAuthFailed
  rw [wpE_bind]
  refine managing_effect rfl fun _ => ?_
  cases attempted with
  | true =>
    simp only [if_true]
    rw [wpE_bind]
    exact managing_effect rfl fun _ => trivial
  | false => exact trivial

/-- A management call goes on with the record it read. -/
theorem managing_authenticateRegistration {clientId : ClientId} {token : String}
    {ok : Client × DynamicRegistration → Past → Prop}
    (hok : ∀ client registration past, client.registration = some registration →
      Past.Did past (.storage (.getClient clientId)) (.ok (some client)) →
      ok (client, registration) past) :
    wpE (srv.managing q) (srv.authenticateRegistration clientId token) past ok
      fun _ _ => True := by
  unfold authenticateRegistration
  rw [wpE_bind]
  refine managing_require fun config _ => wpE_guard (fun _ => trivial) fun _ => ?_
  rw [wpE_bind]
  refine managing_effect rfl fun decision => ?_
  cases decision with
  | deny => exact managing_registrationAuthFailed
  | allow =>
    rw [wpE_bind]
    refine managing_storeOr (by trivial) fun found => ?_
    cases found with
    | none => exact managing_registrationAuthFailed
    | some client =>
      cases hregistration : client.registration with
      | none =>
        simp only [hregistration]
        exact managing_registrationAuthFailed
      | some registration =>
        simp only [hregistration]
        refine wpE_ite.mpr ⟨fun _ => ?_, fun _ => managing_registrationAuthFailed⟩
        rw [wpE_bind]
        refine managing_effect rfl fun _ => wpE_pure.mpr ?_
        exact hok client registration _ hregistration (by simp [Past.Did])

theorem managing_registrationHex {bytes : Nat} {ok : String → Past → Prop}
    (hok : ∀ text past', past ⊆ past' → ok text past') :
    wpE (srv.managing q) (registrationHex bytes) past ok fun _ _ => True := by
  unfold registrationHex
  rw [wpE_bind]
  refine managing_effect rfl fun drawn => ?_
  rw [wpE_bind]
  exact managing_require fun text _ => hok _ _ (List.subset_append_left _ _)

/-- A secret is made if one is asked for. -/
theorem managing_mintSecret {mint : Bool} {ok : Option String → Past → Prop}
    (hok : ∀ secret past', secret.isSome = mint → past ⊆ past' → ok secret past') :
    wpE (srv.managing q) (mintSecret mint) past ok fun _ _ => True := by
  unfold mintSecret
  cases mint with
  | true =>
    simp only [if_true]
    rw [wpE_map]
    exact managing_registrationHex fun text past' h => hok (some text) past' rfl h
  | false => exact hok none past rfl (List.Subset.refl _)

theorem managing_updatedExpiry {config : RegistrationConfig} {registration : DynamicRegistration}
    {wants : Bool} {secret : Option String} {ok : Option Nat → Past → Prop}
    (hok : ∀ expiresAt past', past ⊆ past' → ok expiresAt past') :
    wpE (srv.managing q) (updatedExpiry config registration wants secret) past ok
      fun _ _ => True := by
  unfold updatedExpiry
  cases secret with
  | none => exact hok _ past (List.Subset.refl _)
  | some secret =>
    cases config.clientSecretTtl with
    | none => exact hok _ past (List.Subset.refl _)
    | some ttl =>
      simp only
      rw [wpE_bind]
      exact managing_effect rfl fun _ => hok _ _ (List.subset_append_left _ _)

theorem managing_updateRegistration (clientId : ClientId) (token : String)
    (metadata : ClientMetadata) :
    wpE (srv.managing (.update clientId token metadata))
      (srv.updateRegistration clientId token metadata) []
      (fun _ past => ∃ expected updated,
        past.Did (.storage (.compareAndSwapClient expected updated)) (.ok true))
      fun _ _ => True := by
  unfold updateRegistration
  rw [wpE_bind]
  refine managing_authenticateRegistration fun client registration past hregistration hread => ?_
  simp only
  rw [wpE_bind]
  refine managing_require fun config hconfig => ?_
  rw [wpE_bind]
  refine managing_effect rfl fun decision => ?_
  cases decision with
  | deny =>
    simp only
    rw [wpE_bind]
    exact managing_effect rfl fun _ => trivial
  | allow =>
    simp only
    rw [wpE_bind]
    refine managing_judge fun registered hvalid => ?_
    rw [wpE_bind]
    refine managing_mintSecret fun secret past₁ hsecret hpast₁ => ?_
    rw [wpE_bind]
    refine managing_updatedExpiry fun expiresAt past₂ hpast₂ => ?_
    rw [wpE_bind]
    refine managing_storeOr ?_ fun swapped => ?_
    · refine ⟨clientId, token, metadata, rfl, hpast₂ (hpast₁ ?_), config, registration, registered,
        secret, expiresAt, hconfig, hregistration, hvalid, hsecret, rfl⟩
      exact List.mem_append_left _ hread
    · refine wpE_ite.mpr ⟨fun hswapped => ?_, fun _ => trivial⟩
      rw [wpE_bind]
      refine managing_effect rfl fun _ => wpE_pure.mpr ?_
      refine ⟨client, srv.updatedClient client registration registered secret expiresAt, ?_⟩
      refine List.mem_append_left _ (List.mem_append_right _ (List.mem_singleton.mpr ?_))
      rw [hswapped]

theorem managing_deleteRegistration (clientId : ClientId) (token : String) :
    wpE (srv.managing (.delete clientId token)) (srv.deleteRegistration clientId token) []
      (fun _ past => ∃ window existed,
        past.Did (.storage (.deleteClient clientId window)) (.ok existed))
      fun _ _ => True := by
  unfold deleteRegistration
  rw [wpE_bind]
  refine managing_authenticateRegistration fun client registration past _ _ => ?_
  unfold revocationWindow
  rw [wpE_bind, wpE_bind]
  refine managing_effect rfl fun t => ?_
  rw [wpE_pure, wpE_bind]
  refine managing_storeOr (by trivial) fun existed => ?_
  refine managing_effect rfl fun _ => ⟨_, existed, ?_⟩
  exact List.mem_append_left _ (List.mem_append_right _ (List.mem_singleton_self _))

theorem managing_readRegistration (clientId : ClientId) (token : String) :
    wpE (srv.managing q) (srv.readRegistration clientId token) past (fun _ _ => True)
      fun _ _ => True := by
  unfold readRegistration
  rw [wpE_bind]
  refine managing_authenticateRegistration fun client registration past _ _ => ?_
  simp only
  rw [wpE_bind]
  exact managing_require fun _ _ => trivial

theorem managing_registerDynamicClient (metadata : ClientMetadata)
    (initialAccessToken : Option String) :
    wpE (srv.managing q) (srv.registerDynamicClient metadata initialAccessToken) past
      (fun _ _ => True) fun _ _ => True := by
  unfold registerDynamicClient admitRegistration
  rw [wpE_bind, wpE_bind]
  refine managing_require fun _ _ => ?_
  rw [wpE_bind]
  refine managing_effect rfl fun decision => ?_
  cases decision with
  | deny => exact trivial
  | allow =>
    refine wpE_pure.mpr ?_
    unfold registerAdmittedClient
    rw [wpE_bind]
    refine managing_require fun config hconfig => ?_
    rw [wpE_bind]
    refine managing_effect rfl fun decision => ?_
    cases decision with
    | deny =>
      simp only
      rw [wpE_bind]
      refine managing_effect rfl fun _ => ?_
      rw [wpE_bind]
      exact managing_effect rfl fun _ => trivial
    | allow =>
      cases hvalid : metadata.validate config with
      | error refusal =>
        simp only
        rw [wpE_bind]
        exact managing_effect rfl fun _ => trivial
      | ok registered =>
        simp only
        rw [wpE_bind]
        refine managing_effect rfl fun t => ?_
        rw [wpE_bind]
        refine managing_registrationHex fun clientId _ _ => ?_
        rw [wpE_bind]
        refine managing_mintSecret fun secret _ hsecret _ => ?_
        rw [wpE_bind]
        refine managing_registrationHex fun token _ _ => ?_
        rw [wpE_bind]
        refine managing_storeOr ?_ fun _ => ?_
        · exact ⟨config, metadata, registered, clientId, secret, _, _, token, hconfig, hvalid, hsecret,
            rfl⟩
        rw [wpE_bind]
        refine managing_effect rfl fun _ => ?_
        rw [wpE_bind]
        exact managing_effect rfl fun _ => trivial

/-! ## The discipline -/

def managementProtocol (srv : Server) : Protocol Effect Effect.Answer ManagementLedger where
  next := ManagementLedger.next
  allowed := ManagementLedger.Allowed srv
  possible := Effect.Possible

theorem follows_managing {reply : Except ε α → ManagementReply} {h : Handler ε α}
    (hh : wpE (srv.managing q) h [] (fun a past => q.Accepts past (reply (.ok a)))
      (fun e past => q.Accepts past (reply (.error e)))) :
    wp srv.managementProtocol (reply <$> h.run) (.managing q [])
      fun reply l => l.Accepts srv reply := by
  refine wp_bind.mpr (wp_mono ?_ (wp_embed (f := ManagementLedger.managing q) (fun _ _ _ => rfl)
    (fun _ _ h => h) (fun _ _ h => h) hh))
  rintro (e | a) _ ⟨past, rfl, h⟩
  · exact h
  · exact h

theorem manage_follows (q : ManagementRequest) :
    wp srv.managementProtocol (srv.manage q) (.start q) fun reply l => l.Accepts srv reply := by
  cases q with
  | service q other =>
    refine wp_bind.mpr (wp_mono ?_ (wp_embed (f := ManagementLedger.service) (fun _ _ _ => rfl)
      (fun _ _ h => h) (fun _ _ h => h) (serve_follows q)))
    rintro a _ ⟨l, rfl, h⟩
    exact ⟨a, rfl, h⟩
  | register metadata initialAccessToken =>
    exact follows_managing (managing_registerDynamicClient metadata initialAccessToken)
  | read clientId token => exact follows_managing (managing_readRegistration clientId token)
  | update clientId token metadata =>
    exact follows_managing (managing_updateRegistration clientId token metadata)
  | delete clientId token => exact follows_managing (managing_deleteRegistration clientId token)

def managementDiscipline (srv : Server) : Discipline srv.management ManagementLedger where
  protocol := srv.managementProtocol
  start := ManagementLedger.start
  accept := fun reply l => l.Accepts srv reply
  handler_follows := manage_follows
  perform_possible := perform_possible

/-- The ledger of a management call is its trace. -/
theorem summary_managing (srv : Server) (hq : ∀ service other, q ≠ .service service other)
    (trace : Past) : srv.managementDiscipline.summary q trace = .managing q trace := by
  have key : ∀ trace past : Past, trace.foldl (fun l ev => ManagementLedger.next l ev.1 ev.2)
      (.managing q past) = .managing q (past ++ trace) := by
    intro trace
    induction trace with
    | nil =>
      intro past
      rw [List.append_nil]
      rfl
    | cons event trace ih =>
      intro past
      refine (ih (past ++ [event])).trans ?_
      rw [List.append_assoc]
      rfl
  have hstart : ManagementLedger.start q = .managing q [] := by
    cases q with
    | service service other => exact absurd rfl (hq service other)
    | _ => rfl
  have hsummary : srv.managementDiscipline.summary q trace = trace.foldl
      (fun l ev => ManagementLedger.next l ev.1 ev.2) (.start q) := rfl
  rw [hsummary, hstart, key, List.nil_append]

end Server

end OauthAs
