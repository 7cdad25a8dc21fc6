-- SUMMARY: A client that sends back what it was told of its registration changes nothing.
import OauthAs.Guarantees.Registration
import OauthAs.Guarantees.Scopes
import OauthAs.Protocol.Alone

/-!
# Echoes

What a client is told of its registration is rebuilt from the record, and is itself a document that
may be sent. Validation makes the same record of it, unless the grant was one that the client got by
not naming any: the grant that is assumed is not compared with the grants registrants are offered.
-/

namespace OauthAs

open Sample

variable {r : Registered}

/-! ## Validation -/

theorem registrableGrants_ok {config : RegistrationConfig} {values : List String}
    {out grants : List GrantType} (hout : out.Nodup) (hallowed : ∀ g ∈ out, g ∈ config.allowedGrantTypes)
    (h : registrableGrants config values out = .ok grants) :
    grants.Nodup ∧ ∀ g ∈ grants, g ∈ config.allowedGrantTypes := by
  induction values generalizing out with
  | nil =>
    cases h
    exact ⟨hout, hallowed⟩
  | cons value values ih =>
    rw [registrableGrants] at h
    split at h
    · cases h
    · rename_i grant hgrant
      split at h
      · cases h
      · rename_i hoffered
        rw [Bool.not_eq_true, Bool.not_eq_false', List.contains_iff_mem] at hoffered
        split at h
        · exact ih hout hallowed h
        · rename_i hnew
          rw [List.contains_iff_mem] at hnew
          refine ih (List.nodup_append.mpr ⟨hout, List.nodup_singleton _, ?_⟩) ?_ h
          · intro a ha b hb hab
            rw [List.mem_singleton.mp hb] at hab
            exact hnew (hab ▸ ha)
          · intro g hg
            rcases List.mem_append.mp hg with hg | hg
            · exact hallowed g hg
            · rw [List.mem_singleton.mp hg]
              exact hoffered

/-- Grants that are offered are read back as they were, in their order. -/
theorem registrableGrants_asStr {config : RegistrationConfig} {grants out : List GrantType}
    (hnodup : (out ++ grants).Nodup) (hallowed : ∀ g ∈ grants, g ∈ config.allowedGrantTypes) :
    registrableGrants config (grants.map GrantType.asStr) out = .ok (out ++ grants) := by
  induction grants generalizing out with
  | nil => rw [List.append_nil]; rfl
  | cons g grants ih =>
    rw [List.forall_mem_cons] at hallowed
    have hnew : ¬ out.contains g = true := by
      rw [List.contains_iff_mem]
      exact fun hg => (List.nodup_append.mp hnodup).2.2 g hg g List.mem_cons_self rfl
    have hoffered : config.allowedGrantTypes.contains g = true := List.contains_iff_mem.mpr hallowed.1
    rw [List.map_cons, registrableGrants, GrantType.parse_asStr]
    simp only [hoffered, Bool.not_true, Bool.false_eq_true, if_false, if_neg hnew]
    rw [ih (by rw [List.append_assoc]; exact hnodup) hallowed.2, List.append_assoc]
    rfl

theorem registrableResponses_ok {usesCode : Bool} {asked : Option (List String)}
    {types : List String} (h : registrableResponses usesCode asked = .ok types) :
    types = responseTypesOf usesCode := by
  unfold registrableResponses at h
  split at h
  · cases h
    rfl
  · split at h
    · cases h
    · split at h
      · cases h
      · rename_i values _ hcorrespond
        cases h
        rw [bne_iff_ne, not_not] at hcorrespond
        rw [hcorrespond]

theorem registrableResponses_echo (usesCode : Bool) :
    registrableResponses usesCode (some (responseTypesOf usesCode)) =
      .ok (responseTypesOf usesCode) := by
  cases usesCode <;> rfl

theorem registrableScope_ok {config : RegistrationConfig} {asked : Option String} {scope : ScopeSet}
    (h : registrableScope config asked = .ok scope) :
    scope.isEmpty = true ∨ scope.isSubset config.allowedScopes = true := by
  unfold registrableScope at h
  split at h
  · cases h
    exact .inl rfl
  · split at h
    · cases h
    · split at h
      · cases h
      · rename_i hsubset
        cases h
        exact .inr (by simpa using hsubset)

/-- A scope that was accepted is read back from the way it is displayed. -/
theorem registrableScope_echo {config : RegistrationConfig} {asked : Option String}
    {scope : ScopeSet} (h : registrableScope config asked = .ok scope) :
    registrableScope config (displayedScope scope) = .ok scope := by
  rw [displayedScope]
  split
  · rename_i hempty
    have hscope : scope = .empty := by
      refine ScopeSet.eq_iff.mpr fun x => ?_
      rw [List.isEmpty_iff.mp hempty]
      rfl
    rw [hscope]
    rfl
  · rename_i hnonempty
    have hsubset := (registrableScope_ok h).resolve_left hnonempty
    simp only [registrableScope, ScopeSet.parse_display, hsubset, Bool.not_true, Bool.false_eq_true,
      if_false]

/-- The grants of a document; one that names none is about codes. -/
def askedGrants (config : RegistrationConfig) :
    Option (List String) → Except RegistrationFailure (List GrantType)
  | none => .ok [.authorizationCode]
  | some values => registrableGrants config values []

/-- The checks that follow once the grants are known. -/
def ClientMetadata.recorded (metadata : ClientMetadata) (config : RegistrationConfig)
    (grants : List GrantType) : Except RegistrationFailure Registered := do
  let responseTypes ← registrableResponses (grants.contains .authorizationCode) metadata.responseTypes
  registrableRedirects (grants.contains .authorizationCode) metadata.redirectUris
  registrableMethod grants (metadata.tokenEndpointAuthMethod.getD authMethodBasic)
  let scope ← registrableScope config metadata.scope
  return ⟨metadata.redirectUris, grants, responseTypes,
    metadata.tokenEndpointAuthMethod.getD authMethodBasic, scope, metadata.clientName⟩

theorem validate_eq {metadata : ClientMetadata} {config : RegistrationConfig}
    (h : metadata.softwareStatement = none) :
    metadata.validate config =
      askedGrants config metadata.grantTypes >>= metadata.recorded config := by
  unfold ClientMetadata.validate
  rw [h]
  cases metadata.grantTypes <;> rfl

/-- What was checked of a document that was accepted. -/
structure ClientMetadata.Valid (metadata : ClientMetadata) (config : RegistrationConfig)
    (r : Registered) : Prop where
  statement : metadata.softwareStatement = none
  grants : askedGrants config metadata.grantTypes = .ok r.grantTypes
  responses : registrableResponses (r.grantTypes.contains .authorizationCode)
    metadata.responseTypes = .ok r.responseTypes
  redirects : registrableRedirects (r.grantTypes.contains .authorizationCode)
    r.redirectUris = .ok ()
  uris : metadata.redirectUris = r.redirectUris
  method : metadata.tokenEndpointAuthMethod.getD authMethodBasic = r.tokenEndpointAuthMethod
  methodOk : registrableMethod r.grantTypes r.tokenEndpointAuthMethod = .ok ()
  scope : registrableScope config metadata.scope = .ok r.scope
  name : metadata.clientName = r.clientName

theorem validate_eq_ok {metadata : ClientMetadata} {config : RegistrationConfig} :
    metadata.validate config = .ok r ↔ metadata.Valid config r := by
  constructor
  · intro h
    have hstatement : metadata.softwareStatement = none := by
      cases hs : metadata.softwareStatement with
      | none => rfl
      | some statement =>
        unfold ClientMetadata.validate at h
        rw [hs] at h
        cases h
    rw [validate_eq hstatement] at h
    obtain ⟨grants, hgrants, h⟩ := except_bind_ok h
    obtain ⟨responses, hresponses, h⟩ := except_bind_ok h
    obtain ⟨⟨⟩, hredirects, h⟩ := except_bind_ok h
    obtain ⟨⟨⟩, hmethod, h⟩ := except_bind_ok h
    obtain ⟨scope, hscope, h⟩ := except_bind_ok h
    cases h
    exact ⟨hstatement, hgrants, hresponses, hredirects, rfl, rfl, hmethod, hscope, rfl⟩
  · rintro ⟨hstatement, hgrants, hresponses, hredirects, huris, hmethod, hmethodOk, hscope, hname⟩
    rw [validate_eq hstatement, hgrants]
    change metadata.recorded config r.grantTypes = _
    simp only [ClientMetadata.recorded, hresponses, hredirects, hmethod, hmethodOk, hscope, huris,
      hname]
    rfl

theorem grants_of_askedGrants {config : RegistrationConfig} {asked : Option (List String)}
    {grants : List GrantType} (h : askedGrants config asked = .ok grants) :
    grants.Nodup ∧ (asked = none ∧ grants = [.authorizationCode] ∨
      ∀ g ∈ grants, g ∈ config.allowedGrantTypes) := by
  cases asked with
  | none =>
    cases h
    exact ⟨List.nodup_singleton _, .inl ⟨rfl, rfl⟩⟩
  | some values =>
    obtain ⟨hnodup, hallowed⟩ := registrableGrants_ok List.nodup_nil (fun _ hg => by cases hg) h
    exact ⟨hnodup, .inr hallowed⟩

/-- Sending back what an accepted document was recorded as gives the same record, if the grants
are offered. -/
theorem validate_metadata {metadata : ClientMetadata} {config : RegistrationConfig}
    (h : metadata.validate config = .ok r)
    (hoffered : metadata.grantTypes = none → .authorizationCode ∈ config.allowedGrantTypes) :
    r.metadata.validate config = .ok r := by
  have hvalid := validate_eq_ok.mp h
  obtain ⟨hnodup, hgrants⟩ := grants_of_askedGrants hvalid.grants
  have hallowed : ∀ g ∈ r.grantTypes, g ∈ config.allowedGrantTypes := by
    rcases hgrants with ⟨hnone, hgrants⟩ | hallowed
    · rw [hgrants]
      exact List.forall_mem_singleton.mpr (hoffered hnone)
    · exact hallowed
  refine validate_eq_ok.mpr ⟨rfl, registrableGrants_asStr hnodup hallowed, ?_, hvalid.redirects, rfl,
    rfl, hvalid.methodOk, registrableScope_echo hvalid.scope, rfl⟩
  rw [Registered.metadata, registrableResponses_ok hvalid.responses]
  exact registrableResponses_echo _

/-- Otherwise it is refused. -/
theorem validate_metadata_error {metadata : ClientMetadata} {config : RegistrationConfig}
    (h : metadata.validate config = .ok r) (hnone : metadata.grantTypes = none)
    (hoffered : .authorizationCode ∉ config.allowedGrantTypes) :
    ∃ refusal, r.metadata.validate config = .error refusal := by
  have hgrants := (validate_eq_ok.mp h).grants
  rw [hnone] at hgrants
  have hcode : config.allowedGrantTypes.contains .authorizationCode = false := by
    rw [Bool.eq_false_iff, ne_eq, List.contains_iff_mem]
    exact hoffered
  rw [validate_eq rfl, Registered.metadata, ← Except.ok.inj hgrants]
  simp only [askedGrants, List.map_cons, registrableGrants, GrantType.parse_asStr, hcode]
  exact ⟨_, rfl⟩

/-! ## Calls -/

namespace Server

variable {client : Client} {registration : DynamicRegistration} {secret : Option String}
  {config : RegistrationConfig} {expiresAt : Option Nat} {info : ClientInformation}
  {registered : Registered}

open Prog Handler

variable {srv : Server} {choice : World → Effect → Choice} {w w' : World} {id : ClientId}
  {token : String}

/-- Who may manage a registration: the holder of its access token. -/
structure Manages (srv : Server) (g : MemoryInner) (id : ClientId) (token : String)
    (config : RegistrationConfig) (client : Client) (registration : DynamicRegistration) : Prop where
  configured : srv.config.registration = some config
  enabled : config.managementEnabled = true
  row : g.clients.lookup id = some client
  dynamic : client.registration = some registration
  verified : srv.host.verifySecretHash registration.registrationAccessTokenHash token = true

theorem exec_registrationAuthFailed {α : Type} {failure : ClientAuthFailure} {attempted : Bool}
    {a : α} : ¬ exec (World.resolved choice) w
      (registrationAuthFailed id failure attempted : Handler RegistrationFailure α).run =
        some (.ok a, w') := by
  intro h
  obtain ⟨⟨⟩, v, -, h⟩ := exec_bind_ok.mp h
  cases attempted with
  | true =>
    obtain ⟨⟨⟩, v', -, h⟩ := exec_bind_ok.mp h
    exact exec_throw_ok h
  | false => exact exec_throw_ok h

theorem manages_of_exec
    (h : exec (World.resolved choice) w (srv.authenticateRegistration id token).run =
      some (.ok (client, registration), w')) :
    (∃ config, srv.Manages w.store id token config client registration) ∧ w'.store = w.store := by
  obtain ⟨config, v, hrequire, h⟩ := exec_bind_ok.mp h
  obtain ⟨hconfig, rfl⟩ := exec_of_exec_require hrequire
  split at h
  · obtain ⟨r, v, hthrow, -⟩ := exec_bind_ok.mp h
    cases exec_throw_ok hthrow
  rename_i henabled
  obtain ⟨decision, v, hcheck, h⟩ := exec_bind_ok.mp h
  have hv := store_of_exec_perform rfl hcheck
  cases decision with
  | deny => cases exec_registrationAuthFailed h
  | allow =>
    obtain ⟨found, v', hget, h⟩ := exec_bind_ok.mp h
    have hget : ((.ok (v.store.clients.lookup id) : Except StorageError _), v.store) =
      (.ok found, v'.store) := (exec_of_exec_storeOr hget).1
    obtain ⟨hrow, hv'⟩ := Prod.mk.inj hget
    cases found with
    | none => cases exec_registrationAuthFailed h
    | some found =>
      simp only at h
      split at h
      · cases exec_registrationAuthFailed h
      · rename_i dynamic hdynamic
        split at h
        · rename_i hverified
          obtain ⟨⟨⟩, u, hrecord, h⟩ := exec_bind_ok.mp h
          have hu := store_of_exec_perform rfl hrecord
          obtain ⟨heq, rfl⟩ := exec_pure_ok.mp h
          cases heq
          refine ⟨⟨config, hconfig, by simpa using henabled, ?_, hdynamic, hverified⟩, ?_⟩
          · rw [← hv]
            exact Except.ok.inj hrow
          · rw [hu, ← hv', hv]
        · cases exec_registrationAuthFailed h

theorem exec_registrationHex {bytes : Nat} {text : String}
    (h : exec (World.resolved choice) w (registrationHex bytes).run = some (.ok text, w')) :
    w'.store = w.store := by
  obtain ⟨drawn, v, hdraw, h⟩ := exec_bind_ok.mp h
  have hv := store_of_exec_perform rfl hdraw
  obtain ⟨hex, u, hrequire, h⟩ := exec_bind_ok.mp h
  obtain ⟨-, rfl⟩ := exec_of_exec_require hrequire
  obtain ⟨-, rfl⟩ := exec_pure_ok.mp h
  exact hv

theorem exec_mintSecret {mint : Bool}
    (h : exec (World.resolved choice) w (mintSecret mint).run = some (.ok secret, w')) :
    secret.isSome = mint ∧ w'.store = w.store := by
  cases mint with
  | true =>
    have hmap : (some <$> registrationHex 32 : Handler RegistrationFailure (Option String)) =
        registrationHex 32 >>= fun text => pure (some text) := rfl
    rw [mintSecret, if_pos rfl, hmap] at h
    obtain ⟨text, v, hhex, h⟩ := exec_bind_ok.mp h
    obtain ⟨rfl, rfl⟩ := exec_pure_ok.mp h
    exact ⟨rfl, exec_registrationHex hhex⟩
  | false =>
    obtain ⟨rfl, rfl⟩ := exec_pure_ok.mp h
    exact ⟨rfl, rfl⟩

/-- Without a new secret the old one's expiry stands, if a secret is still wanted. -/
theorem exec_updatedExpiry {wants : Bool}
    (h : exec (World.resolved choice) w (updatedExpiry config registration wants secret).run =
      some (.ok expiresAt, w')) :
    (secret = none → expiresAt = if wants then registration.clientSecretExpiresAt else none) ∧
      w'.store = w.store := by
  cases secret with
  | none =>
    obtain ⟨rfl, rfl⟩ := exec_pure_ok.mp h
    exact ⟨fun _ => rfl, rfl⟩
  | some secret =>
    refine ⟨?_, ?_⟩
    · rintro ⟨⟩
    simp only [updatedExpiry] at h
    split at h
    · obtain ⟨-, rfl⟩ := exec_pure_ok.mp h
      rfl
    · obtain ⟨now, v, hnow, h⟩ := exec_bind_ok.mp h
      obtain ⟨-, rfl⟩ := exec_pure_ok.mp h
      exact store_of_exec_perform rfl hnow

/-- What an update that was answered made of the record. -/
theorem exec_updateRegistration {metadata : ClientMetadata}
    (h : exec (World.resolved choice) w (srv.updateRegistration id token metadata).run =
      some (.ok info, w')) :
    ∃ config client registration registered secret expiresAt,
      srv.Manages w.store id token config client registration ∧
        metadata.validate config = .ok registered ∧
        Option.isSome secret =
          (wantsSecret registered.tokenEndpointAuthMethod && !client.auth.isConfidential) ∧
        (secret = none → expiresAt =
          if wantsSecret registered.tokenEndpointAuthMethod then registration.clientSecretExpiresAt
          else none) ∧
        w'.store.clients.lookup id =
          some (srv.updatedClient client registration registered secret expiresAt) ∧
        info.metadata = registeredMetadata
          (srv.updatedClient client registration registered secret expiresAt)
          (updatedRegistration registration registered expiresAt) := by
  obtain ⟨⟨client, registration⟩, v, hauth, h⟩ := exec_bind_ok.mp h
  obtain ⟨⟨config, hmanages⟩, hv⟩ := manages_of_exec hauth
  obtain ⟨config', v₁, hrequire, h⟩ := exec_bind_ok.mp h
  obtain ⟨hconfig, rfl⟩ := exec_of_exec_require hrequire
  cases hmanages.configured.symm.trans hconfig
  obtain ⟨decision, v₁, hpolicy, h⟩ := exec_bind_ok.mp h
  have hv₁ := store_of_exec_perform rfl hpolicy
  cases decision with
  | deny =>
    obtain ⟨⟨⟩, v₂, -, h⟩ := exec_bind_ok.mp h
    cases exec_throw_ok h
  | allow =>
    obtain ⟨registered, v₂, hjudge, h⟩ := exec_bind_ok.mp h
    cases hvalid : metadata.validate config with
    | error e =>
      rw [hvalid] at hjudge
      cases exec_throw_ok hjudge
    | ok registered' =>
      rw [hvalid] at hjudge
      obtain ⟨rfl, rfl⟩ := exec_pure_ok.mp hjudge
      obtain ⟨secret, v₃, hmint, h⟩ := exec_bind_ok.mp h
      obtain ⟨hsecret, hv₃⟩ := exec_mintSecret hmint
      obtain ⟨expiresAt, v₄, hexpiry, h⟩ := exec_bind_ok.mp h
      obtain ⟨hexpires, hv₄⟩ := exec_updatedExpiry hexpiry
      obtain ⟨swapped, v₅, hswap, h⟩ := exec_bind_ok.mp h
      have hswap := (exec_of_exec_storeOr hswap).1
      cases swapped with
      | false => cases exec_throw_ok h
      | true =>
        obtain ⟨⟨⟩, v₆, hemit, h⟩ := exec_bind_ok.mp h
        have hv₆ := store_of_exec_perform rfl hemit
        obtain ⟨rfl, rfl⟩ := exec_pure_ok.mp h
        obtain ⟨-, hrow⟩ := lookup_of_swapped hswap
        have hid : client.clientId = id := Table.key_of_lookup hmanages.row
        refine ⟨config, client, registration, registered', secret, expiresAt, hmanages, hvalid,
          hsecret, hexpires, ?_, rfl⟩
        rw [hv₆, ← hid]
        exact hrow

theorem lookup_of_put {g g' : MemoryInner}
    (h : (StorageOp.putClient client).exec g = (.ok (), g')) :
    g'.clients.lookup client.clientId = some client := by
  cases h
  exact Table.lookup_insert_self _ _

/-- What a registration that was answered left in the store. -/
theorem exec_registerDynamicClient {metadata : ClientMetadata} {initialAccessToken : Option String}
    (h : exec (World.resolved choice) w (srv.registerDynamicClient metadata initialAccessToken).run =
      some (.ok info, w')) (htoken : info.registrationAccessToken = some token) :
    ∃ config registered secret issuedAt expiresAt, srv.config.registration = some config ∧
      config.managementEnabled = true ∧ metadata.validate config = .ok registered ∧
      Option.isSome secret = wantsSecret registered.tokenEndpointAuthMethod ∧
      (secret = none → expiresAt = none) ∧
      w'.store.clients.lookup info.clientId =
        some (srv.registeredClient registered info.clientId secret issuedAt expiresAt token) ∧
      info.metadata = registered.metadata := by
  obtain ⟨⟨⟩, v, -, h⟩ := exec_bind_ok.mp h
  obtain ⟨config, v₁, hrequire, h⟩ := exec_bind_ok.mp h
  obtain ⟨hconfig, rfl⟩ := exec_of_exec_require hrequire
  obtain ⟨decision, v₁, -, h⟩ := exec_bind_ok.mp h
  cases decision with
  | deny =>
    obtain ⟨⟨⟩, v₂, -, h⟩ := exec_bind_ok.mp h
    obtain ⟨⟨⟩, v₃, -, h⟩ := exec_bind_ok.mp h
    cases exec_throw_ok h
  | allow =>
    cases hvalid : metadata.validate config with
    | error refusal =>
      simp only [hvalid] at h
      obtain ⟨⟨⟩, v₂, -, h⟩ := exec_bind_ok.mp h
      cases exec_throw_ok h
    | ok registered =>
      simp only [hvalid] at h
      obtain ⟨now, v₂, -, h⟩ := exec_bind_ok.mp h
      obtain ⟨clientId, v₃, -, h⟩ := exec_bind_ok.mp h
      obtain ⟨secret, v₄, hmint, h⟩ := exec_bind_ok.mp h
      obtain ⟨accessToken, v₅, -, h⟩ := exec_bind_ok.mp h
      obtain ⟨⟨⟩, v₆, hput, h⟩ := exec_bind_ok.mp h
      obtain ⟨⟨⟩, v₇, hemit, h⟩ := exec_bind_ok.mp h
      obtain ⟨⟨⟩, v₈, hrecord, h⟩ := exec_bind_ok.mp h
      obtain ⟨rfl, rfl⟩ := exec_pure_ok.mp h
      have hv₇ := store_of_exec_perform rfl hemit
      have hv₈ := store_of_exec_perform rfl hrecord
      have hrow := lookup_of_put (exec_of_exec_storeOr hput).1
      rw [← hv₇, ← hv₈] at hrow
      simp only at htoken
      split at htoken
      · rename_i henabled
        cases htoken
        refine ⟨config, registered, secret, unixSeconds now, _, hconfig, henabled, hvalid,
          (exec_mintSecret hmint).1, ?_, hrow, rfl⟩
        rintro rfl
        rfl
      · cases htoken

/-! ## Records -/

/-- The record says what was registered. -/
structure Records (client : Client) (registration : DynamicRegistration) (registered : Registered) :
    Prop where
  grantTypes : client.grantTypes = registered.grantTypes
  redirectUris : client.redirectUris = registered.redirectUris
  allowedScopes : client.allowedScopes = registered.scope
  defaultScopes : client.defaultScopes = registered.scope
  name : client.name = registered.clientName
  method : registration.tokenEndpointAuthMethod = registered.tokenEndpointAuthMethod
  confidential : client.auth.isConfidential = wantsSecret registered.tokenEndpointAuthMethod
  expires : wantsSecret registered.tokenEndpointAuthMethod = false →
    registration.clientSecretExpiresAt = none

theorem Records.metadata (h : Records client registration registered) {metadata : ClientMetadata}
    (hvalid : metadata.validate config = .ok registered) :
    registeredMetadata client registration = registered.metadata := by
  have hresponses := registrableResponses_ok (validate_eq_ok.mp hvalid).responses
  rw [registeredMetadata, Registered.metadata, Client.allowsGrant, h.grantTypes, h.redirectUris,
    h.allowedScopes, h.name, h.method, hresponses]

variable (srv) in

/-- An update with what is on record rebuilds the record. -/
theorem Records.updatedClient_eq (h : Records client registration registered)
    (hdynamic : client.registration = some registration) :
    srv.updatedClient client registration registered none
      (if wantsSecret registered.tokenEndpointAuthMethod then registration.clientSecretExpiresAt
        else none) = client := by
  have hauth : srv.updatedAuth client (wantsSecret registered.tokenEndpointAuthMethod) none =
      client.auth := by
    refine (srv.updatedAuth_spec ?_).2 h.confidential
    rw [← h.confidential]
    cases client.auth.isConfidential <;> rfl
  have hexpires : (if wantsSecret registered.tokenEndpointAuthMethod then
      registration.clientSecretExpiresAt else none) = registration.clientSecretExpiresAt := by
    split
    · rfl
    · rename_i hwants
      exact (h.expires (by simpa using hwants)).symm
  rw [updatedClient, hauth, hexpires, updatedRegistration, ← h.method, ← h.grantTypes,
    ← h.redirectUris, ← h.name, ← hdynamic]
  nth_rewrite 1 [← h.allowedScopes]
  rw [← h.defaultScopes]

/-! ## What a client was told -/

/-- The client was accepted with `metadata` last, and was told `echo` of it. It registered itself,
read its registration or updated it; in between anything may happen that does not write its
record. -/
inductive Told (srv : Server) :
    World → ClientId → String → ClientMetadata → ClientMetadata → Prop
  | registered {choice : World → Effect → Choice} {w w' : World} {token : String}
      {metadata : ClientMetadata} {initialAccessToken : Option String} {info : ClientInformation}
      (run : exec (World.resolved choice) w
        (srv.registerDynamicClient metadata initialAccessToken).run = some (.ok info, w'))
      (given : info.registrationAccessToken = some token) :
      Told srv w' info.clientId token metadata info.metadata
  | meanwhile {w w' : World} {id : ClientId} {token : String} {metadata echo : ClientMetadata}
      (told : Told srv w id token metadata echo)
      (row : w'.store.clients.lookup id = w.store.clients.lookup id) :
      Told srv w' id token metadata echo
  | read {choice : World → Effect → Choice} {w w' : World} {id : ClientId} {token : String}
      {metadata echo : ClientMetadata} {info : ClientInformation}
      (told : Told srv w id token metadata echo)
      (run : exec (World.resolved choice) w (srv.readRegistration id token).run =
        some (.ok info, w')) :
      Told srv w' id token metadata info.metadata
  | updated {choice : World → Effect → Choice} {w w' : World} {id : ClientId} {token : String}
      {metadata metadata' echo : ClientMetadata} {info : ClientInformation}
      (told : Told srv w id token metadata echo)
      (run : exec (World.resolved choice) w (srv.updateRegistration id token metadata').run =
        some (.ok info, w')) :
      Told srv w' id token metadata' info.metadata

/-- The record is that of the metadata last accepted, and the echo is what is read off it. -/
structure OnRecord (srv : Server) (g : MemoryInner) (id : ClientId) (token : String)
    (metadata echo : ClientMetadata) (config : RegistrationConfig) (client : Client)
    (registration : DynamicRegistration) (registered : Registered) : Prop where
  configured : srv.config.registration = some config
  enabled : config.managementEnabled = true
  row : g.clients.lookup id = some client
  dynamic : client.registration = some registration
  hash : registration.registrationAccessTokenHash = srv.secretHash token
  valid : metadata.validate config = .ok registered
  records : Records client registration registered
  echo : echo = registered.metadata

theorem exec_readRegistration
    (h : exec (World.resolved choice) w (srv.readRegistration id token).run = some (.ok info, w')) :
    w'.store = w.store ∧ ∃ client registration, w.store.clients.lookup id = some client ∧
      client.registration = some registration ∧
      info.metadata = registeredMetadata client registration := by
  obtain ⟨⟨client, registration⟩, v, hauth, h⟩ := exec_bind_ok.mp h
  obtain ⟨⟨config, hmanages⟩, hv⟩ := manages_of_exec hauth
  obtain ⟨config', v₁, hrequire, h⟩ := exec_bind_ok.mp h
  obtain ⟨-, rfl⟩ := exec_of_exec_require hrequire
  obtain ⟨rfl, rfl⟩ := exec_pure_ok.mp h
  exact ⟨hv, client, registration, hmanages.row, hmanages.dynamic, rfl⟩

variable (srv) in

/-- An update puts on record what it was sent. -/
theorem records_updatedClient (hsecret : Option.isSome secret =
      (wantsSecret registered.tokenEndpointAuthMethod && !client.auth.isConfidential))
    (hexpires : secret = none → expiresAt =
      if wantsSecret registered.tokenEndpointAuthMethod then registration.clientSecretExpiresAt
      else none) :
    Records (srv.updatedClient client registration registered secret expiresAt)
      (updatedRegistration registration registered expiresAt) registered := by
  refine ⟨rfl, rfl, rfl, rfl, rfl, rfl, (srv.updatedAuth_spec hsecret).1, fun hwants => ?_⟩
  rw [hwants, Bool.false_and, Option.isSome_eq_false_iff, Option.isNone_iff_eq_none] at hsecret
  have := hexpires hsecret
  rw [hwants] at this
  exact this

/-- A registration puts on record what it was sent. -/
theorem records_registeredClient {issuedAt : Option Nat}
    (hsecret : Option.isSome secret = wantsSecret registered.tokenEndpointAuthMethod)
    (hexpires : secret = none → expiresAt = none) :
    Records (srv.registeredClient registered id secret issuedAt expiresAt token)
      ⟨srv.secretHash token, issuedAt, expiresAt, registered.tokenEndpointAuthMethod⟩ registered := by
  refine ⟨rfl, rfl, rfl, rfl, rfl, rfl, ?_, fun hwants => ?_⟩
  · rw [← hsecret]
    cases secret <;> rfl
  · rw [hwants, Option.isSome_eq_false_iff, Option.isNone_iff_eq_none] at hsecret
    exact hexpires hsecret

theorem onRecord_of_told {metadata echo : ClientMetadata} (h : srv.Told w id token metadata echo) :
    ∃ config client registration registered,
      srv.OnRecord w.store id token metadata echo config client registration registered := by
  induction h with
  | registered run given =>
    obtain ⟨config, registered, secret, issuedAt, expiresAt, hconfig, henabled, hvalid, hsecret,
      hexpires, hrow, hecho⟩ := exec_registerDynamicClient run given
    exact ⟨config, _, _, registered, hconfig, henabled, hrow, rfl, rfl, hvalid,
      records_registeredClient hsecret hexpires, hecho⟩
  | meanwhile told row ih =>
    obtain ⟨config, client, registration, registered, h⟩ := ih
    exact ⟨config, client, registration, registered, { h with row := row.trans h.row }⟩
  | read told run ih =>
    obtain ⟨config, client, registration, registered, h⟩ := ih
    obtain ⟨hstore, client', registration', hrow, hdynamic, hecho⟩ := exec_readRegistration run
    cases h.row.symm.trans hrow
    cases h.dynamic.symm.trans hdynamic
    refine ⟨config, client, registration, registered, { h with
      row := ?_, echo := hecho.trans (h.records.metadata h.valid) }⟩
    rw [hstore]
    exact h.row
  | updated told run ih =>
    obtain ⟨config, client, registration, registered, h⟩ := ih
    obtain ⟨config', client', registration', registered', secret, expiresAt, hmanages, hvalid,
      hsecret, hexpires, hrow, hecho⟩ := exec_updateRegistration run
    cases h.row.symm.trans hmanages.row
    cases h.dynamic.symm.trans hmanages.dynamic
    cases h.configured.symm.trans hmanages.configured
    have hrecords := records_updatedClient srv hsecret hexpires
    exact ⟨config, _, _, registered', h.configured, h.enabled, hrow, rfl, h.hash, hvalid, hrecords,
      hecho.trans (hrecords.metadata hvalid)⟩

/-! ## Sending it back -/

/-- The limiter and the policy allow what is asked. -/
def granted (_ : World) : Effect → Choice
  | .check _ => .decision .allow
  | .authorizeRegistration _ => .registration .allow
  | _ => .none

theorem exec_authenticateRegistration
    (h : srv.Manages w.store id token config client registration) :
    exec (World.resolved granted) w (srv.authenticateRegistration id token).run =
      some (.ok (client, registration), w) := by
  refine exec_bind_ok.mpr ⟨config, w, ?_, ?_⟩
  · rw [h.configured]
    rfl
  · rw [h.enabled]
    refine exec_bind_ok.mpr ⟨.allow, w, rfl, ?_⟩
    refine exec_bind_ok.mpr ⟨some client, w, ?_, ?_⟩
    · refine exec_bind_ok.mpr ⟨.ok (w.store.clients.lookup id), w, rfl, ?_⟩
      rw [h.row]
      rfl
    · simp only [h.dynamic, h.verified, if_true]
      rfl

/-- The record is swapped for itself. -/
theorem exec_compareAndSwapClient_self {g : MemoryInner}
    (h : g.clients.lookup client.clientId = some client) :
    (StorageOp.compareAndSwapClient client client).exec g =
      (.ok true, { g with clients := g.clients.insert client }) := by
  simp [StorageOp.exec, StorageOp.succeeding, MemoryInner.compareAndSwapClient, h]

theorem lookup_insert_of_lookup {t : Table Client.clientId}
    (h : t.lookup client.clientId = some client) (k : ClientId) :
    (t.insert client).lookup k = t.lookup k := by
  rw [Table.lookup_insert]
  split
  · rename_i hk
    rw [← hk, h]
  · rfl

theorem verifySecretHash_secretHash (srv : Server) (secret : String) :
    srv.host.verifySecretHash (srv.secretHash secret) secret = true := by
  simp [Host.verifySecretHash, SecretHash.verify, SecretHash.judge, SecretHash.verifyBuiltin,
    secretHash, SecretHash.sha256]

/-- Sending back what was read off the record is accepted and leaves the record. -/
theorem exec_updateRegistration_echo {metadata echo : ClientMetadata}
    (h : srv.OnRecord w.store id token metadata echo config client registration registered)
    (hoffered : metadata.grantTypes = none → .authorizationCode ∈ config.allowedGrantTypes) :
    ∃ info w', exec (World.resolved granted) w (srv.updateRegistration id token echo).run =
        some (.ok info, w') ∧
      (∀ k, w'.store.clients.lookup k = w.store.clients.lookup k) ∧ info.metadata = echo ∧
      info.clientSecret = none := by
  have hmanages : srv.Manages w.store id token config client registration :=
    ⟨h.configured, h.enabled, h.row, h.dynamic, h.hash ▸ srv.verifySecretHash_secretHash token⟩
  have hvalid : echo.validate config = .ok registered := by
    rw [h.echo]
    exact validate_metadata h.valid hoffered
  have hid : client.clientId = id := Table.key_of_lookup h.row
  have hself : w.store.clients.lookup client.clientId = some client := by
    rw [hid]
    exact h.row
  have hmint : (wantsSecret registered.tokenEndpointAuthMethod && !client.auth.isConfidential) =
      false := by
    rw [h.records.confidential]
    cases wantsSecret registered.tokenEndpointAuthMethod <;> rfl
  have hrebuilt := h.records.updatedClient_eq srv h.dynamic
  let expiresAt := if wantsSecret registered.tokenEndpointAuthMethod then
    registration.clientSecretExpiresAt else none
  let w' : World := { w with store := { w.store with clients := w.store.clients.insert client } }
  refine ⟨srv.clientInformation config id none client
    (updatedRegistration registration registered expiresAt), w', ?_,
    lookup_insert_of_lookup hself, ?_, rfl⟩
  · refine exec_bind_ok.mpr ⟨_, w, exec_authenticateRegistration hmanages, ?_⟩
    refine exec_bind_ok.mpr ⟨config, w, ?_, ?_⟩
    · rw [h.configured]
      rfl
    refine exec_bind_ok.mpr ⟨.allow, w, rfl, ?_⟩
    refine exec_bind_ok.mpr ⟨registered, w, ?_, ?_⟩
    · rw [hvalid]
      rfl
    refine exec_bind_ok.mpr ⟨none, w, ?_, ?_⟩
    · rw [hmint]
      rfl
    refine exec_bind_ok.mpr ⟨expiresAt, w, rfl, ?_⟩
    rw [hrebuilt]
    refine exec_bind_ok.mpr ⟨true, w', ?_, rfl⟩
    refine exec_bind_ok.mpr ⟨.ok true, w', ?_, rfl⟩
    refine exec_performE_ok.mpr ?_
    simp only [World.resolved, World.perform, granted, exec_compareAndSwapClient_self hself]
    rfl
  · have hrecords : Records (srv.updatedClient client registration registered none expiresAt)
        (updatedRegistration registration registered expiresAt) registered :=
      records_updatedClient srv hmint.symm fun _ => rfl
    rw [hrebuilt] at hrecords
    rw [h.echo]
    exact hrecords.metadata h.valid

end Server

/-- A client that sends back what it was told is accepted and changes nothing, exactly if its last
accepted document named its grants or codes are offered to registrants. -/
theorem echo_is_fixed_iff {srv : Server} {w : World} {id : ClientId} {token : String}
    {metadata echo : ClientMetadata} (htold : srv.Told w id token metadata echo) :
    (∃ info w', Prog.exec (World.resolved Server.granted) w
        (srv.updateRegistration id token echo).run = some (.ok info, w') ∧
      (∀ k, w'.store.clients.lookup k = w.store.clients.lookup k) ∧ info.metadata = echo ∧
      info.clientSecret = none) ↔
      (metadata.grantTypes = none → ∃ config, srv.config.registration = some config ∧
        .authorizationCode ∈ config.allowedGrantTypes) := by
  obtain ⟨config, client, registration, registered, h⟩ := Server.onRecord_of_told htold
  constructor
  · rintro ⟨info, w', hrun, -⟩ hnone
    obtain ⟨config', _, _, registered', _, _, hmanages, hvalid, -⟩ :=
      Server.exec_updateRegistration hrun
    cases h.configured.symm.trans hmanages.configured
    refine ⟨config, h.configured, Classical.byContradiction fun hoffered => ?_⟩
    obtain ⟨refusal, hrefused⟩ := validate_metadata_error h.valid hnone hoffered
    rw [h.echo, hrefused] at hvalid
    cases hvalid
  · intro hoffered
    refine Server.exec_updateRegistration_echo h fun hnone => ?_
    obtain ⟨config', hconfig, hcode⟩ := hoffered hnone
    cases h.configured.symm.trans hconfig
    exact hcode

namespace Sample

/-- A client that says where to send codes, and nothing of its grants. -/
def terse : ClientMetadata :=
  ⟨["https://app.example/cb"], none, none, none, some "App", none, none⟩

/-- A deployment that offers these grants to registrants. -/
def offering (grants : List GrantType) : Server :=
  ⟨{ config with registration := some { RegistrationConfig.new with allowedGrantTypes := grants } },
    enrolling.host⟩

/-- A new string at every draw; everything is allowed. -/
def drawing (w : World) : Effect → Choice
  | .randomHex bytes => .hex (some (hex bytes (Fin.ofNat 10 (w.used.length + 1))).text)
  | e => Server.granted w e

def enrolledBy (srv : Server) : Option (Except RegistrationFailure ClientInformation × World) :=
  Prog.exec (World.resolved drawing) (.initial 0) (srv.registerDynamicClient terse none).run

end Sample

theorem echo_is_fixed_terse :
    ∃ info w token, enrolledBy (offering [.authorizationCode]) = some (.ok info, w) ∧
      info.registrationAccessToken = some token ∧
      ∃ info' w', Prog.exec (World.resolved Server.granted) w
          ((offering [.authorizationCode]).updateRegistration info.clientId token info.metadata).run =
            some (.ok info', w') ∧
        (∀ k, w'.store.clients.lookup k = w.store.clients.lookup k) ∧
        info'.metadata = info.metadata ∧ info'.clientSecret = none := by
  have hrun : (enrolledBy (offering [.authorizationCode])).any
      (endsWell fun info _ => info.registrationAccessToken.isSome) = true := by
    decide +kernel
  obtain ⟨⟨result, w⟩, hresult, hok⟩ := (Option.any_eq_true _ _).mp hrun
  cases result with
  | error e => cases hok
  | ok info =>
    obtain ⟨token, htoken⟩ := Option.isSome_iff_exists.mp hok
    refine ⟨info, w, token, hresult, htoken,
      (echo_is_fixed_iff (.registered hresult htoken)).mpr ?_⟩
    exact fun _ => ⟨_, rfl, List.mem_singleton.mpr rfl⟩

/-- Where registrants are offered another grant only, a client is registered for codes as long as it
does not say so; when it sends back what it was told, it is refused. -/
theorem echo_refused :
    ∃ info w token refusal w', enrolledBy (offering [.clientCredentials]) = some (.ok info, w) ∧
      info.registrationAccessToken = some token ∧
      Prog.exec (World.resolved Server.granted) w
        ((offering [.clientCredentials]).updateRegistration info.clientId token info.metadata).run =
          some (.error refusal, w') := by
  have hrun : (enrolledBy (offering [.clientCredentials])).any (endsWell fun info w =>
      info.registrationAccessToken.any fun token => (Prog.exec (World.resolved Server.granted) w
        ((offering [.clientCredentials]).updateRegistration info.clientId token
          info.metadata).run).any fun outcome => !endsWell (fun _ _ => true) outcome) = true := by
    decide +kernel
  obtain ⟨⟨result, w⟩, hresult, hok⟩ := (Option.any_eq_true _ _).mp hrun
  cases result with
  | error e => cases hok
  | ok info =>
    obtain ⟨token, htoken, hok⟩ := (Option.any_eq_true _ _).mp hok
    obtain ⟨⟨result', w'⟩, hresult', hok⟩ := (Option.any_eq_true _ _).mp hok
    cases result' with
    | error refusal => exact ⟨info, w, token, refusal, w', hresult, htoken, hresult'⟩
    | ok info' => cases hok

end OauthAs
