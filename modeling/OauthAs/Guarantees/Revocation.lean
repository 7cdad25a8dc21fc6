-- SUMMARY: What a client's revocation request leaves of the store, whatever its hint and however often it is made.
import OauthAs.Guarantees.Disclosure

/-!
# Revocation requests

A string names at most one token. A revocation request looks it up among the refresh tokens and
among the access tokens, in an order that the hint decides, and undoes what it finds of the
caller's own: an access token alone, a refresh token with its whole family. Nothing it leaves
behind answers to the string any more, so asking again finds nothing.
-/

namespace OauthAs

/-! ## What is left -/

/-- No string is both an access token and a refresh token. -/
def MemoryInner.Unambiguous (g : MemoryInner) : Prop :=
  ∀ token, g.tokens.lookup token = none ∨ g.refresh.lookup token = none

/-- Nothing of this client answers to the string. -/
def MemoryInner.NotOwn (g : MemoryInner) (client : Client) (token : String) : Prop :=
  (∀ t, g.tokens.lookup token = some t → t.clientId ≠ client.clientId) ∧
    ∀ r, g.refresh.lookup token = some r → r.clientId ≠ client.clientId

namespace Server

open Prog Handler

variable {srv : Server} {limit : Attempt → RateLimitDecision} {w w' : World} {client : Client}
  {token : String}

/-- The window a barrier recorded now would have. -/
def windowAt (srv : Server) (w : World) : RevocationWindow :=
  ⟨w.clock, srv.deadline w.clock srv.config.longestLifetime⟩

/-- The store once the family is revoked and the presented token taken. -/
def familyRevoked (srv : Server) (w : World) (familyId token : String) : MemoryInner :=
  (((StorageOp.revokeTokenFamily familyId (srv.windowAt w)).exec w.store).2.takeRefreshToken token).2

/-- What is left once the string was looked up among both kinds of token. -/
def afterRevocation (srv : Server) (w : World) (client : Client) (token : String) : World :=
  match w.store.refresh.lookup token with
  | some record =>
    if record.clientId = client.clientId then
      { w with store := srv.familyRevoked w record.familyId token }
    else w
  | none =>
    match w.store.tokens.lookup token with
    | some t =>
      if t.clientId = client.clientId then { w with store := w.store.deleteToken token } else w
    | none => w

/-- Whether the string is a refresh token of the client's, and what the attempt leaves. -/
def triedRefresh (srv : Server) (w : World) (client : Client) (token : String) : Bool × World :=
  match w.store.refresh.lookup token with
  | some record =>
    if record.clientId ≠ client.clientId then (false, w)
    else (true, { w with store := srv.familyRevoked w record.familyId token })
  | none => (false, w)

/-- Whether the string is an access token of the client's, and what the attempt leaves. -/
def triedAccess (w : World) (client : Client) (token : String) : Bool × World :=
  match w.store.tokens.lookup token with
  | some t =>
    if t.clientId ≠ client.clientId then (false, w)
    else (true, { w with store := w.store.deleteToken token })
  | none => (false, w)

theorem exec_tryRefresh (limit : Attempt → RateLimitDecision) :
    exec (World.alone limit) w (srv.tryRefresh client token).run =
      some (.ok (srv.triedRefresh w client token).1, (srv.triedRefresh w client token).2) := by
  have hget : w.alone limit (.storage (.getRefreshToken token)) =
      some (.ok (w.store.refresh.lookup token), w) := rfl
  change exec (World.alone limit) w (.call (.storage (.getRefreshToken token)) _) = _
  simp only [exec, hget, triedRefresh]
  cases w.store.refresh.lookup token with
  | none => rfl
  | some record =>
    change exec (World.alone limit) w (ExceptT.run (if record.clientId ≠ client.clientId then _ else _)) = _
    simp only
    split <;> rfl

theorem exec_tryAccess (limit : Attempt → RateLimitDecision) :
    exec (World.alone limit) w (tryAccess client token).run =
      some (.ok (triedAccess w client token).1, (triedAccess w client token).2) := by
  have hget : w.alone limit (.storage (.getToken token)) =
      some (.ok (w.store.tokens.lookup token), w) := rfl
  change exec (World.alone limit) w (.call (.storage (.getToken token)) _) = _
  simp only [exec, hget, triedAccess]
  cases w.store.tokens.lookup token with
  | none => rfl
  | some t =>
    change exec (World.alone limit) w (ExceptT.run (if t.clientId ≠ client.clientId then _ else _)) = _
    simp only
    split <;> rfl

theorem exec_orElse {first second : Handler ErrorResponse Bool} {found found' : Bool} {w'' : World}
    (h : exec (World.alone limit) w first.run = some (.ok found, w'))
    (h' : exec (World.alone limit) w' second.run = some (.ok found', w'')) :
    exec (World.alone limit) w (orElse first second).run =
      some (.ok (), if found then w' else w'') := by
  have hrun : (orElse first second).run = first.run.bind (ExceptT.bindCont fun found =>
      if found then pure () else do
        let _ ← second
        pure ()) := rfl
  have hsecond : (do let _ ← second; pure () : Handler ErrorResponse Unit).run =
      second.run.bind (ExceptT.bindCont fun _ => pure ()) := rfl
  rw [hrun, exec_bind, h]
  cases found with
  | true => rfl
  | false =>
    change exec (World.alone limit) w' (do let _ ← second; pure () : Handler ErrorResponse Unit).run = _
    rw [hsecond, exec_bind, h']
    rfl

/-- In whichever order the string is looked up, the same is left. -/
theorem tried_eq_afterRevocation (srv : Server) (client : Client) (h : w.store.Unambiguous) :
    (if (triedAccess w client token).1 then (triedAccess w client token).2
      else (srv.triedRefresh (triedAccess w client token).2 client token).2) =
        srv.afterRevocation w client token ∧
      (if (srv.triedRefresh w client token).1 then (srv.triedRefresh w client token).2
        else (triedAccess (srv.triedRefresh w client token).2 client token).2) =
          srv.afterRevocation w client token := by
  unfold triedAccess triedRefresh afterRevocation
  rcases h token with hnone | hnone
  · cases hfound : w.store.refresh.lookup token with
    | none => simp [hnone, hfound]
    | some record => by_cases hown : record.clientId = client.clientId <;> simp [hnone, hfound, hown]
  · cases hfound : w.store.tokens.lookup token with
    | none => simp [hnone, hfound]
    | some t => by_cases hown : t.clientId = client.clientId <;> simp [hnone, hfound, hown]

/-! ## Authentication first -/

/-- Authentication lets in the client that was named and changes nothing but the ids kept against
replays. -/
theorem authenticates_keeps {clientId : ClientId} {cred : ClientCredential}
    (h : exec (World.alone limit) w (srv.authenticateClient clientId cred).run =
      some (.ok client, w')) :
    client.clientId = clientId ∧
      ∃ ids, w' = { w with store := { w.store with replayIds := ids } } := by
  obtain ⟨hclient, hids⟩ := exec_authenticateClient (fun _ _ _ _ h => ⟨_, h⟩) h
  exact ⟨hclient client rfl, hids⟩

theorem exec_revokeWithCredential {clientId : ClientId} {cred : ClientCredential}
    (hkeys : w.store.Unambiguous)
    (h : exec (World.alone limit) w (srv.authenticateClient clientId cred).run =
      some (.ok client, w')) (hint : Option TokenTypeHint) :
    exec (World.alone limit) w (srv.revokeWithCredential clientId cred token hint).run =
      some (.ok (), srv.afterRevocation w' client token) := by
  have hrun : (srv.revokeWithCredential clientId cred token hint).run =
      (srv.authenticateClient clientId cred).run.bind _ := rfl
  obtain ⟨-, ids, hw'⟩ := authenticates_keeps h
  have hkeys' : w'.store.Unambiguous := by
    rw [hw']
    exact hkeys
  obtain ⟨haccess, hrefresh⟩ := tried_eq_afterRevocation srv client hkeys'
  rw [hrun, exec_bind, h]
  cases hint with
  | none => exact (exec_orElse (exec_tryRefresh limit) (exec_tryAccess limit)).trans (by rw [hrefresh])
  | some hint =>
    cases hint with
    | accessToken =>
      exact (exec_orElse (exec_tryAccess limit) (exec_tryRefresh limit)).trans (by rw [haccess])
    | refreshToken =>
      exact (exec_orElse (exec_tryRefresh limit) (exec_tryAccess limit)).trans (by rw [hrefresh])

/-! ## What a revocation leaves -/

theorem afterRevocation_of_notOwn (h : w.store.NotOwn client token) :
    srv.afterRevocation w client token = w := by
  unfold afterRevocation
  split
  · rename_i record hrecord
    rw [if_neg (h.2 record hrecord)]
  · split
    · rename_i t ht
      rw [if_neg (h.1 t ht)]
    · rfl

theorem tables_revokeTokenFamily (g : MemoryInner) (familyId : String) (window : RevocationWindow) :
    g.tokens.Shrinks ((StorageOp.revokeTokenFamily familyId window).exec g).2.tokens ∧
      g.refresh.Shrinks ((StorageOp.revokeTokenFamily familyId window).exec g).2.refresh := by
  cases hempty : familyId.isEmpty with
  | true =>
    rw [StorageOp.exec_revokeTokenFamily_empty hempty]
    exact ⟨.refl _, .refl _⟩
  | false =>
    rw [StorageOp.exec_revokeTokenFamily hempty]
    exact ⟨⟨_, rfl⟩, ⟨_, rfl⟩⟩

theorem lookup_of_shrinks {K V : Type} {key : V → K} [DecidableEq K] {t u : Table key}
    (h : t.Shrinks u) {k : K} (hk : t.lookup k = none) : u.lookup k = none := by
  obtain ⟨p, rfl⟩ := h
  rw [Table.lookup_retain, hk]
  rfl

/-- A string that names nothing names nothing afterwards. -/
theorem lookup_afterRevocation (k : String) :
    (w.store.tokens.lookup k = none →
        (srv.afterRevocation w client token).store.tokens.lookup k = none) ∧
      (w.store.refresh.lookup k = none →
        (srv.afterRevocation w client token).store.refresh.lookup k = none) := by
  unfold afterRevocation
  split
  · rename_i record hrecord
    split
    · obtain ⟨htokens, hrefresh⟩ := tables_revokeTokenFamily w.store record.familyId (srv.windowAt w)
      refine ⟨lookup_of_shrinks htokens, fun hk => ?_⟩
      change (Table.erase _ token).lookup k = none
      rw [Table.lookup_erase, lookup_of_shrinks hrefresh hk, ite_self]
    · exact ⟨id, id⟩
  · split
    · split
      · refine ⟨fun hk => ?_, id⟩
        change (Table.erase _ token).lookup k = none
        rw [Table.lookup_erase, hk, ite_self]
      · exact ⟨id, id⟩
    · exact ⟨id, id⟩

theorem unambiguous_afterRevocation (h : w.store.Unambiguous) :
    (srv.afterRevocation w client token).store.Unambiguous := fun k =>
  (h k).imp (lookup_afterRevocation k).1 (lookup_afterRevocation k).2

/-- Afterwards nothing of the caller's answers to the string. -/
theorem notOwn_afterRevocation (srv : Server) (client : Client) (token : String)
    (h : w.store.Unambiguous) :
    (srv.afterRevocation w client token).store.NotOwn client token := by
  cases hrecord : w.store.refresh.lookup token with
  | some record =>
    have htoken : w.store.tokens.lookup token = none :=
      (h token).resolve_right (by rw [hrecord]; exact Option.some_ne_none record)
    refine ⟨fun t ht => ?_, fun r hr => ?_⟩
    · rw [(lookup_afterRevocation token).1 htoken] at ht
      cases ht
    · simp only [afterRevocation, hrecord] at hr
      split at hr
      · rw [familyRevoked, MemoryInner.takeRefreshToken, Table.lookup_erase_self] at hr
        cases hr
      · rename_i hother
        rw [hrecord] at hr
        cases hr
        exact hother
  | none =>
    refine ⟨fun t ht => ?_, fun r hr => ?_⟩
    · simp only [afterRevocation, hrecord] at ht
      cases htoken : w.store.tokens.lookup token with
      | none =>
        simp only [htoken] at ht
        cases ht
      | some t' =>
        simp only [htoken] at ht
        split at ht
        · rw [MemoryInner.deleteToken, Table.lookup_erase_self] at ht
          cases ht
        · rename_i hother
          rw [htoken] at ht
          cases ht
          exact hother
    · rw [(lookup_afterRevocation token).2 hrecord] at hr
      cases hr

/-- The family of a refresh token that its owner revokes is gone, and barred. -/
theorem family_afterRevocation {record : RefreshTokenRecord}
    (hrecord : w.store.refresh.lookup token = some record)
    (hown : record.clientId = client.clientId) (hfamily : record.familyId ≠ "") :
    (∀ t ∈ (srv.afterRevocation w client token).store.tokens, t.familyId ≠ some record.familyId) ∧
      (∀ r ∈ (srv.afterRevocation w client token).store.refresh, r.familyId ≠ record.familyId) ∧
      ((srv.afterRevocation w client token).store.barrierAt (.tokenFamily record.familyId)).isSome =
        true := by
  have hempty : record.familyId.isEmpty = false := by simpa using hfamily
  simp only [afterRevocation, hrecord, if_pos hown, familyRevoked, MemoryInner.takeRefreshToken,
    StorageOp.exec_revokeTokenFamily hempty]
  refine ⟨fun t ht => ?_, fun r hr => ?_, ?_⟩
  · simpa using (Table.mem_retain.mp ht).2
  · simpa using (Table.mem_retain.mp (Table.mem_erase.mp hr).1).2
  · have hbarrier : (w.store.recordBarrier (.tokenFamily record.familyId)
        (srv.windowAt w).recordedAt (srv.windowAt w).until_).barrierAt
          (.tokenFamily record.familyId) = BarrierTimes.mergeInto
            (w.store.barrierAt (.tokenFamily record.familyId)) (srv.windowAt w).recordedAt
              (srv.windowAt w).until_ := by
      rw [MemoryInner.barrierAt_recordBarrier, if_pos rfl]
    refine (congrArg Option.isSome hbarrier).trans ?_
    cases w.store.barrierAt (.tokenFamily record.familyId) <;> rfl

end Server

/-- What a revocation request comes to, once its client is authenticated. Every hint leaves the
same world. A request made again, with whatever credential and hint and at whatever time, leaves
what its own authentication left. A string that names nothing of the caller's changes nothing. And a
refresh token of the caller's takes its family with it and leaves a barrier, unless the store
cannot name the family. -/
theorem revocation_is_final {srv : Server} {limit : Attempt → RateLimitDecision} {w w₁ : World}
    {clientId : ClientId} {cred : ClientCredential} {client : Client} (token : String)
    (hkeys : w.store.Unambiguous)
    (hauth : Prog.exec (World.alone limit) w (srv.authenticateClient clientId cred).run =
      some (.ok client, w₁)) :
    (∃ ids, w₁ = { w with store := { w.store with replayIds := ids } }) ∧ ∃ w₂ : World,
      (∀ hint, Prog.exec (World.alone limit) w
        (srv.revokeWithCredential clientId cred token hint).run = some (.ok (), w₂)) ∧
      (∀ (limit' : Attempt → RateLimitDecision) (v v₁ : World) (cred' : ClientCredential)
        (client' : Client) (hint : Option TokenTypeHint), v.store = w₂.store →
        Prog.exec (World.alone limit') v (srv.authenticateClient clientId cred').run =
          some (.ok client', v₁) →
        (∃ ids, v₁ = { v with store := { v.store with replayIds := ids } }) ∧
          Prog.exec (World.alone limit') v
            (srv.revokeWithCredential clientId cred' token hint).run = some (.ok (), v₁)) ∧
      (w.store.NotOwn client token → w₂ = w₁) ∧
      ∀ record, w.store.refresh.lookup token = some record → record.clientId = client.clientId →
        record.familyId ≠ "" →
        (∀ t ∈ w₂.store.tokens, t.familyId ≠ some record.familyId) ∧
          (∀ r ∈ w₂.store.refresh, r.familyId ≠ record.familyId) ∧
          (w₂.store.barrierAt (.tokenFamily record.familyId)).isSome = true := by
  obtain ⟨hid, ids, hw₁⟩ := Server.authenticates_keeps hauth
  have hkeys₁ : w₁.store.Unambiguous := by
    rw [hw₁]
    exact hkeys
  refine ⟨⟨ids, hw₁⟩, srv.afterRevocation w₁ client token,
    Server.exec_revokeWithCredential hkeys hauth, ?_, ?_, ?_⟩
  · intro limit' v v₁ cred' client' hint hstore hauth'
    obtain ⟨hid', ids', hv₁⟩ := Server.authenticates_keeps hauth'
    have hkeys' : v.store.Unambiguous := by
      rw [hstore]
      exact Server.unambiguous_afterRevocation hkeys₁
    have hnotOwn : v₁.store.NotOwn client' token := by
      have hleft := Server.notOwn_afterRevocation srv client token hkeys₁
      rw [← hstore] at hleft
      unfold MemoryInner.NotOwn at hleft ⊢
      rw [hv₁, hid', ← hid]
      exact hleft
    refine ⟨⟨ids', hv₁⟩, ?_⟩
    rw [Server.exec_revokeWithCredential hkeys' hauth', Server.afterRevocation_of_notOwn hnotOwn]
  · intro hnotOwn
    refine Server.afterRevocation_of_notOwn ?_
    rw [hw₁]
    exact hnotOwn
  · intro record hrecord
    refine Server.family_afterRevocation ?_
    rw [hw₁]
    exact hrecord

namespace Sample

/-- A client with a session: an access token and a refresh token of one family. -/
def session : World :=
  { World.initial 0 with store := { MemoryInner.empty with
    clients := Table.empty.insert app
    tokens := Table.empty.insert
      { IssuedToken.new "access" "app" none .empty 0 10 with familyId := some "family" }
    refresh := Table.empty.insert (.new "refresh" "app" none .empty "family") } }

theorem session_unambiguous : session.store.Unambiguous := by
  intro token
  by_cases htoken : token = "access"
  · exact .inr (by rw [htoken]; rfl)
  · refine .inl ?_
    change Table.lookup (Table.insert _ _) token = none
    rw [Table.lookup_insert, if_neg fun heq => htoken heq.symm]
    rfl

theorem session_authenticates :
    Prog.exec (World.alone fun _ => .allow) session
      (server.authenticateClient "app" (.secret none)).run = some (.ok app, session) := rfl

end Sample

open Sample in
/-- The client logs out with its refresh token. -/
theorem revocation_is_final_session :
    ∃ w₂ : World, (∀ hint, Prog.exec (World.alone fun _ => .allow) session
        (server.revokeWithCredential "app" (.secret none) "refresh" hint).run = some (.ok (), w₂)) ∧
      (∀ t ∈ w₂.store.tokens, t.familyId ≠ some "family") ∧
      (w₂.store.barrierAt (.tokenFamily "family")).isSome = true := by
  obtain ⟨-, w₂, hhint, -, -, hfamily⟩ :=
    revocation_is_final "refresh" session_unambiguous session_authenticates
  obtain ⟨htokens, -, hbarrier⟩ := hfamily _ rfl rfl (by decide)
  exact ⟨w₂, hhint, htokens, hbarrier⟩

end OauthAs
