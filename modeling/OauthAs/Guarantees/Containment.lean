-- SUMMARY: A revoked family stays empty: reuse detection and revocation against every concurrent rotation.
import OauthAs.Guarantees.Chain

/-!
# Containment

A request that revokes a family leaves a barrier, and while the barrier stands nothing of the
family can be in the store, whatever concurrent rotations still had to write. So the question for
every containment is only whether the family was really revoked, and for that it has to be found:
reuse detection holds the record it was shown, but a revocation looks the string up, and a strict
rotation may just then have the record in its hands.
-/

namespace OauthAs

open Sample

/-! ## Standing barriers -/

/-- Once a barrier of the family stands, it stays. -/
def Unswept (f : String) (s : State) (_ : Move) (s' : State) : Prop :=
  (s.world.store.barrierAt (.tokenFamily f)).isSome = true →
    (s'.world.store.barrierAt (.tokenFamily f)).isSome = true

instance (f : String) (s : State) (a : Move) (s' : State) : Decidable (Unswept f s a s') :=
  inferInstanceAs (Decidable (_ → _))

section Barriers
variable {srv : Server} {w w' : World} {ls ls' : List Ledger} {l : Ledger} {f : String}

/-- Nothing stored is ever covered by a standing barrier. -/
theorem unrevoked_turns (ht : srv.Turns w ls w' ls') (h : w.store.Unrevoked) :
    w'.store.Unrevoked := by
  cases ht with
  | stored i l op a g hi may exec =>
    have hstore := StorageOp.unrevoked_exec h (Ledger.keepsGrant_of_mayStore may)
    rwa [exec] at hstore
  | sweep now =>
    exact StorageOp.unrevoked_exec h (show (StorageOp.sweepExpired now).KeepsGrant from trivial)
  | spawn q => exact h
  | draws i l e hi first fresh => exact h
  | aside i l l' w' hi aside store used identifier => rwa [store]
  | alone w' store used => rwa [store]

theorem Server.unrevoked {ok} {clock : SystemTime} {s : State}
    (h : srv.Runs ok clock s) : s.world.store.Unrevoked :=
  Discipline.invariant (D := srv.discipline) (I := fun w _ => w.store.Unrevoked) h
    StorageOp.unrevoked_empty fun _ _ _ _ hI hl => unrevoked_turns (moves_of_ledgerStep hl).turns hI

/-- A call adds a family to the revoked ones by revoking it, which leaves its barrier. -/
theorem revoked_stored {op : StorageOp} {a : op.Result} {g g' : MemoryInner}
    (hexec : op.exec g = (.ok a, g')) (h : f ∈ (l.stored op a).chain.revoked) :
    f ∈ l.chain.revoked ∨ (g'.barrierAt (.tokenFamily f)).isSome = true := by
  cases op with
  | revokeTokenFamily f' window =>
    rcases List.mem_cons.mp h with rfl | h
    · have hne : f.isEmpty = false := by
        cases hempty : f.isEmpty with
        | false => rfl
        | true =>
          obtain ⟨e, he⟩ := StorageOp.rejectEmptyScope_of_isEmpty "family_id" hempty
          simp only [StorageOp.exec, MemoryInner.revokeTokenFamily, he] at hexec
          cases hexec
      have hbarrier : (StorageOp.exec g (.revokeTokenFamily f window)).2.barrierAt (.tokenFamily f) = _ :=
        StorageOp.barrierAt_exec rfl _
      simp only [hexec, StorageOp.recorded, hne, Bool.false_eq_true, if_false, if_true] at hbarrier
      rw [hbarrier]
      unfold BarrierTimes.mergeInto
      exact .inr (by split <;> rfl)
    · exact .inl h
  | putRefreshToken r =>
    cases a with
    | applied =>
      have := (Ledger.put_keeps l.chain r).2.2.2
      exact .inl (this ▸ h)
    | refusedRevoked => exact .inl h
  | _ => first | exact .inl h | (cases a <;> exact .inl h)

/-- While no barrier of the family is swept, the barriers of the requests from `n` on stand. -/
theorem standing_of_revoked {n j : Nat} {s s' : State} (hF : srv.discipline.Follows s)
    (h : srv.semantics.Reaches (Unswept f) s s')
    (hstart : ∀ j l, n ≤ j → (srv.discipline.ledgers s)[j]? = some l → f ∉ l.chain.revoked)
    (hnj : n ≤ j) (hj : (srv.discipline.ledgers s')[j]? = some l) (hrevoked : f ∈ l.chain.revoked) :
    (s'.world.store.barrierAt (.tokenFamily f)).isSome = true := by
  have hall := Discipline.invariant_of (D := srv.discipline)
    (I := fun w ls => ∀ j l, n ≤ j → ls[j]? = some l → f ∈ l.chain.revoked →
      (w.store.barrierAt (.tokenFamily f)).isSome = true) h hF
    (fun j l hnj hj hrev => absurd hrev (hstart j l hnj hj)) ?_
  · exact hall j l hnj hj hrevoked
  intro s a s' hI hok hstep j l hnj hj hrev
  have hold : ∀ l, (srv.discipline.ledgers s)[j]? = some l → f ∈ l.chain.revoked →
      (s'.world.store.barrierAt (.tokenFamily f)).isSome = true :=
    fun l hj hrev => hok (hI j l hnj hj hrev)
  cases (Server.moves_of_ledgerStep hstep).turns.turned_at hj with
  | same l hl | draws l e hl first fresh => exact hold l hl hrev
  | start q => cases hrev
  | stored l op a hl may exec => exact (revoked_stored exec hrev).elim (hold l hl) id
  | aside l l' hl aside => exact hold l hl (aside.chain ▸ hrev)

/-- Nothing of a family is in the store while its barrier stands. -/
theorem MemoryInner.Unrevoked.family {g : MemoryInner} (h : g.Unrevoked)
    (hf : (g.barrierAt (.tokenFamily f)).isSome = true) :
    (∀ t ∈ g.tokens, t.familyId ≠ some f) ∧ ∀ r ∈ g.refresh, r.familyId ≠ f := by
  refine ⟨fun t ht hfam => ?_, fun r hr hfam => ?_⟩
  · rw [(h.tokens t ht).family f hfam] at hf
    cases hf
  · rw [(h.refresh r hr).family f (by rw [hfam])] at hf
    cases hf

end Barriers

/-! ## Reuse detection -/

section Reuse
variable {srv : Server}

/-- A detected reuse kills the family: while its barrier is not swept, no access token and no
refresh record of the family is in the store, whatever the concurrent requests were doing. -/
theorem reuse_detection_contains {clock : SystemTime} {s : State} {t : Call}
    {clientId f : String} {n : Nat}
    (h : srv.semantics.Reaches (Unswept f) (State.idle (.initial clock)) s) (ht : t ∈ s.threads)
    (hreport : t.Did (.emit (.refreshTokenReuseDetected clientId f n false)) ()) :
    (∀ token ∈ s.world.store.tokens, token.familyId ≠ some f) ∧
      ∀ r ∈ s.world.store.refresh, r.familyId ≠ f := by
  have hrevoked : f ∈ (srv.discipline.ledger t).chain.revoked :=
    Server.holds_of_did (Φ := fun l => f ∈ l.chain.revoked) h ht hreport
      (fun _ hallowed => hallowed) fun hg hl => hg.revoked hl
  obtain ⟨j, hj⟩ := List.mem_iff_getElem?.mp ht
  have hstands := standing_of_revoked (n := 0) Discipline.follows_of_idle h
    (fun j l _ hj => nomatch hj) (Nat.zero_le j) (Discipline.ledgers_getElem? hj) hrevoked
  exact (Server.unrevoked h).family hstands

/-- A spent token is presented again while a rotation of its successor has that record in its
hands. -/
def Sample.reuse : List Move :=
  redeemed 1 ++ rotates 3 (refreshing (entropy 1).refresh.text) 2 ++
    admits 4 (.refreshToken (refreshing (entropy 2).refresh.text)) ++ go 4 1 ++
    admits 5 (.refreshToken (refreshing (entropy 1).refresh.text)) ++ go 5 4 ++ go 4 2

/-- The rotation's write is refused and the family is gone. -/
theorem reuse_detection_contains_rotation :
    ∃ (s : State) (t : Call), server.semantics.runChecked
        (fun s a s' => Unswept (entropy 1).family.text s a s') (State.idle (.initial 0)) reuse =
        some s ∧ s.Settled ∧ t ∈ s.threads ∧
      t.Did (.emit (.refreshTokenReuseDetected "app" (entropy 1).family.text 2 false)) () ∧
      (∀ token ∈ s.world.store.tokens, token.familyId ≠ some (entropy 1).family.text) ∧
      ∀ r ∈ s.world.store.refresh, r.familyId ≠ (entropy 1).family.text := by
  obtain ⟨s, hs, hsettled, t, ht, hdid⟩ : ∃ s ∈ server.semantics.runChecked
      (fun s a s' => Unswept (entropy 1).family.text s a s') (State.idle (.initial 0)) reuse,
      State.Settled s ∧ ∃ t ∈ s.threads,
        t.Did (.emit (.refreshTokenReuseDetected "app" (entropy 1).family.text 2 false)) () := by
    decide +kernel
  have hreach : server.semantics.Reaches (Unswept (entropy 1).family.text) _ s :=
    Semantics.reaches_of_runChecked (fun _ _ _ h => of_decide_eq_true h) hs
  exact ⟨s, t, hs, hsettled, ht, hdid, reuse_detection_contains hreach ht hdid⟩

end Reuse

/-! ## Revocation -/

section Revocation
variable {srv : Server}

/-- Only a lookup that finds nothing counts as missed. -/
theorem missed_next {l : Ledger} {x : String} {e : Effect} {r : e.Answer} {t : Call}
    (h : x ∈ (l.next e r).chain.missed) : x ∈ l.chain.missed ∨
      (t.Did e r → t.Did (.storage (.getRefreshToken x)) (.ok none)) := by
  cases e with
  | storage op =>
    cases r with
    | error e => exact .inl h
    | ok a =>
      cases op with
      | getRefreshToken y =>
        cases a with
        | some r => exact .inl h
        | none =>
          rcases List.mem_cons.mp h with rfl | h
          · exact .inr id
          · exact .inl h
      | putRefreshToken r =>
        cases a with
        | applied => exact .inl ((Ledger.put_keeps l.chain r).2.1 ▸ h)
        | refusedRevoked => exact .inl h
      | _ => first | exact .inl h | (cases a <;> exact .inl h)
  | tokenEntropy | randomHex bytes | sign claims => cases r <;> exact .inl h
  | _ => exact .inl h

theorem did_of_missed {t : Call} {x : String}
    (h : x ∈ (srv.discipline.ledger t).chain.missed) :
    t.Did (.storage (.getRefreshToken x)) (.ok none) :=
  srv.discipline.of_ledger (Φ := fun l => x ∈ l.chain.missed) nofun (fun _ _ _ => missed_next) h

/-- A revocation that finds the record is effective: once the owning client's revocation of a
refresh token has returned, and while the family's barrier is not swept, nothing of the family is
in the store, whatever the concurrent requests were doing. -/
theorem revocation_effective {s₀ s : State} {i : Nat} {t : Call} {r : RefreshTokenRecord}
    {refreshToken : String} {cred : ClientCredential} {hint : Option TokenTypeHint}
    (h₀ : srv.Reachable s₀) (hr : s₀.world.store.refresh.lookup refreshToken = some r)
    (h : srv.semantics.Reaches (Unswept r.familyId) s₀ s) (hi : s₀.threads.length ≤ i)
    (ht : s.threads[i]? = some t) (hq : t.request = .revoke r.clientId cred refreshToken hint)
    (hreply : t.reply? = some (.revoked (.ok ())))
    (hfound : ¬ t.Did (.storage (.getRefreshToken refreshToken)) (.ok none)) :
    (∀ token ∈ s.world.store.tokens, token.familyId ≠ some r.familyId) ∧
      ∀ record ∈ s.world.store.refresh, record.familyId ≠ r.familyId := by
  obtain ⟨clock, hreach₀⟩ := h₀
  have hreach := hreach₀.trans h.any
  have hF₀ := srv.discipline.follows_run hreach₀
  have hF := Discipline.follows_of_reaches h.any hF₀
  have hP := Server.provenance hreach
  have hl := Discipline.mem_ledgers (D := srv.discipline) (List.mem_of_getElem? ht)
  -- The record that was stored at the start still names the string's grant.
  obtain ⟨hstored, hkey⟩ := Table.lookup_eq_some.mp hr
  obtain ⟨n, hn, hnkey, hgrant⟩ := (Server.provenance hreach₀).known_later
    (fun j l hj => Server.ledgers_grow hF₀ h hj) (.inl hstored)
  have haccept : Ledger.Accepts srv _ _ := Discipline.accepts hF (List.mem_of_getElem? ht) hreply
  simp only [Ledger.Accepts, (srv.ledger_request t).trans hq] at haccept
  rcases haccept with hmissed | ⟨record, hread, hrecord, hcase⟩ | ⟨token, hfoundToken, htoken⟩
  · exact absurd (did_of_missed hmissed) hfound
  · have hknown : Known s.world (srv.discipline.ledgers s) record :=
      .of_record hl (ChainLedger.mem_records.mpr (.inl hread))
    obtain ⟨hclient, hfamily, -, -⟩ :=
      (hP.sameGrant hknown hn ((hrecord.trans hkey.symm).trans hnkey.symm)).trans hgrant.symm
    rcases hcase with hforeign | hrevoked | hempty
    · exact absurd hclient hforeign
    · rw [hfamily] at hrevoked
      refine (Server.unrevoked hreach).family (standing_of_revoked hF₀ h ?_ hi
        (Discipline.ledgers_getElem? ht) hrevoked)
      intro j l hj hjl
      have hlt := (List.getElem?_eq_some_iff.mp hjl).1
      rw [Discipline.ledgers, List.length_map] at hlt
      omega
    · rw [(hP.family_used hknown).2] at hempty
      cases hempty
  · obtain ⟨m, hm, haccess⟩ := hP.found _ hl token hfoundToken
    exact absurd ((htoken.trans hkey.symm).trans hnkey.symm) (hP.access_ne_refresh hm haccess hn)

namespace Sample

/-- A rotation is about to take the client's refresh token. -/
def rotationBegins : List Move :=
  redeemed 1 ++ admits 3 (.refreshToken (refreshing (entropy 1).refresh.text))

def revocation : Request := .revoke "app" (.secret none) (entropy 1).refresh.text none

/-- The rotation takes the record, the revocation looks for it, and the rotation goes on. -/
def overtaking : List Move :=
  admits 4 revocation ++ go 3 1 ++ go 4 2 ++ go 3 3 ++ [.run 3 (.entropy (some (entropy 2)))] ++
    go 3 3

/-- The revocation looks first; the rotation takes the record before the family is revoked. -/
def overtaken : List Move :=
  admits 4 revocation ++ go 4 1 ++ go 3 1 ++ go 4 2 ++ go 3 2 ++ go 4 2

end Sample

/-- A rotation that has taken the record hides it from the revocation, which then returns without
revoking anything; the rotation goes on to write the successor and a new access token. -/
theorem revocation_not_effective :
    ∃ (s₀ s : State) (r : RefreshTokenRecord),
      server.semantics.run (State.idle (.initial 0)) rotationBegins = some s₀ ∧
      s₀.world.store.refresh.lookup (entropy 1).refresh.text = some r ∧ r.state = .active ∧
      r.clientId = "app" ∧
      server.semantics.runChecked (fun s a s' => Unswept r.familyId s a s') s₀ overtaking = some s ∧
      s.Settled ∧ s.threads[4]?.map Thread.request = some revocation ∧
      s.threads[4]?.bind Thread.reply? = some (.revoked (.ok ())) ∧
      (∃ token ∈ s.world.store.tokens, token.familyId = some r.familyId) ∧
      ∃ record ∈ s.world.store.refresh, record.familyId = r.familyId ∧ record.state = .active := by
  obtain ⟨s₀, hs₀, r, hr, hactive, hclient, s, hs, hfacts⟩ :
      ∃ s₀ ∈ server.semantics.run (State.idle (.initial 0)) rotationBegins,
      ∃ r ∈ s₀.world.store.refresh.lookup (entropy 1).refresh.text,
        r.state = .active ∧ r.clientId = "app" ∧
        ∃ s ∈ server.semantics.runChecked (fun s a s' => Unswept r.familyId s a s') s₀ overtaking,
          State.Settled s ∧ s.threads[4]?.map Thread.request = some revocation ∧
            s.threads[4]?.bind Thread.reply? = some (.revoked (.ok ())) ∧
            (∃ token ∈ s.world.store.tokens.rows, token.familyId = some r.familyId) ∧
            ∃ record ∈ s.world.store.refresh.rows,
              record.familyId = r.familyId ∧ record.state = .active := by
    decide +kernel
  exact ⟨s₀, s, r, hs₀, hr, hactive, hclient, hs, hfacts⟩

/-- A revocation whose lookup comes first is effective although the rotation takes the record
before the family is revoked. -/
theorem revocation_effective_overtaken :
    ∃ (s₀ s : State) (r : RefreshTokenRecord),
      server.semantics.run (State.idle (.initial 0)) rotationBegins = some s₀ ∧
      s₀.world.store.refresh.lookup (entropy 1).refresh.text = some r ∧ r.state = .active ∧
      server.semantics.runChecked (fun s a s' => Unswept r.familyId s a s') s₀ overtaken = some s ∧
      s.Settled ∧ (∀ token ∈ s.world.store.tokens, token.familyId ≠ some r.familyId) ∧
      ∀ record ∈ s.world.store.refresh, record.familyId ≠ r.familyId := by
  obtain ⟨s₀, hs₀, hlength, r, hr, hactive, hclient, s, hs, hsettled, t, ht, hrequest, hreply, hmiss⟩ :
      ∃ s₀ ∈ server.semantics.run (State.idle (.initial 0)) rotationBegins, s₀.threads.length ≤ 4 ∧
      ∃ r ∈ s₀.world.store.refresh.lookup (entropy 1).refresh.text,
        r.state = .active ∧ r.clientId = "app" ∧
        ∃ s ∈ server.semantics.runChecked (fun s a s' => Unswept r.familyId s a s') s₀ overtaken,
          State.Settled s ∧ ∃ t ∈ s.threads[4]?,
            t.request = revocation ∧ t.reply? = some (.revoked (.ok ())) ∧
              ¬ t.Did (.storage (.getRefreshToken (entropy 1).refresh.text)) (.ok none) := by
    decide +kernel
  have howner : t.request = .revoke r.clientId (.secret none) (entropy 1).refresh.text none := by
    rw [hrequest, hclient, revocation]
  refine ⟨s₀, s, r, hs₀, hr, hactive, hs, hsettled, ?_⟩
  refine revocation_effective ⟨0, Semantics.reaches_of_run hs₀⟩ hr ?_ hlength ht howner hreply hmiss
  exact Semantics.reaches_of_runChecked (fun _ _ _ h => of_decide_eq_true h) hs

end Revocation

end OauthAs
