-- SUMMARY: What the trace of a request and its ledger say about each other.
import OauthAs.Protocol.Codes

/-!
# Traces and ledgers

The guarantees are about what requests did, which is what their traces say; the invariants they
follow from are about ledgers. Here is the way from one to the other, for the calls that the
guarantees name.
-/

namespace OauthAs

/-- The request wrote this access token. -/
def Call.Writes (c : Call) (t : IssuedToken) : Prop :=
  c.Did (.storage (.putToken t)) (.ok .applied) ∨
    ∃ expected spent next, c.Did (.storage (.rotateRefreshToken expected spent t next)) (.ok true)

/-- The request wrote this refresh record. -/
def Call.Files (c : Call) (r : RefreshTokenRecord) : Prop :=
  c.Did (.storage (.putRefreshToken r)) (.ok .applied) ∨ ∃ expected spent access,
    c.Did (.storage (.rotateRefreshToken expected spent access (some r))) (.ok true)

/-- The request found this record when it read, took or rotated it. -/
def Call.DrawsOn (c : Call) (r : RefreshTokenRecord) : Prop :=
  (∃ x, c.Did (.storage (.getRefreshToken x)) (.ok (some r))) ∨
    (∃ x, c.Did (.storage (.takeRefreshToken x)) (.ok (some r))) ∨
    ∃ spent access next, c.Did (.storage (.rotateRefreshToken r spent access next)) (.ok true)

section Traces
variable {srv : Server} {ok : State → Move → State → Prop} {clock : SystemTime} {s : State}
  {c : Call} {t : IssuedToken}
variable {l : Ledger} {e : Effect} {a : e.Answer} {r : RefreshTokenRecord} {g : DeviceGrant}

theorem access_of_writes (h : srv.Runs ok clock s) (hc : c ∈ s.threads) (ht : c.Writes t) :
    (srv.discipline.ledger c).issue.access = some t := by
  rcases ht with hdid | ⟨expected, spent, next, hdid⟩
  · exact Server.access_of_did h hc hdid
  · exact Server.holds_of_did (Φ := fun l => l.issue.access = some t) h hc hdid (fun _ _ => rfl)
      fun hg => hg.access t

theorem access_next (h : (l.next e a).issue.access = some t) :
    l.issue.access = some t ∨ (c.Did e a → c.Writes t) := by
  cases e with
  | storage op =>
    cases a with
    | error e => exact .inl h
    | ok a =>
      cases op with
      | putToken u =>
        cases a with
        | refusedRevoked => exact .inl h
        | applied =>
          cases h
          exact .inr .inl
      | rotateRefreshToken expected spent access next =>
        cases a with
        | false => exact .inl h
        | true =>
          cases h
          exact .inr fun hdid => .inr ⟨expected, spent, next, hdid⟩
      | _ => first | exact .inl h | (cases a <;> exact .inl h)
  | _ => first | exact .inl h | (cases a <;> exact .inl h)

theorem writes_of_access (h : (srv.discipline.ledger c).issue.access = some t) : c.Writes t :=
  srv.discipline.of_ledger (Φ := fun l => l.issue.access = some t) nofun (fun _ _ _ => access_next) h

/-- A code comes into a request's hands by being taken. -/
theorem hand_next {r : e.Answer} {code : AuthorizationCodeRecord}
    (h : (l.next e r).codes.hand = some code ∨ (l.next e r).codes.redeemed = some code) :
    (l.codes.hand = some code ∨ l.codes.redeemed = some code) ∨
      ∃ x, (⟨e, r⟩ : Answered) =
        ⟨.storage (.takeAuthorizationCode x), .ok (some code)⟩ := by
  cases e with
  | storage op =>
    cases r with
    | error e => exact .inl h
    | ok a =>
      cases op with
      | takeAuthorizationCode x =>
        cases a with
        | none => exact .inl h
        | some record =>
          rcases h with hhand | hredeemed
          · cases hhand
            exact .inr ⟨x, rfl⟩
          · exact .inl (.inr hredeemed)
      | putAuthorizationCode record =>
        rcases h with hhand | hredeemed
        · cases hhand
        · exact .inl ((Ledger.redeemed_put hredeemed).symm.imp And.left id)
      | _ => first | exact .inl h | (cases a <;> exact .inl h)
  | _ => first | exact .inl h | (cases r <;> exact .inl h)

/-- A redeemed code was taken out of the store. -/
theorem did_of_redeemed {code : AuthorizationCodeRecord}
    (h : (srv.discipline.ledger c).codes.redeemed = some code) :
    ∃ x, c.Did (.storage (.takeAuthorizationCode x)) (.ok (some code)) := by
  refine srv.discipline.of_ledger
    (Φ := fun l => l.codes.hand = some code ∨ l.codes.redeemed = some code)
    (by rintro (hnone | hnone) <;> cases hnone) (fun _ _ _ hl => (hand_next hl).imp_right ?_) (.inr h)
  rintro ⟨x, ⟨⟩⟩ hdid
  exact ⟨x, hdid⟩

theorem found_next (h : (l.next e a).Found r) : l.Found r ∨ (c.Did e a → c.DrawsOn r) := by
  cases e with
  | storage op =>
    cases a with
    | error e => exact .inl h
    | ok a =>
      refine (Ledger.finds_of_stored h).imp_right fun hfinds hdid => ?_
      cases hfinds with
      | read x => exact .inl ⟨x, hdid⟩
      | taken x => exact .inr (.inl ⟨x, hdid⟩)
      | rotated spent access next => exact .inr (.inr ⟨spent, access, next, hdid⟩)
  | _ => first | exact .inl h | (cases a <;> exact .inl h)

/-- What a request continues it has found. -/
theorem drawsOn_of_continues (h : (srv.discipline.ledger c).Continues srv r) : c.DrawsOn r := by
  have hfound : (srv.discipline.ledger c).Found r :=
    h.elim (fun hrotated => .inr (.inr hrotated)) fun hread => .inl hread.2
  exact srv.discipline.of_ledger (Φ := fun l => l.Found r)
    (by rintro (hnone | hnone | hnone) <;> cases hnone) (fun _ _ _ => found_next) hfound

theorem successor_next (h : (l.next e a).chain.successor = some r) :
    l.chain.successor = some r ∨ (c.Did e a → c.Files r) := by
  cases e with
  | storage op =>
    cases a with
    | error e => exact .inl h
    | ok a =>
      refine (Ledger.files_of_stored h).imp_right fun hfiles hdid => ?_
      cases hfiles with
      | put => exact .inl hdid
      | rotated expected spent access => exact .inr ⟨expected, spent, access, hdid⟩
  | _ => first | exact .inl h | (cases a <;> exact .inl h)

theorem files_of_successor (h : (srv.discipline.ledger c).chain.successor = some r) :
    c.Files r :=
  srv.discipline.of_ledger (Φ := fun l => l.chain.successor = some r) nofun
    (fun _ _ _ => successor_next) h

/-! ## Device grants -/

theorem seen_of_did {x : String} (h : srv.Runs ok clock s) (hc : c ∈ s.threads)
    (hdid : c.Did (.storage (.findDeviceGrantByUserCode x)) (.ok (some g))) :
    g ∈ (srv.discipline.ledger c).devices.seen :=
  Server.holds_of_did (Φ := fun l => g ∈ l.devices.seen) h hc hdid (fun _ _ => List.mem_cons_self)
    fun hg hl => hg.seen hl

theorem decided_next (h : (l.next e a).devices.decided = some g) : l.devices.decided = some g ∨
    (c.Did e a → ∃ expected, c.Did (.storage (.compareAndSwapDeviceGrant expected g)) (.ok true)) := by
  cases e with
  | storage op =>
    cases a with
    | error e => exact .inl h
    | ok a =>
      cases op with
      | compareAndSwapDeviceGrant expected updated =>
        simp only [Ledger.next, Ledger.stored, DeviceLedger.swap] at h
        split at h
        · rename_i hdone
          cases h
          cases (hdone.1 : a = true)
          exact .inr fun hdid => ⟨expected, hdid⟩
        · exact .inl h
      | _ => first | exact .inl h | (cases a <;> exact .inl h)
  | _ => first | exact .inl h | (cases a <;> exact .inl h)

theorem swaps_of_decided (h : (srv.discipline.ledger c).devices.decided = some g) :
    ∃ expected, c.Did (.storage (.compareAndSwapDeviceGrant expected g)) (.ok true) :=
  srv.discipline.of_ledger (Φ := fun l => l.devices.decided = some g) nofun
    (fun _ _ _ => decided_next) h

end Traces

end OauthAs
