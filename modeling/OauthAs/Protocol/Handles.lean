-- SUMMARY: Where a pushed request can be: in the store, in one hand, or not lodged yet.
import OauthAs.Protocol.Service

/-!
# Custody of pushed requests

The handle of a pushed request is a random string, and at any time there is one place for it: a
thread has drawn it and lodged nothing under it, a request is stored under it, or a thread has
taken that request. The budget below counts these places. A request that is stored or held is the
very one that a push lodged.
-/

namespace OauthAs

variable {s : ServiceState}

/-! ## The budget of a handle -/

/-- Whether a pushed request goes by the handle made of this string. -/
def PushedAuthorizationRequest.named (x : String) (r : PushedAuthorizationRequest) : Bool :=
  r.requestUri == requestUriPrefix ++ x

/-- Whether a request is stored under a handle. -/
def MemoryInner.handles (x : String) (g : MemoryInner) : Nat :=
  g.pushed.count (PushedAuthorizationRequest.named x)

/-- The places a thread has for a handle. -/
def ServiceLedger.places (x : String) (l : ServiceLedger) : Nat :=
  (l.hand.any (PushedAuthorizationRequest.named x)).toNat + (l.identifier == some x).toNat

namespace StorageOp

variable {g : MemoryInner} {op : StorageOp}

theorem count_pushed_exec_le (p : PushedAuthorizationRequest → Bool) (h : op.WritesPushed = false) :
    (exec g op).2.pushed.count p ≤ g.pushed.count p :=
  ((frame_exec op).pushed h).count_le p

theorem count_putPushed_le (p : PushedAuthorizationRequest → Bool)
    (r : PushedAuthorizationRequest) :
    (exec g (.putPushedAuthorizationRequest r)).2.pushed.count p ≤
      g.pushed.count p + (p r).toNat := by
  simp only [exec, succeeding, MemoryInner.putPushedAuthorizationRequest]
  split
  · exact Nat.le_add_right _ _
  · have := g.pushed.count_erase p r.requestUri
    rw [Table.count_insert]
    omega

/-- What a take removes is what it hands over. -/
theorem count_takePushed (p : PushedAuthorizationRequest → Bool) {requestUri : String}
    {found : Option PushedAuthorizationRequest} {g' : MemoryInner}
    (h : exec g (.takePushedAuthorizationRequest requestUri) = (.ok found, g')) :
    g'.pushed.count p + (found.any p).toNat = g.pushed.count p := by
  cases h
  have := g.pushed.count_erase p requestUri
  unfold Table.tally at this
  cases hlookup : g.pushed.lookup requestUri with
  | none | some r =>
    rw [hlookup] at this
    simpa [MemoryInner.takePushedAuthorizationRequest, hlookup] using this

end StorageOp

namespace Server

variable {srv : Server} {w w' : World} {ls ls' : List ServiceLedger}

/-- The requests of the token endpoints leave pushed requests alone. -/
theorem not_writesPushed {l : Ledger} {op : StorageOp} (h : l.MayStore srv op) :
    op.WritesPushed = false := by
  cases op with
  | putPushedAuthorizationRequest r => cases h
  | _ => rfl

/-- A storage call of the front half adds no place for a handle. -/
theorem places_stored {q : ServiceRequest} {l : FrontLedger} {op : StorageOp} {a : op.Result}
    {g g' : MemoryInner} (hmay : l.MayStore srv q op) (hexec : op.exec g = (.ok a, g'))
    (x : String) :
    g'.handles x + (ServiceLedger.front q (l.next (.storage op) (.ok a))).places x ≤
      g.handles x + (ServiceLedger.front q l).places x := by
  have hframe : op.WritesPushed = false → g'.handles x ≤ g.handles x := by
    intro h
    have := StorageOp.count_pushed_exec_le (g := g) (PushedAuthorizationRequest.named x) h
    rwa [hexec] at this
  cases op with
  | getClient _ | claimReplayId _ _ | findConsent _ _ | compareAndSwapConsent _ _ =>
    exact Nat.add_le_add_right (hframe rfl) _
  | putAuthorizationCode record =>
    refine Nat.add_le_add (hframe rfl) (Nat.add_le_add_left ?_ _)
    exact Nat.zero_le _
  | takePushedAuthorizationRequest requestUri =>
    have hcount := StorageOp.count_takePushed (PushedAuthorizationRequest.named x) hexec
    have hhand := hmay.1
    simp only [MemoryInner.handles, ServiceLedger.places, ServiceLedger.hand,
      ServiceLedger.identifier, FrontLedger.next, FrontLedger.advance, FrontLedger.stored,
      FrontLedger.log, hhand, Option.any_none, Bool.toNat_false] at hcount ⊢
    omega
  | putPushedAuthorizationRequest r =>
    have hcount := StorageOp.count_putPushed_le (g := g) (PushedAuthorizationRequest.named x) r
    rw [hexec] at hcount
    cases hmay with
    | putBack door hand foreign =>
      simp only [MemoryInner.handles, ServiceLedger.places, ServiceLedger.hand,
        ServiceLedger.identifier, FrontLedger.next, FrontLedger.advance, FrontLedger.stored,
        FrontLedger.write, FrontLedger.log, hand, Option.any_some, Option.any_none,
        Bool.toNat_false] at hcount ⊢
      omega
    | lodge request lodges =>
      obtain ⟨y, hy, huri⟩ := lodges.new
      have hnamed : PushedAuthorizationRequest.named x r = (y == x) := by
        simp [PushedAuthorizationRequest.named, huri, Bool.beq_eq_decide_eq]
      rw [hnamed] at hcount
      have hdrawn : (some y == some x) = (y == x) := rfl
      simp only [MemoryInner.handles, ServiceLedger.places, ServiceLedger.hand,
        ServiceLedger.identifier, FrontLedger.next, FrontLedger.advance, FrontLedger.stored,
        FrontLedger.write, FrontLedger.log, lodges.free, hy, hdrawn, Option.any_none,
        Bool.toNat_false] at hcount ⊢
      have hnone : (none == some x) = false := rfl
      simp only [hnone, Bool.toNat_false]
      omega
  | _ => cases hmay

theorem pays_places : srv.Pays MemoryInner.handles ServiceLedger.places := by
  refine .of_identifier (fun x l => (l.hand.any (PushedAuthorizationRequest.named x)).toNat)
    (fun x l => Nat.add_comm _ _) (fun q x => by cases q <;> rfl) ?_ ?_ ?_
  · intro l op a g g' hallowed hexec x
    cases l with
    | api l =>
      have := StorageOp.count_pushed_exec_le (g := g) (PushedAuthorizationRequest.named x)
        (not_writesPushed hallowed)
      rw [hexec] at this
      exact Nat.add_le_add_right this _
    | front q l => exact places_stored hallowed hexec x
  · intro l e a he x
    cases l with
    | api l => rfl
    | front q l =>
      cases e with
      | storage op =>
        cases a with
        | ok a => exact absurd rfl (he op a)
        | error e => rfl
      | randomHex bytes => cases a <;> rfl
      | _ => rfl
  · exact fun now g x => @StorageOp.count_pushed_exec_le g (.sweepExpired now) _ rfl

/-- There is one place for a handle, and none for one that was never drawn. -/
abbrev Custody (w : World) (ls : List ServiceLedger) : Prop :=
  Budget MemoryInner.handles ServiceLedger.places w ls

theorem custody_step (h : Custody w ls) (hstep : srv.serviceDiscipline.LedgerStep w ls w' ls') :
    Custody w' ls' :=
  pays_places.step h hstep

theorem custody {ok} {clock : SystemTime} (h : srv.ServiceRuns ok clock s) :
    Custody s.world (srv.serviceDiscipline.ledgers s) :=
  pays_places.budget (fun _ => rfl) h

end Server

/-! ## Where a pushed request came from -/

/-- What the ledger of a push says of the request it lodged. -/
structure FrontLedger.Lodged (srv : Server) (l : FrontLedger) (p : PushRequest)
    (r : PushedAuthorizationRequest) : Prop extends l.Sends srv p r where
  stored : l.Did (.storage (.putPushedAuthorizationRequest r)) (.ok .applied)
  handle : ∃ x, r.requestUri = requestUriPrefix ++ x

namespace Server

variable {srv : Server} {w w' : World} {ls ls' : List ServiceLedger}
variable {l : ServiceLedger} {e : Effect} {a : e.Answer} {r : PushedAuthorizationRequest}

/-- Only a take puts a request in hand. -/
theorem hand_of_next {c : Choice} (hperform : w.perform e c = some (a, w'))
    (h : (l.next e a).hand = some r) : l.hand = some r ∨ r ∈ w.store.pushed := by
  cases l with
  | api l => cases h
  | front q l =>
    cases e with
    | storage op =>
      obtain ⟨hexec, -, -⟩ := World.perform_storage hperform
      cases a with
      | error e => exact .inl h
      | ok a =>
        cases op with
        | takePushedAuthorizationRequest requestUri =>
          have hfound : w.store.pushed.lookup requestUri = a := Except.ok.inj (congrArg Prod.fst hexec)
          have ha : a = some r := h
          exact .inr (Table.mem_of_lookup (hfound.trans ha))
        | putPushedAuthorizationRequest r' =>
          have hwrite : (l.write r' a).hand = some r := h
          unfold FrontLedger.write at hwrite
          split at hwrite
          · cases hwrite
          · exact .inl hwrite
        | _ => exact .inl h
    | randomHex bytes => cases a <;> exact .inl h
    | _ => exact .inl h

/-- What was lodged stays lodged. -/
theorem lodged_next (hallowed : l.Allowed srv e) (h : l.lodged = some r) :
    (l.next e a).lodged = some r := by
  cases l with
  | api l => cases h
  | front q l =>
    cases e with
    | storage op =>
      cases a with
      | error e => exact h
      | ok a =>
        cases op with
        | putPushedAuthorizationRequest r' =>
          have hold : l.lodged = some r := h
          have hwrite : (l.write r' a).lodged = some r := by
            unfold FrontLedger.write
            split
            · exact hold
            · rename_i hnone
              cases hallowed with
              | putBack door hand foreign => cases hnone.symm.trans hand
              | lodge request lodges => cases lodges.first.symm.trans hold
          exact hwrite
        | _ => exact h
    | randomHex bytes => cases a <;> exact h
    | _ => exact h

/-- A request that comes to be stored was in hand or has just been lodged. -/
theorem pushed_of_perform {c : Choice} (hallowed : l.Allowed srv e)
    (hperform : w.perform e c = some (a, w')) (h : r ∈ w'.store.pushed) :
    r ∈ w.store.pushed ∨ l.hand = some r ∨ (l.next e a).lodged = some r := by
  rcases e.storage_cases with ⟨op, rfl⟩ | he
  · obtain ⟨hexec, -, -⟩ := World.perform_storage hperform
    rcases StorageOp.mem_pushed_exec hexec h with hold | ⟨rfl, hlive⟩
    · exact .inl hold
    · right
      cases l with
      | api l => cases hallowed
      | front q l =>
        cases hallowed with
        | putBack door hand foreign => exact .inl hand
        | lodge request lodges =>
          right
          have happlied : a = .ok .applied := by
            have := congrArg Prod.fst hexec
            simp only [StorageOp.exec, StorageOp.succeeding,
              MemoryInner.putPushedAuthorizationRequest, hlive] at this
            exact this.symm
          subst happlied
          have hwrite : (l.write r .applied).lodged = some r := by
            simp [FrontLedger.write, lodges.free]
          exact hwrite
  · rw [(World.frame_of_perform he hperform).1] at h
    exact .inl h

/-- Every pushed request that is stored or held was lodged by a push. -/
theorem originates_lodged : srv.Originates (fun g r => r ∈ g.pushed) (fun l r => l.hand = some r)
    (fun l r => l.lodged = some r) Eq where
  trans := Eq.trans
  start q r hr := by cases q <;> cases hr
  keeps := lodged_next
  call _ hallowed hperform hr := by
    refine ⟨_, rfl, ?_⟩
    rcases hr with hr | hr
    · exact pushed_of_perform hallowed hperform hr
    · exact (hand_of_next hperform hr).elim (fun h => .inr (.inl h)) .inl
  sweep hr := ((StorageOp.frame_exec (.sweepExpired _)).pushed rfl).mem hr

/-- What the ledger of a push says of the request it lodged, it goes on saying. -/
theorem lodges_next (hallowed : l.Allowed srv e)
    (h : ∀ q l', l = .front q l' → ∀ r, l'.lodged = some r → ∃ p, q = .push p ∧ l'.Lodged srv p r) :
    ∀ q l', l.next e a = .front q l' → ∀ r, l'.lodged = some r →
      ∃ p, q = .push p ∧ l'.Lodged srv p r := by
  cases l with
  | api l =>
    intro q l' heq
    cases heq
  | front q l =>
    rintro _ _ ⟨⟩ r hr
    have hpast := l.prefix_next e a
    have hold : l.lodged = some r → ∃ p, q = .push p ∧ (l.next e a).Lodged srv p r := by
      intro hlodged
      obtain ⟨p, rfl, hsends, hstored, hhandle⟩ := h q l rfl r hlodged
      exact ⟨p, rfl, hsends.mono hpast, hstored.mono hpast, hhandle⟩
    cases e with
    | storage op =>
      cases a with
      | error e => exact hold hr
      | ok a =>
        cases op with
        | putPushedAuthorizationRequest r' =>
          have hwrite : (l.write r' a).lodged = some r := hr
          cases hallowed with
          | putBack door hand foreign =>
            simp only [FrontLedger.write, hand] at hwrite
            exact hold hwrite
          | @lodge p _ request lodges =>
            simp only [FrontLedger.write, lodges.free] at hwrite
            split at hwrite
            · rename_i happlied
              cases hwrite
              cases happlied
              obtain ⟨x, -, huri⟩ := lodges.new
              exact ⟨p, request, lodges.toSends.mono hpast, l.did_next _ _, x, huri⟩
            · exact hold hwrite
        | _ => exact hold hr
    | randomHex bytes => cases a <;> exact hold hr
    | _ => exact hold hr

/-- A pushed request that is stored or held was lodged by a push of its own client, which had
authenticated. -/
theorem pusher {ok} {clock : SystemTime} (h : srv.ServiceRuns ok clock s)
    (hr : r ∈ s.world.store.pushed ∨ ∃ l ∈ srv.serviceDiscipline.ledgers s, l.hand = some r) :
    ∃ t ∈ s.threads, ∃ p l, t.request = .push p ∧
      srv.serviceDiscipline.ledger t = .front (.push p) l ∧ l.past = t.trace ∧ l.Lodged srv p r := by
  have hsays := srv.serviceDiscipline.ledger_invariant h ?_
    fun l e a hI hallowed _ => lodges_next hallowed hI
  · obtain ⟨l, hl, _, hlodged, rfl⟩ := originates_lodged.origin (fun _ => Table.mem_empty) h hr
    obtain ⟨t, ht, rfl⟩ := List.mem_map.mp hl
    cases hledger : srv.serviceDiscipline.ledger t with
    | api l =>
      rw [hledger] at hlodged
      cases hlodged
    | front q l =>
      rw [hledger] at hlodged hl
      obtain ⟨hq, hpast, -⟩ := front_of_ledger hledger
      obtain ⟨p, rfl, hsaid⟩ := hsays _ hl _ _ rfl r hlodged
      exact ⟨t, ht, p, l, hq, hledger, hpast, hsaid⟩
  · intro q
    cases q <;> rintro _ _ ⟨⟩ r ⟨⟩

/-- A request in hand was taken under its own handle, which is what the thread presents. -/
theorem taken_of_hand {ok} (h : srv.service.Reaches ok (ServiceState.idle w) s) :
    ∀ l ∈ srv.serviceDiscipline.ledgers s, ∀ q l', l = .front q l' → ∀ r, l'.hand = some r →
      l'.Did (.storage (.takePushedAuthorizationRequest r.requestUri)) (.ok (some r)) ∧
        ∃ clientId, srv.door q = some (.pushed clientId r.requestUri) := by
  refine srv.serviceDiscipline.ledger_invariant h ?_ ?_
  · intro q
    cases q <;> rintro _ _ ⟨⟩ r ⟨⟩
  · rintro (l | ⟨q, l⟩) e a hI hallowed hpossible
    · intro q l' heq
      cases heq
    · rintro _ _ ⟨⟩ r hr
      have hold : l.hand = some r →
          (l.next e a).Did (.storage (.takePushedAuthorizationRequest r.requestUri)) (.ok (some r)) ∧
            ∃ clientId, srv.door q = some (.pushed clientId r.requestUri) := by
        intro hhand
        obtain ⟨hdid, hdoor⟩ := hI q l rfl r hhand
        exact ⟨hdid.mono (l.prefix_next e a), hdoor⟩
      cases e with
      | storage op =>
        cases a with
        | error e => exact hold hr
        | ok a =>
          cases op with
          | takePushedAuthorizationRequest requestUri =>
            obtain ⟨g, hg⟩ := hpossible
            have hfound : g.pushed.lookup requestUri = some r := (Except.ok.inj hg).trans hr
            have hkey : r.requestUri = requestUri := Table.key_of_lookup hfound
            have ha : a = some r := hr
            subst hkey ha
            exact ⟨l.did_next _ _, hallowed.2⟩
          | putPushedAuthorizationRequest r' =>
            have hwrite : (l.write r' a).hand = some r := hr
            unfold FrontLedger.write at hwrite
            split at hwrite
            · cases hwrite
            · exact hold hwrite
          | _ => exact hold hr
      | randomHex bytes => cases a <;> exact hold hr
      | _ => exact hold hr

end Server

end OauthAs
