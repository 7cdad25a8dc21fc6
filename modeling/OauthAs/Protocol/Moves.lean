-- SUMMARY: Everything one step of the running server does to the world and the ledgers, case by case.
import OauthAs.Protocol.Discipline

/-!
# Moves

`Server.Moves` is the step lemma of the running server. Together with `Ledger.MayStore` it says
all that a step can do: start a request, answer one storage call that the request's ledger
allows, read the clock, hand out new strings, or act without a request. Every invariant below is
checked against these cases. What a ledger once says it keeps saying (`Ledger.Grows`), so facts
about a request that has been answered survive the rest of the run.
-/

namespace OauthAs

variable {j : Nat}

/-- One step of the running server, as the world and the ledgers see it. -/
inductive Server.Moves (srv : Server) (w : World) (ls : List Ledger) : World → List Ledger → Prop
  | spawn (q : Request) : Moves srv w ls w (ls ++ [.start q])
  | stored (i : Nat) (l : Ledger) (op : StorageOp) (a : op.Result) (g : MemoryInner)
      (hi : ls[i]? = some l) (may : l.MayStore srv op)
      (exec : StorageOp.exec w.store op = (.ok a, g)) :
      Moves srv w ls { w with store := g } (ls.set i (l.stored op a))
  | reads (i : Nat) (l : Ledger) (hi : ls[i]? = some l) :
      Moves srv w ls w (ls.set i { l with clocks := w.clock :: l.clocks })
  | draws (i : Nat) (l : Ledger) (e : TokenEntropy) (hi : ls[i]? = some l)
      (first : l.issue.entropy = none) (fresh : w.Fresh (World.drawnStrings e)) :
      Moves srv w ls { w with used := World.drawnStrings e ++ w.used }
        (ls.set i (l.next .tokenEntropy (some e)))
  | names (i : Nat) (l : Ledger) (x : String) (hi : ls[i]? = some l) (fresh : w.Fresh [x]) :
      Moves srv w ls { w with used := x :: w.used }
        (ls.set i { l with drawn := x :: l.drawn, identifier := some x })
  | signs (i : Nat) (l : Ledger) (x : String) (hi : ls[i]? = some l)
      (first : l.issue.wire = none) (fresh : w.Fresh [x]) :
      Moves srv w ls { w with used := x :: w.used }
        (ls.set i { l with drawn := x :: l.drawn, issue := { l.issue with wire := some x } })
  | setback (i : Nat) (l : Ledger) (hi : ls[i]? = some l) :
      Moves srv w ls w (ls.set i { l with issue := { l.issue with setback := true } })
  | idle : Moves srv w ls w ls
  | tick (elapsed : Duration) : Moves srv w ls { w with clock := w.clock + elapsed } ls
  | sweep (now : SystemTime) :
      Moves srv w ls { w with store := (StorageOp.exec w.store (.sweepExpired now)).2 } ls

theorem Effect.storage_cases (e : Effect) : (∃ op, e = .storage op) ∨ e.isStorage = false := by
  cases e with
  | storage op => exact .inl ⟨op, rfl⟩
  | _ => exact .inr rfl

namespace World

variable {w w' : World} {c : Choice} {e : Effect} {r : e.Answer}

/-- Only new strings are handed out. -/
theorem draw_eq_some {α : Type} {drawn : List String} {a b : α}
    (h : w.draw drawn a = some (b, w')) :
    w.Fresh drawn ∧ a = b ∧ w' = { w with used := drawn ++ w.used } := by
  unfold draw at h
  split at h
  · rename_i hfresh
    cases h
    exact ⟨hfresh, rfl, rfl⟩
  · cases h

/-- A storage call does what it does to the store and nothing else. -/
theorem perform_storage {op : StorageOp} {r : op.Answer}
    (h : w.perform (.storage op) c = some (r, w')) :
    op.exec w.store = (r, w'.store) ∧ w'.clock = w.clock ∧ w'.used = w.used := by
  cases c <;> cases h
  exact ⟨rfl, rfl, rfl⟩

/-- No other call does more than hand out strings. -/
theorem drawn_of_perform (he : e.isStorage = false) (h : w.perform e c = some (r, w')) :
    ∃ drawn, w' = { w with used := drawn ++ w.used } := by
  have hdraw : ∀ {α : Type} {xs : List String} {a b : α}, w.draw xs a = some (b, w') →
      ∃ drawn, w' = { w with used := drawn ++ w.used } :=
    fun h => ⟨_, (draw_eq_some h).2.2⟩
  cases e with
  | storage op => cases he
  | tokenEntropy =>
    cases c with
    | entropy drawn =>
      cases drawn with
      | none => cases h; exact ⟨[], rfl⟩
      | some e => exact hdraw h
    | _ => cases h
  | randomHex bytes =>
    cases c with
    | hex drawn =>
      cases drawn with
      | none => cases h; exact ⟨[], rfl⟩
      | some text =>
        simp only [perform] at h
        split at h
        · exact hdraw h
        · cases h
    | _ => cases h
  | randomUserCode length =>
    cases c with
    | userCode drawn =>
      cases drawn with
      | none => cases h; exact ⟨[], rfl⟩
      | some text =>
        simp only [perform] at h
        split at h <;> cases h
        exact ⟨[], rfl⟩
    | _ => cases h
  | sign claims =>
    cases c with
    | signed token =>
      cases token with
      | none => cases h; exact ⟨[], rfl⟩
      | some token => exact hdraw h
    | _ => cases h
  | now | check _ | record _ _ | verifySecret _ | dummyAssertionVerify _ | emit _
  | approve _ | authorizeRegistration _ =>
    cases c <;> cases h
    exact ⟨[], rfl⟩

/-- No other call touches the store, and none the clock. -/
theorem frame_of_perform (he : e.isStorage = false) (h : w.perform e c = some (r, w')) :
    w'.store = w.store ∧ w'.clock = w.clock := by
  obtain ⟨drawn, rfl⟩ := drawn_of_perform he h
  exact ⟨rfl, rfl⟩

/-- What a call does to the store. -/
theorem store_of_perform (h : w.perform e c = some (r, w')) :
    (∃ op, e = .storage op ∧ w'.store = (op.exec w.store).2) ∨ w'.store = w.store := by
  rcases e.storage_cases with ⟨op, rfl⟩ | he
  · exact .inl ⟨op, rfl, (congrArg Prod.snd (perform_storage h).1).symm⟩
  · exact .inr (frame_of_perform he h).1

/-- What a step of any service over the world does to the store: nothing, a sweep, or one call. -/
theorem store_of_step {Q A : Type} {S : Semantics World Effect Effect.Answer Choice Q A Occurrence}
    {s s' : System World Effect Effect.Answer Q A} {a : Action Choice Q Occurrence}
    (hperform : S.perform = perform) (henvironment : S.environment = environment)
    (h : S.step s a = some s') :
    s'.world.store = s.world.store ∨
      (∃ now, a = .env (.sweep now) ∧
        s'.world.store = (StorageOp.exec s.world.store (.sweepExpired now)).2) ∨
      ∃ i c t op k r, a = .run i c ∧ s.threads[i]? = some t ∧ t.prog = .call (.storage op) k ∧
        op.exec s.world.store = (r, s'.world.store) ∧
        s'.threads[i]? = some (t.resume (.storage op) r (k r)) := by
  cases a with
  | spawn q =>
    cases h
    exact .inl rfl
  | run i c =>
    obtain ⟨t, e, k, r, w, hi, hprog, hcall, rfl⟩ := Semantics.step_run h
    rw [hperform] at hcall
    rcases e.storage_cases with ⟨op, rfl⟩ | he
    · exact .inr (.inr ⟨i, c, t, op, k, r, rfl, hi, hprog, (perform_storage hcall).1,
        List.getElem?_set_self (List.getElem?_eq_some_iff.mp hi).1⟩)
    · exact .inl (frame_of_perform he hcall).1
  | env v =>
    obtain ⟨w, hv, rfl⟩ := Semantics.step_env h
    rw [henvironment] at hv
    cases v with
    | tick elapsed =>
      cases hv
      exact .inl rfl
    | sweep now =>
      cases hv
      exact .inr (.inl ⟨now, rfl, rfl⟩)

/-- A string that was handed out stays handed out. -/
theorem used_of_perform (h : w.perform e c = some (r, w')) : w.used ⊆ w'.used := by
  rcases e.storage_cases with ⟨op, rfl⟩ | he
  · rw [(perform_storage h).2.2]
    exact List.Subset.refl _
  · obtain ⟨drawn, rfl⟩ := drawn_of_perform he h
    exact List.subset_append_right _ _

/-- A random identifier is new. -/
theorem perform_randomHex {bytes : Nat} {hex : HexString bytes}
    (h : w.perform (.randomHex bytes) c = some (some hex, w')) :
    hex.text ∉ w.used ∧ w' = { w with used := hex.text :: w.used } := by
  cases c with
  | hex drawn =>
    cases drawn with
    | none => cases h
    | some text =>
      simp only [perform] at h
      split at h
      · obtain ⟨hfresh, heq, hw⟩ := draw_eq_some h
        cases heq
        exact ⟨hfresh.2 text List.mem_cons_self, hw⟩
      · cases h
  | _ => cases h

/-- Whether a string is drawn is left open. -/
theorem isSome_of_perform {bytes : Nat} {r : Option (HexString bytes)}
    (h : w.perform (.randomHex bytes) c = some (r, w')) :
    ∃ drawn, c = .hex drawn ∧ r.isSome = drawn.isSome := by
  cases c with
  | hex drawn =>
    refine ⟨drawn, rfl, ?_⟩
    cases drawn with
    | none =>
      cases h
      rfl
    | some text =>
      simp only [perform] at h
      split at h
      · obtain ⟨-, heq, -⟩ := draw_eq_some h
        cases heq
        rfl
      · cases h
  | _ => cases h

theorem clock_of_perform (h : w.perform e c = some (r, w')) : w'.clock = w.clock := by
  rcases e.storage_cases with ⟨op, rfl⟩ | he
  · exact (perform_storage h).2.1
  · exact (frame_of_perform he h).2

/-- Reading the clock gives the time and changes nothing. -/
theorem perform_now {t : SystemTime} (h : w.perform .now c = some (t, w')) :
    t = w.clock ∧ w' = w := by
  cases c <;> cases h
  exact ⟨rfl, rfl⟩

end World

namespace Server

variable {srv : Server}

/-- An answered call is one of the moves. -/
theorem moves_of_perform {w w' : World} {ls : List Ledger} {i : Nat} {l : Ledger} {e : Effect}
    {c : Choice} {r : e.Answer} (hi : ls[i]? = some l) (hallowed : l.Allowed srv e)
    (hperform : w.perform e c = some (r, w')) : srv.Moves w ls w' (ls.set i (l.next e r)) := by
  cases e with
  | storage op =>
    cases c <;> cases hperform
    cases hanswer : (StorageOp.exec w.store op).1 with
    | ok a => exact .stored i l op a _ hi hallowed (Prod.ext hanswer rfl)
    | error e =>
      rw [StorageOp.exec_error hanswer]
      simp only [Ledger.next, set_self hi]
      exact .idle
  | now =>
    cases c <;> cases hperform
    exact .reads i l hi
  | tokenEntropy =>
    cases c with
    | entropy drawn =>
      cases drawn with
      | none =>
        cases hperform
        exact .setback i l hi
      | some e =>
        obtain ⟨hfresh, rfl, rfl⟩ := World.draw_eq_some hperform
        exact .draws i l e hi hallowed hfresh
    | _ => cases hperform
  | randomHex bytes =>
    cases c with
    | hex drawn =>
      cases drawn with
      | none =>
        cases hperform
        rw [show l.next (.randomHex bytes) none = l from rfl, set_self hi]
        exact .idle
      | some text =>
        simp only [World.perform] at hperform
        split at hperform
        · obtain ⟨hfresh, rfl, rfl⟩ := World.draw_eq_some hperform
          exact .names i l text hi hfresh
        · cases hperform
    | _ => cases hperform
  | sign claims =>
    cases c with
    | signed token =>
      cases token with
      | none =>
        cases hperform
        exact .setback i l hi
      | some token =>
        obtain ⟨hfresh, rfl, rfl⟩ := World.draw_eq_some hperform
        exact .signs i l token hi hallowed hfresh
    | _ => cases hperform
  | randomUserCode length =>
    have hsame : w' = w := by
      cases c with
      | userCode drawn =>
        cases drawn with
        | none =>
          cases hperform
          rfl
        | some text =>
          simp only [World.perform] at hperform
          split at hperform <;> cases hperform
          rfl
      | _ => cases hperform
    rw [show l.next (.randomUserCode length) r = l from rfl, set_self hi, hsame]
    exact .idle
  | check _ | record _ _ | verifySecret _ | dummyAssertionVerify _ | emit _
  | approve _ | authorizeRegistration _ =>
    cases c <;> cases hperform
    rw [show l.next _ _ = l from rfl, set_self hi]
    exact .idle

theorem moves_of_ledgerStep {w w' : World} {ls ls' : List Ledger}
    (h : Discipline.LedgerStep srv.discipline w ls w' ls') : srv.Moves w ls w' ls' := by
  cases h with
  | spawn q => exact .spawn q
  | run i l e c r w' hi hallowed _ hperform => exact moves_of_perform hi hallowed hperform
  | env v w' henv =>
    cases v with
    | tick elapsed =>
      cases henv
      exact .tick elapsed
    | sweep now =>
      cases henv
      exact .sweep now

end Server

/-! ## What a ledger keeps -/

namespace Ledger

/-- What a ledger says about the past it says forever; only the hands, the identifier and the
right to mint come and go. -/
structure Grows (l l' : Ledger) : Prop where
  request : l'.request = l.request
  clocks : l.clocks ⊆ l'.clocks
  drawn : l.drawn ⊆ l'.drawn
  clients : l.clients ⊆ l'.clients
  entropy : ∀ e, l.issue.entropy = some e → l'.issue.entropy = some e
  wire : ∀ x, l.issue.wire = some x → l'.issue.wire = some x
  access : ∀ t, l.issue.access = some t → l'.issue.access = some t
  deleted : l.issue.deleted ⊆ l'.issue.deleted
  found : l.issue.found ⊆ l'.issue.found
  redeemed : ∀ r, l.codes.redeemed = some r → l'.codes.redeemed = some r
  replayed : ∀ r, l.codes.replayed = some r → l'.codes.replayed = some r
  swapped : ∀ b, l.codes.swapped = some b → l'.codes.swapped = some b
  recorded : l.codes.swapped ≠ none → l'.codes.recorded = l.codes.recorded
  seen : l.devices.seen ⊆ l'.devices.seen
  taken : ∀ g, l.devices.taken = some g → l'.devices.taken = some g
  decided : ∀ g, l.devices.decided = some g → l'.devices.decided = some g
  first : ∀ r, l.consents.first = some r → l'.consents.first = some r
  created : ∀ x, l.consents.created = some x → l'.consents.created = some x
  reads : l.chain.reads ⊆ l'.chain.reads
  missed : l.chain.missed ⊆ l'.chain.missed
  removed : l.chain.removed ⊆ l'.chain.removed
  revoked : l.chain.revoked ⊆ l'.chain.revoked
  rotated : ∀ r, l.chain.rotated = some r → l'.chain.rotated = some r
  successor : ∀ r, l.chain.successor = some r → l'.chain.successor = some r

theorem Grows.refl (l : Ledger) : l.Grows l := by
  constructor <;> first | rfl | exact fun _ h => h | exact fun _ => rfl

theorem Grows.trans {l l' l'' : Ledger} (h : l.Grows l') (h' : l'.Grows l'') : l.Grows l'' where
  request := h'.request.trans h.request
  clocks := List.Subset.trans h.clocks h'.clocks
  drawn := List.Subset.trans h.drawn h'.drawn
  clients := List.Subset.trans h.clients h'.clients
  entropy := fun e he => h'.entropy e (h.entropy e he)
  wire := fun x hx => h'.wire x (h.wire x hx)
  access := fun t ht => h'.access t (h.access t ht)
  deleted := List.Subset.trans h.deleted h'.deleted
  found := List.Subset.trans h.found h'.found
  redeemed := fun r hr => h'.redeemed r (h.redeemed r hr)
  replayed := fun r hr => h'.replayed r (h.replayed r hr)
  swapped := fun b hb => h'.swapped b (h.swapped b hb)
  recorded := fun hs => by
    obtain ⟨b, hb⟩ := Option.ne_none_iff_exists'.mp hs
    rw [h'.recorded (by rw [h.swapped b hb]; nofun), h.recorded hs]
  seen := List.Subset.trans h.seen h'.seen
  taken := fun g hg => h'.taken g (h.taken g hg)
  decided := fun g hg => h'.decided g (h.decided g hg)
  first := fun r hr => h'.first r (h.first r hr)
  created := fun x hx => h'.created x (h.created x hx)
  reads := List.Subset.trans h.reads h'.reads
  missed := List.Subset.trans h.missed h'.missed
  removed := List.Subset.trans h.removed h'.removed
  revoked := List.Subset.trans h.revoked h'.revoked
  rotated := fun r hr => h'.rotated r (h.rotated r hr)
  successor := fun r hr => h'.successor r (h.successor r hr)

variable {srv : Server} {l : Ledger}

/-- What was empty when a call was made is free to be filled. -/
theorem kept_of_none {α : Type} {a b : Option α} (h : a = none) : ∀ x, a = some x → b = some x :=
  fun _ hx => nomatch h.symm.trans hx

theorem grows_putCode {r : AuthorizationCodeRecord} (h : l.WritesCode srv r) :
    ∀ x, l.codes.redeemed = some x → (l.codes.put r).redeemed = some x := by
  intro x hx
  cases h with
  | putBack hand fair =>
    -- A record that goes back as it was is not both consumed and issued.
    have : ¬ (r.state = .consumed none none ∧ r.state = .issued) := by
      rintro ⟨h, h'⟩
      cases h.symm.trans h'
    simpa [CodeLedger.put, hand, this] using hx
  | consume request hand fair first issued owner =>
    rw [first] at hx
    cases hx
  | mark hand again minted => simpa [CodeLedger.put] using hx
  | file request free new clock => simpa [CodeLedger.put, free] using hx

theorem grows_putRefresh {r : RefreshTokenRecord} (h : l.WritesRefresh srv r) :
    (∀ x, l.chain.rotated = some x → (l.chain.put r).rotated = some x) ∧
      ∀ x, l.chain.successor = some x → (l.chain.put r).successor = some x := by
  cases h with
  | putBack request presented held =>
    have : ¬ (r.state = .spent ∧ r.state = .active) := by
      rintro ⟨h, h'⟩
      cases h.symm.trans h'
    simp [ChainLedger.put, held, this]
  | spend request strict held active presented unrotated key grant terms spent =>
    simp [ChainLedger.put, held, spent, active, unrotated]
  | putUnheld request presented free idle read odd => simp [ChainLedger.put, free, idle]
  | mint free right first drawn key active grant draws chain => simp [ChainLedger.put, free, right, first]

theorem put_keeps (c : ChainLedger) (r : RefreshTokenRecord) :
    (c.put r).reads = c.reads ∧ (c.put r).missed = c.missed ∧ (c.put r).removed = c.removed ∧
      (c.put r).revoked = c.revoked := by
  unfold ChainLedger.put
  split <;> split <;> exact ⟨rfl, rfl, rfl, rfl⟩

theorem grows_swapGrant {expected : DeviceGrantState} {updated : DeviceGrant} {done : Bool}
    (h : l.UpdatesGrant expected updated) :
    ∀ g, l.devices.decided = some g → (l.devices.swap expected updated done).decided = some g := by
  intro g hg
  rcases h.state with hsame | ⟨-, hfirst, -⟩
  · simpa [DeviceLedger.swap, hsame] using hg
  · cases hfirst.symm.trans hg

theorem grows_swapConsent {expected : Option ConsentRecord} {updated : ConsentRecord} {done : Bool}
    (h : l.WritesConsent expected updated) :
    ∀ x, l.consents.created = some x →
      (l.consents.swap expected updated done).created = some x := by
  intro x hx
  cases h with
  | create new first once tidy => exact nomatch once.symm.trans hx
  | widen widens tidy => simpa [ConsentLedger.swap] using hx

/-- An allowed storage call only adds to the ledger. -/
theorem grows_stored {op : StorageOp} {a : op.Result} (h : l.MayStore srv op) :
    l.Grows (l.stored op a) := by
  cases op with
  | getClient clientId =>
    cases a with
    | none => exact .refl l
    | some c => exact { Grows.refl l with clients := List.subset_cons_self c _ }
  | takeAuthorizationCode code =>
    obtain ⟨p, -, -, -, -, hreplayed⟩ := h
    cases a with
    | none => exact .refl l
    | some r => exact { Grows.refl l with replayed := kept_of_none hreplayed }
  | putAuthorizationCode r => exact { Grows.refl l with redeemed := grows_putCode h }
  | compareAndSwapAuthorizationCode expected updated =>
    exact { Grows.refl l with
      swapped := kept_of_none h.2.1
      recorded := fun hs => absurd h.2.1 hs }
  | getDeviceGrant code | findDeviceGrantByUserCode code =>
    cases a with
    | none => exact .refl l
    | some g => exact { Grows.refl l with seen := List.subset_cons_self g _ }
  | takeDeviceGrant code =>
    cases a with
    | none => exact .refl l
    | some g => exact { Grows.refl l with taken := kept_of_none h }
  | putToken t =>
    cases a with
    | applied => exact { Grows.refl l with access := kept_of_none h.1.first }
    | refusedRevoked => exact { Grows.refl l with }
  | getToken x =>
    cases a with
    | none => exact .refl l
    | some t => exact { Grows.refl l with found := List.subset_cons_self t _ }
  | deleteToken x => exact { Grows.refl l with deleted := List.subset_cons_self x _ }
  | putRefreshToken r =>
    cases a with
    | applied =>
      obtain ⟨hreads, hmissed, hremoved, hrevoked⟩ := put_keeps l.chain r
      obtain ⟨hrotated, hsuccessor⟩ := grows_putRefresh h
      exact { Grows.refl l with
        reads := fun _ hx => hreads ▸ hx
        missed := fun _ hx => hmissed ▸ hx
        removed := fun _ hx => hremoved ▸ hx
        revoked := fun _ hx => hrevoked ▸ hx
        rotated := hrotated
        successor := hsuccessor }
    | refusedRevoked => exact { Grows.refl l with }
  | getRefreshToken x =>
    cases a with
    | none => exact { Grows.refl l with missed := List.subset_cons_self x _ }
    | some r => exact { Grows.refl l with reads := List.subset_cons_self r _ }
  | takeRefreshToken x => exact { Grows.refl l with removed := List.subset_cons_self x _ }
  | rotateRefreshToken expected spent access next =>
    obtain ⟨p, hrot⟩ := h
    cases a with
    | false => exact .refl l
    | true =>
      exact { Grows.refl l with
        access := kept_of_none hrot.writes.first
        rotated := kept_of_none hrot.unrotated
        successor := kept_of_none hrot.first }
  | revokeTokenFamily f window => exact { Grows.refl l with revoked := List.subset_cons_self f _ }
  | putDeviceGrant g => exact { Grows.refl l with }
  | compareAndSwapDeviceGrant expected updated =>
    exact { Grows.refl l with decided := grows_swapGrant h }
  | findConsent clientId subject =>
    refine { Grows.refl l with first := fun r hr => ?_ }
    simp [stored, ConsentLedger.look, hr]
  | compareAndSwapConsent expected updated =>
    exact { Grows.refl l with created := grows_swapConsent h }
  | _ => exact .refl l

theorem grows_draws {e : TokenEntropy} (h : l.issue.entropy = none) :
    l.Grows (l.next .tokenEntropy (some e)) :=
  { Grows.refl l with
    drawn := List.subset_append_right _ _
    entropy := kept_of_none h }

theorem grows_next {e : Effect} {r : e.Answer} (h : l.Allowed srv e) : l.Grows (l.next e r) := by
  cases e with
  | storage op =>
    cases r with
    | ok a => exact grows_stored h
    | error e => exact .refl l
  | now => exact { Grows.refl l with clocks := List.subset_cons_self _ _ }
  | tokenEntropy =>
    cases r with
    | none => exact { Grows.refl l with }
    | some e => exact grows_draws h
  | randomHex bytes =>
    cases r with
    | none => exact .refl l
    | some x => exact { Grows.refl l with drawn := List.subset_cons_self _ _ }
  | sign claims =>
    cases r with
    | none => exact { Grows.refl l with }
    | some x =>
      exact { Grows.refl l with
        drawn := List.subset_cons_self _ _
        wire := kept_of_none h }
  | _ => exact .refl l

end Ledger

/-! ## Moves that matter to tokens -/

/-- A reading of the clock, an identifier, a signature or a setback. -/
structure Ledger.Aside (l l' : Ledger) : Prop where
  grows : l.Grows l'
  chain : l'.chain = l.chain
  codes : l'.codes = l.codes
  devices : l'.devices = l.devices
  consents : l'.consents = l.consents
  entropy : l'.issue.entropy = l.issue.entropy
  access : l'.issue.access = l.issue.access
  deleted : l'.issue.deleted = l.issue.deleted
  found : l'.issue.found = l.issue.found
  clients : l'.clients = l.clients

/-- The moves of the server, where only the tokens and codes that requests know matter. -/
inductive Server.Turns (srv : Server) (w : World) (ls : List Ledger) : World → List Ledger → Prop
  | spawn (q : Request) : Turns srv w ls w (ls ++ [.start q])
  | stored (i : Nat) (l : Ledger) (op : StorageOp) (a : op.Result) (g : MemoryInner)
      (hi : ls[i]? = some l) (may : l.MayStore srv op)
      (exec : StorageOp.exec w.store op = (.ok a, g)) :
      Turns srv w ls { w with store := g } (ls.set i (l.stored op a))
  | draws (i : Nat) (l : Ledger) (e : TokenEntropy) (hi : ls[i]? = some l)
      (first : l.issue.entropy = none) (fresh : w.Fresh (World.drawnStrings e)) :
      Turns srv w ls { w with used := World.drawnStrings e ++ w.used }
        (ls.set i (l.next .tokenEntropy (some e)))
  | aside (i : Nat) (l l' : Ledger) (w' : World) (hi : ls[i]? = some l) (aside : l.Aside l')
      (store : w'.store = w.store) (used : w.used ⊆ w'.used)
      (identifier : l'.identifier = l.identifier ∨ ∃ x, l'.identifier = some x ∧ x ∉ w.used) :
      Turns srv w ls w' (ls.set i l')
  | alone (w' : World) (store : w'.store = w.store) (used : w.used ⊆ w'.used) :
      Turns srv w ls w' ls
  | sweep (now : SystemTime) :
      Turns srv w ls { w with store := (StorageOp.exec w.store (.sweepExpired now)).2 } ls

section Turns
variable {srv : Server} {w w' : World} {ls ls' : List Ledger} {m : Ledger}

theorem Server.Moves.turns (h : srv.Moves w ls w' ls') : srv.Turns w ls w' ls' := by
  cases h with
  | spawn q => exact .spawn q
  | stored i l op a g hi may exec => exact .stored i l op a g hi may exec
  | draws i l e hi first fresh => exact .draws i l e hi first fresh
  | reads i l hi =>
    refine .aside i l _ _ hi ⟨?_, rfl, rfl, rfl, rfl, rfl, rfl, rfl, rfl, rfl⟩ rfl (List.Subset.refl _)
      (.inl rfl)
    exact { Ledger.Grows.refl l with clocks := List.subset_cons_self _ _ }
  | names i l x hi fresh =>
    refine .aside i l _ _ hi ⟨?_, rfl, rfl, rfl, rfl, rfl, rfl, rfl, rfl, rfl⟩ rfl
      (List.subset_cons_self _ _) (.inr ⟨x, rfl, fresh.2 x List.mem_cons_self⟩)
    exact { Ledger.Grows.refl l with drawn := List.subset_cons_self _ _ }
  | signs i l x hi first fresh =>
    refine .aside i l _ _ hi ⟨?_, rfl, rfl, rfl, rfl, rfl, rfl, rfl, rfl, rfl⟩ rfl
      (List.subset_cons_self _ _) (.inl rfl)
    exact { Ledger.Grows.refl l with
      drawn := List.subset_cons_self _ _
      wire := Ledger.kept_of_none first }
  | setback i l hi =>
    refine .aside i l _ _ hi ⟨?_, rfl, rfl, rfl, rfl, rfl, rfl, rfl, rfl, rfl⟩ rfl (List.Subset.refl _)
      (.inl rfl)
    exact { Ledger.Grows.refl l with }
  | idle | tick elapsed => exact .alone _ rfl (List.Subset.refl _)
  | sweep now => exact .sweep now

/-- Every request that is there before a move is there afterwards, with all its ledger said. -/
theorem Server.Turns.grows (h : srv.Turns w ls w' ls') (hj : ls[j]? = some m) :
    ∃ m', ls'[j]? = some m' ∧ m.Grows m' := by
  have hset : ∀ {i l l'}, ls[i]? = some l → l.Grows l' →
      ∃ m', (ls.set i l')[j]? = some m' ∧ m.Grows m' := fun hi hl =>
    exists_getElem?_set hi (fun h => h.trans hl) ⟨m, hj, .refl m⟩
  cases h with
  | spawn q =>
    obtain ⟨hlt, -⟩ := List.getElem?_eq_some_iff.mp hj
    exact ⟨m, by rw [List.getElem?_append_left hlt, hj], .refl m⟩
  | stored i l op a g hi may exec => exact hset hi (Ledger.grows_stored may)
  | draws i l e hi first fresh => exact hset hi (Ledger.grows_draws first)
  | aside i l l' w' hi aside store used identifier => exact hset hi aside.grows
  | alone w' store used | sweep now => exact ⟨m, hj, .refl m⟩

theorem Server.Turns.grows_mem (h : srv.Turns w ls w' ls') (hm : m ∈ ls) :
    ∃ m' ∈ ls', m.Grows m' := by
  obtain ⟨j, hj⟩ := List.mem_iff_getElem?.mp hm
  obtain ⟨m', hj', hg⟩ := h.grows hj
  exact ⟨m', List.mem_of_getElem? hj', hg⟩

theorem Server.Turns.exists_mono (h : srv.Turns w ls w' ls') {P : Ledger → Prop}
    (hP : ∀ {l l'}, l.Grows l' → P l → P l') (hl : ∃ l ∈ ls, P l) : ∃ l ∈ ls', P l := by
  obtain ⟨l, hl, hPl⟩ := hl
  obtain ⟨l', hl', hg⟩ := h.grows_mem hl
  exact ⟨l', hl', hP hg hPl⟩

/-- A string that was handed out stays handed out. -/
theorem Server.Turns.used_subset (h : srv.Turns w ls w' ls') : w.used ⊆ w'.used := by
  cases h with
  | draws i l e hi first fresh => exact List.subset_append_right _ _
  | aside i l l' w' hi aside store used identifier => exact used
  | alone w' store used => exact used
  | spawn q | stored i l op a g hi may exec | sweep now => exact List.Subset.refl _

/-- What became of a ledger, one of the old ones or a new one: nothing, or one answered call. -/
inductive Server.Turned (srv : Server) (w w' : World) (old : Ledger → Prop) : Ledger → Prop
  | same (l : Ledger) (hl : old l) : Turned srv w w' old l
  | start (q : Request) : Turned srv w w' old (.start q)
  | stored (l : Ledger) (op : StorageOp) (a : op.Result) (hl : old l) (may : l.MayStore srv op)
      (exec : StorageOp.exec w.store op = (.ok a, w'.store)) : Turned srv w w' old (l.stored op a)
  | draws (l : Ledger) (e : TokenEntropy) (hl : old l) (first : l.issue.entropy = none)
      (fresh : w.Fresh (World.drawnStrings e)) :
      Turned srv w w' old (l.next .tokenEntropy (some e))
  | aside (l l' : Ledger) (hl : old l) (aside : l.Aside l') : Turned srv w w' old l'

/-- The ledger of one thread after a move. -/
theorem Server.Turns.turned_at (h : srv.Turns w ls w' ls') (hj : ls'[j]? = some m) :
    srv.Turned w w' (fun l => ls[j]? = some l) m := by
  cases h with
  | spawn q =>
    rcases getElem?_append_cases hj with hj | rfl
    · exact .same m hj
    · exact .start q
  | stored i l op a g hi may exec =>
    rcases getElem?_set_cases hi hj with ⟨rfl, rfl⟩ | ⟨-, hold⟩
    · exact .stored l op a hi may exec
    · exact .same m hold
  | draws i l e hi first fresh =>
    rcases getElem?_set_cases hi hj with ⟨rfl, rfl⟩ | ⟨-, hold⟩
    · exact .draws l e hi first fresh
    · exact .same m hold
  | aside i l l' w' hi aside store used identifier =>
    rcases getElem?_set_cases hi hj with ⟨rfl, rfl⟩ | ⟨-, hold⟩
    · exact .aside l l' hi aside
    · exact .same m hold
  | alone w' store used | sweep now => exact .same m hj

theorem Server.Turned.mono {old old' : Ledger → Prop} (hold : ∀ l, old l → old' l)
    (h : srv.Turned w w' old m) : srv.Turned w w' old' m := by
  cases h with
  | same l hl => exact .same m (hold m hl)
  | start q => exact .start q
  | stored l op a hl may exec => exact .stored l op a (hold l hl) may exec
  | draws l e hl first fresh => exact .draws l e (hold l hl) first fresh
  | aside l l' hl aside => exact .aside l m (hold l hl) aside

theorem Server.Turns.turned (h : srv.Turns w ls w' ls') (hm : m ∈ ls') :
    srv.Turned w w' (· ∈ ls) m := by
  obtain ⟨j, hj⟩ := List.mem_iff_getElem?.mp hm
  exact (h.turned_at hj).mono fun l hl => List.mem_of_getElem? hl

/-- Ledgers that say the same of records. -/
structure Ledger.Alike (l l' : Ledger) : Prop where
  request : l'.request = l.request
  chain : ∃ mint, l'.chain = { l.chain with mint := mint }
  codes : l'.codes = l.codes
  access : l'.issue.access = l.issue.access
  deleted : l'.issue.deleted = l.issue.deleted

/-- The moves of the server, where only what is stored or known of records matters: a call to the
store, or a move that adds nothing. -/
inductive Server.Changes (srv : Server) (w : World) (ls : List Ledger) : World → List Ledger → Prop
  | stored (i : Nat) (l : Ledger) (op : StorageOp) (a : op.Result) (g : MemoryInner)
      (hi : ls[i]? = some l) (may : l.MayStore srv op)
      (exec : StorageOp.exec w.store op = (.ok a, g)) :
      Changes srv w ls { w with store := g } (ls.set i (l.stored op a))
  | quiet (now : SystemTime) (w' : World) (ls' : List Ledger)
      (store : StorageOp.Frame (.sweepExpired now) w.store w'.store)
      (ledgers : ∀ m ∈ ls', (∃ q, m = .start q) ∨ ∃ l ∈ ls, l.Alike m) : Changes srv w ls w' ls'

theorem Server.Turns.changes (h : srv.Turns w ls w' ls') : srv.Changes w ls w' ls' := by
  have hsame : ∀ m ∈ ls, (∃ q, m = .start q) ∨ ∃ l ∈ ls, l.Alike m := fun m hm =>
    .inr ⟨m, hm, rfl, ⟨m.chain.mint, rfl⟩, rfl, rfl, rfl⟩
  cases h with
  | stored i l op a g hi may exec => exact .stored i l op a g hi may exec
  | spawn q => exact .quiet 0 _ _ (.same _ _) (forall_mem_append_one hsame (.inl ⟨q, rfl⟩))
  | draws i l e hi first fresh =>
    refine .quiet 0 _ _ (.same _ _) (forall_mem_set hsame (.inr ⟨l, List.mem_of_getElem? hi, ?_⟩))
    exact ⟨rfl, ⟨_, rfl⟩, rfl, rfl, rfl⟩
  | aside i l l' w' hi aside store used identifier =>
    refine .quiet 0 _ _ (store ▸ .same _ _)
      (forall_mem_set hsame (.inr ⟨l, List.mem_of_getElem? hi, ?_⟩))
    exact ⟨aside.grows.request, ⟨l.chain.mint, aside.chain⟩, aside.codes, aside.access, aside.deleted⟩
  | alone w' store used => exact .quiet 0 _ _ (store ▸ .same _ _) hsame
  | sweep now => exact .quiet now _ _ (StorageOp.frame_exec _) hsame

end Turns

/-! ## Ledgers along a run -/

/-- What a request's ledger says at some point of a run it says at every later one. -/
theorem Server.ledgers_grow {srv : Server} {ok} {s s' : State} (hF : srv.discipline.Follows s)
    (h : srv.semantics.Reaches ok s s') {l : Ledger} (hj : (srv.discipline.ledgers s)[j]? = some l) :
    ∃ l', (srv.discipline.ledgers s')[j]? = some l' ∧ l.Grows l' := by
  refine Discipline.invariant_of (D := srv.discipline)
    (I := fun _ ls => ∃ l', ls[j]? = some l' ∧ l.Grows l') h hF ⟨l, hj, .refl l⟩ ?_
  rintro s a s' ⟨l', hl', hg⟩ - hstep
  obtain ⟨l'', hl'', hg'⟩ := (moves_of_ledgerStep hstep).turns.grows hl'
  exact ⟨l'', hl'', hg.trans hg'⟩

section Did
variable {srv : Server} {ok : State → Move → State → Prop} {w : World} {s : State} {c : Call}

/-- What a call establishes and a growing ledger keeps is true of a request that made the call. -/
theorem Server.holds_of_did {e : Effect} {a : e.Answer} {Φ : Ledger → Prop}
    (h : srv.semantics.Reaches ok (State.idle w) s) (hc : c ∈ s.threads) (hdid : c.Did e a)
    (hnow : ∀ l : Ledger, l.Allowed srv e → Φ (l.next e a))
    (hmono : ∀ {l l' : Ledger}, l.Grows l' → Φ l → Φ l') : Φ (srv.discipline.ledger c) :=
  Discipline.did (D := srv.discipline) h hc hdid (fun _ l _ _ hallowed _ => hnow l hallowed)
    fun _ _ _ hl hallowed _ => hmono (Ledger.grows_next hallowed) hl

theorem Server.access_of_did {t : IssuedToken} (h : srv.semantics.Reaches ok (State.idle w) s)
    (hc : c ∈ s.threads) (hdid : c.Did (.storage (.putToken t)) (.ok .applied)) :
    (srv.discipline.ledger c).issue.access = some t :=
  holds_of_did (Φ := fun l => l.issue.access = some t) h hc hdid (fun _ _ => rfl)
    fun hg => hg.access t

end Did

end OauthAs
