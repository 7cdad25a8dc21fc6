-- SUMMARY: A pushed request is used at most once, by the client that pushed it, and no stranger can burn it.
import OauthAs.Protocol.Handles
import OauthAs.Protocol.Provenance

/-!
# Pushed requests

A presentation takes the request out of the store before it knows whether the presenter may have
it, so between the take and the put-back of a stranger's presentation the request is in nobody's
reach. That it comes back, and that nobody gets it twice, rests on the custody of handles: there is
one place for each.
-/

namespace OauthAs

open Sample

variable {s : ServiceState}

/-! ## What can happen to a stored request -/

namespace StorageOp

variable {g : MemoryInner} {op : StorageOp}

/-- A stored request stays unless it is taken, written over, swept or deleted with its client. -/
theorem kept_pushed {r : PushedAuthorizationRequest} (h : r ∈ g.pushed) :
    r ∈ (exec g op).2.pushed ∨ op = .takePushedAuthorizationRequest r.requestUri ∨
      (∃ r', op = .putPushedAuthorizationRequest r' ∧ r'.requestUri = r.requestUri) ∨
      (∃ window, op = .deleteClient r.clientId window) ∨
      ∃ now, op = .sweepExpired now ∧ r.expiresAt ≤ now := by
  rcases exec_cases g op with hsame | ⟨-, hwrites⟩
  · rw [hsame]
    exact .inl h
  generalize (exec g op).2 = g' at hwrites
  cases hwrites with
  | takePushedAuthorizationRequest requestUri =>
    by_cases huri : requestUri = r.requestUri
    · exact .inr (.inl (congrArg _ huri))
    · exact .inl (Table.mem_erase.mpr ⟨h, fun he => huri he.symm⟩)
  | @putPushedAuthorizationRequest r' live =>
    by_cases huri : r'.requestUri = r.requestUri
    · exact .inr (.inr (.inl ⟨r', rfl, huri⟩))
    · exact .inl (Table.mem_insert.mpr (.inr ⟨h, fun he => huri he.symm⟩))
  | @deleteClient clientId window named =>
    by_cases hclient : clientId = r.clientId
    · exact .inr (.inr (.inr (.inl ⟨window, by rw [hclient]⟩)))
    · refine .inl (Table.mem_retain.mpr ⟨h, ?_⟩)
      simpa using fun he : r.clientId = clientId => hclient he.symm
  | sweepExpired now =>
    by_cases hlive : now < r.expiresAt
    · exact .inl (Table.mem_retain.mpr ⟨h, decide_eq_true hlive⟩)
    · exact .inr (.inr (.inr (.inr ⟨now, rfl, Int.not_lt.mp hlive⟩)))
  | _ => exact .inl h

end StorageOp

/-! ## The request through a run -/

/-- Whether a call deletes the client. -/
def Effect.deletes (clientId : ClientId) : Effect → Bool
  | .storage (.deleteClient deleted _) => deleted == clientId
  | _ => false

/-- The steps that leave a pushed request its time: they do not delete its client, and do not
sweep once it has expired. -/
def Spares (r : PushedAuthorizationRequest) (s : ServiceState) (a : ServiceMove)
    (_ : ServiceState) : Prop :=
  match a with
  | .run i _ => ((s.threads[i]?.bind Thread.call?).all fun e => !e.deletes r.clientId) = true
  | .env (.sweep now) => now < r.expiresAt
  | _ => True

instance (r : PushedAuthorizationRequest) (s : ServiceState) (a : ServiceMove) (s' : ServiceState) :
    Decidable (Spares r s a s') :=
  match a with
  | .run _ _ => inferInstanceAs (Decidable (_ = true))
  | .env (.sweep now) => inferInstanceAs (Decidable (now < r.expiresAt))
  | .env (.tick _) | .spawn _ => inferInstanceAs (Decidable True)

/-- The request is stored or in somebody's hands, and could be stored. -/
structure Around (r : PushedAuthorizationRequest) (w : World) (ls : List ServiceLedger) : Prop where
  place : r ∈ w.store.pushed ∨ ∃ l ∈ ls, l.hand = some r
  uncovered : w.store.Uncovered r.clientId none none r.pushedAt
  custody : Server.Custody w ls

namespace Server

variable {srv : Server} {w w' : World} {ls : List ServiceLedger} {r : PushedAuthorizationRequest}
variable {x : String}

/-- A request in hand stays there until it is put back. -/
theorem hand_kept {l : ServiceLedger} {e : Effect} {a : e.Answer} (hallowed : l.Allowed srv e)
    (h : l.hand = some r) :
    (l.next e a).hand = some r ∨ e = .storage (.putPushedAuthorizationRequest r) := by
  cases l with
  | api l => cases h
  | front q l =>
    have hhand : l.hand = some r := h
    cases e with
    | storage op =>
      cases a with
      | error e => exact .inl h
      | ok a =>
        cases op with
        | takePushedAuthorizationRequest requestUri => cases hallowed.1.symm.trans hhand
        | putPushedAuthorizationRequest r' =>
          cases hallowed with
          | putBack door hand foreign =>
            cases hand.symm.trans hhand
            exact .inr rfl
          | lodge request lodges => cases lodges.free.symm.trans hhand
        | _ => exact .inl h
    | randomHex bytes => cases a <;> exact .inl h
    | _ => exact .inl h

/-- Whoever writes a pushed request has a place for its handle. -/
theorem place_of_writes {q : ServiceRequest} {l : FrontLedger} (h : l.WritesPushed srv q r)
    (huri : r.requestUri = requestUriPrefix ++ x) : 1 ≤ (ServiceLedger.front q l).places x := by
  cases h with
  | putBack door hand foreign =>
    simp [ServiceLedger.places, ServiceLedger.hand, hand, PushedAuthorizationRequest.named, huri]
  | lodge request lodges =>
    obtain ⟨y, hy, huri'⟩ := lodges.new
    have hxy : x = y := (String.append_right_inj _).mp (huri.symm.trans huri')
    simp [ServiceLedger.places, ServiceLedger.identifier, hy, hxy]

/-- A call of a request keeps a pushed request around, unless it deletes its client. -/
theorem place_run {i : Nat} {l : ServiceLedger} {e : Effect} {c : Choice} {a : e.Answer}
    (h : Around r w ls) (huri : r.requestUri = requestUriPrefix ++ x) (hi : ls[i]? = some l)
    (hallowed : l.Allowed srv e) (hperform : w.perform e c = some (a, w'))
    (hdeletes : e.deletes r.clientId = false) :
    r ∈ w'.store.pushed ∨ ∃ m ∈ ls.set i (l.next e a), m.hand = some r := by
  rcases h.place with hstored | ⟨m, hm, hhand⟩
  · rcases e.storage_cases with ⟨op, rfl⟩ | he
    · obtain ⟨hexec, -, -⟩ := World.perform_storage hperform
      have hstore : w'.store = (op.exec w.store).2 := (congrArg Prod.snd hexec).symm
      rcases @StorageOp.kept_pushed _ op _ hstored with
        hkept | rfl | ⟨r', rfl, huri'⟩ | ⟨window, rfl⟩ | ⟨now, rfl, -⟩
      · exact .inl (hstore ▸ hkept)
      · have hfound : a = .ok (some r) := by
          refine (congrArg Prod.fst hexec).symm.trans ?_
          exact congrArg Except.ok (Table.lookup_key hstored)
        subst hfound
        cases l with
        | api l => cases hallowed
        | front q l => exact .inr ⟨_, mem_set_self hi, rfl⟩
      · -- The handle is stored, so nobody else has a place for it.
        cases l with
        | api l => cases hallowed
        | front q l =>
          have hplace := place_of_writes hallowed (huri'.trans huri)
          have hhandles : 1 ≤ w.store.handles x :=
            Table.one_le_count hstored (by simp [PushedAuthorizationRequest.named, huri])
          have htotal := le_total_of_mem (f := ServiceLedger.places x) (List.mem_of_getElem? hi)
          have hbudget := h.custody.single x
          omega
      · simp [Effect.deletes] at hdeletes
      · cases l <;> cases hallowed
    · rw [(World.frame_of_perform he hperform).1]
      exact .inl hstored
  · obtain ⟨j, hj⟩ := List.mem_iff_getElem?.mp hm
    by_cases hij : i = j
    · subst hij
      cases hi.symm.trans hj
      rcases hand_kept (a := a) hallowed hhand with hkept | rfl
      · exact .inr ⟨_, mem_set_self hi, hkept⟩
      · obtain ⟨hexec, -, -⟩ := World.perform_storage hperform
        left
        rw [show w'.store = _ from (congrArg Prod.snd hexec).symm]
        have hlive := MemoryInner.isRevoked_eq_false.mpr h.uncovered
        simp only [StorageOp.exec, StorageOp.succeeding,
          MemoryInner.putPushedAuthorizationRequest, hlive]
        exact Table.mem_insert_self
    · exact .inr ⟨m, List.mem_of_getElem? ((List.getElem?_set_ne hij).trans hj), hhand⟩

/-- The only barrier that names a pushed request is the one of its client's deletion. -/
theorem uncovered_of_not_deletes {g : MemoryInner} (op : StorageOp)
    (h : g.Uncovered r.clientId none none r.pushedAt)
    (hdeletes : Effect.deletes r.clientId (.storage op) = false) :
    (op.exec g).2.Uncovered r.clientId none none r.pushedAt := by
  refine StorageOp.uncovered_exec h fun b window hrec hnames => ?_
  cases StorageOp.records_of_recorded hrec with
  | client named =>
    simp only [Effect.deletes, beq_eq_false_iff_ne] at hdeletes
    exact hdeletes hnames
  | family named => cases hnames
  | consent found named => cases hnames.2

/-- A sparing run keeps a pushed request around. -/
theorem around_of_reaches {s' : ServiceState} (huri : r.requestUri = requestUriPrefix ++ x)
    (hF : srv.serviceDiscipline.Follows s) (h : Around r s.world (srv.serviceDiscipline.ledgers s))
    (hr : srv.service.Reaches (Spares r) s s') :
    Around r s'.world (srv.serviceDiscipline.ledgers s') := by
  refine srv.serviceDiscipline.invariant_by (I := Around r) hr hF h ?_ ?_ ?_
  · intro s q s' _ h
    refine ⟨?_, h.uncovered, custody_step h.custody (.spawn q)⟩
    exact h.place.imp_right fun ⟨l, hl, hhand⟩ => ⟨l, List.mem_append_left _ hl, hhand⟩
  · intro s i c s' t e a w' hok h hi hcall hallowed hperform
    have hdeletes : e.deletes r.clientId = false := by
      simp only [Spares, hi, Option.bind_some, hcall, Option.all_some, Bool.not_eq_true'] at hok
      exact hok
    have hledger := Discipline.ledgers_getElem? (D := srv.serviceDiscipline) hi
    refine ⟨place_run h huri hledger hallowed hperform hdeletes, ?_, custody_step h.custody
      (.run i _ e c a w' hledger hallowed (srv.serviceDiscipline.perform_possible hperform) hperform)⟩
    rcases World.store_of_perform hperform with ⟨op, rfl, hstore⟩ | hstore
    · rw [hstore]
      exact uncovered_of_not_deletes _ h.uncovered hdeletes
    · rw [hstore]
      exact h.uncovered
  · intro s v s' w' hok h henv
    refine ⟨?_, ?_, custody_step h.custody (.env v w' henv)⟩
    · refine h.place.imp_left fun hstored => ?_
      cases v with
      | tick elapsed => cases henv; exact hstored
      | sweep now =>
        cases henv
        exact Table.mem_retain.mpr ⟨hstored, decide_eq_true hok⟩
    · cases v with
      | tick elapsed => cases henv; exact h.uncovered
      | sweep now =>
        cases henv
        exact uncovered_of_not_deletes (.sweepExpired now) h.uncovered rfl

/-- Nothing stored is ever covered by a standing barrier. -/
theorem service_unrevoked {ok} {clock : SystemTime} (h : srv.ServiceRuns ok clock s) :
    s.world.store.Unrevoked := by
  refine srv.serviceDiscipline.invariant (I := fun w _ => w.store.Unrevoked) h
    StorageOp.unrevoked_empty fun w ls w' ls' hI hstep => store_step ?_ ?_ hstep hI
  · intro l op g hallowed hg
    refine StorageOp.unrevoked_exec hg ?_
    cases l with
    | api l => exact l.keepsGrant_of_mayStore hallowed
    | front q l => cases op <;> trivial
  · exact fun now g hg => StorageOp.unrevoked_exec hg trivial

end Server

/-! ## Presentations -/

/-- A presentation of a handle under a client id. -/
def Server.Presents (srv : Server) (t : ServiceCall) (clientId requestUri : String) : Prop :=
  srv.door t.request = some (.pushed clientId requestUri)

instance (srv : Server) (t : ServiceCall) (clientId requestUri : String) :
    Decidable (srv.Presents t clientId requestUri) :=
  inferInstanceAs (Decidable (_ = _))

/-- The reply hands out the validated request, or is an answer of the endpoint that goes where the
request asked. -/
def ServiceReply.gotThrough : ServiceReply → Bool
  | .validated (.ok _) | .response (.redirect _) => true
  | _ => false

def GotThrough (t : ServiceCall) : Prop := ∃ reply, t.reply? = some reply ∧ reply.gotThrough = true

namespace Server

variable {srv : Server}

/-- Whoever got through with a handle has the request that its own client pushed under it. -/
theorem held_of_gotThrough (hF : srv.serviceDiscipline.Follows s) {t : ServiceCall}
    (ht : t ∈ s.threads) {clientId requestUri : String}
    (hpresents : srv.Presents t clientId requestUri) (hgot : GotThrough t) :
    ∃ r, (srv.serviceDiscipline.ledger t).hand = some r ∧ r.requestUri = requestUri ∧
      r.clientId = clientId := by
  obtain ⟨reply, hreply, hgot⟩ := hgot
  have haccepts : (srv.serviceDiscipline.ledger t).Accepts srv reply :=
    srv.serviceDiscipline.accepts hF ht hreply
  cases hledger : srv.serviceDiscipline.ledger t with
  | api l =>
    rw [hledger] at haccepts
    obtain ⟨a, rfl, -⟩ := haccepts
    cases hgot
  | front q l =>
    rw [hledger] at haccepts
    obtain ⟨rfl, -, -⟩ := front_of_ledger hledger
    obtain ⟨-, haccepts⟩ := haccepts
    have hasked : ∀ door request, srv.door t.request = some door → l.Asked srv door request →
        ∃ r, l.hand = some r ∧ r.requestUri = requestUri ∧ r.clientId = clientId := by
      intro door request hdoor hasked
      cases hdoor.symm.trans hpresents
      obtain ⟨r, hhand, huri, hclient, -⟩ := hasked
      exact ⟨r, hhand, huri, hclient⟩
    unfold ServiceReply.gotThrough at hgot
    split at hgot
    · obtain ⟨door, hdoor, request, h, -⟩ := haccepts
      exact hasked door request hdoor h
    · obtain ⟨door, hdoor, request, client, h, -⟩ := haccepts
      exact hasked door request hdoor h
    · cases hgot

end Server

/-- In every run at most one presentation of a handle gets through, and it is one by the client
that pushed the request. A request that is stored stays in the store, or comes back to it, while
its client is not deleted, no sweep finds it expired and none of that client's own presentations
takes it: once all presentations have been answered it is there. -/
theorem handle_used_once_never_burned {srv : Server} {clock : SystemTime} {s : ServiceState}
    (h : srv.service.Reaches Semantics.anyStep (ServiceState.idle (.initial clock)) s) :
    (∀ (i j : Nat) t t' clientId clientId' requestUri, s.threads[i]? = some t →
      s.threads[j]? = some t' → srv.Presents t clientId requestUri →
      srv.Presents t' clientId' requestUri → GotThrough t → GotThrough t' →
      i = j ∧ ∃ pusher ∈ s.threads, ∃ p r, pusher.request = .push p ∧ p.clientId = clientId ∧
        r.clientId = clientId ∧ r.requestUri = requestUri ∧
        pusher.Did (.storage (.putPushedAuthorizationRequest r)) (.ok .applied)) ∧
    ∀ r ∈ s.world.store.pushed, ∀ s', srv.service.Reaches (Spares r) s s' →
      (∀ t ∈ s'.threads, srv.Presents t r.clientId r.requestUri →
        ¬ t.Did (.storage (.takePushedAuthorizationRequest r.requestUri)) (.ok (some r))) →
      (∀ t ∈ s'.threads, ∀ clientId, srv.Presents t clientId r.requestUri → t.Finished) →
      r ∈ s'.world.store.pushed := by
  have hF := srv.serviceDiscipline.follows_run h
  have hcustody := Server.custody h
  refine ⟨?_, ?_⟩
  · intro i j t t' clientId clientId' requestUri hi hj hpresents hpresents' hgot hgot'
    have ht := List.mem_of_getElem? hi
    obtain ⟨r, hhand, huri, hclient⟩ := Server.held_of_gotThrough hF ht hpresents hgot
    obtain ⟨r', hhand', huri', -⟩ :=
      Server.held_of_gotThrough hF (List.mem_of_getElem? hj) hpresents' hgot'
    obtain ⟨pusher, hpusher, p, l, hq, -, hpast, hlodged⟩ :=
      Server.pusher h (.inr ⟨_, Discipline.mem_ledgers ht, hhand⟩)
    obtain ⟨x, hx⟩ := hlodged.handle
    refine ⟨?_, pusher, hpusher, p, r, hq, hlodged.owner.symm.trans hclient, hclient, huri, ?_⟩
    · have hplace : ∀ {l : ServiceLedger} {r : PushedAuthorizationRequest}, l.hand = some r →
          r.requestUri = requestUri → 1 ≤ l.places x := by
        intro l r hhand huri'
        simp [ServiceLedger.places, hhand, PushedAuthorizationRequest.named, huri', ← huri, hx]
      refine eq_of_total_le_one (f := ServiceLedger.places x) ?_ (Discipline.ledgers_getElem? hi)
        (Discipline.ledgers_getElem? hj) (hplace hhand huri) (hplace hhand' huri')
      exact (Nat.le_add_left _ _).trans (hcustody.single x)
    · unfold Thread.Did
      rw [← hpast]
      exact hlodged.stored
  · intro r hr s' hrun hunclaimed hfinished
    obtain ⟨_, _, _, _, _, _, _, hlodged⟩ := Server.pusher h (.inl hr)
    obtain ⟨x, hx⟩ := hlodged.handle
    have haround := Server.around_of_reaches hx hF
      ⟨.inl hr, (Server.service_unrevoked h).pushed r hr, hcustody⟩ hrun
    refine haround.place.resolve_right ?_
    -- A finished presentation that still holds the request is one by its own client.
    rintro ⟨l, hl, hhand⟩
    obtain ⟨t, ht, rfl⟩ := List.mem_map.mp hl
    cases hledger : srv.serviceDiscipline.ledger t with
    | api l =>
      rw [hledger] at hhand
      cases hhand
    | front q l =>
      rw [hledger] at hhand hl
      obtain ⟨rfl, hpast, -⟩ := Server.front_of_ledger hledger
      obtain ⟨hdid, clientId, hdoor⟩ := Server.taken_of_hand (h.trans hrun.any) _ hl _ l rfl r hhand
      obtain ⟨reply, hreply⟩ := Option.isSome_iff_exists.mp (hfinished t ht clientId hdoor)
      have haccepts := srv.serviceDiscipline.accepts
        (srv.serviceDiscipline.follows_of_reaches hrun hF) ht hreply
      rw [hledger] at haccepts
      obtain ⟨requestUri, howner⟩ := haccepts.1 r hhand
      cases howner.symm.trans hdoor
      refine hunclaimed t ht hdoor ?_
      unfold Thread.Did
      rw [← hpast]
      exact hdid

/-- A stranger presents the handle and leaves the request where it was; the client that pushed it
gets through after that. -/
theorem handle_used_once_never_burned_intruder :
    ∃ s s' s'' : ServiceState, ∃ t ∈ s''.threads,
      pushing.service.Reaches Semantics.anyStep (ServiceState.idle (.initial 0)) s ∧
      pushing.service.Reaches (Spares lodged) s s' ∧
      pushing.service.Reaches Semantics.anyStep (ServiceState.idle (.initial 0)) s'' ∧
      lodged ∈ s.world.store.pushed ∧ lodged ∈ s'.world.store.pushed ∧
      pushing.Presents t "app" handle ∧ GotThrough t ∧
      ∃ pusher ∈ s''.threads, ∃ r : PushedAuthorizationRequest, r.requestUri = handle ∧
        pusher.Did (.storage (.putPushedAuthorizationRequest r)) (.ok .applied) := by
  obtain ⟨s, hs, hstored, s', hs', hforeign, hfinished, s'', hs'', t, ht, hpresents, reply, hreply,
      hgot⟩ : ∃ s ∈ pushing.service.run (ServiceState.idle (.initial 0)) (appears ++ pushes 1 push),
      s.world.store.pushed.lookup handle = some lodged ∧
      ∃ s' ∈ pushing.service.runChecked (fun s a s' => decide (Spares lodged s a s')) s (intrudes 2),
        (∀ t ∈ s'.threads, ¬ pushing.Presents t "app" handle) ∧ (∀ t ∈ s'.threads, t.Finished) ∧
        ∃ s'' ∈ pushing.service.run s' (presents 3), ∃ t ∈ s''.threads[3]?,
          pushing.Presents t "app" handle ∧ ∃ reply ∈ t.reply?, reply.gotThrough = true := by
    decide +kernel
  have hreach := Semantics.reaches_of_run hs
  have hspared := Semantics.reaches_of_runChecked (fun _ _ _ h => of_decide_eq_true h) hs'
  have hreach'' := (hreach.trans hspared.any).trans (Semantics.reaches_of_run hs'')
  have hmem := Table.mem_of_lookup hstored
  have hkept := (handle_used_once_never_burned hreach).2 lodged hmem s' hspared
    (fun t ht h => absurd h (hforeign t ht)) fun t ht _ _ => hfinished t ht
  have hgot : GotThrough t := ⟨reply, hreply, hgot⟩
  obtain ⟨-, pusher, hpusher, -, r, -, -, -, huri, hdid⟩ := (handle_used_once_never_burned hreach'').1
    3 3 t t "app" "app" handle ht ht hpresents hpresents hgot hgot
  exact ⟨s, s', s'', t, List.mem_of_getElem? ht, hreach, hspared, hreach'', hmem, hkept, hpresents,
    hgot, pusher, hpusher, r, huri, hdid⟩

end OauthAs
