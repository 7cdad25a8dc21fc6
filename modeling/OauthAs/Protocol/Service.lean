-- SUMMARY: The discipline of the whole service, made up of those of its two halves.
import OauthAs.Protocol.Doors
import OauthAs.Protocol.Moves

/-!
# The discipline of the service

A thread of the service has a ledger of the half it belongs to, and keeps to the protocol of that
half.
-/

namespace OauthAs

open Prog

/-- The ledger of a thread of the service. -/
inductive ServiceLedger where
  | api (l : Ledger)
  | front (q : ServiceRequest) (l : FrontLedger)

namespace ServiceLedger

def start : ServiceRequest → ServiceLedger
  | .api request _ => .api (.start request)
  | q => .front q .start

def next : ServiceLedger → (e : Effect) → e.Answer → ServiceLedger
  | api l, e, r => api (l.next e r)
  | front q l, e, r => front q (l.next e r)

def Allowed (srv : Server) : ServiceLedger → Effect → Prop
  | api l, e => l.Allowed srv e
  | front q l, e => l.Allowed srv q e

def Accepts (srv : Server) (reply : ServiceReply) : ServiceLedger → Prop
  | api l => ∃ a, reply = .api a ∧ l.Accepts srv a
  | front q l => l.Accepts srv q reply

def hand : ServiceLedger → Option PushedAuthorizationRequest
  | api _ => none
  | front _ l => l.hand

def lodged : ServiceLedger → Option PushedAuthorizationRequest
  | api _ => none
  | front _ l => l.lodged

def identifier : ServiceLedger → Option String
  | api _ => none
  | front _ l => l.identifier

def minted : ServiceLedger → Option AuthorizationCodeRecord
  | api _ => none
  | front _ l => l.minted

theorem start_front {q : ServiceRequest} (hq : ∀ request entry, q ≠ .api request entry) :
    start q = .front q .start := by
  cases q with
  | api request entry => exact absurd rfl (hq request entry)
  | _ => rfl

/-- A request of the token endpoints came in by one of the entry points. -/
def Entered : ServiceLedger → Prop
  | api l => l.request.isEntry = true
  | front _ _ => True

theorem entered_start (q : ServiceRequest) : (start q).Entered := by
  cases q with
  | api request entry => exact entry
  | _ => trivial

theorem Entered.next {l : ServiceLedger} (h : l.Entered) (e : Effect) (r : e.Answer) :
    (l.next e r).Entered := by
  cases l with
  | api l => exact (congrArg Request.isEntry (l.next_request e r)).trans h
  | front q l => trivial

end ServiceLedger

namespace Server

variable {srv : Server} {q : ServiceRequest} {w : World} {s : ServiceState}

def serviceProtocol (srv : Server) : Protocol Effect Effect.Answer ServiceLedger where
  next := ServiceLedger.next
  allowed := ServiceLedger.Allowed srv
  possible := Effect.Possible

theorem follows_api (request : Request) :
    wp srv.serviceProtocol (ServiceReply.api <$> srv.handle request) (.api (.start request))
      fun reply l => l.Accepts srv reply := by
  refine wp_bind.mpr (wp_mono ?_ (wp_embed (f := ServiceLedger.api) (fun _ _ _ => rfl)
    (fun _ _ h => h) (fun _ _ h => h) (srv.handle_follows request)))
  rintro a _ ⟨l, rfl, h⟩
  exact ⟨a, rfl, h⟩

theorem follows_front {ε α : Type} {reply : Except ε α → ServiceReply} {h : Handler ε α}
    (hh : wpE (srv.frontProtocol q) h .start
      (fun a l => l.Accepts srv q (reply (.ok a))) (fun e l => l.Accepts srv q (reply (.error e)))) :
    wp srv.serviceProtocol (reply <$> h.run) (.front q .start)
      fun reply l => l.Accepts srv reply := by
  refine wp_bind.mpr (wp_mono ?_ (wp_embed (f := ServiceLedger.front q) (fun _ _ _ => rfl)
    (fun _ _ h => h) (fun _ _ h => h) hh))
  rintro (e | a) _ ⟨l, rfl, h⟩
  · exact h
  · exact h

/-- Validation by a call of the host. -/
theorem follows_validation (door : Door) (hdoor : srv.door q = some door) :
    wpE (srv.frontProtocol q) (srv.resolve door) .start
      (fun validated l => l.Accepts srv q (.validated (.ok validated)))
      (fun e l => l.Accepts srv q (.validated (.error e))) := by
  refine wpE_mono ?_ ?_ (front_resolve hdoor rfl)
  · rintro validated l ⟨⟨-, -, -, -, hreturned⟩, hresolved⟩
    exact ⟨hreturned, door, hdoor, hresolved⟩
  · rintro e l ⟨⟨-, -, -, -, hreturned⟩, hresolved⟩
    refine ⟨hreturned, ?_⟩
    cases e with
    | direct error => trivial
    | redirect r => exact ⟨door, hdoor, (hresolved r rfl).addresses_error⟩

/-- A call of the host that issues a code. -/
theorem follows_issuance {approval : UserApproval} {requirement : AuthenticationRequirement}
    {authentication : Option Authentication} (hq : q.approval? = some approval)
    (hissues : FrontLedger.start.Issues srv q approval requirement authentication) :
    wpE (srv.frontProtocol q)
      (srv.issueAuthorizationCodeWithAuthentication approval requirement authentication) .start
      (fun response l => l.Accepts srv q (.code (.ok response)))
      (fun e l => l.Accepts srv q (.code (.error e))) := by
  have hreturned : ∀ l', FrontLedger.start.Extends l' → l'.Returned srv q :=
    fun l' hext r hr => nomatch hext.hand.symm.trans hr
  refine wpE_mono ?_ ?_ (front_issueWith rfl hissues)
  · rintro response l ⟨hext, -, hstate, hiss⟩
    exact ⟨hreturned l hext, approval, hq, hstate, hiss⟩
  · rintro _ l ⟨hext, error, rfl⟩
    exact ⟨hreturned l hext, approval, error, hq, rfl⟩

theorem serve_follows (q : ServiceRequest) :
    wp srv.serviceProtocol (srv.serve q) (.start q) fun reply l => l.Accepts srv reply := by
  cases q with
  | api request entry => exact follows_api request
  | push p =>
    refine follows_front (wpE_mono ?_ ?_ (follows_pushedAuthorizationRequest p))
    · exact fun _ l hhand => ⟨fun r hr => (nomatch hhand.symm.trans hr), trivial⟩
    · exact fun _ l hhand => ⟨fun r hr => (nomatch hhand.symm.trans hr), trivial⟩
  | validate request =>
    exact follows_front (follows_validation (.query request) rfl)
  | validatePushed clientId requestUri =>
    exact follows_front (follows_validation (.pushed clientId requestUri) rfl)
  | validateSigned clientId object =>
    exact follows_front (follows_validation (.signed clientId object) rfl)
  | issueCode approval | issueCodeWith approval requirement authentication =>
    exact follows_front (follows_issuance rfl ⟨rfl, rfl, rfl⟩)
  | authorize p => exact follows_front (follows_authorizeHandler p)

def serviceDiscipline (srv : Server) : Discipline srv.service ServiceLedger where
  protocol := srv.serviceProtocol
  start := ServiceLedger.start
  accept := fun reply l => l.Accepts srv reply
  handler_follows := serve_follows
  perform_possible := perform_possible

/-- The calls of a request of the token endpoints. -/
theorem summary_api (srv : Server) (request : Request) (entry : request.isEntry = true)
    (trace : List Answered) :
    ∃ l, srv.serviceDiscipline.summary (.api request entry) trace = .api l ∧
      l.request = request := by
  refine ⟨trace.foldl (fun l ev => Ledger.next l ev.1 ev.2) (.start request), ?_, ?_⟩
  · exact List.foldl_hom ServiceLedger.api fun _ _ => rfl
  · exact List.foldlRecOn (motive := fun l => Ledger.request l = request) trace _ rfl
      fun l hl ev _ => (l.next_request ev.1 ev.2).trans hl

/-- The calls of a request of the front half; its ledger carries them along. -/
theorem summary_front (srv : Server) (hq : ∀ request entry, q ≠ .api request entry)
    (trace : List Answered) :
    ∃ l, srv.serviceDiscipline.summary q trace = .front q l ∧ l.past = trace := by
  have hpast : ∀ (trace : List Answered) (l : FrontLedger),
      (trace.foldl (fun l ev => l.next ev.1 ev.2) l).past = l.past ++ trace := by
    intro trace
    induction trace with
    | nil => exact fun l => (List.append_nil _).symm
    | cons ev trace ih => exact fun l => (ih _).trans (by rw [l.next_past, List.append_assoc]; rfl)
  refine ⟨trace.foldl (fun l ev => FrontLedger.next l ev.1 ev.2) .start, ?_, hpast trace .start⟩
  rw [Discipline.summary, show srv.serviceDiscipline.start q = _ from ServiceLedger.start_front hq]
  exact List.foldl_hom (ServiceLedger.front q) fun _ _ => rfl

/-- A ledger of the front half is about its thread's request and calls. -/
theorem front_of_ledger {t : ServiceCall} {l : FrontLedger}
    (h : srv.serviceDiscipline.ledger t = .front q l) :
    t.request = q ∧ l.past = t.trace ∧ ∀ request entry, q ≠ .api request entry := by
  have hq : ∀ request entry, t.request ≠ .api request entry := by
    intro request entry hrequest
    obtain ⟨l', hl', -⟩ := srv.summary_api request entry t.trace
    rw [← hrequest] at hl'
    cases hl'.symm.trans h
  obtain ⟨l', hl', hpast⟩ := srv.summary_front hq t.trace
  cases hl'.symm.trans h
  exact ⟨rfl, hpast, hq⟩

theorem entered {ok} (h : srv.service.Reaches ok (ServiceState.idle w) s) :
    ∀ l ∈ srv.serviceDiscipline.ledgers s, l.Entered :=
  Discipline.ledger_invariant h ServiceLedger.entered_start fun _ e r hl _ _ => hl.next e r

/-- What a call of the front half was allowed by. -/
theorem front_allowed {ok} {t : ServiceCall} {e : Effect} {r : e.Answer}
    {before after : List Answered} (h : srv.service.Reaches ok (ServiceState.idle w) s)
    (ht : t ∈ s.threads) (hq : ∀ request entry, t.request ≠ .api request entry)
    (htrace : t.trace = before ++ ⟨e, r⟩ :: after) :
    ∃ l : FrontLedger, l.past = before ∧ l.Allowed srv t.request e := by
  obtain ⟨hallowed, -⟩ := srv.serviceDiscipline.allowed_of_trace h ht htrace
  obtain ⟨l, hl, hpast⟩ := srv.summary_front hq before
  rw [hl] at hallowed
  exact ⟨l, hpast, hallowed⟩

/-- A property of the store that every call and every sweep keeps. -/
theorem store_step {Φ : MemoryInner → Prop} {w' : World} {ls ls' : List ServiceLedger}
    (hop : ∀ (l : ServiceLedger) op g, l.Allowed srv (.storage op) → Φ g → Φ (op.exec g).2)
    (hsweep : ∀ now g, Φ g → Φ (StorageOp.exec g (.sweepExpired now)).2)
    (hstep : srv.serviceDiscipline.LedgerStep w ls w' ls') (h : Φ w.store) : Φ w'.store := by
  cases hstep with
  | spawn q => exact h
  | run i l e c a w' hi hallowed hpossible hperform =>
    rcases World.store_of_perform hperform with ⟨op, rfl, hstore⟩ | hstore
    · rw [hstore]
      exact hop l op _ hallowed h
    · rw [hstore]
      exact h
  | env v w' henv =>
    cases v with
    | tick elapsed => cases henv; exact h
    | sweep now => cases henv; exact hsweep now _ h

/-! ## Budgets of random strings -/

/-- At most one place for each random string, in the store or with a thread, and none for a string
that was never drawn. -/
structure Budget (n : String → MemoryInner → Nat) (f : String → ServiceLedger → Nat) (w : World)
    (ls : List ServiceLedger) : Prop where
  single : ∀ x, n x w.store + total (f x) ls ≤ 1
  undrawn : ∀ x, x ∉ w.used → n x w.store + total (f x) ls = 0

/-- No call adds a place for a string, except that it draws one nobody had. -/
structure Pays (srv : Server) (n : String → MemoryInner → Nat) (f : String → ServiceLedger → Nat) :
    Prop where
  start : ∀ q x, f x (.start q) = 0
  call : ∀ {w w' : World} {l : ServiceLedger} {e : Effect} {c : Choice} {a : e.Answer},
    l.Allowed srv e → w.perform e c = some (a, w') → ∀ x,
      n x w'.store + f x (l.next e a) ≤ n x w.store + f x l ∨
        (x ∉ w.used ∧ x ∈ w'.used ∧ n x w'.store + f x (l.next e a) ≤ n x w.store + f x l + 1)
  sweep : ∀ now g x, n x (StorageOp.exec g (.sweepExpired now)).2 ≤ n x g

namespace Pays

variable {n : String → MemoryInner → Nat} {f : String → ServiceLedger → Nat} {w w' : World}
  {ls ls' : List ServiceLedger}

/-- The front ledger after a call that is no storage call: one may have been drawn a string. -/
theorem identifier_next {l : ServiceLedger} {e : Effect} {c : Choice} {a : e.Answer}
    (he : e.isStorage = false) (hperform : w.perform e c = some (a, w')) :
    (l.next e a).identifier = l.identifier ∨
      ∃ x, (l.next e a).identifier = some x ∧ x ∉ w.used ∧ x ∈ w'.used := by
  cases l with
  | api l => exact .inl rfl
  | front q l =>
    cases e with
    | storage op => cases he
    | randomHex bytes =>
      cases a with
      | none => exact .inl rfl
      | some hex =>
        obtain ⟨hfresh, rfl⟩ := World.perform_randomHex hperform
        exact .inr ⟨hex.text, rfl, hfresh, List.mem_cons_self⟩
    | _ => exact .inl rfl

/-- A string has a place with the thread that drew it, and every storage call pays for the places
it adds. -/
theorem of_identifier (f' : String → ServiceLedger → Nat)
    (hf : ∀ x l, f x l = (l.identifier == some x).toNat + f' x l)
    (hstart : ∀ q x, f' x (.start q) = 0)
    (hstored : ∀ {l : ServiceLedger} {op : StorageOp} {a : op.Result} {g g' : MemoryInner},
      l.Allowed srv (.storage op) → op.exec g = (.ok a, g') → ∀ x,
        n x g' + f x (l.next (.storage op) (.ok a)) ≤ n x g + f x l)
    (hother : ∀ {l : ServiceLedger} {e : Effect} {a : e.Answer}, (∀ op a', (⟨e, a⟩ :
      Answered) ≠ ⟨.storage op, .ok a'⟩) → ∀ x, f' x (l.next e a) = f' x l)
    (hsweep : ∀ now g x, n x (StorageOp.exec g (.sweepExpired now)).2 ≤ n x g) :
    srv.Pays n f where
  start q x := by
    rw [hf, hstart]
    cases q <;> rfl
  call {w w' l e c a} hallowed hperform x := by
    rcases e.storage_cases with ⟨op, rfl⟩ | he
    · obtain ⟨hexec, -, -⟩ := World.perform_storage hperform
      left
      cases a with
      | ok a => exact hstored hallowed hexec x
      | error error =>
        have hsame : w'.store = w.store := by
          have := StorageOp.exec_error (congrArg Prod.fst hexec)
          rw [hexec] at this
          exact this
        have hidentifier : (l.next (.storage op) (.error error)).identifier = l.identifier := by
          cases l <;> rfl
        rw [hsame, hf, hf, hidentifier, hother (by rintro _ _ ⟨⟩)]
    · have hkept : f' x (l.next e a) = f' x l := hother (by rintro op _ ⟨⟩; cases he) x
      rw [(World.frame_of_perform he hperform).1, hf, hf, hkept]
      rcases identifier_next (l := l) he hperform with hsame | ⟨y, hy, hfresh, hused⟩
      · exact .inl (by rw [hsame])
      · rw [hy]
        by_cases hxy : y = x
        · subst hxy
          refine .inr ⟨hfresh, hused, ?_⟩
          have := Bool.toNat_le (some y == some y)
          omega
        · have hne : (some y == some x) = false := by simpa using hxy
          rw [hne, Bool.toNat_false]
          exact .inl (by omega)
  sweep := hsweep

theorem step (hp : srv.Pays n f) (h : Budget n f w ls)
    (hstep : srv.serviceDiscipline.LedgerStep w ls w' ls') : Budget n f w' ls' := by
  cases hstep with
  | spawn q =>
    have hstart : ∀ x, total (f x) (ls ++ [ServiceLedger.start q]) = total (f x) ls := by
      intro x
      rw [total_append_one, hp.start, Nat.add_zero]
    refine ⟨fun x => ?_, fun x hx => ?_⟩
    · exact (hstart x).symm ▸ h.single x
    · exact (hstart x).symm ▸ h.undrawn x hx
  | run i l e c a w' hi hallowed hpossible hperform =>
    have hcall := hp.call hallowed hperform
    refine ⟨fun x => ?_, fun x hx => ?_⟩
    · rcases hcall x with hle | ⟨hfresh, -, hle⟩
      · exact (add_total_set_le hi hle).trans (h.single x)
      · have hnone := h.undrawn x hfresh
        have hdrawn : n x w'.store + f x (l.next e a) ≤ n x w.store + 1 + f x l := by omega
        exact (add_total_set_le hi hdrawn).trans (by omega)
    · rcases hcall x with hle | ⟨-, hused, -⟩
      · have hnone := h.undrawn x fun hold => hx (World.used_of_perform hperform hold)
        have hle' := add_total_set_le hi hle
        exact Nat.le_zero.mp (hnone ▸ hle')
      · exact absurd hused hx
  | env v w' henv =>
    have hstore : (∀ x, n x w'.store ≤ n x w.store) ∧ w'.used = w.used := by
      cases v with
      | tick elapsed =>
        cases henv
        exact ⟨fun x => Nat.le_refl _, rfl⟩
      | sweep now =>
        cases henv
        exact ⟨fun x => hp.sweep now w.store x, rfl⟩
    refine ⟨fun x => ?_, fun x hx => ?_⟩
    · exact (Nat.add_le_add_right (hstore.1 x) _).trans (h.single x)
    · have hnone := h.undrawn x (hstore.2 ▸ hx)
      have := hstore.1 x
      omega

theorem budget (hp : srv.Pays n f) (hempty : ∀ x, n x .empty = 0) {ok} {clock : SystemTime}
    (h : srv.ServiceRuns ok clock s) : Budget n f s.world (srv.serviceDiscipline.ledgers s) := by
  refine srv.serviceDiscipline.invariant h ⟨fun x => ?_, fun x _ => hempty x⟩
    fun _ _ _ _ hI hstep => hp.step hI hstep
  exact (hempty x).le.trans (Nat.zero_le _)

end Pays

/-! ## Where records come from -/

/-- A thread that has made something keeps it, and whatever comes to be stored or held goes back, in
all that no call changes, to what was there or to what has just been made. -/
structure Originates (srv : Server) {α : Type} (stored : MemoryInner → α → Prop)
    (held made : ServiceLedger → α → Prop) (alike : α → α → Prop) : Prop where
  trans : ∀ {r m n}, alike r m → alike m n → alike r n
  start : ∀ q r, ¬ held (.start q) r
  keeps : ∀ {l : ServiceLedger} {e : Effect} {a : e.Answer} {r}, l.Allowed srv e → made l r →
    made (l.next e a) r
  call : ∀ {w w' : World} {l : ServiceLedger} {e : Effect} {c : Choice} {a : e.Answer} {r},
    l.Entered → l.Allowed srv e → w.perform e c = some (a, w') →
      stored w'.store r ∨ held (l.next e a) r →
      ∃ m, alike r m ∧ (stored w.store m ∨ held l m ∨ made (l.next e a) m)
  sweep : ∀ {now g r}, stored (StorageOp.exec g (.sweepExpired now)).2 r → stored g r

namespace Originates

variable {α : Type} {stored : MemoryInner → α → Prop} {held made : ServiceLedger → α → Prop}
  {alike : α → α → Prop} {w w' : World} {ls ls' : List ServiceLedger}

theorem step (ho : srv.Originates stored held made alike) (hentered : ∀ l ∈ ls, l.Entered)
    (h : ∀ r, (stored w.store r ∨ ∃ l ∈ ls, held l r) → ∃ l ∈ ls, ∃ m, made l m ∧ alike r m)
    (hstep : srv.serviceDiscipline.LedgerStep w ls w' ls') :
    ∀ r, (stored w'.store r ∨ ∃ l ∈ ls', held l r) → ∃ l ∈ ls', ∃ m, made l m ∧ alike r m := by
  intro r hr
  cases hstep with
  | spawn q =>
    have hold : stored w.store r ∨ ∃ l ∈ ls, held l r := by
      refine hr.imp_right ?_
      rintro ⟨l, hl, hheld⟩
      rcases List.mem_append.mp hl with hl | hl
      · exact ⟨l, hl, hheld⟩
      · rw [List.mem_singleton.mp hl] at hheld
        exact absurd hheld (ho.start q r)
    obtain ⟨l, hl, hmade⟩ := h r hold
    exact ⟨l, List.mem_append_left _ hl, hmade⟩
  | run i l e c a w' hi hallowed hpossible hperform =>
    have hkept : ∀ m, (∃ l ∈ ls, made l m) → ∃ l' ∈ ls.set i (l.next e a), made l' m :=
      fun m => exists_mem_set hi (ho.keeps hallowed)
    have hback : ∀ m, alike r m → (stored w.store m ∨ ∃ l ∈ ls, held l m) →
        ∃ l' ∈ ls.set i (l.next e a), ∃ m, made l' m ∧ alike r m := by
      intro m halike hm
      obtain ⟨l', hl', n, hmade, hn⟩ := h m hm
      obtain ⟨l'', hl'', hmade'⟩ := hkept n ⟨l', hl', hmade⟩
      exact ⟨l'', hl'', n, hmade', ho.trans halike hn⟩
    have hcalled : stored w'.store r ∨ held (l.next e a) r →
        ∃ l' ∈ ls.set i (l.next e a), ∃ m, made l' m ∧ alike r m := by
      intro hr
      have hl := hentered l (List.mem_of_getElem? hi)
      obtain ⟨m, halike, hm | hm | hm⟩ := ho.call hl hallowed hperform hr
      · exact hback m halike (.inl hm)
      · exact hback m halike (.inr ⟨l, List.mem_of_getElem? hi, hm⟩)
      · exact ⟨_, mem_set_self hi, m, hm, halike⟩
    rcases hr with hr | ⟨l', hl', hr⟩
    · exact hcalled (.inl hr)
    · rcases List.mem_or_eq_of_mem_set hl' with hl' | rfl
      · obtain ⟨k, hk, m, hmade, halike⟩ := h r (.inr ⟨l', hl', hr⟩)
        obtain ⟨k', hk', hmade'⟩ := hkept m ⟨k, hk, hmade⟩
        exact ⟨k', hk', m, hmade', halike⟩
      · exact hcalled (.inr hr)
  | env v w' henv =>
    refine h r (hr.imp_left fun hr => ?_)
    cases v with
    | tick elapsed => cases henv; exact hr
    | sweep now => cases henv; exact ho.sweep hr

/-- Whatever is stored or held at some point of a run goes back to what a thread made. -/
theorem origin (ho : srv.Originates stored held made alike) (hempty : ∀ r, ¬ stored w.store r) {ok}
    (h : srv.service.Reaches ok (ServiceState.idle w) s) {r : α}
    (hr : stored s.world.store r ∨ ∃ l ∈ srv.serviceDiscipline.ledgers s, held l r) :
    ∃ l ∈ srv.serviceDiscipline.ledgers s, ∃ m, made l m ∧ alike r m := by
  refine srv.serviceDiscipline.invariant_along (I := fun w ls => ∀ r,
    (stored w.store r ∨ ∃ l ∈ ls, held l r) → ∃ l ∈ ls, ∃ m, made l m ∧ alike r m) h
    Discipline.follows_of_idle ?_ (fun t _ _ hreach hI _ hstep => ho.step (entered hreach) hI hstep) r hr
  rintro r (hr | ⟨l, hl, -⟩)
  · exact absurd hr (hempty r)
  · cases hl

end Originates

end Server

end OauthAs
