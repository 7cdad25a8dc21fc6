-- SUMMARY: Device grants: the first decision wins, and an approved grant is redeemed once.
import OauthAs.Protocol.Traces

/-!
# Device grants

A device grant is filed once, under an identifier drawn for it, and pending. Polls write it back
in the state it is in; the one swap that changes the state is a decision of a pending grant.
Hence each device code has at most one decision, which the stored grant and every copy of it that
is not pending agree with. Whoever takes the grant is the only one who does, since nothing files a
device code again.
-/

namespace OauthAs

/-! ## One call -/

/-- One grant, whatever was decided about it. -/
structure DeviceGrant.SameDevice (u g : DeviceGrant) : Prop where
  code : u.deviceCode = g.deviceCode
  client : u.clientId = g.clientId
  scope : u.scope = g.scope

/-- What a call of a request does to the device grants, and to what the request has of them. -/
inductive Ledger.GrantTurn (used : List String) (l l' : Ledger)
    (t t' : Table DeviceGrant.deviceCode) : Prop
  | keeps (devices : l'.devices = l.devices)
      (identifier : ∀ x, l'.identifier = some x → l.identifier = some x ∨ x ∉ used)
      (less : ∀ g ∈ t', g ∈ t)
  | sees (g : DeviceGrant) (stored : g ∈ t)
      (devices : l'.devices = { l.devices with seen := g :: l.devices.seen })
      (identifier : l'.identifier = l.identifier) (table : t' = t)
  | takes (g : DeviceGrant) (stored : g ∈ t) (first : l.devices.taken = none)
      (devices : l'.devices = { l.devices with taken := some g })
      (identifier : l'.identifier = l.identifier) (table : t' = t.erase g.deviceCode)
  | files (g : DeviceGrant) (new : l.identifier = some g.deviceCode) (pending : g.state = .pending)
      (devices : l'.devices = l.devices) (identifier : l'.identifier = none) (table : t' = t.insert g)
      (permitted : l.Permits g.clientId g.scope)
  | polls (g u : DeviceGrant) (stored : g ∈ t) (key : u.deviceCode = g.deviceCode)
      (state : u.state = g.state) (devices : l'.devices = l.devices)
      (identifier : l'.identifier = l.identifier) (table : t' = t.insert u)
      (read : ∃ r ∈ l.devices.seen, u.SameDevice r)
  | decides (g u : DeviceGrant) (stored : g ∈ t) (key : u.deviceCode = g.deviceCode)
      (pending : g.state = .pending) (first : l.devices.decided = none)
      (decision : l.Decides u.state) (devices : l'.devices = { l.devices with decided := some u })
      (identifier : l'.identifier = l.identifier) (table : t' = t.insert u)
      (read : ∃ r ∈ l.devices.seen, u.SameDevice r)

namespace Ledger

variable {srv : Server} {l : Ledger} {op : StorageOp} {g g' : MemoryInner}
variable {state : DeviceGrantState}

theorem decides_ne_pending (h : l.Decides state) : state ≠ .pending := by
  rintro rfl
  unfold Decides at h
  split at h <;> cases h

theorem Decides.approves {subject : String} (h : l.Decides state)
    (hstate : state = .approved subject) : ∃ x, l.request = .approveDevice x subject := by
  subst hstate
  unfold Decides at h
  split at h
  · rename_i x subject' hq
    cases h
    exact ⟨x, hq⟩
  · cases h
  · exact h.elim

theorem Decides.grows {l' : Ledger} (h : l.Decides state) (hg : l.Grows l') : l'.Decides state := by
  unfold Decides at h ⊢
  rwa [hg.request]

theorem grantTurn_stored {used : List String} {a : op.Result} (may : l.MayStore srv op)
    (hexec : op.exec g = (.ok a, g')) :
    GrantTurn used l (l.stored op a) g.deviceByCode g'.deviceByCode := by
  have hg' : (op.exec g).2 = g' := (Prod.ext_iff.mp hexec).2
  have hkeeps : (l.stored op a).devices = l.devices → op.WritesDeviceGrants = false →
      GrantTurn used l (l.stored op a) g.deviceByCode g'.deviceByCode := by
    intro hdevices hno
    refine .keeps hdevices (fun x hx => .inl ((stored_keeps l op a).2.2.2.2 x hx)) fun r hr => ?_
    exact ((StorageOp.exec_writes hexec).1.deviceByCode hno).mem hr
  cases op with
  | getDeviceGrant code =>
    cases a with
    | none => exact hkeeps rfl rfl
    | some r =>
      have hfound : g.deviceByCode.lookup code = some r := Except.ok.inj (Prod.ext_iff.mp hexec).1
      cases hg'
      exact .sees r (Table.mem_of_lookup hfound) rfl rfl rfl
  | findDeviceGrantByUserCode code =>
    cases a with
    | none => exact hkeeps rfl rfl
    | some r =>
      have hfound : g.findDeviceGrantByUserCode code = some r :=
        Except.ok.inj (Prod.ext_iff.mp hexec).1
      obtain ⟨entry, -, hfound⟩ := Option.bind_eq_some_iff.mp hfound
      cases hg'
      exact .sees r (Table.mem_of_lookup hfound) rfl rfl rfl
  | takeDeviceGrant code =>
    simp only [StorageOp.exec, StorageOp.succeeding, MemoryInner.takeDeviceGrant] at hexec
    split at hexec
    · rename_i r hfound
      cases hexec
      refine .takes r (Table.mem_of_lookup hfound) may rfl rfl ?_
      rw [Table.key_of_lookup hfound]
    · cases hexec
      exact .keeps rfl (fun _ h => .inl h) fun r hr => hr
  | putDeviceGrant r =>
    simp only [StorageOp.exec, MemoryInner.putDeviceGrant] at hexec
    split at hexec
    · cases hexec
    · cases hexec
      exact .files r may.1 may.2.1 rfl rfl rfl may.2.2.2.2
  | compareAndSwapDeviceGrant expected updated =>
    simp only [StorageOp.exec, MemoryInner.compareAndSwapDeviceGrant] at hexec
    split at hexec
    · rename_i r hfound
      split at hexec
      · rename_i hstate
        split at hexec
        · cases hexec
        · cases hexec
          have hmem := Table.mem_of_lookup hfound
          have hkey := (Table.key_of_lookup hfound).symm
          have hread : ∃ r ∈ l.devices.seen, updated.SameDevice r := by
            obtain ⟨seen, hseen, -, hcode, hclient, -, -, hscope⟩ := may.read
            exact ⟨seen, hseen, hcode, hclient, hscope⟩
          by_cases hsame : updated.state = expected
          · refine .polls r updated hmem hkey (hsame.trans hstate.symm) ?_ rfl rfl hread
            simp [stored, DeviceLedger.swap, hsame]
          · obtain ⟨rfl, hfirst, hdecides⟩ := may.state.resolve_left hsame
            refine .decides r updated hmem hkey hstate hfirst hdecides ?_ rfl rfl hread
            simp [stored, DeviceLedger.swap, hsame]
      · cases hexec
        exact .keeps (by simp [stored, DeviceLedger.swap]) (fun _ h => .inl h) fun r hr => hr
    · cases hexec
      exact .keeps (by simp [stored, DeviceLedger.swap]) (fun _ h => .inl h) fun r hr => hr
  | _ => first | exact hkeeps rfl rfl | (cases a <;> exact hkeeps rfl rfl)

/-- The request took the grant with this device code. -/
def TookGrant (d : String) (l : Ledger) : Prop := ∃ g, l.devices.taken = some g ∧ g.deviceCode = d

/-- The request decided the grant with this device code. -/
def DecidedGrant (d : String) (l : Ledger) : Prop := ∃ g, l.devices.decided = some g ∧ g.deviceCode = d

namespace GrantTurn

variable {used : List String} {l' : Ledger} {t t' : Table DeviceGrant.deviceCode} {r : DeviceGrant}

/-- A stored grant was stored in that state before, or has just been filed or decided. -/
theorem mem (h : GrantTurn used l l' t t') (hr : r ∈ t') :
    (∃ g ∈ t, r.deviceCode = g.deviceCode ∧ r.state = g.state) ∨
      (r.state = .pending ∧ l.identifier = some r.deviceCode ∧ l'.identifier = none) ∨
      (l'.devices.decided = some r ∧ ∃ g ∈ t, r.deviceCode = g.deviceCode ∧ g.state = .pending) := by
  have hold : ∀ {r}, r ∈ t → ∃ g ∈ t, r.deviceCode = g.deviceCode ∧ r.state = g.state :=
    fun hr => ⟨_, hr, rfl, rfl⟩
  cases h with
  | keeps devices identifier less => exact .inl (hold (less r hr))
  | sees g stored devices identifier table => exact .inl (hold (table ▸ hr))
  | takes g stored first devices identifier table =>
    rw [table] at hr
    exact .inl (hold (Table.mem_erase.mp hr).1)
  | files g new pending devices identifier table =>
    rw [table] at hr
    rcases Table.mem_insert.mp hr with rfl | ⟨hr, -⟩
    · exact .inr (.inl ⟨pending, new, identifier⟩)
    · exact .inl (hold hr)
  | polls g u stored key state devices identifier table =>
    rw [table] at hr
    rcases Table.mem_insert.mp hr with rfl | ⟨hr, -⟩
    · exact .inl ⟨g, stored, key, state⟩
    · exact .inl (hold hr)
  | decides g u stored key pending first decision devices identifier table =>
    rw [table] at hr
    rcases Table.mem_insert.mp hr with rfl | ⟨hr, -⟩
    · exact .inr (.inr ⟨by rw [devices], g, stored, key, pending⟩)
    · exact .inl (hold hr)

/-- What a call adds to what the request has of the grants. -/
theorem devices (h : GrantTurn used l l' t t') : l'.devices = l.devices ∨
    (∃ g ∈ t, l'.devices = { l.devices with seen := g :: l.devices.seen }) ∨
    (∃ g ∈ t, l'.devices = { l.devices with taken := some g } ∧ t' = t.erase g.deviceCode) ∨
    ∃ u, l'.devices = { l.devices with decided := some u } ∧ l.Decides u.state ∧ t' = t.insert u ∧
      ∃ g ∈ t, u.deviceCode = g.deviceCode ∧ g.state = .pending := by
  cases h with
  | keeps devices | files g new pending devices | polls g u stored key state devices =>
    exact .inl devices
  | sees g stored devices => exact .inr (.inl ⟨g, stored, devices⟩)
  | takes g stored first devices identifier table =>
    exact .inr (.inr (.inl ⟨g, stored, devices, table⟩))
  | decides g u stored key pending first decision devices identifier table =>
    exact .inr (.inr (.inr ⟨u, devices, decision, table, g, stored, key, pending⟩))

/-- A grant that a request has taken it took before, or it was stored and is gone. -/
theorem taken (h : GrantTurn used l l' t t') (hr : l'.devices.taken = some r) :
    l.devices.taken = some r ∨ (r ∈ t ∧ ∀ g ∈ t', g.deviceCode ≠ r.deviceCode) := by
  rcases h.devices with hd | ⟨_, _, hd⟩ | ⟨g, hg, hd, rfl⟩ | ⟨_, hd, _⟩ <;> rw [hd] at hr
  case inr.inr.inl =>
    cases hr
    exact .inr ⟨hg, fun _ hg' => (Table.mem_erase.mp hg').2⟩
  all_goals exact .inl hr

/-- A grant that a request has decided it decided before, or it was stored and pending. -/
theorem decided (h : GrantTurn used l l' t t') (hr : l'.devices.decided = some r) :
    l.devices.decided = some r ∨ (l.Decides r.state ∧ t' = t.insert r ∧
      ∃ g ∈ t, r.deviceCode = g.deviceCode ∧ g.state = .pending) := by
  rcases h.devices with hd | ⟨_, _, hd⟩ | ⟨_, _, hd, _⟩ | ⟨u, hd, hrest⟩ <;> rw [hd] at hr
  case inr.inr.inr =>
    cases hr
    exact .inr hrest
  all_goals exact .inl hr

theorem seen (h : GrantTurn used l l' t t') (hr : r ∈ l'.devices.seen) :
    r ∈ l.devices.seen ∨ r ∈ t := by
  rcases h.devices with hd | ⟨g, hg, hd⟩ | ⟨_, _, hd, _⟩ | ⟨_, hd, _⟩ <;> rw [hd] at hr
  case inr.inl =>
    rcases List.mem_cons.mp hr with rfl | hr
    · exact .inr hg
    · exact .inl hr
  all_goals exact .inl hr

/-- An identifier in a request's hands was there before and has not just been filed, or is new. -/
theorem identifier (h : GrantTurn used l l' t t') {x : String} (hx : l'.identifier = some x) :
    l.identifier = some x ∨ x ∉ used := by
  cases h with
  | keeps devices identifier => exact identifier x hx
  | sees g stored devices identifier | takes g stored first devices identifier
  | polls g u stored key state devices identifier
  | decides g u stored key pending first decision devices identifier => exact .inl (identifier ▸ hx)
  | files g new pending devices identifier => cases identifier.symm.trans hx

end GrantTurn

end Ledger

/-! ## Along a run -/

section Run
variable {srv : Server} {w w' : World} {ls ls' : List Ledger}

/-- A move of the server is a call of one request, or one without. -/
theorem grantTurn_turns (ht : srv.Turns w ls w' ls') :
    (∃ (i : Nat) (l l' : Ledger), ls[i]? = some l ∧ ls' = ls.set i l' ∧ l.Grows l' ∧
      l.GrantTurn w.used l' w.store.deviceByCode w'.store.deviceByCode) ∨
    ((ls' = ls ∨ ∃ q, ls' = ls ++ [.start q]) ∧
      ∀ r ∈ w'.store.deviceByCode, r ∈ w.store.deviceByCode) := by
  cases ht with
  | stored i l op a g hi may exec =>
    exact .inl ⟨i, l, _, hi, rfl, Ledger.grows_stored may, Ledger.grantTurn_stored may exec⟩
  | draws i l e hi first fresh =>
    refine .inl ⟨i, l, _, hi, rfl, Ledger.grows_draws first, .keeps rfl (fun x hx => .inl hx) ?_⟩
    exact fun r hr => hr
  | aside i l l' w' hi aside store used identifier =>
    refine .inl ⟨i, l, l', hi, rfl, aside.grows, .keeps aside.devices (fun x hx => ?_) fun r hr => ?_⟩
    · rcases identifier with hsame | ⟨y, hy, hfresh⟩
      · exact .inl (hsame ▸ hx)
      · cases hx.symm.trans hy
        exact .inr hfresh
    · exact store ▸ hr
  | spawn q => exact .inr ⟨.inr ⟨q, rfl⟩, fun r hr => hr⟩
  | alone w' store used => exact .inr ⟨.inl rfl, fun r hr => store ▸ hr⟩
  | sweep now =>
    refine .inr ⟨.inl rfl, fun r hr => ?_⟩
    exact ((StorageOp.frame_exec (.sweepExpired now)).deviceByCode rfl).mem hr

/-- A device grant that is stored, was taken or was decided. -/
def KnownGrant (w : World) (ls : List Ledger) (g : DeviceGrant) : Prop :=
  g ∈ w.store.deviceByCode ∨ ∃ l ∈ ls, l.devices.taken = some g ∨ l.devices.decided = some g

structure DeviceCustody (w : World) (ls : List Ledger) : Prop where
  fresh : FreshStrings w ls
  /-- No device code of a grant that was filed is still to be filed. -/
  named : ∀ g, KnownGrant w ls g →
    g.deviceCode ∈ w.used ∧ ∀ l ∈ ls, l.identifier ≠ some g.deviceCode
  taken : ∀ d, OnlyOne (Ledger.TookGrant d) ls
  gone : ∀ l ∈ ls, ∀ g, l.devices.taken = some g → ∀ r ∈ w.store.deviceByCode,
    r.deviceCode ≠ g.deviceCode
  decided : ∀ d, OnlyOne (Ledger.DecidedGrant d) ls
  settled : ∀ l ∈ ls, ∀ g, l.devices.decided = some g → l.Decides g.state ∧
    ∀ r ∈ w.store.deviceByCode, r.deviceCode = g.deviceCode → r.state = g.state
  backed : ∀ r, (r ∈ w.store.deviceByCode ∨ ∃ l ∈ ls, r ∈ l.devices.seen) → r.state ≠ .pending →
    ∃ l ∈ ls, ∃ g, l.devices.decided = some g ∧ g.deviceCode = r.deviceCode ∧ g.state = r.state

theorem deviceCustody_initial (clock : SystemTime) : DeviceCustody (.initial clock) [] := by
  have hnone : ∀ g : DeviceGrant, g ∉ (World.initial clock).store.deviceByCode :=
    fun g => Table.mem_empty
  refine ⟨⟨by simp, fun _ _ _ _ _ h => nomatch h⟩, ?_, fun _ => .nil, by simp, fun _ => .nil, by simp, ?_⟩
  · rintro g (hg | ⟨l, hl, -⟩)
    · exact (hnone g hg).elim
    · cases hl
  · rintro r (hr | ⟨l, hl, -⟩)
    · exact (hnone r hr).elim
    · cases hl

namespace DeviceCustody

/-- The step of a move that makes no call on a grant. -/
theorem step_alone (h : DeviceCustody w ls) (hm : srv.Moves w ls w' ls')
    (hls : ls' = ls ∨ ∃ q, ls' = ls ++ [.start q])
    (hless : ∀ r ∈ w'.store.deviceByCode, r ∈ w.store.deviceByCode) : DeviceCustody w' ls' := by
  -- A request that has just been made has nothing yet.
  have hmem : ∀ l ∈ ls', l ∈ ls ∨ ∃ q, l = .start q := by
    rcases hls with rfl | ⟨q, rfl⟩
    · exact fun l hl => .inl hl
    · intro l hl
      exact (List.mem_append.mp hl).imp_right fun hl => ⟨q, List.mem_singleton.mp hl⟩
  have hsub : ∀ l ∈ ls, l ∈ ls' := by
    rcases hls with rfl | ⟨q, rfl⟩
    · exact fun l hl => hl
    · exact fun l hl => List.mem_append_left _ hl
  have honly : ∀ {Q : Ledger → Prop}, (∀ q, ¬ Q (.start q)) → OnlyOne Q ls → OnlyOne Q ls' := by
    intro Q hstart hQ
    rcases hls with rfl | ⟨q, rfl⟩
    · exact hQ
    · exact hQ.append (hstart q)
  refine ⟨h.fresh.step hm, ?_, fun d => honly ?_ (h.taken d), ?_, fun d => honly ?_ (h.decided d), ?_, ?_⟩
  · intro g hg
    have hknown : KnownGrant w ls g := by
      rcases hg with hg | ⟨l, hl, hg⟩
      · exact .inl (hless g hg)
      · rcases hmem l hl with hl | ⟨q, rfl⟩
        · exact .inr ⟨l, hl, hg⟩
        · rcases hg with hg | hg <;> cases hg
    refine ⟨hm.turns.used_subset (h.named g hknown).1, fun l hl hid => ?_⟩
    rcases hmem l hl with hl | ⟨q, rfl⟩
    · exact (h.named g hknown).2 l hl hid
    · cases hid
  · rintro q ⟨g, hg, -⟩
    cases hg
  · intro l hl g hg r hr
    rcases hmem l hl with hl | ⟨q, rfl⟩
    · exact h.gone l hl g hg r (hless r hr)
    · cases hg
  · rintro q ⟨g, hg, -⟩
    cases hg
  · intro l hl g hg
    rcases hmem l hl with hl | ⟨q, rfl⟩
    · exact ⟨(h.settled l hl g hg).1, fun r hr => (h.settled l hl g hg).2 r (hless r hr)⟩
    · cases hg
  · intro r hr hstate
    have hold : r ∈ w.store.deviceByCode ∨ ∃ l ∈ ls, r ∈ l.devices.seen := by
      rcases hr with hr | ⟨l, hl, hr⟩
      · exact .inl (hless r hr)
      · rcases hmem l hl with hl | ⟨q, rfl⟩
        · exact .inr ⟨l, hl, hr⟩
        · cases hr
    obtain ⟨l, hl, hrest⟩ := h.backed r hold hstate
    exact ⟨l, hsub l hl, hrest⟩

section Call
variable {i : Nat} {l l' : Ledger}

/-- A grant that a call makes known was known by its code, or has just been filed. -/
theorem known_code (h : l.GrantTurn w.used l' w.store.deviceByCode w'.store.deviceByCode)
    (hi : ls[i]? = some l) {g : DeviceGrant} (hg : KnownGrant w' (ls.set i l') g) :
    (∃ r, KnownGrant w ls r ∧ g.deviceCode = r.deviceCode) ∨
      (l.identifier = some g.deviceCode ∧ l'.identifier = none) := by
  have hl := List.mem_of_getElem? hi
  rcases hg with hg | ⟨m, hm, hg⟩
  · rcases h.mem hg with ⟨r, hr, hkey, -⟩ | ⟨-, hid⟩ | ⟨-, r, hr, hkey, -⟩
    · exact .inl ⟨r, .inl hr, hkey⟩
    · exact .inr hid
    · exact .inl ⟨r, .inl hr, hkey⟩
  · refine .inl ?_
    rcases List.mem_or_eq_of_mem_set hm with hm | rfl
    · exact ⟨g, .inr ⟨m, hm, hg⟩, rfl⟩
    · rcases hg with hg | hg
      · rcases h.taken hg with hold | ⟨hr, -⟩
        · exact ⟨g, .inr ⟨l, hl, .inl hold⟩, rfl⟩
        · exact ⟨g, .inl hr, rfl⟩
      · rcases h.decided hg with hold | ⟨-, -, r, hr, hkey, -⟩
        · exact ⟨g, .inr ⟨l, hl, .inr hold⟩, rfl⟩
        · exact ⟨r, .inl hr, hkey⟩

theorem named_call (h : DeviceCustody w ls) (hm : srv.Moves w ls w' (ls.set i l'))
    (hturn : l.GrantTurn w.used l' w.store.deviceByCode w'.store.deviceByCode)
    (hi : ls[i]? = some l) {g : DeviceGrant} (hg : KnownGrant w' (ls.set i l') g) :
    g.deviceCode ∈ w'.used ∧ ∀ m ∈ ls.set i l', m.identifier ≠ some g.deviceCode := by
  have hused := hm.turns.used_subset
  rcases known_code hturn hi hg with ⟨r, hr, hkey⟩ | ⟨hid, hnone⟩
  · obtain ⟨hin, hother⟩ := h.named r hr
    rw [hkey]
    refine ⟨hused hin, fun m hm hid => ?_⟩
    rcases List.mem_or_eq_of_mem_set hm with hm | rfl
    · exact hother m hm hid
    · rcases hturn.identifier hid with hold | hnew
      · exact hother l (List.mem_of_getElem? hi) hold
      · exact hnew hin
  · have hdrawn := (h.fresh.accounted l (List.mem_of_getElem? hi)).identifier _ hid
    refine ⟨hused ((h.fresh.accounted l (List.mem_of_getElem? hi)).used _ hdrawn), fun m hm hid' => ?_⟩
    obtain ⟨j, hj⟩ := List.mem_iff_getElem?.mp hm
    by_cases hij : i = j
    · subst hij
      rw [List.getElem?_set_self (List.getElem?_eq_some_iff.mp hi).1] at hj
      cases hj
      cases hnone.symm.trans hid'
    · rw [List.getElem?_set_ne hij] at hj
      have hdrawn' := (h.fresh.accounted m (List.mem_of_getElem? hj)).identifier _ hid'
      exact hij (h.fresh.apart hi hj hdrawn hdrawn')

section Stored
variable (h : DeviceCustody w ls)
  (hturn : l.GrantTurn w.used l' w.store.deviceByCode w'.store.deviceByCode)
  (hi : ls[i]? = some l) {m : Ledger} (hm : m ∈ ls) {g r : DeviceGrant}

include h hturn hi hm

/-- What was taken stays out of the store. -/
theorem gone_call (hg : m.devices.taken = some g) (hr : r ∈ w'.store.deviceByCode) :
    r.deviceCode ≠ g.deviceCode := by
  intro hkey
  rcases hturn.mem hr with ⟨r₀, hr₀, hkey₀, -⟩ | ⟨-, hid, -⟩ | ⟨-, r₀, hr₀, hkey₀, -⟩
  · exact h.gone m hm g hg r₀ hr₀ (hkey₀.symm.trans hkey)
  · exact (h.named g (.inr ⟨m, hm, .inl hg⟩)).2 l (List.mem_of_getElem? hi) (hkey ▸ hid)
  · exact h.gone m hm g hg r₀ hr₀ (hkey₀.symm.trans hkey)

/-- What was decided stays as it was decided. -/
theorem settled_call (hg : m.devices.decided = some g) (hr : r ∈ w'.store.deviceByCode)
    (hkey : r.deviceCode = g.deviceCode) : r.state = g.state := by
  obtain ⟨hdecides, hsettled⟩ := h.settled m hm g hg
  rcases hturn.mem hr with ⟨r₀, hr₀, hkey₀, hstate⟩ | ⟨-, hid, -⟩ | ⟨-, r₀, hr₀, hkey₀, hpending⟩
  · exact hstate.trans (hsettled r₀ hr₀ (hkey₀.symm.trans hkey))
  · exact absurd (hkey ▸ hid)
      ((h.named g (.inr ⟨m, hm, .inr hg⟩)).2 l (List.mem_of_getElem? hi))
  · have := hsettled r₀ hr₀ (hkey₀.symm.trans hkey)
    exact absurd (this.symm.trans hpending) (Ledger.decides_ne_pending hdecides)

end Stored

/-- The step of a call. -/
theorem step_call (h : DeviceCustody w ls) (hm : srv.Moves w ls w' (ls.set i l'))
    (hi : ls[i]? = some l) (hg : l.Grows l')
    (hturn : l.GrantTurn w.used l' w.store.deviceByCode w'.store.deviceByCode) :
    DeviceCustody w' (ls.set i l') := by
  have hl := List.mem_of_getElem? hi
  refine ⟨h.fresh.step hm, fun g => h.named_call hm hturn hi, fun d => (h.taken d).set hi ?_, ?_,
    fun d => (h.decided d).set hi ?_, ?_, ?_⟩
  · rintro ⟨g, htaken, rfl⟩
    rcases hturn.taken htaken with hold | ⟨hstored, -⟩
    · exact .inl ⟨g, hold, rfl⟩
    · refine .inr ?_
      rintro m hm ⟨g', htaken', hkey⟩
      exact h.gone m hm g' htaken' g hstored hkey.symm
  · intro m hm g htaken r hr
    rcases List.mem_or_eq_of_mem_set hm with hm | rfl
    · exact h.gone_call hturn hi hm htaken hr
    · rcases hturn.taken htaken with hold | ⟨-, hnone⟩
      · exact h.gone_call hturn hi hl hold hr
      · exact hnone r hr
  · rintro ⟨g, hdecided, rfl⟩
    rcases hturn.decided hdecided with hold | ⟨-, -, r, hr, hkey, hpending⟩
    · exact .inl ⟨g, hold, rfl⟩
    · refine .inr ?_
      rintro m hm ⟨g', hdecided', hkey'⟩
      obtain ⟨hdecides, hsettled⟩ := h.settled m hm g' hdecided'
      have := hsettled r hr (hkey.symm.trans hkey'.symm)
      exact Ledger.decides_ne_pending hdecides (this.symm.trans hpending)
  · intro m hm g hdecided
    rcases List.mem_or_eq_of_mem_set hm with hm | rfl
    · exact ⟨(h.settled m hm g hdecided).1, fun r hr => h.settled_call hturn hi hm hdecided hr⟩
    · rcases hturn.decided hdecided with hold | ⟨hdecides, htable, -⟩
      · exact ⟨(h.settled l hl g hold).1.grows hg, fun r hr => h.settled_call hturn hi hl hold hr⟩
      · refine ⟨hdecides.grows hg, fun r hr hkey => ?_⟩
        rw [htable] at hr
        rcases Table.mem_insert.mp hr with rfl | ⟨-, hne⟩
        · rfl
        · exact absurd hkey hne
  · intro r hr hstate
    have hold : (r ∈ w.store.deviceByCode ∨ ∃ m ∈ ls, r ∈ m.devices.seen) → ∃ m ∈ ls.set i l', ∃ g,
        m.devices.decided = some g ∧ g.deviceCode = r.deviceCode ∧ g.state = r.state := by
      intro hr
      obtain ⟨m, hmem, g, hdecided, hrest⟩ := h.backed r hr hstate
      obtain ⟨m', hm', hgrows⟩ := hm.turns.grows_mem hmem
      exact ⟨m', hm', g, hgrows.decided g hdecided, hrest⟩
    rcases hr with hr | ⟨m, hmem, hr⟩
    · rcases hturn.mem hr with ⟨r₀, hr₀, hkey, hsame⟩ | ⟨hpending, -⟩ | ⟨hdecided, -⟩
      · obtain ⟨m, hmem, g, hdecided, hgkey, hgstate⟩ := h.backed r₀ (.inl hr₀) (hsame ▸ hstate)
        obtain ⟨m', hm', hgrows⟩ := hm.turns.grows_mem hmem
        exact ⟨m', hm', g, hgrows.decided g hdecided, hgkey.trans hkey.symm, hgstate.trans hsame.symm⟩
      · exact absurd hpending hstate
      · exact ⟨l', mem_set_self hi, r, hdecided, rfl, rfl⟩
    · rcases List.mem_or_eq_of_mem_set hmem with hmem | rfl
      · exact hold (.inr ⟨m, hmem, hr⟩)
      · exact hold ((hturn.seen hr).symm.imp_right fun hr => ⟨l, hl, hr⟩)

end Call

theorem step (h : DeviceCustody w ls) (hm : srv.Moves w ls w' ls') : DeviceCustody w' ls' := by
  rcases grantTurn_turns hm.turns with ⟨i, l, l', hi, rfl, hg, hturn⟩ | ⟨hls, hless⟩
  · exact h.step_call hm hi hg hturn
  · exact h.step_alone hm hls hless

end DeviceCustody

theorem Server.deviceCustody {ok} {clock : SystemTime} {s : State}
    (h : srv.Runs ok clock s) :
    DeviceCustody s.world (srv.discipline.ledgers s) :=
  Discipline.invariant (D := srv.discipline) (I := DeviceCustody) h (deviceCustody_initial clock)
    fun _ _ _ _ hI hl => hI.step (moves_of_ledgerStep hl)

end Run

/-! ## The first decision wins -/

/-- An approval or denial that returned Ok, of the grant with this device code. -/
def Call.DecidesDevice (d : String) (c : Call) : Prop :=
  ((∃ x subject, c.request = .approveDevice x subject) ∨ ∃ x, c.request = .denyDevice x) ∧
    c.reply? = some (.decided (.ok ())) ∧
    ∃ x g, c.Did (.storage (.findDeviceGrantByUserCode x)) (.ok (some g)) ∧ g.deviceCode = d

/-- A poll that returned tokens for this device code. -/
def Call.RedeemsDevice (d : String) (response : TokenResponse) (c : Call) : Prop :=
  (∃ clientId bound, c.request = .deviceToken clientId bound d) ∧
    c.reply? = some (.token (.ok response))

section Decisions
variable {srv : Server} {ok : State → Move → State → Prop} {clock : SystemTime} {s : State} {c : Call}
  {d : String}

section Reached
variable (h : srv.Runs ok clock s) (hc : c ∈ s.threads)

include h hc

/-- A decision that returned Ok has put the decision of its request into the store. -/
theorem decided_of_decidesDevice (hdecides : c.DecidesDevice d) :
    ∃ g, (srv.discipline.ledger c).devices.decided = some g ∧ g.deviceCode = d := by
  obtain ⟨hrequest, hreply, x, g, hdid, rfl⟩ := hdecides
  have haccept : (srv.discipline.ledger c).Accepts srv (.decided (.ok ())) :=
    srv.discipline.accepts (Discipline.follows_run h) hc hreply
  have hdecided : ∃ state, (srv.discipline.ledger c).DecidedAs state := by
    rcases hrequest with ⟨x, subject, hq⟩ | ⟨x, hq⟩ <;>
      simp only [Ledger.Accepts, (srv.ledger_request c).trans hq] at haccept <;>
      exact ⟨_, haccept⟩
  obtain ⟨-, g', hg', -, hseen⟩ := hdecided
  exact ⟨g', hg', (hseen g (seen_of_did h hc hdid)).symm⟩

/-- A poll that returned tokens took the grant, and wrote a token for whoever it was approved
for. -/
theorem redeemed_of_redeemsDevice {response : TokenResponse} (hredeems : c.RedeemsDevice d response) :
    (srv.discipline.ledger c).TookGrant d ∧ ∃ t g subject, c.Writes t ∧
      response.accessToken = t.accessToken ∧ g ∈ (srv.discipline.ledger c).devices.seen ∧
      g.deviceCode = d ∧ g.state = .approved subject ∧ t.subject = some subject := by
  obtain ⟨⟨clientId, bound, hq⟩, hreply⟩ := hredeems
  have haccept : (srv.discipline.ledger c).Accepts srv (.token (.ok response)) :=
    srv.discipline.accepts (Discipline.follows_run h) hc hreply
  have hrequest := (srv.ledger_request c).trans hq
  simp only [Ledger.Accepts, hrequest] at haccept
  obtain ⟨⟨⟨t, ht, hkey⟩, -⟩, g, hg, hcode⟩ := haccept
  refine ⟨⟨g, hg, hcode⟩, t, ?_⟩
  obtain ⟨hgrant, -⟩ := Server.vouched h _ (Discipline.mem_ledgers hc) t ht
  simp only [Ledger.Grants, hrequest] at hgrant
  obtain ⟨-, r, subject, -, hseen, hcode', -, hstate, hsubject, -⟩ := hgrant
  exact ⟨r, subject, writes_of_access ht, hkey, hseen, hcode', hstate, hsubject⟩

/-- The token of a poll is for the subject of a decision that approved the grant. -/
theorem approved_of_redeemsDevice {response : TokenResponse} (hredeems : c.RedeemsDevice d response) :
    ∃ t subject, c.Writes t ∧ response.accessToken = t.accessToken ∧ t.subject = some subject ∧
      ∃ a ∈ s.threads, ∃ g, (srv.discipline.ledger a).devices.decided = some g ∧
        g.deviceCode = d ∧ g.state = .approved subject := by
  obtain ⟨-, t, r, subject, ht, hkey, hseen, hcode, hstate, hsubject⟩ :=
    redeemed_of_redeemsDevice h hc hredeems
  obtain ⟨l, hl, g, hdecided, hgcode, hgstate⟩ := (Server.deviceCustody h).backed r
    (.inr ⟨_, Discipline.mem_ledgers hc, hseen⟩) (by rw [hstate]; nofun)
  obtain ⟨a, ha, rfl⟩ := List.mem_map.mp hl
  exact ⟨t, subject, ht, hkey, hsubject, a, ha, g, hdecided, hgcode.trans hcode, hgstate.trans hstate⟩

/-- Two requests whose decisions of one device code have changed the grant are the same. -/
theorem eq_of_decided {a : Call} (ha : a ∈ s.threads)
    (hdecided : (srv.discipline.ledger c).DecidedGrant d)
    (hdecided' : (srv.discipline.ledger a).DecidedGrant d) : c = a := by
  obtain ⟨i, hi⟩ := List.mem_iff_getElem?.mp hc
  obtain ⟨j, hj⟩ := List.mem_iff_getElem?.mp ha
  cases (Server.deviceCustody h).decided d (Discipline.ledgers_getElem? hi)
    (Discipline.ledgers_getElem? hj) hdecided hdecided'
  exact Option.some.inj (hi.symm.trans hj)

end Reached

/-- First decision wins, and one mint. Of all approvals and denials of a device code at most one
returns Ok, and if that is a denial, no poll returns a token. At most one poll does. Its token is
for the subject of an approval that has changed the grant; that approval does not fail, and it is
the one decision that returns Ok. A decided grant never changes its state again. -/
theorem device_first_decision_wins (h : srv.Reachable s) (d : String) :
    (∀ (i j : Nat) c c', s.threads[i]? = some c → s.threads[j]? = some c' → Call.DecidesDevice d c →
      Call.DecidesDevice d c' → i = j) ∧
    (∀ c ∈ s.threads, ∀ c' ∈ s.threads, ∀ x response, c.request = .denyDevice x →
      Call.DecidesDevice d c → ¬ Call.RedeemsDevice d response c') ∧
    (∀ (i j : Nat) c c' response response', s.threads[i]? = some c → s.threads[j]? = some c' →
      Call.RedeemsDevice d response c → Call.RedeemsDevice d response' c' → i = j) ∧
    (∀ c ∈ s.threads, ∀ response, Call.RedeemsDevice d response c → ∃ t subject, Call.Writes c t ∧
      response.accessToken = t.accessToken ∧ t.subject = some subject ∧
      ∃ a ∈ s.threads, ∃ x expected g, a.request = .approveDevice x subject ∧
        a.Did (.storage (.compareAndSwapDeviceGrant expected g)) (.ok true) ∧ g.deviceCode = d ∧
        g.state = .approved subject ∧ (∀ e, a.reply? ≠ some (.decided (.error e))) ∧
        ∀ c' ∈ s.threads, Call.DecidesDevice d c' → c' = a) ∧
    ∀ s', srv.semantics.Reaches Semantics.anyStep s s' → ∀ r ∈ s.world.store.deviceByCode,
      ∀ r' ∈ s'.world.store.deviceByCode, r.deviceCode = d → r'.deviceCode = d →
        r.state ≠ .pending → r'.state = r.state := by
  obtain ⟨clock, h⟩ := h
  have hF := srv.discipline.follows_run h
  have hC := Server.deviceCustody h
  refine ⟨?_, ?_, ?_, ?_, ?_⟩
  · intro i j c c' hi hj hdecides hdecides'
    exact hC.decided d (Discipline.ledgers_getElem? hi) (Discipline.ledgers_getElem? hj)
      (decided_of_decidesDevice h (List.mem_of_getElem? hi) hdecides)
      (decided_of_decidesDevice h (List.mem_of_getElem? hj) hdecides')
  · intro c hc c' hc' x response hq hdecides hredeems
    obtain ⟨-, subject, -, -, -, a, ha, g, hdecided, hcode, hstate⟩ :=
      approved_of_redeemsDevice h hc' hredeems
    cases eq_of_decided h hc ha (decided_of_decidesDevice h hc hdecides) ⟨g, hdecided, hcode⟩
    have hdenied := (hC.settled _ (Discipline.mem_ledgers hc) g hdecided).1
    simp only [Ledger.Decides, (srv.ledger_request c).trans hq] at hdenied
    cases hdenied.symm.trans hstate
  · intro i j c c' response response' hi hj hredeems hredeems'
    exact hC.taken d (Discipline.ledgers_getElem? hi) (Discipline.ledgers_getElem? hj)
      (redeemed_of_redeemsDevice h (List.mem_of_getElem? hi) hredeems).1
      (redeemed_of_redeemsDevice h (List.mem_of_getElem? hj) hredeems').1
  · intro c hc response hredeems
    obtain ⟨t, subject, ht, hkey, hsubject, a, ha, g, hdecided, hcode, hstate⟩ :=
      approved_of_redeemsDevice h hc hredeems
    obtain ⟨x, hq⟩ := (hC.settled _ (Discipline.mem_ledgers ha) g hdecided).1.approves hstate
    have hq : a.request = .approveDevice x subject := (srv.ledger_request a).symm.trans hq
    obtain ⟨expected, hdid⟩ := swaps_of_decided hdecided
    refine ⟨t, subject, ht, hkey, hsubject, a, ha, x, expected, g, hq, hdid, hcode, hstate,
      fun e hreply => ?_, fun c' hc' hdecides => ?_⟩
    · have haccept : (srv.discipline.ledger a).Accepts srv (.decided (.error e)) :=
        Discipline.accepts hF ha hreply
      simp only [Ledger.Accepts, (srv.ledger_request a).trans hq] at haccept
      cases haccept.symm.trans hdecided
    · exact eq_of_decided h hc' ha (decided_of_decidesDevice h hc' hdecides) ⟨g, hdecided, hcode⟩
  · intro s' h' r hr r' hr' hcode hcode' hstate
    obtain ⟨l, hl, g, hdecided, hgcode, hgstate⟩ := hC.backed r (.inl hr) hstate
    obtain ⟨j, hj⟩ := List.mem_iff_getElem?.mp hl
    obtain ⟨l', hl', hg⟩ := Server.ledgers_grow hF h' hj
    have hsettled := ((Server.deviceCustody (h.trans h')).settled l' (List.mem_of_getElem? hl') g
      (hg.decided g hdecided)).2 r' hr' (hcode'.trans (hgcode.trans hcode).symm)
    exact hsettled.trans hgstate

end Decisions

namespace Sample

/-- A device asks, the user approves, and the device polls. -/
def devicePairs : List Move :=
  registers 0 app ++
    [.spawn (.deviceAuthorization "app" (.secret none) none)] ++ go 1 1 ++
    [.run 1 (.decision .allow)] ++ go 1 3 ++
    [.run 1 (.hex (some code)), .run 1 (.userCode (some "BBBBBBBB"))] ++ go 1 2 ++
    [.spawn (.approveDevice "bbbb-bbbb" "user"), .run 2 (.decision .allow)] ++ go 2 5 ++
    admits 3 (.deviceToken "app" (.secret none) code) ++ go 3 4 ++
    [.run 3 (.entropy (some (entropy 1)))] ++ go 3 3

end Sample

theorem device_first_decision_wins_approved : ∃ (s : State) (c a : Call) (t : IssuedToken),
    Sample.server.semantics.run (State.idle (.initial 0)) Sample.devicePairs = some s ∧
      a.request = .approveDevice "bbbb-bbbb" "user" ∧ c.Writes t ∧ t.subject = some "user" ∧
      ∀ c' ∈ s.threads, Call.DecidesDevice Sample.code c' → c' = a := by
  obtain ⟨s, hs, hrequests, c, hc, hq, response, hresponse, -⟩ :
      ∃ s ∈ Sample.server.semantics.run (State.idle (.initial 0)) Sample.devicePairs,
      s.threads.map Thread.request = [.registerClient Sample.app,
        .deviceAuthorization "app" (.secret none) none, .approveDevice "bbbb-bbbb" "user",
        .deviceToken "app" (.secret none) Sample.code] ∧
      ∃ c ∈ s.threads[3]?, c.request = .deviceToken "app" (.secret none) Sample.code ∧
        ∃ response ∈ Sample.answered c, True := by decide +kernel
  obtain ⟨t, subject, ht, -, hsubject, a, ha, x, -, -, hqa, -, -, -, -, honly⟩ :=
    (device_first_decision_wins ⟨0, Semantics.reaches_of_run hs⟩ Sample.code).2.2.2.1 c
      (List.mem_of_getElem? hc) response ⟨⟨_, _, hq⟩, Sample.reply_of_answered hresponse⟩
  have hmem : Request.approveDevice x subject ∈ s.threads.map Thread.request :=
    List.mem_map.mpr ⟨a, ha, hqa⟩
  rw [hrequests] at hmem
  simp only [List.mem_cons, reduceCtorEq, Request.approveDevice.injEq, List.not_mem_nil, or_false,
    false_or] at hmem
  obtain ⟨rfl, rfl⟩ := hmem
  exact ⟨s, c, a, t, hs, hqa, ht, hsubject, honly⟩

end OauthAs
