-- SUMMARY: Code records: who holds one, who may still redeem it, and what a redemption leaves in it.
import OauthAs.Protocol.Provenance

/-!
# Authorization codes

A code record is in the store or in the hands of one request, and its string is in nobody's hands
but the issuer's before it is filed. Each code is redeemed at most once, and from its first replay
on no redemption of it can be recorded. All three are budgets: a weight of the stored records and a
weight of each ledger whose sum only the drawing of the code's own string raises. Once a redemption
is recorded, every copy of the record names the tokens it issued.
-/

namespace OauthAs

variable {old : Ledger → Prop}

/-! ## Budgets -/

/-- A weight of ledgers that every call pays for with stored records that satisfy `p`, and that
drawing the string `c` raises by one. -/
structure Ledger.PaysCode (srv : Server) (c : String) (p : AuthorizationCodeRecord → Bool)
    (f : Ledger → Nat) (l : Ledger) : Prop where
  same : ∀ l' : Ledger, l'.codes.hand = l.codes.hand → l'.codes.redeemed = l.codes.redeemed →
    l'.codes.replayed = l.codes.replayed → l'.identifier = l.identifier → f l' = f l
  take : ∀ r, l.codes.hand = none → l.codes.replayed = none →
    f { l with codes := l.codes.take l.request r } ≤ f l + (p r).toNat
  put : ∀ r, l.WritesCode srv r →
    (p r).toNat + f { l with codes := l.codes.put r, identifier := none } ≤ f l
  file : f { l with identifier := none } ≤ f l
  name : ∀ (l' : Ledger) x, l'.codes = l.codes → l'.identifier = some x →
    f l' ≤ f l + (x == c).toNat
  swap : ∀ {current updated : AuthorizationCodeRecord} {a b}, current.code = updated.code →
    current.state = .consumed none none → updated.state = .consumed (some a) b →
    (p updated).toNat ≤ (p current).toNat

section Budget
variable {srv : Server} {c : String} {p : AuthorizationCodeRecord → Bool} {f : Ledger → Nat}
  {l : Ledger} {g g' : MemoryInner} {op : StorageOp}

theorem Ledger.PaysCode.stored {a : op.Result} (h : l.PaysCode srv c p f) (may : l.MayStore srv op)
    (hexec : op.exec g = (.ok a, g')) :
    g'.codes.count p + f (l.stored op a) ≤ g.codes.count p + f l := by
  obtain ⟨hframe, -⟩ := StorageOp.exec_writes hexec
  cases op with
  | takeAuthorizationCode code =>
    obtain ⟨-, -, -, hhand, -, hreplayed⟩ := may
    obtain ⟨hlookup, rfl⟩ := StorageOp.take_code hexec
    have hcount := Table.count_erase g.codes p code
    rw [Table.tally, hlookup] at hcount
    cases a with
    | none => exact Nat.add_le_add_right (Nat.le.intro hcount) _
    | some r =>
      have hf : f (l.stored (.takeAuthorizationCode code) (some r)) ≤ _ := h.take r hhand hreplayed
      simp only at hcount ⊢
      omega
  | putAuthorizationCode r =>
    have hf : _ + f (l.stored (.putAuthorizationCode r) a) ≤ _ := h.put r may
    have hcount := Table.count_erase g.codes p r.code
    cases hexec
    have hinsert : (g.codes.insert r).count p = _ := Table.count_insert g.codes p r
    simp only [MemoryInner.putAuthorizationCode] at hf ⊢
    omega
  | compareAndSwapAuthorizationCode expected updated =>
    obtain ⟨rfl, -, -, r, t, -, -, hupdated⟩ := may
    have hf := h.same (l.stored (.compareAndSwapAuthorizationCode _ updated) a) rfl rfl rfl rfl
    rw [hf]
    rcases StorageOp.swap_code_cases hexec with ⟨-, current, hlookup, hstate, rfl⟩ | ⟨-, rfl, -⟩
    · have hp := h.swap (Table.key_of_lookup hlookup) hstate (by rw [hupdated])
      have hcount := Table.count_erase g.codes p updated.code
      simp only [Table.tally, hlookup, Table.count_insert] at hcount ⊢
      omega
    · exact Nat.le_refl _
  | putDeviceGrant grant =>
    exact Nat.add_le_add ((hframe.codes rfl).count_le p) h.file
  | _ =>
    refine Nat.add_le_add ((hframe.codes rfl).count_le p) (Nat.le_of_eq ?_)
    first
    | exact h.same _ rfl rfl rfl rfl
    | (cases a <;> exact h.same _ rfl rfl rfl rfl)

/-- No move raises a budget, except that a new string may be drawn. -/
theorem codeBudget_step {w w' : World} {ls ls' : List Ledger} (ht : srv.Turns w ls w' ls')
    (hpays : ∀ l ∈ ls, l.PaysCode srv c p f) (hstart : ∀ q, f (.start q) = 0) :
    w'.store.codes.count p + total f ls' ≤ w.store.codes.count p + total f ls ∨
      (c ∉ w.used ∧
        w'.store.codes.count p + total f ls' ≤ w.store.codes.count p + total f ls + 1) := by
  cases ht with
  | spawn q =>
    rw [total_append_one, hstart]
    exact .inl (Nat.le_refl _)
  | stored i l op a g hi may exec =>
    exact .inl (add_total_set_le hi ((hpays l (List.mem_of_getElem? hi)).stored may exec))
  | draws i l e hi first fresh =>
    have hsame := (hpays l (List.mem_of_getElem? hi)).same (l.next .tokenEntropy (some e)) rfl rfl
      rfl rfl
    exact .inl (add_total_set_le hi (by rw [hsame]))
  | aside i l l' w' hi aside store used identifier =>
    have hl := hpays l (List.mem_of_getElem? hi)
    rw [store]
    rcases identifier with hsame | ⟨x, hx, hfresh⟩
    · have hf := hl.same l' (by rw [aside.codes]) (by rw [aside.codes]) (by rw [aside.codes]) hsame
      exact .inl (add_total_set_le hi (by rw [hf]))
    · have hf := hl.name l' x aside.codes hx
      by_cases hxc : x = c
      · subst hxc
        have := total_set (f := f) hi l'
        simp only [beq_self_eq_true, Bool.toNat_true] at hf
        exact .inr ⟨hfresh, by omega⟩
      · rw [beq_eq_false_iff_ne.mpr hxc] at hf
        exact .inl (add_total_set_le hi (Nat.add_le_add_left hf _))
  | alone w' store used =>
    rw [store]
    exact .inl (Nat.le_refl _)
  | sweep now =>
    exact .inl (Nat.add_le_add_right
      (((StorageOp.frame_exec (g := w.store) (.sweepExpired now)).codes rfl).count_le p) _)

end Budget

/-! ## Custody, redemption and closure -/

def codeAt (c : String) (r : AuthorizationCodeRecord) : Bool := r.code == c

def issuedCode (c : String) (r : AuthorizationCodeRecord) : Bool :=
  r.state = .issued && r.code == c

/-- The swap that records a redemption finds only open records. -/
def openCode (c : String) (r : AuthorizationCodeRecord) : Bool :=
  (r.state = .issued || r.state = .consumed none none) && r.code == c

namespace Ledger

variable {srv : Server} {l l' : Ledger}

/-- A request has a code while it holds its record, and from drawing its string to filing it. -/
def hasCode (c : String) (l : Ledger) : Nat :=
  (l.codes.hand.any (codeAt c)).toNat + (l.identifier == some c).toNat

/-- A request claims a code's redemption while it holds the record issued, and once it has
consumed it. -/
def redeemsCode (c : String) (l : Ledger) : Nat :=
  (l.codes.hand.any (issuedCode c)).toNat + (l.codes.redeemed.any (codeAt c)).toNat +
    (l.identifier == some c).toNat

/-- A request that met a replay keeps nothing open. -/
def opensCode (c : String) (l : Ledger) : Nat :=
  (l.codes.replayed.isNone && l.codes.hand.any (openCode c)).toNat + (l.identifier == some c).toNat

theorem not_consumed_issued {r : AuthorizationCodeRecord} :
    ¬ (r.state = .consumed none none ∧ r.state = .issued) := by
  rintro ⟨h, h'⟩
  cases h.symm.trans h'

theorem identifier_named {x c : String} (hx : l'.identifier = some x) :
    (l'.identifier == some c).toNat = (x == c).toNat := by
  rw [hx]
  rfl

theorem pays_hasCode (c : String) : l.PaysCode srv c (codeAt c) (hasCode c) where
  same := by
    intro l' hhand _ _ hidentifier
    simp only [hasCode, hhand, hidentifier]
  take := by
    intro r hhand _
    simp only [hasCode, CodeLedger.take, hhand, Option.any_some, Option.any_none]
    omega
  put := by
    intro r hr
    cases hr with
    | putBack hand fair => simp [hasCode, CodeLedger.put, hand]
    | consume request hand fair first issued owner | mark hand again minted =>
      simp [hasCode, CodeLedger.put, hand, codeAt]
    | file request free new clock =>
      simp [hasCode, CodeLedger.put, free, new, codeAt, Server.codeRecord]
  file := by simp [hasCode]
  name := by
    intro l' x hcodes hx
    simp only [hasCode, hcodes, identifier_named hx]
    omega
  swap := by
    intro current updated _ _ hcode _ _
    simp [codeAt, hcode]

theorem pays_redeemsCode (c : String) : l.PaysCode srv c (issuedCode c) (redeemsCode c) where
  same := by
    intro l' hhand hredeemed _ hidentifier
    simp only [redeemsCode, hhand, hredeemed, hidentifier]
  take := by
    intro r hhand _
    simp only [redeemsCode, CodeLedger.take, hhand, Option.any_some, Option.any_none]
    omega
  put := by
    intro r hr
    cases hr with
    | putBack hand fair => simp [redeemsCode, CodeLedger.put, hand, not_consumed_issued]
    | consume request hand fair first issued owner =>
      simp [redeemsCode, CodeLedger.put, hand, first, issued, issuedCode, codeAt]
    | mark hand again minted =>
      simp [redeemsCode, CodeLedger.put, hand, issuedCode]
      omega
    | file request free new clock =>
      simp [redeemsCode, CodeLedger.put, free, new, issuedCode, Server.codeRecord]
      omega
  file := by simp [redeemsCode]
  name := by
    intro l' x hcodes hx
    simp only [redeemsCode, hcodes, identifier_named hx]
    omega
  swap := by
    intro current updated _ _ _ _ hupdated
    simp [issuedCode, hupdated]

theorem pays_opensCode (c : String) : l.PaysCode srv c (openCode c) (opensCode c) where
  same := by
    intro l' hhand _ hreplayed hidentifier
    simp only [opensCode, hhand, hreplayed, hidentifier]
  take := by
    intro r hhand _
    simp only [opensCode, CodeLedger.take, hhand, Option.any_some, Option.any_none, Bool.and_false]
    generalize (if l.request.owns r && r.state != .issued then some r else l.codes.replayed).isNone = b
    cases b <;> simp [Nat.add_comm]
  put := by
    intro r hr
    cases hr with
    | putBack hand fair => simp [opensCode, CodeLedger.put, hand, fair]
    | consume request hand fair first issued owner =>
      simp [opensCode, CodeLedger.put, hand, fair, issued, openCode]
    | mark hand again minted => simp [opensCode, CodeLedger.put, hand, again, openCode]
    | file request free new clock =>
      simp [opensCode, CodeLedger.put, free, new, openCode, Server.codeRecord]
  file := by simp [opensCode]
  name := by
    intro l' x hcodes hx
    simp only [opensCode, hcodes, identifier_named hx]
    omega
  swap := by
    intro current updated _ _ _ _ hupdated
    simp [openCode, hupdated]

/-- The records of a redemption are of the code it presented. -/
structure CodeCoherent (l : Ledger) : Prop where
  presented : ∀ r, l.codes.hand = some r ∨ l.codes.redeemed = some r ∨ l.codes.replayed = some r →
    ∃ p, l.request = .authorizationCodeToken p ∧ r.code = p.code
  again : ∀ r, l.codes.replayed = some r → l.request.owns r = true ∧ r.state ≠ .issued
  recorded : ∀ u, l.codes.recorded = some u → l.codes.swapped = some true ∧
    ∃ r a b, l.codes.redeemed = some r ∧ u.code = r.code ∧ u.state = .consumed (some a) b

theorem codeCoherent_start (q : Request) : (start q).CodeCoherent := by
  constructor <;> simp [start]

theorem CodeCoherent.same (h : l.CodeCoherent) (hrequest : l'.request = l.request)
    (hcodes : l'.codes = l.codes) : l'.CodeCoherent := by
  constructor
  · rw [hcodes, hrequest]
    exact h.presented
  · rw [hcodes, hrequest]
    exact h.again
  · rw [hcodes]
    exact h.recorded

/-- A request redeems the record it holds. -/
theorem redeemed_put {r s : AuthorizationCodeRecord} (h : (l.codes.put r).redeemed = some s) :
    l.codes.redeemed = some s ∨ (l.codes.hand = some s ∧ s.state = .issued) := by
  simp only [CodeLedger.put] at h
  split at h
  · rename_i hput
    refine .inr ⟨h, ?_⟩
    have := hput.2
    rw [h] at this
    simpa using this
  · exact .inl h

theorem CodeCoherent.stored {op : StorageOp} {a : op.Result} {g g' : MemoryInner}
    (h : l.CodeCoherent) (may : l.MayStore srv op) (hexec : op.exec g = (.ok a, g')) :
    (l.stored op a).CodeCoherent := by
  cases op with
  | takeAuthorizationCode code =>
    obtain ⟨p, hrequest, rfl, -, hredeemed, hreplayed⟩ := may
    cases a with
    | none => exact h
    | some r =>
      have hcode : r.code = p.code := Table.key_of_lookup (StorageOp.take_code hexec).1
      have hagain : ∀ s, (l.codes.take l.request r).replayed = some s →
          s = r ∧ l.request.owns r = true ∧ r.state ≠ .issued := by
        intro s hs
        simp only [CodeLedger.take, hreplayed] at hs
        obtain ⟨hcond, hs⟩ := Option.ite_none_right_eq_some.mp hs
        cases hs
        exact ⟨rfl, by simpa using hcond⟩
      constructor
      · rintro s (hs | hs | hs)
        · cases hs
          exact ⟨p, hrequest, hcode⟩
        · cases hredeemed.symm.trans hs
        · rw [(hagain s hs).1]
          exact ⟨p, hrequest, hcode⟩
      · intro s hs
        obtain ⟨rfl, hagain⟩ := hagain s hs
        exact hagain
      · intro u hu
        obtain ⟨-, s, -, -, hs, -⟩ := h.recorded u hu
        cases hredeemed.symm.trans hs
  | putAuthorizationCode r =>
    constructor
    · rintro s (hs | hs | hs)
      · cases hs
      · rcases redeemed_put hs with hs | ⟨hs, -⟩
        · exact h.presented s (.inr (.inl hs))
        · exact h.presented s (.inl hs)
      · exact h.presented s (.inr (.inr hs))
    · exact h.again
    · intro u hu
      obtain ⟨hswapped, s, a, b, hs, hu⟩ := h.recorded u hu
      exact ⟨hswapped, s, a, b, grows_putCode may s hs, hu⟩
  | compareAndSwapAuthorizationCode expected updated =>
    obtain ⟨-, hswapped, -, r, t, hredeemed, -, hupdated⟩ := may
    refine ⟨h.presented, h.again, fun u hu => ?_⟩
    change (if a = true then some updated else l.codes.recorded) = some u at hu
    split at hu
    · rename_i hdone
      cases hu
      refine ⟨congrArg some hdone, r, t.accessToken, l.successorKey, hredeemed, ?_, ?_⟩ <;>
        rw [hupdated]
    · cases hswapped.symm.trans (h.recorded u hu).1
  | _ => first | exact h.same rfl rfl | (cases a <;> exact h.same rfl rfl)

theorem codeCoherent_turned {w w' : World} (hold : ∀ l, old l → l.CodeCoherent)
    (ht : srv.Turned w w' old l') : l'.CodeCoherent := by
  cases ht with
  | same l hl => exact hold l' hl
  | start q => exact codeCoherent_start q
  | stored l op a hl may exec => exact (hold l hl).stored may exec
  | draws l e hl first fresh => exact (hold l hl).same rfl rfl
  | aside l l' hl aside => exact (hold l hl).same aside.grows.request aside.codes

end Ledger

/-! ## Known records -/

/-- A code record that is stored, held or was met by a replay. -/
def KnownCode (w : World) (ls : List Ledger) (r : AuthorizationCodeRecord) : Prop :=
  r ∈ w.store.codes ∨ ∃ l ∈ ls, l.codes.hand = some r ∨ l.codes.replayed = some r

section Known
variable {srv : Server} {w w' : World} {ls ls' : List Ledger} {r : AuthorizationCodeRecord}
variable {op : StorageOp} {a : op.Result}

theorem KnownCode.of_hand {l : Ledger} (hl : l ∈ ls) (h : l.codes.hand = some r) :
    KnownCode w ls r := .inr ⟨l, hl, .inl h⟩

theorem KnownCode.of_replayed {l : Ledger} (hl : l ∈ ls) (h : l.codes.replayed = some r) :
    KnownCode w ls r := .inr ⟨l, hl, .inr h⟩

/-- A call hands out only records that were stored. -/
theorem Ledger.hand_stored {l : Ledger} {g g' : MemoryInner} (hexec : op.exec g = (.ok a, g'))
    (h : (l.stored op a).codes.hand = some r ∨ (l.stored op a).codes.replayed = some r) :
    (l.codes.hand = some r ∨ l.codes.replayed = some r) ∨ r ∈ g.codes := by
  cases op with
  | takeAuthorizationCode code =>
    cases a with
    | none => exact .inl h
    | some s =>
      have hs : s ∈ g.codes := Table.mem_of_lookup (StorageOp.take_code hexec).1
      rcases h with h | h
      · cases h
        exact .inr hs
      · simp only [Ledger.stored, CodeLedger.take] at h
        split at h
        · cases h
          exact .inr hs
        · exact .inl (.inr h)
  | putAuthorizationCode s =>
    rcases h with h | h
    · cases h
    · exact .inl (.inr h)
  | _ => first | exact .inl h | (cases a <;> exact .inl h)

/-- Where a known record comes from: it was known, a request wrote it, or it records a
redemption. -/
theorem knownCode_step (ht : srv.Turns w ls w' ls') (hr : KnownCode w' ls' r) :
    KnownCode w ls r ∨ (∃ l ∈ ls, l.WritesCode srv r) ∨
      ∃ l ∈ ls, l.codes.swapped = none ∧ ∃ s, l.codes.redeemed = some s ∧ r.code = s.code := by
  cases ht.changes with
  | quiet now w' ls' store ledgers =>
    refine .inl (hr.imp (store.codes rfl).mem ?_)
    rintro ⟨m, hm, hmr⟩
    rcases ledgers m hm with ⟨q, rfl⟩ | ⟨l, hl, halike⟩
    · rcases hmr with hmr | hmr <;> cases hmr
    · exact ⟨l, hl, halike.codes ▸ hmr⟩
  | stored i l op a g hi may exec =>
    have hl := List.mem_of_getElem? hi
    rcases hr with hr | ⟨m, hm, hmr⟩
    · rcases StorageOp.mem_codes_exec exec hr with hold | rfl | ⟨expected, rfl, -⟩
      · exact .inl (.inl hold)
      · exact .inr (.inl ⟨l, hl, may⟩)
      · obtain ⟨-, hswapped, -, s, t, hredeemed, -, hupdated⟩ := may
        exact .inr (.inr ⟨l, hl, hswapped, s, hredeemed, by rw [hupdated]⟩)
    · rcases List.mem_or_eq_of_mem_set hm with hm | rfl
      · exact .inl (.inr ⟨m, hm, hmr⟩)
      · rcases Ledger.hand_stored exec hmr with hold | hrow
        · exact .inl (.inr ⟨l, hl, hold⟩)
        · exact .inl (.inl hrow)

/-- The budgets of all codes, and what the records of a code say. -/
structure CodeCustody (srv : Server) (w : World) (ls : List Ledger) : Prop where
  fresh : FreshStrings w ls
  coherent : ∀ l ∈ ls, l.CodeCoherent
  used : ∀ r, KnownCode w ls r → r.code ∈ w.used
  redeemed : ∀ l ∈ ls, ∀ r, l.codes.redeemed = some r → r.code ∈ w.used
  custody : ∀ c, w.store.codes.count (codeAt c) + total (Ledger.hasCode c) ls ≤ 1
  single : ∀ c, w.store.codes.count (issuedCode c) + total (Ledger.redeemsCode c) ls ≤ 1
  closed : ∀ l ∈ ls, ∀ r, l.codes.replayed = some r →
    w.store.codes.count (openCode r.code) + total (Ledger.opensCode r.code) ls ≤ 0
  recorded : ∀ l ∈ ls, ∀ u, l.codes.recorded = some u → ∀ r, KnownCode w ls r →
    r.code = u.code → r.state.minted = u.state.minted

theorem codeCustody_initial (clock : SystemTime) : CodeCustody srv (.initial clock) [] := by
  refine ⟨⟨by simp, fun _ _ _ _ _ hi => nomatch hi⟩, by simp, ?_, by simp, ?_, ?_, by simp,
    by simp⟩
  · rintro r (h | ⟨l, hl, -⟩)
    · exact (Table.mem_empty h).elim
    · cases hl
  · exact fun c => Nat.zero_le 1
  · exact fun c => Nat.zero_le 1

namespace CodeCustody

variable {c : String} {l m : Ledger} {s u : AuthorizationCodeRecord}

theorem any_codeAt_eq_false {t : Option AuthorizationCodeRecord}
    (h : ∀ r, t = some r → r.code ≠ c) : t.any (codeAt c) = false := by
  cases t with
  | none => rfl
  | some r => exact beq_eq_false_iff_ne.mpr (h r rfl)

/-- A string nobody was handed is no code's. -/
theorem unnamed (h : CodeCustody srv w ls) (hc : c ∉ w.used) (hl : l ∈ ls) :
    l.codes.hand.any (codeAt c) = false ∧ l.codes.redeemed.any (codeAt c) = false ∧
      (l.identifier == some c) = false := by
  refine ⟨?_, ?_, ?_⟩
  · refine any_codeAt_eq_false fun r hr hcode => hc ?_
    exact hcode ▸ h.used r (.of_hand hl hr)
  · refine any_codeAt_eq_false fun r hr hcode => hc ?_
    exact hcode ▸ h.redeemed l hl r hr
  · refine beq_eq_false_iff_ne.mpr fun hid => hc ?_
    exact (h.fresh.accounted l hl).used c ((h.fresh.accounted l hl).identifier c hid)

theorem unstored (h : CodeCustody srv w ls) (hc : c ∉ w.used) :
    w.store.codes.count (codeAt c) = 0 := by
  refine Table.count_eq_zero.mpr fun r hr => beq_eq_false_iff_ne.mpr ?_
  rintro rfl
  exact hc (h.used r (.inl hr))

theorem issuedCode_le {t : Option AuthorizationCodeRecord} (h : t.any (codeAt c) = false) :
    t.any (issuedCode c) = false := by
  cases t with
  | none => rfl
  | some r =>
    rw [Option.any_some, codeAt] at h
    simp [issuedCode, h]

/-- A record is not stored while it is held. -/
theorem not_held (h : CodeCustody srv w ls) (hr : r ∈ w.store.codes) (hl : l ∈ ls)
    (hhand : l.codes.hand = some s) (hcode : s.code = r.code) : False := by
  have hcustody := h.custody r.code
  have hrow := Table.one_le_count (p := codeAt r.code) hr (beq_self_eq_true _)
  have hheld : 1 ≤ l.hasCode r.code := by simp [Ledger.hasCode, hhand, codeAt, hcode]
  have := le_total_of_mem (f := Ledger.hasCode r.code) hl
  omega

/-- After a replay of a code no record of it is open. -/
theorem not_open (h : CodeCustody srv w ls) (hl : l ∈ ls) (hreplayed : l.codes.replayed = some s)
    (hr : r ∈ w.store.codes) (hcode : r.code = s.code) : r.state ≠ .consumed none none := by
  intro hstate
  have hclosed := h.closed l hl s hreplayed
  have hrow : 1 ≤ w.store.codes.count (openCode s.code) :=
    Table.one_le_count hr (by simp [openCode, hstate, hcode])
  omega

theorem one_le_redeemsCode (hredeemed : l.codes.redeemed = some s) (hcode : s.code = c) :
    1 ≤ l.redeemsCode c := by
  simp only [Ledger.redeemsCode, hredeemed, Option.any_some, codeAt, hcode, beq_self_eq_true,
    Bool.toNat_true]
  omega

/-- A code is redeemed by one request. -/
theorem redeemed_once (h : CodeCustody srv w ls) {i j : Nat} (hi : ls[i]? = some l)
    (hj : ls[j]? = some m) (hl : l.codes.redeemed = some r) (hm : m.codes.redeemed = some s)
    (hcode : r.code = s.code) : i = j := by
  refine eq_of_total_le_one (f := Ledger.redeemsCode s.code) ?_ hi hj
    (one_le_redeemsCode hl hcode) (one_le_redeemsCode hm rfl)
  exact Nat.le_trans (Nat.le_add_left _ _) (h.single s.code)

theorem eq_of_redeemed (h : CodeCustody srv w ls) (hl : l ∈ ls) (hm : m ∈ ls)
    (hlr : l.codes.redeemed = some r) (hms : m.codes.redeemed = some s) (hcode : r.code = s.code) :
    l = m := by
  obtain ⟨i, hi⟩ := List.mem_iff_getElem?.mp hl
  obtain ⟨j, hj⟩ := List.mem_iff_getElem?.mp hm
  cases h.redeemed_once hi hj hlr hms hcode
  exact Option.some.inj (hi.symm.trans hj)

/-- A redeemed code is not about to be filed. -/
theorem not_identifier (h : CodeCustody srv w ls) (hl : l ∈ ls) (hm : m ∈ ls)
    (hredeemed : l.codes.redeemed = some s) (hid : m.identifier = some s.code) : False := by
  obtain ⟨i, hi⟩ := List.mem_iff_getElem?.mp hl
  obtain ⟨j, hj⟩ := List.mem_iff_getElem?.mp hm
  have hsingle := h.single s.code
  have hclaim : 1 ≤ m.redeemsCode s.code := by simp [Ledger.redeemsCode, hid]
  have hij := eq_of_total_le_one (f := Ledger.redeemsCode s.code)
    (Nat.le_trans (Nat.le_add_left _ _) hsingle) hi hj (one_le_redeemsCode hredeemed rfl) hclaim
  subst hij
  cases hi.symm.trans hj
  have htwo : 2 ≤ l.redeemsCode s.code := by
    simp only [Ledger.redeemsCode, hredeemed, hid, Option.any_some, codeAt, beq_self_eq_true,
      Bool.toNat_true]
    omega
  have := le_total_of_mem (f := Ledger.redeemsCode s.code) hl
  omega

/-- The budget of custody is kept. -/
theorem custody_step (h : CodeCustody srv w ls) (ht : srv.Turns w ls w' ls') (c : String) :
    w'.store.codes.count (codeAt c) + total (Ledger.hasCode c) ls' ≤ 1 := by
  rcases codeBudget_step ht (fun l _ => l.pays_hasCode c) (fun _ => rfl) with hle | ⟨hc, hle⟩
  · exact Nat.le_trans hle (h.custody c)
  · have hzero : total (Ledger.hasCode c) ls = 0 := by
      refine total_eq_zero fun l hl => ?_
      obtain ⟨hhand, -, hid⟩ := h.unnamed hc hl
      simp only [Ledger.hasCode, hhand, hid, Bool.toNat_false]
    rw [h.unstored hc, hzero] at hle
    exact hle

/-- The budget of redemptions is kept. -/
theorem single_step (h : CodeCustody srv w ls) (ht : srv.Turns w ls w' ls') (c : String) :
    w'.store.codes.count (issuedCode c) + total (Ledger.redeemsCode c) ls' ≤ 1 := by
  rcases codeBudget_step ht (fun l _ => l.pays_redeemsCode c) (fun _ => rfl) with hle | ⟨hc, hle⟩
  · exact Nat.le_trans hle (h.single c)
  · have hzero : total (Ledger.redeemsCode c) ls = 0 := by
      refine total_eq_zero fun l hl => ?_
      obtain ⟨hhand, hredeemed, hid⟩ := h.unnamed hc hl
      simp only [Ledger.redeemsCode, issuedCode_le hhand, hredeemed, hid, Bool.toNat_false]
    have hrows : w.store.codes.count (issuedCode c) = 0 := by
      have := Table.count_mono (t := w.store.codes) (p := issuedCode c) (q := codeAt c)
        (by simp [issuedCode, codeAt])
      rw [h.unstored hc] at this
      omega
    rw [hrows, hzero] at hle
    exact hle

/-- A replay is met with the record in hand, and then no other copy of it is left. -/
theorem closed_of_hand
    (hcustody : w.store.codes.count (codeAt r.code) + total (Ledger.hasCode r.code) ls ≤ 1)
    (hl : l ∈ ls) (hhand : l.codes.hand = some r) (hreplayed : l.codes.replayed = some r) :
    w.store.codes.count (openCode r.code) + total (Ledger.opensCode r.code) ls ≤ 0 := by
  have hrows := Table.count_mono (t := w.store.codes) (p := openCode r.code) (q := codeAt r.code)
    (by simp [openCode, codeAt])
  have hle : ∀ m ∈ ls, m.opensCode r.code ≤ m.hasCode r.code := by
    intro m _
    refine Nat.add_le_add_right ?_ _
    cases hm : m.codes.hand with
    | none => simp
    | some s =>
      cases hs : s.code == r.code <;> cases m.codes.replayed.isNone <;> simp [openCode, codeAt, hs]
      exact Bool.toNat_le _
  have hlt : l.opensCode r.code < l.hasCode r.code := by
    simp [Ledger.opensCode, Ledger.hasCode, hreplayed, hhand, codeAt]
  have := total_lt_total hle hl hlt
  omega

theorem replayed_stored (h : (l.stored op a).codes.replayed = some r) :
    l.codes.replayed = some r ∨ (l.stored op a).codes.hand = some r := by
  cases op with
  | takeAuthorizationCode code =>
    cases a with
    | none => exact .inl h
    | some s =>
      simp only [Ledger.stored, CodeLedger.take] at h
      split at h
      · exact .inr h
      · exact .inl h
  | _ => first | exact .inl h | (cases a <;> exact .inl h)

theorem closed_step (h : CodeCustody srv w ls) (ht : srv.Turns w ls w' ls') (hl : l ∈ ls')
    (hreplayed : l.codes.replayed = some r) :
    w'.store.codes.count (openCode r.code) + total (Ledger.opensCode r.code) ls' ≤ 0 := by
  have hold : ∀ m ∈ ls, m.codes.replayed = some r →
      w'.store.codes.count (openCode r.code) + total (Ledger.opensCode r.code) ls' ≤ 0 := by
    intro m hm hmr
    rcases codeBudget_step ht (fun l _ => l.pays_opensCode r.code) (fun _ => rfl) with hle | ⟨hc, -⟩
    · exact Nat.le_trans hle (h.closed m hm r hmr)
    · exact absurd (h.used r (.of_replayed hm hmr)) hc
  cases ht.turned hl with
  | same l hl => exact hold _ hl hreplayed
  | start q => cases hreplayed
  | stored m op a hm may exec =>
    rcases replayed_stored hreplayed with hmr | hhand
    · exact hold m hm hmr
    · exact closed_of_hand (h.custody_step ht r.code) hl hhand hreplayed
  | draws m e hm first fresh => exact hold m hm hreplayed
  | aside m l hm aside => exact hold m hm (aside.codes ▸ hreplayed)

/-- Whatever is written to a code was handed out. -/
theorem used_of_writes (h : CodeCustody srv w ls) (hl : l ∈ ls) (hr : l.WritesCode srv r) :
    r.code ∈ w.used := by
  cases hr with
  | putBack hand fair => exact h.used r (.of_hand hl hand)
  | @consume p s request hand fair first issued owner | @mark s a b hand again minted =>
    exact h.used s (.of_hand hl hand)
  | file request free new clock =>
    exact (h.fresh.accounted l hl).used _ ((h.fresh.accounted l hl).identifier _ new)

theorem used_step (h : CodeCustody srv w ls) (ht : srv.Turns w ls w' ls')
    (hr : KnownCode w' ls' r) : r.code ∈ w'.used := by
  refine ht.used_subset ?_
  rcases knownCode_step ht hr with hr | ⟨l, hl, hr⟩ | ⟨l, hl, -, s, hs, hcode⟩
  · exact h.used r hr
  · exact h.used_of_writes hl hr
  · rw [hcode]
    exact h.redeemed l hl s hs

/-- A request redeems a record it holds. -/
theorem redeemed_turned (ht : srv.Turned w w' old l) (hr : l.codes.redeemed = some r) :
    ∃ m, old m ∧ (m.codes.redeemed = some r ∨ (m.codes.hand = some r ∧ r.state = .issued)) := by
  cases ht with
  | same l hl => exact ⟨_, hl, .inl hr⟩
  | start q => cases hr
  | stored m op a hm may exec =>
    refine ⟨m, hm, ?_⟩
    cases op with
    | putAuthorizationCode s => exact Ledger.redeemed_put hr
    | _ => first | exact .inl hr | (cases a <;> exact .inl hr)
  | draws m e hm first fresh => exact ⟨m, hm, .inl hr⟩
  | aside m l hm aside => exact ⟨m, hm, .inl (aside.codes ▸ hr)⟩

theorem redeemed_step (h : CodeCustody srv w ls) (ht : srv.Turns w ls w' ls') (hl : l ∈ ls')
    (hr : l.codes.redeemed = some r) : r.code ∈ w'.used := by
  obtain ⟨m, hm, hmr | ⟨hmr, -⟩⟩ := redeemed_turned (ht.turned hl) hr
  · exact ht.used_subset (h.redeemed m hm r hmr)
  · exact ht.used_subset (h.used r (.of_hand hm hmr))

/-- What is written to a code whose redemption is recorded keeps the record of it. -/
theorem minted_of_writes (h : CodeCustody srv w ls) (hl : l ∈ ls) (hu : l.codes.recorded = some u)
    (hm : m ∈ ls) (hr : m.WritesCode srv r) (hcode : r.code = u.code) :
    r.state.minted = u.state.minted := by
  obtain ⟨-, s, a, b, hs, hus, hstate⟩ := (h.coherent l hl).recorded u hu
  cases hr with
  | putBack hand fair => exact h.recorded l hl u hu r (.of_hand hm hand) hcode
  | consume request hand fair first issued owner =>
    have hminted := h.recorded l hl u hu _ (.of_hand hm hand) hcode
    rw [AuthorizationCodeState.minted_eq_none.mpr issued, hstate] at hminted
    cases hminted
  | mark hand again minted =>
    rw [← h.recorded l hl u hu _ (.of_hand hm hand) hcode, minted]
    rfl
  | file request free new clock =>
    refine (h.not_identifier hl hm hs ?_).elim
    rw [new, ← hus, ← hcode]
    rfl

/-- The swap that records a redemption leaves no other copy of the code's record. -/
theorem eq_of_swap (h : CodeCustody srv w ls) {i : Nat} {current : AuthorizationCodeRecord}
    {l' : Ledger} {g : MemoryInner} (hi : ls[i]? = some l)
    (hr : KnownCode { w with store := g } (ls.set i l') r) (hcode : r.code = u.code)
    (hcodes : l'.codes.hand = l.codes.hand ∧ l'.codes.replayed = l.codes.replayed)
    (hcurrent : w.store.codes.lookup u.code = some current)
    (hstate : current.state = .consumed none none) (hg : g.codes = w.store.codes.insert u) :
    r = u := by
  obtain ⟨hrow, hkey⟩ := Table.lookup_eq_some.mp hcurrent
  have hnone : ∀ m ∈ ls, ¬ (m.codes.hand = some r ∨ m.codes.replayed = some r) := by
    rintro m hm (hhand | hreplayed)
    · exact h.not_held hrow hm hhand (hcode.trans hkey.symm)
    · exact h.not_open hm hreplayed hrow (hkey.trans hcode.symm) hstate
  rcases hr with hr | ⟨m, hm, hmr⟩
  · change r ∈ g.codes at hr
    rw [hg] at hr
    rcases Table.mem_insert.mp hr with rfl | ⟨-, hne⟩
    · rfl
    · exact absurd hcode hne
  · rcases List.mem_or_eq_of_mem_set hm with hm | rfl
    · exact absurd hmr (hnone m hm)
    · rw [hcodes.1, hcodes.2] at hmr
      exact absurd hmr (hnone l (List.mem_of_getElem? hi))

theorem recorded_stored (h : (l.stored op a).codes.recorded = some u) :
    l.codes.recorded = some u ∨
      ∃ expected, (⟨op, a⟩ : (op : StorageOp) × op.Result) =
        ⟨.compareAndSwapAuthorizationCode expected u, true⟩ := by
  cases op with
  | compareAndSwapAuthorizationCode expected updated =>
    change (if a = true then some updated else l.codes.recorded) = some u at h
    split at h
    · rename_i hdone
      cases h
      subst hdone
      exact .inr ⟨expected, rfl⟩
    · exact .inl h
  | _ => first | exact .inl h | (cases a <;> exact .inl h)

/-- Where a recorded redemption comes from: it was recorded, or a swap has just written it. -/
theorem recorded_turned (ht : srv.Turned w w' old l) (hu : l.codes.recorded = some u) :
    ∃ m, old m ∧ (m.codes.recorded = some u ∨ (∃ s, m.codes.redeemed = some s ∧ u.code = s.code) ∧
      w.store.codes.count (openCode u.code) ≠ 0) := by
  cases ht with
  | same l hl => exact ⟨_, hl, .inl hu⟩
  | start q => cases hu
  | stored m op a hm may exec =>
    refine ⟨m, hm, ?_⟩
    rcases recorded_stored hu with hold | ⟨expected, hop⟩
    · exact .inl hold
    · cases hop
      obtain ⟨rfl, -, -, s, t, hs, -, hupdated⟩ := may
      refine .inr ⟨⟨s, hs, by rw [hupdated]⟩, ?_⟩
      rcases StorageOp.swap_code_cases exec with ⟨-, current, hcurrent, hstate, -⟩ | ⟨hfalse, -⟩
      · obtain ⟨hrow, hkey⟩ := Table.lookup_eq_some.mp hcurrent
        refine Nat.one_le_iff_ne_zero.mp (Table.one_le_count hrow ?_)
        simp [openCode, hstate, hkey]
      · cases hfalse
  | draws m e hm first fresh => exact ⟨m, hm, .inl hu⟩
  | aside m l hm aside => exact ⟨m, hm, .inl (aside.codes ▸ hu)⟩

theorem recorded_step (h : CodeCustody srv w ls) (ht : srv.Turns w ls w' ls') (hl : l ∈ ls')
    (hu : l.codes.recorded = some u) (hr : KnownCode w' ls' r) (hcode : r.code = u.code) :
    r.state.minted = u.state.minted := by
  -- A redemption recorded before: the record was known, or it was written since.
  have hold : ∀ m ∈ ls, m.codes.recorded = some u → r.state.minted = u.state.minted := by
    intro m hm hmu
    rcases knownCode_step ht hr with hr | ⟨n, hn, hr⟩ | ⟨n, hn, hswapped, s, hs, hrs⟩
    · exact h.recorded m hm u hmu r hr hcode
    · exact h.minted_of_writes hm hmu hn hr hcode
    · obtain ⟨hdone, s', -, -, hs', hus, -⟩ := (h.coherent m hm).recorded u hmu
      cases h.eq_of_redeemed hm hn hs' hs (hus.symm.trans (hcode.symm.trans hrs))
      exact nomatch hswapped.symm.trans hdone
  cases ht.changes with
  | quiet now w' ls' store ledgers =>
    rcases ledgers l hl with ⟨q, rfl⟩ | ⟨m, hm, halike⟩
    · cases hu
    · exact hold m hm (halike.codes ▸ hu)
  | stored i m op a g hi may exec =>
    rcases List.mem_or_eq_of_mem_set hl with hl | rfl
    · exact hold l hl hu
    rcases recorded_stored hu with hmu | ⟨expected, hop⟩
    · exact hold m (List.mem_of_getElem? hi) hmu
    · cases hop
      obtain ⟨rfl, -⟩ := may
      rcases StorageOp.swap_code_cases exec with ⟨-, current, hcurrent, hstate, rfl⟩ | ⟨hfalse, -⟩
      · rw [h.eq_of_swap hi hr hcode ⟨rfl, rfl⟩ hcurrent hstate rfl]
      · cases hfalse

theorem step (h : CodeCustody srv w ls) (hm : srv.Moves w ls w' ls') : CodeCustody srv w' ls' where
  fresh := h.fresh.step hm
  coherent := fun _ hl => Ledger.codeCoherent_turned h.coherent (hm.turns.turned hl)
  used := fun _ hr => h.used_step hm.turns hr
  redeemed := fun _ hl _ hr => h.redeemed_step hm.turns hl hr
  custody := h.custody_step hm.turns
  single := h.single_step hm.turns
  closed := fun _ hl _ hr => h.closed_step hm.turns hl hr
  recorded := fun _ hl _ hu _ hr hcode => h.recorded_step hm.turns hl hu hr hcode

end CodeCustody

end Known

/-- Custody along every run from an unused store. -/
theorem Server.codeCustody {srv : Server} {ok} {clock : SystemTime} {s : State}
    (h : srv.Runs ok clock s) :
    CodeCustody srv s.world (srv.discipline.ledgers s) :=
  Discipline.invariant (D := srv.discipline) (I := CodeCustody srv) h (codeCustody_initial clock)
    fun _ _ _ _ hI hl => hI.step (moves_of_ledgerStep hl)

end OauthAs
