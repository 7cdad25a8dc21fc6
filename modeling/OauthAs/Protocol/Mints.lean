-- SUMMARY: Where authorization codes come from: each was stored once, by a request that issues codes.
import OauthAs.Protocol.Codes
import OauthAs.Protocol.Service

/-!
# The origin of codes

In a run of the service a code is stored by a request of the front half and from then on only
changes its state: the token endpoint takes it, puts it back, marks it. So whatever is known of a
code goes back to one call that stored it, and the string of a code names that call.
-/

namespace OauthAs

/-- One code, whatever became of it. -/
def AuthorizationCodeRecord.SameCode (r m : AuthorizationCodeRecord) : Prop :=
  r = { m with state := r.state }

theorem AuthorizationCodeRecord.SameCode.trans {r m n : AuthorizationCodeRecord}
    (h : r.SameCode m) (h' : m.SameCode n) : r.SameCode n := by
  unfold SameCode at h h' ⊢
  rw [h, h']

/-- A code for this request: nothing else decides what it grants. -/
def AuthorizationCodeRecord.IssuedFor (srv : Server) (record : AuthorizationCodeRecord)
    (v : ValidatedAuthorizationRequest) : Prop :=
  ∃ subject decidedAt authentication filed code,
    record = srv.codeRecord ⟨v, subject, decidedAt⟩ authentication filed code

/-- The code records that a request of the token endpoint has to do with. -/
def ServiceLedger.Carries : ServiceLedger → AuthorizationCodeRecord → Prop
  | api l, r => (l.codes.hand = some r ∨ l.codes.replayed = some r) ∨ l.codes.redeemed = some r
  | front _ _, _ => False

namespace Server

variable {srv : Server} {w w' : World}
variable {r : AuthorizationCodeRecord} {l : ServiceLedger} {op : StorageOp}
  {m : AuthorizationCodeRecord} {t : ServiceCall} {s : ServiceState}

/-! ## One call -/

/-- Only storage calls touch the codes a request has to do with. -/
theorem codes_next {l : Ledger} {e : Effect} {a : e.Answer} (he : e.isStorage = false) :
    (l.next e a).codes = l.codes := by
  cases e with
  | storage op => cases he
  | tokenEntropy | randomHex bytes | sign claims => cases a <;> rfl
  | _ => rfl

/-- A record a request of the token endpoint writes is one it has to do with, in another state. -/
theorem sameCode_of_writes {l : Ledger} (hentered : l.request.isEntry = true)
    (h : l.WritesCode srv r) : ∃ m, r.SameCode m ∧ l.codes.hand = some m := by
  cases h with
  | putBack hand fair | @consume p r request hand fair first issued owner
  | @mark r a b hand again minted => exact ⟨r, rfl, hand⟩
  | file request free new clock =>
    rw [request] at hentered
    cases hentered

/-- What comes to be stored was there, was carried in another state, or has just been minted. -/
theorem sameCode_of_stored {a : op.Answer} {g g' : MemoryInner} (hentered : l.Entered)
    (hallowed : l.Allowed srv (.storage op)) (hexec : op.exec g = (a, g')) (hr : r ∈ g'.codes) :
    ∃ m, r.SameCode m ∧
      (m ∈ g.codes ∨ l.Carries m ∨ (l.next (.storage op) a).minted = some m) := by
  rcases StorageOp.mem_codes_exec hexec hr with hold | rfl | ⟨expected, rfl, -⟩
  · exact ⟨r, rfl, .inl hold⟩
  · cases l with
    | api l =>
      obtain ⟨m, hm, hhand⟩ := sameCode_of_writes hentered hallowed
      exact ⟨m, hm, .inr (.inl (.inl (.inl hhand)))⟩
    | front q l =>
      cases hexec
      exact ⟨r, rfl, .inr (.inr rfl)⟩
  · cases l with
    | api l =>
      obtain ⟨-, -, -, m, t, hredeemed, -, rfl⟩ := hallowed
      exact ⟨m, rfl, .inr (.inl (.inr hredeemed))⟩
    | front q l => cases hallowed

/-- What a request comes to carry it took out of the store. -/
theorem carries_next {a : op.Answer} {g g' : MemoryInner} (hexec : op.exec g = (a, g'))
    (hr : (l.next (.storage op) a).Carries r) : r ∈ g.codes ∨ l.Carries r := by
  cases l with
  | front q l => cases hr
  | api l =>
    cases a with
    | error e => exact .inr hr
    | ok a =>
      rcases hr with hr | hr
      · exact (Ledger.hand_stored hexec hr).elim (fun h => .inr (.inl h)) .inl
      · right
        cases op with
        | putAuthorizationCode s =>
          rcases Ledger.redeemed_put hr with h | ⟨h, -⟩
          · exact .inr h
          · exact .inl (.inl h)
        | _ => first | exact .inr hr | (cases a <;> exact .inr hr)

/-- A request that has stored a code stores no other. -/
theorem minted_next {e : Effect} {a : e.Answer} (hallowed : l.Allowed srv e)
    (h : l.minted = some m) : (l.next e a).minted = some m := by
  cases l with
  | api l => cases h
  | front q l =>
    cases e with
    | storage op =>
      cases a with
      | error e => exact h
      | ok a =>
        cases op with
        | putAuthorizationCode record =>
          obtain ⟨_, _, _, _, _, _, hmints⟩ := hallowed
          cases hmints.first.symm.trans h
        | putPushedAuthorizationRequest r =>
          have hwrite : (l.write r a).minted = l.minted := by
            unfold FrontLedger.write
            split <;> rfl
          exact hwrite.trans h
        | _ => exact h
    | randomHex bytes => cases a <;> exact h
    | _ => exact h

/-! ## Runs -/

/-- Every code that is stored or carried goes back to one that was minted. -/
theorem originates_minted : srv.Originates (fun g r => r ∈ g.codes) ServiceLedger.Carries
    (fun l m => l.minted = some m) AuthorizationCodeRecord.SameCode where
  trans := AuthorizationCodeRecord.SameCode.trans
  start q r hr := by
    cases q with
    | api request entry => rcases hr with (hr | hr) | hr <;> cases hr
    | _ => cases hr
  keeps := minted_next
  call {w w' l e c a r} hentered hallowed hperform hr := by
    rcases e.storage_cases with ⟨op, rfl⟩ | he
    · obtain ⟨hexec, -, -⟩ := World.perform_storage hperform
      rcases hr with hr | hr
      · exact sameCode_of_stored hentered hallowed hexec hr
      · exact ⟨r, rfl, (carries_next hexec hr).imp_right .inl⟩
    · have hstore := (World.frame_of_perform he hperform).1
      refine ⟨r, rfl, hr.imp (fun hr => ?_) fun hr => .inl ?_⟩
      · rwa [hstore] at hr
      · cases l with
        | front q l => cases hr
        | api l =>
          have hcodes : (l.next e a).codes = l.codes := codes_next he
          simp only [ServiceLedger.next, ServiceLedger.Carries, hcodes] at hr
          exact hr
  sweep hr := ((StorageOp.frame_exec (.sweepExpired _)).codes rfl).mem hr

/-- What a ledger says was minted, its thread stored. -/
theorem did_of_minted (h : (srv.serviceDiscipline.ledger t).minted = some m) :
    t.Did (.storage (.putAuthorizationCode m)) (.ok ()) := by
  refine srv.serviceDiscipline.of_ledger (Φ := fun l => l.minted = some m) ?_ ?_ h
  · cases t.request <;> rintro ⟨⟩
  · rintro (l | ⟨q, l⟩) e a hm
    · cases hm
    · cases e with
      | storage op =>
        cases a with
        | error e => exact .inl hm
        | ok a =>
          cases op with
          | putAuthorizationCode record =>
            cases hm
            exact .inr id
          | putPushedAuthorizationRequest r =>
            have hwrite : (l.write r a).minted = some m := hm
            unfold FrontLedger.write at hwrite
            split at hwrite <;> exact .inl hwrite
          | _ => exact .inl hm
      | randomHex bytes => cases a <;> exact .inl hm
      | _ => exact .inl hm

/-- A thread of the front half that stored a code has it in its ledger. -/
theorem minted_of_did {ok} (h : srv.service.Reaches ok (ServiceState.idle w) s) (ht : t ∈ s.threads)
    (hq : ∀ request entry, t.request ≠ .api request entry)
    (hd : t.Did (.storage (.putAuthorizationCode m)) (.ok ())) :
    (srv.serviceDiscipline.ledger t).minted = some m := by
  have hsaid := srv.serviceDiscipline.did (Φ := fun l => l.minted = some m ∨ ∃ l', l = .api l') h ht
    hd ?_ ?_
  · obtain ⟨l, hl, -⟩ := srv.summary_front hq t.trace
    rcases hsaid with hminted | ⟨l', hl'⟩
    · exact hminted
    · cases hl.symm.trans hl'
  · rintro _ (l | ⟨q, l⟩) - - - -
    · exact .inr ⟨_, rfl⟩
    · exact .inl rfl
  · rintro l e a (hminted | ⟨l, rfl⟩) hallowed -
    · exact .inl (minted_next hallowed hminted)
    · exact .inr ⟨_, rfl⟩

/-- A code that is stored or carried was stored by a thread of the front half. -/
theorem minter {ok} (hnone : ∀ r, r ∉ w.store.codes)
    (h : srv.service.Reaches ok (ServiceState.idle w) s)
    (hr : r ∈ s.world.store.codes ∨ ∃ l ∈ srv.serviceDiscipline.ledgers s, l.Carries r) :
    ∃ t ∈ s.threads, ∃ m, (∀ request entry, t.request ≠ .api request entry) ∧
      t.Did (.storage (.putAuthorizationCode m)) (.ok ()) ∧ r.SameCode m := by
  obtain ⟨l, hl, m, hminted, halike⟩ := originates_minted.origin hnone h hr
  obtain ⟨t, ht, rfl⟩ := List.mem_map.mp hl
  refine ⟨t, ht, m, ?_, did_of_minted hminted, halike⟩
  intro request entry hq
  obtain ⟨l, hl, -⟩ := srv.summary_api request entry t.trace
  rw [← hq] at hl
  rw [Discipline.ledger, hl] at hminted
  cases hminted

/-! ## One call for each string -/

/-- Whether a request has this string for a code or has stored a code under it. -/
def names (x : String) (l : ServiceLedger) : Nat :=
  (l.identifier == some x).toNat + (l.minted.any (codeAt x)).toNat

/-- The string a code is stored under was drawn for it. -/
theorem names_stored {q : ServiceRequest} {l : FrontLedger} {a : op.Result}
    (hmay : l.MayStore srv q op) (x : String) :
    names x (.front q (l.next (.storage op) (.ok a))) ≤ names x (.front q l) := by
  cases op with
  | putAuthorizationCode record =>
    obtain ⟨_, _, _, _, _, code, hmints⟩ := hmay
    have hcode : codeAt x record = (some code.text == some x) := by
      rw [hmints.record_eq]
      rfl
    have hafter : names x (.front q (l.next (.storage (.putAuthorizationCode record)) (.ok a))) =
        0 + (codeAt x record).toNat := rfl
    rw [hafter, hcode, Nat.zero_add]
    unfold names
    rw [show (ServiceLedger.front q l).identifier = _ from hmints.new]
    exact Nat.le_add_right _ _
  | putPushedAuthorizationRequest r =>
    have hwrite : (l.write r a).minted = l.minted ∧
        ((l.write r a).identifier = l.identifier ∨ (l.write r a).identifier = none) := by
      unfold FrontLedger.write
      split
      · exact ⟨rfl, .inl rfl⟩
      · exact ⟨rfl, .inr rfl⟩
    obtain ⟨hminted, hidentifier⟩ := hwrite
    have hafter : names x (.front q (l.next (.storage (.putPushedAuthorizationRequest r)) (.ok a))) =
        ((l.write r a).identifier == some x).toNat + ((l.write r a).minted.any (codeAt x)).toNat :=
      rfl
    rw [hafter, hminted]
    refine Nat.add_le_add_right ?_ _
    rcases hidentifier with h | h
    · rw [h]
      exact Nat.le_refl _
    · rw [h]
      exact Nat.zero_le _
  | _ => exact Nat.le_refl _

theorem pays_names : srv.Pays (fun _ _ => 0) names := by
  refine .of_identifier (fun x l => (l.minted.any (codeAt x)).toNat) (fun _ _ => rfl)
    (fun q x => by cases q <;> rfl) ?_ ?_ fun _ _ _ => Nat.le_refl _
  · intro l op a g g' hallowed _ x
    cases l with
    | api l => exact Nat.le_refl _
    | front q l => exact Nat.add_le_add_left (names_stored hallowed x) _
  · intro l e a he x
    cases l with
    | api l => rfl
    | front q l =>
      cases e with
      | storage op =>
        cases a with
        | ok a => exact absurd rfl (he op a)
        | error e => rfl
      | randomHex bytes => cases a <;> rfl
      | _ => rfl

/-- Two codes of one string are one code, and one thread stored it. -/
theorem minted_once {ok} {clock : SystemTime}
    (h : srv.ServiceRuns ok clock s) {i j : Nat} {t' : ServiceCall} {m' : AuthorizationCodeRecord}
    (hi : s.threads[i]? = some t)
    (hj : s.threads[j]? = some t') (hm : (srv.serviceDiscipline.ledger t).minted = some m)
    (hm' : (srv.serviceDiscipline.ledger t').minted = some m') (hcode : m.code = m'.code) :
    i = j ∧ m = m' := by
  have hbudget := (pays_names.budget (fun _ => rfl) h).single m.code
  have hone : ∀ l : ServiceLedger, ∀ n, l.minted = some n → n.code = m.code →
      1 ≤ names m.code l := by
    intro l n hn hcode
    have hany : l.minted.any (codeAt m.code) = true := by
      rw [hn]
      exact beq_iff_eq.mpr hcode
    unfold names
    rw [hany]
    exact Nat.le_add_left _ _
  have hij : i = j := eq_of_total_le_one ((Nat.le_add_left _ _).trans hbudget)
    (Discipline.ledgers_getElem? hi) (Discipline.ledgers_getElem? hj) (hone _ m hm rfl)
    (hone _ m' hm' hcode.symm)
  subst hij
  cases hi.symm.trans hj
  exact ⟨rfl, Option.some.inj (hm.symm.trans hm')⟩

/-! ## The moment of a call that stores a code -/

/-- How a code came to be stored: the calls that led to it, and what the thread knew. -/
theorem minting {ok} (h : srv.service.Reaches ok (ServiceState.idle w) s) {i : Nat}
    (hi : s.threads[i]? = some t) (hq : ∀ request entry, t.request ≠ .api request entry)
    (hd : t.Did (.storage (.putAuthorizationCode m)) (.ok ())) :
    ∃ before after, t.trace = before ++ ⟨.storage (.putAuthorizationCode m), .ok ()⟩ :: after ∧
      ∃ mo : srv.service.Moment ok (ServiceState.idle w) s i t before
          (.storage (.putAuthorizationCode m)) (.ok ()),
        ∃ l, srv.serviceDiscipline.ledger mo.caller = .front t.request l ∧ l.past = before ∧
          ∃ approval requirement authentication checked filed code,
            l.Mints srv t.request m approval requirement authentication checked filed code := by
  obtain ⟨before, after, htrace⟩ := List.append_of_mem hd
  obtain ⟨mo⟩ := h.moment hi htrace
  obtain ⟨l, hl, hpast⟩ := srv.summary_front hq before
  have hledger : srv.serviceDiscipline.ledger mo.caller = .front t.request l := by
    rw [Discipline.ledger, mo.request, mo.trace, hl]
  have hallowed := (srv.serviceDiscipline.allowed_of_trace h (List.mem_of_getElem? hi) htrace).1
  rw [hl] at hallowed
  exact ⟨before, after, htrace, mo, l, hledger, hpast, hallowed⟩

end Server

end OauthAs
