-- SUMMARY: The user-code index of the reference store is the exact inverse of the stored device grants.
import OauthAs.Store.Barrier

/-!
# The user-code index

A device grant is stored under its device code, and an index leads from the user code a person
types to it. The two tables are written by different operations: a put and a swap file a grant
and retire the entry of a user code it gives up, a take removes both, and the two cascades and
the sweep remove grants first and dangling entries after. `IndexExact` is the one statement all of
them keep.
-/

namespace OauthAs

namespace MemoryInner

variable {grant : DeviceGrant}

/-- The device code a normalized user code leads to. -/
def deviceCodeOf (g : MemoryInner) (userCode : String) : Option String :=
  (g.userCodeIndex.lookup userCode).map Prod.snd

/-- A user code leads to a device code exactly if the grant stored under it has that user code. -/
def IndexExact (g : MemoryInner) : Prop :=
  ∀ u d, g.deviceCodeOf u = some d ↔
    ∃ grant, g.deviceByCode.lookup d = some grant ∧ userCodeOf grant = u

variable {g g' : MemoryInner}

theorem deviceCodeOf_eq_some {u d : String} :
    g.deviceCodeOf u = some d ↔ g.userCodeIndex.lookup u = some (u, d) := by
  simp only [deviceCodeOf, Option.map_eq_some_iff]
  constructor
  · rintro ⟨⟨u', d'⟩, hlookup, rfl⟩
    have hkey : u' = u := Table.key_of_lookup hlookup
    rw [hlookup, hkey]
  · exact fun h => ⟨_, h, rfl⟩

theorem IndexExact.congr (h : g.IndexExact) (hgrants : g'.deviceByCode = g.deviceByCode)
    (hindex : g'.userCodeIndex = g.userCodeIndex) : g'.IndexExact := by
  intro u d
  rw [deviceCodeOf, hindex, hgrants]
  exact h u d

/-- Two stored grants with one user code are one grant. -/
theorem IndexExact.eq_of_userCode (h : g.IndexExact) {a b : DeviceGrant} {d e : String}
    (ha : g.deviceByCode.lookup d = some a) (hb : g.deviceByCode.lookup e = some b)
    (huser : userCodeOf a = userCodeOf b) : d = e := by
  have hd := (h (userCodeOf a) d).mpr ⟨a, ha, rfl⟩
  have he := (h (userCodeOf a) e).mpr ⟨b, hb, huser.symm⟩
  exact Option.some.inj (hd.symm.trans he)

theorem indexExact_empty : empty.IndexExact := by
  intro u d
  simp [deviceCodeOf, empty]

/-! ## Filing -/

/-- Where the index leads once the entry of the grant's former user code is retired. -/
theorem deviceCodeOf_file (g : MemoryInner) (grant : DeviceGrant) (u : String) :
    (g.fileDeviceGrant grant).deviceCodeOf u =
      if userCodeOf grant = u then some grant.deviceCode
      else if (g.deviceByCode.lookup grant.deviceCode).any (fun p => userCodeOf p = u) then none
      else g.deviceCodeOf u := by
  unfold deviceCodeOf fileDeviceGrant
  simp only [Table.lookup_insert]
  split
  · rfl
  · rename_i hu
    cases hprevious : g.deviceByCode.lookup grant.deviceCode with
    | none => simp
    | some previous =>
      simp only [Option.any_some, decide_eq_true_eq]
      split
      · rw [Table.lookup_erase]
        by_cases hp : u = userCodeOf previous
        · simp [hp]
        · simp [hp, Ne.symm hp]
      · rename_i hsame
        have hp : userCodeOf previous ≠ u := by
          rw [not_not.mp hsame]
          exact hu
        simp [hp]

theorem lookup_deviceByCode_file (g : MemoryInner) (grant : DeviceGrant) (d : String) :
    (g.fileDeviceGrant grant).deviceByCode.lookup d =
      if grant.deviceCode = d then some grant else g.deviceByCode.lookup d := by
  unfold fileDeviceGrant
  exact Table.lookup_insert _ _ _

/-- A user code nobody else has: the index does not lead from it to another grant. -/
theorem userCodeTaken_eq_false :
    g.userCodeTaken grant = false ↔
      ∀ d, g.deviceCodeOf (userCodeOf grant) = some d → d = grant.deviceCode := by
  unfold userCodeTaken deviceCodeOf
  cases g.userCodeIndex.lookup (userCodeOf grant) <;> simp

theorem indexExact_file (h : g.IndexExact) (hfree : g.userCodeTaken grant = false) :
    (g.fileDeviceGrant grant).IndexExact := by
  have hfree := userCodeTaken_eq_false.mp hfree
  intro u d
  rw [deviceCodeOf_file, lookup_deviceByCode_file]
  by_cases hu : userCodeOf grant = u
  · -- The user code of the grant that is filed leads to it and to nothing else.
    subst hu
    rw [if_pos rfl]
    constructor
    · rintro ⟨⟩
      exact ⟨grant, if_pos rfl, rfl⟩
    · rintro ⟨other, hother, huser⟩
      split at hother
      · rename_i hd
        rw [hd]
      · have hd := hfree d ((h _ d).mpr ⟨other, hother, huser⟩)
        rw [hd]
  · rw [if_neg hu]
    by_cases hold : (g.deviceByCode.lookup grant.deviceCode).any (fun p => userCodeOf p = u) = true
    · -- The user code the grant gave up leads nowhere: no other grant had it.
      rw [if_pos hold]
      obtain ⟨previous, hprevious, huser⟩ := Option.any_eq_true _ _ |>.mp hold
      constructor
      · rintro ⟨⟩
      · rintro ⟨other, hother, huser'⟩
        split at hother
        · cases hother
          exact absurd huser' hu
        · rename_i hd
          refine absurd (h.eq_of_userCode hprevious hother ?_) hd
          rw [of_decide_eq_true huser, huser']
    · -- Any other user code leads where it led.
      rw [if_neg hold, h u d]
      constructor
      · rintro ⟨other, hother, huser⟩
        refine ⟨other, ?_, huser⟩
        rw [if_neg, hother]
        rintro rfl
        exact hold (by simp [hother, huser])
      · rintro ⟨other, hother, huser⟩
        split at hother
        · cases hother
          exact absurd huser hu
        · exact ⟨other, hother, huser⟩

/-! ## Removing -/

theorem indexExact_take {deviceCode : String} (h : g.IndexExact)
    (hgrant : g.deviceByCode.lookup deviceCode = some grant) :
    IndexExact { g with
      deviceByCode := g.deviceByCode.erase deviceCode
      userCodeIndex := g.userCodeIndex.erase (userCodeOf grant) } := by
  intro u d
  simp only [deviceCodeOf, Table.lookup_erase]
  by_cases hu : u = userCodeOf grant
  · rw [if_pos hu]
    constructor
    · rintro ⟨⟩
    · rintro ⟨other, hother, huser⟩
      split at hother
      · cases hother
      · rename_i hd
        exact absurd (h.eq_of_userCode hother hgrant (huser.trans hu)) hd
  · rw [if_neg hu]
    refine (h u d).trans ⟨?_, ?_⟩
    · rintro ⟨other, hother, huser⟩
      refine ⟨other, ?_, huser⟩
      rw [if_neg, hother]
      rintro rfl
      cases hgrant.symm.trans hother
      exact hu huser.symm
    · rintro ⟨other, hother, huser⟩
      split at hother
      · cases hother
      · exact ⟨other, hother, huser⟩

/-- Grants are dropped, then the entries that point at none. -/
theorem indexExact_retain {p : DeviceGrant → Bool} (h : g.IndexExact)
    (hgrants : g'.deviceByCode = g.deviceByCode.retain p)
    (hindex : g'.userCodeIndex = g.userCodeIndex.retain fun e => g'.deviceByCode.contains e.2) :
    g'.IndexExact := by
  intro u d
  have hkept : g'.deviceCodeOf u = some d ↔
      g.deviceCodeOf u = some d ∧ g'.deviceByCode.contains d = true := by
    rw [deviceCodeOf_eq_some, deviceCodeOf_eq_some, hindex, Table.lookup_retain,
      Option.filter_eq_some_iff]
  rw [hkept, h u d, Table.contains, hgrants, Table.lookup_retain]
  constructor
  · rintro ⟨⟨grant, hgrant, huser⟩, hsome⟩
    rw [hgrant] at hsome ⊢
    obtain ⟨kept, hkept⟩ := Option.isSome_iff_exists.mp hsome
    obtain ⟨⟨⟩, -⟩ := Option.filter_eq_some_iff.mp hkept
    exact ⟨_, hkept, huser⟩
  · rintro ⟨grant, hgrant, huser⟩
    obtain ⟨hold, -⟩ := Option.filter_eq_some_iff.mp hgrant
    exact ⟨⟨grant, hold, huser⟩, by rw [hgrant]; rfl⟩

end MemoryInner

namespace StorageOp

open MemoryInner

variable {g : MemoryInner} {op : StorageOp}

/-- One call keeps the index exact. -/
theorem indexExact_exec (h : g.IndexExact) (op : StorageOp) : (exec g op).2.IndexExact := by
  rcases exec_cases g op with hsame | ⟨-, hwrites⟩
  · rw [hsame]
    exact h
  generalize (exec g op).2 = g' at hwrites
  cases hwrites with
  | deleteClient _ _ | revokeConsent _ _ _ | sweepExpired _ => exact indexExact_retain h rfl rfl
  | putDeviceGrant free | compareAndSwapDeviceGrant _ free => exact indexExact_file h free
  | takeDeviceGrant found => exact indexExact_take h found
  | _ => exact h.congr rfl rfl

theorem indexExact_execAll (ops : List StorageOp) :
    ∀ {g : MemoryInner}, g.IndexExact → (execAll g ops).IndexExact := by
  induction ops with
  | nil => exact fun h => h
  | cons op ops ih => exact fun h => ih (indexExact_exec h op)

/-- In every store that calls reach from the empty one, the user-code index is the inverse of the
stored grants: it leads from a user code to a device code exactly if the grant stored under that
device code carries it and has that user code. So it is injective, no two stored grants share a
user code, and a call that fails changes neither the grants nor the index. -/
theorem device_index_exact (ops : List StorageOp) :
    (∀ u d, (execAll .empty ops).deviceCodeOf u = some d ↔
      ∃ grant, (execAll .empty ops).deviceByCode.lookup d = some grant ∧ grant.deviceCode = d ∧
        normalizeUserCode grant.userCode = u) ∧
    (∀ u u' d, (execAll .empty ops).deviceCodeOf u = some d →
      (execAll .empty ops).deviceCodeOf u' = some d → u = u') ∧
    (∀ a b, a ∈ (execAll .empty ops).deviceByCode → b ∈ (execAll .empty ops).deviceByCode →
      normalizeUserCode a.userCode = normalizeUserCode b.userCode → a = b) ∧
    ∀ op e, (exec (execAll .empty ops) op).1 = .error e →
      (exec (execAll .empty ops) op).2.deviceByCode = (execAll .empty ops).deviceByCode ∧
      (exec (execAll .empty ops) op).2.userCodeIndex = (execAll .empty ops).userCodeIndex := by
  have h := indexExact_execAll ops indexExact_empty
  refine ⟨fun u d => (h u d).trans ⟨?_, ?_⟩, ?_, ?_, ?_⟩
  · rintro ⟨grant, hgrant, huser⟩
    exact ⟨grant, hgrant, Table.key_of_lookup hgrant, huser⟩
  · rintro ⟨grant, hgrant, -, huser⟩
    exact ⟨grant, hgrant, huser⟩
  · intro u u' d hu hu'
    obtain ⟨grant, hgrant, rfl⟩ := (h u d).mp hu
    obtain ⟨grant', hgrant', rfl⟩ := (h u' d).mp hu'
    cases hgrant.symm.trans hgrant'
    rfl
  · intro a b ha hb huser
    exact Table.eq_of_key_eq ha hb
      (h.eq_of_userCode (Table.lookup_key ha) (Table.lookup_key hb) huser)
  · intro op e he
    rw [exec_error he]
    exact ⟨rfl, rfl⟩

end StorageOp

end OauthAs
