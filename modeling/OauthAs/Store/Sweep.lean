-- SUMMARY: A sweep of the reference store leaves exactly what is still ahead of it and counts exactly what it removed.
import OauthAs.Store.Barrier

/-!
# The sweep

`sweepExpired` visits eight collections. Seven of them hold records with a deadline, the eighth
holds the barriers of an identifier, whose scopes are cleared one by one; the user-code index is
cleaned up after the grants and counts for nothing. `SweptAt` says what is left, collection by
collection, and `recordCount` says what there was to remove.
-/

namespace OauthAs

namespace ScopeBarriers

/-- The number of barriers recorded under one identifier, each scope counted. -/
def count (b : ScopeBarriers) : Nat :=
  b.client.toList.length + b.family.toList.length + b.consents.size

theorem count_of_isEmpty {b : ScopeBarriers} (h : b.isEmpty = true) : b.count = 0 := by
  simp only [isEmpty, Bool.and_eq_true, Option.isNone_iff_eq_none, List.isEmpty_iff] at h
  obtain ⟨⟨hclient, hfamily⟩, hconsents⟩ := h
  simp [count, hclient, hfamily, Table.size, hconsents]

/-- Every barrier recorded under an identifier stands beyond `now`. -/
structure Ahead (now : SystemTime) (scopes : ScopeBarriers) : Prop where
  client : ∀ t, scopes.client = some t → now < t.until_
  family : ∀ t, scopes.family = some t → now < t.until_
  consents : ∀ t ∈ scopes.consents, now < t.2.until_

end ScopeBarriers

namespace MemoryInner

variable {g g' : MemoryInner} {now : SystemTime}

def barrierCount (g : MemoryInner) : Nat :=
  (g.barriers.rows.map fun b => b.2.count).sum

/-- Everything a sweep may remove: the records with a deadline, and each scope's barrier. -/
def recordCount (g : MemoryInner) : Nat :=
  g.deviceByCode.size + g.codes.size + g.pushed.size + g.tokens.size + g.refresh.size
    + g.replayIds.size + g.barrierCount

/-- What a sweep at `now` leaves of a store. -/
structure SweptAt (now : SystemTime) (g g' : MemoryInner) : Prop where
  deviceGrants : ∀ d, d ∈ g'.deviceByCode ↔ d ∈ g.deviceByCode ∧ now < d.expiresAt
  codes : ∀ c, c ∈ g'.codes ↔ c ∈ g.codes ∧ now < c.expiresAt
  pushed : ∀ p, p ∈ g'.pushed ↔ p ∈ g.pushed ∧ now < p.expiresAt
  tokens : ∀ t, t ∈ g'.tokens ↔ t ∈ g.tokens ∧ now < t.expiresAt
  refresh : ∀ r, r ∈ g'.refresh ↔ r ∈ g.refresh ∧ ∀ e, r.expiresAt = some e → now < e
  replayIds : ∀ i, i ∈ g'.replayIds ↔ i ∈ g.replayIds ∧ now < i.2
  barriers : ∀ b t, g'.barrierAt b = some t ↔ g.barrierAt b = some t ∧ now < t.until_
  barrierKeys : ∀ b ∈ g'.barriers, b.2.isEmpty = false
  userCodes : ∀ e, e ∈ g'.userCodeIndex ↔
    e ∈ g.userCodeIndex ∧ ∃ d ∈ g'.deviceByCode, d.deviceCode = e.2
  clients : g'.clients = g.clients
  consents : g'.consents = g.consents

theorem sweptAt_sweepRecords (g : MemoryInner) (now : SystemTime) :
    SweptAt now g (g.sweepRecords now) where
  deviceGrants d := by simp [sweepRecords, dropStaleIndex]
  codes c := by simp [sweepRecords, dropStaleIndex]
  pushed p := by simp [sweepRecords, dropStaleIndex]
  tokens t := by simp [sweepRecords, dropStaleIndex]
  refresh r := by
    simp only [sweepRecords, dropStaleIndex, Table.mem_retain, Option.all_eq_true,
      decide_eq_true_eq]
  replayIds i := by simp [sweepRecords, dropStaleIndex]
  barriers b t := by
    rw [barrierAt_sweepRecords, Option.filter_eq_some_iff, decide_eq_true_eq]
  barrierKeys b hb := by
    have hkept := (Table.mem_retain.mp hb).2
    simpa using hkept
  userCodes e := by
    simp only [sweepRecords, dropStaleIndex, Table.mem_retain, Table.contains_iff]
  clients := rfl
  consents := rfl

/-! ## Counting -/

theorem reapSlot_count (now : SystemTime) (slot : Option BarrierTimes) :
    (if slot.any fun t => decide (now ≥ t.until_) then 1 else 0)
      + (reapSlot now slot).toList.length = slot.toList.length := by
  cases slot with
  | none => rfl
  | some t =>
    by_cases h : now < t.until_
    · simp [reapSlot, Option.filter_some, h]
    · simp [reapSlot, Option.filter_some, h, Int.not_lt.mp h]

/-- Under one identifier, what is cleared and what stays is what there was. -/
theorem reapedFrom_add_count (now : SystemTime) (scopes : ScopeBarriers) :
    reapedFrom now scopes + (reapScopes now scopes).count = scopes.count := by
  have hclient := reapSlot_count now scopes.client
  have hfamily := reapSlot_count now scopes.family
  have hconsents : (reapScopes now scopes).consents.size ≤ scopes.consents.size :=
    Table.size_retain_le _ _
  simp only [reapedFrom, ScopeBarriers.count]
  change _ + ((reapSlot now scopes.client).toList.length
    + (reapSlot now scopes.family).toList.length + _) = _
  omega

/-- Dropping the identifiers left without a scope loses no barrier. -/
theorem barrierCount_sweepRecords (g : MemoryInner) (now : SystemTime) :
    (g.barriers.rows.map fun b => reapedFrom now b.2).sum + (g.sweepRecords now).barrierCount =
      g.barrierCount := by
  have hrows : (g.sweepRecords now).barriers.rows =
      (g.barriers.rows.map fun b => (b.1, reapScopes now b.2)).filter fun b => !b.2.isEmpty := rfl
  simp only [barrierCount, hrows]
  induction g.barriers.rows with
  | nil => rfl
  | cons b rows ih =>
    have hhead := reapedFrom_add_count now b.2
    simp only [List.map_cons, List.sum_cons, List.filter_cons]
    cases hempty : (reapScopes now b.2).isEmpty with
    | true =>
      rw [ScopeBarriers.count_of_isEmpty hempty] at hhead
      simp only [Bool.not_true, Bool.false_eq_true, if_false]
      omega
    | false =>
      simp only [Bool.not_false, if_true, List.map_cons, List.sum_cons]
      omega

/-- The number a sweep answers and what it leaves add up to what there was. -/
theorem recordCount_sweepExpired (g : MemoryInner) (now : SystemTime) :
    (g.sweepExpired now).1 + (g.sweepExpired now).2.recordCount = g.recordCount := by
  have hbarriers := barrierCount_sweepRecords g now
  have hdevice : (g.sweepRecords now).deviceByCode.size ≤ g.deviceByCode.size :=
    Table.size_retain_le _ _
  have hcodes : (g.sweepRecords now).codes.size ≤ g.codes.size := Table.size_retain_le _ _
  have hpushed : (g.sweepRecords now).pushed.size ≤ g.pushed.size := Table.size_retain_le _ _
  have htokens : (g.sweepRecords now).tokens.size ≤ g.tokens.size := Table.size_retain_le _ _
  have hrefresh : (g.sweepRecords now).refresh.size ≤ g.refresh.size := Table.size_retain_le _ _
  have hreplay : (g.sweepRecords now).replayIds.size ≤ g.replayIds.size :=
    Table.size_retain_le _ _
  simp only [sweepExpired, recordCount]
  omega

/-! ## Sweeping again -/

theorem reapSlot_eq_self {slot : Option BarrierTimes} (h : ∀ t, slot = some t → now < t.until_) :
    reapSlot now slot = slot := by
  cases slot with
  | none => rfl
  | some t => simp [reapSlot, Option.filter_some, h t rfl]

theorem reapScopes_ahead (now : SystemTime) (scopes : ScopeBarriers) :
    (reapScopes now scopes).Ahead now where
  client _ ht := of_decide_eq_true (Option.filter_eq_some_iff.mp ht).2
  family _ ht := of_decide_eq_true (Option.filter_eq_some_iff.mp ht).2
  consents _ ht := of_decide_eq_true (Table.mem_retain.mp ht).2

theorem reapScopes_eq_self {scopes : ScopeBarriers} (h : scopes.Ahead now) :
    reapScopes now scopes = scopes := by
  obtain ⟨client, family, consents⟩ := scopes
  simp only [reapScopes, ScopeBarriers.mk.injEq]
  refine ⟨reapSlot_eq_self h.client, reapSlot_eq_self h.family, ?_⟩
  exact Table.retain_eq_self fun t ht => decide_eq_true (h.consents t ht)

/-- Nothing in the store is dead at `now`, and nothing in it points at what is gone. -/
structure Ahead (now : SystemTime) (g : MemoryInner) : Prop where
  deviceGrants : ∀ d ∈ g.deviceByCode, now < d.expiresAt
  codes : ∀ c ∈ g.codes, now < c.expiresAt
  pushed : ∀ p ∈ g.pushed, now < p.expiresAt
  tokens : ∀ t ∈ g.tokens, now < t.expiresAt
  refresh : ∀ r ∈ g.refresh, ∀ e, r.expiresAt = some e → now < e
  replayIds : ∀ i ∈ g.replayIds, now < i.2
  barriers : ∀ b ∈ g.barriers, b.2.Ahead now ∧ b.2.isEmpty = false
  userCodes : ∀ e ∈ g.userCodeIndex, ∃ d ∈ g.deviceByCode, d.deviceCode = e.2

theorem ahead_sweepRecords (g : MemoryInner) (now : SystemTime) : (g.sweepRecords now).Ahead now := by
  have hswept := sweptAt_sweepRecords g now
  refine ⟨fun d hd => ((hswept.deviceGrants d).mp hd).2, fun c hc => ((hswept.codes c).mp hc).2,
    fun p hp => ((hswept.pushed p).mp hp).2, fun t ht => ((hswept.tokens t).mp ht).2,
    fun r hr => ((hswept.refresh r).mp hr).2, fun i hi => ((hswept.replayIds i).mp hi).2, ?_,
    fun e he => ((hswept.userCodes e).mp he).2⟩
  intro b hb
  obtain ⟨b', -, rfl⟩ := Table.mem_modifyAll.mp (Table.mem_retain.mp hb).1
  exact ⟨reapScopes_ahead now b'.2, hswept.barrierKeys _ hb⟩

theorem Ahead.earlier {now' : SystemTime} (h : g.Ahead now) (hle : now' ≤ now) : g.Ahead now' := by
  have hlt {t : SystemTime} (ht : now < t) : now' < t := Int.lt_of_le_of_lt hle ht
  refine ⟨fun d hd => hlt (h.deviceGrants d hd), fun c hc => hlt (h.codes c hc),
    fun p hp => hlt (h.pushed p hp), fun t ht => hlt (h.tokens t ht),
    fun r hr e he => hlt (h.refresh r hr e he), fun i hi => hlt (h.replayIds i hi), ?_,
    h.userCodes⟩
  intro b hb
  obtain ⟨hahead, hkept⟩ := h.barriers b hb
  exact ⟨⟨fun t ht => hlt (hahead.client t ht), fun t ht => hlt (hahead.family t ht),
    fun t ht => hlt (hahead.consents t ht)⟩, hkept⟩

/-- A sweep of a store in which nothing is dead leaves it as it is. -/
theorem Ahead.sweepRecords (h : g.Ahead now) : g.sweepRecords now = g := by
  have hdevice : g.deviceByCode.retain (fun d => decide (now < d.expiresAt)) = g.deviceByCode :=
    Table.retain_eq_self fun d hd => decide_eq_true (h.deviceGrants d hd)
  have hindex : g.userCodeIndex.retain (fun e => g.deviceByCode.contains e.2) = g.userCodeIndex :=
    Table.retain_eq_self fun e he => Table.contains_iff.mpr (h.userCodes e he)
  have hcodes : g.codes.retain (fun c => decide (now < c.expiresAt)) = g.codes :=
    Table.retain_eq_self fun c hc => decide_eq_true (h.codes c hc)
  have hpushed : g.pushed.retain (fun p => decide (now < p.expiresAt)) = g.pushed :=
    Table.retain_eq_self fun p hp => decide_eq_true (h.pushed p hp)
  have htokens : g.tokens.retain (fun t => decide (now < t.expiresAt)) = g.tokens :=
    Table.retain_eq_self fun t ht => decide_eq_true (h.tokens t ht)
  have hrefresh : g.refresh.retain (fun r => r.expiresAt.all fun e => decide (now < e)) =
      g.refresh := by
    refine Table.retain_eq_self fun r hr => ?_
    rw [Option.all_eq_true]
    exact fun e he => decide_eq_true (h.refresh r hr e he)
  have hreplay : g.replayIds.retain (fun i => decide (now < i.2)) = g.replayIds :=
    Table.retain_eq_self fun i hi => decide_eq_true (h.replayIds i hi)
  have hreaped : g.barriers.modifyAll (fun b => (b.1, reapScopes now b.2)) (fun _ => rfl) =
      g.barriers := by
    refine Table.modifyAll_eq_self fun b hb => ?_
    rw [reapScopes_eq_self (h.barriers b hb).1]
  have hbarriers : g.barriers.retain (fun b => !b.2.isEmpty) = g.barriers :=
    Table.retain_eq_self fun b hb => by rw [(h.barriers b hb).2]; rfl
  simp only [MemoryInner.sweepRecords, dropStaleIndex, hdevice, hindex, hcodes, hpushed, htokens,
    hrefresh, hreplay, hreaped, hbarriers]

/-- A sweep removes exactly what is dead at its instant, answers how many that were, and leaves
nothing for a sweep at the same or an earlier instant. -/
theorem sweepExpired_removes_exactly_dead (g : MemoryInner) (now : SystemTime) :
    SweptAt now g (g.sweepExpired now).2 ∧
      (g.sweepExpired now).1 + (g.sweepExpired now).2.recordCount = g.recordCount ∧
      ∀ now', now' ≤ now →
        (g.sweepExpired now).2.sweepExpired now' = (0, (g.sweepExpired now).2) := by
  refine ⟨sweptAt_sweepRecords g now, recordCount_sweepExpired g now, ?_⟩
  intro now' hle
  have hsame : (g.sweepRecords now).sweepRecords now' = g.sweepRecords now :=
    ((ahead_sweepRecords g now).earlier hle).sweepRecords
  have hcount := recordCount_sweepExpired (g.sweepRecords now) now'
  have hstate : ((g.sweepRecords now).sweepExpired now').2 = g.sweepRecords now := hsame
  rw [hstate] at hcount
  have hzero : ((g.sweepRecords now).sweepExpired now').1 = 0 := by omega
  exact Prod.ext hzero hstate

/-- One identifier with a client barrier that ends at 5 and a family barrier that ends at 9. -/
def twoScopes : MemoryInner :=
  { empty with
    replayIds := Table.empty.insert ("proof", 5)
    barriers := Table.empty.insert ("id", ⟨some ⟨1, 5⟩, some ⟨1, 9⟩, .empty⟩) }

theorem sweepExpired_twoScopes :
    (twoScopes.sweepExpired 5).1 = 2 ∧
      (twoScopes.sweepExpired 5).2.barrierAt (.tokenFamily "id") = some ⟨1, 9⟩ ∧
      (twoScopes.sweepExpired 5).2.sweepExpired 4 = (0, (twoScopes.sweepExpired 5).2) := by
  obtain ⟨hswept, -, hagain⟩ := sweepExpired_removes_exactly_dead twoScopes 5
  exact ⟨by decide, (hswept.barriers _ _).mpr ⟨by decide, by decide⟩, hagain 4 (by decide)⟩

end MemoryInner

end OauthAs
