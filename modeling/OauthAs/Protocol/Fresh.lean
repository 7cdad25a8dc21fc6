-- SUMMARY: Random strings: each is handed out once, and every ledger accounts for the ones it was handed.
import OauthAs.Protocol.Moves

/-!
# Fresh strings

Tokens, families, codes and signed tokens are named by strings the world hands out, each at most
once in a run. A ledger that knows such a string by having drawn it is therefore the only one,
which is how the results above this layer tell whose token or code a record is.
-/

namespace OauthAs

variable {x : String}

/-- What a ledger drew was handed out, what it names itself by it drew, and it read no clock that
is ahead. -/
structure Ledger.Accounted (w : World) (l : Ledger) : Prop where
  used : ∀ x ∈ l.drawn, x ∈ w.used
  nodup : ∀ e, l.issue.entropy = some e → (World.drawnStrings e).Nodup
  entropy : ∀ e, l.issue.entropy = some e → ∀ x ∈ World.drawnStrings e, x ∈ l.drawn
  wire : ∀ x, l.issue.wire = some x → x ∈ l.drawn
  apart : ∀ x e, l.issue.wire = some x → l.issue.entropy = some e → x ∉ World.drawnStrings e
  identifier : ∀ x, l.identifier = some x → x ∈ l.drawn
  clocks : ∀ t ∈ l.clocks, t ≤ w.clock

/-- A string handed to one request is handed to no other. -/
def Apart (ls : List Ledger) : Prop :=
  ∀ ⦃i j : Nat⦄ ⦃l m : Ledger⦄ ⦃x : String⦄, ls[i]? = some l → ls[j]? = some m →
    x ∈ l.drawn → x ∈ m.drawn → i = j

structure FreshStrings (w : World) (ls : List Ledger) : Prop where
  accounted : ∀ l ∈ ls, l.Accounted w
  apart : Apart ls

namespace Ledger

variable {l : Ledger} {w w' : World}

theorem accounted_start (q : Request) : (start q).Accounted w := by
  constructor <;> simp [start]

theorem Accounted.mono (h : l.Accounted w) (hused : w.used ⊆ w'.used) (hclock : w.clock ≤ w'.clock) :
    l.Accounted w' :=
  { h with
    used := fun x hx => hused (h.used x hx)
    clocks := fun t ht => Int.le_trans (h.clocks t ht) hclock }

/-- A storage call hands out nothing; at most it files the identifier. -/
theorem stored_keeps (l : Ledger) (op : StorageOp) (a : op.Result) :
    (l.stored op a).drawn = l.drawn ∧ (l.stored op a).clocks = l.clocks ∧
      (l.stored op a).issue.entropy = l.issue.entropy ∧
      (l.stored op a).issue.wire = l.issue.wire ∧
      ∀ x, (l.stored op a).identifier = some x → l.identifier = some x := by
  unfold stored
  split <;> exact ⟨rfl, rfl, rfl, rfl, by simp⟩

theorem Accounted.stored (h : l.Accounted w) (op : StorageOp) (a : op.Result) (g : MemoryInner) :
    (l.stored op a).Accounted { w with store := g } := by
  obtain ⟨hdrawn, hclocks, hentropy, hwire, hidentifier⟩ := stored_keeps l op a
  constructor <;> simp only [hdrawn, hclocks, hentropy, hwire]
  · exact h.used
  · exact h.nodup
  · exact h.entropy
  · exact h.wire
  · exact h.apart
  · exact fun x hx => h.identifier x (hidentifier x hx)
  · exact h.clocks

theorem Accounted.draws (h : l.Accounted w) {e : TokenEntropy}
    (hfresh : w.Fresh (World.drawnStrings e)) :
    (l.next .tokenEntropy (some e)).Accounted
      { w with used := World.drawnStrings e ++ w.used } := by
  have hmem : ∀ x, x ∈ l.drawn → x ∈ World.drawnStrings e ++ l.drawn :=
    fun x hx => List.mem_append_right _ hx
  constructor
  · intro x hx
    rcases List.mem_append.mp hx with hx | hx
    · exact List.mem_append_left _ hx
    · exact List.mem_append_right _ (h.used x hx)
  · rintro e' ⟨⟩
    exact hfresh.1
  · rintro e' ⟨⟩ x hx
    exact List.mem_append_left _ hx
  · exact fun x hx => hmem x (h.wire x hx)
  · rintro x e' hx ⟨⟩ hmine
    exact hfresh.2 x hmine (h.used x (h.wire x hx))
  · exact fun x hx => hmem x (h.identifier x hx)
  · exact h.clocks

theorem Accounted.names (h : l.Accounted w) :
    Accounted { w with used := x :: w.used } { l with drawn := x :: l.drawn, identifier := some x } := by
  constructor
  · exact fun y hy => List.mem_cons.mpr ((List.mem_cons.mp hy).imp_right (h.used y))
  · exact h.nodup
  · exact fun e he y hy => List.mem_cons_of_mem _ (h.entropy e he y hy)
  · exact fun y hy => List.mem_cons_of_mem _ (h.wire y hy)
  · exact h.apart
  · rintro y ⟨⟩
    exact List.mem_cons_self
  · exact h.clocks

theorem Accounted.signs (h : l.Accounted w) (hfresh : w.Fresh [x]) :
    Accounted { w with used := x :: w.used }
      { l with drawn := x :: l.drawn, issue := { l.issue with wire := some x } } := by
  constructor
  · exact fun y hy => List.mem_cons.mpr ((List.mem_cons.mp hy).imp_right (h.used y))
  · exact h.nodup
  · exact fun e he y hy => List.mem_cons_of_mem _ (h.entropy e he y hy)
  · rintro y ⟨⟩
    exact List.mem_cons_self
  · intro y e hy he hmine
    cases hy
    exact hfresh.2 x List.mem_cons_self (h.used x (h.entropy e he x hmine))
  · exact fun y hy => List.mem_cons_of_mem _ (h.identifier y hy)
  · exact h.clocks

end Ledger

section Lists
variable {ls : List Ledger} {i : Nat} {l l' : Ledger}

theorem Apart.onlyOne (h : Apart ls) (x : String) : OnlyOne (fun l => x ∈ l.drawn) ls :=
  fun _ _ _ _ hi hj hx hx' => h hi hj hx hx'

/-- A ledger that draws only what nobody has keeps the ledgers apart. -/
theorem Apart.set (h : Apart ls) (hi : ls[i]? = some l)
    (hdrawn : ∀ x ∈ l'.drawn, x ∈ l.drawn ∨ ∀ m ∈ ls, x ∉ m.drawn) : Apart (ls.set i l') := by
  intro a b n m x ha hb
  exact (h.onlyOne x).set hi (hdrawn x) ha hb

theorem Apart.append_one (h : Apart ls) (hl : l.drawn = []) : Apart (ls ++ [l]) := by
  intro a b n m x ha hb
  exact (h.onlyOne x).append (by simp [hl]) ha hb

end Lists

namespace FreshStrings

variable {srv : Server} {w w' : World} {ls ls' : List Ledger}

theorem step (h : FreshStrings w ls) (hm : srv.Moves w ls w' ls') : FreshStrings w' ls' := by
  obtain ⟨hacc, hapart⟩ := h
  have hnew : ∀ {xs : List String} {x : String}, w.Fresh xs → x ∈ xs → ∀ m ∈ ls, x ∉ m.drawn :=
    fun hfresh hx m hm hmx => hfresh.2 _ hx ((hacc m hm).used _ hmx)
  cases hm with
  | spawn q =>
    exact ⟨forall_mem_append_one hacc (Ledger.accounted_start q), hapart.append_one rfl⟩
  | stored i l op a g hi may exec =>
    have hl := hacc l (List.mem_of_getElem? hi)
    refine ⟨forall_mem_set (fun m hm => (hacc m hm).mono (fun _ h => h) (Int.le_refl _))
      (hl.stored op a g), hapart.set hi fun x hx => .inl ?_⟩
    rwa [(Ledger.stored_keeps l op a).1] at hx
  | reads i l hi =>
    have hl := hacc l (List.mem_of_getElem? hi)
    refine ⟨forall_mem_set hacc { hl with clocks := ?_ }, hapart.set hi fun x hx => .inl hx⟩
    intro t ht
    rcases List.mem_cons.mp ht with rfl | ht
    · exact Int.le_refl _
    · exact hl.clocks t ht
  | draws i l e hi first fresh =>
    have hl := hacc l (List.mem_of_getElem? hi)
    refine ⟨forall_mem_set (fun m hm => (hacc m hm).mono (List.subset_append_right _ _)
      (Int.le_refl _)) (hl.draws fresh), hapart.set hi fun x hx => ?_⟩
    rcases List.mem_append.mp hx with hx | hx
    · exact .inr (hnew fresh hx)
    · exact .inl hx
  | names i l x hi fresh =>
    have hl := hacc l (List.mem_of_getElem? hi)
    refine ⟨forall_mem_set (fun m hm => (hacc m hm).mono (List.subset_cons_self _ _)
      (Int.le_refl _)) hl.names, hapart.set hi fun y hy => ?_⟩
    rcases List.mem_cons.mp hy with rfl | hy
    · exact .inr (hnew fresh List.mem_cons_self)
    · exact .inl hy
  | signs i l x hi first fresh =>
    have hl := hacc l (List.mem_of_getElem? hi)
    refine ⟨forall_mem_set (fun m hm => (hacc m hm).mono (List.subset_cons_self _ _)
      (Int.le_refl _)) (hl.signs fresh), hapart.set hi fun y hy => ?_⟩
    rcases List.mem_cons.mp hy with rfl | hy
    · exact .inr (hnew fresh List.mem_cons_self)
    · exact .inl hy
  | setback i l hi =>
    have hl := hacc l (List.mem_of_getElem? hi)
    exact ⟨forall_mem_set hacc { hl with }, hapart.set hi fun x hx => .inl hx⟩
  | idle => exact ⟨hacc, hapart⟩
  | tick elapsed =>
    refine ⟨fun m hm => (hacc m hm).mono (fun _ h => h) ?_, hapart⟩
    exact Int.le_add_of_nonneg_right (Int.natCast_nonneg elapsed)
  | sweep now => exact ⟨fun m hm => (hacc m hm).mono (fun _ h => h) (Int.le_refl _), hapart⟩

/-- Two ledgers that drew one string are one ledger. -/
theorem eq_of_drawn (h : FreshStrings w ls) {l m : Ledger} (hl : l ∈ ls) (hm : m ∈ ls)
    (hx : x ∈ l.drawn) (hx' : x ∈ m.drawn) : l = m := by
  obtain ⟨i, hi⟩ := List.mem_iff_getElem?.mp hl
  obtain ⟨j, hj⟩ := List.mem_iff_getElem?.mp hm
  cases h.apart hi hj hx hx'
  exact Option.some.inj (hi.symm.trans hj)

end FreshStrings

end OauthAs
