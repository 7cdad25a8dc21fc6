-- SUMMARY: Finite keyed tables whose rows carry their own key, with membership, lookup and counting laws.
import Mathlib.Algebra.GroupWithZero.Nat
import Mathlib.Data.List.Nodup
import Mathlib.Data.List.Count

/-!
# Tables

A `Table key` is a finite collection of rows in which no two rows have the same `key`. A row is
filed under its own key and under no other, so "the row stored at `k` names `k`" is not an
invariant to maintain but a property of the type.

Every operation has one membership law (`mem_insert`, `mem_erase`, `mem_retain`); the lookup and
counting laws are consequences that the proofs above this layer use by name.
-/

namespace OauthAs

structure Table {K V : Type} (key : V → K) where
  rows : List V
  nodup : (rows.map key).Nodup

namespace Table

variable {K V : Type} {key : V → K} {t : Table key} {v w : V} {p : V → Bool} {f : V → V}

instance : Membership V (Table key) where
  mem t v := v ∈ t.rows

theorem mem_def : v ∈ t ↔ v ∈ t.rows := Iff.rfl

/-- Two rows of one table with the same key are the same row. -/
theorem eq_of_key_eq (hv : v ∈ t) (hw : w ∈ t) (h : key v = key w) : v = w :=
  List.inj_on_of_nodup_map t.nodup hv hw h

def empty : Table key := ⟨[], by simp⟩

instance : Inhabited (Table key) := ⟨empty⟩

@[simp] theorem mem_empty : ¬ v ∈ (empty : Table key) := by
  simp [mem_def, empty]

def size (t : Table key) : Nat := t.rows.length

/-- The rows that satisfy `p`, all others dropped. -/
def retain (t : Table key) (p : V → Bool) : Table key :=
  ⟨t.rows.filter p, t.nodup.sublist (List.filter_sublist.map key)⟩

@[simp] theorem mem_retain : v ∈ t.retain p ↔ v ∈ t ∧ p v = true := by
  simp [mem_def, retain]

/-- A filter that every row passes changes nothing. -/
theorem retain_eq_self (h : ∀ v ∈ t, p v = true) : t.retain p = t := by
  obtain ⟨rows, hnodup⟩ := t
  simp only [retain, mk.injEq]
  exact List.filter_eq_self.mpr h

theorem size_retain_le (t : Table key) (p : V → Bool) : (t.retain p).size ≤ t.size :=
  List.length_filter_le p t.rows

/-- The second table is what some filter leaves of the first. -/
def Shrinks (t u : Table key) : Prop := ∃ p : V → Bool, u = t.retain p

theorem Shrinks.refl (t : Table key) : t.Shrinks t := by
  refine ⟨fun _ => true, ?_⟩
  simp only [retain, List.filter_true]

theorem Shrinks.mem {u : Table key} (h : t.Shrinks u) (hv : v ∈ u) : v ∈ t := by
  obtain ⟨p, rfl⟩ := h
  exact (mem_retain.mp hv).1

/-- Rewrites every row in place; no row changes its key. -/
def modifyAll (t : Table key) (f : V → V) (hkey : ∀ v, key (f v) = key v) : Table key :=
  ⟨t.rows.map f, by
    have hcomp : key ∘ f = key := funext hkey
    rw [List.map_map, hcomp]
    exact t.nodup⟩

@[simp] theorem mem_modifyAll {hkey : ∀ v, key (f v) = key v} :
    w ∈ t.modifyAll f hkey ↔ ∃ v ∈ t, f v = w := by
  simp [mem_def, modifyAll]

theorem modifyAll_eq_self {hkey : ∀ v, key (f v) = key v} (h : ∀ v ∈ t, f v = v) :
    t.modifyAll f hkey = t := by
  obtain ⟨rows, hnodup⟩ := t
  simp only [modifyAll, mk.injEq]
  exact (List.map_congr_left h).trans (List.map_id rows)

/-- The number of rows that satisfy `p`. -/
def count (t : Table key) (p : V → Bool) : Nat := t.rows.countP p

theorem count_eq_zero : t.count p = 0 ↔ ∀ v ∈ t, p v = false := by
  simp [count, List.countP_eq_zero, mem_def]

theorem one_le_count (hv : v ∈ t) (hp : p v = true) : 1 ≤ t.count p :=
  List.countP_pos_iff.mpr ⟨v, hv, hp⟩

theorem count_mono {q : V → Bool} (h : ∀ v, p v = true → q v = true) : t.count p ≤ t.count q :=
  List.countP_mono_left fun v _ => h v

theorem count_retain_le {q : V → Bool} : (t.retain q).count p ≤ t.count p :=
  List.filter_sublist.countP_le

theorem Shrinks.count_le {u : Table key} (h : t.Shrinks u) (p : V → Bool) :
    u.count p ≤ t.count p := by
  obtain ⟨q, rfl⟩ := h
  exact count_retain_le

/-- The first row satisfying `p`, in row order. -/
def find? (t : Table key) (p : V → Bool) : Option V := t.rows.find? p

theorem mem_of_find? (h : t.find? p = some v) : v ∈ t ∧ p v = true :=
  ⟨List.mem_of_find?_eq_some h, List.find?_some h⟩

theorem find?_eq_none : t.find? p = none ↔ ∀ v ∈ t, p v = false := by
  simp [find?, mem_def]

section Keyed
variable [DecidableEq K] {t : Table key} {k : K} {v : V}

def lookup (t : Table key) (k : K) : Option V := t.rows.find? (fun v => key v = k)

theorem lookup_eq_some : t.lookup k = some v ↔ v ∈ t ∧ key v = k := by
  constructor
  · intro h
    exact ⟨List.mem_of_find?_eq_some h, by simpa using List.find?_some h⟩
  · rintro ⟨hv, rfl⟩
    cases hw : t.lookup (key v) with
    | none =>
      have := List.find?_eq_none.mp hw v hv
      simp at this
    | some w =>
      have hkey : key w = key v := by simpa using List.find?_some hw
      rw [eq_of_key_eq (List.mem_of_find?_eq_some hw) hv hkey]

theorem lookup_eq_none : t.lookup k = none ↔ ∀ v ∈ t, key v ≠ k := by
  simp [lookup, List.find?_eq_none, mem_def]

def contains (t : Table key) (k : K) : Bool := (t.lookup k).isSome

theorem contains_iff : t.contains k = true ↔ ∃ v ∈ t, key v = k := by
  simp [contains, Option.isSome_iff_exists, lookup_eq_some]

theorem mem_of_lookup (h : t.lookup k = some v) : v ∈ t :=
  (lookup_eq_some.mp h).1

theorem key_of_lookup (h : t.lookup k = some v) : key v = k :=
  (lookup_eq_some.mp h).2

theorem lookup_key (h : v ∈ t) : t.lookup (key v) = some v :=
  lookup_eq_some.mpr ⟨h, rfl⟩

/-- Drops the row filed under `k`, if there is one. -/
def erase (t : Table key) (k : K) : Table key := t.retain (fun v => key v ≠ k)

@[simp] theorem mem_erase : v ∈ t.erase k ↔ v ∈ t ∧ key v ≠ k := by
  simp [erase]

/-- Files `v` under its own key, replacing the row that was there. -/
def insert (t : Table key) (v : V) : Table key :=
  ⟨v :: (t.erase (key v)).rows, by
    rw [List.map_cons, List.nodup_cons]
    refine ⟨?_, (t.erase (key v)).nodup⟩
    intro h
    obtain ⟨w, hw, hk⟩ := List.mem_map.mp h
    exact (mem_erase.mp hw).2 hk⟩

@[simp] theorem mem_insert : w ∈ t.insert v ↔ w = v ∨ (w ∈ t ∧ key w ≠ key v) := by
  rw [← mem_erase]
  exact List.mem_cons

theorem mem_insert_self : v ∈ t.insert v := by simp

theorem forall_insert {P : V → Prop} (hv : P v) (ht : ∀ w ∈ t, P w) : ∀ w ∈ t.insert v, P w := by
  intro w hw
  rcases mem_insert.mp hw with rfl | ⟨hw, -⟩
  · exact hv
  · exact ht w hw

/-! ## Lookup laws -/

@[simp] theorem lookup_empty (k : K) : (empty : Table key).lookup k = none := rfl

theorem lookup_insert (t : Table key) (v : V) (k : K) :
    (t.insert v).lookup k = if key v = k then some v else t.lookup k := by
  split
  · rename_i h
    subst h
    exact lookup_key mem_insert_self
  · rename_i h
    cases hk : t.lookup k with
    | none =>
      refine lookup_eq_none.mpr fun w hw => ?_
      rcases mem_insert.mp hw with rfl | ⟨hw, -⟩
      · exact h
      · exact lookup_eq_none.mp hk w hw
    | some w =>
      obtain ⟨hw, rfl⟩ := lookup_eq_some.mp hk
      exact lookup_key (mem_insert.mpr (Or.inr ⟨hw, fun e => h e.symm⟩))

@[simp] theorem lookup_insert_self (t : Table key) (v : V) :
    (t.insert v).lookup (key v) = some v := by
  simp [lookup_insert]

theorem lookup_retain (t : Table key) (p : V → Bool) (k : K) :
    (t.retain p).lookup k = (t.lookup k).filter p := by
  cases hk : t.lookup k with
  | none =>
    refine lookup_eq_none.mpr fun v hv => ?_
    exact lookup_eq_none.mp hk v (mem_retain.mp hv).1
  | some w =>
    obtain ⟨hw, rfl⟩ := lookup_eq_some.mp hk
    cases hp : p w with
    | true =>
      simp only [Option.filter_some, hp, if_true]
      exact lookup_key (mem_retain.mpr ⟨hw, hp⟩)
    | false =>
      simp only [Option.filter_some, hp, Bool.false_eq_true, if_false]
      refine lookup_eq_none.mpr fun v hv hkey => ?_
      obtain ⟨hv, hpv⟩ := mem_retain.mp hv
      rw [eq_of_key_eq hv hw hkey, hp] at hpv
      exact Bool.false_ne_true hpv

theorem lookup_erase (t : Table key) (j k : K) :
    (t.erase j).lookup k = if k = j then none else t.lookup k := by
  rw [erase, lookup_retain]
  cases hk : t.lookup k with
  | none => simp
  | some w =>
    have := key_of_lookup hk
    subst this
    by_cases h : key w = j <;> simp [Option.filter_some, h]

theorem lookup_modifyAll (t : Table key) (hkey : ∀ v, key (f v) = key v) (k : K) :
    (t.modifyAll f hkey).lookup k = (t.lookup k).map f := by
  cases hk : t.lookup k with
  | none =>
    refine lookup_eq_none.mpr fun w hw => ?_
    obtain ⟨v, hv, rfl⟩ := mem_modifyAll.mp hw
    rw [hkey]
    exact lookup_eq_none.mp hk v hv
  | some v =>
    obtain ⟨hv, rfl⟩ := lookup_eq_some.mp hk
    exact lookup_eq_some.mpr ⟨mem_modifyAll.mpr ⟨v, hv, rfl⟩, hkey v⟩

@[simp] theorem lookup_erase_self (t : Table key) (k : K) : (t.erase k).lookup k = none := by
  simp [lookup_erase]

/-! ## Counting laws -/

/-- How much the row filed under `k` contributes to a count. -/
def tally (t : Table key) (p : V → Bool) (k : K) : Nat :=
  match t.lookup k with
  | some v => (p v).toNat
  | none => 0

theorem countP_cons_toNat (p : V → Bool) (v : V) (rows : List V) :
    (v :: rows).countP p = rows.countP p + (p v).toNat := by
  rw [List.countP_cons]
  cases p v <;> rfl

theorem count_erase_of_forall_ne (h : ∀ v ∈ t, key v ≠ k) : (t.erase k).count p = t.count p := by
  have hrows : t.rows.filter (fun v => key v ≠ k) = t.rows := by
    refine List.filter_eq_self.mpr fun v hv => ?_
    simpa using h v hv
  simp only [count, erase, retain, hrows]

/-- Erasing a row lowers a count by exactly what the row contributed. -/
theorem count_erase (t : Table key) (p : V → Bool) (k : K) :
    (t.erase k).count p + t.tally p k = t.count p := by
  obtain ⟨rows, hnodup⟩ := t
  induction rows with
  | nil => rfl
  | cons v rows ih =>
    have htail : (rows.map key).Nodup := (List.nodup_cons.mp hnodup).2
    have hhead : key v ∉ rows.map key := (List.nodup_cons.mp hnodup).1
    have ih := ih htail
    by_cases hk : key v = k
    · have hne : ∀ w ∈ (⟨rows, htail⟩ : Table key), key w ≠ k := by
        intro w hw he
        exact hhead (List.mem_map.mpr ⟨w, hw, he.trans hk.symm⟩)
      have hcount := count_erase_of_forall_ne (p := p) hne
      simp only [count, erase, retain, tally, lookup] at hcount ⊢
      simp only [List.filter_cons, List.find?_cons, countP_cons_toNat, hk, ne_eq, not_true_eq_false,
        decide_false, decide_true, Bool.false_eq_true, if_false]
      rw [hcount]
    · simp only [count, erase, retain, tally, lookup, ne_eq] at ih ⊢
      simp only [List.filter_cons, List.find?_cons, countP_cons_toNat, hk, not_false_eq_true,
        decide_true, decide_false, if_true]
      omega

theorem count_insert (t : Table key) (p : V → Bool) (v : V) :
    (t.insert v).count p = (t.erase (key v)).count p + (p v).toNat :=
  countP_cons_toNat p v _

omit [DecidableEq K] in
theorem size_eq_count (t : Table key) : t.size = t.count fun _ => true := by
  simp [size, count]

/-- Replacing a row adds none. -/
theorem size_insert_of_contains (h : t.contains (key v) = true) : (t.insert v).size = t.size := by
  obtain ⟨w, hw⟩ := Option.isSome_iff_exists.mp h
  have herase := t.count_erase (fun _ => true) (key v)
  simp only [tally, hw, Bool.toNat_true] at herase
  rw [size_eq_count, size_eq_count, count_insert, Bool.toNat_true, herase]

theorem size_insert_le (t : Table key) (v : V) : (t.insert v).size ≤ t.size + 1 := by
  have herase := t.count_erase (fun _ => true) (key v)
  rw [size_eq_count, size_eq_count, count_insert, Bool.toNat_true]
  omega

end Keyed

end Table

end OauthAs
