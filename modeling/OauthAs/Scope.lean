-- SUMMARY: Scope tokens and scope sets, kept sorted and free of duplicates.
import Mathlib.Data.String.Basic

/-!
# Scopes

A `ScopeSet` is the list of its tokens in strictly increasing order, so equal sets are equal
lists and inclusion is one pass over both.
-/

namespace OauthAs

/-- The characters RFC 6749 allows in a scope token. -/
def scopeCharOk (c : Char) : Bool :=
  c.toNat = 0x21 || (0x23 ≤ c.toNat && c.toNat ≤ 0x5B) || (0x5D ≤ c.toNat && c.toNat ≤ 0x7E)

def scopeTokenOk (token : String) : Bool :=
  !token.isEmpty && token.toList.all scopeCharOk

structure Scope where
  token : String
  valid : scopeTokenOk token = true
deriving DecidableEq

/-- Scope sets are compared by the order of their tokens. -/
def Scope.lt (a b : Scope) : Prop := a.token < b.token

instance (a b : Scope) : Decidable (a.lt b) := inferInstanceAs (Decidable (a.token < b.token))

def Scope.new (token : String) : Except String Scope :=
  if h : scopeTokenOk token = true then .ok ⟨token, h⟩ else .error token

structure ScopeSet where
  tokens : List Scope
  sorted : tokens.Pairwise Scope.lt
deriving DecidableEq

namespace ScopeSet

variable {ys : List Scope} {x : Scope}

def empty : ScopeSet := ⟨[], .nil⟩

instance : Inhabited ScopeSet := ⟨empty⟩

def isEmpty (s : ScopeSet) : Bool := s.tokens.isEmpty

/-- One pass over two increasing lists: every element of the first is met in the second. -/
def subsetPass : List Scope → List Scope → Bool
  | [], _ => true
  | _ :: _, [] => false
  | mine :: rest, other :: theirs =>
    if other.lt mine then subsetPass (mine :: rest) theirs
    else if other = mine then subsetPass rest theirs
    else false

def isSubset (s other : ScopeSet) : Bool := subsetPass s.tokens other.tokens

/-- Files a token into an increasing list, unless it is there already. -/
def file (x : Scope) : List Scope → List Scope
  | [] => [x]
  | y :: ys => if x.lt y then x :: y :: ys else if x = y then y :: ys else y :: file x ys

theorem mem_file {z : Scope} : z ∈ file x ys ↔ z = x ∨ z ∈ ys := by
  induction ys with
  | nil => simp [file]
  | cons y ys ih =>
    unfold file
    split
    · simp
    · split
      · rename_i heq
        simp [heq]
      · simp only [List.mem_cons, ih]
        tauto

theorem lt_of_not_lt_of_ne {y : Scope} (h : ¬ x.lt y) (hne : x ≠ y) : y.lt x := by
  have htoken : x.token ≠ y.token := by
    intro heq
    cases x
    cases y
    exact hne (by simpa using heq)
  exact lt_of_le_of_ne (not_lt.mp h) (Ne.symm htoken)

theorem sorted_file (h : ys.Pairwise Scope.lt) : (file x ys).Pairwise Scope.lt := by
  induction ys with
  | nil => simp [file]
  | cons y ys ih =>
    obtain ⟨hy, hys⟩ := List.pairwise_cons.mp h
    unfold file
    split
    · rename_i hlt
      refine List.pairwise_cons.mpr ⟨?_, h⟩
      intro z hz
      rcases List.mem_cons.mp hz with rfl | hz
      · exact hlt
      · exact lt_trans hlt (hy z hz)
    · split
      · exact h
      · rename_i hlt hne
        refine List.pairwise_cons.mpr ⟨?_, ih hys⟩
        intro z hz
        rcases mem_file.mp hz with rfl | hz
        · exact lt_of_not_lt_of_ne hlt hne
        · exact hy z hz

/-- The set of the given tokens, sorted and without duplicates. -/
def ofTokens (tokens : List Scope) : ScopeSet :=
  ⟨tokens.foldr file [], by
    induction tokens with
    | nil => exact .nil
    | cons x xs ih => exact sorted_file ih⟩

theorem mem_ofTokens {tokens : List Scope} : x ∈ (ofTokens tokens).tokens ↔ x ∈ tokens := by
  induction tokens with
  | nil => simp [ofTokens]
  | cons y ys ih => exact mem_file.trans ((or_congr_right ih).trans List.mem_cons.symm)

/-! ## Inclusion -/

theorem subset_of_subsetPass {xs : List Scope} (h : subsetPass xs ys = true) : xs ⊆ ys := by
  fun_induction subsetPass xs ys with
  | case1 => exact List.nil_subset _
  | case2 => cases h
  | case3 x xs y ys hlt ih => exact List.subset_cons_of_subset y (ih h)
  | case4 xs y ys hnlt ih =>
    exact List.cons_subset.mpr ⟨List.mem_cons_self, List.subset_cons_of_subset _ (ih h)⟩
  | case5 => cases h

/-- The pass over two increasing lists decides inclusion. -/
theorem subsetPass_of_subset {xs : List Scope} (hxs : xs.Pairwise Scope.lt)
    (hys : ys.Pairwise Scope.lt) (h : xs ⊆ ys) : subsetPass xs ys = true := by
  fun_induction subsetPass xs ys with
  | case1 => rfl
  | case2 x xs => exact absurd (h List.mem_cons_self) List.not_mem_nil
  | case3 x xs y ys hlt ih =>
    refine ih hxs hys.tail fun z hz => ?_
    -- The head of the second list is below everything that is left of the first.
    have hne : z ≠ y := by
      rintro rfl
      rcases List.mem_cons.mp hz with rfl | hz
      · exact lt_irrefl _ hlt
      · exact lt_irrefl _ (lt_trans hlt (List.rel_of_pairwise_cons hxs hz))
    exact (List.mem_cons.mp (h hz)).resolve_left hne
  | case4 xs x ys hnlt ih =>
    refine ih hxs.tail hys.tail fun z hz => ?_
    have hne : z ≠ x := by
      rintro rfl
      exact lt_irrefl _ (List.rel_of_pairwise_cons hxs hz)
    exact (List.mem_cons.mp (h (List.mem_cons_of_mem _ hz))).resolve_left hne
  | case5 x xs y ys hnlt hne =>
    rcases List.mem_cons.mp (h List.mem_cons_self) with rfl | hx
    · exact absurd rfl hne
    · exact absurd (List.rel_of_pairwise_cons hys hx) hnlt

theorem isSubset_iff {s t : ScopeSet} : s.isSubset t = true ↔ s.tokens ⊆ t.tokens :=
  ⟨subset_of_subsetPass, subsetPass_of_subset s.sorted t.sorted⟩

/-- The wire form: the tokens separated by single spaces. -/
def display (s : ScopeSet) : String := " ".intercalate (s.tokens.map Scope.token)

end ScopeSet

end OauthAs
