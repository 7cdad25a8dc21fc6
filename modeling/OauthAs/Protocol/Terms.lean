-- SUMMARY: The terms of a grant, what it is to narrow them, and that the checks of the token endpoint only narrow.
import Mathlib.Data.Fin.Tuple.Basic
import OauthAs.Server.Issue

/-!
# Terms

What a grant allows is its scope, its resources, its authorization details and the authentication
it reports. Issuing tokens for a grant may narrow each of these and never widens any: that is the
order `Terms.Narrows`, and the rest of this module says that the server's own checks (one pass
over sorted scopes, a filter for resources, a greedy matching for details) establish it.
-/

namespace OauthAs

/-! ## Details -/

theorem isSubsetList_iff {xs ys : List String} : isSubsetList xs ys = true ↔ xs ⊆ ys := by
  simp [isSubsetList, List.subset_def]

namespace AuthorizationDetail

/-- Everything narrowing compares but the locations. -/
def NarrowsRest (d granted : AuthorizationDetail) : Prop :=
  d.detailType = granted.detailType ∧ d.identifier = granted.identifier ∧
    d.actions ⊆ granted.actions ∧ d.datatypes ⊆ granted.datatypes ∧
    d.privileges ⊆ granted.privileges ∧ d.other = granted.other

theorem isNarrowingOf_iff {d granted : AuthorizationDetail} :
    d.isNarrowingOf granted = true ↔ d.locations ⊆ granted.locations ∧ d.NarrowsRest granted := by
  simp only [isNarrowingOf, NarrowsRest, Bool.and_eq_true, beq_iff_eq, isSubsetList_iff,
    decide_eq_true_eq]
  tauto

theorem isNarrowingOf_self (d : AuthorizationDetail) : d.isNarrowingOf d = true :=
  isNarrowingOf_iff.mpr ⟨List.Subset.refl _, rfl, rfl, List.Subset.refl _, List.Subset.refl _,
    List.Subset.refl _, rfl⟩

theorem isNarrowingOf_trans {d e f : AuthorizationDetail} (h : d.isNarrowingOf e = true)
    (h' : e.isNarrowingOf f = true) : d.isNarrowingOf f = true := by
  obtain ⟨hloc, htype, hident, hact, hdata, hpriv, hother⟩ := isNarrowingOf_iff.mp h
  obtain ⟨hloc', htype', hident', hact', hdata', hpriv', hother'⟩ := isNarrowingOf_iff.mp h'
  exact isNarrowingOf_iff.mpr ⟨List.Subset.trans hloc hloc', htype.trans htype',
    hident.trans hident', List.Subset.trans hact hact', List.Subset.trans hdata hdata',
    List.Subset.trans hpriv hpriv', hother.trans hother'⟩

end AuthorizationDetail

namespace AuthorizationDetails

variable {want : AuthorizationDetail} {granted rest : List (Bool × AuthorizationDetail)}
  {wanted : List AuthorizationDetail}

/-- Each detail narrows a granted detail of its own. -/
def Within (details granted : AuthorizationDetails) : Prop :=
  ∃ f : Fin details.length → Fin granted.length, f.Injective ∧
    ∀ i, (details.get i).isNarrowingOf (granted.get (f i)) = true

theorem Within.refl (details : AuthorizationDetails) : Within details details :=
  ⟨id, Function.injective_id, fun i => (details.get i).isNarrowingOf_self⟩

theorem Within.trans {a b c : AuthorizationDetails} (h : Within a b) (h' : Within b c) :
    Within a c := by
  obtain ⟨f, hf, hnarrows⟩ := h
  obtain ⟨g, hg, hnarrows'⟩ := h'
  refine ⟨g ∘ f, hg.comp hf, fun i => ?_⟩
  exact AuthorizationDetail.isNarrowingOf_trans (hnarrows i) (hnarrows' (f i))

theorem Within.exists_of_mem {a b : AuthorizationDetails} (h : Within a b)
    {d : AuthorizationDetail} (hd : d ∈ a) : ∃ g ∈ b, d.isNarrowingOf g = true := by
  obtain ⟨f, -, hnarrows⟩ := h
  obtain ⟨i, rfl⟩ := List.get_of_mem hd
  exact ⟨b.get (f i), List.get_mem b (f i), hnarrows i⟩

/-- The granted detail at `k` is still free and `want` narrows it. -/
def Free (want : AuthorizationDetail) (granted : List (Bool × AuthorizationDetail)) (k : Nat) :
    Prop :=
  ∃ g, granted[k]? = some (false, g) ∧ want.isNarrowingOf g = true

theorem free_cons_succ {head : Bool × AuthorizationDetail} {k : Nat} :
    Free want (head :: granted) (k + 1) ↔ Free want granted k := Iff.rfl

/-- A match takes the first granted detail that is free, and nothing else. -/
theorem consume_eq_some (h : consume want granted = some rest) :
    ∃ k, Free want granted k ∧ (∀ j < k, ¬ Free want granted j) ∧
      ∀ other j, Free other rest j ↔ j ≠ k ∧ Free other granted j := by
  induction granted generalizing rest with
  | nil => cases h
  | cons head tail ih =>
    obtain ⟨consumed, g⟩ := head
    simp only [consume] at h
    split at h
    · rename_i hfree
      cases h
      simp only [Bool.and_eq_true, Bool.not_eq_true'] at hfree
      refine ⟨0, ⟨g, by simp [hfree.1], hfree.2⟩, by simp, fun other j => ?_⟩
      cases j with
      | zero => simp [Free]
      | succ j => simp [free_cons_succ]
    · rename_i hbusy
      obtain ⟨rest, hrest, rfl⟩ := Option.map_eq_some_iff.mp h
      obtain ⟨k, hfree, hbefore, hothers⟩ := ih hrest
      refine ⟨k + 1, hfree, fun j hj => ?_, fun other j => ?_⟩
      · cases j with
        | zero =>
          rintro ⟨g', hg', hnarrows⟩
          cases hg'
          exact hbusy (by simp [hnarrows])
        | succ j => exact hbefore j (by omega)
      · cases j with
        | zero => simp [Free]
        | succ j => simpa [free_cons_succ] using hothers other j

theorem consume_eq_none (h : consume want granted = none) (k : Nat) : ¬ Free want granted k := by
  induction granted generalizing k with
  | nil => rintro ⟨g, hg, -⟩; cases hg
  | cons head tail ih =>
    obtain ⟨consumed, g⟩ := head
    simp only [consume] at h
    split at h
    · cases h
    · rename_i hbusy
      rintro ⟨g', hg', hnarrows⟩
      cases k with
      | zero =>
        cases hg'
        exact hbusy (by simp [hnarrows])
      | succ k => exact ih (Option.map_eq_none_iff.mp h) k ⟨g', hg', hnarrows⟩

/-- An assignment of free details of their own to the wanted ones. -/
structure Matches (wanted : List AuthorizationDetail) (granted : List (Bool × AuthorizationDetail))
    (f : Fin wanted.length → Nat) : Prop where
  injective : f.Injective
  free : ∀ i, Free (wanted.get i) granted (f i)

theorem exists_matches (h : consumeAll wanted granted = true) : ∃ f, Matches wanted granted f := by
  induction wanted generalizing granted with
  | nil => exact ⟨Fin.elim0, fun i => i.elim0, fun i => i.elim0⟩
  | cons want wanted ih =>
    cases hconsume : consume want granted with
    | none => simp [consumeAll, hconsume] at h
    | some rest =>
      simp only [consumeAll, hconsume] at h
      obtain ⟨k, hfree, -, hothers⟩ := consume_eq_some hconsume
      obtain ⟨f, hf⟩ := ih h
      have hrest := fun i => (hothers _ _).mp (hf.free i)
      refine ⟨Fin.cons k f, Fin.cons_injective_iff.mpr ⟨?_, hf.injective⟩, ?_⟩
      · rintro ⟨i, hi⟩
        exact (hrest i).1 hi
      · exact Fin.cases hfree fun i => (hrest i).2

/-- Where two wanted details fit, the later one also fits wherever the earlier one does further
on. -/
def Unobstructed (wanted : List AuthorizationDetail) (granted : List (Bool × AuthorizationDetail)) :
    Prop :=
  ∀ i j k k', i < j → k < k' → Free (wanted.get i) granted k → Free (wanted.get i) granted k' →
    Free (wanted.get j) granted k → Free (wanted.get j) granted k'

/-- The first fit finds an assignment if there is one. -/
theorem Matches.consumeAll {f : Fin wanted.length → Nat} (hf : Matches wanted granted f)
    (hun : Unobstructed wanted granted) : consumeAll wanted granted = true := by
  induction wanted generalizing granted with
  | nil => rfl
  | cons want wanted ih =>
    cases hconsume : consume want granted with
    | none => exact absurd (hf.free 0) (consume_eq_none hconsume _)
    | some rest =>
      simp only [AuthorizationDetails.consumeAll, hconsume]
      obtain ⟨k, hfree, hbefore, hothers⟩ := consume_eq_some hconsume
      -- Whoever has the detail at `k` gives it away for the one at `f 0`.
      refine ih (f := fun i => Equiv.swap (f 0) k (f i.succ)) ⟨?_, fun i => ?_⟩ ?_
      · exact fun i j hij => Fin.succ_injective _ (hf.injective ((Equiv.swap _ _).injective hij))
      · have hne : f i.succ ≠ f 0 := fun heq => Fin.succ_ne_zero i (hf.injective heq)
        by_cases hi : f i.succ = k
        · have hk : f 0 ≠ k := fun heq => hne (hi.trans heq.symm)
          have hlt : k < f 0 := lt_of_le_of_ne (not_lt.mp fun hlt => hbefore _ hlt (hf.free 0)) hk.symm
          rw [hi, Equiv.swap_apply_right]
          exact (hothers _ _).mpr
            ⟨hk, hun 0 i.succ k _ (Fin.succ_pos i) hlt hfree (hf.free 0) (hi ▸ hf.free i.succ)⟩
        · rw [Equiv.swap_apply_of_ne_of_ne hne hi]
          exact (hothers _ _).mpr ⟨hi, hf.free i.succ⟩
      · intro i j a b hij hab hia hib hja
        simp only [hothers] at hia hib hja ⊢
        exact ⟨hib.1, hun i.succ j.succ a b (Fin.succ_lt_succ_iff.mpr hij) hab hia.2 hib.2 hja.2⟩

/-- Of details none of which is taken, an element is free wherever it narrows the detail. -/
theorem free_map {granted : AuthorizationDetails} {k : Fin granted.length} :
    Free want (granted.map (false, ·)) k ↔ want.isNarrowingOf (granted.get k) = true := by
  simp [Free]

theorem Free.lt {granted : AuthorizationDetails} {k : Nat}
    (h : Free want (granted.map (false, ·)) k) : k < granted.length := by
  obtain ⟨g, hg, -⟩ := h
  simpa using (List.getElem?_eq_some_iff.mp hg).1

theorem within_iff {wanted granted : AuthorizationDetails} :
    Within wanted granted ↔ ∃ f, Matches wanted (granted.map (false, ·)) f := by
  constructor
  · rintro ⟨f, hf, hnarrows⟩
    exact ⟨fun i => f i, fun i j hij => hf (Fin.ext hij), fun i => free_map.mpr (hnarrows i)⟩
  · rintro ⟨f, hf⟩
    exact ⟨fun i => ⟨f i, (hf.free i).lt⟩, fun i j hij => hf.injective (Fin.mk.inj hij),
      fun i => free_map.mp (hf.free i)⟩

/-- A request that names details is granted what it names, if the first fit finds room for it. -/
theorem narrow_eq_ok {granted requested issued : AuthorizationDetails} (h : requested ≠ []) :
    granted.narrow requested = .ok issued ↔
      issued = requested ∧ consumeAll requested (granted.map (false, ·)) = true := by
  rw [narrow]
  simp only [List.isEmpty_iff, h, if_false]
  split
  · rename_i hconsume
    simp only [Except.ok.injEq, hconsume, and_true]
    exact eq_comm
  · rename_i hconsume
    simp only [reduceCtorEq, hconsume, Bool.false_eq_true, and_false]

/-- What a request for details is granted is within what the grant holds. -/
theorem within_of_narrow {granted requested issued : AuthorizationDetails}
    (h : granted.narrow requested = .ok issued) : Within issued granted := by
  by_cases hnil : requested = []
  · subst hnil
    cases h
    exact .refl _
  · obtain ⟨rfl, hall⟩ := (narrow_eq_ok hnil).mp h
    exact within_iff.mpr (exists_matches hall)

end AuthorizationDetails

/-! ## Terms -/

structure Terms where
  scope : ScopeSet
  resource : List String
  details : AuthorizationDetails
  authentication : Option Authentication

def IssuedToken.terms (t : IssuedToken) : Terms :=
  ⟨t.scope, t.resource, t.authorizationDetails, t.authentication⟩

def RefreshTokenRecord.terms (r : RefreshTokenRecord) : Terms :=
  ⟨r.scope, r.resource, r.authorizationDetails, r.authentication⟩

def AuthorizationCodeRecord.terms (r : AuthorizationCodeRecord) : Terms :=
  ⟨r.scope, r.resource, r.authorizationDetails, r.authentication⟩

def IssueArgs.terms (args : IssueArgs) : Terms :=
  ⟨args.scope, args.resource, args.details, args.authentication⟩

/-- At most what was granted; a grant that names resources never turns into one that names none,
which would be one for all of them. -/
structure Terms.Narrows (t granted : Terms) : Prop where
  scope : t.scope.tokens ⊆ granted.scope.tokens
  resource : t.resource ⊆ granted.resource
  named : granted.resource ≠ [] → t.resource ≠ []
  details : t.details.Within granted.details
  authentication : t.authentication = granted.authentication

theorem Terms.Narrows.refl (t : Terms) : t.Narrows t :=
  ⟨List.Subset.refl _, List.Subset.refl _, id, .refl _, rfl⟩

theorem Terms.Narrows.trans {t u v : Terms} (h : t.Narrows u) (h' : u.Narrows v) : t.Narrows v where
  scope := List.Subset.trans h.scope h'.scope
  resource := List.Subset.trans h.resource h'.resource
  named := h.named ∘ h'.named
  details := h.details.trans h'.details
  authentication := h.authentication.trans h'.authentication

/-! ## The checks of the token endpoint -/

namespace Server

variable {srv : Server}

/-- The resources are on the server's list, if it has one. -/
def Permits (srv : Server) (resources : List String) : Prop :=
  ∀ allowed, srv.config.allowedResources = some allowed → resources ⊆ allowed

/-- Narrower terms, for resources the server stands behind. -/
structure Offers (srv : Server) (t granted : Terms) : Prop where
  permitted : srv.Permits t.resource
  narrows : t.Narrows granted

theorem mem_of_targetIsPermitted {value : String} {u : Unit} (h : srv.targetIsPermitted value = .ok u)
    {allowed : List String} (ha : srv.config.allowedResources = some allowed) : value ∈ allowed := by
  unfold targetIsPermitted at h
  rw [ha] at h
  simp only at h
  split at h
  · rename_i hany
    obtain ⟨x, hx, heq⟩ := List.any_eq_true.mp hany
    rwa [← beq_iff_eq.mp heq]
  · cases h

theorem permits_validateResourcesFrom {seen : Nat} {out requested resources : List String}
    (hout : srv.Permits out)
    (h : srv.validateResourcesFrom seen out requested = .ok resources) : srv.Permits resources := by
  induction requested generalizing seen out with
  | nil =>
    cases h
    exact hout
  | cons value rest ih =>
    simp only [validateResourcesFrom] at h
    split at h
    · cases h
    · split at h
      · cases h
      · obtain ⟨u, hpermitted, h⟩ := except_bind_ok h
        refine ih (fun allowed ha => ?_) h
        split
        · exact hout allowed ha
        · refine List.append_subset.mpr ⟨hout allowed ha, ?_⟩
          exact List.cons_subset.mpr ⟨mem_of_targetIsPermitted hpermitted ha, List.nil_subset _⟩

/-- Validated resources are permitted ones. -/
theorem permits_of_validateResources {requested resources : List String}
    (h : srv.validateResources requested = .ok resources) : srv.Permits resources :=
  permits_validateResourcesFrom (fun _ _ => List.nil_subset _) h

/-- What resources a request is granted. -/
theorem narrowAndPermit_ok {granted requested issued : List String}
    (h : srv.narrowAndPermit granted requested = .ok issued) :
    issued ⊆ granted ∧ (granted ≠ [] → issued ≠ []) ∧ (srv.Permits requested → srv.Permits issued) := by
  unfold narrowAndPermit narrowResources at h
  by_cases hempty : requested.isEmpty = true
  · rw [if_pos hempty] at h
    simp only [hempty, Bool.not_true, Bool.false_eq_true, if_false, bind, Except.bind] at h
    split at h
    · cases h
    · rename_i hkept
      cases h
      refine ⟨List.filter_subset_self _, fun hgranted hnone => hkept ?_, fun _ allowed ha value hv => ?_⟩
      · cases granted with
        | nil => exact absurd rfl hgranted
        | cons x xs => simp only [hnone]; rfl
      · have hok := (List.mem_filter.mp hv).2
        cases hpermitted : srv.targetIsPermitted value with
        | error e =>
          rw [hpermitted] at hok
          cases hok
        | ok u => exact mem_of_targetIsPermitted hpermitted ha
  · rw [if_neg hempty] at h
    by_cases hall : (requested.all fun want => granted.any (· == want)) = true
    · rw [if_pos hall] at h
      simp only [hempty, Bool.not_false, if_true, bind, Except.bind] at h
      cases h
      refine ⟨fun x hx => ?_, fun _ hnone => hempty (by rw [hnone]; rfl), id⟩
      obtain ⟨y, hy, heq⟩ := List.any_eq_true.mp (List.all_eq_true.mp hall x hx)
      rwa [← beq_iff_eq.mp heq]
    · rw [if_neg hall] at h
      cases h

/-- Both narrowings of a grant offer terms within it. -/
theorem offers_of_narrowGrant {scope granted : ScopeSet} {resource requestedResources : List String}
    {details requestedDetails : AuthorizationDetails} {authentication : Option Authentication}
    {issued : List String × AuthorizationDetails} (hscope : scope.tokens ⊆ granted.tokens)
    (hpermits : srv.Permits requestedResources)
    (h : srv.narrowGrant resource details requestedResources requestedDetails = .ok issued) :
    srv.Offers ⟨scope, issued.1, issued.2, authentication⟩
      ⟨granted, resource, details, authentication⟩ := by
  obtain ⟨r, hresource, h⟩ := except_bind_ok h
  obtain ⟨d, hdetails, h⟩ := except_bind_ok h
  cases h
  obtain ⟨hsub, hnamed, hpermitted⟩ := narrowAndPermit_ok hresource
  exact ⟨hpermitted hpermits, hscope, hsub, hnamed,
    AuthorizationDetails.within_of_narrow hdetails, rfl⟩

end Server

end OauthAs
