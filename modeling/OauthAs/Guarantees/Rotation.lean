-- SUMMARY: What is published after any history of rotations, and when a rotation strands a key.
import Mathlib.Data.List.Induction
import Mathlib.Data.List.Nodup
import OauthAs.Signing

/-!
# Rotation

A name is published at most once, so a rotation drops the entries that share a name with the key
that leaves or the key that comes. Keys without a name count as sharing one. A history keeps every
key it should keep exactly if no two different keys in it are without a name.
-/

namespace OauthAs.Jwt

variable {c : JwtConfig} {key : Jwk}

/-! ## Histories -/

inductive Change where
  | rotate (newActive : Signer)
  | forget (kid : String)
deriving DecidableEq, Repr

namespace JwtConfig

def change (c : JwtConfig) : Change → JwtConfig
  | .rotate newActive => c.rotateTo newActive
  | .forget kid => c.forgetRetiredKeyBreakingItsLiveTokens kid

def after (c : JwtConfig) (history : List Change) : JwtConfig := history.foldl change c

theorem after_append (c : JwtConfig) (before later : List Change) :
    c.after (before ++ later) = (c.after before).after later :=
  List.foldl_append ..

end JwtConfig

/-- The keys that a change made active. -/
def Change.activated : Change → List Jwk
  | .rotate newActive => [newActive.publicJwk]
  | .forget _ => []

/-- Every key that was active, the last one first. All but the first have been retired, in the
order in which they stand. -/
def activations (first : Signer) (history : List Change) : List Jwk :=
  history.foldl (fun keys change => change.activated ++ keys) [first.publicJwk]

theorem activations_concat (first : Signer) (history : List Change) (change : Change) :
    activations first (history ++ [change]) = change.activated ++ activations first history :=
  List.foldl_concat ..

/-- The last of these keys signs. -/
def activeAfter (first : Signer) (history : List Change) : Jwk :=
  (activations first history).headD first.publicJwk

/-- No change takes the key from the set by its name: nobody asks to forget it, and no key that
becomes active carries its name. -/
def Change.Spares (key : Jwk) : Change → Prop
  | .rotate newActive => ∀ kid, key.kid = some kid → newActive.publicJwk.kid ≠ some kid
  | .forget kid => key.kid ≠ some kid

/-- What is to be published after a history. -/
structure Published (first : Signer) (history : List Change) (keys : List Jwk) : Prop where
  active_first : keys.head? = some (activeAfter first history)
  names_distinct : (keys.filterMap Jwk.kid).Nodup
  retained : ∀ before later, history = before ++ later →
    (∀ change ∈ later, change.Spares (activeAfter first before)) →
      activeAfter first before ∈ keys
  were_active : ∀ key ∈ keys.tail, key ∈ (activations first history).tail
  recent_first : keys.tail.Pairwise fun a b =>
    (activations first history).tail.idxOf a < (activations first history).tail.idxOf b

/-! ## One change -/

theorem mem_kept {newActive : Signer} :
    key ∈ c.kept newActive ↔
      key ∈ c.retired ∧ key.kid ≠ c.active.kid ∧ key.kid ≠ newActive.publicJwk.kid := by
  rw [JwtConfig.kept, List.mem_filter, decide_eq_true_iff]

/-- No name is published twice, and neither are two keys without one. -/
def JwtConfig.Distinct (c : JwtConfig) : Prop := (c.jwks.map Jwk.kid).Nodup

theorem distinct_iff :
    c.Distinct ↔ (∀ key ∈ c.retired, key.kid ≠ c.active.kid) ∧ (c.retired.map Jwk.kid).Nodup := by
  rw [JwtConfig.Distinct, JwtConfig.jwks, List.map_cons, List.nodup_cons, List.mem_map]
  simp only [not_exists, not_and, ne_eq]

/-- A key that keeps its name to itself stays. -/
theorem mem_jwks_rotateTo (hc : c.Distinct) (hkey : key ∈ c.jwks) {newActive : Signer}
    (h : newActive.publicJwk = key ∨ newActive.publicJwk.kid ≠ key.kid) :
    key ∈ (c.rotateTo newActive).jwks := by
  rcases h with rfl | hname
  · exact List.mem_cons_self
  · refine List.mem_cons_of_mem _ ?_
    simp only [JwtConfig.rotateTo]
    rcases List.mem_cons.mp hkey with rfl | hretired
    · rw [if_pos hname.symm]
      exact List.mem_cons_self
    · have hkept : key ∈ c.kept newActive :=
        mem_kept.mpr ⟨hretired, (distinct_iff.mp hc).1 key hretired, hname.symm⟩
      split
      · exact List.mem_cons_of_mem _ hkept
      · exact hkept

theorem distinct_change (hc : c.Distinct) (change : Change) : (c.change change).Distinct := by
  obtain ⟨hactive, hretired⟩ := distinct_iff.mp hc
  refine distinct_iff.mpr ?_
  cases change with
  | forget kid =>
    exact ⟨fun key hkey => hactive key (List.mem_filter.mp hkey).1,
      hretired.sublist (List.filter_sublist.map _)⟩
  | rotate newActive =>
    have hkept : ((c.kept newActive).map Jwk.kid).Nodup :=
      hretired.sublist (List.filter_sublist.map _)
    simp only [JwtConfig.change, JwtConfig.rotateTo]
    split
    · rename_i hname
      refine ⟨List.forall_mem_cons.mpr ⟨hname, fun key hkey => (mem_kept.mp hkey).2.2⟩, ?_⟩
      refine List.nodup_cons.mpr ⟨fun hmem => ?_, hkept⟩
      obtain ⟨key, hkey, hsame⟩ := List.mem_map.mp hmem
      exact (mem_kept.mp hkey).2.1 hsame
    · exact ⟨fun key hkey => (mem_kept.mp hkey).2.2, hkept⟩

/-- A change that spares the key leaves it in the set, if a key without a name is not replaced by
another one without a name. -/
theorem mem_jwks_change (hc : c.Distinct) (hkey : key ∈ c.jwks) {change : Change}
    (hspares : change.Spares key)
    (hunnamed : key.kid = none → ∀ other ∈ change.activated, other.kid = none → other = key) :
    key ∈ (c.change change).jwks := by
  cases change with
  | forget kid =>
    rcases List.mem_cons.mp hkey with rfl | hretired
    · exact List.mem_cons_self
    · exact List.mem_cons_of_mem _ (List.mem_filter.mpr ⟨hretired, decide_eq_true hspares⟩)
  | rotate newActive =>
    refine mem_jwks_rotateTo hc hkey ?_
    by_cases hsame : newActive.publicJwk.kid = key.kid
    · cases hkid : key.kid with
      | none => exact .inl (hunnamed hkid _ (List.mem_singleton.mpr rfl) (hsame.trans hkid))
      | some kid => exact absurd (hsame.trans hkid) (hspares kid hkid)
    · exact .inr hsame

/-! ## Whole histories -/

theorem distinct_after (hc : c.Distinct) (history : List Change) : (c.after history).Distinct := by
  induction history generalizing c with
  | nil => exact hc
  | cons change history ih => exact ih (distinct_change hc change)

theorem mem_jwks_after (hc : c.Distinct) (hkey : key ∈ c.jwks) {history : List Change}
    (hspares : ∀ change ∈ history, change.Spares key)
    (hunnamed : key.kid = none →
      ∀ change ∈ history, ∀ other ∈ change.activated, other.kid = none → other = key) :
    key ∈ (c.after history).jwks := by
  induction history generalizing c with
  | nil => exact hkey
  | cons change history ih =>
    rw [List.forall_mem_cons] at hspares
    refine ih (distinct_change hc change) (mem_jwks_change hc hkey hspares.1 ?_) hspares.2 ?_
    · exact fun h => hunnamed h change List.mem_cons_self
    · exact fun h other hother => hunnamed h other (List.mem_cons_of_mem _ hother)

section

variable (first : Signer) (audience : String) (history : List Change)

/-- What the configuration holds, in terms of the keys that were active. -/
structure Follows (c : JwtConfig) : Prop where
  active : activations first history = c.active :: (activations first history).tail
  were_active : ∀ key ∈ c.retired, key ∈ (activations first history).tail
  recent_first : c.retired.Pairwise fun a b =>
    (activations first history).tail.idxOf a < (activations first history).tail.idxOf b

theorem follows_after : Follows first history ((JwtConfig.new first audience).after history) := by
  induction history using List.reverseRecOn with
  | nil => exact ⟨rfl, by simp [JwtConfig.after, JwtConfig.new], .nil⟩
  | append_singleton history change ih =>
    rw [JwtConfig.after_append]
    generalize (JwtConfig.new first audience).after history = c at ih
    obtain ⟨hactive, hwere, hrecent⟩ := ih
    cases change with
    | forget kid =>
      have hkeys : activations first (history ++ [.forget kid]) = activations first history :=
        activations_concat first history (.forget kid)
      refine ⟨?_, ?_, ?_⟩
      · rw [hkeys]
        exact hactive
      · rw [hkeys]
        exact fun key hkey => hwere key (List.mem_filter.mp hkey).1
      · rw [hkeys]
        exact hrecent.sublist List.filter_sublist
    | rotate newActive =>
      have hkeys : activations first (history ++ [.rotate newActive]) =
          newActive.publicJwk :: c.active :: (activations first history).tail := by
        rw [activations_concat, ← hactive]
        rfl
      have hother : ∀ key ∈ c.kept newActive, c.active ≠ key := by
        rintro key hkey rfl
        exact (mem_kept.mp hkey).2.1 rfl
      have hkept : (c.kept newActive).Pairwise fun a b =>
          (c.active :: (activations first history).tail).idxOf a <
            (c.active :: (activations first history).tail).idxOf b := by
        refine (hrecent.sublist List.filter_sublist).imp_of_mem fun {a b} ha hb hab => ?_
        rw [List.idxOf_cons_ne _ (hother a ha), List.idxOf_cons_ne _ (hother b hb)]
        exact Nat.succ_lt_succ hab
      rw [JwtConfig.after, List.foldl_cons, List.foldl_nil]
      refine ⟨?_, ?_, ?_⟩
      · rw [hkeys]
        rfl
      · rw [hkeys]
        intro key hkey
        simp only [JwtConfig.change, JwtConfig.rotateTo] at hkey
        split at hkey
        · rcases List.mem_cons.mp hkey with rfl | hkey
          · exact List.mem_cons_self
          · exact List.mem_cons_of_mem _ (hwere key (mem_kept.mp hkey).1)
        · exact List.mem_cons_of_mem _ (hwere key (mem_kept.mp hkey).1)
      · rw [hkeys, List.tail_cons]
        simp only [JwtConfig.change, JwtConfig.rotateTo]
        split
        · refine List.pairwise_cons.mpr ⟨fun key hkey => ?_, hkept⟩
          rw [List.idxOf_cons_self, List.idxOf_cons_ne _ (hother key hkey)]
          exact Nat.succ_pos _
        · exact hkept

theorem active_after :
    ((JwtConfig.new first audience).after history).active = activeAfter first history := by
  rw [activeAfter, (follows_after first audience history).active]
  rfl

/-- Every key that was active was so after some part of the history. -/
theorem exists_activeAfter (h : key ∈ activations first history) :
    ∃ before later, history = before ++ later ∧ activeAfter first before = key := by
  induction history using List.reverseRecOn with
  | nil => exact ⟨[], [], rfl, (List.mem_singleton.mp h).symm⟩
  | append_singleton history change ih =>
    rw [activations_concat] at h
    rcases List.mem_append.mp h with h | h
    · refine ⟨history ++ [change], [], (List.append_nil _).symm, ?_⟩
      cases change with
      | rotate newActive =>
        rw [activeAfter, activations_concat, List.mem_singleton.mp h]
        rfl
      | forget kid => cases h
    · obtain ⟨before, later, hsplit, hkey⟩ := ih h
      exact ⟨before, later ++ [change], by rw [hsplit, List.append_assoc], hkey⟩

theorem mem_activations_of_mem {change : Change} (hchange : change ∈ history)
    (hkey : key ∈ change.activated) : key ∈ activations first history := by
  induction history using List.reverseRecOn with
  | nil => cases hchange
  | append_singleton history last ih =>
    rw [activations_concat]
    rcases List.mem_append.mp hchange with hchange | hchange
    · exact List.mem_append_right _ (ih hchange)
    · rw [← List.mem_singleton.mp hchange]
      exact List.mem_append_left _ hkey

theorem activeAfter_mem (before later : List Change) :
    activeAfter first before ∈ activations first (before ++ later) := by
  induction later using List.reverseRecOn with
  | nil =>
    rw [List.append_nil, ← active_after first "" before, (follows_after first "" before).active]
    exact List.mem_cons_self
  | append_singleton later change ih =>
    rw [← List.append_assoc, activations_concat]
    exact List.mem_append_right _ ih

theorem distinct_new : (JwtConfig.new first audience).Distinct := List.nodup_singleton _

/-- A history publishes what it should exactly if no two different keys in it are without a
name. -/
theorem published_iff_unnamed_unique :
    Published first history ((JwtConfig.new first audience).after history).jwks ↔
      ∀ a ∈ activations first history, ∀ b ∈ activations first history,
        a.kid = none → b.kid = none → a = b := by
  have hdistinct := distinct_after (distinct_new first audience) history
  constructor
  · intro h a ha b hb hnone hnone'
    -- Nothing takes a key without a name from the set, so both are in it.
    have hmem : ∀ key ∈ activations first history, key.kid = none →
        key ∈ ((JwtConfig.new first audience).after history).jwks := by
      intro key hkey hkid
      obtain ⟨before, later, hsplit, rfl⟩ := exists_activeAfter first history hkey
      refine h.retained before later hsplit fun change _ => ?_
      cases change with
      | rotate newActive =>
        intro kid hsome
        rw [hkid] at hsome
        cases hsome
      | forget kid =>
        rw [Change.Spares, hkid]
        rintro ⟨⟩
    exact List.inj_on_of_nodup_map hdistinct (hmem a ha hnone) (hmem b hb hnone')
      (hnone.trans hnone'.symm)
  · intro hunique
    have hfollows := follows_after first audience history
    refine ⟨?_, ?_, ?_, hfollows.were_active, hfollows.recent_first⟩
    · rw [← active_after first audience history]
      rfl
    · have hnames : ∀ keys : List Jwk, keys.filterMap Jwk.kid = (keys.map Jwk.kid).filterMap id :=
        fun keys => by rw [List.filterMap_map, Function.id_comp]
      rw [hnames]
      refine List.Nodup.filterMap (fun a b name ha hb => ?_) hdistinct
      rw [id, Option.mem_def] at ha hb
      rw [ha, hb]
    · rintro before later rfl hspares
      rw [JwtConfig.after_append]
      refine mem_jwks_after (distinct_after (distinct_new first audience) before) ?_ hspares ?_
      · rw [← active_after first audience before]
        exact List.mem_cons_self
      · intro hnone change hchange other hother hnone'
        exact hunique other
          (mem_activations_of_mem first _ (List.mem_append_right _ hchange) hother) _
          (activeAfter_mem first before later) hnone' hnone

end

/-- The key that a server signed with until it rotated is published no longer, if neither key has a
name. -/
theorem unnamed_key_stranded :
    ¬ Published ⟨.es256, .ec .p256 "x" "y" none⟩ [.rotate ⟨.es256, .ec .p256 "u" "v" none⟩]
      ((JwtConfig.new ⟨.es256, .ec .p256 "x" "y" none⟩ "api").after
        [.rotate ⟨.es256, .ec .p256 "u" "v" none⟩]).jwks := by
  intro h
  have hmem := h.retained [] [.rotate ⟨.es256, .ec .p256 "u" "v" none⟩] rfl
    (List.forall_mem_singleton.mpr fun kid hkid => by cases hkid)
  revert hmem
  decide +kernel

end OauthAs.Jwt
