-- SUMMARY: Scope sets are sets: how they are built, compared, shown and read back.
import Mathlib.Data.List.Sort
import OauthAs.Server.Authorize

/-!
# Scope sets

The constructors sort their tokens and drop each one that repeats the token before it. A set built
that way has no other list of the same tokens beside it, so equality of lists is equality of sets,
one pass decides inclusion, and the displayed form reads back as the set it shows.
-/

namespace OauthAs.ScopeSet

variable {xs : List Scope} {tokens : List String}

/-! ## Construction -/

/-- Keeps one token of each run of equal ones. -/
def dedup : List Scope → List Scope
  | [] => []
  | [x] => [x]
  | x :: y :: rest => if x = y then dedup (y :: rest) else x :: dedup (y :: rest)

/-- The tokens in order, each of them once. -/
def sortedTokens (tokens : List Scope) : List Scope :=
  dedup (tokens.insertionSort fun x y => ¬ y.lt x)

theorem mem_dedup {z : Scope} : z ∈ dedup xs ↔ z ∈ xs := by
  fun_induction dedup xs with
  | case1 => exact Iff.rfl
  | case2 => exact Iff.rfl
  | case3 x rest ih => simp only [ih, List.mem_cons, or_self_left]
  | case4 x y rest hne ih => rw [List.mem_cons, ih, List.mem_cons (l := y :: rest)]

theorem pairwise_dedup (h : xs.Pairwise fun x y => ¬ y.lt x) : (dedup xs).Pairwise Scope.lt := by
  fun_induction dedup xs with
  | case1 => exact .nil
  | case2 x => exact List.pairwise_singleton _ x
  | case3 x rest ih => exact ih h.tail
  | case4 x y rest hne ih =>
    refine List.pairwise_cons.mpr ⟨fun z hz => ?_, ih h.tail⟩
    have hxy : x.lt y := lt_of_not_lt_of_ne (List.rel_of_pairwise_cons h List.mem_cons_self)
      (Ne.symm hne)
    rcases List.mem_cons.mp (mem_dedup.mp hz) with rfl | hz
    · exact hxy
    · exact lt_of_lt_of_le hxy (not_lt.mp (List.rel_of_pairwise_cons h.tail hz))

theorem mem_sortedTokens {x : Scope} {tokens : List Scope} :
    x ∈ sortedTokens tokens ↔ x ∈ tokens := by
  rw [sortedTokens, mem_dedup, List.mem_insertionSort]

theorem pairwise_sortedTokens (tokens : List Scope) : (sortedTokens tokens).Pairwise Scope.lt := by
  have htotal : Std.Total fun x y : Scope => ¬ y.lt x :=
    ⟨fun x y => (le_total x.token y.token).imp not_lt.mpr not_lt.mpr⟩
  have htrans : IsTrans Scope fun x y => ¬ y.lt x :=
    ⟨fun x y z hxy hyz => not_lt.mpr (le_trans (not_lt.mp hxy) (not_lt.mp hyz))⟩
  exact pairwise_dedup (List.pairwise_insertionSort _ tokens)

theorem nodup_tokens (s : ScopeSet) : s.tokens.Nodup := by
  refine s.sorted.imp fun {x y} hlt heq => ?_
  rw [heq] at hlt
  exact lt_irrefl y.token hlt

/-- Increasing lists of the same tokens are the same list. -/
theorem eq_of_mem_iff {ys : List Scope} (hxs : xs.Pairwise Scope.lt) (hys : ys.Pairwise Scope.lt)
    (h : ∀ x, x ∈ xs ↔ x ∈ ys) : xs = ys := by
  have hnodup : ∀ {zs : List Scope}, zs.Pairwise Scope.lt → zs.Nodup := fun hzs =>
    nodup_tokens ⟨_, hzs⟩
  refine List.Perm.eq_of_pairwise (fun a b _ _ hab hba => ?_) hxs hys ?_
  · exact absurd (lt_trans hab hba) (lt_irrefl a.token)
  · exact (List.perm_ext_iff_of_nodup (hnodup hxs) (hnodup hys)).mpr h

theorem eq_iff {s t : ScopeSet} : s = t ↔ ∀ x, x ∈ s.tokens ↔ x ∈ t.tokens := by
  constructor
  · rintro rfl x
    exact Iff.rfl
  · intro h
    obtain ⟨xs, hxs⟩ := s
    obtain ⟨ys, hys⟩ := t
    obtain rfl : xs = ys := eq_of_mem_iff hxs hys h
    rfl

/-- Filing the tokens one by one gives what sorting them does. -/
theorem tokens_ofTokens (tokens : List Scope) : (ofTokens tokens).tokens = sortedTokens tokens :=
  eq_of_mem_iff (ofTokens tokens).sorted (pairwise_sortedTokens tokens) fun _ =>
    mem_ofTokens.trans mem_sortedTokens.symm

theorem ofTokens_tokens (s : ScopeSet) : ofTokens s.tokens = s :=
  eq_iff.mpr fun _ => mem_ofTokens

/-! ## Reading -/

/-- The set of the given tokens, each of them checked. -/
def fromTokens (tokens : List String) : Except String ScopeSet := do
  return .ofTokens (← tokens.mapM Scope.new)

/-- A token is not empty and holds no other characters than the allowed ones. -/
def TokenOk (token : String) : Prop := token ≠ "" ∧ ∀ c ∈ token.toList, scopeCharOk c = true

theorem tokenOk_iff {token : String} : TokenOk token ↔ scopeTokenOk token = true := by
  simp [TokenOk, scopeTokenOk]

theorem new_token (x : Scope) : Scope.new x.token = .ok x := by
  rw [Scope.new, dif_pos x.valid]

theorem ok_of_new {token : String} {x : Scope} (h : Scope.new token = .ok x) : x.token = token := by
  unfold Scope.new at h
  split at h
  · cases h
    rfl
  · cases h

theorem mapM_new_token (xs : List Scope) : (xs.map Scope.token).mapM Scope.new = .ok xs := by
  induction xs with
  | nil => rfl
  | cons x xs ih =>
    rw [List.map_cons, List.mapM_cons, new_token, ih]
    rfl

/-- The checks pass together exactly if each of them does. -/
theorem mapM_new_ok : (∃ xs, tokens.mapM Scope.new = .ok xs) ↔ ∀ token ∈ tokens, TokenOk token := by
  constructor
  · rintro ⟨xs, hxs⟩
    induction tokens generalizing xs with
    | nil => simp
    | cons token tokens ih =>
      rw [List.mapM_cons] at hxs
      cases hnew : Scope.new token with
      | error e => rw [hnew] at hxs; cases hxs
      | ok x =>
        cases hrest : tokens.mapM Scope.new with
        | error e => rw [hnew, hrest] at hxs; cases hxs
        | ok rest =>
          refine List.forall_mem_cons.mpr ⟨?_, ih rest hrest⟩
          rw [tokenOk_iff, ← ok_of_new hnew]
          exact x.valid
  · intro h
    refine ⟨tokens.attach.map fun t => ⟨t.1, tokenOk_iff.mp (h t.1 t.2)⟩, ?_⟩
    have htokens : tokens = (tokens.attach.map fun t =>
        (⟨t.1, tokenOk_iff.mp (h t.1 t.2)⟩ : Scope)).map Scope.token := by
      rw [List.map_map]
      exact tokens.attach_map_subtype_val.symm
    conv_lhs => rw [htokens]
    exact mapM_new_token _

theorem tokens_of_mapM_new (h : tokens.mapM Scope.new = .ok xs) : xs.map Scope.token = tokens := by
  induction tokens generalizing xs with
  | nil => cases h; rfl
  | cons token tokens ih =>
    rw [List.mapM_cons] at h
    cases hnew : Scope.new token with
    | error e => rw [hnew] at h; cases h
    | ok x =>
      cases hrest : tokens.mapM Scope.new with
      | error e => rw [hnew, hrest] at h; cases h
      | ok rest =>
        rw [hnew, hrest] at h
        cases h
        rw [List.map_cons, ok_of_new hnew, ih hrest]

theorem parse_eq_fromTokens (text : String) : parse text = fromTokens (spaceSeparated text) := rfl

theorem fromTokens_ok : (∃ s, fromTokens tokens = .ok s) ↔ ∀ token ∈ tokens, TokenOk token := by
  rw [← mapM_new_ok]
  constructor
  · rintro ⟨s, hs⟩
    cases hxs : tokens.mapM Scope.new with
    | error e => rw [fromTokens, hxs] at hs; cases hs
    | ok xs => exact ⟨xs, rfl⟩
  · rintro ⟨xs, hxs⟩
    exact ⟨.ofTokens xs, by rw [fromTokens, hxs]; rfl⟩

/-- A set that was read holds what was given, in order and once. -/
theorem tokens_of_fromTokens {s : ScopeSet} (h : fromTokens tokens = .ok s) :
    ∃ xs, xs.map Scope.token = tokens ∧ s.tokens = sortedTokens xs := by
  cases hxs : tokens.mapM Scope.new with
  | error e => rw [fromTokens, hxs] at h; cases h
  | ok xs =>
    rw [fromTokens, hxs] at h
    cases h
    exact ⟨xs, tokens_of_mapM_new hxs, tokens_ofTokens xs⟩

/-! ## The displayed form -/

theorem space_notMem (x : Scope) : ' ' ∉ x.token.toList := by
  intro h
  have hok := (tokenOk_iff.mpr x.valid).2 ' ' h
  revert hok
  decide

theorem spaceSeparated_display (s : ScopeSet) :
    spaceSeparated s.display = s.tokens.map Scope.token := by
  have hnonempty : ∀ word ∈ s.tokens.map Scope.token, (!word.isEmpty) = true := by
    intro word hword
    obtain ⟨x, -, rfl⟩ := List.mem_map.mp hword
    simpa using (tokenOk_iff.mpr x.valid).1
  by_cases hempty : s.tokens = []
  · rw [spaceSeparated, display, hempty]
    rfl
  · have hsplit : segments ' ' s.display = s.tokens.map Scope.token := by
      have hwords : s.display.toList =
          [' '].intercalate (s.tokens.map fun x => x.token.toList) := by
        rw [display, String.toList_intercalate, List.map_map]
        rfl
      rw [segments, hwords, List.splitOn_intercalate]
      · simp [Function.comp_def]
      · intro word hword
        obtain ⟨x, -, rfl⟩ := List.mem_map.mp hword
        exact space_notMem x
      · simpa using hempty
    rw [spaceSeparated, hsplit]
    exact List.filter_eq_self.mpr hnonempty

theorem parse_display (s : ScopeSet) : parse s.display = .ok s := by
  rw [parse_eq_fromTokens, spaceSeparated_display, fromTokens, mapM_new_token]
  exact congrArg Except.ok (ofTokens_tokens s)

/-- Scope sets are sets. Both constructors sort and drop repetitions; they succeed exactly on
tokens of the allowed characters; inclusion and equality are those of sets of tokens; and the
displayed form of a set reads back as that set. -/
theorem scopeSet_is_a_set :
    (∀ text s, parse text = .ok s →
      ∃ xs, xs.map Scope.token = spaceSeparated text ∧ s.tokens = sortedTokens xs ∧
        (sortedTokens xs).Pairwise Scope.lt ∧ (sortedTokens xs).Nodup) ∧
    (∀ tokens s, fromTokens tokens = .ok s →
      ∃ xs, xs.map Scope.token = tokens ∧ s.tokens = sortedTokens xs ∧
        (sortedTokens xs).Pairwise Scope.lt ∧ (sortedTokens xs).Nodup) ∧
    (∀ text, (∃ s, parse text = .ok s) ↔
      ∀ token ∈ segments ' ' text, token ≠ "" → ∀ c ∈ token.toList, scopeCharOk c = true) ∧
    (∀ tokens, (∃ s, fromTokens tokens = .ok s) ↔
      ∀ token ∈ tokens, token ≠ "" ∧ ∀ c ∈ token.toList, scopeCharOk c = true) ∧
    (∀ s t : ScopeSet, s.isSubset t = true ↔ ∀ x ∈ s.tokens, x ∈ t.tokens) ∧
    (∀ s t : ScopeSet, s = t ↔ ∀ x, x ∈ s.tokens ↔ x ∈ t.tokens) ∧
    ∀ s : ScopeSet, parse s.display = .ok s := by
  have hset : ∀ tokens s, fromTokens tokens = .ok s →
      ∃ xs, xs.map Scope.token = tokens ∧ s.tokens = sortedTokens xs ∧
        (sortedTokens xs).Pairwise Scope.lt ∧ (sortedTokens xs).Nodup := by
    intro tokens s hs
    obtain ⟨xs, hxs, htokens⟩ := tokens_of_fromTokens hs
    exact ⟨xs, hxs, htokens, pairwise_sortedTokens xs, nodup_tokens ⟨_, pairwise_sortedTokens xs⟩⟩
  refine ⟨fun text s hs => hset _ s hs, hset, fun text => ?_, fun tokens => fromTokens_ok,
    fun s t => isSubset_iff, fun s t => eq_iff, parse_display⟩
  · rw [parse_eq_fromTokens, fromTokens_ok]
    constructor
    · intro h token htoken hne
      exact (h token (List.mem_filter.mpr ⟨htoken, by simpa using hne⟩)).2
    · intro h token htoken
      obtain ⟨hmem, hne⟩ := List.mem_filter.mp htoken
      have hne : token ≠ "" := by simpa using hne
      exact ⟨hne, h token hmem hne⟩

end OauthAs.ScopeSet
