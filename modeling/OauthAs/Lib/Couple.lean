-- SUMMARY: Two programs whose calls pair off, and what their traces have in common when each runs alone.
import OauthAs.Lib.Pool

/-!
# Coupled programs

Two programs are coupled if they make paired calls for as long as the comparison lasts: whatever
related answers a pair gets, the rests are coupled again. The comparison ends with a last pair, after
which the two may do as they please. Run alone, on worlds that answer paired calls alike, coupled
programs leave traces that pair off in the same way.
-/

namespace OauthAs

section Couple

variable {E : Type} {R : E → Type} {α β γ δ : Type}
  {pairs : (e e' : E) → (R e → R e' → Prop) → Prop} {last : E → E → Prop}

/-- Programs whose calls pair off; `pairs e e' A` pairs two calls and asks for answers related by
`A`, `last` pairs the calls the comparison ends with, and `post` relates what is returned if it
does not end before. -/
inductive Coupled (pairs : (e e' : E) → (R e → R e' → Prop) → Prop) (last : E → E → Prop)
    (post : α → β → Prop) : Prog E R α → Prog E R β → Prop
  | ret {a : α} {b : β} (returned : post a b) : Coupled pairs last post (.ret a) (.ret b)
  | call {e e' : E} {A : R e → R e' → Prop} {k : R e → Prog E R α} {k' : R e' → Prog E R β}
      (paired : pairs e e' A) (rest : ∀ r r', A r r' → Coupled pairs last post (k r) (k' r')) :
      Coupled pairs last post (.call e k) (.call e' k')
  | last {e e' : E} {k : R e → Prog E R α} {k' : R e' → Prog E R β} (paired : last e e') :
      Coupled pairs last post (.call e k) (.call e' k')

namespace Coupled

variable {post : α → β → Prop}

theorem bind {post' : γ → δ → Prop} {p : Prog E R γ} {p' : Prog E R δ} {f : γ → Prog E R α}
    {f' : δ → Prog E R β} (hp : Coupled pairs last post' p p')
    (hf : ∀ a b, post' a b → Coupled pairs last post (f a) (f' b)) :
    Coupled pairs last post (p.bind f) (p'.bind f') := by
  induction hp with
  | ret returned => exact hf _ _ returned
  | call paired rest ih => exact .call paired ih
  | last paired => exact .last paired

/-- A program each of whose calls pairs with itself. -/
theorem self {L : Type} {P : Protocol E R L} {Q : α → L → Prop}
    (hpairs : ∀ l e, P.allowed l e → pairs e e Eq) (hpossible : ∀ e r, P.possible e r)
    {p : Prog E R α} {l : L} (hp : Prog.wp P p l Q) : Coupled pairs last Eq p p := by
  induction p generalizing l with
  | ret a => exact .ret rfl
  | call e k ih =>
    refine .call (hpairs l e hp.1) ?_
    rintro r _ rfl
    exact ih r (hp.2 r (hpossible e r))

end Coupled

/-- The traces of coupled programs. -/
inductive PairedOff (pairs : (e e' : E) → (R e → R e' → Prop) → Prop) (last : E → E → Prop) :
    List ((e : E) × R e) → List ((e : E) × R e) → Prop
  | nil : PairedOff pairs last [] []
  | cons {e e' : E} {A : R e → R e' → Prop} {r : R e} {r' : R e'} {trace trace'}
      (paired : pairs e e' A) (answers : A r r') (rest : PairedOff pairs last trace trace') :
      PairedOff pairs last (⟨e, r⟩ :: trace) (⟨e', r'⟩ :: trace')
  | last {e e' : E} (r : R e) (r' : R e') (trace trace') (paired : last e e') :
      PairedOff pairs last (⟨e, r⟩ :: trace) (⟨e', r'⟩ :: trace')

variable {W C Q A V : Type} {S : Semantics W E R C Q A V}
variable {w : W} {cs : List C} {s : System W E R Q A}

/-- A program running alone. -/
def Semantics.alone (S : Semantics W E R C Q A V) (w : W) (t : Thread E R Q A) (cs : List C) :
    Option (System W E R Q A) :=
  S.run ⟨w, [t]⟩ (cs.map (.run 0))

/-- One call of a program that runs alone. -/
theorem Semantics.alone_cons {t : Thread E R Q A} {c : C} (h : S.alone w t (c :: cs) = some s) :
    ∃ e k r w', t.prog = .call e k ∧ S.perform w e c = some (r, w') ∧
      S.alone w' (t.resume e r (k r)) cs = some s := by
  rw [alone, List.map_cons, run] at h
  split at h
  · cases h
  · rename_i mid hstep
    obtain ⟨u, e, k, r, w', hu, hprog, hperform, rfl⟩ := step_run hstep
    cases hu
    exact ⟨e, k, r, w', hprog, hperform, h⟩

theorem Semantics.alone_trace {t : Thread E R Q A} (h : S.alone w t cs = some s) :
    ∃ u trace, s.threads = [u] ∧ u.request = t.request ∧ u.trace = t.trace ++ trace := by
  induction cs generalizing w t with
  | nil =>
    cases h
    exact ⟨t, [], rfl, rfl, (List.append_nil _).symm⟩
  | cons c cs ih =>
    obtain ⟨e, k, r, w', -, -, h⟩ := alone_cons h
    obtain ⟨u, trace, hu, hq, htrace⟩ := ih h
    exact ⟨u, ⟨e, r⟩ :: trace, hu, hq, htrace.trans (List.append_assoc _ _ _)⟩

/-- Coupled programs that run alone, on worlds that answer paired calls alike, leave traces that
pair off. -/
theorem Coupled.alone (Rel : W → W → Prop) {alike : C → C → Prop} {post : A → A → Prop}
    (hpaired : ∀ {e e' a c c' w w' r r' v v'}, pairs e e' a → alike c c' → Rel w w' →
      S.perform w e c = some (r, v) → S.perform w' e' c' = some (r', v') → a r r' ∧ Rel v v')
    {w' : W} {cs' : List C} {s' : System W E R Q A} (t t' : Thread E R Q A)
    (h : Coupled pairs last post t.prog t'.prog) (hrel : Rel w w') (hcs : List.Forall₂ alike cs cs')
    (hs : S.alone w t cs = some s) (hs' : S.alone w' t' cs' = some s') :
    ∃ u u' trace trace', s.threads = [u] ∧ s'.threads = [u'] ∧ u.request = t.request ∧
      u'.request = t'.request ∧ u.trace = t.trace ++ trace ∧ u'.trace = t'.trace ++ trace' ∧
      PairedOff pairs last trace trace' := by
  induction hcs generalizing w w' t t' with
  | nil =>
    cases hs
    cases hs'
    exact ⟨t, t', [], [], rfl, rfl, rfl, rfl, (List.append_nil _).symm, (List.append_nil _).symm,
      .nil⟩
  | @cons c c' cs cs' hc hcs ih =>
    obtain ⟨e, k, r, v, hprog, hperform, hs⟩ := Semantics.alone_cons hs
    obtain ⟨e', k', r', v', hprog', hperform', hs'⟩ := Semantics.alone_cons hs'
    rw [hprog, hprog'] at h
    cases h with
    | call paired rest =>
      obtain ⟨hanswers, hrel'⟩ := hpaired paired hc hrel hperform hperform'
      obtain ⟨u, u', trace, trace', hu, hu', hq, hq', htrace, htrace', hpairs⟩ :=
        ih _ _ (rest r r' hanswers) hrel' hs hs'
      refine ⟨u, u', _, _, hu, hu', hq, hq', ?_, ?_, .cons paired hanswers hpairs⟩
      · rw [htrace, Thread.resume, List.append_assoc, List.singleton_append]
      · rw [htrace', Thread.resume, List.append_assoc, List.singleton_append]
    | last paired =>
      obtain ⟨u, trace, hu, hq, htrace⟩ := Semantics.alone_trace hs
      obtain ⟨u', trace', hu', hq', htrace'⟩ := Semantics.alone_trace hs'
      refine ⟨u, u', _, _, hu, hu', hq, hq', ?_, ?_, .last r r' trace trace' paired⟩
      · rw [htrace, Thread.resume, List.append_assoc, List.singleton_append]
      · rw [htrace', Thread.resume, List.append_assoc, List.singleton_append]

/-- Where the comparison goes on to the end, a program that runs alone can be followed by one it is
coupled with, choice by choice. -/
theorem Coupled.follow (Rel : W → W → Prop) {post : A → A → Prop}
    (hpaired : ∀ {e e' a c w w' r v}, pairs e e' a → Rel w w' → S.perform w e c = some (r, v) →
      ∃ r' v', S.perform w' e' c = some (r', v') ∧ a r r' ∧ Rel v v') {w' : W}
    (t t' : Thread E R Q A) (h : Coupled pairs (fun _ _ => False) post t.prog t'.prog)
    (hrel : Rel w w') (hs : S.alone w t cs = some s) :
    ∃ s' u u', S.alone w' t' cs = some s' ∧ s.threads = [u] ∧ s'.threads = [u'] ∧
      Rel s.world s'.world ∧ Coupled pairs (fun _ _ => False) post u.prog u'.prog := by
  induction cs generalizing w w' t t' with
  | nil =>
    cases hs
    exact ⟨_, t, t', rfl, rfl, rfl, hrel, h⟩
  | cons c cs ih =>
    obtain ⟨e, k, r, v, hprog, hperform, hs⟩ := Semantics.alone_cons hs
    rw [hprog] at h
    cases hprog' : t'.prog with
    | ret b =>
      rw [hprog'] at h
      cases h
    | call e' k' =>
      rw [hprog'] at h
      cases h with
      | call paired rest =>
        obtain ⟨r', v', hperform', hanswers, hrel'⟩ := hpaired paired hrel hperform
        have hcoupled : Coupled pairs (fun _ _ => False) post (t.resume e r (k r)).prog
            (t'.resume e' r' (k' r')).prog := rest r r' hanswers
        obtain ⟨s', u, u', hs', hrest⟩ := ih _ _ hcoupled hrel' hs
        refine ⟨s', u, u', ?_, hrest⟩
        simp only [Semantics.alone, List.map_cons, Semantics.run, Semantics.step,
          List.getElem?_cons_zero, hprog', hperform', List.set_cons_zero]
        exact hs'
      | last paired => cases paired

/-- What coupled programs return. -/
theorem Coupled.result {p p' : Prog E R α} (h : Coupled pairs (fun _ _ => False) Eq p p') :
    p.result? = p'.result? := by
  cases h with
  | ret returned => exact congrArg some returned
  | call paired rest => rfl
  | last paired => cases paired

end Couple

end OauthAs
