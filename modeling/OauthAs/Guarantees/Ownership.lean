-- SUMMARY: One request behind every code and token, one grant behind every family.
import OauthAs.Guarantees.Narrowing
import OauthAs.Protocol.Mints

/-!
# Ownership

The strings of codes, tokens and families are drawn by one request each. Hence a code goes back to
one approval, a token to one writer, and a family to one grant.
-/

namespace OauthAs

open Sample

variable {srv : Server} {s : State}

/-- A request starts a family for one client. -/
theorem Ledger.Roots.client {l : Ledger} {c c' : ClientId} {f f' : String}
    {u u' : Option String} {t t' : SystemTime} (h : l.Roots srv c f u t)
    (h' : l.Roots srv c' f' u' t') : c = c' := by
  obtain ⟨hfirst, -, hgrant⟩ := h
  obtain ⟨-, -, hgrant'⟩ := h'
  unfold Grants at hgrant hgrant'
  cases hq : l.request with
  | authorizationCodeToken p =>
    simp only [hq] at hgrant hgrant'
    obtain ⟨r, hr, rfl, -⟩ := hgrant
    obtain ⟨r', hr', rfl, -⟩ := hgrant'
    cases hr.symm.trans hr'
    rfl
  | deviceToken clientId bound code =>
    simp only [hq] at hgrant hgrant'
    exact hgrant.1.trans hgrant'.1.symm
  | refreshToken p =>
    rw [hq] at hfirst
    cases hfirst
  | _ => simp [hq] at hgrant

/-- In every state the server gets to, the refresh records of a family are of one grant, and its
access tokens are for the client of that grant. -/
theorem family_is_one_grant (h : srv.Reachable s) {r : RefreshTokenRecord}
    (hr : r ∈ s.world.store.refresh) :
    (∀ n ∈ s.world.store.refresh, n.familyId = r.familyId → n.SameGrant r) ∧
      ∀ t ∈ s.world.store.tokens, t.familyId = some r.familyId → t.clientId = r.clientId := by
  obtain ⟨clock, h⟩ := h
  have hP := Server.provenance h
  obtain ⟨l, hl, first, hfounds⟩ := Server.founded h (.inl hr)
  have hgrant := hfounds.within.grant
  -- Whoever starts the family draws its name, and a string is drawn once.
  have hone : ∀ m ∈ srv.discipline.ledgers s, ∀ {c f u t}, m.Roots srv c f u t →
      f = r.familyId → m = l := by
    rintro m hm c f u t hroots rfl
    obtain ⟨e, he, hname⟩ := hroots.family
    obtain ⟨e', he', hname'⟩ := hfounds.roots.family
    refine hP.fresh.eq_of_drawn hm hl (hP.family_drawn hm he).1 ?_
    rw [← hname, hgrant.2.1, hname']
    exact (hP.family_drawn hl he').1
  refine ⟨fun n hn hf => ?_, fun t ht hf => ?_⟩
  · obtain ⟨m, hm, first', hfounds'⟩ := Server.founded h (.inl hn)
    have hgrant' := hfounds'.within.grant
    cases hone m hm hfounds'.roots (hgrant'.2.1.symm.trans hf)
    cases hfounds.wrote.symm.trans hfounds'.wrote
    exact hgrant'.trans hgrant.symm
  · obtain ⟨k, hk, haccess⟩ := hP.tokens t ht
    obtain ⟨m, hm, hroots⟩ := hP.family k hk t _ haccess hf
    cases hone m hm hroots rfl
    exact (hroots.client hfounds.roots).trans hgrant.1.symm

def Sample.rotated : Option State := server.semantics.run (State.idle (.initial 0)) narrows

theorem family_is_one_grant_rotated :
    ∃ s ∈ rotated, ∀ n ∈ s.world.store.refresh, n.familyId = (entropy 1).family.text →
      n.clientId = "app" := by
  obtain ⟨s, hs, r, hr, hfamily, hclient⟩ : ∃ s ∈ rotated,
      ∃ r ∈ s.world.store.refresh.lookup (entropy 2).refresh.text,
        r.familyId = (entropy 1).family.text ∧ r.clientId = "app" := by decide +kernel
  have hone := (family_is_one_grant ⟨0, Semantics.reaches_of_run hs⟩ (Table.mem_of_lookup hr)).1
  exact ⟨s, hs, fun n hn hf => (hone n hn (hf.trans hfamily.symm)).1.trans hclient⟩

/-- A stored access token was written by one request, under a string that no other request writes a
token under and no refresh token has. -/
theorem token_has_one_writer (h : srv.Reachable s) {t : IssuedToken}
    (ht : t ∈ s.world.store.tokens) :
    ∃ (i : Nat) (c : Call), s.threads[i]? = some c ∧ c.Writes t ∧
      (∀ (j : Nat) (c' : Call) t', s.threads[j]? = some c' → c'.Writes t' →
        t'.accessToken = t.accessToken → j = i ∧ t' = t) ∧
      ∀ r ∈ s.world.store.refresh, t.accessToken ≠ r.refreshToken := by
  obtain ⟨clock, h⟩ := h
  have hP := Server.provenance h
  obtain ⟨l, hl, haccess⟩ := hP.tokens t ht
  obtain ⟨c, hc, rfl⟩ := List.mem_map.mp hl
  obtain ⟨i, hi⟩ := List.mem_iff_getElem?.mp hc
  refine ⟨i, c, hi, writes_of_access haccess, fun j c' t' hj ht' hkey => ?_,
    fun r hr => hP.access_ne_refresh hl haccess (.inl hr)⟩
  have hc' := List.mem_of_getElem? hj
  have hl' := Discipline.mem_ledgers (D := srv.discipline) hc'
  have haccess' := access_of_writes h hc' ht'
  -- Both requests drew the string.
  have hdrawn := (hP.coherent _ hl).access_drawn (hP.fresh.accounted _ hl) haccess
  have hdrawn' := (hP.coherent _ hl').access_drawn (hP.fresh.accounted _ hl') haccess'
  obtain rfl := hP.fresh.apart (Discipline.ledgers_getElem? hj) (Discipline.ledgers_getElem? hi)
    (hkey ▸ hdrawn') hdrawn
  cases hj.symm.trans hi
  exact ⟨rfl, Option.some.inj (haccess'.symm.trans haccess)⟩

theorem token_has_one_writer_rotated :
    ∃ s ∈ rotated, ∃ c ∈ s.threads, ∃ t, Call.Writes c t ∧ t.clientId = "app" := by
  obtain ⟨s, hs, t, ht, hclient⟩ : ∃ s ∈ rotated,
      ∃ t ∈ s.world.store.tokens.lookup (entropy 2).access.text, t.clientId = "app" := by
    decide +kernel
  obtain ⟨i, c, hi, hwrites, -⟩ :=
    token_has_one_writer ⟨0, Semantics.reaches_of_run hs⟩ (Table.mem_of_lookup ht)
  exact ⟨s, hs, c, List.mem_of_getElem? hi, t, hwrites, hclient⟩

/-- A stored code goes back to one request of the authorization endpoint. No other stores a code
under its string, and since then only its state has changed. -/
theorem code_has_one_minter {ok} {clock : SystemTime} {s : ServiceState}
    (h : srv.service.Reaches ok (ServiceState.idle (.initial clock)) s)
    {r : AuthorizationCodeRecord} (hr : r ∈ s.world.store.codes) :
    ∃ i t m, s.threads[i]? = some t ∧ (∀ q e, t.request ≠ .api q e) ∧
      t.Did (.storage (.putAuthorizationCode m)) (.ok ()) ∧ r.SameCode m ∧
      ∀ (j : Nat) (t' : ServiceCall) m', s.threads[j]? = some t' → (∀ q e, t'.request ≠ .api q e) →
        t'.Did (.storage (.putAuthorizationCode m')) (.ok ()) → m'.code = r.code →
        j = i ∧ m' = m := by
  obtain ⟨t, ht, m, hq, hdid, hsame⟩ := Server.minter (fun _ => Table.mem_empty) h (.inl hr)
  obtain ⟨i, hi⟩ := List.mem_iff_getElem?.mp ht
  refine ⟨i, t, m, hi, hq, hdid, hsame, fun j t' m' hj hq' hdid' hcode => ?_⟩
  have hminted := Server.minted_of_did h (List.mem_of_getElem? hj) hq' hdid'
  exact Server.minted_once h hj hi hminted (Server.minted_of_did h ht hq hdid)
    (by rw [hcode, hsame])

/-- Two codes are issued, and the first is redeemed. -/
def Sample.issuesTwo : List ServiceMove :=
  appears ++ hostIssues 1 approval code ++ hostIssues 2 approval (hex 32 1).text ++ redeemsAt 3 2

/-- The code that was redeemed goes back to the first issuance, and the second has stored another. -/
theorem code_has_one_minter_issued :
    ∃ s ∈ server.service.run (ServiceState.idle (.initial 0)) issuesTwo,
      ∃ r ∈ s.world.store.codes, r.state ≠ .issued ∧ ∃ t m t' m', s.threads[1]? = some t ∧
        t.Did (.storage (.putAuthorizationCode m)) (.ok ()) ∧ r.SameCode m ∧
        s.threads[2]? = some t' ∧ t'.Did (.storage (.putAuthorizationCode m')) (.ok ()) ∧
        m'.code ≠ r.code := by
  obtain ⟨s, hs, r, hr, hstate, ⟨t, ht, hq, m, hm, hcode⟩, t', ht', hq', m', hm', -⟩ :
      ∃ s ∈ server.service.run (ServiceState.idle (.initial 0)) issuesTwo,
      ∃ r ∈ s.world.store.codes.lookup code, r.state ≠ .issued ∧
      (∃ t ∈ s.threads[1]?, t.request = .issueCode approval ∧
        ∃ m ∈ (server.serviceDiscipline.ledger t).minted, m.code = r.code) ∧
      ∃ t' ∈ s.threads[2]?, t'.request = .issueCode approval ∧
        ∃ m' ∈ (server.serviceDiscipline.ledger t').minted, True := by
    decide +kernel
  have hdid := Server.did_of_minted hm
  have hdid' := Server.did_of_minted hm'
  obtain ⟨i, -, m₀, -, -, -, hsame, hone⟩ :=
    code_has_one_minter (Semantics.reaches_of_run hs) (Table.mem_of_lookup hr)
  obtain ⟨rfl, rfl⟩ := hone 1 t m ht (by rw [hq]; rintro _ _ ⟨⟩) hdid hcode
  refine ⟨s, hs, r, Table.mem_of_lookup hr, hstate, t, m, t', m', ht, hdid, hsame, ht', hdid', ?_⟩
  intro hcode'
  cases (hone 2 t' m' ht' (by rw [hq']; rintro _ _ ⟨⟩) hdid' hcode').1

end OauthAs
