-- SUMMARY: A grant only narrows: from an approved code along every rotation of its chain.
import OauthAs.Protocol.Traces

/-!
# Grants only narrow

Each request issues tokens within what it redeemed: a code, or the record of the chain it
continues (`Ledger.Vouched`). Rotations compose, so every refresh record that is known goes back
to the first record of its family, on terms within it and with its deadline (`Ledger.Founds`), and
that one is within the code. A family is named by a string that one request drew, which makes the
code of a family a single one.
-/

namespace OauthAs

/-- A record of a chain, compared with the chain's first: the same grant, at most its terms, and
its deadline for as long as the record can be spent. -/
structure RefreshTokenRecord.StaysWithin (r first : RefreshTokenRecord) : Prop where
  grant : r.SameGrant first
  narrows : r.terms.Narrows first.terms
  expiry : r.state = .active → r.expiresAt = first.expiresAt

theorem RefreshTokenRecord.StaysWithin.refl (r : RefreshTokenRecord) : r.StaysWithin r :=
  ⟨.refl r, .refl _, fun _ => rfl⟩

namespace RefreshTokenRecord.StaysWithin

variable {srv : Server} {r s first : RefreshTokenRecord}

theorem derives (h : s.StaysWithin first) (hr : r.Derives s) : r.StaysWithin first where
  grant := hr.grant.trans h.grant
  narrows := hr.terms ▸ h.narrows
  expiry := fun hactive => hr.eq_of_active hactive ▸ h.expiry (hr.eq_of_active hactive ▸ hactive)

theorem inherits (h : s.StaysWithin first) (hr : r.Inherits srv s) : r.StaysWithin first where
  grant := hr.grant.trans h.grant
  narrows := hr.offers.narrows.trans h.narrows
  expiry := fun _ => hr.expiry.trans (h.expiry hr.active)

end RefreshTokenRecord.StaysWithin

/-! ## Where a chain comes from -/

namespace Ledger

variable {srv : Server} {l l' : Ledger}

/-- The request started the family of the record with `first`, and the record has stayed within
it. -/
structure Founds (srv : Server) (l : Ledger) (first r : RefreshTokenRecord) : Prop where
  wrote : l.chain.successor = some first
  roots : l.Roots srv first.clientId first.familyId first.subject first.grantEstablishedAt
  draws : l.Draws srv first.terms
  within : r.StaysWithin first

theorem Founds.grows {first r s : RefreshTokenRecord} (h : l.Founds srv first s) (hg : l.Grows l')
    (hwithin : r.StaysWithin first) : l'.Founds srv first r :=
  ⟨hg.successor first h.wrote, h.roots.mono hg, h.draws.mono hg, hwithin⟩

end Ledger

section Founded
variable {srv : Server} {w w' : World} {ls ls' : List Ledger} {r s : RefreshTokenRecord}

/-- Some request started the family of the record, which has stayed within what it started with. -/
def Founded (srv : Server) (ls : List Ledger) (r : RefreshTokenRecord) : Prop :=
  ∃ l ∈ ls, ∃ first, l.Founds srv first r

/-- What stays within what the chain started with is founded there too. -/
theorem Founded.turns (h : Founded srv ls s) (ht : srv.Turns w ls w' ls')
    (hwithin : ∀ first, s.StaysWithin first → r.StaysWithin first) : Founded srv ls' r := by
  obtain ⟨l, hl, first, hfounds⟩ := h
  obtain ⟨l', hl', hg⟩ := ht.grows_mem hl
  exact ⟨l', hl', first, hfounds.grows hg (hwithin first hfounds.within)⟩

/-- One move keeps every known record founded: it was known before in some form, or it inherits
from one that was, or it starts a chain. -/
theorem founded_turns (ht : srv.Turns w ls w' ls') (h : ∀ r, Known w ls r → Founded srv ls r)
    (hr : Known w' ls' r) : Founded srv ls' r := by
  rcases known_step ht hr with ⟨s, hs, hderives⟩ | ⟨l, hl, l', hl', hg, hmints, hsucc⟩
  · exact (h s hs).turns ht fun _ hwithin => hwithin.derives hderives
  · rcases hmints.grant with ⟨s, hs, hinherits⟩ | ⟨hroots, hdraws⟩
    · exact (h s (.of_record hl hs)).turns ht fun _ hwithin => hwithin.inherits hinherits
    · exact ⟨l', hl', r, hsucc, hroots.mono hg, hdraws.mono hg, .refl r⟩

theorem Server.founded {ok} {clock : SystemTime} {s : State} (h : srv.Runs ok clock s)
    (hr : Known s.world (srv.discipline.ledgers s) r) :
    Founded srv (srv.discipline.ledgers s) r := by
  refine Discipline.invariant (D := srv.discipline) (I := fun w ls => ∀ r, Known w ls r →
    Founded srv ls r) h ?_ (fun _ _ _ _ hI hl _ hr => ?_) r hr
  · rintro r (hrow | ⟨l, hl, -⟩)
    · exact (Table.mem_empty hrow).elim
    · cases hl
  · exact founded_turns (moves_of_ledgerStep hl).turns hI hr

end Founded

/-! ## Along a run -/

/-- Two access tokens of one grant that report the same authentication. -/
structure IssuedToken.SameChain (t first : IssuedToken) : Prop where
  client : t.clientId = first.clientId
  family : t.familyId = first.familyId
  subject : t.subject = first.subject
  established : t.grantEstablishedAt = first.grantEstablishedAt
  authentication : t.authentication = first.authentication

section Run
variable {srv : Server} {ok : State → Move → State → Prop} {clock : SystemTime} {s : State} {c : Call}
  {t : IssuedToken}

section Reached
variable (h : srv.Runs ok clock s) (hc : c ∈ s.threads)

include h hc

/-- What a redemption issues is within the code it took. -/
theorem redeemed_of_writes {p : CodePresentation}
    (hq : c.request = .authorizationCodeToken p) (ht : c.Writes t) :
    ∃ code, (srv.discipline.ledger c).codes.redeemed = some code ∧
      c.Did (.storage (.takeAuthorizationCode p.code)) (.ok (some code)) ∧
      srv.Offers t.terms code.terms ∧ t.clientId = code.clientId ∧
      t.subject = some code.subject ∧ t.grantEstablishedAt = code.issuedAt ∧
      (srv.discipline.ledger c).OwnFamily t.familyId := by
  have hl := Discipline.mem_ledgers (D := srv.discipline) hc
  have hrequest := (srv.ledger_request c).trans hq
  obtain ⟨hgrant, hdraws⟩ := Server.vouched h _ hl t (access_of_writes h hc ht)
  simp only [Ledger.Grants, Ledger.Draws, hrequest] at hgrant hdraws
  obtain ⟨code, hcode, hclient, hsubject, hestablished, hown⟩ := hgrant
  obtain ⟨code', hcode', hoffers⟩ := hdraws
  cases hcode.symm.trans hcode'
  obtain ⟨p', hp', hkey⟩ := ((Server.codeCustody h).coherent _ hl).presented code (.inr (.inl hcode))
  cases hrequest.symm.trans hp'
  obtain ⟨x, hdid⟩ := did_of_redeemed hcode
  have hx : code.code = x := Discipline.did (D := srv.discipline) (Φ := fun _ => code.code = x) h hc
    hdid (fun _ _ _ _ _ hpossible => Table.key_of_lookup (Except.ok.inj hpossible.choose_spec))
    fun _ _ _ hx _ _ => hx
  rw [← hkey, hx]
  exact ⟨code, hcode, hdid, hoffers, hclient, hsubject, hestablished, hown⟩

/-- What a refresh issues is within a record it found under the string it presented. -/
theorem continued_of_writes {p : RefreshPresentation}
    (hq : c.request = .refreshToken p) (ht : c.Writes t) :
    ∃ r, Known s.world (srv.discipline.ledgers s) r ∧ c.DrawsOn r ∧
      r.refreshToken = p.refreshToken ∧ t.SameGrant r ∧ srv.Offers t.terms r.terms := by
  have hl := Discipline.mem_ledgers (D := srv.discipline) hc
  have hrequest := (srv.ledger_request c).trans hq
  obtain ⟨hgrant, hdraws⟩ := Server.vouched h _ hl t (access_of_writes h hc ht)
  simp only [Ledger.Grants, Ledger.Draws, hrequest] at hgrant hdraws
  have hknown : ∀ {r}, (srv.discipline.ledger c).Continues srv r →
      Known s.world (srv.discipline.ledgers s) r := by
    intro r hr
    refine .of_record hl (ChainLedger.mem_records.mpr ?_)
    exact hr.elim (fun hrotated => .inr (.inr (.inl hrotated))) fun hread => .inl hread.2
  obtain ⟨r₁, hr₁, hkey₁, hclient, hfamily, hsubject, hestablished, -⟩ := hgrant
  obtain ⟨r, hr, hkey, -, hoffers⟩ := hdraws
  -- One string, one grant: the two records differ at most in what they are worth.
  obtain ⟨h1, h2, h3, h4⟩ :=
    (Server.provenance h).sameGrant (hknown hr₁) (hknown hr) (hkey₁.trans hkey.symm)
  refine ⟨r, hknown hr, drawsOn_of_continues hr, hkey, ?_, hoffers⟩
  exact ⟨hclient.trans h1, hfamily.trans (congrArg some h2), hsubject.trans h3, hestablished.trans h4⟩

/-- The family a redemption drew is the one it founded: its records are within its code. -/
theorem founded_by_redemption {p : CodePresentation} {code : AuthorizationCodeRecord} {f : String}
    {r : RefreshTokenRecord} (hq : c.request = .authorizationCodeToken p)
    (hcode : (srv.discipline.ledger c).codes.redeemed = some code)
    (hown : (srv.discipline.ledger c).OwnFamily (some f))
    (hr : Known s.world (srv.discipline.ledgers s) r) (hf : r.familyId = f) :
    ∃ first, c.Files first ∧ r.StaysWithin first ∧ srv.Offers first.terms code.terms ∧
      first.clientId = code.clientId ∧ first.subject = some code.subject ∧
      first.grantEstablishedAt = code.issuedAt := by
  have hP := Server.provenance h
  have hl := Discipline.mem_ledgers (D := srv.discipline) hc
  obtain ⟨m, hm, first, hfounds⟩ := Server.founded h hr
  obtain ⟨e, he, hfe⟩ := hown f rfl
  obtain ⟨e', he', hfe'⟩ := hfounds.roots.family
  -- The family's name was drawn by the redemption and by whoever founded it.
  have hname : e.family.text = e'.family.text := by
    rw [← hfe, ← hf, hfounds.within.grant.2.1, hfe']
  cases hP.fresh.eq_of_drawn hl hm (hP.family_drawn hl he).1 (hname ▸ (hP.family_drawn hm he').1)
  have hgrant := hfounds.roots.grant
  have hdraws := hfounds.draws
  simp only [Ledger.Grants, Ledger.Draws, (srv.ledger_request c).trans hq] at hgrant hdraws
  obtain ⟨code₁, hcode₁, hclient, hsubject, hestablished, -⟩ := hgrant
  obtain ⟨code₂, hcode₂, hoffers⟩ := hdraws
  cases hcode.symm.trans hcode₁
  cases hcode.symm.trans hcode₂
  exact ⟨first, files_of_successor hfounds.wrote, hfounds.within, hoffers, hclient, hsubject,
    hestablished⟩

end Reached

/-- A grant only narrows. Let a redemption of a code have written an access token. It took the
code, and the token is on terms within it, for resources the server permits. Every access token a
refresh wrote is on terms within the record it found under the string it presented, and if that
record is of the redemption's family then also within the code and otherwise the same as the first
token. The refresh records of the family have the grant and, while they can be spent, the deadline
of the first one, on terms within it. -/
theorem grant_only_narrows (h : srv.Reachable s) (hc : c ∈ s.threads) {p : CodePresentation}
    (hq : c.request = .authorizationCodeToken p) (ht : c.Writes t) :
    ∃ code, c.Did (.storage (.takeAuthorizationCode p.code)) (.ok (some code)) ∧
      srv.Offers t.terms code.terms ∧ t.clientId = code.clientId ∧
      t.subject = some code.subject ∧ t.grantEstablishedAt = code.issuedAt ∧
      ∀ f, t.familyId = some f →
        (∀ c' ∈ s.threads, ∀ p' t', c'.request = .refreshToken p' → Call.Writes c' t' →
          ∃ r, Call.DrawsOn c' r ∧ r.refreshToken = p'.refreshToken ∧ t'.SameGrant r ∧
            srv.Offers t'.terms r.terms ∧
            (r.familyId = f → t'.SameChain t ∧ srv.Offers t'.terms code.terms)) ∧
        ∀ r ∈ s.world.store.refresh, r.familyId = f → ∃ first, c.Files first ∧
          t.SameGrant first ∧ r.StaysWithin first ∧ srv.Offers first.terms code.terms := by
  obtain ⟨clock, h⟩ := h
  obtain ⟨code, hcode, hdid, hoffers, hclient, hsubject, hestablished, hown⟩ :=
    redeemed_of_writes h hc hq ht
  refine ⟨code, hdid, hoffers, hclient, hsubject, hestablished, fun f hf => ⟨?_, ?_⟩⟩
  · intro c' hc' p' t' hq' ht'
    obtain ⟨r, hr, hdraws, hkey, hsame, hoffers'⟩ := continued_of_writes h hc' hq' ht'
    refine ⟨r, hdraws, hkey, hsame, hoffers', fun hrf => ?_⟩
    obtain ⟨first, -, hwithin, hfirst, hc1, hs1, he1⟩ :=
      founded_by_redemption h hc hq hcode (hf ▸ hown) hr hrf
    have hnarrows : t'.terms.Narrows code.terms :=
      hoffers'.narrows.trans (hwithin.narrows.trans hfirst.narrows)
    obtain ⟨hc2, hf2, hs2, he2⟩ := hsame
    obtain ⟨hc3, -, hs3, he3⟩ := hwithin.grant
    refine ⟨⟨?_, ?_, ?_, ?_, ?_⟩, hoffers'.permitted, hnarrows⟩
    · exact hc2.trans (hc3.trans (hc1.trans hclient.symm))
    · exact hf2.trans ((congrArg some hrf).trans hf.symm)
    · exact hs2.trans (hs3.trans (hs1.trans hsubject.symm))
    · exact he2.trans (he3.trans (he1.trans hestablished.symm))
    · exact hnarrows.authentication.trans hoffers.narrows.authentication.symm
  · intro r hr hrf
    obtain ⟨first, hfiles, hwithin, hfirst, hc1, hs1, he1⟩ :=
      founded_by_redemption h hc hq hcode (hf ▸ hown) (.inl hr) hrf
    refine ⟨first, hfiles, ⟨?_, ?_, ?_, ?_⟩, hwithin, hfirst⟩
    · exact hclient.trans hc1.symm
    · rw [hf, ← hrf, hwithin.grant.2.1]
    · exact hsubject.trans hs1.symm
    · exact hestablished.trans he1.symm

end Run

namespace Sample

def transfer (actions : List String) : AuthorizationDetail :=
  ⟨"transfer", [], actions, [], none, [], .nil⟩

/-- The user approves two scopes, two resources and a detail with two actions. -/
def generous : UserApproval :=
  { approval with request :=
    { approval.request with
      scope := .ofTokens (reading.tokens ++ [⟨"write", by decide⟩])
      resource := ["https://a.example", "https://b.example"]
      authorizationDetails := [transfer ["list", "pay"]] } }

/-- One of the resources is asked for. -/
def forOne : CodePresentation :=
  { presentation "app" with requestedResources := ["https://a.example"] }

/-- One of each is asked for. -/
def forLess : RefreshPresentation :=
  { refreshing (entropy 1).refresh.text with
    requestedScope := some reading
    requestedResources := ["https://a.example"]
    requestedDetails := [transfer ["list"]] }

/-- The code is redeemed and its refresh token rotated once. -/
def narrows : List Move :=
  registers 0 { app with allowedScopes := generous.request.scope } ++ issuesCode 1 generous ++
    redeems 2 forOne 1 ++ rotates 3 forLess 2

/-- Both tokens are for one of the resources, and the later one has less of everything. -/
def lessThan (t t' : IssuedToken) : Answered → Bool
  | ⟨.storage (.takeAuthorizationCode _), .ok (some code)⟩ =>
    decide (t.resource ≠ code.resource ∧ t'.scope ≠ code.scope ∧ t'.resource ≠ code.resource ∧
      t'.authorizationDetails ≠ code.authorizationDetails)
  | _ => true

end Sample

theorem grant_only_narrows_rotated : ∃ (s : State) (c c' : Call) (t t' : IssuedToken)
    (code : AuthorizationCodeRecord),
    Sample.server.semantics.run (State.idle (.initial 0)) Sample.narrows = some s ∧
      c.Did (.storage (.takeAuthorizationCode Sample.code)) (.ok (some code)) ∧ c.Writes t ∧
      c'.Writes t' ∧ t'.accessToken ≠ t.accessToken ∧ t'.SameChain t ∧
      t'.terms.Narrows code.terms ∧ t.resource ≠ code.resource ∧ t'.scope ≠ code.scope ∧
      t'.resource ≠ code.resource ∧ t'.authorizationDetails ≠ code.authorizationDetails := by
  obtain ⟨s, hs, c, hc, c', hc', t, ht, t', ht', hq, hq', hfamily, hsame, hne, hless⟩ :
      ∃ s ∈ Sample.server.semantics.run (State.idle (.initial 0)) Sample.narrows,
      ∃ c ∈ s.threads[2]?, ∃ c' ∈ s.threads[3]?, ∃ t ∈ Sample.written c.trace,
        ∃ t' ∈ Sample.written c'.trace, c.request = .authorizationCodeToken Sample.forOne ∧
          c'.request = .refreshToken Sample.forLess ∧
          t.familyId = some (Sample.entropy 1).family.text ∧ t'.familyId = t.familyId ∧
          t'.accessToken ≠ t.accessToken ∧ c.trace.all (Sample.lessThan t t') = true := by
    decide +kernel
  have hwrites : Call.Writes c t := .inl (Sample.mem_of_written ht)
  have hwrites' : Call.Writes c' t' := .inl (Sample.mem_of_written ht')
  obtain ⟨code, hdid, -, -, -, -, hchain⟩ := grant_only_narrows
    ⟨0, Semantics.reaches_of_run hs⟩ (List.mem_of_getElem? hc) hq hwrites
  obtain ⟨r, -, -, hgrant, -, hrest⟩ :=
    (hchain _ hfamily).1 c' (List.mem_of_getElem? hc') _ t' hq' hwrites'
  obtain ⟨hsamechain, hoffers⟩ :=
    hrest (Option.some.inj (hgrant.2.1.symm.trans (hsame.trans hfamily)))
  exact ⟨s, c, c', t, t', code, hs, hdid, hwrites, hwrites', hne, hsamechain, hoffers.narrows,
    of_decide_eq_true (List.all_eq_true.mp hless _ hdid)⟩

/-! ## Asking for granted details

`narrow` gives each requested detail, in order, the first granted detail that is still free and
that it narrows. An early element may take the only granted detail that a later one could have
had, so a request that could be matched may be refused. If the later one could do with whatever
else the early one narrows, the two can trade places. -/

namespace AuthorizationDetails

/-- If two requested details narrow the same granted one, then the later of them also narrows every
granted detail behind it that the earlier one narrows. -/
def Yields (requested granted : AuthorizationDetails) : Prop :=
  ∀ (i j : Fin requested.length) (k k' : Fin granted.length), i < j → k < k' →
    (requested.get i).isNarrowingOf (granted.get k) = true →
    (requested.get i).isNarrowingOf (granted.get k') = true →
    (requested.get j).isNarrowingOf (granted.get k) = true →
    (requested.get j).isNarrowingOf (granted.get k') = true

instance (requested granted : AuthorizationDetails) : Decidable (Yields requested granted) := by
  unfold Yields
  infer_instance

theorem Yields.unobstructed {requested granted : AuthorizationDetails} (h : Yields requested granted) :
    Unobstructed requested (granted.map (false, ·)) := by
  intro i j k k' hij hkk hik hik' hjk
  let a : Fin granted.length := ⟨k, hik.lt⟩
  let b : Fin granted.length := ⟨k', hik'.lt⟩
  exact (free_map (k := b)).mpr (h i j a b hij hkk ((free_map (k := a)).mp hik)
    ((free_map (k := b)).mp hik') ((free_map (k := a)).mp hjk))

/-- A detail that grants some actions on accounts. -/
def accountActions (actions : List String) : AuthorizationDetail :=
  ⟨"account_information", [], actions, [], none, [], .nil⟩

/-- One detail that reads and writes, and one that only reads. -/
def writesAndReads : AuthorizationDetails :=
  [accountActions ["read", "write"], accountActions ["read"]]

end AuthorizationDetails

end OauthAs
