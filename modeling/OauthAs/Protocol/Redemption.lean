-- SUMMARY: The code endpoint keeps to the protocol: put-backs, replays and redemptions.
import OauthAs.Protocol.Rules

namespace OauthAs

open Prog Handler

namespace Ledger

/-- What containing a replay leaves alone. -/
structure Containing (l l' : Ledger) : Prop where
  request : l'.request = l.request
  codes : l'.codes = l.codes
  access : l'.issue.access = l.issue.access
  successor : l'.chain.successor = l.chain.successor

/-- The family behind a refresh string was revoked, unless the lookup found nothing. -/
def Contains (l : Ledger) (refreshToken : Option String) : Prop :=
  ∀ rt, refreshToken = some rt → rt ∈ l.chain.missed ∨
    ∃ rec ∈ l.chain.reads, rec.refreshToken = rt ∧ rec.familyId ∈ l.chain.revoked

end Ledger

namespace Server

variable {srv : Server} {l : Ledger} {p : CodePresentation} {err : ErrorResponse → Ledger → Prop}
variable {record : AuthorizationCodeRecord} {ok : TokenResponse → Ledger → Prop} {args : IssueArgs}
  {resources : List String}

theorem wpE_containFamily {refreshToken : Option String} {ok : Containment → Ledger → Prop}
    (hrequest : l.request = .authorizationCodeToken p) (hreplayed : l.codes.replayed ≠ none)
    (hok : ∀ l' c, l.Containing l' → (c.failed = false → l'.Contains refreshToken) → ok c l') :
    wpE srv.protocol (srv.containFamily refreshToken) l ok err := by
  unfold containFamily
  split
  · exact wpE_pure.mpr (hok _ _ ⟨rfl, rfl, rfl, rfl⟩ fun _ => nofun)
  · rename_i rt
    rw [wpE_bind, wpE_tryStore_total rfl]
    refine ⟨trivial, fun g found hfound => ?_⟩
    cases found with
    | none =>
      refine wpE_pure.mpr (hok _ _ ⟨rfl, rfl, rfl, rfl⟩ fun _ rt' hrt => .inl ?_)
      cases hrt
      exact List.mem_cons_self
    | some record =>
      have hkey : record.refreshToken = rt := Table.key_of_lookup (Except.ok.inj hfound)
      simp only
      rw [wpE_bind]
      refine wpE_revocationWindow fun t window hwindow => ?_
      rw [wpE_bind, wpE_tryStore]
      refine ⟨⟨⟨record, .inl List.mem_cons_self, rfl, fun _ _ => hreplayed, ?_⟩, hwindow⟩,
        fun g => ?_⟩
      · intro q hq
        cases hrequest.symm.trans hq
      · split
        · rename_i n hn
          refine wpE_pure.mpr (hok _ _ ?_ fun _ rt' hrt => .inr ?_)
          · rw [hn]
            exact ⟨rfl, rfl, rfl, rfl⟩
          · cases hrt
            rw [hn]
            exact ⟨record, List.mem_cons_self, hkey, List.mem_cons_self⟩
        · rename_i e he
          refine wpE_pure.mpr (hok _ _ ?_ nofun)
          rw [he]
          exact ⟨rfl, rfl, rfl, rfl⟩

theorem wpE_containAccess {contained : Containment} {accessToken : Option String}
    {ok : Containment → Ledger → Prop}
    (hok : ∀ l', l.Containing l' → l'.chain = l.chain → ok contained l') :
    wpE srv.protocol (containAccess contained accessToken) l ok err := by
  unfold containAccess
  refine wpE_ite.mpr ⟨fun _ => wpE_pure.mpr (hok l ⟨rfl, rfl, rfl, rfl⟩ rfl), fun _ => ?_⟩
  split
  · exact wpE_pure.mpr (hok l ⟨rfl, rfl, rfl, rfl⟩ rfl)
  · rw [wpE_bind, wpE_tryStore_total rfl]
    exact ⟨trivial, fun _ _ _ => wpE_pure.mpr (hok _ ⟨rfl, rfl, rfl, rfl⟩ rfl)⟩

/-- A replay reports what it contained and refuses. -/
theorem wpE_replayCode {client : Client} {a b : Option String}
    (hrequest : l.request = .authorizationCodeToken p) (hhand : l.codes.hand = some record)
    (hreplayed : l.codes.replayed = some record) (hminted : record.state.minted = some (a, b))
    (hredeemed : l.codes.redeemed = none) (hswapped : l.codes.swapped = none)
    (haccess : l.issue.access = none) (hsuccessor : l.chain.successor = none)
    (herr : ∀ l' e, l'.request = l.request → l'.Refused srv → err e l') :
    wpE srv.protocol (srv.replayCode client record a b) l ok err := by
  unfold replayCode
  rw [wpE_bind]
  refine wpE_containFamily hrequest (by rw [hreplayed]; nofun) fun l₁ contained h₁ hcontains => ?_
  rw [wpE_bind]
  refine wpE_containAccess fun l₂ h₂ hchain => ?_
  rw [wpE_bind, wpE_tryStore_total rfl]
  have hcodes : l₂.codes = l.codes := h₂.codes.trans h₁.codes
  refine ⟨?_, fun g _ _ => ?_⟩
  · exact .mark (by rw [hcodes, hhand]) (by rw [hcodes, hreplayed]) hminted
  · rw [wpE_bind, wpE_emit]
    refine ⟨?_, wpE_throw.mpr (herr _ _ (h₂.request.trans h₁.request) ?_)⟩
    · simp only [Except.isOk, Except.toBool, Bool.not_true, Bool.or_false]
      cases hfailed : contained.failed with
      | true => trivial
      | false =>
        refine ⟨record, a, b, ?_, hminted, ?_⟩
        · change l₂.codes.replayed = _
          rw [hcodes, hreplayed]
        · change l₂.Contains b
          unfold Ledger.Contains
          rw [hchain]
          exact hcontains hfailed
    · refine ⟨?_, .of_none ?_ ?_, .inl rfl, ?_⟩
      · change l₂.codes.swapped ≠ _
        rw [hcodes, hswapped]
        nofun
      · exact (h₂.access.trans h₁.access).trans haccess
      · exact (h₂.successor.trans h₁.successor).trans hsuccessor
      · intro r hr
        have hnone : l₂.codes.redeemed = some r := hr
        rw [hcodes, hredeemed] at hnone
        cases hnone

/-! ## Redemption -/

/-- The final swap records the issuance, or everything issued is taken back. -/
theorem wpE_recordRedemption {issued : TokenResponse}
    (hrequest : l.request = .authorizationCodeToken p) (hredeemed : l.codes.redeemed = some record)
    (hhand : l.codes.hand = none) (hswapped : l.codes.swapped = none) (hanswers : l.Answers issued)
    (hok : ∀ l', l'.request = l.request → l'.codes.swapped = some true →
      l'.codes.redeemed = some record → l'.codes.recorded =
        some { record with state := .consumed (some issued.accessToken) issued.refreshToken } →
      l'.Answers issued → ok issued l')
    (herr : ∀ l' e, l'.request = l.request → l'.Refused srv → err e l') :
    wpE srv.protocol (recordRedemption { record with state := .consumed none none } issued) l ok
      err := by
  obtain ⟨⟨t, haccess, htoken⟩, hsuccessor⟩ := hanswers
  unfold recordRedemption
  rw [wpE_bind, wpE_tryStore_total rfl]
  refine ⟨⟨rfl, hswapped, hhand, record, t, hredeemed, haccess, ?_⟩, fun g done _ => ?_⟩
  · rw [htoken, hsuccessor]
  cases done with
  | true => exact wpE_pure.mpr (hok _ rfl rfl hredeemed rfl ⟨⟨t, haccess, htoken⟩, hsuccessor⟩)
  | false =>
    simp only [undoIssuance]
    rw [wpE_bind, wpE_bind, wpE_tryStore_total rfl]
    refine ⟨trivial, fun g _ _ => wpE_pure.mpr ?_⟩
    have hdeleted : ∀ u, l.issue.access = some u → u.accessToken = issued.accessToken := by
      intro u hu
      cases haccess.symm.trans hu
      exact htoken.symm
    split
    · rename_i rt hrt
      obtain ⟨r, hr, hkey⟩ := Option.map_eq_some_iff.mp (hsuccessor.symm.trans hrt)
      rw [wpE_bind, wpE_tryStore_total rfl]
      refine ⟨?_, fun g taken _ => wpE_throw.mpr (herr _ _ rfl ?_)⟩
      · simp only [Ledger.MayStore, Ledger.TakesRefresh, Ledger.stored, hrequest]
        exact ⟨r, hr, hkey.symm⟩
      · refine ⟨by rintro ⟨⟩, ⟨fun u hu => ?_, fun r' hr' => ?_⟩, .inl hhand, fun _ _ => .inl rfl⟩
        · exact List.mem_cons.mpr (.inl (hdeleted u hu))
        · cases hr.symm.trans hr'
          exact List.mem_cons.mpr (.inl hkey)
    · rename_i hnone
      refine wpE_throw.mpr (herr _ _ rfl ?_)
      refine ⟨by rintro ⟨⟩, ⟨fun u hu => ?_, fun r' hr' => ?_⟩, .inl hhand, fun _ _ => .inl rfl⟩
      · exact List.mem_cons.mpr (.inl (hdeleted u hu))
      · have hkey : l.successorKey = some r'.refreshToken := by
          simp only [Ledger.successorKey]
          exact congrArg _ hr'
        rw [← hsuccessor, hnone] at hkey
        cases hkey

/-- A refusal that puts the record back. -/
theorem wpE_putBackCode {error : ErrorResponse} (hhand : l.codes.hand = some record)
    (hfair : l.codes.replayed = none)
    (herr : err error { l with codes := l.codes.put record, identifier := none }) :
    wpE srv.protocol (putBackCode record error) l ok err := by
  unfold putBackCode
  rw [wpE_bind, wpE_tryStore_total rfl]
  exact ⟨.putBack hhand hfair, fun _ _ _ => wpE_throw.mpr herr⟩

theorem familyFor_none {e : TokenEntropy} (h : args.chain = none) :
    srv.familyFor args e = if srv.issuesRefresh args then some e.family.text else none := by
  simp [familyFor, h]

/-- A new grant's family is its own. -/
theorem ownFamily_familyFor {e : TokenEntropy} (h : args.chain = none)
    (hentropy : l.issue.entropy = some e) : l.OwnFamily (srv.familyFor args e) := by
  intro f hf
  rw [familyFor_none h] at hf
  split at hf
  · cases hf
    exact ⟨e, hentropy, rfl⟩
  · cases hf

/-- A new grant that gets a refresh token has the right to start its family. -/
theorem mint_of_chain_none (h : args.chain = none) (hrequest : l.request.isRefresh = false)
    (e : TokenEntropy) (hissues : srv.issuesRefresh args = true) :
    (l.next .tokenEntropy (some e)).chain.mint = srv.familyFor args e := by
  rw [mint_next_entropy, familyFor_none h, hrequest, hissues]
  rfl

/-- Nothing of a redemption has happened yet. -/
structure Untouched (l : Ledger) : Prop extends l.Ready where
  redeemed : l.codes.redeemed = none
  replayed : l.codes.replayed = none
  swapped : l.codes.swapped = none

/-- A redemption that may go ahead is offered terms within the code's. -/
theorem offers_of_judgeCode {granted : List String × AuthorizationDetails}
    (hpermits : srv.Permits resources) (h : srv.judgeCode record p resources = .ok granted) :
    srv.Offers ⟨record.scope, granted.1, granted.2, record.authentication⟩ record.terms := by
  unfold judgeCode at h
  repeat' split at h
  all_goals first | cases h | exact offers_of_narrowGrant (List.Subset.refl _) hpermits h

theorem wpE_redeemCode {client : Client} (hrequest : l.request = .authorizationCodeToken p)
    (hfresh : Untouched l) (hhand : l.codes.hand = some record) (hissued : record.state = .issued)
    (howner : record.clientId = client.clientId) (hclient : client.clientId = p.clientId)
    (hpermits : srv.Permits resources)
    (hok : ∀ l' response, l'.request = l.request → l'.codes.swapped = some true →
      l'.codes.redeemed = some record → l'.codes.recorded =
        some { record with state := .consumed (some response.accessToken) response.refreshToken } →
      l'.Answers response → ok response l')
    (herr : ∀ l' e, l'.request = l.request → l'.Refused srv → err e l') :
    wpE srv.protocol (srv.redeemCode client p resources record) l ok err := by
  have hnothing : l.TookBack := .of_none hfresh.access hfresh.successor
  unfold redeemCode
  rw [wpE_bind, wpE_now]
  intro now
  refine wpE_ite.mpr ⟨fun hexpired => wpE_throw.mpr (herr _ _ rfl ?_), fun _ => ?_⟩
  · refine ⟨?_, hnothing, .inr ⟨record, hhand, now, List.mem_cons_self, hexpired⟩, ?_⟩
    · intro h
      cases hfresh.swapped.symm.trans h
    · intro r hr
      cases hfresh.redeemed.symm.trans hr
  split
  · refine wpE_putBackCode hhand hfresh.replayed (herr _ _ rfl ?_)
    refine ⟨?_, hnothing, .inl rfl, ?_⟩
    · intro h
      cases hfresh.swapped.symm.trans h
    · intro r hr
      simp [Ledger.tick, CodeLedger.put, hissued, hfresh.redeemed] at hr
  · rename_i granted hjudged
    rw [wpE_bind, wpE_store_total rfl]
    refine ⟨.consume hrequest hhand hfresh.replayed hfresh.redeemed hissued (howner.trans hclient),
      fun g _ _ => ?_⟩
    set l₁ := (l.tick [now]).stored
      (.putAuthorizationCode { record with state := .consumed none none }) () with hl₁
    have hredeemed : l₁.codes.redeemed = some record := by
      simp [hl₁, Ledger.stored, Ledger.tick, CodeLedger.put, hhand, hissued]
    rw [wpE_bind]
    refine wpE_issue ⟨hfresh.entropy, hfresh.wire, hfresh.access, hfresh.deleted, hfresh.held,
      hfresh.successor⟩ rfl (.inl rfl) ?_ ?_ ?_ ?_ ?_ ?_
    · intro l' e hissuing hentropy
      have hq : l'.request = .authorizationCodeToken p := hissuing.request.trans hrequest
      simp only [Ledger.Grants, hq]
      refine ⟨record, ?_, howner.symm, rfl, rfl, ownFamily_familyFor rfl hentropy⟩
      rw [hissuing.codes, hredeemed]
    · intro l' hissuing
      have hq : l'.request = .authorizationCodeToken p := hissuing.request.trans hrequest
      simp only [Ledger.Draws, hq]
      refine ⟨record, ?_, offers_of_judgeCode hpermits hjudged⟩
      rw [hissuing.codes, hredeemed]
    · intro q hq
      cases hrequest.symm.trans hq
    · refine mint_of_chain_none rfl ?_
      change l.request.isRefresh = false
      rw [hrequest]
      rfl
    · intro l' response hissuing hanswers
      refine wpE_recordRedemption (hissuing.request.trans hrequest) ?_ ?_ ?_ hanswers ?_ ?_
      · rw [hissuing.codes, hredeemed]
      · rw [hissuing.codes]
        rfl
      · rw [hissuing.codes]
        exact hfresh.swapped
      · intro l'' hq hswapped hr hrecorded ha
        exact hok l'' _ (hq.trans hissuing.request) hswapped hr hrecorded ha
      · intro l'' e hq hrefused
        exact herr l'' e (hq.trans hissuing.request) hrefused
    · intro l' e hissuing haborted _
      refine herr l' e hissuing.request ⟨?_, haborted.tookBack, .inl ?_, ?_⟩
      · rw [hissuing.codes]
        intro h
        cases hfresh.swapped.symm.trans h
      · rw [hissuing.codes]
        rfl
      · exact fun _ _ => .inr haborted.reason

/-- The code endpoint keeps to the protocol. -/
theorem follows_authorizationCodeToken (p : CodePresentation) (hpermits : srv.Permits resources) :
    wpE srv.protocol (srv.authorizationCodeToken p resources) (.start (.authorizationCodeToken p))
      (fun response l => l.Accepts srv (.token (.ok response)))
      (fun e l => l.Accepts srv (.token (.error e))) := by
  have haccepts : ∀ (l : Ledger) e, l.request = .authorizationCodeToken p → l.Refused srv →
      l.Accepts srv (.token (.error e)) := by
    intro l e hq hrefused
    simpa only [Ledger.Accepts, hq] using hrefused
  have hidle : ∀ cs ts, ((Ledger.start (.authorizationCodeToken p)).read cs ts).Refused srv := by
    intro cs ts
    refine ⟨?_, .of_none rfl rfl, .inl rfl, ?_⟩
    · intro h
      cases h
    · intro _ h
      cases h
  unfold authorizationCodeToken
  rw [wpE_bind]
  refine wpE_authenticateClient (fun cs ts client hclient _ => ?_)
    fun cs ts => haccepts _ _ rfl (hidle cs ts)
  refine wpE_ite.mpr ⟨fun _ => wpE_throw.mpr (haccepts _ _ rfl (hidle cs ts)), fun _ => ?_⟩
  rw [wpE_bind, wpE_store_total rfl]
  refine ⟨⟨p, rfl, rfl, rfl, rfl, rfl⟩, fun g taken htaken => ?_⟩
  rw [wpE_bind, wpE_require]
  refine ⟨?_, fun hnone => ?_⟩
  swap
  · subst hnone
    exact haccepts _ _ rfl (hidle cs ts)
  rintro record rfl
  have hcode : record.code = p.code := Table.key_of_lookup (Except.ok.inj htaken)
  refine wpE_ite.mpr ⟨fun hforeign => ?_, fun howner => ?_⟩
  · -- A stranger: the record goes back unread.
    have hfair : Request.owns (.authorizationCodeToken p) record = false := by
      refine beq_eq_false_iff_ne.mpr fun h => hforeign ?_
      rw [hclient, h]
    rw [wpE_bind, wpE_store_total rfl]
    refine ⟨.putBack rfl ?_, fun g _ _ => wpE_throw.mpr (haccepts _ _ rfl ?_)⟩
    · simp [Ledger.stored, Ledger.read, Ledger.start, CodeLedger.take, hfair]
    · refine ⟨by rintro ⟨⟩, .of_none rfl rfl, .inl rfl, fun r hr => ?_⟩
      -- A record that is put back consumed was not issued when it was taken.
      have hput : ¬ (record.state = .consumed none none ∧ record.state = .issued) := by
        rintro ⟨h, h'⟩
        cases h.symm.trans h'
      simp [Ledger.stored, Ledger.read, Ledger.start, CodeLedger.take, CodeLedger.put, hput] at hr
  · have howns : Request.owns (.authorizationCodeToken p) record = true := by
      refine beq_iff_eq.mpr ?_
      rw [not_not.mp howner, hclient]
    split
    · rename_i a b hminted
      have hagain : record.state ≠ .issued := by
        intro h
        rw [AuthorizationCodeState.minted_eq_none.mpr h] at hminted
        cases hminted
      refine wpE_replayCode (p := p) rfl rfl ?_ hminted rfl rfl rfl rfl ?_
      · simp [Ledger.stored, Ledger.read, Ledger.start, CodeLedger.take, howns, hagain]
      · exact fun l' e hq hrefused => haccepts l' e hq hrefused
    · rename_i hminted
      have hissued := AuthorizationCodeState.minted_eq_none.mp hminted
      refine wpE_redeemCode rfl ⟨⟨rfl, rfl, rfl, rfl, rfl, rfl⟩, rfl, ?_, rfl⟩ rfl hissued
        (not_not.mp howner) hclient hpermits ?_ ?_
      · simp [Ledger.stored, Ledger.read, Ledger.start, CodeLedger.take, hissued]
      · intro l' response hq hswapped hredeemed hrecorded hanswers
        simp only [Ledger.Accepts, hq]
        exact ⟨hswapped, ⟨record, hredeemed, hcode, hrecorded⟩, hanswers⟩
      · exact fun l' e hq hrefused => haccepts l' e hq hrefused

end Server

end OauthAs
