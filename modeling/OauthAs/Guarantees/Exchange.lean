-- SUMMARY: Chains of token exchanges: authority only shrinks, and what becomes of the recorded actors.
import OauthAs.Protocol.Exchange
import OauthAs.Protocol.Provenance

/-!
# Chains of exchanges

A token that was issued by an exchange can be exchanged again. What an exchange makes of its
subject token (`IssuedToken.ExchangedFrom`) is composed along a chain of answered exchanges in one
run, with any other requests in between. That every link of the chain is about the same record as
the one before rests on strings: whatever is filed under an access token's string during a run is
one record (`Filing`), as long as the strings in the store the run starts from are never drawn
again.
-/

namespace OauthAs

/-! ## One record for each string -/

/-- The access token was stored when the run began, or written by one of its requests. -/
def Origin (w₀ : World) (ls : List Ledger) (t : IssuedToken) : Prop :=
  t ∈ w₀.store.tokens ∨ ∃ l ∈ ls, l.issue.access = some t

/-- The strings of the stored access tokens are not handed out again. -/
def World.Reserves (w : World) : Prop := ∀ t ∈ w.store.tokens, t.accessToken ∈ w.used

/-- What is stored or was read is a token of the start or of a request, and the requests draw no
string that was handed out before the start. -/
structure Filing (srv : Server) (w₀ w : World) (ls : List Ledger) : Prop where
  fresh : FreshStrings w ls
  used : w₀.used ⊆ w.used
  new : ∀ l ∈ ls, ∀ x ∈ l.drawn, x ∉ w₀.used
  coherent : ∀ l ∈ ls, l.Coherent srv
  tokens : ∀ t ∈ w.store.tokens, Origin w₀ ls t
  found : ∀ l ∈ ls, ∀ t ∈ l.issue.found, Origin w₀ ls t

section Filing
variable {srv : Server} {w₀ w w' : World} {ls ls' : List Ledger} {t : IssuedToken}

/-- A move hands out new strings only. -/
theorem drawn_step (h : srv.Moves w ls w' ls') {l' : Ledger} (hl' : l' ∈ ls') {x : String}
    (hx : x ∈ l'.drawn) : (∃ l ∈ ls, x ∈ l.drawn) ∨ x ∉ w.used := by
  have hset : ∀ {i : Nat} {l m : Ledger}, ls[i]? = some l → l' ∈ ls.set i m →
      (x ∈ m.drawn → x ∈ l.drawn ∨ x ∉ w.used) → (∃ l ∈ ls, x ∈ l.drawn) ∨ x ∉ w.used := by
    intro i l m hi hmem hnew
    rcases List.mem_or_eq_of_mem_set hmem with hold | rfl
    · exact .inl ⟨l', hold, hx⟩
    · exact (hnew hx).imp_left fun hx => ⟨l, List.mem_of_getElem? hi, hx⟩
  cases h with
  | spawn q =>
    rcases List.mem_append.mp hl' with hold | hnew
    · exact .inl ⟨l', hold, hx⟩
    · rw [List.mem_singleton.mp hnew] at hx
      cases hx
  | stored i l op a g hi may exec =>
    refine hset hi hl' fun hx => .inl ?_
    rwa [(Ledger.stored_keeps l op a).1] at hx
  | reads i l hi | setback i l hi => exact hset hi hl' .inl
  | draws i l e hi first fresh =>
    refine hset hi hl' fun hx => ?_
    exact (List.mem_append.mp hx).symm.imp_right (fresh.2 x)
  | names i l y hi fresh | signs i l y hi first fresh =>
    refine hset hi hl' fun hx => ?_
    refine (List.mem_cons.mp hx).symm.imp_right ?_
    rintro rfl
    exact fresh.2 x List.mem_cons_self
  | idle | tick elapsed | sweep now => exact .inl ⟨l', hl', hx⟩

theorem Origin.step (ht : srv.Turns w ls w' ls') (h : Origin w₀ ls t) : Origin w₀ ls' t := by
  exact h.imp_right (ht.exists_mono fun hg => hg.access t)

namespace Filing

theorem start : Filing srv w₀ w₀ [] :=
  ⟨⟨by simp, fun _ _ _ _ _ h => nomatch h⟩, List.Subset.refl _, by simp, by simp, fun _ h => .inl h,
    by simp⟩

theorem step (h : Filing srv w₀ w ls) (hm : srv.Moves w ls w' ls') : Filing srv w₀ w' ls' := by
  have ht := hm.turns
  refine ⟨h.fresh.step hm, List.Subset.trans h.used ht.used_subset, ?_, ?_, ?_, ?_⟩
  · intro l' hl' x hx
    rcases drawn_step hm hl' hx with ⟨l, hl, hold⟩ | hnew
    · exact h.new l hl x hold
    · exact fun hused => hnew (h.used hused)
  · exact coherent_turns ht h.coherent
  · intro t htok
    exact (tokens_turns ht htok).elim (fun hold => (h.tokens t hold).step ht) .inr
  · intro l' hl' t htok
    refine Origin.step ht ((found_turns ht hl' htok).elim ?_ (h.tokens t))
    exact fun ⟨l, hl, hold⟩ => h.found l hl t hold

/-- The string of a token a request wrote was drawn by that request. -/
theorem drawn (h : Filing srv w₀ w ls) {l : Ledger} (hl : l ∈ ls) (ht : l.issue.access = some t) :
    t.accessToken ∈ l.drawn :=
  (h.coherent l hl).access_drawn (h.fresh.accounted l hl) ht

theorem unique (h : Filing srv w₀ w ls) (hreserves : w₀.Reserves) {u : IssuedToken}
    (ht : Origin w₀ ls t) (hu : Origin w₀ ls u) (hkey : t.accessToken = u.accessToken) : t = u := by
  rcases ht with ht | ⟨l, hl, ht⟩
  · rcases hu with hu | ⟨m, hm, hu⟩
    · exact Table.eq_of_key_eq ht hu hkey
    · exact absurd (hkey ▸ hreserves t ht) (h.new m hm _ (h.drawn hm hu))
  · rcases hu with hu | ⟨m, hm, hu⟩
    · exact absurd (hkey ▸ hreserves u hu) (h.new l hl _ (h.drawn hl ht))
    · cases h.fresh.eq_of_drawn hl hm (h.drawn hl ht) (hkey ▸ h.drawn hm hu)
      exact Option.some.inj (ht.symm.trans hu)

end Filing

theorem Server.filing {ok} {s : State} (h : srv.semantics.Reaches ok (State.idle w₀) s) :
    Filing srv w₀ s.world (srv.discipline.ledgers s) :=
  Discipline.invariant (D := srv.discipline) (I := Filing srv w₀) h Filing.start
    fun _ _ _ _ hI hl => hI.step (moves_of_ledgerStep hl)

end Filing

/-! ## What an exchange did -/

/-- The request read this registration. -/
def Call.Consulted (c : Call) (client : Client) : Prop :=
  ∃ clientId, c.Did (.storage (.getClient clientId)) (.ok (some client))

/-- The request wrote this access token. -/
def Call.Issued (c : Call) (t : IssuedToken) : Prop :=
  c.Did (.storage (.putToken t)) (.ok .applied)

section Calls
variable {srv : Server} {ok : State → Move → State → Prop} {w₀ : World} {s : State} {c : Call}
variable {t : IssuedToken} {q : TokenExchangeRequest}

/-- What an answered call adds to the ledger of an exchange. -/
theorem ExchangeLedger.next_cases (l : ExchangeLedger) (e : Effect) (r : e.Answer) :
    l.next e r = l ∨
      (∃ id client, (⟨e, r⟩ : Answered) =
          ⟨.storage (.getClient id), .ok (some client)⟩ ∧
        l.next e r = { l with clients := client :: l.clients }) ∨
      (∃ x t, (⟨e, r⟩ : Answered) = ⟨.storage (.getToken x), .ok (some t)⟩ ∧
        l.next e r = { l with found := t :: l.found }) ∨
      ∃ t, (⟨e, r⟩ : Answered) = ⟨.storage (.putToken t), .ok .applied⟩ ∧
        l.next e r = l.wrote t := by
  unfold next
  split
  · exact .inr (.inl ⟨_, _, rfl, rfl⟩)
  · exact .inr (.inr (.inl ⟨_, _, rfl, rfl⟩))
  · exact .inr (.inr (.inr ⟨_, rfl, rfl⟩))
  · exact .inl rfl

theorem issued_of_written (h : (srv.exchangeDiscipline.ledger c).written = some t) :
    c.Issued t := by
  refine srv.exchangeDiscipline.of_ledger (Φ := fun l => l.written = some t) nofun ?_ h
  intro l e r h
  change (l.next e r).written = some t at h
  rcases l.next_cases e r with heq | ⟨_, _, -, heq⟩ | ⟨_, _, -, heq⟩ | ⟨u, hcall, heq⟩ <;>
    rw [heq] at h
  case inr.inr.inr =>
    cases h
    cases hcall
    exact .inr id
  all_goals exact .inl h

theorem consulted_of_clients {client : Client}
    (h : client ∈ (srv.exchangeDiscipline.ledger c).clients) : c.Consulted client := by
  refine srv.exchangeDiscipline.of_ledger (Φ := fun l => client ∈ l.clients) nofun ?_ h
  intro l e r h
  change client ∈ (l.next e r).clients at h
  rcases l.next_cases e r with heq | ⟨id, _, hcall, heq⟩ | ⟨_, _, -, heq⟩ | ⟨_, -, heq⟩ <;>
    rw [heq] at h
  case inr.inl =>
    cases hcall
    rcases List.mem_cons.mp h with rfl | hold
    · exact .inr fun hdid => ⟨id, hdid⟩
    · exact .inl hold
  all_goals exact .inl h

/-- A token the exchange remembers reading is one the request looked up. -/
theorem looked_of_found (h : t ∈ (srv.exchangeDiscipline.ledger c).found) :
    ∃ x, c.Did (.storage (.getToken x)) (.ok (some t)) := by
  refine srv.exchangeDiscipline.of_ledger (Φ := fun l => t ∈ l.found) nofun ?_ h
  intro l e r h
  change t ∈ (l.next e r).found at h
  rcases l.next_cases e r with heq | ⟨_, _, -, heq⟩ | ⟨x, _, hcall, heq⟩ | ⟨_, -, heq⟩ <;>
    rw [heq] at h
  case inr.inr.inl =>
    cases hcall
    rcases List.mem_cons.mp h with rfl | hold
    · exact .inr fun hdid => ⟨x, hdid⟩
    · exact .inl hold
  all_goals exact .inl h

theorem ExchangeLedger.ledger_request (srv : Server) (c : Call) :
    (srv.exchangeDiscipline.ledger c).request = c.request :=
  Discipline.ledger_eq_start ExchangeLedger.request (fun l e r => l.next_request e r) c

theorem ExchangeLedger.next_subset (l : ExchangeLedger) (e : Effect) (r : e.Answer) :
    l.clients ⊆ (l.next e r).clients ∧ l.found ⊆ (l.next e r).found := by
  rcases l.next_cases e r with heq | ⟨_, _, -, heq⟩ | ⟨_, _, -, heq⟩ | ⟨_, -, heq⟩ <;> rw [heq]
  · exact ⟨List.Subset.refl _, List.Subset.refl _⟩
  · exact ⟨List.subset_cons_self _ _, List.Subset.refl _⟩
  · exact ⟨List.Subset.refl _, List.subset_cons_self _ _⟩
  · exact ⟨List.Subset.refl _, List.Subset.refl _⟩

/-- The request wrote a refresh record. -/
def Call.WroteRefresh (c : Call) : Prop :=
  (∃ r a, c.Did (.storage (.putRefreshToken r)) a) ∨
    ∃ expected spent access next a,
      c.Did (.storage (.rotateRefreshToken expected spent access next)) a

section Reached
variable (h : srv.semantics.Reaches ok (State.idle w₀) s) (hc : c ∈ s.threads)

include h hc

/-- A token a request wrote has its origin there. -/
theorem origin_of_issued (ht : c.Issued t) : Origin w₀ (srv.discipline.ledgers s) t :=
  .inr ⟨_, Discipline.mem_ledgers hc, Server.access_of_did h hc ht⟩

/-- What an exchange wrote is exchanged from a registration and a token it read, and the token is
the one behind the presented string. -/
theorem exchangedFrom_of_issued (hq : c.request = .tokenExchange q) (ht : c.Issued t) :
    ∃ client subject, c.Consulted client ∧ client.clientId = q.clientId ∧
      Origin w₀ (srv.discipline.ledgers s) subject ∧ subject.accessToken = q.subjectToken ∧
      t.ExchangedFrom q client subject := by
  have hread : ∀ q, (srv.exchangeDiscipline.ledger c).request = .tokenExchange q →
      ∃ client ∈ (srv.exchangeDiscipline.ledger c).clients,
        ∃ subject ∈ (srv.exchangeDiscipline.ledger c).found, client.clientId = q.clientId ∧
          subject.accessToken = q.subjectToken ∧ t.ExchangedFrom q client subject := by
    refine Discipline.did (D := srv.exchangeDiscipline)
      (Φ := fun l => ∀ q, l.request = .tokenExchange q → ∃ client ∈ l.clients,
        ∃ subject ∈ l.found, client.clientId = q.clientId ∧ subject.accessToken = q.subjectToken ∧
          t.ExchangedFrom q client subject) h hc ht ?_ ?_
    · exact fun s l _ _ hallowed _ q hq => (hallowed q hq).2
    · intro l e r hl _ _ q hq
      obtain ⟨client, hclient, subject, hsubject, hrest⟩ := hl q ((l.next_request e r).symm.trans hq)
      obtain ⟨hclients, hfound⟩ := l.next_subset e r
      exact ⟨client, hclients hclient, subject, hfound hsubject, hrest⟩
  obtain ⟨client, hclient, subject, hsubject, hid, hkey, hexchanged⟩ :=
    hread q ((ExchangeLedger.ledger_request srv c).trans hq)
  refine ⟨client, subject, consulted_of_clients hclient, hid, ?_, hkey, hexchanged⟩
  obtain ⟨x, hlooked⟩ := looked_of_found hsubject
  have hfound : subject ∈ (srv.discipline.ledger c).issue.found :=
    Server.holds_of_did (Φ := fun l => subject ∈ l.issue.found) h hc hlooked
      (fun _ _ => List.mem_cons_self) fun hg hl => hg.found hl
  exact (Server.filing h).found _ (Discipline.mem_ledgers hc) subject hfound

/-- An answered exchange hands out the one token it wrote, and wrote no refresh token. -/
theorem issued_of_exchanged (hq : c.request = .tokenExchange q) {e : ExchangedToken}
    (he : c.reply? = some (.exchanged (.ok e))) :
    ∃ t, c.Issued t ∧ t.accessToken = e.response.accessToken ∧ e.response.refreshToken = none := by
  have hF : srv.exchangeDiscipline.Follows s :=
    Discipline.follows_run h
  have haccept : (srv.exchangeDiscipline.ledger c).Accepts (.exchanged (.ok e)) :=
    Discipline.accepts hF hc he
  simp only [ExchangeLedger.Accepts, ExchangeLedger.ledger_request, hq] at haccept
  obtain ⟨t, hwritten, hkey, hrefresh, -⟩ := haccept
  exact ⟨t, issued_of_written hwritten, hkey.symm, hrefresh⟩

theorem not_wroteRefresh (hq : c.request = .tokenExchange q) : ¬ c.WroteRefresh := by
  have hrequest := (ExchangeLedger.ledger_request srv c).trans hq
  -- A call that is not allowed to an exchange was made by another request.
  have hother : ∀ {e : Effect} {r : e.Answer}, c.Did e r →
      (∀ l : ExchangeLedger, l.Allowed e → ∀ q, l.request ≠ .tokenExchange q) → False := by
    intro e r hdid hforbids
    refine Discipline.did (D := srv.exchangeDiscipline)
      (Φ := fun l => ∀ q, l.request ≠ .tokenExchange q) h hc hdid ?_ ?_ q hrequest
    · intro s l _ _ hallowed _ q hq
      exact hforbids l hallowed q ((l.next_request _ _).symm.trans hq)
    · intro l e r hl _ _ q hq
      exact hl q ((l.next_request e r).symm.trans hq)
  rintro (⟨r, a, hdid⟩ | ⟨expected, spent, access, next, a, hdid⟩)
  · exact hother hdid fun _ h => h
  · exact hother hdid fun _ h => h

end Reached

end Calls

/-! ## Chains -/

/-- Answered exchanges, the latest first, each of the string the one before handed out. -/
inductive ExchangeChain (s : State) (x : String) : List Call → String → Prop
  | root : ExchangeChain s x [] x
  | exchange {c : Call} {q : TokenExchangeRequest} {e : ExchangedToken} {cs : List Call}
      (before : ExchangeChain s x cs q.subjectToken) (mem : c ∈ s.threads)
      (request : c.request = .tokenExchange q)
      (reply : c.reply? = some (.exchanged (.ok e))) :
      ExchangeChain s x (c :: cs) e.response.accessToken

/-- No more authority than another token, for the same grant and subject. -/
structure IssuedToken.Descends (t root : IssuedToken) : Prop where
  scope : t.scope.tokens ⊆ root.scope.tokens
  resource : t.resource ⊆ root.resource
  named : root.resource ≠ [] → t.resource ≠ []
  expiry : t.expiresAt ≤ root.expiresAt
  subject : t.subject = root.subject
  established : t.grantEstablishedAt = root.grantEstablishedAt
  depth : root.actors.length ≤ maxActChainDepth → t.actors.length ≤ maxActChainDepth

namespace IssuedToken

theorem Descends.refl (t : IssuedToken) : t.Descends t :=
  ⟨List.Subset.refl _, List.Subset.refl _, id, Int.le_refl _, rfl, rfl, id⟩

theorem Descends.trans {t u v : IssuedToken} (h : t.Descends u) (h' : u.Descends v) :
    t.Descends v where
  scope := List.Subset.trans h.scope h'.scope
  resource := List.Subset.trans h.resource h'.resource
  named := h.named ∘ h'.named
  expiry := Int.le_trans h.expiry h'.expiry
  subject := h.subject.trans h'.subject
  established := h.established.trans h'.established
  depth := h.depth ∘ h'.depth

theorem ExchangedFrom.descends {t subject : IssuedToken} {q : TokenExchangeRequest}
    {client : Client} (h : t.ExchangedFrom q client subject) : t.Descends subject where
  scope := h.scope
  resource := h.resource
  named := h.named
  expiry := h.expiry
  subject := h.subject
  established := h.established
  depth := by
    intro hdepth
    rcases h.actors with ⟨-, hnone⟩ | ⟨-, hlength, actor, hactors⟩
    · simp [hnone]
    · rw [hactors, List.length_cons]
      omega

end IssuedToken

/-- The registration that an exchange went by allows the scope. -/
def Call.Permits (c : Call) (scope : ScopeSet) : Prop :=
  ∃ q client, c.request = .tokenExchange q ∧ c.Consulted client ∧ client.clientId = q.clientId ∧
    scope.tokens ⊆ client.allowedScopes.tokens

/-- The exchange presented an actor token. -/
def Call.Delegates (c : Call) : Prop :=
  ∃ q token, c.request = .tokenExchange q ∧ q.actorToken = some token

section Chains
variable {srv : Server} {ok : State → Move → State → Prop} {w₀ : World} {s s₁ : State}
  {root : IssuedToken} {c : Call} {cs : List Call} {y : String}

/-- A token stored at some point of a run has its origin in the run. -/
theorem origin_of_stored (h₁ : srv.semantics.Reaches ok (State.idle w₀) s₁)
    (h₂ : srv.semantics.Reaches ok s₁ s) (hroot : root ∈ s₁.world.store.tokens) :
    Origin w₀ (srv.discipline.ledgers s) root := by
  refine ((Server.filing h₁).tokens root hroot).imp_right ?_
  rintro ⟨l, hl, hacc⟩
  obtain ⟨j, hj⟩ := List.mem_iff_getElem?.mp hl
  have hF := srv.discipline.follows_run h₁
  obtain ⟨l', hl', hg⟩ := Server.ledgers_grow hF h₂ hj
  exact ⟨l', List.mem_of_getElem? hl', hg.access root hacc⟩

section Reserved
variable (hreserves : w₀.Reserves) (h : srv.semantics.Reaches ok (State.idle w₀) s)

include hreserves h

/-- One link: the exchange of a string wrote a token, exchanged from the record behind it. -/
theorem link (hc : c ∈ s.threads) {q : TokenExchangeRequest} (hq : c.request = .tokenExchange q)
    {e : ExchangedToken} (he : c.reply? = some (.exchanged (.ok e))) {subject : IssuedToken}
    (hsubject : Origin w₀ (srv.discipline.ledgers s) subject)
    (hkey : subject.accessToken = q.subjectToken) :
    ∃ t client, c.Issued t ∧ t.accessToken = e.response.accessToken ∧ c.Consulted client ∧
      client.clientId = q.clientId ∧ t.ExchangedFrom q client subject := by
  obtain ⟨t, hissued, htoken, -⟩ := issued_of_exchanged h hc hq he
  obtain ⟨client, subject', hclient, hid, horigin, hkey', hexchanged⟩ :=
    exchangedFrom_of_issued h hc hq hissued
  cases (Server.filing h).unique hreserves hsubject horigin (hkey.trans hkey'.symm)
  exact ⟨t, client, hissued, htoken, hclient, hid, hexchanged⟩

/-- The record behind the string a chain leads to. -/
theorem ExchangeChain.descends (hroot : Origin w₀ (srv.discipline.ledgers s) root)
    (hchain : ExchangeChain s root.accessToken cs y) :
    ∃ t, Origin w₀ (srv.discipline.ledgers s) t ∧ t.accessToken = y ∧ t.Descends root ∧
      (∀ c ∈ cs, c.Permits t.scope) ∧
      ((∀ c ∈ cs, c.Delegates) → root.actors <:+ t.actors) := by
  induction hchain with
  | root => exact ⟨root, hroot, rfl, .refl root, by simp, fun _ => List.suffix_refl _⟩
  | @exchange c q e cs before mem request reply ih =>
    obtain ⟨subject, hsubject, hkey, hdescends, hpermits, hkeeps⟩ := ih
    obtain ⟨t, client, hissued, htoken, hclient, hid, hexchanged⟩ :=
      link hreserves h mem request reply hsubject hkey
    refine ⟨t, origin_of_issued h mem hissued, htoken, hexchanged.descends.trans hdescends, ?_, ?_⟩
    · intro c' hc'
      rcases List.mem_cons.mp hc' with rfl | hc'
      · exact ⟨q, client, request, hclient, hid, hexchanged.registered⟩
      · obtain ⟨q', client', hq', hclient', hid', hscope⟩ := hpermits c' hc'
        exact ⟨q', client', hq', hclient', hid', List.Subset.trans hexchanged.scope hscope⟩
    · intro hdelegates
      have hbefore := hkeeps fun c' hc' => hdelegates c' (List.mem_cons_of_mem _ hc')
      obtain ⟨q', token, hq', hactor⟩ := hdelegates c List.mem_cons_self
      cases request.symm.trans hq'
      rcases hexchanged.actors with ⟨hnone, -⟩ | ⟨-, -, actor, hactors⟩
      · cases hnone.symm.trans hactor
      · rw [hactors]
        exact hbefore.trans (List.suffix_cons actor _)

/-- What the last exchange of a chain issued. -/
theorem ExchangeChain.last (hroot : Origin w₀ (srv.discipline.ledgers s) root)
    (hchain : ExchangeChain s root.accessToken (c :: cs) y) :
    ∃ t q client subject, c ∈ s.threads ∧ c.request = .tokenExchange q ∧ c.Issued t ∧
      t.accessToken = y ∧ t.ExchangedFrom q client subject ∧ t.Descends root ∧
      (∀ c' ∈ c :: cs, c'.Permits t.scope) ∧
      ((∀ c' ∈ c :: cs, c'.Delegates) → root.actors <:+ t.actors) := by
  obtain ⟨t, ht, hkey, hdescends, hpermits, hkeeps⟩ := hchain.descends hreserves h hroot
  cases hchain with
  | @exchange _ q _ _ before mem request reply =>
    obtain ⟨subject, hsubject, hsubkey, -⟩ := before.descends hreserves h hroot
    obtain ⟨u, client, hissued, htoken, -, -, hexchanged⟩ :=
      link hreserves h mem request reply hsubject hsubkey
    cases (Server.filing h).unique hreserves ht (origin_of_issued h mem hissued)
      (hkey.trans htoken.symm)
    exact ⟨t, q, client, subject, mem, request, hissued, hkey, hexchanged, hdescends, hpermits,
      hkeeps⟩

end Reserved

/-- Exchanges never gain authority: along every chain of answered exchanges, starting from any
token that is stored at any point of a run, the token that is issued is within the root and within
every exchanging client's registration, lives no longer, is for the same subject and grant, comes
without refresh token or family, and records a bounded chain of actors. -/
theorem exchange_chain_confined (hreserves : w₀.Reserves)
    (h₁ : srv.semantics.Reaches Semantics.anyStep (State.idle w₀) s₁)
    (h₂ : srv.semantics.Reaches Semantics.anyStep s₁ s) (hroot : root ∈ s₁.world.store.tokens)
    (hchain : ExchangeChain s root.accessToken (c :: cs) y) :
    ∃ t, c.Issued t ∧ t.accessToken = y ∧ t.Descends root ∧ (∀ c' ∈ c :: cs, c'.Permits t.scope) ∧
      t.familyId = none ∧ ¬ c.WroteRefresh ∧
      ∀ e, c.reply? = some (.exchanged (.ok e)) → e.response.refreshToken = none := by
  have h := h₁.trans h₂
  obtain ⟨t, q, client, subject, hc, hq, hissued, hkey, hexchanged, hdescends, hpermits, -⟩ :=
    hchain.last hreserves h (origin_of_stored h₁ h₂ hroot)
  refine ⟨t, hissued, hkey, hdescends, hpermits, hexchanged.family, not_wroteRefresh h hc hq, ?_⟩
  intro e he
  obtain ⟨-, -, -, hrefresh⟩ := issued_of_exchanged h hc hq he
  exact hrefresh

namespace Sample

/-- A confidential client that may exchange. -/
def agent : Client :=
  { app with
    clientId := "agent", auth := .confidentialSecret "s3cret", grantTypes := [.tokenExchange] }

/-- A token of the other client, for a user. -/
def usersToken : IssuedToken := IssuedToken.new "t" "app" (some "user") reading 0 10

/-- The user's token, and one the agent holds for itself. -/
def exchanging : World :=
  ⟨{ MemoryInner.empty with
      clients := Table.empty.insert agent
      tokens := (Table.empty.insert usersToken).insert (.new "own" "agent" none reading 0 10) },
    5, ["t", "own"]⟩

theorem exchanging_reserves : exchanging.Reserves := by
  intro t ht
  simp only [exchanging, Table.mem_insert, Table.mem_empty] at ht
  rcases ht with rfl | ⟨rfl | ⟨hempty, -⟩, -⟩
  · exact List.mem_cons_of_mem _ List.mem_cons_self
  · exact List.mem_cons_self
  · exact hempty.elim

theorem usersToken_stored : usersToken ∈ (State.idle exchanging).world.store.tokens :=
  Table.mem_of_lookup (k := "t") (by decide +kernel)

def exchangeOf (subjectToken : String) (actorToken : Option String) : TokenExchangeRequest where
  clientId := "agent"
  clientSecret := some "s3cret"
  clientAssertionType := none
  clientAssertion := none
  subjectToken := subjectToken
  subjectTokenType := .accessToken
  actorToken := actorToken
  actorTokenType := actorToken.map fun _ => .accessToken
  resource := []
  audience := []
  scope := none
  requestedTokenType := none

/-- The agent takes a token for itself as the acting party. -/
def delegates (i : Nat) (subjectToken : String) (d : Fin 10) : List Move :=
  admits i (.tokenExchange (exchangeOf subjectToken (some "own"))) ++ go i 6 ++
    [.run i (.entropy (some (entropy d)))] ++ go i 2

/-- The agent takes the user's token for itself as the acting party, and then exchanges what it
got without an actor token. -/
def exchangesTwice : List Move :=
  delegates 0 "t" 1 ++
    admits 1 (.tokenExchange (exchangeOf (entropy 1).access.text none)) ++ go 1 4 ++
    [.run 1 (.entropy (some (entropy 2)))] ++ go 1 2

/-- Whether the request is this exchange, answered with this string. -/
def exchanges (c : Call) (q : TokenExchangeRequest) (y : String) : Bool :=
  decide (c.request = .tokenExchange q) &&
    c.reply?.any fun
      | .exchanged (.ok e) => e.response.accessToken = y
      | _ => false

theorem chain_of_exchanges {x : String} {q : TokenExchangeRequest}
    (hbefore : ExchangeChain s x cs q.subjectToken) (hc : c ∈ s.threads)
    (h : exchanges c q y = true) : ExchangeChain s x (c :: cs) y := by
  obtain ⟨hq, hreply⟩ := Bool.and_eq_true_iff.mp h
  obtain ⟨reply, hreply, hy⟩ := Option.any_eq_true _ _ |>.mp hreply
  cases reply with
  | exchanged result =>
    cases result with
    | ok e =>
      rw [← (of_decide_eq_true hy : e.response.accessToken = y)]
      exact .exchange hbefore hc (of_decide_eq_true hq) hreply
    | error e => cases hy
  | _ => cases hy

/-- The two exchanges are answered. -/
theorem exchangesTwice_runs :
    ∃ (s : State) (c c' : Call), server.semantics.run (State.idle exchanging) exchangesTwice = some s ∧
      c ∈ s.threads ∧ c' ∈ s.threads ∧
      exchanges c (exchangeOf "t" (some "own")) (entropy 1).access.text = true ∧
      exchanges c' (exchangeOf (entropy 1).access.text none) (entropy 2).access.text = true := by
  obtain ⟨s, hs, c, hc, c', hc', h, h'⟩ :
      ∃ s ∈ server.semantics.run (State.idle exchanging) exchangesTwice,
      ∃ c ∈ s.threads[0]?, ∃ c' ∈ s.threads[1]?,
        exchanges c (exchangeOf "t" (some "own")) (entropy 1).access.text = true ∧
          exchanges c' (exchangeOf (entropy 1).access.text none) (entropy 2).access.text = true := by
    decide +kernel
  exact ⟨s, c, c', hs, List.mem_of_getElem? hc, List.mem_of_getElem? hc', h, h'⟩

end Sample

theorem exchange_chain_confined_twice : ∃ (s : State) (c c' : Call) (t : IssuedToken),
    Sample.server.semantics.run (State.idle Sample.exchanging) Sample.exchangesTwice = some s ∧
      ExchangeChain s "t" [c', c] (Sample.entropy 2).access.text ∧ c'.Issued t ∧
      t.Descends Sample.usersToken ∧ c.Permits t.scope ∧ t.familyId = none := by
  obtain ⟨s, c, c', hs, hmem, hmem', hc, hc'⟩ := Sample.exchangesTwice_runs
  have hchain : ExchangeChain s Sample.usersToken.accessToken [c', c]
      (Sample.entropy 2).access.text := by
    exact Sample.chain_of_exchanges (Sample.chain_of_exchanges .root hmem hc) hmem' hc'
  obtain ⟨t, hissued, -, hdescends, hpermits, hfamily, -⟩ := exchange_chain_confined
    Sample.exchanging_reserves .refl (Semantics.reaches_of_run hs) Sample.usersToken_stored hchain
  exact ⟨s, c, c', t, hs, hchain, hissued, hdescends, hpermits c (by simp), hfamily⟩

/-- Delegation history is kept by delegation: along every chain of answered exchanges that each
present an actor token, the actors recorded on the root are a suffix of those recorded on the
token that is issued, which names at least one. An exchange without an actor token records none. -/
theorem exchange_chain_keeps_actors (hreserves : w₀.Reserves)
    (h₁ : srv.semantics.Reaches Semantics.anyStep (State.idle w₀) s₁)
    (h₂ : srv.semantics.Reaches Semantics.anyStep s₁ s) (hroot : root ∈ s₁.world.store.tokens)
    (hchain : ExchangeChain s root.accessToken (c :: cs) y) :
    ∃ t, c.Issued t ∧ t.accessToken = y ∧
      ((∀ c' ∈ c :: cs, c'.Delegates) → root.actors <:+ t.actors ∧ t.actors ≠ []) ∧
      (¬ c.Delegates → t.actors = []) := by
  obtain ⟨t, q, client, subject, -, hq, hissued, hkey, hexchanged, -, -, hkeeps⟩ :=
    hchain.last hreserves (h₁.trans h₂) (origin_of_stored h₁ h₂ hroot)
  refine ⟨t, hissued, hkey, fun hdelegates => ⟨hkeeps hdelegates, ?_⟩, fun hno => ?_⟩
  · obtain ⟨q', token, hq', hactor⟩ := hdelegates c List.mem_cons_self
    cases hq.symm.trans hq'
    rcases hexchanged.actors with ⟨hnone, -⟩ | ⟨-, -, actor, hactors⟩
    · cases hnone.symm.trans hactor
    · rw [hactors]
      exact List.cons_ne_nil _ _
  · rcases hexchanged.actors with ⟨-, hnone⟩ | ⟨hsome, -⟩
    · exact hnone
    · obtain ⟨token, hactor⟩ := Option.ne_none_iff_exists'.mp hsome
      exact absurd ⟨q, token, hq, hactor⟩ hno

/-- The agent's token names the agent as the actor, the token it gets for it is live, for the same
subject and grant, and names nobody. -/
theorem impersonation_forgets_actors : ∃ (s : State) (c : Call) (t t' : IssuedToken),
    Sample.server.semantics.run (State.idle Sample.exchanging) Sample.exchangesTwice = some s ∧
      ExchangeChain s t.accessToken [c] t'.accessToken ∧ t ∈ s.world.store.tokens ∧
      t' ∈ s.world.store.tokens ∧ s.world.clock < t'.expiresAt ∧ t'.subject = t.subject ∧
      t'.grantEstablishedAt = t.grantEstablishedAt ∧ t.actors ≠ [] ∧ t'.actors = [] := by
  obtain ⟨s, c, c', hs, -, hmem', -, hc'⟩ := Sample.exchangesTwice_runs
  obtain ⟨s', hs', t, ht, t', ht', hrest⟩ :
      ∃ s ∈ Sample.server.semantics.run (State.idle Sample.exchanging) Sample.exchangesTwice,
      ∃ t ∈ s.world.store.tokens.lookup (Sample.entropy 1).access.text,
      ∃ t' ∈ s.world.store.tokens.lookup (Sample.entropy 2).access.text,
        s.world.clock < t'.expiresAt ∧ t'.subject = t.subject ∧
          t'.grantEstablishedAt = t.grantEstablishedAt ∧ t.actors ≠ [] ∧ t'.actors = [] := by
    decide +kernel
  cases hs.symm.trans hs'
  refine ⟨s, c', t, t', hs, ?_, Table.mem_of_lookup ht, Table.mem_of_lookup ht', hrest⟩
  rw [Table.key_of_lookup ht, Table.key_of_lookup ht']
  exact Sample.chain_of_exchanges .root hmem' hc'

/-- Two delegations: what the second one issued keeps the actor of the first. -/
theorem exchange_chain_keeps_actors_twice : ∃ (s₁ s : State) (c : Call) (t t' : IssuedToken),
    Sample.server.semantics.run (State.idle Sample.exchanging) (Sample.delegates 0 "t" 1) = some s₁ ∧
      t ∈ s₁.world.store.tokens ∧ t.actors ≠ [] ∧
      Sample.server.semantics.run s₁ (Sample.delegates 1 t.accessToken 2) = some s ∧ c.Delegates ∧
      c.Issued t' ∧ t'.accessToken ≠ t.accessToken ∧ t.actors <:+ t'.actors := by
  obtain ⟨s₁, hs₁, t, ht, hactors, s, hs, c, hc, hexchanges, hne⟩ :
      ∃ s₁ ∈ Sample.server.semantics.run (State.idle Sample.exchanging) (Sample.delegates 0 "t" 1),
      ∃ t ∈ s₁.world.store.tokens.lookup (Sample.entropy 1).access.text, t.actors ≠ [] ∧
      ∃ s ∈ Sample.server.semantics.run s₁ (Sample.delegates 1 t.accessToken 2),
      ∃ c ∈ s.threads[1]?, Sample.exchanges c (Sample.exchangeOf t.accessToken (some "own"))
          (Sample.entropy 2).access.text = true ∧
        (Sample.entropy 2).access.text ≠ t.accessToken := by
    decide +kernel
  have hdelegates : Call.Delegates c :=
    ⟨_, "own", of_decide_eq_true (Bool.and_eq_true_iff.mp hexchanges).1, rfl⟩
  have hchain : ExchangeChain s t.accessToken [c] (Sample.entropy 2).access.text :=
    Sample.chain_of_exchanges .root (List.mem_of_getElem? hc) hexchanges
  obtain ⟨t', hissued, hkey, hkeeps, -⟩ := exchange_chain_keeps_actors Sample.exchanging_reserves
    (Semantics.reaches_of_run hs₁) (Semantics.reaches_of_run hs) (Table.mem_of_lookup ht) hchain
  obtain ⟨hsuffix, -⟩ := hkeeps (by simpa using hdelegates)
  exact ⟨s₁, s, c, t, t', hs₁, Table.mem_of_lookup ht, hactors, hs, hdelegates, hissued, hkey ▸ hne,
    hsuffix⟩

end Chains

end OauthAs
