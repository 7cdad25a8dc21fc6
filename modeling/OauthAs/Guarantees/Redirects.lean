-- SUMMARY: Whatever is sent back through the browser goes where the registration of the client allows.
import OauthAs.Protocol.Requests

/-!
# Redirects

The target of a redirect is chosen once, when a request is judged against the registration of its
client. Codes, refusals and denials are sent to it later, some of them by calls that were only
handed the validated request. Every redirect is traced back to the choice.
-/

namespace OauthAs

open Sample

variable {host uri suffix : String}

/-! ## Targets -/

theorem stripWords_eq_some {words text rest : List Char} (h : stripWords words text = some rest) :
    text = words ++ rest := by
  induction words generalizing text with
  | nil => exact Option.some.inj h
  | cons w words ih =>
    cases text with
    | nil => cases h
    | cons c text =>
      simp only [stripWords] at h
      split at h
      · rename_i hw
        rw [hw, ih h]
        rfl
      · cases h

/-- A port, spelled out. -/
structure IsPort (port : String) : Prop where
  digits : port.toList.all Char.isDigit = true
  positive : 0 < decimal port.toList
  bounded : decimal port.toList < 2 ^ 16

/-- A URI of a loopback address with a port, and what follows the port. -/
structure LoopbackUri (host port suffix uri : String) : Prop where
  loopback : host ∈ loopbackHosts
  spelled : uri = "http://" ++ host ++ ":" ++ port ++ suffix
  isPort : IsPort port
  /-- The port ends where it seems to. -/
  follows : ∀ c, suffix.toList.head? = some c → c = '/' ∨ c = '?'
  plain : '#' ∉ suffix.toList

theorem of_loopbackParts {suffix : List Char} (h : loopbackParts uri = some (host, suffix)) :
    ∃ port, LoopbackUri host port (String.ofList suffix) uri := by
  obtain ⟨⟨host', rest⟩, hfound, h⟩ := Option.bind_eq_some_iff.mp h
  obtain ⟨candidate, hlisted, hstrip⟩ := List.exists_of_findSome?_eq_some hfound
  obtain ⟨rest', hrest, hpair⟩ := Option.map_eq_some_iff.mp hstrip
  cases hpair
  have huri := stripWords_eq_some hrest
  simp only [portParts] at h
  split at h
  · cases h
  · rename_i hport
    split at h
    · rename_i hsuffix
      cases h
      simp only [Bool.or_eq_true, List.isEmpty_iff, decide_eq_true_eq, not_or, Nat.not_le] at hport
      rw [Bool.and_eq_true] at hsuffix
      refine ⟨String.ofList (rest.takeWhile Char.isDigit), hlisted, ?_, ⟨?_, ?_, ?_⟩, ?_, ?_⟩
      · rw [← String.toList_inj, huri]
        simp only [String.toList_append, String.toList_ofList, List.append_assoc,
          List.takeWhile_append_dropWhile]
      · rw [String.toList_ofList]
        exact List.all_takeWhile
      · rw [String.toList_ofList]
        exact Nat.pos_of_ne_zero hport.2
      · rw [String.toList_ofList]
        exact hport.1.2
      · intro c hc
        rw [String.toList_ofList] at hc
        simpa [hc] using hsuffix.1
      · rw [String.toList_ofList]
        simpa using hsuffix.2
    · cases h

/-- The same loopback URI but for the port. -/
def SameButPort (registered requested : String) : Prop :=
  ∃ host port port' suffix, LoopbackUri host port suffix registered ∧
    LoopbackUri host port' suffix requested

theorem sameButPort_of_matches {registered requested : String}
    (h : loopbackRedirectMatches registered requested = true) : SameButPort registered requested := by
  unfold loopbackRedirectMatches at h
  split at h
  · rename_i a b ha hb
    obtain ⟨host, suffix⟩ := a
    rw [← beq_iff_eq.mp h] at hb
    obtain ⟨port, hport⟩ := of_loopbackParts ha
    obtain ⟨port', hport'⟩ := of_loopbackParts hb
    exact ⟨host, port, port', _, hport, hport'⟩
  · cases h

/-! ## Loopback ports -/

/-- A loopback URI as it may be registered: the port may be missing, or be any digits. -/
structure LoopbackRegistration (host : String) (port : Option String) (suffix uri : String) :
    Prop where
  loopback : host ∈ loopbackHosts
  spelled : uri = "http://" ++ host ++ (port.elim "" fun p => ":" ++ p) ++ suffix
  digits : ∀ p, port = some p → p.toList.all Char.isDigit = true
  follows : ∀ c, suffix.toList.head? = some c → c = '/' ∨ c = '?'
  plain : '#' ∉ suffix.toList

/-- The same loopback URI at a port. -/
def AtPort (host suffix uri : String) : Prop := ∃ port, LoopbackUri host port suffix uri

/-- The registered loopback URI stands for itself at every port and for nothing else, and that for
public clients only. -/
structure StandsForPorts (registered host suffix : String) : Prop where
  open_ : ∀ client : Client, client.auth = .publicClient → ∀ requested,
    client.acceptsRedirect registered requested = true ↔
      requested = registered ∨ AtPort host suffix requested
  closed : ∀ client : Client, client.auth ≠ .publicClient → ∀ requested,
    client.acceptsRedirect registered requested = true ↔ requested = registered
  exception : ∀ requested, loopbackRedirectMatches registered requested = true →
    AtPort host suffix requested

/-- A common start does not matter. -/
theorem stripWords_append (words more rest : List Char) :
    stripWords (words ++ more) (words ++ rest) = stripWords more rest := by
  induction words with
  | nil => rfl
  | cons w words ih =>
    rw [List.cons_append, List.cons_append, stripWords, if_pos rfl]
    exact ih

/-- A run of digits ends where something else follows. -/
theorem takeWhile_digits {digits suffix : List Char} (hdigits : digits.all Char.isDigit = true)
    (hsuffix : ∀ c, suffix.head? = some c → c = '/' ∨ c = '?') :
    (digits ++ suffix).takeWhile Char.isDigit = digits ∧
      (digits ++ suffix).dropWhile Char.isDigit = suffix := by
  have hall : ∀ c ∈ digits, Char.isDigit c = true := List.all_eq_true.mp hdigits
  have hstop : suffix.takeWhile Char.isDigit = [] ∧ suffix.dropWhile Char.isDigit = suffix := by
    cases suffix with
    | nil => exact ⟨rfl, rfl⟩
    | cons c rest =>
      have hc : Char.isDigit c = false := by
        rcases hsuffix c rfl with rfl | rfl <;> decide
      exact ⟨List.takeWhile_cons_of_neg (by simp [hc]), List.dropWhile_cons_of_neg (by simp [hc])⟩
  constructor
  · rw [List.takeWhile_append_of_pos hall, hstop.1, List.append_nil]
  · rw [List.dropWhile_append_of_pos hall, hstop.2]

/-- What stands after the host of a registered URI. -/
def portAndSuffix (port : Option String) (suffix : String) : List Char :=
  (port.elim "" fun p => ":" ++ p).toList ++ suffix.toList

theorem LoopbackRegistration.toList {port : Option String}
    (h : LoopbackRegistration host port suffix uri) :
    uri.toList = ("http://" ++ host).toList ++ portAndSuffix port suffix := by
  rw [h.spelled, portAndSuffix]
  simp only [String.toList_append, List.append_assoc]

theorem loopbackParts_eq (hhost : host ∈ loopbackHosts) {rest : List Char}
    (huri : uri.toList = ("http://" ++ host).toList ++ rest) :
    loopbackParts uri = (stripWords [':'] rest).bind (portParts host) := by
  have hown : stripWords ("http://" ++ host ++ ":").toList uri.toList = stripWords [':'] rest := by
    rw [huri, String.toList_append]
    exact stripWords_append _ [':'] rest
  simp only [loopbackHosts, List.mem_cons, List.not_mem_nil, or_false] at hhost
  rcases hhost with rfl | rfl
  · have hother : stripWords ("http://" ++ "[::1]" ++ ":").toList uri.toList = none := by
      rw [huri]
      rfl
    simp only [loopbackParts, loopbackHosts, List.findSome?, hown, hother]
    cases stripWords [':'] rest <;> rfl
  · have hother : stripWords ("http://" ++ "127.0.0.1" ++ ":").toList uri.toList = none := by
      rw [huri]
      rfl
    simp only [loopbackParts, loopbackHosts, List.findSome?, hown, hother]
    cases stripWords [':'] rest <;> rfl

theorem portParts_eq_some {port : String} (hdigits : port.toList.all Char.isDigit = true)
    (hfollows : ∀ c, suffix.toList.head? = some c → c = '/' ∨ c = '?')
    (hplain : '#' ∉ suffix.toList) :
    portParts host (port.toList ++ suffix.toList) =
      if 0 < decimal port.toList ∧ decimal port.toList < 2 ^ 16 then some (host, suffix.toList)
      else none := by
  obtain ⟨htake, hdrop⟩ := takeWhile_digits hdigits hfollows
  have hsuffix : ((suffix.toList.head?.all fun c => c == '/' || c == '?') &&
      !suffix.toList.contains '#') = true := by
    rw [Bool.and_eq_true]
    constructor
    · cases hhead : suffix.toList.head? with
      | none => rfl
      | some c => simpa using hfollows c hhead
    · simpa using hplain
  simp only [portParts, htake, hdrop, hsuffix, if_true]
  by_cases hport : 0 < decimal port.toList ∧ decimal port.toList < 2 ^ 16
  · have hne : port.toList ≠ [] := fun hnil => by
      rw [hnil] at hport
      exact Nat.lt_irrefl 0 hport.1
    rw [if_neg, if_pos hport]
    simp only [Bool.or_eq_true, List.isEmpty_iff, decide_eq_true_eq, not_or]
    exact ⟨⟨hne, Nat.not_le.mpr hport.2⟩, Nat.ne_of_gt hport.1⟩
  · rw [if_pos, if_neg hport]
    simp only [Bool.or_eq_true, List.isEmpty_iff, decide_eq_true_eq]
    omega

/-- A URI at a loopback address can be taken apart exactly if a port between 1 and 65535 is
spelled out in it. -/
theorem LoopbackRegistration.parts {port : Option String}
    (h : LoopbackRegistration host port suffix uri) :
    (∃ p, port = some p ∧ IsPort p) ∧ loopbackParts uri = some (host, suffix.toList) ∨
      (¬ ∃ p, port = some p ∧ IsPort p) ∧ loopbackParts uri = none := by
  rw [loopbackParts_eq h.loopback h.toList]
  cases port with
  | none =>
    -- What follows the host is no colon.
    have hno : ¬ ∃ p, (none : Option String) = some p ∧ IsPort p := by
      rintro ⟨p, hp, -⟩
      cases hp
    have hstrip : stripWords [':'] (portAndSuffix none suffix) = none := by
      change stripWords [':'] suffix.toList = none
      have hfollows := h.follows
      cases hsuffix : suffix.toList with
      | nil => rfl
      | cons c rest =>
        rcases hfollows c (by rw [hsuffix]; rfl) with rfl | rfl <;> rfl
    exact .inr ⟨hno, by rw [hstrip]; rfl⟩
  | some p =>
    have hparts : (stripWords [':'] (portAndSuffix (some p) suffix)).bind (portParts host) =
        portParts host (p.toList ++ suffix.toList) := by
      simp only [portAndSuffix, Option.elim_some, String.toList_append, List.append_assoc]
      rfl
    rw [hparts, portParts_eq_some (h.digits p rfl) h.follows h.plain]
    by_cases hport : 0 < decimal p.toList ∧ decimal p.toList < 2 ^ 16
    · exact .inl ⟨⟨p, rfl, h.digits p rfl, hport.1, hport.2⟩, if_pos hport⟩
    · refine .inr ⟨?_, if_neg hport⟩
      rintro ⟨q, ⟨⟩, hq⟩
      exact hport ⟨hq.positive, hq.bounded⟩

theorem LoopbackUri.toRegistration {port : String} (h : LoopbackUri host port suffix uri) :
    LoopbackRegistration host (some port) suffix uri where
  loopback := h.loopback
  spelled := by
    rw [h.spelled, Option.elim_some, ← String.append_assoc]
  digits p hp := by
    cases hp
    exact h.isPort.digits
  follows := h.follows
  plain := h.plain

theorem loopbackParts_of_atPort (h : AtPort host suffix uri) :
    loopbackParts uri = some (host, suffix.toList) := by
  obtain ⟨port, hport⟩ := h
  rcases hport.toRegistration.parts with ⟨-, hparts⟩ | ⟨hno, -⟩
  · exact hparts
  · exact absurd ⟨port, rfl, hport.isPort⟩ hno

/-- For one registered loopback URI, the matcher accepts the URIs at a port that differ from it in
nothing else, if it can be taken apart itself. -/
theorem matches_iff_atPort {registered requested : String}
    (h : loopbackParts registered = some (host, suffix.toList)) :
    loopbackRedirectMatches registered requested = true ↔ AtPort host suffix requested := by
  constructor
  · intro hmatches
    rw [loopbackRedirectMatches, h] at hmatches
    cases hparts : loopbackParts requested with
    | none =>
      rw [hparts] at hmatches
      cases hmatches
    | some found =>
      rw [hparts] at hmatches
      obtain rfl := beq_iff_eq.mp hmatches
      obtain ⟨port, hport⟩ := of_loopbackParts hparts
      rw [String.ofList_toList] at hport
      exact ⟨port, hport⟩
  · intro hport
    rw [loopbackRedirectMatches, h, loopbackParts_of_atPort hport]
    exact beq_self_eq_true _

/-- A registered loopback URI stands for every port exactly if it has a port itself. -/
theorem standsForPorts_iff {registered host suffix : String} {port : Option String}
    (h : LoopbackRegistration host port suffix registered) :
    StandsForPorts registered host suffix ↔ ∃ p, port = some p ∧ IsPort p := by
  have hclosed : ∀ client : Client, client.auth ≠ .publicClient → ∀ requested,
      client.acceptsRedirect registered requested = true ↔ requested = registered := by
    intro client hauth requested
    have hauth : (client.auth == .publicClient) = false := by simpa using hauth
    rw [Client.acceptsRedirect, hauth, Bool.false_and, Bool.or_false, beq_iff_eq]
    exact eq_comm
  constructor
  · intro hstands
    rcases h.parts with ⟨hport, -⟩ | ⟨-, hparts⟩
    · exact hport
    · -- A URI at some port would have to be accepted, and none is.
      have hother : LoopbackUri host "8080" suffix ("http://" ++ host ++ ":" ++ "8080" ++ suffix) :=
        ⟨h.loopback, rfl, ⟨by decide, by decide, by decide⟩, h.follows, h.plain⟩
      have hne : "http://" ++ host ++ ":" ++ "8080" ++ suffix ≠ registered := by
        rintro rfl
        rw [loopbackParts_of_atPort ⟨_, hother⟩] at hparts
        cases hparts
      have hmatches := ((hstands.open_ { Sample.app with auth := .publicClient } rfl _).mpr
        (.inr ⟨_, hother⟩))
      rw [Client.acceptsRedirect, loopbackRedirectMatches, hparts, Bool.and_false, Bool.or_false,
        beq_iff_eq] at hmatches
      exact absurd hmatches.symm hne
  · intro hport
    have hparts : loopbackParts registered = some (host, suffix.toList) :=
      (h.parts.resolve_right fun hno => hno.1 hport).2
    refine ⟨fun client hauth requested => ?_, hclosed, fun requested hmatches => ?_⟩
    · rw [Client.acceptsRedirect, hauth, beq_self_eq_true, Bool.true_and, Bool.or_eq_true,
        beq_iff_eq, matches_iff_atPort hparts]
      exact or_congr eq_comm Iff.rfl
    · exact (matches_iff_atPort hparts).mp hmatches

theorem standsForPorts_8080 :
    LoopbackRegistration "127.0.0.1" (some "8080") "/cb?app=1" "http://127.0.0.1:8080/cb?app=1" ∧
      StandsForPorts "http://127.0.0.1:8080/cb?app=1" "127.0.0.1" "/cb?app=1" := by
  have hregistered : LoopbackRegistration "127.0.0.1" (some "8080") "/cb?app=1"
      "http://127.0.0.1:8080/cb?app=1" := by
    refine ⟨by decide, by decide, ?_, ?_, by decide⟩
    · rintro p ⟨⟩
      decide
    · rintro c hc
      cases hc
      exact .inl rfl
  refine ⟨hregistered, (standsForPorts_iff hregistered).mpr ⟨"8080", rfl, ?_⟩⟩
  exact ⟨by decide, by decide, by decide⟩

/-- A public client that registered its loopback address without a port is refused at every port
the system gives it. -/
theorem ephemeral_port_refused :
    LoopbackRegistration "127.0.0.1" none "/cb" "http://127.0.0.1/cb" ∧
      AtPort "127.0.0.1" "/cb" "http://127.0.0.1:49152/cb" ∧
      Server.redirectTarget
        { Sample.app with auth := .publicClient, redirectUris := ["http://127.0.0.1/cb"] }
        (.fromPairs [("redirect_uri", "http://127.0.0.1:49152/cb")]) =
          .error (.refuse .invalidRequest
            "redirect_uri does not exactly match a registered URI") := by
  have hfollows : ∀ c, "/cb".toList.head? = some c → c = '/' ∨ c = '?' := by
    rintro c hc
    cases hc
    exact .inl rfl
  refine ⟨⟨by decide, by decide, ?_, hfollows, by decide⟩, ⟨"49152", by decide, by decide,
    ⟨by decide, by decide, by decide⟩, hfollows, by decide⟩, by decide⟩
  rintro p ⟨⟩

/-! ## Where answers may go -/

/-- Where the answers to a request may go. -/
inductive Client.Permits (client : Client) (request : AuthorizationRequest) (target : String) : Prop
  | registered (named : request.redirectUri = some target) (listed : target ∈ client.redirectUris)
  | loopback (named : request.redirectUri = some target) (isPublic : client.auth = .publicClient)
      (listed : ∃ registered ∈ client.redirectUris, SameButPort registered target)
  | only (unnamed : request.redirectUri = none) (listed : client.redirectUris = [target])

theorem permits_of_redirectTarget {client : Client} {request : AuthorizationRequest}
    {target : String} (h : Server.redirectTarget client request = .ok target) :
    client.Permits request target := by
  unfold Server.redirectTarget at h
  split at h
  · rename_i requested hrequested
    split at h
    · rename_i hany
      cases h
      simp only [List.any_eq_true, Client.acceptsRedirect, Bool.or_eq_true, beq_iff_eq,
        Bool.and_eq_true] at hany
      obtain ⟨registered, hmem, rfl | ⟨hpublic, hmatches⟩⟩ := hany
      · exact .registered hrequested hmem
      · exact .loopback hrequested hpublic ⟨registered, hmem, sameButPort_of_matches hmatches⟩
    · cases h
  · rename_i hrequested
    split at h
    · rename_i only honly
      cases h
      exact .only hrequested honly
    · cases h

/-! ## Outcomes -/

/-- What a reply sends through the browser. A code that was asked for by a call goes where the
validated request says. -/
def ServiceReply.redirect? (q : ServiceRequest) : ServiceReply → Option Redirect
  | .validated (.error (.redirect e)) => some e.redirect
  | .code (.ok answer) =>
    q.approval?.map fun approval => answer.redirect approval.request.redirectUri
  | .code (.error e) => some e.redirect
  | .response (.redirect r) => some r
  | _ => none

/-- Answered to whoever asked. -/
inductive ServiceReply.Direct : ServiceReply → Prop
  | api (reply : Reply) : Direct (.api reply)
  | pushed (result : Except ErrorResponse PushedAuthorizationResponse) : Direct (.pushed result)
  | validated (v : ValidatedAuthorizationRequest) : Direct (.validated (.ok v))
  | refused (error : ErrorResponse) : Direct (.validated (.error (.direct error)))
  | response (r : Response) (stays : r.isRedirect = false) : Direct (.response r)

/-- The thread through which the request came that a thread answers: the thread itself, or the one
that validated the request it was handed. -/
def ServiceCall.CameThrough (t u : ServiceCall) : Prop :=
  u = t ∨ ∃ approval validated, t.request.approval? = some approval ∧
    u.reply? = some (.validated (.ok validated)) ∧ approval.request =
      { validated with authorizationDetails := approval.request.authorizationDetails }

/-- A redirect that the registration of the request's client allows, with the state of the request
and in the name of this server. -/
structure Redirect.AllowedFor (srv : Server) (r : Redirect) (u : ServiceCall)
    (request : AuthorizationRequest) (client : Client) : Prop where
  judges : u.Judges srv request client
  permits : client.Permits request r.target
  state : r.state = request.state
  iss : r.iss = srv.issuerIdentifier

namespace Server

variable {srv : Server} {clock : SystemTime} {s : ServiceState} {t : ServiceCall}

/-- A call that is handed a validated request answers where the request was validated for. -/
theorem allowed_of_approval (h : srv.ServiceRuns Sealed clock s) (ht : t ∈ s.threads)
    {approval : UserApproval} (happroval : t.request.approval? = some approval) {r : Redirect}
    (htarget : r.target = approval.request.redirectUri) (hstate : r.state = approval.request.state)
    (hiss : r.iss = approval.request.issuer) :
    ∃ u ∈ s.threads, t.CameThrough u ∧ ∃ request client, r.AllowedFor srv u request client := by
  obtain ⟨u, hu, validated, hreply, hvouched⟩ := vouched_of_sealed h t ht approval happroval
  obtain ⟨q, l, hledger, -, door, hdoor, hresolved⟩ := front_accepts h hu hreply (by rintro a ⟨⟩)
  obtain ⟨request, client, hjudges, hverdict⟩ := judges_of_resolved h hu hledger hdoor hresolved
  obtain ⟨hredirect, -, hstate', hiss', -⟩ := of_validateFor_ok hverdict
  rw [hvouched] at htarget hstate hiss
  refine ⟨u, hu, .inr ⟨approval, validated, happroval, hreply, hvouched⟩, request, client, hjudges,
    ?_, hstate.trans hstate', hiss.trans hiss'⟩
  rw [htarget]
  exact permits_of_redirectTarget hredirect

/-- A thread that came through a door answers where its own request may be answered. -/
theorem allowed_of_addresses (h : srv.ServiceRuns Sealed clock s) (ht : t ∈ s.threads)
    {q : ServiceRequest} {l : FrontLedger} {door : Door}
    (hledger : srv.serviceDiscipline.ledger t = .front q l) (hdoor : srv.door q = some door)
    {r : Redirect} (haddresses : l.Addresses srv door r) :
    ∃ u ∈ s.threads, t.CameThrough u ∧ ∃ request client, r.AllowedFor srv u request client := by
  obtain ⟨request, client, hjudges, htarget, hstate, hiss⟩ :=
    judges_of_addresses h ht hledger hdoor haddresses
  exact ⟨t, ht, .inl rfl, request, client, hjudges, permits_of_redirectTarget htarget, hstate, hiss⟩

end Server

/-- Every redirect, be it a code, an error found in validation, a refused sign-in, a throttled
issuance or a denial, goes where the registration of the request's client allows, with the state of
the request and in the name of this server. Everything else is answered directly. -/
theorem redirects_confined {srv : Server} {clock : SystemTime} {s : ServiceState}
    (h : srv.service.Reaches Sealed (ServiceState.idle (.initial clock)) s) {t : ServiceCall}
    (ht : t ∈ s.threads) {reply : ServiceReply} (hreply : t.reply? = some reply) :
    (∀ r, reply.redirect? t.request = some r →
      ∃ u ∈ s.threads, t.CameThrough u ∧ ∃ request client, r.AllowedFor srv u request client) ∧
    (reply.redirect? t.request = none → reply.Direct) := by
  by_cases hapi : ∃ a, reply = .api a
  · obtain ⟨a, rfl⟩ := hapi
    exact ⟨fun r hr => (nomatch hr), fun _ => .api a⟩
  · obtain ⟨q, l, hledger, hreturned, haccepts⟩ :=
      Server.front_accepts h ht hreply fun a ha => hapi ⟨a, ha⟩
    obtain ⟨hrequest, -, -⟩ := Server.front_of_ledger hledger
    rw [← hrequest] at haccepts hledger
    cases reply with
    | api a => exact absurd ⟨a, rfl⟩ hapi
    | pushed result => exact ⟨fun r hr => (nomatch hr), fun _ => .pushed result⟩
    | validated result =>
      rcases result with (error | e) | v
      · exact ⟨fun r hr => (nomatch hr), fun _ => .refused error⟩
      · refine ⟨?_, fun hnone => (nomatch hnone)⟩
        rintro _ ⟨⟩
        obtain ⟨door, hdoor, haddresses⟩ := haccepts
        exact Server.allowed_of_addresses h ht hledger hdoor haddresses
      · exact ⟨fun r hr => (nomatch hr), fun _ => .validated v⟩
    | code result =>
      cases result with
      | error e =>
        obtain ⟨approval, error, happroval, rfl⟩ := haccepts
        refine ⟨?_, fun hnone => (nomatch hnone)⟩
        rintro _ ⟨⟩
        exact Server.allowed_of_approval h ht happroval rfl rfl rfl
      | ok response =>
        obtain ⟨approval, happroval, hstate, hiss⟩ := haccepts
        simp only [ServiceReply.redirect?, happroval, Option.map_some]
        refine ⟨?_, fun hnone => (nomatch hnone)⟩
        rintro _ ⟨⟩
        exact Server.allowed_of_approval h ht happroval rfl hstate hiss
    | response response =>
      cases response with
      | redirect r =>
        refine ⟨?_, fun hnone => (nomatch hnone)⟩
        rintro _ ⟨⟩
        obtain ⟨door, hdoor, haddresses⟩ := haccepts
        exact Server.allowed_of_addresses h ht hledger hdoor haddresses
      | _ => exact ⟨fun r hr => (nomatch hr), fun _ => .response _ rfl⟩

namespace Sample

/-- A request for something this server does not issue. -/
def mistaken : AuthorizationRequest :=
  .fromPairs [("response_type", "token"), ("client_id", "app"), ("state", "xyz")]

end Sample

/-- The client is told of its mistake at its only registered address. -/
theorem redirects_confined_mistaken :
    ∃ s, server.service.Reaches Sealed (ServiceState.idle (.initial 0)) s ∧
      ∃ t ∈ s.threads, ∃ reply r, t.reply? = some reply ∧ reply.redirect? t.request = some r ∧
        r.target = "https://app.example/cb" ∧ r.state = some "xyz" ∧
        ∃ u ∈ s.threads, ServiceCall.CameThrough t u ∧
          ∃ request client, r.AllowedFor server u request client := by
  obtain ⟨s, hs, t, ht, reply, hreply, r, hr, htarget, hstate⟩ :
      ∃ s ∈ server.service.runChecked asksNone (ServiceState.idle (.initial 0))
        (appears ++ [.spawn (.validate mistaken), .run 1 (.decision .allow)] ++ goes 1 2),
      ∃ t ∈ s.threads[1]?, ∃ reply ∈ t.reply?, ∃ r ∈ reply.redirect? t.request,
        r.target = "https://app.example/cb" ∧ r.state = some "xyz" := by
    decide +kernel
  have hreach := Semantics.reaches_of_runChecked sealed_of_asksNone hs
  have hmem := List.mem_of_getElem? ht
  exact ⟨s, hreach, t, hmem, reply, r, hreply, hr, htarget, hstate,
    (redirects_confined hreach hmem hreply).1 r hr⟩

end OauthAs
