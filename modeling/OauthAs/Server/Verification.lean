-- SUMMARY: The device verification page: what it shows for an entered code, and the form it submits.
import OauthAs.Server.Endpoint
import OauthAs.Server.Metadata

/-!
# The verification page

A user visits the page to enter the code shown on a device. One request may resolve the code twice,
for the decision and for the page that reports how it went; what the limiter has been told about
the entry is passed along with it.
-/

namespace OauthAs

/-! ## Pages -/

structure Page where
  status : Nat
  contentType : String
  body : String
deriving DecidableEq, Repr

def htmlResponse (status : Nat) (body : String) : Page := ⟨status, "text/html;charset=UTF-8", body⟩

def tooManyParameters : Page :=
  ⟨413, "text/plain;charset=UTF-8", "request carries too many parameters"⟩

/-- The characters that could end a text or an attribute are spelled out. -/
def escapeHtml (value : String) : String :=
  String.ofList <| value.toList.flatMap fun
    | '&' => "&amp;".toList
    | '<' => "&lt;".toList
    | '>' => "&gt;".toList
    | '"' => "&quot;".toList
    | '\'' => "&#x27;".toList
    | other => [other]

def pageHead : String :=
  "<!DOCTYPE html><html lang=\"en\"><head><meta charset=\"utf-8\">" ++
  "<meta name=\"viewport\" content=\"width=device-width,initial-scale=1\">" ++
  "<title>Device authorization</title></head><body><h1>Device authorization</h1>"

/-- The form that asks for a code. -/
def codeForm (prefill : String) : String :=
  "<label for=\"user_code\">Code shown on your device</label>" ++
  "<input id=\"user_code\" name=\"user_code\" autocomplete=\"off\" spellcheck=\"false\" value=\"" ++
  escapeHtml prefill ++ "\"><button type=\"submit\">Continue</button>"

/-- The form that asks for a decision: who is asking, for what, from which device. -/
def decisionForm (grant : DeviceGrant) (name : Option String) : String :=
  "<p>The application <strong>" ++ escapeHtml (name.getD grant.clientId) ++ "</strong> (<code>" ++
  escapeHtml grant.clientId ++
  "</code>) is asking to access your account.</p><p>It will be allowed: " ++
  (if grant.scope.display.isEmpty then "no scopes" else escapeHtml grant.scope.display) ++
  "</p><p>Code on your device: <code>" ++ escapeHtml grant.userCode ++
  "</code></p><input type=\"hidden\" name=\"user_code\" value=\"" ++ escapeHtml grant.userCode ++
  "\"><button type=\"submit\" name=\"action\" value=\"approve\">Approve</button>" ++
  "<button type=\"submit\" name=\"action\" value=\"deny\">Deny</button>"

def verificationPage (prefill : String) (message : Option String)
    (grant : Option (DeviceGrant × Option String)) (csrf : Option String) : String :=
  pageHead ++
  (match message with
    | some message => "<p>" ++ escapeHtml message ++ "</p>"
    | none => "") ++
  "<form method=\"post\">" ++
  (match csrf with
    | some token =>
      "<input type=\"hidden\" name=\"csrf_token\" value=\"" ++ escapeHtml token ++ "\">"
    | none => "") ++
  (match grant with
    | some (grant, name) => decisionForm grant name
    | none => codeForm prefill) ++
  "</form></body></html>"

/-- A page that is only a message. -/
def verificationMessage (message : String) : String :=
  "<!DOCTYPE html><html lang=\"en\"><head><meta charset=\"utf-8\">" ++
  "<title>Device authorization</title></head><body><p>" ++ escapeHtml message ++ "</p></body></html>"

/-! ## What a request says about itself -/

def eqIgnoreAsciiCase (a b : String) : Bool := a.toList.map Char.toLower == b.toList.map Char.toLower

/-- How the form is protected, with what the host's hooks answer for the request at hand. -/
inductive VerificationProtection where
  | unwired
  | tokens (issue consume : Option String)
  | disabled
deriving DecidableEq, Repr

/-- What the headers of a request say, and who the host finds signed in. -/
structure Visitor where
  contentType : Option String
  secFetchSite : Option String
  origin : Option String
  subject : Option String
  protection : VerificationProtection
deriving DecidableEq, Repr

/-- The media type is compared without its parameters. -/
def Visitor.isFormUrlencoded (visitor : Visitor) : Bool :=
  visitor.contentType.any fun v =>
    let mime := ((v.toList.takeWhile (· != ';')).dropWhile isWhitespace).reverse.dropWhile isWhitespace
    eqIgnoreAsciiCase (String.ofList mime.reverse) "application/x-www-form-urlencoded"

/-- Whether the form was submitted from the server's own page. -/
def Visitor.sameOrigin (visitor : Visitor) (origin : String) : Bool :=
  match visitor.secFetchSite with
  | some site => eqIgnoreAsciiCase site "same-origin"
  | none => visitor.origin.any fun value => eqIgnoreAsciiCase value origin

/-- The scheme and the authority of an issuer. -/
def issuerOrigin (issuer : String) : String :=
  match splitScheme [] issuer.toList with
  | some (scheme, rest) => String.ofList (scheme ++ rest.takeWhile (· != '/'))
  | none => String.ofList (issuer.toList.takeWhile (· != '/'))

inductive VerificationRequest where
  /-- A visit, or the link that carries the code along. -/
  | page (query : String)
  | submit (body : Octets)
deriving DecidableEq, Repr

namespace Verification

open Handler

/-! ## Displaying a code -/

/-- What the limiter has been told about the code a page is about to display. -/
inductive CodeEntry where
  | uncharged
  | alreadyCharged
  | refused
deriving DecidableEq, Repr

/-- The limiter refused to let the code be looked up. -/
inductive Throttled where
  | throttled
deriving DecidableEq, Repr

def throttledMessage : String := "Too many attempts. Wait and try again."

def unrecognised : String := "That code was not recognised."

def notConfigured : Page :=
  htmlResponse 500 (verificationMessage ("This server is not configured to accept device " ++
    "approvals. The host must supply CSRF tokens (RFC 6749 s10.12)."))

def notSignedIn : Page := htmlResponse 403 (verificationMessage "You are not signed in.")

/-- Asks the limiter, unless it has been asked. -/
def admitEntry : CodeEntry → Handler Throttled Unit
  | .refused => throw .throttled
  | .uncharged => do
    match ← perform (.check .deviceUserCodeEntry) with
    | .deny => throw .throttled
    | .allow => pure ()
  | .alreadyCharged => pure ()

/-- The pending grant behind a code; a storage failure shows none. -/
def displayedGrant (enteredUserCode : String) : Handler Throttled (Option DeviceGrant) := do
  match ← tryStore (.findDeviceGrantByUserCode (normalizeUserCode enteredUserCode)) with
  | .ok found => pure (found.filter fun g => g.state == .pending)
  | .error _ => pure none

def displayedName (clientId : ClientId) : Handler Throttled (Option String) := do
  match ← tryStore (.getClient clientId) with
  | .ok client => pure (client.bind Client.name)
  | .error _ => pure none

def pendingGrant (enteredUserCode : String) (entry : CodeEntry) :
    Handler Throttled (Option (DeviceGrant × Option String)) := do
  admitEntry entry
  let grant ← displayedGrant enteredUserCode
  if entry = .uncharged then
    perform (.record .deviceUserCodeEntry (if grant.isSome then .succeeded else .failed))
  match grant with
  | none => pure none
  | some grant => do
    let name ← displayedName grant.clientId
    pure (some (grant, name))

/-- The token of the form, or the page of a visitor that gets no form. -/
def formToken : VerificationProtection → Except Page (Option String)
  | .unwired => .error notConfigured
  | .tokens (some token) _ => .ok (some token)
  | .tokens none _ => .error notSignedIn
  | .disabled => .ok none

/-- What the caller worked out wins over what the lookup says. -/
def statusAndMessage (entered : String) (status : Nat) (message : Option String)
    (lookedUp : Except Throttled (Option (DeviceGrant × Option String))) : Nat × Option String :=
  match message, lookedUp with
  | some m, _ => (status, some m)
  | none, .error .throttled => (429, some throttledMessage)
  | none, .ok none => (status, if entered.isEmpty then none else some unrecognised)
  | none, .ok (some _) => (status, none)

/-- Nobody is asked about a code that was not entered. -/
def lookUp (entered : String) (entry : CodeEntry) :
    Prog Effect Effect.Answer (Except Throttled (Option (DeviceGrant × Option String))) :=
  if entered.isEmpty then pure (.ok none) else (pendingGrant entered entry).run

def renderVerification (visitor : Visitor) (entered : String) (status : Nat)
    (message : Option String) (entry : CodeEntry) : Prog Effect Effect.Answer Page :=
  match formToken visitor.protection with
  | .error page => pure page
  | .ok csrf => do
    let lookedUp ← lookUp entered entry
    let (status, message) := statusAndMessage entered status message lookedUp
    pure (htmlResponse status (verificationPage entered message (lookedUp.toOption.join) csrf))

/-! ## Submitting a code -/

def failureMessage : DeviceApprovalError → String
  | .unknownUserCode => unrecognised
  | .expired => "That code has expired. Start again on the device."
  | .notPending => "That code has already been used."
  | .storage _ => "Something went wrong. Try again."
  | .rateLimited => throttledMessage

def failureStatus : DeviceApprovalError → Nat
  | .storage _ => 500
  | .rateLimited => 429
  | _ => 400

/-- The decision asked the limiter already; a code it refused must not be looked up. -/
def entryAfter : DeviceApprovalError → CodeEntry
  | .rateLimited => .refused
  | _ => .alreadyCharged

def decideEntry (userCode subject : String) (denied : Bool) : Handler DeviceApprovalError Unit :=
  if denied then Server.denyDevice userCode else Server.approveDevice userCode subject

def concludeSubmission (visitor : Visitor) (userCode subject : String) (denied : Bool) :
    Prog Effect Effect.Answer Page := do
  match ← (decideEntry userCode subject denied).run with
  | .ok () => pure (htmlResponse 200 (verificationMessage
      (if denied then "Request denied." else "Approved. You can return to your device.")))
  | .error e =>
    renderVerification visitor userCode (failureStatus e) (some (failureMessage e)) (entryAfter e)

end Verification

namespace Server

open Verification

variable (srv : Server)

/-- The page of a submission that is turned away before anybody looks at its code. -/
def refusedSubmission (visitor : Visitor) (form : List (String × String)) : Option Page :=
  if visitor.protection = .disabled then none
  else if !visitor.sameOrigin (issuerOrigin srv.config.trimmedIssuer) then
    some (htmlResponse 403 (verificationMessage "That request did not come from this site."))
  else match visitor.protection with
    | .unwired => some notConfigured
    | .disabled => none
    | .tokens _ consume =>
      -- compared by digest, so that the time taken says nothing
      if consume.any fun e =>
          srv.host.secretDigest e == srv.host.secretDigest ((param form "csrf_token").getD "") then
        none
      else some (htmlResponse 403 (verificationMessage "That form has expired. Start again."))

/-- A submission that came from the page: a code to look at, or a decision about one. -/
def acceptedSubmission (visitor : Visitor) (form : List (String × String)) :
    Prog Effect Effect.Answer Page :=
  let userCode := (param form "user_code").getD ""
  let action := (param form "action").getD ""
  let denied := action == "deny"
  let approved := action == "approve" || visitor.protection == .disabled
  if userCode.isEmpty then
    renderVerification visitor "" 400 (some "Enter the code shown on your device.") .uncharged
  else if !denied && !approved then
    renderVerification visitor userCode 200 none .uncharged
  else match visitor.subject with
    | none => pure notSignedIn
    | some subject => concludeSubmission visitor userCode subject denied

def verificationPageHandler (visitor : Visitor) (query : String) : Prog Effect Effect.Answer Page :=
  match parsePairs srv.host.fromUtf8Lossy query with
  | none => pure tooManyParameters
  | some pairs => renderVerification visitor ((param pairs "user_code").getD "") 200 none .uncharged

def verificationSubmitHandler (visitor : Visitor) (body : Octets) : Prog Effect Effect.Answer Page :=
  if !visitor.isFormUrlencoded then
    pure (htmlResponse 415 (verificationMessage
      "Expected an application/x-www-form-urlencoded submission."))
  else match parsePairs srv.host.fromUtf8Lossy (srv.host.fromUtf8Lossy body) with
    | none => pure tooManyParameters
    | some form =>
      match srv.refusedSubmission visitor form with
      | some page => pure page
      | none => acceptedSubmission visitor form

def verification (visitor : Visitor) : VerificationRequest → Prog Effect Effect.Answer Page
  | .page query => srv.verificationPageHandler visitor query
  | .submit body => srv.verificationSubmitHandler visitor body

end Server

end OauthAs
