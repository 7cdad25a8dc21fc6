-- SUMMARY: Authorization requests: where answers may be sent, the checks of a request, and the issuing of codes.
import OauthAs.Server.Code
import OauthAs.Server.Device

/-!
# Authorization requests

The client and the redirect URI are settled first. Until they are, a failure is reported directly;
afterwards it is sent to that URI, with the state of the request and this server's issuer. A code
is issued for an approved request once the sign-in the host reports satisfies what was asked.
-/

namespace OauthAs

/-! ## Requests -/

structure AuthorizationRequest where
  responseType : Option String := none
  clientId : Option String := none
  redirectUri : Option String := none
  scope : Option String := none
  state : Option String := none
  codeChallenge : Option String := none
  codeChallengeMethod : Option String := none
  resource : List String := []
  authorizationDetails : Option String := none
  acrValues : Option String := none
  maxAge : Option String := none
  dpopJkt : Option String := none
deriving DecidableEq, Repr

namespace AuthorizationRequest

/-- Takes in one pair: every `resource` counts, of every other parameter only the first. -/
def add (req : AuthorizationRequest) (pair : String × String) : AuthorizationRequest :=
  let (name, value) := pair
  match name with
  | "resource" => { req with resource := req.resource ++ [value] }
  | "response_type" => { req with responseType := req.responseType.or (some value) }
  | "client_id" => { req with clientId := req.clientId.or (some value) }
  | "redirect_uri" => { req with redirectUri := req.redirectUri.or (some value) }
  | "scope" => { req with scope := req.scope.or (some value) }
  | "state" => { req with state := req.state.or (some value) }
  | "code_challenge" => { req with codeChallenge := req.codeChallenge.or (some value) }
  | "code_challenge_method" =>
    { req with codeChallengeMethod := req.codeChallengeMethod.or (some value) }
  | "authorization_details" =>
    { req with authorizationDetails := req.authorizationDetails.or (some value) }
  | "acr_values" => { req with acrValues := req.acrValues.or (some value) }
  | "max_age" => { req with maxAge := req.maxAge.or (some value) }
  | "dpop_jkt" => { req with dpopJkt := req.dpopJkt.or (some value) }
  | _ => req

def fromPairs (pairs : List (String × String)) : AuthorizationRequest := pairs.foldl add {}

end AuthorizationRequest

inductive AuthorizationError where
  | direct (error : ErrorResponse)
  | redirect (error : AuthorizationErrorRedirect)
deriving DecidableEq, Repr

/-- A failure that has no address to be sent to. -/
def AuthorizationError.refuse (error : ErrorCode) (why : String) : AuthorizationError :=
  .direct ((ErrorResponse.new error).withDescription why)

def ValidatedAuthorizationRequest.denied (request : ValidatedAuthorizationRequest) :
    AuthorizationErrorRedirect :=
  ⟨request.redirectUri, .new .accessDenied, request.state, request.issuer⟩

/-! ## Redirect URIs -/

/-- The two loopback addresses a port may be left open for. -/
def loopbackHosts : List String := ["127.0.0.1", "[::1]"]

/-- What is left of a text after the words it has to start with. -/
def stripWords : List Char → List Char → Option (List Char)
  | [], text => some text
  | w :: words, c :: text => if w = c then stripWords words text else none
  | _ :: _, [] => none

/-- What a port and a suffix come to, for a host that was recognised. -/
def portParts (host : String) (rest : List Char) : Option (String × List Char) :=
  let digits := rest.takeWhile Char.isDigit
  if digits.isEmpty || decide (decimal digits ≥ 2 ^ 16) || decide (decimal digits = 0) then none
  else
    let suffix := rest.dropWhile Char.isDigit
    if (suffix.head?.all fun c => c == '/' || c == '?') && !suffix.contains '#' then
      some (host, suffix)
    else none

/-- Host and suffix of a loopback URI with an explicit port; the port is not part of them. -/
def loopbackParts (uri : String) : Option (String × List Char) := do
  let (host, rest) ← loopbackHosts.findSome? fun host =>
    (stripWords ("http://" ++ host ++ ":").toList uri.toList).map (host, ·)
  portParts host rest

/-- Equal but for the port. -/
def loopbackRedirectMatches (registered requested : String) : Bool :=
  match loopbackParts registered, loopbackParts requested with
  | some a, some b => a == b
  | _, _ => false

/-- Whether a requested URI is accepted against one that is registered. -/
def Client.acceptsRedirect (client : Client) (registered requested : String) : Bool :=
  registered == requested ||
    (client.auth == .publicClient && loopbackRedirectMatches registered requested)

/-! ## What a request asks for -/

/-- The non-empty words between single spaces. -/
def spaceSeparated (text : String) : List String :=
  (segments ' ' text).filter fun word => !word.isEmpty

def ScopeSet.parse (text : String) : Except String ScopeSet := do
  return .ofTokens (← (spaceSeparated text).mapM Scope.new)

/-- A number of seconds: decimal digits, possibly after a plus sign. -/
def parseSeconds (text : String) : Option Nat :=
  match text.toList with
  | '+' :: digits => parseU64 (String.ofList digits)
  | _ => parseU64 text

def maxAcrValues : Nat := 16

namespace AuthenticationRequirement

def fromRaw (acrValues maxAge : Option String) : Except ErrorResponse AuthenticationRequirement :=
  let classes := (acrValues.map spaceSeparated).getD []
  if classes.length > maxAcrValues then
    .error ((ErrorResponse.new .invalidRequest).withDescription
      "acr_values names more authentication context classes than this server accepts")
  else
    match maxAge with
    | .none => .ok ⟨classes, .none⟩
    | some raw =>
      match parseSeconds raw with
      | .none => .error ((ErrorResponse.new .invalidRequest).withDescription
          "max_age must be a non-negative number of seconds")
      | some secs => .ok ⟨classes, some (.fromSecs secs)⟩

def fromRequest (request : AuthorizationRequest) : Except ErrorResponse AuthenticationRequirement :=
  fromRaw request.acrValues request.maxAge

end AuthenticationRequirement

def StepUpFailure.description : StepUpFailure → String
  | notReported => "no user authentication was reported for this request"
  | stale => "the user authentication is older than the requested max_age"
  | acrNotMet => "the user authentication does not satisfy the requested acr_values"

def StepUpFailure.errorResponse (failure : StepUpFailure) : ErrorResponse :=
  (ErrorResponse.new .insufficientUserAuthentication).withDescription failure.description

def challengeIsWellFormed (challenge : String) : Bool :=
  challenge.utf8ByteSize = 43 && challenge.toList.all fun c => c.isAlphanum || c == '-' || c == '_'

/-! ## Authorization details -/

mutual
/-- How deep a value is nested. -/
def Json.depth : Json → Nat
  | .array elements => 1 + elements.depth
  | .object members => 1 + members.depth
  | _ => 1

/-- The depth of the deepest element. -/
def JsonArray.depth : JsonArray → Nat
  | .nil => 0
  | .cons head tail => max head.depth tail.depth

/-- The depth of the deepest member. -/
def JsonObject.depth : JsonObject → Nat
  | .nil => 0
  | .cons _ value tail => max value.depth tail.depth
end

def maxAuthorizationDetailsBytes : Nat := 4096

def maxAuthorizationDetailsElements : Nat := 16

def maxDetailListEntries : Nat := 16

def maxMemberDepth : Nat := 6

def invalidDetails (why : String) : ErrorResponse :=
  (ErrorResponse.new .invalidAuthorizationDetails).withDescription why

/-- The bounds one element has to keep. -/
def AuthorizationDetail.bounded (detail : AuthorizationDetail) : Except ErrorResponse Unit :=
  if detail.detailType.isEmpty then
    .error (invalidDetails "each authorization_details element needs a non-empty type (RFC 9396 s2)")
  else if [detail.locations, detail.actions, detail.datatypes, detail.privileges].any fun list =>
      decide (list.length > maxDetailListEntries) then
    .error (invalidDetails ("an authorization_details element lists more locations, actions, " ++
      "datatypes or privileges than this server accepts"))
  else if detail.other.depth > maxMemberDepth then
    .error (invalidDetails "authorization_details is nested more deeply than this server accepts")
  else .ok ()

def AuthorizationDetails.parse (read : String → Option AuthorizationDetails) (raw : String) :
    Except ErrorResponse AuthorizationDetails :=
  if raw.utf8ByteSize > maxAuthorizationDetailsBytes then
    .error (invalidDetails "authorization_details is larger than this server accepts")
  else
    match read raw with
    | none => .error (invalidDetails ("authorization_details must be a JSON array of objects, " ++
        "each with a string type member (RFC 9396 s2)"))
    | some details =>
      if details.length > maxAuthorizationDetailsElements then
        .error (invalidDetails "authorization_details has more elements than this server accepts")
      else do
        details.forM AuthorizationDetail.bounded
        return details

def AuthorizationDetails.requireSupportedTypes (details : AuthorizationDetails)
    (supported : Option (List String)) : Except ErrorResponse Unit :=
  if details.all fun detail => (supported.getD []).contains detail.detailType then .ok ()
  else .error (invalidDetails "unknown authorization_details type (RFC 9396 s5)")

namespace Server

open Handler

variable (srv : Server)

/-! ## Validation -/

/-- Where answers to the request go: the URI it names, if that is registered or, for a public
client, is a registered loopback URI but for the port; otherwise the only one registered. -/
def redirectTarget (client : Client) (request : AuthorizationRequest) :
    Except AuthorizationError String :=
  match request.redirectUri with
  | some requested =>
    if client.redirectUris.any (client.acceptsRedirect · requested) then .ok requested
    else .error (.refuse .invalidRequest "redirect_uri does not exactly match a registered URI")
  | none =>
    match client.redirectUris with
    | [only] => .ok only
    | _ => .error (.refuse .invalidRequest "redirect_uri is required for this client")

/-- What a request has to be whatever it asks for. -/
def checkForm (client : Client) (request : AuthorizationRequest) : Except ErrorResponse Unit :=
  let refuse (error : ErrorCode) (why : String) : Except ErrorResponse Unit :=
    .error ((ErrorResponse.new error).withDescription why)
  match request.responseType with
  | none => refuse .invalidRequest "missing response_type"
  | some responseType =>
    if responseType ≠ "code" then
      refuse .unsupportedResponseType "this server issues authorization codes only"
    else if !client.allowsGrant .authorizationCode then
      refuse .unauthorizedClient "client registration does not include the authorization_code grant"
    else
      match request.codeChallengeMethod with
      | none => refuse .invalidRequest "code_challenge_method=S256 is required"
      | some method =>
        if method ≠ "S256" then
          refuse .invalidRequest "only code_challenge_method=S256 is supported"
        else if !challengeIsWellFormed (request.codeChallenge.getD "") then
          refuse .invalidRequest
            "code_challenge must be the base64url SHA-256 form of RFC 7636 section 4.2"
        else .ok ()

def requestedScope (client : Client) (request : AuthorizationRequest) :
    Except ErrorResponse ScopeSet :=
  match request.scope with
  | none => .ok (grantedDefaultScope client)
  | some text =>
    match ScopeSet.parse text with
    | .error _ => .error ((ErrorResponse.new .invalidScope).withDescription "malformed scope")
    | .ok requested =>
      if requested.isSubset client.allowedScopes then .ok requested
      else .error ((ErrorResponse.new .invalidScope).withDescription
        "requested scope exceeds the client registration")

def requestedDetails (request : AuthorizationRequest) : Except ErrorResponse AuthorizationDetails :=
  match request.authorizationDetails with
  | none => .ok []
  | some raw => do
    let parsed ← AuthorizationDetails.parse srv.host.parseDetails raw
    parsed.requireSupportedTypes srv.config.authorizationDetailsTypesSupported
    return parsed

/-- The checks whose failures the client is told of at its redirect URI. -/
def checkRequest (client : Client) (request : AuthorizationRequest) (redirectUri : String) :
    Except ErrorResponse ValidatedAuthorizationRequest := do
  checkForm client request
  let scope ← requestedScope client request
  let resource ← srv.validateResources request.resource
  let details ← srv.requestedDetails request
  let requirement ← AuthenticationRequirement.fromRequest request
  return {
    clientId := client.clientId
    redirectUri
    redirectUriWasExplicit := request.redirectUri.isSome
    scope
    state := request.state
    codeChallenge := request.codeChallenge.getD ""
    codeChallengeMethod := .s256
    issuer := srv.issuerIdentifier
    resource
    authorizationDetails := details
    dpopJkt := request.dpopJkt
    authenticationRequirement := requirement }

/-- The judgement of a request against a registration. -/
def validateFor (client : Client) (request : AuthorizationRequest) :
    Except AuthorizationError ValidatedAuthorizationRequest := do
  let redirectUri ← redirectTarget client request
  match srv.checkRequest client request redirectUri with
  | .ok validated => return validated
  | .error error =>
    throw (.redirect ⟨redirectUri, error, request.state, srv.issuerIdentifier⟩)

def validateDirectAuthorizationRequestInner (request : AuthorizationRequest) :
    Handler AuthorizationError ValidatedAuthorizationRequest :=
  match request.clientId.filter fun id => !id.isEmpty with
  | none => throw (.refuse .invalidRequest "missing client_id")
  | some clientId => do
    match ← storeOr (fun _ => .refuse .serverError "storage unavailable") (.getClient clientId) with
    | none => throw (.refuse .invalidRequest "unknown client_id")
    | some client => judge (srv.validateFor client request)

/-- The limiter is asked first, and told how an admitted request went. -/
def validateDirectAuthorizationRequest (request : AuthorizationRequest) :
    Handler AuthorizationError ValidatedAuthorizationRequest := do
  let attempt := Attempt.authorizationRequest (request.clientId.getD "")
  match ← perform (.check attempt) with
  | .deny =>
    throw (.refuse .temporarilyUnavailable "too many authorization requests; retry later")
  | .allow =>
    let outcome ← ExceptT.lift (srv.validateDirectAuthorizationRequestInner request).run
    perform (.record attempt (if outcome.isOk then .succeeded else .failed))
    judge outcome

/-- The deployment takes request data only through the push endpoint. -/
def requiresPushed : Bool := srv.config.par.any ParConfig.requirePushedAuthorizationRequests

/-- The deployment acts only on signed requests. -/
def requiresSigned : Bool := srv.config.jar.any JarConfig.requireSignedRequestObject

def onlyViaPar : AuthorizationError :=
  .refuse .invalidRequest
    "this server accepts authorization request data only via PAR (RFC 9126 s4)"

/-- The door for parameters in the query. -/
def validateAuthorizationRequest (request : AuthorizationRequest) :
    Handler AuthorizationError ValidatedAuthorizationRequest :=
  if srv.requiresPushed then throw onlyViaPar
  else if srv.requiresSigned then
    throw (.refuse .invalidRequest "this server requires a signed request object (RFC 9101 s10.5)")
  else srv.validateDirectAuthorizationRequest request

/-! ## Issuing -/

def issueAuthorizationCodeWithAuthentication (approval : UserApproval)
    (requirement : AuthenticationRequirement) (authentication : Option Authentication) :
    Handler AuthorizationErrorRedirect AuthorizationResponse := do
  let now ← now
  match requirement.satisfiedBy authentication now with
  | .error failure => throw (authorizationErrorFor approval.request failure.errorResponse)
  | .ok () => srv.issueAuthorizationCodeInner approval authentication

/-- Nothing is reported about the sign-in, so only a request that asks nothing of it passes. -/
def issueAuthorizationCode (approval : UserApproval) :
    Handler AuthorizationErrorRedirect AuthorizationResponse :=
  srv.issueAuthorizationCodeWithAuthentication approval
    approval.request.authenticationRequirement none

end Server

end OauthAs
