-- SUMMARY: Pushed and signed authorization requests: lodging one, presenting its handle, and reading a request object.
import OauthAs.Server.Authorize
import OauthAs.Server.Proof

/-!
# Pushed and signed requests

A client may lodge its request in advance and send the browser with a handle, or send the request
as an object it signed. A handle is taken out of the store when it is presented and put back if
the presenter is not the client that pushed it. A request object is believed only under the key
registered for the client, and then is the only source of the request's parameters.
-/

namespace OauthAs

def PushedAuthorizationRequest.asRequest (record : PushedAuthorizationRequest) :
    AuthorizationRequest where
  responseType := record.responseType
  clientId := some record.clientId
  redirectUri := record.redirectUri
  scope := record.scope
  state := record.state
  codeChallenge := record.codeChallenge
  codeChallengeMethod := record.codeChallengeMethod
  resource := record.resource
  authorizationDetails := record.authorizationDetails
  acrValues := record.acrValues
  maxAge := record.maxAge
  dpopJkt := record.dpopJkt

structure PushedAuthorizationResponse where
  requestUri : String
  expiresIn : Nat
deriving DecidableEq, Repr

def ParConfig.endpoint (par : ParConfig) (issuer : String) : String :=
  par.pushedAuthorizationRequestEndpoint.getD (issuer ++ "/par")

/-- What a client pushes: its credential, the form as it arrived and the DPoP header. -/
structure PushRequest where
  clientId : ClientId
  cred : ClientCredential
  parameters : List (String × String)
  dpopProof : Option String
deriving DecidableEq

/-- A failure of validation, without the address it could be sent to. -/
def AuthorizationError.body : AuthorizationError → ErrorResponse
  | .direct error => error
  | .redirect error => error.error

/-- The record a pushed request is kept as. -/
def pushedRecord (clientId : ClientId) (request : AuthorizationRequest) (requestUri : String)
    (pushedAt expiresAt : SystemTime) : PushedAuthorizationRequest where
  requestUri := requestUri
  clientId := clientId
  responseType := request.responseType
  redirectUri := request.redirectUri
  scope := request.scope
  state := request.state
  codeChallenge := request.codeChallenge
  codeChallengeMethod := request.codeChallengeMethod
  resource := request.resource
  authorizationDetails := request.authorizationDetails
  acrValues := request.acrValues
  maxAge := request.maxAge
  dpopJkt := request.dpopJkt
  pushedAt := pushedAt
  expiresAt := expiresAt

def minRequestUriTtl : Duration := .fromSecs 1

def requestUriPrefix : String := "urn:ietf:params:oauth:request_uri:"

/-! ## Request objects -/

def maxRequestObjectBytes : Nat := 64 * 1024

def requestObjectTyp : String := "oauth-authz-req+jwt"

def invalidObject (why : String) : ErrorResponse :=
  (ErrorResponse.new .invalidRequestObject).withDescription why

structure RequestObjectClaims where
  clientId : String
  responseType : Option String
  redirectUri : Option String
  scope : Option String
  state : Option String
  codeChallenge : Option String
  codeChallengeMethod : Option String
  resource : List String
  authorizationDetails : Option String
  acrValues : Option String
  maxAge : Option String
  dpopJkt : Option String
deriving DecidableEq, Repr

def RequestObjectClaims.asRequest (claims : RequestObjectClaims) : AuthorizationRequest where
  responseType := claims.responseType
  clientId := some claims.clientId
  redirectUri := claims.redirectUri
  scope := claims.scope
  state := claims.state
  codeChallenge := claims.codeChallenge
  codeChallengeMethod := claims.codeChallengeMethod
  resource := claims.resource
  authorizationDetails := claims.authorizationDetails
  acrValues := claims.acrValues
  maxAge := claims.maxAge
  dpopJkt := claims.dpopJkt

/-- A claim that has to be a string if it is there. -/
def stringClaim (claims : JsonObject) (name : String) : Except ErrorResponse (Option String) :=
  match claims.get? name with
  | none => .ok none
  | some (.string text) => .ok (some text)
  | some _ => .error (invalidObject ("the " ++ name ++ " claim must be a JSON string"))

/-- A date claim; any JSON number is one. -/
def numericDate (b : JwsBackend) (claims : JsonObject) (name : String) :
    Except ErrorResponse (Option Rat) :=
  match claims.get? name with
  | none => .ok none
  | some (.number text) => .ok (some (b.f64 text))
  | some _ => .error (invalidObject
      ("the request object's " ++ name ++ " is not a NumericDate (RFC 7519 s2)"))

/-- The members of a header; one that is JSON but no object has none. -/
def objectHeader (b : JwsBackend) (octets : Octets) : Except ErrorResponse JsonObject :=
  match b.parseJson octets with
  | none => .error (invalidObject "the header is not JSON")
  | some (.object members) => .ok members
  | some _ => .ok .nil

/-- The header of a request object, judged against the registered key. -/
def checkObjectHeader (registered : RegisteredRequestObjectKey) (header : JsonObject) :
    Except ErrorResponse Unit :=
  match header.get? "crit" with
  | some (.array names) => .error (invalidObject (match names with
      | .nil => "the header has an empty crit, which RFC 7515 s4.1.11 forbids"
      | .cons _ _ => "the header's crit names an extension this server does not implement"))
  | some _ => .error (invalidObject "the header's crit is not an array")
  | none =>
    match (header.get? "alg").bind Json.asStr with
    | none => .error (invalidObject "the header has no alg")
    | some alg =>
      if classifyAlg alg ≠ some registered.alg then
        .error (invalidObject "alg does not match the algorithm registered for this client")
      else if ((header.get? "kid").bind Json.asStr).any fun kid => registered.kid ≠ some kid then
        .error (invalidObject "kid does not identify a key registered for this client")
      else if ((header.get? "typ").bind Json.asStr).any fun typ =>
          ! ["JWT", "jwt", requestObjectTyp].contains typ then
        .error (invalidObject "typ names a JWT that is not a request object")
      else .ok ()

/-- The payload of a request object: header and signature are judged before it is looked at. -/
def verifiedPayload (b : JwsBackend) (registered : RegisteredRequestObjectKey)
    (verify : String → String → Octets → Bool) (object : String) :
    Except ErrorResponse JsonObject :=
  match segments '.' object with
  | [header, payload, signature] => do
    let headerOctets ← (b.base64Url header).elim (.error (invalidObject "the header is not base64url")) .ok
    let members ← objectHeader b headerOctets
    checkObjectHeader registered members
    let signatureOctets ← (b.base64Url signature).elim
      (.error (invalidObject "the signature is not base64url")) .ok
    if !verify registered.key (header ++ "." ++ payload) signatureOctets then
      .error (invalidObject "the signature did not verify")
    else do
      let payloadOctets ← (b.base64Url payload).elim
        (.error (invalidObject "the payload is not base64url")) .ok
      match b.parseJson payloadOctets with
      | none => .error (invalidObject "the payload is not JSON")
      | some (.object claims) => .ok claims
      | some _ => .error (invalidObject "the payload is not a JSON object")
  | _ => .error (invalidObject "not a three part JWS compact serialization")

def audienceOfObject (issuer : String) : Option Json → Bool
  | none => true
  | some (.string one) => one == issuer
  | some (.array many) => many.toList.any fun v => v.asStr == some issuer
  | some _ => false

/-- The lifetime of an object. It has to end, soon enough, and to have begun. -/
def checkObjectTimes (b : JwsBackend) (lifetime : Duration) (claims : JsonObject)
    (now : SystemTime) : Except ErrorResponse Unit := do
  let nowSecs ← match unixSeconds now with
    | none => .error ((ErrorResponse.new .serverError).withDescription
        "the server clock is outside the representable range")
    | some secs => .ok (secs : Rat)
  let exp ← match ← numericDate b claims "exp" with
    | none => .error (invalidObject ("the request object has no exp, so it would authorize its " ++
        "request for as long as the client's key stays registered"))
    | some exp => .ok exp
  if nowSecs ≥ exp then .error (invalidObject "the request object has expired")
  else if exp - nowSecs > (lifetime.asSecs : Rat) then
    .error (invalidObject "the request object's remaining lifetime exceeds what this server accepts")
  else do
    if (← numericDate b claims "nbf").any fun nbf =>
        decide (nowSecs + (clockSkewLeeway.asSecs : Rat) ≤ nbf) then
      .error (invalidObject "the request object is not yet valid")
    else .ok ()

def resourceClaim (claims : JsonObject) : Except ErrorResponse (List String) :=
  match claims.get? "resource" with
  | none => .ok []
  | some (.string one) => .ok [one]
  | some (.array many) => many.toList.mapM fun value => match value.asStr with
      | some text => .ok text
      | none => .error (invalidObject "every resource claim entry must be a JSON string")
  | some _ => .error (invalidObject "the resource claim must be a string or an array of strings")

def detailsClaim (render : JsonArray → String) (claims : JsonObject) :
    Except ErrorResponse (Option String) :=
  match claims.get? "authorization_details" with
  | none => .ok none
  | some (.array elements) => .ok (some (render elements))
  | some _ => .error (invalidObject "the authorization_details claim must be a JSON array")

def maxAgeClaim (claims : JsonObject) : Except ErrorResponse (Option String) :=
  match claims.get? "max_age" with
  | none => .ok none
  | some (.string text) => .ok (some text)
  | some (.number text) =>
    match (Json.number text).asU64 with
    | some secs => .ok (some (toString secs))
    | none => .error (invalidObject "the max_age claim must be a non-negative number of seconds")
  | some _ => .error (invalidObject "the max_age claim must be a JSON string or number")

/-- The parameters an object carries. -/
def readClaims (render : JsonArray → String) (clientId : ClientId) (claims : JsonObject) :
    Except ErrorResponse RequestObjectClaims := do
  let resource ← resourceClaim claims
  return {
    clientId
    responseType := ← stringClaim claims "response_type"
    redirectUri := ← stringClaim claims "redirect_uri"
    scope := ← stringClaim claims "scope"
    state := ← stringClaim claims "state"
    codeChallenge := ← stringClaim claims "code_challenge"
    codeChallengeMethod := ← stringClaim claims "code_challenge_method"
    resource
    authorizationDetails := ← detailsClaim render claims
    acrValues := ← stringClaim claims "acr_values"
    maxAge := ← maxAgeClaim claims
    dpopJkt := ← stringClaim claims "dpop_jkt" }

namespace Server

open Handler

variable (srv : Server)

/-- What the object's claims have to be, apart from the parameters. -/
def checkObjectClaims (clientId : ClientId) (claims : JsonObject) (now : SystemTime) :
    Except ErrorResponse Unit := do
  if ["request", "request_uri"].any fun name => (claims.get? name).isSome then
    .error (invalidObject "a request object must not carry request or request_uri (RFC 9101 s4)")
  else do
    if (← stringClaim claims "client_id") ≠ some clientId then
      .error (invalidObject
        "the client_id claim does not match the request's client_id (RFC 9101 s6.3)")
    else if !audienceOfObject srv.issuerIdentifier (claims.get? "aud") then
      .error (invalidObject "aud does not name this authorization server")
    else
      checkObjectTimes srv.host.jws
        ((srv.config.jar.map JarConfig.maxRequestObjectLifetime).getD (.fromSecs 300)) claims now

/-- The payload of an object that the key registered for the client signed. -/
def signedPayload (clientId : ClientId) (object : String) : Except ErrorResponse JsonObject :=
  if srv.config.jar.isNone then
    .error ((ErrorResponse.new .requestNotSupported).withDescription
      "this server does not accept signed request objects")
  else if object.utf8ByteSize > maxRequestObjectBytes then
    .error (invalidObject "the request object exceeds the maximum accepted size")
  else
    match srv.host.requestObjectKeys with
    | none => .error (invalidObject "no request object verification keys are installed")
    | some keys =>
      match keys clientId with
      | none => .error (invalidObject "the client registered no request object key")
      | some registered =>
        match srv.host.jws.verifier registered.alg with
        | none => .error (invalidObject "no verifier is installed for the registered algorithm")
        | some verify => verifiedPayload srv.host.jws registered verify object

/-- The clock is read once the payload is believed; everything before does not depend on it. -/
def verifiedRequestObject (clientId : ClientId) (object : String) :
    Handler ErrorResponse RequestObjectClaims := do
  let claims ← judge (srv.signedPayload clientId object)
  let now ← now
  judge (srv.checkObjectClaims clientId claims now)
  judge (readClaims srv.host.renderJson clientId claims)

/-! ## The push endpoint -/

/-- A proof that comes with the push decides the key; a key the request names has to be that one. -/
def bindParDpop (request : AuthorizationRequest) (dpopProof : Option String) :
    Handler ErrorResponse AuthorizationRequest :=
  match dpopProof with
  | none => pure request
  | some proof =>
    match srv.config.par with
    | none => throw (.new .serverError)
    | some par => do
      let jkt ← srv.verifyDpopInner (some proof) "POST" (par.endpoint srv.issuerIdentifier)
      if request.dpopJkt.any fun named => some named ≠ jkt then
        throw (invalidDpopProof.withDescription ("the dpop_jkt parameter does not match the key " ++
          "of the DPoP proof presented at the PAR endpoint (RFC 9449 s10.1)"))
      else pure { request with dpopJkt := jkt }

def badRequest (why : String) : ErrorResponse := (ErrorResponse.new .invalidRequest).withDescription why

def storePushedRequest (authenticated : ClientId) (request : AuthorizationRequest)
    (pushedAt : SystemTime) : Handler ErrorResponse PushedAuthorizationResponse :=
  if request.clientId = none then throw (badRequest "client_id is required (RFC 9126 s2.1)")
  else if request.clientId ≠ some authenticated then
    throw (badRequest "client_id does not match the authenticated client (RFC 9126 s2.1)")
  else if srv.config.par.any ParConfig.requireRedirectUri && request.redirectUri.isNone then
    throw (badRequest
      "redirect_uri is required in a pushed authorization request (FAPI 2.0 s5.3.2.2-6)")
  else do
    match ← ExceptT.lift (srv.validateDirectAuthorizationRequest request).run with
    | .error e => throw (AuthorizationError.body e)
    | .ok _ =>
      match srv.config.par with
      | none => throw (badRequest "this server does not offer pushed authorization requests")
      | some par =>
        let now ← now
        match ← perform (.randomHex 32) with
        | none => throw (.new .serverError)
        | some hex =>
          let expiresAt := srv.deadline now (max par.requestUriTtl minRequestUriTtl)
          let requestUri := requestUriPrefix ++ hex.text
          match ← store (.putPushedAuthorizationRequest
              (pushedRecord authenticated request requestUri pushedAt expiresAt)) with
          | .refusedRevoked => throw ((ErrorResponse.new .invalidClient).withDescription
              "this client was deleted while its request was being pushed")
          | .applied =>
            pure ⟨requestUri, ((expiresAt.durationSince now).getD minRequestUriTtl).asSecs⟩

/-- The request a push is about: the object's parameters alone if there is an object, which there
has to be where signed requests are required. -/
def pushedParameters (client : Client) (parameters : List (String × String)) :
    Handler ErrorResponse AuthorizationRequest :=
  match parameters.find? fun pair => pair.1 == "request" with
  | some (_, object) => do
    let claims ← srv.verifiedRequestObject client.clientId object
    pure claims.asRequest
  | none =>
    if srv.requiresSigned then
      throw (badRequest ("this server acts only on signed request objects (RFC 9101 s10.5), and " ++
        "this push carried none"))
    else pure (.fromPairs parameters)

def pushedAuthorizationRequest (p : PushRequest) :
    Handler ErrorResponse PushedAuthorizationResponse :=
  if srv.config.par.isNone then
    throw (badRequest "this server does not offer pushed authorization requests")
  else do
    -- Before the registration is read: a deletion in between has to outrank this push.
    let pushedAt ← now
    let client ← srv.authenticateClient p.clientId p.cred
    if p.parameters.any fun pair => pair.1 == "request_uri" then
      throw (badRequest "request_uri must not be pushed (RFC 9126 s2.1)")
    else do
      let request ← srv.pushedParameters client p.parameters
      let request ← srv.bindParDpop request p.dpopProof
      srv.storePushedRequest client.clientId request pushedAt

/-! ## Presenting a handle or an object -/

def validatePushedAuthorizationRequest (clientId requestUri : String) :
    Handler AuthorizationError ValidatedAuthorizationRequest := do
  match ← storeOr (fun _ => .direct (.new .serverError)) (.takePushedAuthorizationRequest requestUri) with
  | none => throw (.refuse .invalidRequestUri "unknown, expired or already used request_uri")
  | some record =>
    if record.clientId ≠ clientId then do
      -- A refused write means the pushing client is gone, and then so is its request.
      let _ ← storeOr (fun _ => .direct (.new .serverError)) (.putPushedAuthorizationRequest record)
      throw (.refuse .invalidRequestUri "request_uri was not issued to this client")
    else do
      let now ← now
      if now ≥ record.expiresAt then
        throw (.refuse .invalidRequestUri "request_uri has expired")
      else srv.validateDirectAuthorizationRequest record.asRequest

def validateSignedAuthorizationRequest (clientId object : String) :
    Handler AuthorizationError ValidatedAuthorizationRequest :=
  if srv.requiresPushed then throw onlyViaPar
  else do
    match ← ExceptT.lift (srv.verifiedRequestObject clientId object).run with
    | .error e => throw (.direct e)
    | .ok claims => srv.validateDirectAuthorizationRequest claims.asRequest

end Server

end OauthAs
