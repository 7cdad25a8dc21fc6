-- SUMMARY: The route table the HTTP service derives from its metadata, and how a request path is matched against it.
import OauthAs.Server.Endpoint
import OauthAs.Server.Metadata

/-!
# Routes

`build` takes each advertised URL apart at the issuer and files the rest, in the form a client
puts on the wire, in the route table; it refuses a URL outside the issuer and two endpoints on one
path. A request path is brought to the same form, as far as the case of its escapes goes, and
compared byte by byte. Texts are handled as their UTF-8 octets throughout.
-/

namespace OauthAs

/-- The UTF-8 encoding of a text. -/
def octets (text : String) : Octets := text.toList.flatMap String.utf8EncodeChar

/-! ## Escapes -/

def toAsciiUppercase (b : UInt8) : UInt8 := if 97 ≤ b ∧ b ≤ 122 then b - 32 else b

/-- The upper-case hexadecimal digit of a value below sixteen. -/
def hexDigit (v : UInt8) : UInt8 := if v < 10 then 48 + v else 55 + v

def isAsciiAlphanumeric (b : UInt8) : Bool :=
  (48 ≤ b && b ≤ 57) || (97 ≤ b && b ≤ 122) || (65 ≤ b && b ≤ 90)

/-- Octets that stand for themselves in a path: those of a path segment, the separator, and the
sign that introduces an escape. -/
def isVerbatim (b : UInt8) : Bool :=
  isAsciiAlphanumeric b || (octets "-._~!$&'()*+,;=:@/%").contains b

/-- A `%` followed by two hexadecimal digits. -/
def startsEscape : Octets → Bool
  | 37 :: h :: l :: _ => (hexValue h).isSome && (hexValue l).isSome
  | _ => false

/-- A configured path in the form a client puts on the wire: what is not of the path grammar is
escaped, and the escapes that are there get upper-case digits. -/
def encodeRoutePath : Octets → Octets
  | [] => []
  | b :: rest =>
    if startsEscape (b :: rest) then
      match rest with
      | h :: l :: rest => 37 :: toAsciiUppercase h :: toAsciiUppercase l :: encodeRoutePath rest
      | _ => []
    else if isVerbatim b then b :: encodeRoutePath rest
    else 37 :: hexDigit (b >>> 4) :: hexDigit (b &&& 15) :: encodeRoutePath rest

/-- Whether an escape with a lower-case digit starts here. -/
def startsLowercaseEscape : Octets → Bool
  | 37 :: h :: l :: rest =>
    startsEscape (37 :: h :: l :: rest) && ((97 ≤ h && h ≤ 122) || (97 ≤ l && l ≤ 122))
  | _ => false

def needsUppercase : Octets → Bool
  | [] => false
  | b :: rest => startsLowercaseEscape (b :: rest) || needsUppercase rest

def uppercaseEach : Octets → Octets
  | [] => []
  | b :: rest =>
    if startsEscape (b :: rest) then
      match rest with
      | h :: l :: rest => 37 :: toAsciiUppercase h :: toAsciiUppercase l :: uppercaseEach rest
      | _ => []
    else b :: uppercaseEach rest

/-- A path as it arrived, with upper-case digits in its escapes and nothing else changed. -/
def uppercaseEscapes (path : Octets) : Octets :=
  if needsUppercase path then uppercaseEach path else path

/-! ## Paths under the issuer -/

/-- What follows the first `://`. -/
def afterScheme : Octets → Option Octets
  | [] => none
  | b :: rest =>
    if b = 58 ∧ rest.take 2 = [47, 47] then some (rest.drop 2) else afterScheme rest

def trimEndSlashes (path : Octets) : Octets := (path.reverse.dropWhile (· == 47)).reverse

/-- The path of an issuer, without trailing slashes; a text without a scheme is read as an
authority and a path. -/
def issuerPath (issuer : Octets) : Octets :=
  trimEndSlashes (((afterScheme issuer).getD issuer).dropWhile (· != 47))

def wellKnownPath (issuer : Octets) : Octets :=
  octets "/.well-known/oauth-authorization-server" ++ issuerPath issuer

inductive ServiceError where
  | endpointOutsideIssuer (endpoint url : String)
  | duplicatePath (path : Octets)
  | jwksNotServable (url : String)
deriving DecidableEq, Repr

/-- The text after a leading text. -/
def stripText (lead text : Octets) : Option Octets :=
  if lead.isPrefixOf text then some (text.drop lead.length) else none

/-- The path an advertised URL is served at, counted from the root of the origin. -/
def endpointPath (issuer endpoint url : String) : Except ServiceError Octets :=
  match stripText (octets issuer) (octets url) with
  | some (47 :: rest) => .ok (encodeRoutePath (issuerPath (octets issuer) ++ 47 :: rest))
  | _ => .error (.endpointOutsideIssuer endpoint url)

/-! ## The table -/

structure Routes where
  wellKnown : Octets
  authorize : Octets
  token : Octets
  device : Octets
  introspect : Option Octets
  revoke : Option Octets
  verification : Option Octets
  register : Option Octets
  /-- Where registrations are managed, up to the slash before the client id. -/
  manage : Option Octets
  par : Option Octets
  jwks : Option Octets
deriving DecidableEq, Repr

inductive Route where
  | metadata
  | authorize
  | token
  | device
  | introspect
  | revoke
  | verification
  | register
  | manage (clientId : Octets)
  | par
  | jwks
deriving DecidableEq, Repr

namespace Routes

/-- The fixed paths, in the order in which they are tried. -/
def table (r : Routes) : List (Octets × Route) :=
  [(r.wellKnown, .metadata), (r.authorize, .authorize), (r.token, .token), (r.device, .device)]
    ++ (r.introspect.map (·, Route.introspect)).toList ++ (r.revoke.map (·, Route.revoke)).toList
    ++ (r.verification.map (·, Route.verification)).toList
    ++ (r.register.map (·, Route.register)).toList
    ++ (r.par.map (·, Route.par)).toList ++ (r.jwks.map (·, Route.jwks)).toList

/-- The route of a path. A client id is one non-empty segment, and is tried after the fixed paths. -/
def resolve (r : Routes) (path : Octets) : Option Route :=
  match r.table.find? fun entry => entry.1 = path with
  | some entry => some entry.2
  | none =>
    (r.manage.bind fun lead => stripText lead path).bind fun rest =>
      if !rest.isEmpty && !rest.contains 47 then some (.manage rest) else none

/-- The paths no two of which may be the same. -/
def claimed (r : Routes) : List Octets :=
  [r.wellKnown, r.authorize, r.token, r.device] ++ r.introspect.toList ++ r.revoke.toList
    ++ r.verification.toList ++ r.register.toList
    ++ (r.manage.map (· ++ octets "\x7bclient_id\x7d")).toList ++ r.par.toList ++ r.jwks.toList

end Routes

/-- The first path that occurs again later. -/
def firstDuplicate : List Octets → Option Octets
  | [] => none
  | path :: rest => if rest.contains path then some path else firstDuplicate rest

namespace Deployment

variable (d : Deployment)

/-- The document as it is served: this service is never handed a certificate. -/
def servedMetadata : AuthorizationServerMetadata :=
  let m := d.metadata
  if d.build.mtls then
    { m with
      tokenEndpointAuthMethodsSupported := m.tokenEndpointAuthMethodsSupported.filter fun method =>
        method != "tls_client_auth" && method != "self_signed_tls_client_auth"
      tlsClientCertificateBoundAccessTokens := some false }
  else m

/-- The path of an endpoint that is advertised only sometimes. -/
def optionalPath (issuer endpoint : String) : Option String → Except ServiceError (Option Octets)
  | some url => (endpointPath issuer endpoint url).map some
  | none => .ok none

/-- A key set cannot be served by a build that signs nothing. -/
def jwksPath (issuer : String) (jwksUri : Option String) : Except ServiceError (Option Octets) :=
  if d.build.jwt then optionalPath issuer "jwks_uri" jwksUri
  else
    match jwksUri with
    | some url =>
      match endpointPath issuer "jwks_uri" url with
      | .ok _ => .error (.jwksNotServable url)
      | .error _ => .ok none
    | none => .ok none

/-- The table a service answers by, or why there is none. -/
def routes : Except ServiceError Routes := do
  let document := d.servedMetadata
  let issuer := document.issuer
  let authorize ← endpointPath issuer "authorization_endpoint" document.authorizationEndpoint
  let token ← endpointPath issuer "token_endpoint" document.tokenEndpoint
  let device ← endpointPath issuer "device_authorization_endpoint" document.deviceAuthorizationEndpoint
  -- Served whether or not the document names it.
  let introspect ← endpointPath issuer "introspection_endpoint"
    (d.config.introspectionEndpoint.getD (issuer ++ "/introspect"))
  let revoke ← optionalPath issuer "revocation_endpoint" document.revocationEndpoint
  let register ← optionalPath issuer "registration_endpoint" document.registrationEndpoint
  let manage := (register.filter fun _ =>
    d.config.registration.any RegistrationConfig.managementEnabled).map (· ++ [47])
  -- A verification page elsewhere is the host's own.
  let verification := (endpointPath issuer "verification_uri" d.config.verificationUri).toOption
  let par ← optionalPath issuer "pushed_authorization_request_endpoint"
    document.pushedAuthorizationRequestEndpoint
  let jwks ← d.jwksPath issuer document.jwksUri
  let table : Routes :=
    { wellKnown := encodeRoutePath (wellKnownPath (octets issuer))
      authorize := authorize, token := token, device := device
      introspect := some introspect, revoke := revoke, verification := verification
      register := register, manage := manage, par := par, jwks := jwks }
  match firstDuplicate table.claimed with
  | some path => throw (.duplicatePath path)
  | none => pure table

end Deployment

end OauthAs
