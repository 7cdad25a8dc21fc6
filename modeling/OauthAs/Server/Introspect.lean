-- SUMMARY: Token introspection: who is asking, and how much of a token's record the answer shows.
import OauthAs.Server.Issue

/-!
# Introspection

A token is described to the client it was issued to and to the resource servers it names. A
resource server is told about itself: of the token's resources those it is registered for, and of
the authorization details those that name one of them or none at all. Everybody else gets the
answer for a token that does not exist.
-/

namespace OauthAs

structure IntrospectionResponse where
  active : Bool
  scope : Option String
  clientId : Option String
  sub : Option String
  tokenType : Option TokenType
  exp : Option Nat
  iat : Option Nat
  iss : Option String
  aud : Option (List String)
  authTime : Option Nat
  acr : Option String
  authorizationDetails : AuthorizationDetails
  cnf : Option Confirmation
  act : Option ActClaim
deriving DecidableEq

/-- The answer that says nothing. -/
def IntrospectionResponse.inactive : IntrospectionResponse where
  active := false
  scope := none
  clientId := none
  sub := none
  tokenType := none
  exp := none
  iat := none
  iss := none
  aud := none
  authTime := none
  acr := none
  authorizationDetails := []
  cnf := none
  act := none

/-- As whom an introspection request is answered. -/
inductive IntrospectionView where
  | owningClient
  | resourceServer (mine : List String)
deriving DecidableEq, Repr

/-- An element as a resource server sees it. One without locations is for everybody; the others
are reduced to the locations that are the asker's, and dropped if there are none. -/
def AuthorizationDetail.forResourceServer (detail : AuthorizationDetail) (mine : List String) :
    Option AuthorizationDetail :=
  if detail.locations.isEmpty then some detail
  else
    let locations := detail.locations.filter fun loc => mine.any fun id => id == loc
    if locations.isEmpty then none else some { detail with locations := locations }

def detailsForResourceServer (details : AuthorizationDetails) (mine : List String) :
    AuthorizationDetails :=
  details.filterMap fun detail => detail.forResourceServer mine

namespace Server

open Handler

variable (srv : Server)

/-- Every resource a client answers for, registration by registration. -/
def resourcesOf (clientId : ClientId) : List String :=
  ((srv.config.resourceServers.getD []).filter fun rs => rs.clientId == clientId).flatMap
    ResourceServerRegistration.resources

/-- The client's own resources among those of a token, each once. -/
def answeredFor (clientId : ClientId) (resource : List String) : List String :=
  ((srv.resourcesOf clientId).filter fun id => resource.any fun r => r == id).foldl
    (fun acc id => if acc.contains id then acc else acc ++ [id]) []

def introspectionView (client : Client) (token : IssuedToken) : Option IntrospectionView :=
  if token.clientId = client.clientId then some .owningClient
  else
    let mine := srv.answeredFor client.clientId token.resource
    if mine.isEmpty then none else some (.resourceServer mine)

/-- What a token's record shows to a view. -/
def describe (t : IssuedToken) (view : IntrospectionView) : IntrospectionResponse where
  active := true
  scope := if t.scope.isEmpty then none else some t.scope.display
  clientId := some t.clientId
  sub := t.subject
  tokenType := some (if t.jkt.isSome then .dpop else .bearer)
  exp := unixSeconds t.expiresAt
  iat := unixSeconds t.issuedAt
  iss := some srv.issuerIdentifier
  aud := match view with
    | .owningClient => if t.resource.isEmpty then none else some t.resource
    | .resourceServer mine => some mine
  authTime := t.authentication.bind fun a => unixSeconds a.authTime
  acr := t.authentication.bind Authentication.acr
  authorizationDetails := match view with
    | .owningClient => t.authorizationDetails
    | .resourceServer mine => detailsForResourceServer t.authorizationDetails mine
  cnf := if t.jkt.isNone && t.x5tS256.isNone then none else some ⟨t.jkt, t.x5tS256⟩
  act := t.act

/-- The answer to a client about the record its token was found to have. -/
def introspectionAnswer (client : Client) (record : Option IssuedToken) : IntrospectionResponse :=
  match record with
  | none => .inactive
  | some t =>
    match srv.introspectionView client t with
    | none => .inactive
    | some view => srv.describe t view

/-- Introspection by a client with any credential. Public clients are refused without a reason:
naming one is no authentication. -/
def introspectionResponseWithCredential (clientId : ClientId) (cred : ClientCredential)
    (token : String) : Handler ErrorResponse IntrospectionResponse := do
  let client ← srv.authenticateClient clientId cred
  if client.auth = .publicClient then do
    emit (.clientAuthenticationFailed clientId .notConfidential)
    throw (.new .invalidClient)
  else do
    let record ← introspect token
    pure (srv.introspectionAnswer client record)

end Server

end OauthAs
