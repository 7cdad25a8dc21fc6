-- SUMMARY: Rich authorization details and the narrowing check of the token endpoint.
import OauthAs.Error

/-!
# Authorization details

An element carries five known members and whatever else its type defines. A request at the token
endpoint may ask for less than was granted: each requested element must be a narrowing of a
granted element of its own.
-/

namespace OauthAs

mutual
/-- The values of members this server does not interpret; objects list their members in key order.
A number is the text that stands for its value: those that compare equal, such as `0.0` and `-0.0`,
have one text. -/
inductive Json where
  | null
  | bool (b : Bool)
  | number (text : String)
  | string (text : String)
  | array (elements : JsonArray)
  | object (members : JsonObject)
deriving DecidableEq

inductive JsonArray where
  | nil
  | cons (head : Json) (tail : JsonArray)
deriving DecidableEq

inductive JsonObject where
  | nil
  | cons (key : String) (value : Json) (tail : JsonObject)
deriving DecidableEq
end

structure AuthorizationDetail where
  detailType : String
  locations : List String
  actions : List String
  datatypes : List String
  identifier : Option String
  privileges : List String
  other : JsonObject
deriving DecidableEq

/-- Every entry of one list occurs in the other. -/
def isSubsetList (subset superset : List String) : Bool :=
  subset.all fun want => superset.any fun g => g == want

def AuthorizationDetail.isNarrowingOf (d granted : AuthorizationDetail) : Bool :=
  d.detailType == granted.detailType
    && d.identifier == granted.identifier
    && isSubsetList d.locations granted.locations
    && isSubsetList d.actions granted.actions
    && isSubsetList d.datatypes granted.datatypes
    && isSubsetList d.privileges granted.privileges
    -- One text for each number, so that equal members are members with equal values.
    && decide (d.other = granted.other)

abbrev AuthorizationDetails := List AuthorizationDetail

namespace AuthorizationDetails

/-- Marks the first granted element that is still free and that `want` narrows. -/
def consume (want : AuthorizationDetail) :
    List (Bool × AuthorizationDetail) → Option (List (Bool × AuthorizationDetail))
  | [] => none
  | (consumed, granted) :: rest =>
    if !consumed && want.isNarrowingOf granted then some ((true, granted) :: rest)
    else (consume want rest).map ((consumed, granted) :: ·)

/-- Whether every wanted element finds a granted element of its own, taking the first free match. -/
def consumeAll : List AuthorizationDetail → List (Bool × AuthorizationDetail) → Bool
  | [], _ => true
  | want :: wanted, granted =>
    match consume want granted with
    | some granted => consumeAll wanted granted
    | none => false

def narrow (granted requested : AuthorizationDetails) :
    Except ErrorResponse AuthorizationDetails :=
  if requested.isEmpty then .ok granted
  else if consumeAll requested (granted.map (false, ·)) then .ok requested
  else .error ((ErrorResponse.new .invalidAuthorizationDetails).withDescription
    "authorization_details was not granted by the authorization request (RFC 9396 s6)")

end AuthorizationDetails

end OauthAs
