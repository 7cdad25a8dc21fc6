-- SUMMARY: Client identifiers that are URLs: their syntax, and the addresses they must not name.
import OauthAs.Lib.Address

/-!
# Client identifier URLs

A client may be identified by the `https` URL of a document that describes it. Whoever fetches the
document should not be led into the server's own network, so an identifier whose host is a
special-use address is refused, and so is one that a URL parser could read as another host than the
one that was checked.
-/

namespace OauthAs

open Net

structure CimdPolicy where
  allowLoopback : Bool
  allowQueryString : Bool
deriving DecidableEq, Repr

/-- The strictest policy. -/
def CimdPolicy.new : CimdPolicy := ⟨false, false⟩

inductive CimdError where
  | urlTooLong
  | notAscii
  | notHttps
  | fragment
  | userinfo
  | noPath
  | dotSegment
  | queryString
  | noHost
  | specialUseAddress
deriving DecidableEq, Repr

structure ClientIdUrl where
  text : String
deriving DecidableEq, Repr

def maxClientIdUrlBytes : Nat := 2048

/-! ## Hosts -/

def isAsciiHexdigit (c : Char) : Bool :=
  c.isDigit || ('a' ≤ c && c ≤ 'f') || ('A' ≤ c && c ≤ 'F')

/-- Whether a label is a number to a URL parser. -/
def isNumberLabel : List Char → Bool
  | [] => false
  | '0' :: 'x' :: hex => hex.all isAsciiHexdigit
  | '0' :: 'X' :: hex => hex.all isAsciiHexdigit
  | last => last.all Char.isDigit

/-- Whether a host is an address to a URL parser, whatever its spelling. -/
def endsInANumber (host : List Char) : Bool :=
  let host := if host.getLast? = some '.' then host.dropLast else host
  (host.splitOn '.').getLast?.any isNumberLabel

/-- The host of an authority, without the port and the brackets. -/
def hostOf (authority : List Char) : Option (List Char) :=
  let host := match authority with
    | '[' :: rest => rest.takeWhile (· != ']')
    | _ => authority.takeWhile (· != ':')
  if host.isEmpty then none else some host

/-! ## Special-use addresses -/

/-- Whether a version 4 address is for special use; loopback is, unless it is allowed. -/
def isSpecialUseV4 (x : Ipv4) (allowLoopback : Bool) : Bool :=
  if x.a = 127 then !allowLoopback
  else
    x.a == 0
    || x.a == 10
    || (x.a == 172 && (16 ≤ x.b && x.b ≤ 31))
    || (x.a == 192 && x.b == 168)
    || (x.a == 100 && (64 ≤ x.b && x.b ≤ 127))
    || (x.a == 169 && x.b == 254)
    || (x.a == 192 && x.b == 0 && x.c == 0)
    || (x.a == 192 && x.b == 0 && x.c == 2)
    || (x.a == 198 && x.b == 51 && x.c == 100)
    || (x.a == 203 && x.b == 0 && x.c == 113)
    || (x.a == 192 && x.b == 88 && x.c == 99)
    || (x.a == 198 && (x.b == 18 || x.b == 19))
    || 224 ≤ x.a

/-- A version 4 address written as a version 6 address. -/
def embedsV4 (x : Ipv6) : Bool :=
  x.s₀ == 0 && x.s₁ == 0 && x.s₂ == 0 && x.s₃ == 0 && x.s₄ == 0 && (x.s₅ == 0xffff || x.s₅ == 0)

def embeddedV4 (x : Ipv6) : Ipv4 :=
  ⟨(x.s₆ >>> 8).toUInt8, (x.s₆ &&& 0xff).toUInt8, (x.s₇ >>> 8).toUInt8, (x.s₇ &&& 0xff).toUInt8⟩

def localhostV6 : Ipv6 := ⟨0, 0, 0, 0, 0, 0, 0, 1⟩

/-- Version 6 addresses that are for special use by their leading segments. -/
def isSpecialUseLead (x : Ipv6) : Bool :=
  if x.s₀ = 0 then true
  else if x.s₀ = 0x0064 then true
  else if x.s₀ = 0x0100 then x.s₁ == 0 && x.s₂ == 0 && x.s₃ == 0
  else if x.s₀ = 0x2001 then x.s₁ < 0x0200 || x.s₁ == 0x0db8
  else if x.s₀ = 0x2002 then true
  else (x.s₀ &&& 0xfe00) == 0xfc00 || (x.s₀ &&& 0xffc0) == 0xfe80 || (x.s₀ >>> 8) == 0xff

/-- A host that is a dotted version 4 address, judged as that address. -/
def specialUseDotted (host : List Char) (allowLoopback : Bool) : Option Bool :=
  (Ipv4.fromStr host).map fun x => isSpecialUseV4 x allowLoopback

/-- Whether a host is an address for special use; a name is not. How a version 6 address is read is
a parameter. -/
def isSpecialUseLiteral (readV6 : List Char → Option Ipv6) (host : List Char)
    (allowLoopback : Bool) : Bool :=
  (specialUseDotted host allowLoopback).getD
    (match readV6 host with
    | none => false
    | some x =>
      if x = localhostV6 then !allowLoopback
      -- judged again under the spelling of the embedded address, which is a dotted one
      else if embedsV4 x then (specialUseDotted (embeddedV4 x).display allowLoopback).getD false
      else isSpecialUseLead x)

/-! ## Identifiers -/

def dotSegments (path : List Char) : Bool :=
  (path.splitOn '/').any fun segment => segment == ['.'] || segment == ['.', '.']

/-- The checks on a host and the authority it is from, in the order of the source. -/
def checkHost (readV6 : List Char → Option Ipv6) (policy : CimdPolicy) (authority : List Char) :
    Except CimdError Unit :=
  match hostOf authority with
  | none => .error .noHost
  | some host =>
    if !host.contains ':' && endsInANumber host && (Ipv4.fromStr host).isNone then
      .error .specialUseAddress
    else if authority.contains '\\' then .error .notAscii
    else if authority.contains '%' then .error .notAscii
    else if isSpecialUseLiteral readV6 host policy.allowLoopback then .error .specialUseAddress
    else .ok ()

/-- The checks on what follows the scheme. -/
def checkAfterScheme (readV6 : List Char → Option Ipv6) (policy : CimdPolicy) (rest : List Char) :
    Except CimdError Unit :=
  let authority := rest.takeWhile fun c => c != '/' && c != '?'
  let afterAuthority := rest.dropWhile fun c => c != '/' && c != '?'
  if authority.contains '@' then .error .userinfo
  else if afterAuthority.head? ≠ some '/' then .error .noPath
  else if dotSegments (afterAuthority.takeWhile (· != '?')) then .error .dotSegment
  else if afterAuthority.contains '?' && !policy.allowQueryString then .error .queryString
  else checkHost readV6 policy authority

def ClientIdUrl.parse (readV6 : List Char → Option Ipv6) (policy : CimdPolicy) (raw : String) :
    Except CimdError ClientIdUrl :=
  if raw.utf8ByteSize > maxClientIdUrlBytes then .error .urlTooLong
  else if !raw.toList.all fun c => decide (0x21 ≤ c.toNat) && decide (c.toNat ≤ 0x7e) then
    .error .notAscii
  else if !"https://".toList.isPrefixOf raw.toList then .error .notHttps
  else if raw.toList.contains '#' then .error .fragment
  else
    (checkAfterScheme readV6 policy (raw.toList.drop "https://".length)).map fun _ => ⟨raw⟩

end OauthAs
