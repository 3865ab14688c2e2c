import BetterWebBrowser.Navigation.ParsedUrl
import BetterWebBrowser.Cookies.Date

/-!
# Cookies and their scope

Which hosts, paths and requests a cookie belongs to. The public suffix list is a parameter.
-/

namespace BetterWebBrowser.Cookies

open Framework Navigation

def MAX_COOKIES : Nat := 3000

def MAX_COOKIES_PER_DOMAIN : Nat := 180

def MAX_COOKIE_HEADER_BYTES : Nat := 64 * 1024

inductive SameSite
  | Default
  | Strict
  | Lax
  | None
deriving DecidableEq

structure StoredCookie where
  name : Str
  value : Str
  domain : Str
  path : Str
  secure : Bool
  hostOnly : Bool
  httpOnly : Bool
  sameSite : SameSite
  expiresAt : Option SystemTime
  creation : Nat
deriving DecidableEq

def StoredCookie.isExpired (cookie : StoredCookie) (now : SystemTime) : Bool :=
  match cookie.expiresAt with
  | some expires => expires ≤ now
  | none => false

inductive RequestContext
  | Navigation
  | Subresource
  | Prefetch
  | Script
  | WorkerScript
deriving DecidableEq

/-- The parts of a request that decide about cookies; a `data` URL has no parsed form. -/
structure FetchRequest where
  url : Option ParsedUrl
  method : Str
  context : RequestContext
  origin : Option Origin

/-- What the public suffix list says. -/
structure SuffixList where
  publicSuffix : Str → Bool
  registrableDomain : Str → Option Str

/-! ## Addresses -/

/-- A decimal octet without leading zeros. -/
def isOctet (s : Str) : Bool :=
  s ≠ [] && s.length ≤ 3 && s.all Str.isAsciiDigit && (s.length = 1 || s.head? ≠ some '0') &&
    decimalValue s ≤ 255

def isIpv4Addr (s : Str) : Bool :=
  let octets := s.splitOn '.'
  octets.length = 4 && octets.all isOctet

def isHexDigit (c : Char) : Bool :=
  Str.isAsciiDigit c || ('a' ≤ c && c ≤ 'f') || ('A' ≤ c && c ≤ 'F')

def isIpv6Group (s : Str) : Bool := s ≠ [] && s.length ≤ 4 && s.all isHexDigit

/-- The number of groups of a part of an address; an IPv4 address at its end counts for two. -/
def ipv6Groups (ipv4 : Bool) (part : Str) : Option Nat :=
  if part = [] then some 0
  else
    let pieces := part.splitOn ':'
    let front := pieces.dropLast
    let last := pieces.getLast?.getD []
    if !front.all isIpv6Group then none
    else if isIpv6Group last then some pieces.length
    else if ipv4 && isIpv4Addr last then some (pieces.length + 1)
    else none

def isIpv6Addr (s : Str) : Bool :=
  match Str.splitOnce s "::".toList with
  | none => ipv6Groups true s = some 8
  | some (head, tail) =>
    match ipv6Groups false head, ipv6Groups true tail with
    | some first, some second => first + second ≤ 7
    | _, _ => false

/-- `IpAddr::from_str` succeeds. -/
def isIpAddr (s : Str) : Bool := isIpv4Addr s || isIpv6Addr s

/-! ## Hosts, paths and requests -/

def domainMatches (host domain : Str) : Bool :=
  host = domain ||
    (!isIpAddr host && domain.length < host.length && domain.isSuffixOf host &&
      host[host.length - domain.length - 1]? = some '.')

def pathMatches (requestPath cookiePath : Str) : Bool :=
  requestPath = cookiePath ||
    (Str.startsWith requestPath cookiePath &&
      (['/'].isSuffixOf cookiePath || requestPath[cookiePath.length]? = some '/'))

def isSecureUrl (parsed : ParsedUrl) : Bool :=
  parsed.scheme = "https".toList ||
    (parsed.scheme = "http".toList &&
      parsed.host ∈ ["localhost".toList, "127.0.0.1".toList, "::1".toList])

/-- The part of a path before its query. -/
def beforeQuery (pathAndQuery : Str) : Str := pathAndQuery.takeWhile fun c => c ≠ '?'

def cookieMatches (suffixes : SuffixList) (cookie : StoredCookie) (parsed : ParsedUrl) : Bool :=
  let host := Str.toAsciiLowercase parsed.host
  if cookie.secure && !isSecureUrl parsed then false
  else if cookie.hostOnly && host ≠ cookie.domain then false
  else if !cookie.hostOnly &&
      (suffixes.publicSuffix cookie.domain || !domainMatches host cookie.domain) then false
  else pathMatches (beforeQuery parsed.pathAndQuery) cookie.path

section SameSite

variable (suffixes : SuffixList) (urlParse : Str → Option Url)

def siteHost (host : Str) : Str := (suffixes.registrableDomain host).getD host

def sameSite (source target : ParsedUrl) : Bool :=
  source.scheme = target.scheme && siteHost suffixes source.host = siteHost suffixes target.host

def requestIsSameSite (request : FetchRequest) : Bool :=
  match request.origin with
  | none => true
  | some origin =>
    match ParsedUrl.parse urlParse (origin.serialize ++ "/".toList), request.url with
    | some source, some target => sameSite suffixes source target
    | _, _ => false

def sameSiteAllowsRequest (cookie : StoredCookie) (request : FetchRequest) : Bool :=
  if cookie.sameSite = .None || request.origin.isNone then true
  else if requestIsSameSite suffixes urlParse request then true
  else (cookie.sameSite = .Lax || cookie.sameSite = .Default) && request.context = .Navigation &&
    request.method ∈ ["GET".toList, "HEAD".toList, "OPTIONS".toList]

def sameSiteAllowsSetting (cookie : StoredCookie) (request : FetchRequest) : Bool :=
  cookie.sameSite = .None || request.origin.isNone || requestIsSameSite suffixes urlParse request ||
    request.context = .Navigation

end SameSite

end BetterWebBrowser.Cookies
