import BetterWebBrowser.Framework.Str

/-!
# Network URLs and origins

`urlParse` is the URL parser of the `url` crate, with the accessors the source reads from
its result. Only HTTP and HTTPS URLs without credentials become a `ParsedUrl`; an origin is
its scheme, host and port, or opaque for `data` URLs.
-/

namespace BetterWebBrowser.Navigation

open Framework

/-- Host of a parsed URL, with addresses in their display form. -/
inductive UrlHost
  | Domain (host : Str)
  | Ipv4 (host : Str)
  | Ipv6 (host : Str)
deriving DecidableEq

def UrlHost.text : UrlHost → Str
  | .Domain host => host
  | .Ipv4 host => host
  | .Ipv6 host => host

/-- The parts of a `url::Url` that the source reads. -/
structure Url where
  scheme : Str
  username : Str
  password : Option Str
  host : Option UrlHost
  portOrKnownDefault : Option Nat
  path : Str
  query : Option Str
  /-- The whole URL serialized without its fragment. -/
  serialized : Str
deriving DecidableEq

def MAX_URL_BYTES : Nat := 16 * 1024

structure ParsedUrl where
  scheme : Str
  host : Str
  port : Nat
  pathAndQuery : Str
deriving DecidableEq

namespace ParsedUrl

def origin (url : ParsedUrl) : Str :=
  let defaultPort := (url.scheme = "https".toList ∧ url.port = 443) ∨
    (url.scheme = "http".toList ∧ url.port = 80)
  let host := if ':' ∈ url.host then '[' :: url.host ++ [']'] else url.host
  if defaultPort then url.scheme ++ "://".toList ++ host
  else url.scheme ++ "://".toList ++ host ++ ':' :: Nat.toDigits 10 url.port

def canonical (url : ParsedUrl) : Str := url.origin ++ url.pathAndQuery

/-- The accessors of an accepted URL, before the length of the canonical form is checked. -/
def ofUrl (parsed : Url) : Option ParsedUrl :=
  let scheme := Str.toAsciiLowercase parsed.scheme
  if scheme ≠ "http".toList ∧ scheme ≠ "https".toList then none
  else if parsed.username ≠ [] ∨ parsed.password.isSome then none
  else
    match parsed.host, parsed.portOrKnownDefault with
    | some host, some port =>
      some ⟨scheme, host.text, port, parsed.path ++ parsed.query.elim [] ('?' :: ·)⟩
    | _, _ => none

def parse (urlParse : Str → Option Url) (input : Str) : Option ParsedUrl :=
  if MAX_URL_BYTES < Str.byteLen input then none
  else
    match (urlParse (Str.trim input)).bind ofUrl with
    | none => none
    | some url => if MAX_URL_BYTES < Str.byteLen url.canonical then none else some url

end ParsedUrl

/-- A tuple origin, or the opaque origin of a `data` URL. -/
inductive Origin
  | Tuple (scheme host : Str) (port : Nat)
  | Opaque
deriving DecidableEq

namespace Origin

def serialize : Origin → Str
  | .Tuple scheme host port => ParsedUrl.origin ⟨scheme, host, port, "/".toList⟩
  | .Opaque => "null".toList

def parse (urlParse : Str → Option Url) (input : Str) : Option Origin :=
  if MAX_URL_BYTES < Str.byteLen input then none
  else
    match urlParse (Str.trim input) with
    | none => none
    | some parsed =>
      if parsed.scheme = "http".toList ∨ parsed.scheme = "https".toList then
        (ParsedUrl.parse urlParse (Str.trim input)).map fun url =>
          .Tuple url.scheme (Str.toAsciiLowercase url.host) url.port
      else if parsed.scheme = "data".toList then
        if MAX_URL_BYTES < Str.byteLen parsed.serialized then none else some .Opaque
      else none

/-- `ipIsLoopback`: whether a text is an IP address, and a loopback one. -/
def isPotentiallyTrustworthy (ipIsLoopback : Str → Bool) : Origin → Bool
  | .Opaque => false
  | .Tuple scheme host _ =>
    if scheme = "https".toList ∨ scheme = "wss".toList ∨ scheme = "file".toList then true
    else if scheme = "http".toList ∨ scheme = "ws".toList then
      let ipHost := ((Str.stripPrefix host ['[']).bind fun inner => Str.stripSuffix inner [']']).getD host
      Str.eqIgnoreAsciiCase host "localhost".toList
        || (Str.stripSuffix (Str.toAsciiLowercase host) ".localhost".toList).isSome
        || ipIsLoopback ipHost
    else false

end Origin

end BetterWebBrowser.Navigation
