import BetterWebBrowser.Framework.Str

/-!
# Source expressions

Recognition of the source expressions of a directive and matching of a URL against one.
The URL parser of the `url` crate is a parameter of the policies; `Url` holds the accessors
of its result that the matching reads.
-/

namespace BetterWebBrowser.Csp

open Framework

structure Url where
  scheme : Str
  hostStr : Option Str
  port : Option Nat
  portOrKnownDefault : Option Nat
  path : Str
  /-- Scheme, host and port; opaque origins equal no other. -/
  origin : Option (Str × Str × Nat)
deriving DecidableEq

namespace Sources

def validBase64Value (value : Str) : Bool :=
  let unpadded := (value.reverse.dropWhile (· = '=')).reverse
  decide (unpadded ≠ [] ∧ Str.byteLen value ≤ 256 ∧ value.length - unpadded.length ≤ 2) &&
    unpadded.all fun c => Str.isAsciiAlphanumeric c || decide (c ∈ "+/-_".toList)

def nonceValue (source : Str) : Option Str :=
  match (Str.stripPrefix source "'nonce-".toList).bind fun rest => Str.stripSuffix rest ['\''] with
  | none => none
  | some value => if validBase64Value value then some value else none

def hashParts (source : Str) : Option (Str × Str) :=
  match ((Str.stripPrefix source ['\'']).bind fun rest => Str.stripSuffix rest ['\'']).bind
      fun body => Str.splitOnce body ['-'] with
  | none => none
  | some (algorithm, value) =>
    if ["sha256", "sha384", "sha512"].any (fun name => Str.eqIgnoreAsciiCase algorithm name.toList) &&
        validBase64Value value then some (algorithm, value)
    else none

def hashSource (source : Str) : Bool := (hashParts source).isSome

def validScheme (scheme : Str) : Bool :=
  scheme.head?.any Str.isAsciiAlphabetic &&
    scheme.all fun c => Str.isAsciiAlphanumeric c || decide (c ∈ "+-.".toList)

structure HostParts where
  scheme : Str
  host : Str
  port : Option Str
  path : Str
deriving DecidableEq

def hostParts (source defaultScheme : Str) : Option HostParts :=
  let (scheme, rest) := (Str.splitOnce source "://".toList).getD (defaultScheme, source)
  if ¬ validScheme scheme then none
  else
    let authority := rest.takeWhile (· ≠ '/')
    let path := rest.dropWhile (· ≠ '/')
    let (host, port) :=
      match Str.splitOnce authority [':'] with
      | some (host, port) => (host, some port)
      | none => (authority, none)
    if host = [] ∨ ¬ host.all (fun c => Str.isAsciiAlphanumeric c || decide (c ∈ "-.*".toList)) then
      none
    else if '*' ∈ host ∧ host ≠ ['*'] ∧ (¬ Str.startsWith host "*.".toList ∨ '*' ∈ host.drop 2) then
      none
    else if port.any fun port => decide (port ≠ ['*']) && (Str.parseU16 port).isNone then none
    else some ⟨scheme, host, port, path⟩

def supported (source : Str) : Bool :=
  let lower := Str.toAsciiLowercase source
  if ["'none'", "'self'", "'unsafe-inline'", "'unsafe-eval'", "'strict-dynamic'", "'report-sample'",
      "*"].any fun keyword => decide (lower = keyword.toList) then true
  else if (nonceValue source).isSome || hashSource source then true
  else if source.any (fun c => decide (c ∈ "'\"@?#\\".toList)) || ¬ source.all Str.isAscii then false
  else
    match Str.stripSuffix source [':'] with
    | some scheme => validScheme scheme
    | none => (hostParts source "https".toList).isSome

def schemeMatches (source target : Str) : Bool :=
  Str.eqIgnoreAsciiCase source target ||
    decide (Str.toAsciiLowercase source = "http".toList ∧ target = "https".toList) ||
    decide (Str.toAsciiLowercase source = "ws".toList ∧
      (target = "wss".toList ∨ target = "http".toList ∨ target = "https".toList))

def toDigit16 (byte : UInt8) : Option Nat :=
  let n := byte.toNat
  if 48 ≤ n ∧ n ≤ 57 then some (n - 48)
  else if 65 ≤ n ∧ n ≤ 70 then some (n - 55)
  else if 97 ≤ n ∧ n ≤ 102 then some (n - 87)
  else none

/-- Percent-decoding of the UTF-8 bytes of a path segment. -/
def decodeBytes : List UInt8 → List UInt8
  | 37 :: a :: b :: bytes =>
    match toDigit16 a, toDigit16 b with
    | some high, some low => (high * 16 + low).toUInt8 :: decodeBytes bytes
    | _, _ => 37 :: decodeBytes (a :: b :: bytes)
  | byte :: bytes => byte :: decodeBytes bytes
  | [] => []

def decode (segment : Str) : List UInt8 := decodeBytes (segment.flatMap String.utf8EncodeChar)

def hostMatches (host actual : Str) : Bool :=
  if host = ['*'] then true
  else
    match Str.stripPrefix host "*.".toList with
    | some suffix =>
      decide (suffix.length + 1 < actual.length) &&
        ('.' :: Str.toAsciiLowercase suffix).isSuffixOf (Str.toAsciiLowercase actual)
    | none => Str.eqIgnoreAsciiCase actual host

def portMatches (port : Option Str) (url : Url) : Bool :=
  if port = some ['*'] then true
  else
    match port.bind Str.parseU16 with
    | some expected =>
      decide (url.portOrKnownDefault = some expected) ||
        decide (expected = 80 ∧ url.scheme = "https".toList ∧ url.port = none)
    | none => url.port.isNone

/-- Segments are decoded one by one, so an escaped slash makes no boundary. -/
def pathMatches (path actual : Str) : Bool :=
  let wanted := path.splitOn '/'
  let actual := actual.splitOn '/'
  let isPrefix := path.getLast? = some '/'
  let length := wanted.length - if isPrefix then 1 else 0
  if actual.length < length ∨ (¬ isPrefix ∧ actual.length ≠ length) then false
  else ((wanted.take length).zip actual).all fun segments => decide (decode segments.1 = decode segments.2)

/-- `sources::matches`. -/
def sourceMatches (source : Str) (url origin : Url) (redirects : Nat) : Bool :=
  if Str.eqIgnoreAsciiCase source "'self'".toList then
    if url.scheme = "blob".toList then false
    else
      decide (url.origin.isSome ∧ url.origin = origin.origin) ||
        decide (origin.hostStr = url.hostStr ∧ origin.port = url.port ∧
          (url.scheme = "https".toList ∨ url.scheme = "wss".toList ∨
            (origin.scheme = "http".toList ∧
              (url.scheme = "http".toList ∨ url.scheme = "ws".toList))))
  else if source = ['*'] then
    ["http", "https", "ws", "wss", "ftp"].any (fun scheme => decide (url.scheme = scheme.toList)) ||
      decide (url.scheme = origin.scheme)
  else if source.head? = some '\'' then false
  else
    match Str.stripSuffix source [':'] with
    | some scheme => schemeMatches scheme url.scheme
    | none =>
      match hostParts source origin.scheme, url.hostStr with
      | some parts, some actual =>
        schemeMatches parts.scheme url.scheme && hostMatches parts.host actual &&
          portMatches parts.port url &&
          (decide (0 < redirects ∨ parts.path = []) || pathMatches parts.path url.path)
      | _, _ => false

end Sources

end BetterWebBrowser.Csp
