import BetterWebBrowser.Http.Headers
import BetterWebBrowser.Navigation.ParsedUrl

/-!
# HTTP response cache

A private cache of completed GET responses: partitions of the requests, `Vary` within a partition,
explicit freshness and revalidation. Instants, wall-clock times and durations are nanoseconds;
`rfc2822` is the date parser of the `time` crate, which gives Unix seconds.
-/

namespace BetterWebBrowser.Http

open Framework

/-! ## Requests -/

inductive RequestContext
  | navigation
  | subresource
  | prefetch
  | script
  | workerScript
deriving DecidableEq

inductive RequestDestination
  | document
  | object
  | style
  | image
  | script
  | worker
  | font
  | fetch
  | video
  | audio
deriving DecidableEq

inductive RequestMode
  | navigate
  | sameOrigin
  | noCors
  | cors
deriving DecidableEq

inductive CredentialsMode
  | omit
  | sameOrigin
  | include
deriving DecidableEq

inductive RequestCache
  | default
  | noStore
  | reload
  | noCache
  | forceCache
  | onlyIfCached
deriving DecidableEq

/-- An origin of a fetch; opaque origins have an identity of their own. -/
inductive FetchOrigin
  | tuple (scheme host : Str) (port : Nat)
  | opaqueOrigin (id : Nat)
deriving DecidableEq

def FetchOrigin.serialize : FetchOrigin → Str
  | .tuple scheme host port => Navigation.Origin.serialize (.Tuple scheme host port)
  | .opaqueOrigin _ => Navigation.Origin.serialize .Opaque

structure FetchUrl where
  serialized : Str
  origin : FetchOrigin
deriving DecidableEq

/-- What the cache reads of a `FetchRequest`. -/
structure FetchRequest where
  url : FetchUrl
  method : Str
  headers : HeaderList
  body : Option (List UInt8)
  context : RequestContext
  destination : RequestDestination
  mode : RequestMode
  credentials : CredentialsMode
  cache : RequestCache
  origin : Option FetchOrigin
deriving DecidableEq

structure Partition where
  url : Str
  origin : Option Str
  context : RequestContext
  destination : RequestDestination
  mode : RequestMode
  credentials : CredentialsMode
  cookie : Option Str
  prefetchReferrer : Option Str
deriving DecidableEq

def Partition.new (request : FetchRequest) (outbound : HeaderList) : Partition where
  url := request.url.serialized
  origin := request.origin.map FetchOrigin.serialize
  context := request.context
  destination := request.destination
  mode := request.mode
  credentials := request.credentials
  cookie := outbound.get "cookie".toList
  prefetchReferrer :=
    if request.context = .prefetch then some ((outbound.get "referer".toList).getD []) else none

/-! ## Cache-Control and Vary -/

def cacheControlParts (headers : HeaderList) : List Str :=
  (headers.values "cache-control".toList).flatMap fun value => value.splitOn ','

def hasDirective (headers : HeaderList) (name : String) : Bool :=
  (cacheControlParts headers).any fun part =>
    ((Str.trim part).splitOn '=').head?.any fun token => Str.eqIgnoreAsciiCase (Str.trim token) name.toList

/-- The number of the first directive of that name; later ones do not count. -/
def directiveSeconds (headers : HeaderList) (name : String) : Option Nat := do
  let directives := (cacheControlParts headers).filterMap fun part => Str.splitOnce (Str.trim part) ['=']
  let directive ← directives.find? fun directive => Str.eqIgnoreAsciiCase (Str.trim directive.1) name.toList
  Str.parseU64 (Str.trimMatches (fun c => c == '"') (Str.trim directive.2))

/-- One field of a `Vary` line; `none` if the response must not be stored. -/
def addVaryField (fields : List Str) (field : Str) : Option (List Str) :=
  if field = "*".toList then none
  else if field = [] ∨ ¬ field.all (fun c => Str.isAsciiAlphanumeric c || c == '-') then none
  else
    let field := Str.toAsciiLowercase field
    some (if fields.contains field then fields else fields ++ [field])

def varyFields (headers : HeaderList) : Option (List Str) :=
  ((headers.values "vary".toList).flatMap fun header => (header.splitOn ',').map Str.trim).foldlM addVaryField []

/-! ## Policy -/

/-- `Duration::MAX`. -/
def DURATION_MAX : Nat := 2 ^ 64 * 10 ^ 9 - 1

def fromSecs (seconds : Nat) : Nat := seconds * 10 ^ 9

def saturatingAdd (a b : Nat) : Nat := min (a + b) DURATION_MAX

structure CachePolicy where
  freshnessLifetime : Nat
  initialAge : Nat
  noCache : Bool
  mustRevalidate : Bool
deriving DecidableEq

section Policy

variable (rfc2822 : Str → Option Int)

def parseHttpDate (value : Str) : Option Int := (rfc2822 value).map fun seconds => seconds * 10 ^ 9

/-- Explicit freshness: `max-age`, or else the time from `Date` to `Expires`. -/
def responseLifetime (headers : HeaderList) (receivedAt : Int) : Nat :=
  let date := (headers.get "date".toList).bind (parseHttpDate rfc2822)
  match directiveSeconds headers "max-age" with
  | some seconds => fromSecs seconds
  | none =>
    match (headers.get "expires".toList).bind (parseHttpDate rfc2822) with
    | some expires => (expires - date.getD receivedAt).toNat
    | none => 0

def responseAge (headers : HeaderList) (receivedAt : Int) : Nat :=
  let date := (headers.get "date".toList).bind (parseHttpDate rfc2822)
  let apparentAge := (date.map fun date => (receivedAt - date).toNat).getD 0
  let age := (((headers.get "age".toList).bind Str.parseU64).map fromSecs).getD 0
  max apparentAge age

def CachePolicy.forResponse (headers : HeaderList) (receivedAt : Int) : Option CachePolicy :=
  if hasDirective headers "no-store" then none
  else
    let lifetime := responseLifetime rfc2822 headers receivedAt
    if lifetime = 0 ∧ ¬ headers.contains "etag".toList ∧ ¬ headers.contains "last-modified".toList then none
    else
      some
        { freshnessLifetime := lifetime
          initialAge := responseAge rfc2822 headers receivedAt
          noCache := hasDirective headers "no-cache"
          mustRevalidate := hasDirective headers "must-revalidate" }

end Policy

/-! ## Stored responses -/

def MAX_ENTRIES : Nat := 64

def MAX_ENTRY_BYTES : Nat := 2 * 1024 * 1024

def MAX_TOTAL_BYTES : Nat := 24 * 1024 * 1024

structure CachedResponse where
  partition : Partition
  vary : List Str
  requestHeaders : HeaderList
  status : Nat
  headers : HeaderList
  body : List UInt8
  storedAt : Nat
  initialAge : Nat
  freshnessLifetime : Nat
  noCache : Bool
  mustRevalidate : Bool
deriving DecidableEq

namespace CachedResponse

def varyMatches (self : CachedResponse) (outbound : HeaderList) : Bool :=
  self.vary.all fun name => decide (self.requestHeaders.values name = outbound.values name)

/-- `matches`. -/
def isMatch (self : CachedResponse) (partition : Partition) (outbound : HeaderList) : Bool :=
  decide (self.partition = partition) && self.varyMatches outbound

def fresh (self : CachedResponse) (now : Nat) : Bool :=
  !self.noCache && decide (saturatingAdd self.initialAge (now - self.storedAt) < self.freshnessLifetime)

def canServeStale (self : CachedResponse) : Bool := !self.noCache && !self.mustRevalidate

/-- Fields that a 304 response does not replace. -/
def isRetainedField (name : Str) : Bool :=
  name == "content-length".toList || name == "transfer-encoding".toList || name == "set-cookie".toList

def mergeField (headers : HeaderList) (field : Header) : Option HeaderList :=
  if isRetainedField field.name then some headers else (headers.set field.name field.value).toOption

/-- The stored response after a 304; `now` and `wallClock` are the times of the call. -/
def revalidated (self : CachedResponse) (rfc2822 : Str → Option Int) (now : Nat) (wallClock : Int)
    (headers : HeaderList) : Option CachedResponse := do
  let merged ← headers.entries.foldlM mergeField self.headers
  let policy ← CachePolicy.forResponse rfc2822 merged wallClock
  return { self with
    headers := merged
    storedAt := now
    initialAge := policy.initialAge
    freshnessLifetime := policy.freshnessLifetime
    noCache := policy.noCache
    mustRevalidate := policy.mustRevalidate }

def matchesPrefetchConsumer (self : CachedResponse) (request : FetchRequest) (outbound : HeaderList) : Bool :=
  let prior := self.partition
  let sameOrigin := request.origin.any fun origin => decide (origin = request.url.origin)
  let credentialsMatch := decide (prior.credentials = request.credentials) ||
    (sameOrigin && decide (prior.credentials = .include) && decide (request.credentials = .sameOrigin))
  if prior.context ≠ .prefetch ∨ prior.url ≠ request.url.serialized ∨
      prior.origin ≠ request.origin.map FetchOrigin.serialize ∨ ¬ credentialsMatch ∨
      prior.cookie ≠ outbound.get "cookie".toList ∨
      self.requestHeaders.get "referer".toList ≠ outbound.get "referer".toList ∨
      self.requestHeaders.get "origin".toList ≠ outbound.get "origin".toList ∨
      ¬ self.varyMatches outbound then false
  else
    match request.context with
    | .navigation => decide (prior.mode = .noCors) && decide (request.mode = .navigate) && sameOrigin
    | .subresource => decide (prior.mode = request.mode)
    | _ => false

end CachedResponse

/-! ## The store -/

structure ResponseCache where
  entries : List CachedResponse
  bytes : Nat
deriving DecidableEq

namespace ResponseCache

/-- `ResponseCache::default()`. -/
def empty : ResponseCache := ⟨[], 0⟩

def lookup (self : ResponseCache) (request : FetchRequest) (outbound : HeaderList) : Option CachedResponse :=
  let partition := Partition.new request outbound
  (self.entries.reverse.find? fun entry => entry.isMatch partition outbound).or
    (self.entries.reverse.find? fun entry => entry.matchesPrefetchConsumer request outbound)

/-- Whether a new response takes the place of a stored one. -/
def isReplacedBy (response entry : CachedResponse) : Bool :=
  decide (entry.partition = response.partition) &&
    (decide (entry.vary ≠ response.vary) || entry.isMatch response.partition response.requestHeaders)

/-- The entries that a new response leaves, and their bytes. -/
def dropVariants (response : CachedResponse) : List CachedResponse → Nat → List CachedResponse × Nat
  | [], bytes => ([], bytes)
  | entry :: entries, bytes =>
    if isReplacedBy response entry then dropVariants response entries (bytes - entry.body.length)
    else
      let (kept, bytes) := dropVariants response entries bytes
      (entry :: kept, bytes)

/-- Drop the oldest entries until the limits hold. -/
def evict : List CachedResponse → Nat → ResponseCache
  | [], bytes => ⟨[], bytes⟩
  | oldest :: entries, bytes =>
    if MAX_ENTRIES < entries.length + 1 ∨ MAX_TOTAL_BYTES < bytes then evict entries (bytes - oldest.body.length)
    else ⟨oldest :: entries, bytes⟩

def insert (self : ResponseCache) (response : CachedResponse) : ResponseCache :=
  if MAX_ENTRY_BYTES < response.body.length then self
  else
    let (kept, bytes) := dropVariants response self.entries self.bytes
    evict (kept ++ [response]) (bytes + response.body.length)

end ResponseCache

/-! ## Candidates -/

def cacheableRequest (request : FetchRequest) (outbound : HeaderList) : Bool :=
  request.method == "GET".toList && request.body.isNone && decide (request.cache ≠ .noStore) &&
    !outbound.contains "authorization".toList && !outbound.contains "range".toList &&
    !request.headers.contains "if-none-match".toList && !request.headers.contains "if-modified-since".toList &&
    !hasDirective request.headers "no-store"

/-- A response that is being received, and whether it may still be stored. -/
structure CacheCandidate where
  response : CachedResponse
  permitted : Bool

namespace CacheCandidate

/-- `now` and `wallClock` are the times of the call, `requestedAt` the time of the request. -/
def new (rfc2822 : Str → Option Int) (now : Nat) (wallClock : Int) (request : FetchRequest)
    (outbound : HeaderList) (status : Nat) (headers : HeaderList) (requestedAt : Nat) : Option CacheCandidate := do
  if request.cache = .noStore ∨ status ≠ 200 ∨ headers.contains "set-cookie".toList ∨
      headers.contains "content-range".toList ∨ ¬ cacheableRequest request outbound then none
  else
    let vary ← varyFields headers
    let policy ← CachePolicy.forResponse rfc2822 headers wallClock
    return {
      response :=
        { partition := Partition.new request outbound
          vary := vary
          requestHeaders := outbound
          status := status
          headers := headers
          body := []
          storedAt := now
          initialAge := saturatingAdd policy.initialAge (now - requestedAt)
          freshnessLifetime := policy.freshnessLifetime
          noCache := policy.noCache
          mustRevalidate := policy.mustRevalidate }
      permitted := true }

def push (self : CacheCandidate) (chunk : List UInt8) : CacheCandidate :=
  if !self.permitted then self
  else if MAX_ENTRY_BYTES - self.response.body.length < chunk.length then
    { response := { self.response with body := [] }, permitted := false }
  else { self with response := { self.response with body := self.response.body ++ chunk } }

def finish (self : CacheCandidate) (cache : ResponseCache) : ResponseCache :=
  if self.permitted then cache.insert self.response else cache

end CacheCandidate

end BetterWebBrowser.Http
