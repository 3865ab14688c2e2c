import BetterWebBrowser.Framework.OrdMap
import BetterWebBrowser.Navigation.ParsedUrl
import BetterWebBrowser.Persistence.ProfileFile

/-!
# Cache API storage

Named caches of request and response pairs, kept for each origin. A command changes a copy of
the state, which takes the place of the old one after it is validated and written.
-/

namespace BetterWebBrowser.CacheApi

open Framework Navigation Persistence

def MAX_ORIGIN_BYTES : Nat := 16 * 1024 * 1024
def MAX_TOTAL_BYTES : Nat := 64 * 1024 * 1024
def MAX_BODY_BYTES : Nat := 2 * 1024 * 1024
def MAX_NAME_BYTES : Nat := 1024
def FORMAT_VERSION : Nat := 1

inductive CacheError
  | InvalidRequest
  | InvalidResponse
  | VaryStar
  | Quota
  | Duplicate
  | Persistence (error : Str)
deriving DecidableEq

structure CacheRequest where
  url : Str
  method : Str
  headers : List (Str × Str)
deriving DecidableEq

structure CacheResponse where
  status : Nat
  statusText : Str
  responseType : Str
  url : Str
  redirected : Bool
  headers : List (Str × Str)
  bodyBase64 : Option Str
deriving DecidableEq

structure CacheEntry where
  request : CacheRequest
  response : CacheResponse
deriving DecidableEq

structure CacheQueryOptions where
  ignoreSearch : Bool
  ignoreMethod : Bool
  ignoreVary : Bool

def CacheQueryOptions.default : CacheQueryOptions := ⟨false, false, false⟩

inductive CacheCommand
  | Open (name : Str)
  | Has (name : Str)
  | Names
  | DeleteCache (name : Str)
  | Match (name : Option Str) (request : CacheRequest) (options : CacheQueryOptions)
  | MatchAll (name : Str) (request : Option CacheRequest) (options : CacheQueryOptions)
  | Keys (name : Str) (request : Option CacheRequest) (options : CacheQueryOptions)
  | Put (name : Str) (entries : List CacheEntry)
  | DeleteEntry (name : Str) (request : CacheRequest) (options : CacheQueryOptions)

/-- The JSON values of the replies. -/
inductive CacheReply
  | null
  | bool (value : Bool)
  | names (names : List Str)
  | response (found : Option CacheResponse)
  | responses (found : List CacheResponse)
  | requests (found : List CacheRequest)
deriving DecidableEq

structure NamedCache where
  name : Str
  entries : List CacheEntry
deriving DecidableEq

abbrev State := OrdMap Str (List NamedCache)

/-- A parsed URL with the serializations that this store compares. -/
structure CacheUrl extends Url where
  /-- `origin().ascii_serialization()` -/
  asciiOrigin : Str
  /-- Serialized without its fragment and its query. -/
  withoutQuery : Str

/-- What is taken from the `url`, `base64` and `serde_json` packages and the operating system. -/
structure Env where
  urlParse : Str → Option CacheUrl
  ipIsLoopback : Str → Bool
  /-- Length of a decoded text. -/
  base64Decode : Str → Option Nat
  cachesToVec : List NamedCache → Except Str (List UInt8)
  diskToVec : Nat → State → Except Str (List UInt8)
  diskFromSlice : List UInt8 → Except Str (Nat × State)
  ioError : IoError → Str

/-! ## Matching -/

def varyFields (headers : List (Str × Str)) : List Str :=
  (((headers.filter fun header => Str.eqIgnoreAsciiCase header.1 "vary".toList).flatMap fun header =>
      header.2.splitOn ',').map fun field => Str.toAsciiLowercase (Str.trim field)).filter fun field =>
    decide (field ≠ [])

def combinedHeader (headers : List (Str × Str)) (name : Str) : Str :=
  ", ".toList.intercalate
    ((headers.filter fun header => Str.eqIgnoreAsciiCase header.1 name).map Prod.snd)

namespace Env

/-- The header fields are those that the stored response varies on. -/
def matchesEntry (env : Env) (query : CacheRequest) (entry : CacheEntry) (options : CacheQueryOptions) :
    Bool :=
  if !options.ignoreMethod && decide (query.method ≠ "GET".toList) then false
  else
    match env.urlParse query.url, env.urlParse entry.request.url with
    | some queryUrl, some cachedUrl =>
      let sameUrl :=
        if options.ignoreSearch then decide (queryUrl.withoutQuery = cachedUrl.withoutQuery)
        else decide (queryUrl.serialized = cachedUrl.serialized)
      if !sameUrl then false
      else if options.ignoreVary then true
      else
        (varyFields entry.response.headers).all fun field =>
          decide (field ≠ "*".toList) &&
            decide (combinedHeader entry.request.headers field = combinedHeader query.headers field)
    | _, _ => false

/-! ## Validation -/

def validateBody (env : Env) (body : Str) : Except CacheError Unit :=
  if MAX_BODY_BYTES * 4 / 3 + 4 < Str.byteLen body then .error .Quota
  else
    match env.base64Decode body with
    | none => .error .InvalidResponse
    | some length => if MAX_BODY_BYTES < length then .error .Quota else .ok ()

def validateEntry (env : Env) (entry : CacheEntry) : Except CacheError Unit :=
  match env.urlParse entry.request.url with
  | none => .error .InvalidRequest
  | some url =>
    if ¬ (url.scheme = "http".toList ∨ url.scheme = "https".toList) ∨
        entry.request.method ≠ "GET".toList then .error .InvalidRequest
    else if entry.response.responseType = "error".toList ∨
        entry.response.responseType ∉ ["default".toList, "basic".toList, "cors".toList] ∨
        ¬ (200 ≤ entry.response.status ∧ entry.response.status ≤ 599) ∨
        entry.response.status = 206 then .error .InvalidResponse
    else if "*".toList ∈ varyFields entry.response.headers then .error .VaryStar
    else
      match entry.response.bodyBase64 with
      | none => .ok ()
      | some body => env.validateBody body

/-- No entry of a batch matches one before it. -/
def checkDuplicates (env : Env) : List CacheEntry → List CacheEntry → Except CacheError Unit
  | _, [] => .ok ()
  | previous, entry :: entries =>
    if previous.any fun earlier => env.matchesEntry entry.request earlier .default then .error .Duplicate
    else env.checkDuplicates (previous ++ [entry]) entries

def validateCaches (env : Env) (perOrigin : Nat) (caches : List NamedCache) : Except CacheError Unit :=
  match env.cachesToVec caches with
  | .error error => .error (.Persistence error)
  | .ok bytes => if perOrigin < bytes.length then .error .Quota else .ok ()

def diskBytes (env : Env) (total : Nat) (state : State) : Except CacheError (List UInt8) :=
  match env.diskToVec FORMAT_VERSION state with
  | .error error => .error (.Persistence error)
  | .ok bytes => if total < bytes.length then .error .Quota else .ok bytes

def validate (env : Env) (state : State) (perOrigin total : Nat) : Except CacheError Unit := do
  state.entries.forM fun origin => env.validateCaches perOrigin origin.2
  discard (env.diskBytes total state)

/-! ## The file -/

def decodeDisk (env : Env) (bytes : List UInt8) : Except CacheError State :=
  if MAX_TOTAL_BYTES < bytes.length then .error .Quota
  else
    match env.diskFromSlice bytes with
    | .error error => .error (.Persistence error)
    | .ok (version, state) =>
      if version ≠ FORMAT_VERSION then .error (.Persistence "unsupported CacheStorage format".toList)
      else (env.validate state MAX_ORIGIN_BYTES MAX_TOTAL_BYTES).map fun _ => state

def codec (env : Env) : Codec State CacheError where
  encode := env.diskBytes MAX_TOTAL_BYTES
  decode := env.decodeDisk
  default := OrdMap.empty
  unreadable := .Persistence (env.ioError .Other)

end Env

structure StorePath where
  hasParent : Bool
deriving DecidableEq

structure CacheStorage where
  path : Option StorePath
  /-- Read from the file on first use. -/
  state : Option State
  loadable : path = none → state.isSome

namespace CacheStorage

def inMemory : CacheStorage := ⟨none, some OrdMap.empty, fun _ => rfl⟩

def «open» (path : StorePath) : CacheStorage := ⟨some path, none, fun h => nomatch h⟩

/-- The storage with a state in memory. -/
def withState (storage : CacheStorage) (state : State) : CacheStorage :=
  ⟨storage.path, some state, fun _ => rfl⟩

def ensureLoaded (env : Env) (storage : CacheStorage) (disk : Disk) : Except CacheError State :=
  match storage.state with
  | some state => .ok state
  | none => env.codec.load disk

/-- How `write` ends: with the disk it leaves, and no result when the process stops in it. -/
def write (env : Env) (path : StorePath) (state : State) (fates : List (Fate IoError)) (disk : Disk) :
    Disk × Option (Except CacheError Unit) :=
  match env.diskBytes MAX_TOTAL_BYTES state with
  | .error error => (disk, some (.error error))
  | .ok bytes =>
    if !path.hasParent then (disk, some (.error (.Persistence "invalid CacheStorage path".toList)))
    else
      match (Persistence.CacheStorage.write bytes).run fates disk with
      | (disk', none) => (disk', none)
      | (disk', some (.error error)) => (disk', some (.error (.Persistence (env.ioError error))))
      | (disk', some (.ok ())) => (disk', some (.ok ()))

end CacheStorage

/-! ## Commands -/

/-- The first cache of that name with its entries replaced. -/
def replaceEntries (name : Str) (f : List CacheEntry → List CacheEntry) :
    List NamedCache → Option (List NamedCache)
  | [] => none
  | cache :: caches =>
    if cache.name = name then some ({ cache with entries := f cache.entries } :: caches)
    else (replaceEntries name f caches).map (cache :: ·)

def findCache (caches : List NamedCache) (name : Str) : Option NamedCache :=
  caches.find? fun cache => decide (cache.name = name)

def validateName (name : Str) : Except CacheError Unit :=
  if MAX_NAME_BYTES < Str.byteLen name then .error .Quota else .ok ()

/-- The caches of the origin after a command, its reply, and whether it changed them. -/
structure Effect where
  caches : List NamedCache
  reply : CacheReply
  changed : Bool
deriving DecidableEq

namespace Env

/-- One step of `Put`: what the request matches goes and the entry comes last. -/
def putEntry (env : Env) (stored : List CacheEntry) (entry : CacheEntry) : List CacheEntry :=
  stored.filter (fun cached => !env.matchesEntry entry.request cached .default) ++ [entry]

def put (env : Env) (name : Str) (entries : List CacheEntry) (caches : List NamedCache) :
    Except CacheError Effect := do
  validateName name
  if entries = [] then return ⟨caches, .null, false⟩
  entries.forM env.validateEntry
  env.checkDuplicates [] entries
  match replaceEntries name (fun stored => entries.foldl env.putEntry stored) caches with
  | none => .error .InvalidRequest
  | some caches => return ⟨caches, .null, true⟩

def openCache (name : Str) (caches : List NamedCache) : Except CacheError Effect := do
  validateName name
  if caches.any fun cache => decide (cache.name = name) then return ⟨caches, .null, false⟩
  return ⟨caches ++ [⟨name, []⟩], .null, true⟩

def deleteCache (name : Str) (caches : List NamedCache) : Effect :=
  let kept := caches.filter fun cache => decide (cache.name ≠ name)
  let changed := decide (caches.length ≠ kept.length)
  ⟨kept, .bool changed, changed⟩

def deleteEntry (env : Env) (name : Str) (request : CacheRequest) (options : CacheQueryOptions)
    (caches : List NamedCache) : Effect :=
  let keep := List.filter fun entry => !env.matchesEntry request entry options
  match findCache caches name, replaceEntries name keep caches with
  | some cache, some kept =>
    let changed := decide (cache.entries.length ≠ (keep cache.entries).length)
    ⟨kept, .bool changed, changed⟩
  | _, _ => ⟨caches, .bool false, false⟩

/-- The entries of a cache that an optional request selects. -/
def selected (env : Env) (name : Str) (request : Option CacheRequest) (options : CacheQueryOptions)
    (caches : List NamedCache) : List CacheEntry :=
  ((findCache caches name).elim [] NamedCache.entries).filter fun entry =>
    request.all fun request => env.matchesEntry request entry options

/-- What a command does with the caches of its origin. -/
def effect (env : Env) (command : CacheCommand) (caches : List NamedCache) : Except CacheError Effect :=
  match command with
  | .Open name => openCache name caches
  | .Has name => .ok ⟨caches, .bool (caches.any fun cache => decide (cache.name = name)), false⟩
  | .Names => .ok ⟨caches, .names (caches.map NamedCache.name), false⟩
  | .DeleteCache name => .ok (deleteCache name caches)
  | .Match name request options =>
    let searched := caches.filter fun cache => name.all fun name => decide (name = cache.name)
    let found := (searched.flatMap NamedCache.entries).find? fun entry =>
      env.matchesEntry request entry options
    .ok ⟨caches, .response (found.map CacheEntry.response), false⟩
  | .MatchAll name request options =>
    .ok ⟨caches, .responses ((env.selected name request options caches).map CacheEntry.response), false⟩
  | .Keys name request options =>
    .ok ⟨caches, .requests ((env.selected name request options caches).map CacheEntry.request), false⟩
  | .Put name entries => env.put name entries caches
  | .DeleteEntry name request options => .ok (env.deleteEntry name request options caches)

def checkOrigin (env : Env) (origin : Str) : Except CacheError Unit :=
  match env.urlParse origin with
  | none => .error .InvalidRequest
  | some parsed =>
    if ¬ (parsed.scheme = "http".toList ∨ parsed.scheme = "https".toList) ∨ parsed.asciiOrigin ≠ origin then
      .error .InvalidRequest
    else
      match Origin.parse (fun text => (env.urlParse text).map CacheUrl.toUrl) origin with
      | none => .error .InvalidRequest
      | some tuple =>
        if tuple.isPotentiallyTrustworthy env.ipIsLoopback then .ok () else .error .InvalidRequest

end Env

/-- The caches of an origin. -/
def cachesOf (state : State) (origin : Str) : List NamedCache := (state.get origin).getD []

/-- The storage and the disk after a call, and its result unless the process stopped in it. -/
structure Outcome where
  storage : CacheStorage
  disk : Disk
  result : Option (Except CacheError CacheReply)

namespace CacheStorage

/-- The end of `mutate`: a changed candidate is validated, written and kept. -/
def commit (env : Env) (candidate : State) (reply : CacheReply) (fates : List (Fate IoError))
    (storage : CacheStorage) (disk : Disk) : Outcome :=
  match env.validate candidate MAX_ORIGIN_BYTES MAX_TOTAL_BYTES with
  | .error error => ⟨storage, disk, some (.error error)⟩
  | .ok () =>
    match storage.path with
    | none => ⟨storage.withState candidate, disk, some (.ok reply)⟩
    | some path =>
      match write env path candidate fates disk with
      | (disk', none) => ⟨storage, disk', none⟩
      | (disk', some (.error error)) => ⟨storage, disk', some (.error error)⟩
      | (disk', some (.ok ())) => ⟨storage.withState candidate, disk', some (.ok reply)⟩

def execute (env : Env) (origin : Str) (command : CacheCommand) (fates : List (Fate IoError))
    (storage : CacheStorage) (disk : Disk) : Outcome :=
  match env.checkOrigin origin with
  | .error error => ⟨storage, disk, some (.error error)⟩
  | .ok () =>
    match storage.ensureLoaded env disk with
    | .error error => ⟨storage, disk, some (.error error)⟩
    | .ok state =>
      match env.effect command (cachesOf state origin) with
      | .error error => ⟨storage.withState state, disk, some (.error error)⟩
      | .ok effect =>
        if effect.changed then
          commit env (state.insert origin effect.caches) effect.reply fates (storage.withState state) disk
        else ⟨storage.withState state, disk, some (.ok effect.reply)⟩

end CacheStorage

end BetterWebBrowser.CacheApi
