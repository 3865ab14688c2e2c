import BetterWebBrowser.Cookies.Parse
import Mathlib.Data.List.MinMax
import Mathlib.Data.List.Sort

/-!
# The cookie jar

Storing a cookie drops the expired ones, may be refused, replaces the cookie of the same
identity and evicts the oldest where a limit is reached. Each change gets a new version.
-/

namespace BetterWebBrowser.Cookies

open Framework Navigation

structure CookieState where
  cookies : List StoredCookie := []
  nextCreation : Nat := 1
  version : Nat := 1

/-- `checked_add(1).unwrap_or(1)` of a 64-bit counter. -/
def nextNumber (number : Nat) : Nat := if number + 1 < 2 ^ 64 then number + 1 else 1

/-! ## Lists of cookies -/

/-- Two cookies of one identity. -/
def SameCookie (first second : StoredCookie) : Prop :=
  first.name = second.name ∧ first.domain = second.domain ∧ first.path = second.path ∧
    first.hostOnly = second.hostOnly

instance (first second : StoredCookie) : Decidable (SameCookie first second) := by
  unfold SameCookie
  infer_instance

def removeOldest (cookies : List StoredCookie) (predicate : StoredCookie → Bool) :
    List StoredCookie :=
  match (cookies.filter predicate).argmin StoredCookie.creation with
  | none => cookies
  | some oldest => cookies.erase oldest

def evictForDomainLimit (cookies : List StoredCookie) (domain : Str) : List StoredCookie :=
  if MAX_COOKIES_PER_DOMAIN ≤ cookies.countP fun cookie => cookie.domain = domain then
    removeOldest cookies fun cookie => cookie.domain = domain
  else cookies

def evictForLimit (cookies : List StoredCookie) : List StoredCookie :=
  if MAX_COOKIES ≤ cookies.length then removeOldest cookies fun _ => true else cookies

/-- Longer paths come first, then older cookies. -/
def sortForHeader (cookies : List StoredCookie) : List StoredCookie :=
  cookies.insertionSort fun first second =>
    Str.byteLen second.path < Str.byteLen first.path ∨
      (Str.byteLen first.path = Str.byteLen second.path ∧ first.creation ≤ second.creation)

def pairText (cookie : StoredCookie) : Str :=
  if cookie.name = [] then cookie.value else cookie.name ++ '=' :: cookie.value

/-- Append the pairs as long as the header stays within its bound. -/
def appendPairs (header : Str) : List StoredCookie → Str
  | [] => header
  | cookie :: cookies =>
    let separator := if header = [] then [] else "; ".toList
    if MAX_COOKIE_HEADER_BYTES <
        Str.byteLen header + Str.byteLen separator + Str.byteLen (pairText cookie) then header
    else appendPairs (header ++ separator ++ pairText cookie) cookies

def cookiePairs (cookies : List StoredCookie) : Str := appendPairs [] cookies

/-! ## The state -/

namespace CookieState

def advanceVersion (state : CookieState) : CookieState :=
  { state with version := nextNumber state.version }

/-- The cookies that have not expired. -/
def live (state : CookieState) (now : SystemTime) : List StoredCookie :=
  state.cookies.filter fun cookie => !cookie.isExpired now

/-- Drop expired cookies; whether there were any. -/
def purgeExpired (state : CookieState) (now : SystemTime) : CookieState × Bool :=
  let changed := (state.live now).length ≠ state.cookies.length
  let purged := { state with cookies := state.live now }
  (if changed then purged.advanceVersion else purged, changed)

def rejectsHttpOnlyOverwrite (state : CookieState) (cookie : StoredCookie) (fromHttp : Bool) : Bool :=
  !fromHttp && state.cookies.any fun stored => decide (SameCookie stored cookie) && stored.httpOnly

/-- A cookie of this name that would hide the stored one. -/
def shadows (cookie stored : StoredCookie) : Bool :=
  stored.secure && stored.name = cookie.name &&
    (domainMatches stored.domain cookie.domain || domainMatches cookie.domain stored.domain) &&
    pathMatches cookie.path stored.path

def rejectsInsecureOverlay (state : CookieState) (cookie : StoredCookie) (sourceSecure : Bool) :
    Bool :=
  !cookie.secure && !sourceSecure && state.cookies.any (shadows cookie)

/-- The creation number of a cookie: that of the cookie it replaces, or a new one. -/
def creationFor (state : CookieState) (cookie : StoredCookie) : Nat × CookieState :=
  match state.cookies.find? fun stored => SameCookie stored cookie with
  | some stored => (stored.creation, state)
  | none => (state.nextCreation, { state with nextCreation := nextNumber state.nextCreation })

/-- Replace or remove the cookie of this identity; whether that changed anything. -/
def place (state : CookieState) (cookie : StoredCookie) (expired changed : Bool) :
    CookieState × Bool :=
  let existed := state.cookies.any fun stored => SameCookie stored cookie
  let (creation, state) := state.creationFor cookie
  let others := state.cookies.filter fun stored => !decide (SameCookie stored cookie)
  if expired then ({ state with cookies := others }, changed || existed)
  else ({ state with
    cookies := evictForLimit (evictForDomainLimit others cookie.domain) ++
      [{ cookie with creation := creation }] }, true)

/-- The state afterwards and whether it has to be written. -/
def storeCookie (state : CookieState) (cookie : StoredCookie) (expired fromHttp sourceSecure : Bool)
    (now : SystemTime) : CookieState × Bool :=
  let (state, changed) := state.purgeExpired now
  if state.rejectsHttpOnlyOverwrite cookie fromHttp || state.rejectsInsecureOverlay cookie sourceSecure
  then (state, changed)
  else
    let (state, changed) := state.place cookie expired changed
    (if changed then state.advanceVersion else state, changed)

end CookieState

/-! ## The store -/

structure CookieSnapshot where
  version : Nat
  header : Str
deriving DecidableEq

inductive CookieError
  | InvalidUrl
  | Persistence (message : Str)
deriving DecidableEq

/-- The list of suffixes and the URL parser. -/
structure CookieHost where
  suffixes : SuffixList
  urlParse : Str → Option Url

namespace CookieHost

variable (host : CookieHost) (persist : CookieState → Except Str Unit)

/-- The result of a call, whose change is written to the file first. -/
def finish {α : Type} (result : α) (state : CookieState) (changed : Bool) :
    Except CookieError α × CookieState :=
  if changed then
    match persist state with
    | .error message => (.error (.Persistence message), state)
    | .ok () => (.ok result, state)
  else (.ok result, state)

/-- Reading the clock twice: for the parser and for the jar. -/
def setDocumentCookie (state : CookieState) (documentUrl assignment : Str)
    (parsedAt storedAt : SystemTime) : Except CookieError Unit × CookieState :=
  match ParsedUrl.parse host.urlParse documentUrl with
  | none => (.error .InvalidUrl, state)
  | some parsed =>
    match parseCookieInternal host.suffixes parsed assignment false parsedAt with
    | none => (.ok (), state)
    | some (cookie, expired) =>
      let (state, changed) := state.storeCookie cookie expired false (isSecureUrl parsed) storedAt
      finish persist () state changed

def storeResponseCookie (state : CookieState) (request : FetchRequest) (setCookie : Str)
    (parsedAt storedAt : SystemTime) : Except CookieError Unit × CookieState :=
  match request.url with
  | none => (.ok (), state)
  | some parsed =>
    match parseCookieInternal host.suffixes parsed setCookie true parsedAt with
    | none => (.ok (), state)
    | some (cookie, expired) =>
      if !sameSiteAllowsSetting host.suffixes host.urlParse cookie request then (.ok (), state)
      else
        let (state, changed) := state.storeCookie cookie expired true (isSecureUrl parsed) storedAt
        finish persist () state changed

def requestHeader (state : CookieState) (request : FetchRequest) (now : SystemTime) :
    Except CookieError (Option Str) × CookieState :=
  match request.url with
  | none => (.ok none, state)
  | some parsed =>
    let (state, changed) := state.purgeExpired now
    let header := cookiePairs (sortForHeader (state.cookies.filter fun cookie =>
      cookieMatches host.suffixes cookie parsed &&
        sameSiteAllowsRequest host.suffixes host.urlParse cookie request))
    finish persist (if header = [] then none else some header) state changed

/-- What a document sees of the jar. -/
def documentHeader (cookies : List StoredCookie) (parsed : ParsedUrl) : Str :=
  cookiePairs (sortForHeader (cookies.filter fun cookie =>
    !cookie.httpOnly && cookieMatches host.suffixes cookie parsed))

def documentSnapshot (state : CookieState) (documentUrl : Str) (now : SystemTime) :
    Except CookieError CookieSnapshot × CookieState :=
  match ParsedUrl.parse host.urlParse documentUrl with
  | none => (.error .InvalidUrl, state)
  | some parsed =>
    let (state, changed) := state.purgeExpired now
    finish persist ⟨state.version, host.documentHeader state.cookies parsed⟩ state changed

end CookieHost

end BetterWebBrowser.Cookies
