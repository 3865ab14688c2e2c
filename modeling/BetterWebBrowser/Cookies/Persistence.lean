import BetterWebBrowser.Framework.Outcome
import BetterWebBrowser.Cookies.Store

/-!
# The cookie file

Only persistent cookies are written, with their expiry in whole seconds. The reader checks
every cookie again and refuses the whole file for one that it does not accept.
-/

namespace BetterWebBrowser.Cookies

open Framework Navigation

def FORMAT_VERSION : Nat := 1

def MAX_PERSISTED_COOKIE_BYTES : Nat := 16 * 1024 * 1024

structure PersistedCookie where
  name : Str
  value : Str
  domain : Str
  path : Str
  secure : Bool
  hostOnly : Bool
  httpOnly : Bool
  sameSite : Nat
  expiresUnixSeconds : Nat
  creation : Nat
deriving DecidableEq

structure PersistedJar where
  formatVersion : Nat
  version : Nat
  nextCreation : Nat
  cookies : List PersistedCookie
deriving DecidableEq

def sameSiteTag : SameSite → Nat
  | .Default => 1
  | .Strict => 2
  | .Lax => 3
  | .None => 4

def decodeSameSite (tag : Nat) : Except Str SameSite :=
  match tag with
  | 1 => .ok .Default
  | 2 => .ok .Strict
  | 3 => .ok .Lax
  | 4 => .ok .None
  | _ => .error "invalid persistent cookie SameSite value".toList

/-! ## Writing -/

/-- Whole seconds since the epoch; there are none before it. -/
def unixSeconds (time : SystemTime) : Option Nat :=
  if 0 ≤ time then some (time.toNat / TICKS_PER_SECOND) else none

namespace PersistedCookie

def fromCookie (now : SystemTime) (cookie : StoredCookie) : Option PersistedCookie := do
  let expires ← cookie.expiresAt
  if expires ≤ now then none
  else
    let seconds ← unixSeconds expires
    some ⟨cookie.name, cookie.value, cookie.domain, cookie.path, cookie.secure, cookie.hostOnly,
      cookie.httpOnly, sameSiteTag cookie.sameSite, seconds, cookie.creation⟩

end PersistedCookie

def persistedJar (state : CookieState) (now : SystemTime) : PersistedJar :=
  ⟨FORMAT_VERSION, state.version, state.nextCreation,
    state.cookies.filterMap (PersistedCookie.fromCookie now)⟩

/-- The bytes that are written to the file. -/
def save {Bytes : Type} (encode : PersistedJar → Except Str Bytes) (length : Bytes → Nat)
    (state : CookieState) (now : SystemTime) : Except Str Bytes := do
  let bytes ← encode (persistedJar state now)
  failIf (MAX_PERSISTED_COOKIE_BYTES < length bytes)
    "persistent cookie state exceeded its byte budget".toList
  pure bytes

/-! ## Reading -/

namespace PersistedCookie

def prefixRulesAreInvalid (cookie : PersistedCookie) : Bool :=
  (startsWithAsciiCaseInsensitive cookie.name "__Secure-".toList && !cookie.secure) ||
    (startsWithAsciiCaseInsensitive cookie.name "__Host-".toList &&
      (!cookie.secure || !cookie.hostOnly || cookie.path ≠ "/".toList)) ||
    (cookie.name = [] && (startsWithAsciiCaseInsensitive cookie.value "__Secure-".toList ||
      startsWithAsciiCaseInsensitive cookie.value "__Host-".toList))

def isRejectedByte (c : Char) : Bool := c.toNat ≤ 0x1f || c.toNat = 0x7f || c = ';'

/-- The checks that refuse the file. -/
def isInvalid (suffixes : SuffixList) (cookie : PersistedCookie) : Bool :=
  4096 < Str.byteLen cookie.name + Str.byteLen cookie.value || cookie.domain = [] ||
    253 < Str.byteLen cookie.domain || !cookie.domain.all Str.isAscii ||
    cookie.domain ≠ Str.toAsciiLowercase cookie.domain ||
    Str.startsWith cookie.domain ".".toList || ['.'].isSuffixOf cookie.domain ||
    (Str.splitOnce cookie.domain "..".toList).isSome ||
    !Str.startsWith cookie.path "/".toList || 1024 < Str.byteLen cookie.path ||
    cookie.creation = 0 || (!cookie.hostOnly && suffixes.publicSuffix cookie.domain) ||
    (cookie.sameSite = 4 && !cookie.secure) || cookie.prefixRulesAreInvalid ||
    (cookie.name ++ cookie.value).any isRejectedByte

/-- `none` for a cookie that has expired. -/
def intoCookie (suffixes : SuffixList) (cookie : PersistedCookie) (now : SystemTime) :
    Except Str (Option StoredCookie) := do
  failIf (cookie.isInvalid suffixes = true) "invalid persistent cookie".toList
  match SystemTime.checkedAdd UNIX_EPOCH cookie.expiresUnixSeconds with
  | none => .error "invalid persistent cookie expiry".toList
  | some expiresAt =>
    if expiresAt ≤ now then .ok none
    else do
      failIf (expiryLimit now < expiresAt)
        "persistent cookie expiry exceeds four hundred days".toList
      let sameSite ← decodeSameSite cookie.sameSite
      pure (some ⟨cookie.name, cookie.value, cookie.domain, cookie.path, cookie.secure,
        cookie.hostOnly, cookie.httpOnly, sameSite, some expiresAt, cookie.creation⟩)

end PersistedCookie

/-- The cookies read so far; no two of them share an identity or a creation number. -/
def addLoaded (suffixes : SuffixList) (now : SystemTime) (cookies : List StoredCookie)
    (persisted : PersistedCookie) : Except Str (List StoredCookie) := do
  match ← persisted.intoCookie suffixes now with
  | none => .ok cookies
  | some cookie =>
    if (cookies.any fun other => SameCookie other cookie) ||
        (cookies.any fun other => other.creation = cookie.creation) ||
        MAX_COOKIES_PER_DOMAIN < cookies.countP (fun other => other.domain = cookie.domain) + 1 then
      .error "invalid persistent cookie collection".toList
    else .ok (cookies ++ [cookie])

def greatestCreation (cookies : List StoredCookie) : Nat :=
  cookies.foldl (fun greatest cookie => max greatest cookie.creation) 0

def PersistedJar.intoState (suffixes : SuffixList) (jar : PersistedJar) (now : SystemTime) :
    Except Str CookieState := do
  failIf (jar.formatVersion ≠ FORMAT_VERSION ∨ jar.version = 0 ∨ jar.nextCreation = 0 ∨
    MAX_COOKIES < jar.cookies.length) "invalid persistent cookie metadata".toList
  let cookies ← jar.cookies.foldlM (addLoaded suffixes now) []
  pure ⟨cookies, max jar.nextCreation (nextNumber (greatestCreation cookies)), jar.version⟩

/-- A file that exists. -/
def loadFile {Bytes : Type} (decode : Bytes → Except Str PersistedJar) (length : Bytes → Nat)
    (suffixes : SuffixList) (bytes : Bytes) (now : SystemTime) : Except Str CookieState := do
  failIf (MAX_PERSISTED_COOKIE_BYTES < length bytes)
    "persistent cookie state exceeded its byte budget".toList
  let jar ← decode bytes
  jar.intoState suffixes now

end BetterWebBrowser.Cookies
