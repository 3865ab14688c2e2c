import BetterWebBrowser.Cookies.Scope

/-!
# Reading a `Set-Cookie` text

The permissive consumer parser: a pair and attributes, of which the last one counts.
-/

namespace BetterWebBrowser.Cookies

open Framework Navigation

def MAX_COOKIE_PAIR_BYTES : Nat := 4096

def MAX_ATTRIBUTE_VALUE_BYTES : Nat := 1024

/-- Four hundred days in seconds. -/
def MAX_PERSISTENT_AGE : Nat := 400 * 24 * 60 * 60

inductive MaxAge
  | Expired
  | Seconds (seconds : Nat)
deriving DecidableEq

def trimWhitespace (value : Str) : Str := Str.trimMatches (fun c => c = ' ' ∨ c = '\t') value

def isExcludedControl (c : Char) : Bool :=
  c.toNat ≤ 0x08 || (0x0a ≤ c.toNat && c.toNat ≤ 0x1f) || c.toNat = 0x7f

def startsWithAsciiCaseInsensitive (value textPrefix : Str) : Bool :=
  Str.eqIgnoreAsciiCase (value.take textPrefix.length) textPrefix

/-- The texts before and after a separator; the whole text comes first if there is none. -/
def splitPair (text separator : Str) : Str × Str := (Str.splitOnce text separator).getD (text, [])

/-- Everything from the last slash on is cut off. -/
def directoryOf (path : Str) : Option Str :=
  if '/' ∈ path then some (path.reverse.dropWhile fun c => c ≠ '/').tail.reverse else none

def defaultCookiePath (pathAndQuery : Str) : Str :=
  let path := beforeQuery pathAndQuery
  if !Str.startsWith path "/".toList || path = "/".toList then "/".toList
  else
    match directoryOf path with
    | none => "/".toList
    | some directory => if directory = [] then "/".toList else directory

def parseMaxAge (value : Str) : Option MaxAge :=
  match Str.stripPrefix value "-".toList with
  | some digits => if digits ≠ [] ∧ digits.all Str.isAsciiDigit then some .Expired else none
  | none =>
    if value = [] ∨ !value.all Str.isAsciiDigit then none
    else some (.Seconds (min (decimalValue value) (2 ^ 64 - 1)))

/-- The latest expiry of a cookie that is set now. -/
def expiryLimit (now : SystemTime) : SystemTime := (now.checkedAdd MAX_PERSISTENT_AGE).getD now

def clampExpiry (expiry now : SystemTime) : SystemTime := min expiry (expiryLimit now)

/-- What the attributes have said so far. -/
structure CookieAttributes where
  domain : Option Str := none
  path : Option Str := none
  secure : Bool := false
  httpOnly : Bool := false
  sameSite : SameSite := .Default
  maxAge : Option MaxAge := none
  expiresAt : Option SystemTime := none
deriving DecidableEq

def parseSameSite (value : Str) : SameSite :=
  if Str.eqIgnoreAsciiCase value "strict".toList then .Strict
  else if Str.eqIgnoreAsciiCase value "lax".toList then .Lax
  else if Str.eqIgnoreAsciiCase value "none".toList then .None
  else .Default

/-- One attribute; `none` rejects the cookie. -/
def CookieAttributes.read (defaultPath : Str) (now : SystemTime) (attributes : CookieAttributes)
    (text : Str) : Option CookieAttributes :=
  let (name, value) := splitPair text "=".toList
  let name := trimWhitespace name
  let value := trimWhitespace value
  if MAX_ATTRIBUTE_VALUE_BYTES < Str.byteLen value then some attributes
  else if Str.eqIgnoreAsciiCase name "domain".toList then
    if !value.all fun c => 0x01 ≤ c.toNat && c.toNat ≤ 0x7f then none
    else some { attributes with
      domain := some (Str.toAsciiLowercase ((Str.stripPrefix value ".".toList).getD value)) }
  else if Str.eqIgnoreAsciiCase name "path".toList then
    some { attributes with
      path := some (if Str.startsWith value "/".toList then value else defaultPath) }
  else if Str.eqIgnoreAsciiCase name "secure".toList then some { attributes with secure := true }
  else if Str.eqIgnoreAsciiCase name "httponly".toList then some { attributes with httpOnly := true }
  else if Str.eqIgnoreAsciiCase name "max-age".toList then
    match parseMaxAge value with
    | some maxAge => some { attributes with maxAge := some maxAge }
    | none => some attributes
  else if Str.eqIgnoreAsciiCase name "expires".toList then
    match parseCookieDate value with
    | some expiry => some { attributes with expiresAt := some (clampExpiry expiry now) }
    | none => some attributes
  else if Str.eqIgnoreAsciiCase name "samesite".toList then
    some { attributes with sameSite := parseSameSite value }
  else some attributes

/-- The domain of a cookie and whether only its host gets it. -/
def applyDomainAttribute (suffixes : SuffixList) (host : Str) (given : Option Str) :
    Option (Str × Bool) :=
  match given with
  | none => some (host, true)
  | some domain =>
    if suffixes.publicSuffix domain then
      if domain ≠ host then none else some (host, true)
    else if domain = [] then some (host, true)
    else if domainMatches host domain then some (domain, false)
    else none

/-- `__Secure-` and `__Host-` names that the cookie does not live up to. -/
def breaksPrefixRules (name value path : Str) (secure hostOnly pathPresent : Bool) : Bool :=
  (startsWithAsciiCaseInsensitive name "__Secure-".toList && !secure) ||
    (startsWithAsciiCaseInsensitive name "__Host-".toList &&
      (!secure || !hostOnly || !pathPresent || path ≠ "/".toList)) ||
    (name = [] && (startsWithAsciiCaseInsensitive value "__Secure-".toList ||
      startsWithAsciiCaseInsensitive value "__Host-".toList))

/-- When the cookie expires. -/
def CookieAttributes.expiry (attributes : CookieAttributes) (now : SystemTime) :
    Option SystemTime :=
  match attributes.maxAge with
  | none => attributes.expiresAt
  | some .Expired => some UNIX_EPOCH
  | some (.Seconds seconds) => some ((now.checkedAdd (min seconds MAX_PERSISTENT_AGE)).getD now)

/-- The name and value of a cookie. -/
def cookiePair (pair : Str) : Str × Str :=
  let (name, value) := (Str.splitOnce pair "=".toList).getD ([], pair)
  (trimWhitespace name, trimWhitespace value)

def parseCookieInternal (suffixes : SuffixList) (parsed : ParsedUrl) (assignment : Str)
    (fromHttp : Bool) (now : SystemTime) : Option (StoredCookie × Bool) :=
  if assignment.any isExcludedControl then none
  else
    let (pair, rest) := splitPair assignment ";".toList
    let (name, value) := cookiePair pair
    if (name = [] ∧ value = []) ∨ MAX_COOKIE_PAIR_BYTES < Str.byteLen name + Str.byteLen value then
      none
    else
      let host := Str.toAsciiLowercase parsed.host
      let defaultPath := defaultCookiePath parsed.pathAndQuery
      match (rest.splitOn ';').foldlM (CookieAttributes.read defaultPath now) {} with
      | none => none
      | some attributes =>
        match applyDomainAttribute suffixes host attributes.domain with
        | none => none
        | some (domain, hostOnly) =>
          let path := attributes.path.getD defaultPath
          if (attributes.secure && !isSecureUrl parsed) || (attributes.httpOnly && !fromHttp) ||
              (attributes.sameSite = .None && !attributes.secure) then none
          else if breaksPrefixRules name value path attributes.secure hostOnly
              attributes.path.isSome then none
          else
            let cookie : StoredCookie := ⟨name, value, domain, path, attributes.secure, hostOnly,
              attributes.httpOnly, attributes.sameSite, attributes.expiry now, 0⟩
            some (cookie, cookie.isExpired now)

/-- Everything the parser has checked of a cookie it accepts. -/
structure Accepted (suffixes : SuffixList) (parsed : ParsedUrl) (assignment : Str) (fromHttp : Bool)
    (now : SystemTime) (cookie : StoredCookie) (attributes : CookieAttributes) : Prop where
  controls : assignment.any isExcludedControl = false
  pair : cookiePair (splitPair assignment ";".toList).1 = (cookie.name, cookie.value)
  nonempty : ¬ (cookie.name = [] ∧ cookie.value = [])
  short : Str.byteLen cookie.name + Str.byteLen cookie.value ≤ MAX_COOKIE_PAIR_BYTES
  read : ((splitPair assignment ";".toList).2.splitOn ';').foldlM
    (CookieAttributes.read (defaultCookiePath parsed.pathAndQuery) now) {} = some attributes
  domain : applyDomainAttribute suffixes (Str.toAsciiLowercase parsed.host) attributes.domain =
    some (cookie.domain, cookie.hostOnly)
  path : cookie.path = attributes.path.getD (defaultCookiePath parsed.pathAndQuery)
  secure : cookie.secure = true → isSecureUrl parsed = true
  httpOnly : cookie.httpOnly = true → fromHttp = true
  sameSite : cookie.sameSite = .None → cookie.secure = true
  prefixes : breaksPrefixRules cookie.name cookie.value cookie.path cookie.secure cookie.hostOnly
    attributes.path.isSome = false
  expiry : cookie.expiresAt = attributes.expiry now
  creation : cookie.creation = 0

theorem parseCookieInternal_accepted {suffixes : SuffixList} {parsed : ParsedUrl} {assignment : Str}
    {fromHttp expired : Bool} {now : SystemTime} {cookie : StoredCookie}
    (h : parseCookieInternal suffixes parsed assignment fromHttp now = some (cookie, expired)) :
    expired = cookie.isExpired now ∧
      ∃ attributes, Accepted suffixes parsed assignment fromHttp now cookie attributes := by
  rw [parseCookieInternal] at h
  split at h
  next => cases h
  next hcontrols =>
    dsimp only at h
    split at h
    next => cases h
    next hpair =>
      split at h
      next => cases h
      next attributes hread =>
        split at h
        next => cases h
        next domain hostOnly hdomain =>
          split at h
          next => cases h
          next hflags =>
            split at h
            next => cases h
            next hprefixes =>
              cases h
              rw [not_or, not_lt] at hpair
              simp only [Bool.not_eq_true, Bool.or_eq_false_iff, Bool.and_eq_false_iff,
                Bool.not_eq_false'] at hflags
              obtain ⟨⟨hsecure, hhttp⟩, hsite⟩ := hflags
              refine ⟨rfl, attributes, (Bool.not_eq_true _).mp hcontrols, rfl, hpair.1, hpair.2,
                hread, hdomain, rfl, ?_, ?_, ?_, (Bool.not_eq_true _).mp hprefixes, rfl, rfl⟩
              · intro htrue
                exact hsecure.resolve_left (by simpa using htrue)
              · intro htrue
                exact hhttp.resolve_left (by simpa using htrue)
              · intro hnone
                exact hsite.resolve_left (by simpa using hnone)

end BetterWebBrowser.Cookies
