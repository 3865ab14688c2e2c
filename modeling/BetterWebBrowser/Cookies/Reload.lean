import BetterWebBrowser.Cookies.Invariants
import BetterWebBrowser.Cookies.Persistence

/-!
# Reloading the jar

What the parser guarantees of a cookie, what the reader of the file asks of it beyond that,
and that the jar comes back where the two agree.
-/

namespace BetterWebBrowser.Cookies

open Framework Navigation CookieState

/-! ## What the parser guarantees -/

theorem lowercase_applyDomainAttribute {suffixes : SuffixList} {host domain : Str}
    {given : Option Str} {hostOnly : Bool}
    (hgiven : ∀ text, given = some text → Str.toAsciiLowercase text = text)
    (h : applyDomainAttribute suffixes (Str.toAsciiLowercase host) given = some (domain, hostOnly)) :
    Str.toAsciiLowercase domain = domain ∧
      (hostOnly = false → suffixes.publicSuffix domain = false) := by
  have hhost := Str.toAsciiLowercase_toAsciiLowercase host
  cases given with
  | none =>
    cases h
    exact ⟨hhost, fun hfalse => Bool.noConfusion hfalse⟩
  | some text =>
    rw [applyDomainAttribute.eq_def] at h
    dsimp only at h
    split at h
    next hsuffix =>
      split at h
      · cases h
      · cases h
        exact ⟨hhost, fun hfalse => Bool.noConfusion hfalse⟩
    next hsuffix =>
      split at h
      · cases h
        exact ⟨hhost, fun hfalse => Bool.noConfusion hfalse⟩
      · split at h
        · cases h
          exact ⟨hgiven _ rfl, fun _ => (Bool.not_eq_true _).mp hsuffix⟩
        · cases h

theorem startsWith_slash {path : Str} : Str.startsWith path "/".toList = true ↔ path.head? = some '/' := by
  cases path with
  | nil => simp [Str.startsWith]
  | cons c path =>
    change ('/' == c && true) = true ↔ some c = some '/'
    rw [Bool.and_true, beq_iff_eq, Option.some.injEq]
    exact eq_comm

theorem head_defaultCookiePath (pathAndQuery : Str) :
    (defaultCookiePath pathAndQuery).head? = some '/' := by
  rw [defaultCookiePath]
  split
  next => rfl
  next hpath =>
    split
    next => rfl
    next directory hdirectory =>
      split
      next => rfl
      next hnonempty =>
        have hslash : (beforeQuery pathAndQuery).head? = some '/' := by
          rw [← startsWith_slash]
          simp only [Bool.or_eq_true, Bool.not_eq_true', not_or, Bool.not_eq_false] at hpath
          exact hpath.1
        have hprefix : directory <+: beforeQuery pathAndQuery := by
          rw [directoryOf] at hdirectory
          split at hdirectory
          · rw [← Option.some.inj hdirectory, ← List.reverse_suffix, List.reverse_reverse]
            exact (List.tail_suffix _).trans (List.dropWhile_suffix _)
          · cases hdirectory
        obtain ⟨rest, hrest⟩ := hprefix
        cases directory with
        | nil => exact absurd rfl hnonempty
        | cons c directory =>
          rw [← hrest] at hslash
          exact hslash

/-- The latest expiry that the parser gives. -/
def latestExpiry (parsedAt : SystemTime) : SystemTime :=
  parsedAt + MAX_PERSISTENT_AGE * TICKS_PER_SECOND

theorem checkedAdd_le {time sum : SystemTime} {seconds : Nat} (hseconds : seconds ≤ MAX_PERSISTENT_AGE)
    (h : time.checkedAdd seconds = some sum) : sum ≤ latestExpiry time := by
  rw [SystemTime.checkedAdd] at h
  split at h
  · rw [← Option.some.inj h, latestExpiry]
    have hscaled : (seconds : Int) * TICKS_PER_SECOND ≤ MAX_PERSISTENT_AGE * TICKS_PER_SECOND := by
      exact_mod_cast Nat.mul_le_mul_right TICKS_PER_SECOND hseconds
    exact Int.add_le_add_left hscaled time
  · cases h

theorem getD_checkedAdd_le {time : SystemTime} {seconds : Nat}
    (hseconds : seconds ≤ MAX_PERSISTENT_AGE) :
    (time.checkedAdd seconds).getD time ≤ latestExpiry time := by
  cases hsum : time.checkedAdd seconds with
  | none =>
    show time ≤ latestExpiry time
    have hage : (0 : Int) ≤ MAX_PERSISTENT_AGE * TICKS_PER_SECOND := by decide
    exact Int.le_add_of_nonneg_right hage
  | some sum => exact checkedAdd_le hseconds hsum

/-- What holds of the attributes after every step of the reader. -/
structure AttributesChecked (now : SystemTime) (attributes : CookieAttributes) : Prop where
  domain : ∀ text, attributes.domain = some text → Str.toAsciiLowercase text = text
  path : ∀ text, attributes.path = some text → text.head? = some '/'
  expiry : ∀ expires, attributes.expiresAt = some expires → expires ≤ latestExpiry now

theorem AttributesChecked.read {now : SystemTime} {attributes attributes' : CookieAttributes}
    {pathAndQuery text : Str} (h : AttributesChecked now attributes)
    (hread : attributes.read (defaultCookiePath pathAndQuery) now text = some attributes') :
    AttributesChecked now attributes' := by
  rw [CookieAttributes.read] at hread
  dsimp only at hread
  split at hread
  · cases hread
    exact h
  · split at hread
    · split at hread
      · cases hread
      · cases hread
        refine ⟨?_, h.path, h.expiry⟩
        intro text htext
        rw [← Option.some.inj htext]
        exact Str.toAsciiLowercase_toAsciiLowercase _
    · split at hread
      · cases hread
        refine ⟨h.domain, ?_, h.expiry⟩
        rintro text htext
        rw [← Option.some.inj htext]
        split
        next hslash => exact startsWith_slash.mp hslash
        next => exact head_defaultCookiePath pathAndQuery
      · split at hread
        · cases hread
          exact ⟨h.domain, h.path, h.expiry⟩
        · split at hread
          · cases hread
            exact ⟨h.domain, h.path, h.expiry⟩
          · split at hread
            · split at hread <;> cases hread
              · exact ⟨h.domain, h.path, h.expiry⟩
              · exact h
            · split at hread
              · split at hread
                · cases hread
                  refine ⟨h.domain, h.path, ?_⟩
                  rintro expires hexpires
                  rw [← Option.some.inj hexpires, clampExpiry]
                  exact (min_le_right _ _).trans (getD_checkedAdd_le le_rfl)
                · cases hread
                  exact h
              · split at hread <;> cases hread
                · exact ⟨h.domain, h.path, h.expiry⟩
                · exact h

theorem AttributesChecked.foldlM {now : SystemTime} {attributes attributes' : CookieAttributes}
    {pathAndQuery : Str} {texts : List Str} (h : AttributesChecked now attributes)
    (hread : texts.foldlM (CookieAttributes.read (defaultCookiePath pathAndQuery) now) attributes =
      some attributes') : AttributesChecked now attributes' := by
  induction texts generalizing attributes with
  | nil =>
    cases hread
    exact h
  | cons text texts ih =>
    rw [List.foldlM_cons] at hread
    obtain ⟨middle, hmiddle, hrest⟩ := Option.bind_eq_some_iff.mp hread
    exact ih (h.read hmiddle) hrest

/-- What the parser guarantees of a cookie, whatever its creation number. -/
structure Checked (suffixes : SuffixList) (parsedAt : SystemTime) (cookie : StoredCookie) : Prop where
  short : Str.byteLen cookie.name + Str.byteLen cookie.value ≤ MAX_COOKIE_PAIR_BYTES
  lowercase : Str.toAsciiLowercase cookie.domain = cookie.domain
  suffix : cookie.hostOnly = false → suffixes.publicSuffix cookie.domain = false
  path : cookie.path.head? = some '/'
  sameSite : cookie.sameSite = .None → cookie.secure = true
  prefixes : ∃ pathPresent, breaksPrefixRules cookie.name cookie.value cookie.path cookie.secure
    cookie.hostOnly pathPresent = false
  characters : ∀ c ∈ cookie.name ++ cookie.value, isExcludedControl c = false ∧ c ≠ ';'
  expiry : ∀ expires, cookie.expiresAt = some expires →
    expires = UNIX_EPOCH ∨ expires ≤ latestExpiry parsedAt

private theorem mem_cookiePair {pair : Str} {c : Char}
    (h : c ∈ (cookiePair pair).1 ++ (cookiePair pair).2) : c ∈ pair := by
  rw [cookiePair] at h
  cases hsplit : Str.splitOnce pair "=".toList with
  | none =>
    rw [hsplit] at h
    rcases List.mem_append.mp h with hname | hvalue
    · cases hname
    · exact Str.mem_of_mem_trimMatches hvalue
  | some parts =>
    obtain ⟨name, value⟩ := parts
    rw [hsplit] at h
    rw [(Str.splitOnce_char hsplit).1]
    rcases List.mem_append.mp h with hname | hvalue
    · exact List.mem_append_left _ (Str.mem_of_mem_trimMatches hname)
    · exact List.mem_append_right _ (List.mem_cons_of_mem _ (Str.mem_of_mem_trimMatches hvalue))

private theorem mem_splitPair_fst {text : Str} {c : Char}
    (h : c ∈ (splitPair text ";".toList).1) : c ∈ text ∧ c ≠ ';' := by
  rw [splitPair] at h
  cases hsplit : Str.splitOnce text ";".toList with
  | none =>
    rw [hsplit] at h
    refine ⟨h, ?_⟩
    rintro rfl
    exact Str.splitOnce_char_none hsplit h
  | some parts =>
    obtain ⟨pair, rest⟩ := parts
    rw [hsplit] at h
    obtain ⟨rfl, habsent⟩ := Str.splitOnce_char hsplit
    refine ⟨List.mem_append_left _ h, ?_⟩
    rintro rfl
    exact habsent h

theorem Accepted.checked {suffixes : SuffixList} {parsed : ParsedUrl} {assignment : Str}
    {fromHttp : Bool} {now : SystemTime} {cookie : StoredCookie} {attributes : CookieAttributes}
    (h : Accepted suffixes parsed assignment fromHttp now cookie attributes) :
    Checked suffixes now cookie := by
  have hattributes : AttributesChecked now attributes := by
    have hstart : AttributesChecked now {} := by
      constructor <;> intro _ hnone <;> cases hnone
    exact hstart.foldlM h.read
  obtain ⟨hlowercase, hsuffix⟩ := lowercase_applyDomainAttribute hattributes.domain h.domain
  refine ⟨h.short, hlowercase, hsuffix, ?_, h.sameSite, ⟨_, h.prefixes⟩, ?_, ?_⟩
  · rw [h.path]
    cases hpath : attributes.path with
    | none => exact head_defaultCookiePath _
    | some path => exact hattributes.path path hpath
  · intro c hc
    have hpair : c ∈ (splitPair assignment ";".toList).1 := by
      apply mem_cookiePair
      rw [h.pair]
      exact hc
    obtain ⟨hmem, hseparator⟩ := mem_splitPair_fst hpair
    have hcontrols := List.any_eq_false.mp h.controls c hmem
    exact ⟨(Bool.not_eq_true _).mp hcontrols, hseparator⟩
  · intro expires hexpires
    rw [h.expiry, CookieAttributes.expiry] at hexpires
    split at hexpires
    next => exact .inr (hattributes.expiry expires hexpires)
    next => exact .inl (Option.some.inj hexpires).symm
    next seconds hseconds =>
      right
      rw [← Option.some.inj hexpires]
      exact getD_checkedAdd_le (min_le_right _ _)

/-! ## One cookie -/

/-- What the reader asks of a cookie beyond what the parser has checked. -/
structure Portable (cookie : StoredCookie) : Prop where
  tabs : '\t' ∉ cookie.name ++ cookie.value
  domain_nonempty : cookie.domain ≠ []
  domain_short : Str.byteLen cookie.domain ≤ 253
  domain_ascii : cookie.domain.all Str.isAscii = true
  domain_start : Str.startsWith cookie.domain ".".toList = false
  domain_end : ['.'].isSuffixOf cookie.domain = false
  domain_labels : Str.splitOnce cookie.domain "..".toList = none
  path_short : Str.byteLen cookie.path ≤ 1024

/-- A time in whole seconds. -/
def wholeSeconds (time : SystemTime) : SystemTime :=
  ((time.toNat / TICKS_PER_SECOND * TICKS_PER_SECOND : Nat) : Int)

theorem wholeSeconds_le {expires : SystemTime} (h : 0 < wholeSeconds expires) :
    wholeSeconds expires ≤ expires := by
  have hpositive : 0 ≤ expires := by
    by_contra hnegative
    have hzero : expires.toNat = 0 := Int.toNat_of_nonpos (le_of_lt (not_le.mp hnegative))
    rw [wholeSeconds, hzero] at h
    exact absurd h (by decide)
  have hdiv : ((expires.toNat / TICKS_PER_SECOND * TICKS_PER_SECOND : Nat) : Int) ≤ expires.toNat := by
    exact_mod_cast Nat.div_mul_le_self expires.toNat TICKS_PER_SECOND
  rw [Int.toNat_of_nonneg hpositive] at hdiv
  exact hdiv

/-- A cookie as it comes back from the file. -/
def StoredCookie.truncated (cookie : StoredCookie) : StoredCookie :=
  { cookie with expiresAt := cookie.expiresAt.map wholeSeconds }

/-- The clock is after the epoch and four hundred days before its end. -/
def ClockFits (now : SystemTime) : Prop := 0 ≤ now ∧ latestExpiry now + EPOCH_FILE_TIME < 2 ^ 63

variable {suffixes : SuffixList} {parsedAt now : SystemTime} {cookie : StoredCookie}

private theorem fromCookie_isInvalid {persisted : PersistedCookie}
    (hchecked : Checked suffixes parsedAt cookie) (hportable : Portable cookie)
    (hcreation : cookie.creation ≠ 0) (h : PersistedCookie.fromCookie now cookie = some persisted) :
    persisted.isInvalid suffixes = false := by
  rw [PersistedCookie.fromCookie] at h
  obtain ⟨expires, hexpires, h⟩ := Option.bind_eq_some_iff.mp h
  split at h
  · cases h
  · obtain ⟨seconds, hseconds, h⟩ := Option.bind_eq_some_iff.mp h
    cases h
    have hshort : ¬ 4096 < Str.byteLen cookie.name + Str.byteLen cookie.value :=
      Nat.not_lt.mpr hchecked.short
    have hdomain : ¬ 253 < Str.byteLen cookie.domain := Nat.not_lt.mpr hportable.domain_short
    have hpath : ¬ 1024 < Str.byteLen cookie.path := Nat.not_lt.mpr hportable.path_short
    have hslash : Str.startsWith cookie.path "/".toList = true := startsWith_slash.mpr hchecked.path
    have hsuffix : (!cookie.hostOnly && suffixes.publicSuffix cookie.domain) = false := by
      cases hhost : cookie.hostOnly with
      | true => rfl
      | false => rw [hchecked.suffix hhost]; rfl
    have hsite : (decide (sameSiteTag cookie.sameSite = 4) && !cookie.secure) = false := by
      cases hsame : cookie.sameSite with
      | Default => rfl
      | Strict => rfl
      | Lax => rfl
      | None => rw [hchecked.sameSite hsame]; rfl
    have hcharacters : (cookie.name ++ cookie.value).any PersistedCookie.isRejectedByte = false := by
      rw [List.any_eq_false]
      intro c hc
      obtain ⟨hcontrol, hseparator⟩ := hchecked.characters c hc
      have htab : c.toNat ≠ 9 := by
        intro hnine
        have hc' : c = '\t' := Char.toNat_inj.mp hnine
        rw [hc'] at hc
        exact hportable.tabs hc
      simp only [isExcludedControl, Bool.or_eq_false_iff, decide_eq_false_iff_not,
        Bool.and_eq_false_iff] at hcontrol
      simp only [PersistedCookie.isRejectedByte, Bool.or_eq_true, decide_eq_true_eq, not_or]
      refine ⟨⟨?_, ?_⟩, hseparator⟩ <;> omega
    obtain ⟨pathPresent, hprefixes⟩ := hchecked.prefixes
    have hprefixes' : (startsWithAsciiCaseInsensitive cookie.name "__Secure-".toList &&
          !cookie.secure ||
        startsWithAsciiCaseInsensitive cookie.name "__Host-".toList &&
          (!cookie.secure || !cookie.hostOnly || decide (cookie.path ≠ "/".toList)) ||
        decide (cookie.name = []) &&
          (startsWithAsciiCaseInsensitive cookie.value "__Secure-".toList ||
            startsWithAsciiCaseInsensitive cookie.value "__Host-".toList)) = false := by
      rw [breaksPrefixRules] at hprefixes
      revert hprefixes
      cases cookie.secure <;> cases cookie.hostOnly <;> cases pathPresent <;>
        simp +contextual
    simp only [PersistedCookie.isInvalid, PersistedCookie.prefixRulesAreInvalid, hshort, hdomain,
      hpath, hslash, hsuffix, hsite, hcharacters, hprefixes', hportable.domain_nonempty,
      hportable.domain_ascii, hchecked.lowercase, hportable.domain_start, hportable.domain_end,
      hportable.domain_labels, hcreation, decide_false, Bool.or_false, Bool.not_true, ne_eq,
      not_true_eq_false, Option.isSome_none]

private theorem intoCookie_eq {persisted : PersistedCookie} {expiresAt : SystemTime}
    {sameSite : SameSite} (hvalid : persisted.isInvalid suffixes = false)
    (hadd : SystemTime.checkedAdd UNIX_EPOCH persisted.expiresUnixSeconds = some expiresAt)
    (hlive : ¬ expiresAt ≤ now) (hlimit : ¬ expiryLimit now < expiresAt)
    (hsite : decodeSameSite persisted.sameSite = .ok sameSite) :
    persisted.intoCookie suffixes now = .ok (some ⟨persisted.name, persisted.value,
      persisted.domain, persisted.path, persisted.secure, persisted.hostOnly, persisted.httpOnly,
      sameSite, some expiresAt, persisted.creation⟩) := by
  rw [PersistedCookie.intoCookie, hadd, hsite, hvalid]
  simp only [failIf, hlive, hlimit, if_false, Bool.false_eq_true]
  rfl

/-- A cookie that is written comes back with its expiry in whole seconds. -/
theorem intoCookie_fromCookie (hchecked : Checked suffixes parsedAt cookie)
    (hportable : Portable cookie) (hcreation : cookie.creation ≠ 0) {expires : SystemTime}
    (hexpires : cookie.expiresAt = some expires) (hlive : now < wholeSeconds expires)
    (hparsed : parsedAt ≤ now) (hclock : ClockFits now) :
    ∃ persisted, PersistedCookie.fromCookie now cookie = some persisted ∧
      persisted.intoCookie suffixes now = .ok (some cookie.truncated) := by
  obtain ⟨hepoch, hrange⟩ := hclock
  have hwhole := wholeSeconds_le (lt_of_le_of_lt hepoch hlive)
  have hlate : now < expires := lt_of_lt_of_le hlive hwhole
  have hlatest : expires ≤ latestExpiry now := by
    rcases hchecked.expiry expires hexpires with rfl | hbound
    · exact absurd (lt_of_le_of_lt hepoch hlate) (lt_irrefl _)
    · exact hbound.trans (Int.add_le_add_right hparsed _)
  have hfrom : PersistedCookie.fromCookie now cookie = some ⟨cookie.name, cookie.value,
      cookie.domain, cookie.path, cookie.secure, cookie.hostOnly, cookie.httpOnly,
      sameSiteTag cookie.sameSite, expires.toNat / TICKS_PER_SECOND, cookie.creation⟩ := by
    rw [PersistedCookie.fromCookie, hexpires, Option.bind_eq_bind, Option.bind_some,
      if_neg (not_le.mpr hlate), unixSeconds, if_pos (hepoch.trans hlate.le)]
    rfl
  refine ⟨_, hfrom, ?_⟩
  have hvalid := fromCookie_isInvalid hchecked hportable hcreation hfrom
  have hadd : SystemTime.checkedAdd UNIX_EPOCH (expires.toNat / TICKS_PER_SECOND) =
      some (wholeSeconds expires) := by
    have hsum : UNIX_EPOCH + ((expires.toNat / TICKS_PER_SECOND : Nat) : Int) * TICKS_PER_SECOND =
        wholeSeconds expires := by
      rw [UNIX_EPOCH, Int.zero_add, wholeSeconds, Int.natCast_mul]
    rw [SystemTime.checkedAdd, hsum]
    apply if_pos
    exact lt_of_le_of_lt (Int.add_le_add_right (hwhole.trans hlatest) _) hrange
  have hlimit : ¬ expiryLimit now < wholeSeconds expires := by
    have hsum : now.checkedAdd MAX_PERSISTENT_AGE = some (latestExpiry now) := by
      rw [SystemTime.checkedAdd]
      exact if_pos hrange
    rw [expiryLimit, hsum]
    exact not_lt.mpr (hwhole.trans hlatest)
  have hsite : decodeSameSite (sameSiteTag cookie.sameSite) = .ok cookie.sameSite := by
    cases cookie.sameSite <;> rfl
  rw [intoCookie_eq hvalid hadd (not_le.mpr hlive) hlimit hsite, StoredCookie.truncated, hexpires]
  rfl

/-! ## The whole jar -/

/-- The unexpired persistent cookies. -/
def CookieState.persistent (state : CookieState) (now : SystemTime) : List StoredCookie :=
  (state.live now).filter fun cookie => cookie.expiresAt.isSome

/-- A cookie that is written, if it is, comes back. -/
def ReturnsAs (suffixes : SuffixList) (now : SystemTime) (cookie : StoredCookie) : Prop :=
  cookie.isExpired now = false → cookie.expiresAt.isSome → ∃ persisted,
    PersistedCookie.fromCookie now cookie = some persisted ∧
      persisted.intoCookie suffixes now = .ok (some cookie.truncated)

private theorem fromCookie_eq_none
    (h : ¬ (cookie.isExpired now = false ∧ cookie.expiresAt.isSome = true)) :
    PersistedCookie.fromCookie now cookie = none := by
  rw [PersistedCookie.fromCookie]
  cases hexpires : cookie.expiresAt with
  | none => rfl
  | some expires =>
    have hexpired : expires ≤ now := by
      by_contra hlive
      apply h
      rw [StoredCookie.isExpired, hexpires]
      exact ⟨decide_eq_false hlive, rfl⟩
    rw [Option.bind_eq_bind, Option.bind_some, if_pos hexpired]

private theorem addLoaded_ok {cookies : List StoredCookie} {persisted : PersistedCookie}
    {loaded : StoredCookie} {rest : List StoredCookie}
    (hvalid : (CookieState.mk (cookies ++ loaded :: rest) 1 1).Valid)
    (h : persisted.intoCookie suffixes now = .ok (some loaded)) :
    addLoaded suffixes now cookies persisted = .ok (cookies ++ [loaded]) := by
  have hidentities := (List.pairwise_append.mp hvalid.identities).2.2
  have hcreations := hvalid.creations
  rw [List.map_append, List.map_cons, List.nodup_append] at hcreations
  have hdomain := hvalid.perDomain loaded.domain
  rw [List.countP_append, List.countP_cons_of_pos (by simp)] at hdomain
  have haccepted : ((cookies.any fun other => SameCookie other loaded) ||
      (cookies.any fun other => other.creation = loaded.creation) ||
      MAX_COOKIES_PER_DOMAIN < cookies.countP (fun other => other.domain = loaded.domain) + 1) =
        false := by
    rw [Bool.or_eq_false_iff, Bool.or_eq_false_iff]
    refine ⟨⟨?_, ?_⟩, decide_eq_false (by omega)⟩
    · rw [List.any_eq_false]
      intro other hother
      simpa using hidentities other hother loaded List.mem_cons_self
    · rw [List.any_eq_false]
      intro other hother
      simpa using hcreations.2.2 _ (List.mem_map_of_mem hother) _ List.mem_cons_self
  rw [addLoaded, h]
  exact if_neg (by rw [haccepted]; decide)

private theorem foldlM_addLoaded {cookies loaded : List StoredCookie}
    (hreturns : ∀ cookie ∈ cookies, ReturnsAs suffixes now cookie)
    (hvalid : (CookieState.mk (loaded ++ ((CookieState.mk cookies 1 1).persistent now).map
      StoredCookie.truncated) 1 1).Valid) :
    (cookies.filterMap (PersistedCookie.fromCookie now)).foldlM (addLoaded suffixes now) loaded =
      .ok (loaded ++ ((CookieState.mk cookies 1 1).persistent now).map StoredCookie.truncated) := by
  induction cookies generalizing loaded with
  | nil =>
    show Except.ok loaded = .ok (loaded ++ [])
    rw [List.append_nil]
  | cons cookie cookies ih =>
    have hreturns' : ∀ cookie ∈ cookies, ReturnsAs suffixes now cookie :=
      fun other hother => hreturns other (List.mem_cons_of_mem _ hother)
    by_cases hkept : cookie.isExpired now = false ∧ cookie.expiresAt.isSome = true
    · obtain ⟨persisted, hfrom, hinto⟩ := hreturns cookie List.mem_cons_self hkept.1 hkept.2
      have hpersistent : (CookieState.mk (cookie :: cookies) 1 1).persistent now =
          cookie :: (CookieState.mk cookies 1 1).persistent now := by
        simp [CookieState.persistent, CookieState.live, hkept.1, hkept.2]
      rw [hpersistent, List.map_cons] at hvalid ⊢
      rw [List.filterMap_cons_some hfrom, List.foldlM_cons, addLoaded_ok hvalid hinto]
      rw [List.append_cons] at hvalid
      refine (ih hreturns' hvalid).trans ?_
      rw [← List.append_cons]
    · have hpersistent : (CookieState.mk (cookie :: cookies) 1 1).persistent now =
          (CookieState.mk cookies 1 1).persistent now := by
        rw [CookieState.persistent, CookieState.live, List.filter_cons]
        by_cases hexpired : cookie.isExpired now = false
        · have hsession : cookie.expiresAt.isSome = false := by
            simpa [hexpired] using hkept
          simp [CookieState.persistent, CookieState.live, hexpired, hsession]
        · simp [CookieState.persistent, CookieState.live, hexpired]
      rw [hpersistent] at hvalid ⊢
      rw [List.filterMap_cons_none (fromCookie_eq_none hkept)]
      exact ih hreturns' hvalid

private theorem persistent_sublist (state : CookieState) (now : SystemTime) :
    (state.persistent now).Sublist state.cookies :=
  List.filter_sublist.trans (state.live_sublist now)

/-- Truncating the expiry changes neither identities nor creation numbers. -/
private theorem valid_truncated {cookies : List StoredCookie}
    (h : (CookieState.mk cookies 1 1).Valid) :
    (CookieState.mk (cookies.map StoredCookie.truncated) 1 1).Valid where
  identities := by
    show (cookies.map StoredCookie.truncated).Pairwise _
    rw [List.pairwise_map]
    exact h.identities
  creations := by
    show ((cookies.map StoredCookie.truncated).map StoredCookie.creation).Nodup
    rw [List.map_map]
    exact h.creations
  perDomain domain := by
    show (cookies.map StoredCookie.truncated).countP _ ≤ _
    rw [List.countP_map]
    exact h.perDomain domain
  total := by
    show (cookies.map StoredCookie.truncated).length ≤ _
    rw [List.length_map]
    exact h.total

/-- One invalid cookie is enough to refuse the file. -/
theorem foldlM_addLoaded_valid {persisted : List PersistedCookie} {cookies loaded : List StoredCookie}
    (h : persisted.foldlM (addLoaded suffixes now) cookies = .ok loaded) :
    ∀ cookie ∈ persisted, cookie.isInvalid suffixes = false := by
  induction persisted generalizing cookies with
  | nil =>
    intro cookie hcookie
    cases hcookie
  | cons first persisted ih =>
    rw [List.foldlM_cons] at h
    obtain ⟨middle, hfirst, hrest⟩ := bind_eq_ok.mp h
    intro cookie hcookie
    rcases List.mem_cons.mp hcookie with rfl | hmem
    · rw [addLoaded] at hfirst
      obtain ⟨read, hread, -⟩ := bind_eq_ok.mp hfirst
      rw [PersistedCookie.intoCookie] at hread
      exact (Bool.not_eq_true _).mp (failIf_bind_eq_ok.mp hread).1
    · exact ih hrest cookie hmem

section File

variable {Bytes : Type} {encode : PersistedJar → Except Str Bytes}
  {decode : Bytes → Except Str PersistedJar} {length : Bytes → Nat} {state : CookieState}

/-- The file that is written now is accepted now and holds the unexpired persistent cookies. -/
def Reloads (encode : PersistedJar → Except Str Bytes) (decode : Bytes → Except Str PersistedJar)
    (length : Bytes → Nat) (suffixes : SuffixList) (state : CookieState) (now : SystemTime) : Prop :=
  ∀ bytes, save encode length state now = .ok bytes →
    ∃ loaded, loadFile decode length suffixes bytes now = .ok loaded ∧
      loaded.cookies = (state.persistent now).map StoredCookie.truncated

theorem reloads (hcodec : ∀ jar bytes, encode jar = .ok bytes → decode bytes = .ok jar)
    (hvalid : state.Valid) (hversion : state.version ≠ 0) (hnext : state.nextCreation ≠ 0)
    (hreturns : ∀ cookie ∈ state.cookies, ReturnsAs suffixes now cookie) :
    Reloads encode decode length suffixes state now := by
  intro bytes hsave
  rw [save] at hsave
  obtain ⟨written, hencode, hsave⟩ := bind_eq_ok.mp hsave
  obtain ⟨hlength, hsave⟩ := failIf_bind_eq_ok.mp hsave
  cases hsave
  have hpersistent : (CookieState.mk ((state.persistent now).map StoredCookie.truncated) 1 1).Valid :=
    valid_truncated (hvalid.sublist (persistent_sublist state now))
  have hcookies : (persistedJar state now).cookies.foldlM (addLoaded suffixes now) [] =
      .ok ((state.persistent now).map StoredCookie.truncated) :=
    foldlM_addLoaded hreturns hpersistent
  have hmetadata : ¬ ((persistedJar state now).formatVersion ≠ FORMAT_VERSION ∨
      (persistedJar state now).version = 0 ∨ (persistedJar state now).nextCreation = 0 ∨
      MAX_COOKIES < (persistedJar state now).cookies.length) := by
    have hcount := (List.length_filterMap_le (PersistedCookie.fromCookie now) state.cookies).trans
      hvalid.total
    rintro (hformat | hzero | hzero | hmany)
    · exact hformat rfl
    · exact hversion hzero
    · exact hnext hzero
    · exact absurd hcount (Nat.not_le.mpr hmany)
  refine ⟨⟨(state.persistent now).map StoredCookie.truncated, max state.nextCreation (nextNumber
    (greatestCreation ((state.persistent now).map StoredCookie.truncated))), state.version⟩, ?_, rfl⟩
  rw [loadFile, failIf, if_neg hlength, hcodec _ _ hencode]
  show (persistedJar state now).intoState suffixes now = _
  rw [PersistedJar.intoState, failIf, if_neg hmetadata, hcookies]
  rfl

theorem loadFile_valid {bytes : Bytes} {jar : PersistedJar} {loaded : CookieState}
    (hdecode : decode bytes = .ok jar)
    (h : loadFile decode length suffixes bytes now = .ok loaded) :
    ∀ cookie ∈ jar.cookies, cookie.isInvalid suffixes = false := by
  rw [loadFile] at h
  obtain ⟨-, h⟩ := failIf_bind_eq_ok.mp h
  obtain ⟨jar', hjar, h⟩ := bind_eq_ok.mp h
  rw [hdecode] at hjar
  cases hjar
  rw [PersistedJar.intoState] at h
  obtain ⟨-, h⟩ := failIf_bind_eq_ok.mp h
  obtain ⟨cookies, hcookies, -⟩ := bind_eq_ok.mp h
  exact foldlM_addLoaded_valid hcookies

end File

/-! ## Runs -/

namespace CookieHost

variable {host : CookieHost} {state : CookieState}

/-- What a call stores can be reloaded, and the clock has not gone back behind it since. -/
def CallPortable (host : CookieHost) (now : SystemTime) (call : CookieCall) : Prop :=
  ∀ parsed cookie expired fromHttp storedAt,
    host.assigned call = some (parsed, cookie, expired, fromHttp, storedAt) → expired = false →
    cookie.expiresAt.isSome = true → Portable cookie ∧ call.parsedAt ≤ now

/-- What a run of portable calls keeps of every cookie. -/
structure Storable (suffixes : SuffixList) (now : SystemTime) (cookie : StoredCookie) : Prop where
  numbered : cookie.creation ≠ 0
  persistent : cookie.expiresAt.isSome = true →
    Portable cookie ∧ ∃ parsedAt ≤ now, Checked suffixes parsedAt cookie

private theorem Storable.renumber (h : cookie.expiresAt.isSome = true →
      Portable cookie ∧ ∃ parsedAt ≤ now, Checked suffixes parsedAt cookie) {creation : Nat}
    (hcreation : creation ≠ 0) : Storable suffixes now { cookie with creation := creation } where
  numbered := hcreation
  persistent hsome := by
    obtain ⟨hportable, parsedAt, hle, hchecked⟩ := h hsome
    exact ⟨⟨hportable.tabs, hportable.domain_nonempty, hportable.domain_short,
      hportable.domain_ascii, hportable.domain_start, hportable.domain_end, hportable.domain_labels,
      hportable.path_short⟩, parsedAt, hle, ⟨hchecked.short, hchecked.lowercase, hchecked.suffix,
      hchecked.path, hchecked.sameSite, hchecked.prefixes, hchecked.characters, hchecked.expiry⟩⟩

private theorem call_storable (h : ∀ cookie ∈ state.cookies, Storable host.suffixes now cookie)
    (hnext : state.nextCreation ≠ 0) {call : CookieCall} (hcall : host.CallPortable now call) :
    (∀ cookie ∈ (host.call state call).cookies, Storable host.suffixes now cookie) ∧
      (host.call state call).nextCreation ≠ 0 := by
  have hlive : ∀ at', ∀ cookie ∈ state.live at', Storable host.suffixes now cookie :=
    fun at' cookie hcookie => h cookie (mem_live.mp hcookie).1
  obtain ⟨parsed, cookie, expired, fromHttp, storedAt, hassigned, heq⟩ | ⟨-, heq | ⟨at', heq⟩⟩ :=
    host.call_cases state call
  · have houtcome := storeCookie_outcome state cookie expired fromHttp (isSecureUrl parsed) storedAt
    rw [← heq] at houtcome
    have hpositive : ∀ {next}, next = nextNumber state.nextCreation → next ≠ 0 := by
      rintro next rfl
      exact Nat.ne_of_gt (nextNumber_pos _)
    cases houtcome with
    | refused hcookies hsame =>
      rw [hcookies, hsame]
      exact ⟨hlive storedAt, hnext⟩
    | removed hexpired hcookies hnumber =>
      refine ⟨?_, ?_⟩
      · intro other hother
        rw [hcookies] at hother
        exact hlive storedAt other (mem_others.mp hother).1
      · rcases hnumber with hnumber | hnumber
        · rw [hnumber]
          exact hnext
        · exact hpositive hnumber
    | stored hexpired hhttp hsecure hcookies hkept hcreation =>
      rename_i kept creation
      obtain ⟨text, hparse⟩ := assigned_parsed hassigned
      obtain ⟨-, attributes, haccepted⟩ := parseCookieInternal_accepted hparse
      have hassignedGood : cookie.expiresAt.isSome = true →
          Portable cookie ∧ ∃ parsedAt ≤ now, Checked host.suffixes parsedAt cookie := by
        intro hsome
        obtain ⟨hportable, hle⟩ := hcall _ _ _ _ _ hassigned hexpired hsome
        exact ⟨hportable, call.parsedAt, hle, haccepted.checked⟩
      have hnumber : creation ≠ 0 ∧ (host.call state call).nextCreation ≠ 0 := by
        rcases hcreation with ⟨stored, hstored, -, rfl, hsame⟩ | ⟨-, rfl, hnew⟩
        · rw [hsame]
          exact ⟨(hlive storedAt stored hstored).numbered, hnext⟩
        · exact ⟨hnext, hpositive hnew⟩
      refine ⟨?_, hnumber.2⟩
      intro other hother
      rw [hcookies, List.mem_append, List.mem_singleton] at hother
      rcases hother with hother | rfl
      · exact hlive storedAt other (mem_others.mp (hkept.sublist.subset hother)).1
      · exact Storable.renumber hassignedGood hnumber.1
  · rw [heq]
    exact ⟨h, hnext⟩
  · rw [heq, purgeExpired_cookies, purgeExpired_nextCreation]
    exact ⟨hlive at', hnext⟩

private theorem run_storable {calls : List CookieCall}
    (h : ∀ cookie ∈ state.cookies, Storable host.suffixes now cookie)
    (hnext : state.nextCreation ≠ 0) (hcalls : ∀ call ∈ calls, host.CallPortable now call) :
    (∀ cookie ∈ (calls.foldl host.call state).cookies, Storable host.suffixes now cookie) ∧
      (calls.foldl host.call state).nextCreation ≠ 0 := by
  induction calls generalizing state with
  | nil => exact ⟨h, hnext⟩
  | cons call calls ih =>
    obtain ⟨hcookies, hnext'⟩ := call_storable h hnext (hcalls call List.mem_cons_self)
    exact ih hcookies hnext' fun other hother => hcalls other (List.mem_cons_of_mem _ hother)

/-- No cookie of the jar expires within the current second. -/
def WholeSecondsLeft (state : CookieState) (now : SystemTime) : Prop :=
  ∀ cookie ∈ state.persistent now, ∀ expires, cookie.expiresAt = some expires →
    now < wholeSeconds expires

/-- After portable calls the file that is written can be read again. -/
theorem run_reloads {Bytes : Type} {encode : PersistedJar → Except Str Bytes}
    {decode : Bytes → Except Str PersistedJar} {length : Bytes → Nat}
    (hcodec : ∀ jar bytes, encode jar = .ok bytes → decode bytes = .ok jar)
    {calls : List CookieCall} (hfew : calls.length < 2 ^ 64)
    (hcalls : ∀ call ∈ calls, host.CallPortable now call) (hclock : ClockFits now)
    (hleft : WholeSecondsLeft (calls.foldl host.call {}) now) :
    Reloads encode decode length host.suffixes (calls.foldl host.call {}) now := by
  have hempty : ∀ cookie ∈ (CookieState.mk [] 1 1).cookies, Storable host.suffixes now cookie := by
    intro cookie hcookie
    cases hcookie
  obtain ⟨hcookies, hnext⟩ := run_storable hempty Nat.one_ne_zero hcalls
  have hready := ready_empty hfew
  have hvalid := run_valid host hready.valid ⟨hready.numbered, fun _ => rfl⟩ hready.room
  have hversion := run_version_pos host calls hready.version_pos
  refine reloads hcodec hvalid (Nat.ne_of_gt hversion) hnext ?_
  intro cookie hcookie hlive hsome
  obtain ⟨expires, hexpires⟩ := Option.isSome_iff_exists.mp hsome
  obtain ⟨hnumbered, hstored⟩ := hcookies cookie hcookie
  obtain ⟨hportable, parsedAt, hparsed, hchecked⟩ := hstored hsome
  have hpersistent : cookie ∈ (calls.foldl host.call {}).persistent now :=
    List.mem_filter.mpr ⟨mem_live.mpr ⟨hcookie, hlive⟩, hsome⟩
  exact intoCookie_fromCookie hchecked hportable hnumbered hexpires
    (hleft cookie hpersistent expires hexpires) hparsed hclock

/-- A response to a navigation sets a cookie for a minute. -/
def responseFor (value : Str) : CookieCall :=
  .storeResponseCookie ⟨some ⟨"https".toList, "a".toList, 443, "/".toList⟩, "GET".toList, .Navigation,
    none⟩ ("k=".toList ++ value ++ "; Max-Age=60".toList) 600000000 600000000 fun _ => .ok ()

def minuteCookie (value : Str) (creation : Nat) : StoredCookie :=
  ⟨"k".toList, value, "a".toList, "/".toList, false, true, false, .Default, some 1200000000, creation⟩

private theorem responseFor_assigned {value : Str} (h : value = "x".toList ∨ value = "a\tb".toList) :
    sampleHost.assigned (responseFor value) = some (⟨"https".toList, "a".toList, 443, "/".toList⟩,
      minuteCookie value 0, false, true, 600000000) := by
  rcases h with rfl | rfl <;> decide +kernel

private theorem responseFor_call {value : Str} (h : value = "x".toList ∨ value = "a\tb".toList) :
    sampleHost.call {} (responseFor value) = ⟨[minuteCookie value 1], 2, 2⟩ := by
  rw [sampleHost.call_of_assigned (responseFor_assigned h)]
  rfl

/-- A tab within a value passes the parser, and the reader refuses the whole file for it. -/
theorem run_reloads_fails :
    ∃ jar : PersistedJar, save (fun jar => .ok jar) (fun _ => 300)
        ([responseFor "a\tb".toList].foldl sampleHost.call {}) 600000000 = .ok jar ∧
      ∀ loaded, loadFile (fun jar => .ok jar) (fun _ => 300) sampleHost.suffixes jar 600000000 ≠
        .ok loaded := by
  rw [List.foldl_cons, responseFor_call (.inr rfl), List.foldl_nil]
  have hjar : persistedJar ⟨[minuteCookie "a\tb".toList 1], 2, 2⟩ 600000000 =
      ⟨1, 2, 2, [⟨"k".toList, "a\tb".toList, "a".toList, "/".toList, false, true, false, 1, 120, 1⟩]⟩ := by
    decide +kernel
  have hinvalid : PersistedCookie.isInvalid sampleHost.suffixes ⟨"k".toList, "a\tb".toList,
      "a".toList, "/".toList, false, true, false, 1, 120, 1⟩ = true := by
    decide +kernel
  refine ⟨_, rfl, fun loaded hloaded => ?_⟩
  have hvalid := loadFile_valid rfl hloaded ⟨"k".toList, "a\tb".toList, "a".toList, "/".toList,
    false, true, false, 1, 120, 1⟩ (by rw [hjar]; exact List.mem_cons_self)
  rw [hinvalid] at hvalid
  cases hvalid

theorem run_reloads_sample :
    Reloads (fun jar : PersistedJar => .ok jar) (fun jar => .ok jar) (fun _ => 300)
      sampleHost.suffixes ([responseFor "x".toList].foldl sampleHost.call {}) 600000000 := by
  have hportable : Portable (minuteCookie "x".toList 0) := by
    constructor <;> decide +kernel
  refine run_reloads ?_ (by decide) ?_ ⟨by decide, by decide⟩ ?_
  · intro jar bytes h
    cases h
    rfl
  · intro call hcall parsed cookie expired fromHttp storedAt hassigned _ _
    rw [List.mem_singleton.mp hcall, responseFor_assigned (.inl rfl)] at hassigned
    cases hassigned
    rw [List.mem_singleton.mp hcall]
    exact ⟨hportable, le_rfl⟩
  · rw [List.foldl_cons, responseFor_call (.inl rfl), List.foldl_nil]
    intro cookie hcookie expires hexpires
    have hmem : cookie ∈ [minuteCookie "x".toList 1] := (List.mem_filter.mp
      (List.mem_filter.mp hcookie).1).1
    rw [List.mem_singleton.mp hmem] at hexpires
    cases hexpires
    decide

end CookieHost

end BetterWebBrowser.Cookies
