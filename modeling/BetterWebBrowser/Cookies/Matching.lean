import BetterWebBrowser.Cookies.Reload

/-!
# Who gets a cookie

Which URLs a cookie goes back to: the paths below its own, the host that set it, or, with a
`Domain` attribute, the hosts of that domain.
-/

namespace BetterWebBrowser.Cookies

open Framework Navigation

/-! ## Domains and paths -/

/-- `host` is `domain` with labels before it. -/
def Subdomain (host domain : Str) : Prop := ∃ labels, host = labels ++ '.' :: domain

/-- `request` is `path` or lies below it. -/
def PathMatch (request path : Str) : Prop :=
  request = path ∨
    ∃ rest, request = path ++ rest ∧ (path.getLast? = some '/' ∨ rest.head? = some '/')

theorem Subdomain.eq_drop {host domain : Str} (h : Subdomain host domain) :
    ∃ dropped < host.length, domain = host.drop (dropped + 1) := by
  obtain ⟨labels, rfl⟩ := h
  exact ⟨labels.length, by simp, by simp⟩

theorem domainMatches_iff {host domain : Str} :
    domainMatches host domain = true ↔
      host = domain ∨ (isIpAddr host = false ∧ Subdomain host domain) := by
  rw [domainMatches, Bool.or_eq_true, decide_eq_true_eq]
  apply or_congr_right
  simp only [Bool.and_eq_true, Bool.not_eq_true', decide_eq_true_eq, List.isSuffixOf_iff_suffix,
    and_assoc]
  apply and_congr_right
  intro _
  constructor
  · rintro ⟨hlonger, ⟨front, rfl⟩, hdot⟩
    have hfront : front.length - 1 < front.length := by
      rw [List.length_append] at hlonger
      omega
    rw [List.length_append, Nat.add_sub_cancel, List.getElem?_append_left hfront,
      ← List.getLast?_eq_getElem?] at hdot
    obtain ⟨labels, rfl⟩ := List.getLast?_eq_some_iff.mp hdot
    exact ⟨labels, by simp⟩
  · rintro ⟨labels, rfl⟩
    have hlength : (labels ++ '.' :: domain).length = labels.length + (domain.length + 1) := by
      rw [List.length_append, List.length_cons]
    have hindex : (labels ++ '.' :: domain).length - domain.length - 1 = labels.length := by omega
    refine ⟨by omega, ⟨labels ++ ['.'], by simp⟩, ?_⟩
    rw [hindex, List.getElem?_append_right le_rfl]
    simp

theorem pathMatches_iff {request path : Str} :
    pathMatches request path = true ↔ PathMatch request path := by
  rw [pathMatches, Bool.or_eq_true, decide_eq_true_eq, PathMatch]
  apply or_congr_right
  simp only [Bool.and_eq_true, Bool.or_eq_true, List.isSuffixOf_iff_suffix, Str.startsWith,
    List.isPrefixOf_iff_prefix, decide_eq_true_eq]
  constructor
  · rintro ⟨⟨rest, rfl⟩, hend⟩
    refine ⟨rest, rfl, hend.imp ?_ ?_⟩
    · rintro ⟨front, rfl⟩
      simp
    · intro hnext
      rw [List.getElem?_append_right le_rfl, Nat.sub_self] at hnext
      rwa [List.head?_eq_getElem?]
  · rintro ⟨rest, rfl, hend⟩
    refine ⟨⟨rest, rfl⟩, hend.imp ?_ ?_⟩
    · intro hlast
      obtain ⟨front, hfront⟩ := List.getLast?_eq_some_iff.mp hlast
      exact ⟨front, hfront.symm⟩
    · intro hnext
      rw [List.getElem?_append_right le_rfl, Nat.sub_self, ← List.head?_eq_getElem?]
      exact hnext

theorem directoryOf_spec {path directory : Str} (h : directoryOf path = some directory) :
    ∃ name, path = directory ++ '/' :: name := by
  rw [directoryOf] at h
  split at h
  next hslash =>
    cases h
    cases hrest : path.reverse.dropWhile (fun c => c ≠ '/') with
    | nil =>
      have hnone := List.dropWhile_eq_nil_iff.mp hrest '/' (List.mem_reverse.mpr hslash)
      simp at hnone
    | cons c rest =>
      have hc : c = '/' := by
        have hhead := List.head?_dropWhile_not (fun c => c ≠ '/') path.reverse
        simp only [hrest, List.head?_cons] at hhead
        simpa using hhead
      refine ⟨(path.reverse.takeWhile fun c => c ≠ '/').reverse, ?_⟩
      have hwhole := congrArg List.reverse
        (List.takeWhile_append_dropWhile (p := fun c : Char => c ≠ '/') (l := path.reverse))
      rw [hrest, hc, List.reverse_reverse] at hwhole
      simpa using hwhole.symm
  next => cases h

/-- The default path of a URL lies above its own path. -/
theorem pathMatch_defaultCookiePath {pathAndQuery : Str}
    (hslash : (beforeQuery pathAndQuery).head? = some '/') :
    PathMatch (beforeQuery pathAndQuery) (defaultCookiePath pathAndQuery) := by
  have hroot : PathMatch (beforeQuery pathAndQuery) "/".toList := by
    right
    obtain ⟨rest, hrest⟩ := List.head?_eq_some_iff.mp hslash
    exact ⟨rest, hrest, .inl rfl⟩
  rw [defaultCookiePath]
  split
  · exact hroot
  · split
    · exact hroot
    next directory hdirectory =>
      split
      · exact hroot
      · obtain ⟨name, hname⟩ := directoryOf_spec hdirectory
        exact .inr ⟨'/' :: name, hname, .inr rfl⟩

/-! ## What the attributes say -/

/-- The attributes of a `Set-Cookie` text. -/
def attributeTexts (assignment : Str) : List Str := (splitPair assignment ";".toList).2.splitOn ';'

def attributeName (text : Str) : Str := trimWhitespace (splitPair text "=".toList).1

def attributeValue (text : Str) : Str := trimWhitespace (splitPair text "=".toList).2

/-- The text has an attribute of this name. -/
def HasAttribute (assignment name : Str) : Prop :=
  ∃ text ∈ attributeTexts assignment, Str.eqIgnoreAsciiCase (attributeName text) name = true

/-- A `Domain` attribute of the text gives this domain. -/
def GivesDomain (assignment domain : Str) : Prop :=
  ∃ text ∈ attributeTexts assignment,
    Str.eqIgnoreAsciiCase (attributeName text) "domain".toList = true ∧
      domain = Str.toAsciiLowercase
        ((Str.stripPrefix (attributeValue text) ".".toList).getD (attributeValue text))

section Attributes

variable {attributes attributes' : CookieAttributes} {defaultPath text : Str} {now : SystemTime}

/-- Only an attribute called `domain` sets the domain, and only one called `path` the path. -/
theorem CookieAttributes.read_cases
    (h : attributes.read defaultPath now text = some attributes') :
    (attributes'.domain = attributes.domain ∧ attributes'.path = attributes.path) ∨
      (Str.eqIgnoreAsciiCase (attributeName text) "domain".toList = true ∧
        attributes'.path = attributes.path ∧
        attributes'.domain = some (Str.toAsciiLowercase
          ((Str.stripPrefix (attributeValue text) ".".toList).getD (attributeValue text)))) ∨
      (Str.eqIgnoreAsciiCase (attributeName text) "path".toList = true ∧
        attributes'.domain = attributes.domain) := by
  rw [CookieAttributes.read] at h
  dsimp only at h
  split at h
  · cases h
    exact .inl ⟨rfl, rfl⟩
  · split at h
    next hname =>
      split at h
      · cases h
      · cases h
        exact .inr (.inl ⟨hname, rfl, rfl⟩)
    next =>
      split at h
      next hname =>
        cases h
        exact .inr (.inr ⟨hname, rfl⟩)
      next =>
        left
        split at h
        · cases h
          exact ⟨rfl, rfl⟩
        · split at h
          · cases h
            exact ⟨rfl, rfl⟩
          · split at h
            · split at h <;> cases h <;> exact ⟨rfl, rfl⟩
            · split at h
              · split at h <;> cases h <;> exact ⟨rfl, rfl⟩
              · split at h <;> cases h <;> exact ⟨rfl, rfl⟩

theorem read_path_foldlM {texts : List Str}
    (h : texts.foldlM (CookieAttributes.read defaultPath now) attributes = some attributes')
    (hnames : ∀ text ∈ texts, Str.eqIgnoreAsciiCase (attributeName text) "path".toList = false) :
    attributes'.path = attributes.path := by
  induction texts generalizing attributes with
  | nil =>
    cases h
    rfl
  | cons text texts ih =>
    rw [List.foldlM_cons] at h
    obtain ⟨middle, hmiddle, hrest⟩ := Option.bind_eq_some_iff.mp h
    rw [ih hrest fun text htext => hnames text (List.mem_cons_of_mem _ htext)]
    rcases CookieAttributes.read_cases hmiddle with ⟨-, hpath⟩ | ⟨-, hpath, -⟩ | ⟨hname, -⟩
    · exact hpath
    · exact hpath
    · rw [hnames text List.mem_cons_self] at hname
      cases hname

theorem read_domain_foldlM {texts : List Str} {domain : Str}
    (h : texts.foldlM (CookieAttributes.read defaultPath now) attributes = some attributes')
    (hdomain : attributes'.domain = some domain) :
    attributes.domain = some domain ∨ ∃ text ∈ texts,
      Str.eqIgnoreAsciiCase (attributeName text) "domain".toList = true ∧
        domain = Str.toAsciiLowercase
          ((Str.stripPrefix (attributeValue text) ".".toList).getD (attributeValue text)) := by
  induction texts generalizing attributes with
  | nil =>
    cases h
    exact .inl hdomain
  | cons text texts ih =>
    rw [List.foldlM_cons] at h
    obtain ⟨middle, hmiddle, hrest⟩ := Option.bind_eq_some_iff.mp h
    rcases ih hrest with hkept | ⟨given, hgiven, hspec⟩
    · rcases CookieAttributes.read_cases hmiddle with ⟨hsame, -⟩ | ⟨hname, -, hvalue⟩ | ⟨-, hsame⟩
      · exact .inl (hsame ▸ hkept)
      · rw [hkept, Option.some.injEq] at hvalue
        exact .inr ⟨text, List.mem_cons_self, hname, hvalue⟩
      · exact .inl (hsame ▸ hkept)
    · exact .inr ⟨given, List.mem_cons_of_mem _ hgiven, hspec⟩

end Attributes

/-! ## Setting and sending -/

/-- The host of a request, as the cookies compare it. -/
def hostOf (url : ParsedUrl) : Str := Str.toAsciiLowercase url.host

/-- What the URL parser promises of the HTTP URLs it accepts: their path starts with a slash,
addresses are shown as addresses, and no other host ends in one. -/
structure UrlRules (urlParse : Str → Option Url) : Prop where
  path : ∀ {input url parsed}, urlParse input = some url → ParsedUrl.ofUrl url = some parsed →
    url.path.head? = some '/'
  address : ∀ {input url parsed host}, urlParse input = some url →
    ParsedUrl.ofUrl url = some parsed → url.host = some (.Ipv4 host) ∨ url.host = some (.Ipv6 host) →
      isIpAddr (Str.toAsciiLowercase host) = true
  domain : ∀ {input url parsed host address}, urlParse input = some url →
    ParsedUrl.ofUrl url = some parsed → url.host = some (.Domain host) → isIpAddr address = true →
      ¬ Subdomain (Str.toAsciiLowercase host) address

section Scope

variable {urlParse : Str → Option Url} {suffixes : SuffixList} {input assignment : Str}
  {url : ParsedUrl} {fromHttp expired : Bool} {now : SystemTime} {cookie : StoredCookie}

/-- An accepted URL comes from one of the URL parser. -/
theorem parse_ofUrl (h : ParsedUrl.parse urlParse input = some url) :
    ∃ parsed, urlParse (Str.trim input) = some parsed ∧ ParsedUrl.ofUrl parsed = some url := by
  rw [ParsedUrl.parse] at h
  split at h
  · cases h
  · split at h
    · cases h
    next accepted haccepted =>
      split at h
      · cases h
      · rw [← Option.some.inj h]
        exact Option.bind_eq_some_iff.mp haccepted

theorem ofUrl_spec {parsed : Url} (h : ParsedUrl.ofUrl parsed = some url) :
    url.pathAndQuery = parsed.path ++ parsed.query.elim [] ('?' :: ·) ∧
      ∃ host, parsed.host = some host ∧ url.host = host.text := by
  rw [ParsedUrl.ofUrl] at h
  split at h
  · cases h
  · split at h
    · cases h
    · split at h
      next host port hhost hport =>
        cases h
        exact ⟨rfl, host, hhost, rfl⟩
      · cases h

/-- The path of an accepted URL starts with a slash. -/
theorem UrlRules.slash (hrules : UrlRules urlParse) (h : ParsedUrl.parse urlParse input = some url) :
    (beforeQuery url.pathAndQuery).head? = some '/' := by
  obtain ⟨parsed, hparsed, hurl⟩ := parse_ofUrl h
  obtain ⟨rest, hrest⟩ := List.head?_eq_some_iff.mp (hrules.path hparsed hurl)
  rw [(ofUrl_spec hurl).1, hrest, beforeQuery, List.cons_append, List.takeWhile_cons]
  rfl

/-- Below an address there is no host. -/
theorem UrlRules.not_subdomain (hrules : UrlRules urlParse)
    (h : ParsedUrl.parse urlParse input = some url) {address : Str}
    (haddress : isIpAddr address = true) (hhost : isIpAddr (hostOf url) = false) :
    ¬ Subdomain (hostOf url) address := by
  obtain ⟨parsed, hparsed, hurl⟩ := parse_ofUrl h
  obtain ⟨host, hsome, htext⟩ := (ofUrl_spec hurl).2
  rw [hostOf, htext] at hhost ⊢
  cases host with
  | Domain host => exact hrules.domain hparsed hurl hsome haddress
  | Ipv4 host =>
    have htrue := hrules.address hparsed hurl (.inl hsome)
    exact absurd (hhost.symm.trans htrue) Bool.false_ne_true
  | Ipv6 host =>
    have htrue := hrules.address hparsed hurl (.inr hsome)
    exact absurd (hhost.symm.trans htrue) Bool.false_ne_true

/-- The two ways a cookie gets its domain. -/
theorem applyDomainAttribute_cases {host domain : Str} {given : Option Str} {hostOnly : Bool}
    (h : applyDomainAttribute suffixes host given = some (domain, hostOnly)) :
    (domain = host ∧ hostOnly = true) ∨
      (given = some domain ∧ hostOnly = false ∧ suffixes.publicSuffix domain = false ∧
        domainMatches host domain = true) := by
  cases given with
  | none =>
    cases h
    exact .inl ⟨rfl, rfl⟩
  | some text =>
    rw [applyDomainAttribute.eq_def] at h
    dsimp only at h
    split at h
    next hsuffix =>
      split at h
      · cases h
      · cases h
        exact .inl ⟨rfl, rfl⟩
    next hsuffix =>
      split at h
      · cases h
        exact .inl ⟨rfl, rfl⟩
      · split at h
        next hmatches =>
          cases h
          exact .inr ⟨rfl, rfl, (Bool.not_eq_true _).mp hsuffix, hmatches⟩
        next => cases h

/-- What a match at sending time says. -/
theorem cookieMatches_iff :
    cookieMatches suffixes cookie url = true ↔
      (cookie.secure = true → isSecureUrl url = true) ∧
        (cookie.hostOnly = true → hostOf url = cookie.domain) ∧
        (cookie.hostOnly = false → suffixes.publicSuffix cookie.domain = false ∧
          domainMatches (hostOf url) cookie.domain = true) ∧
        PathMatch (beforeQuery url.pathAndQuery) cookie.path := by
  rw [cookieMatches, ← pathMatches_iff, hostOf]
  cases cookie.secure <;> cases cookie.hostOnly <;> cases isSecureUrl url <;>
    cases suffixes.publicSuffix cookie.domain <;>
    simp

/-- The URL that set a cookie gets it back exactly below the cookie's path. -/
theorem Accepted.matches_iff {attributes : CookieAttributes}
    (h : Accepted suffixes url assignment fromHttp now cookie attributes) :
    cookieMatches suffixes cookie url = true ↔
      PathMatch (beforeQuery url.pathAndQuery) cookie.path := by
  rw [cookieMatches_iff]
  constructor
  · rintro ⟨-, -, -, hpath⟩
    exact hpath
  · intro hpath
    refine ⟨h.secure, ?_, ?_, hpath⟩
    · intro hhostOnly
      rcases applyDomainAttribute_cases h.domain with ⟨hdomain, -⟩ | ⟨-, hdomain, -⟩
      · exact hdomain.symm
      · exact absurd (hdomain.symm.trans hhostOnly) Bool.false_ne_true
    · intro hdomain
      rcases applyDomainAttribute_cases h.domain with ⟨-, hhostOnly⟩ | ⟨-, -, hsuffix, hmatches⟩
      · exact absurd (hdomain.symm.trans hhostOnly) Bool.false_ne_true
      · exact ⟨hsuffix, hmatches⟩

/-- Without a `Path` attribute the cookie has the default path. -/
theorem Accepted.path_default {attributes : CookieAttributes}
    (h : Accepted suffixes url assignment fromHttp now cookie attributes)
    (hnone : ¬ HasAttribute assignment "path".toList) :
    cookie.path = defaultCookiePath url.pathAndQuery := by
  have hpath : attributes.path = none := by
    apply read_path_foldlM h.read
    intro text htext
    rw [Bool.eq_false_iff]
    intro hname
    exact hnone ⟨text, htext, hname⟩
  rw [h.path, hpath]
  rfl

/-- Another host gets a cookie through a `Domain` attribute only, and then neither host is an
address. -/
theorem Accepted.shared {attributes : CookieAttributes} {input' : Str} {url' : ParsedUrl}
    (hrules : UrlRules urlParse) (hurl : ParsedUrl.parse urlParse input = some url)
    (h : Accepted suffixes url assignment fromHttp now cookie attributes)
    (hurl' : ParsedUrl.parse urlParse input' = some url')
    (hmatch : cookieMatches suffixes cookie url' = true) (hhost : hostOf url' ≠ hostOf url) :
    ∃ domain, GivesDomain assignment domain ∧ suffixes.publicSuffix domain = false ∧
      ∀ host ∈ [hostOf url, hostOf url'],
        (host = domain ∨ Subdomain host domain) ∧ isIpAddr host = false := by
  obtain ⟨-, honly, hgeneral, -⟩ := cookieMatches_iff.mp hmatch
  rcases applyDomainAttribute_cases h.domain with ⟨hdomain, hhostOnly⟩ | ⟨hgiven, hhostOnly, hsuffix, hset⟩
  · exact absurd ((honly hhostOnly).trans hdomain) hhost
  · have hattribute : GivesDomain assignment cookie.domain := by
      rcases read_domain_foldlM h.read hgiven with hstart | hfound
      · cases hstart
      · exact hfound
    refine ⟨cookie.domain, hattribute, hsuffix, ?_⟩
    have hsent := domainMatches_iff.mp (hgeneral hhostOnly).2
    -- a host that is the domain itself is no address, as the other one lies below it
    rcases domainMatches_iff.mp hset with heq | ⟨hname, hbelow⟩
    · rcases hsent with heq' | ⟨hname', hbelow'⟩
      · exact absurd (heq'.trans heq.symm) hhost
      · have hname : isIpAddr (hostOf url) = false := by
          rw [Bool.eq_false_iff]
          intro haddress
          rw [hostOf, heq] at haddress
          exact hrules.not_subdomain hurl' haddress hname' hbelow'
        simp only [List.forall_mem_cons, List.not_mem_nil, false_implies, implies_true, and_true]
        exact ⟨⟨.inl heq, hname⟩, .inr hbelow', hname'⟩
    · simp only [List.forall_mem_cons, List.not_mem_nil, false_implies, implies_true, and_true]
      refine ⟨⟨.inr hbelow, hname⟩, ?_⟩
      rcases hsent with heq' | ⟨hname', hbelow'⟩
      · refine ⟨.inl heq', ?_⟩
        rw [Bool.eq_false_iff]
        intro haddress
        rw [heq'] at haddress
        exact hrules.not_subdomain hurl haddress hname hbelow
      · exact ⟨.inr hbelow', hname'⟩

theorem cookie_scope (hrules : UrlRules urlParse) (hurl : ParsedUrl.parse urlParse input = some url)
    (hset : parseCookieInternal suffixes url assignment fromHttp now = some (cookie, expired)) :
    (cookieMatches suffixes cookie url = true ↔
        PathMatch (beforeQuery url.pathAndQuery) cookie.path) ∧
      (¬ HasAttribute assignment "path".toList → cookieMatches suffixes cookie url = true) ∧
      ∀ input' url', ParsedUrl.parse urlParse input' = some url' →
        cookieMatches suffixes cookie url' = true →
          (hostOf url' = hostOf url ∨
            ∃ domain, GivesDomain assignment domain ∧ suffixes.publicSuffix domain = false ∧
              ∀ host ∈ [hostOf url, hostOf url'],
                (host = domain ∨ Subdomain host domain) ∧ isIpAddr host = false) ∧
          (cookie.secure = true → isSecureUrl url' = true) := by
  obtain ⟨-, attributes, haccepted⟩ := parseCookieInternal_accepted hset
  refine ⟨haccepted.matches_iff, ?_, ?_⟩
  · intro hnone
    rw [haccepted.matches_iff, haccepted.path_default hnone]
    exact pathMatch_defaultCookiePath (hrules.slash hurl)
  · intro input' url' hurl' hmatch
    refine ⟨?_, (cookieMatches_iff.mp hmatch).1⟩
    by_cases hhost : hostOf url' = hostOf url
    · exact .inl hhost
    · exact .inr (haccepted.shared hrules hurl hurl' hmatch hhost)

end Scope

/-! Two hosts of one domain. -/

private def sampleUrl (host path : Str) : Url :=
  ⟨"https".toList, [], none, some (.Domain host), some 443, path, none,
    "https://".toList ++ host ++ path⟩

private def sampleParse (input : Str) : Option Url :=
  if input = "https://www.example.com/a/b".toList then
    some (sampleUrl "www.example.com".toList "/a/b".toList)
  else if input = "https://example.com/a/c".toList then
    some (sampleUrl "example.com".toList "/a/c".toList)
  else none

private theorem sampleParse_cases {input : Str} {url : Url} (h : sampleParse input = some url) :
    url = sampleUrl "www.example.com".toList "/a/b".toList ∨
      url = sampleUrl "example.com".toList "/a/c".toList := by
  rw [sampleParse] at h
  split at h
  · exact .inl (Option.some.inj h).symm
  · split at h
    · exact .inr (Option.some.inj h).symm
    · cases h

private theorem sampleParse_rules : UrlRules sampleParse where
  path := by
    intro input url parsed h _
    rcases sampleParse_cases h with rfl | rfl <;> rfl
  address := by
    intro input url parsed host h _ haddress
    rcases sampleParse_cases h with rfl | rfl <;> simp [sampleUrl] at haddress
  domain := by
    intro input url parsed host address h _ hhost haddress hbelow
    obtain ⟨dropped, hdropped, rfl⟩ := hbelow.eq_drop
    clear hbelow
    rcases sampleParse_cases h with rfl | rfl
    · cases hhost
      revert dropped
      decide +kernel
    · cases hhost
      revert dropped
      decide +kernel

private def sampleSuffixes : SuffixList where
  publicSuffix := fun domain => domain = "com".toList
  registrableDomain := fun _ => some "example.com".toList

/-- A cookie of the domain goes to both hosts. -/
theorem cookie_scope_sample :
    ∃ url url' cookie, ParsedUrl.parse sampleParse "https://www.example.com/a/b".toList = some url ∧
      ParsedUrl.parse sampleParse "https://example.com/a/c".toList = some url' ∧
      parseCookieInternal sampleSuffixes url "n=v; Domain=.Example.com; Secure".toList true 0 =
        some (cookie, false) ∧
      cookieMatches sampleSuffixes cookie url = true ∧
      (hostOf url' = hostOf url ∨
        ∃ domain, GivesDomain "n=v; Domain=.Example.com; Secure".toList domain ∧
          sampleSuffixes.publicSuffix domain = false ∧
          ∀ host ∈ [hostOf url, hostOf url'],
            (host = domain ∨ Subdomain host domain) ∧ isIpAddr host = false) := by
  have hurl : ParsedUrl.parse sampleParse "https://www.example.com/a/b".toList =
      some ⟨"https".toList, "www.example.com".toList, 443, "/a/b".toList⟩ := by decide +kernel
  have hurl' : ParsedUrl.parse sampleParse "https://example.com/a/c".toList =
      some ⟨"https".toList, "example.com".toList, 443, "/a/c".toList⟩ := by decide +kernel
  have hset : parseCookieInternal sampleSuffixes
      ⟨"https".toList, "www.example.com".toList, 443, "/a/b".toList⟩
      "n=v; Domain=.Example.com; Secure".toList true 0 =
        some (⟨"n".toList, "v".toList, "example.com".toList, "/a".toList, true, false, false,
          .Default, none, 0⟩, false) := by decide +kernel
  have hscope := cookie_scope sampleParse_rules hurl hset
  refine ⟨_, _, _, hurl, hurl', hset, ?_, ?_⟩
  · rw [hscope.1]
    exact .inr ⟨"/b".toList, rfl, .inr rfl⟩
  · exact (hscope.2.2 _ _ hurl' (by decide +kernel)).1

end BetterWebBrowser.Cookies
