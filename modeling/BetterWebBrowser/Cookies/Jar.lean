import BetterWebBrowser.Framework.Transition
import BetterWebBrowser.Cookies.Store

/-!
# What storing a cookie does to the jar

The three outcomes of storing a cookie and the invariants of the jar that all of them keep.
-/

namespace BetterWebBrowser.Cookies

open Framework Navigation

theorem SameCookie.refl (cookie : StoredCookie) : SameCookie cookie cookie := ⟨rfl, rfl, rfl, rfl⟩

theorem SameCookie.symm {first second : StoredCookie} (h : SameCookie first second) :
    SameCookie second first := ⟨h.1.symm, h.2.1.symm, h.2.2.1.symm, h.2.2.2.symm⟩

theorem SameCookie.trans {first second third : StoredCookie} (h : SameCookie first second)
    (h' : SameCookie second third) : SameCookie first third :=
  ⟨h.1.trans h'.1, h.2.1.trans h'.2.1, h.2.2.1.trans h'.2.2.1, h.2.2.2.trans h'.2.2.2⟩

/-! ## Eviction -/

section Eviction

variable (cookies : List StoredCookie) (predicate : StoredCookie → Bool)

theorem removeOldest_sublist : (removeOldest cookies predicate).Sublist cookies := by
  rw [removeOldest]
  split
  · exact .refl _
  · exact List.erase_sublist

theorem countP_removeOldest_lt (h : 0 < cookies.countP predicate) :
    (removeOldest cookies predicate).countP predicate < cookies.countP predicate := by
  rw [removeOldest]
  split
  next hnone =>
    rw [List.argmin_eq_none] at hnone
    rw [List.countP_eq_length_filter, hnone] at h
    cases h
  next oldest hsome =>
    have holdest := List.mem_filter.mp (List.argmin_mem hsome)
    have hperm := (List.perm_cons_erase holdest.1).countP_eq predicate
    rw [List.countP_cons_of_pos holdest.2] at hperm
    omega

theorem evictForDomainLimit_sublist (domain : Str) :
    (evictForDomainLimit cookies domain).Sublist cookies := by
  rw [evictForDomainLimit]
  split
  · exact removeOldest_sublist _ _
  · exact .refl _

theorem evictForLimit_sublist : (evictForLimit cookies).Sublist cookies := by
  rw [evictForLimit]
  split
  · exact removeOldest_sublist _ _
  · exact .refl _

variable {cookies}

theorem countP_evictForDomainLimit_lt {domain : Str}
    (h : cookies.countP (fun cookie => cookie.domain = domain) ≤ MAX_COOKIES_PER_DOMAIN) :
    (evictForDomainLimit cookies domain).countP (fun cookie => cookie.domain = domain) <
      MAX_COOKIES_PER_DOMAIN := by
  rw [evictForDomainLimit]
  split
  next hfull =>
    have hpositive : 0 < cookies.countP fun cookie => cookie.domain = domain := by
      have hlimit : 0 < MAX_COOKIES_PER_DOMAIN := by decide
      omega
    have hless := countP_removeOldest_lt cookies _ hpositive
    omega
  next hroom => omega

theorem length_evictForLimit_lt (h : cookies.length ≤ MAX_COOKIES) :
    (evictForLimit cookies).length < MAX_COOKIES := by
  rw [evictForLimit]
  split
  next hfull =>
    have hcount : ∀ list : List StoredCookie, list.countP (fun _ => true) = list.length := by
      intro list
      simp
    have hpositive : 0 < cookies.countP fun _ => true := by
      have hlimit : 0 < MAX_COOKIES := by decide
      rw [hcount]
      omega
    have hless := countP_removeOldest_lt cookies _ hpositive
    rw [hcount, hcount] at hless
    omega
  next hroom => omega

end Eviction

/-! ## Outcomes -/

namespace CookieState

variable {state state' : CookieState} {cookie : StoredCookie}
  {expired fromHttp sourceSecure changed : Bool} {now : SystemTime}

theorem mem_live : cookie ∈ state.live now ↔ cookie ∈ state.cookies ∧ cookie.isExpired now = false := by
  simp [live]

@[simp] theorem purgeExpired_cookies (state : CookieState) (now : SystemTime) :
    (state.purgeExpired now).1.cookies = state.live now := by
  rw [purgeExpired]
  dsimp only
  split <;> rfl

@[simp] theorem purgeExpired_nextCreation (state : CookieState) (now : SystemTime) :
    (state.purgeExpired now).1.nextCreation = state.nextCreation := by
  rw [purgeExpired]
  dsimp only
  split <;> rfl

/-- What is left of the other cookies when one is stored. -/
structure Kept (others : List StoredCookie) (domain : Str) (kept : List StoredCookie) : Prop where
  sublist : kept.Sublist others
  domain_room : others.countP (fun cookie => cookie.domain = domain) ≤ MAX_COOKIES_PER_DOMAIN →
    kept.countP (fun cookie => cookie.domain = domain) < MAX_COOKIES_PER_DOMAIN
  room : others.length ≤ MAX_COOKIES → kept.length < MAX_COOKIES

private theorem kept_evict (others : List StoredCookie) (domain : Str) :
    Kept others domain (evictForLimit (evictForDomainLimit others domain)) where
  sublist := (evictForLimit_sublist _).trans (evictForDomainLimit_sublist _ _)
  domain_room h := by
    have hbefore := countP_evictForDomainLimit_lt h
    have hafter := (evictForLimit_sublist (evictForDomainLimit others domain)).countP_le
      (p := fun cookie => cookie.domain = domain)
    omega
  room h := by
    apply length_evictForLimit_lt
    exact ((evictForDomainLimit_sublist others domain).length_le).trans h

/-- The cookies of other identities that have not expired. -/
def others (state : CookieState) (cookie : StoredCookie) (now : SystemTime) : List StoredCookie :=
  (state.live now).filter fun stored => !decide (SameCookie stored cookie)

/-- What storing a cookie can do. -/
inductive Outcome (state : CookieState) (cookie : StoredCookie) (expired fromHttp sourceSecure : Bool)
    (now : SystemTime) (state' : CookieState) : Prop
  | refused (hcookies : state'.cookies = state.live now)
      (hnext : state'.nextCreation = state.nextCreation)
  | removed (hexpired : expired = true) (hcookies : state'.cookies = state.others cookie now)
      (hnext : state'.nextCreation = state.nextCreation ∨
        state'.nextCreation = nextNumber state.nextCreation)
  | stored {kept : List StoredCookie} {creation : Nat} (hexpired : expired = false)
      (hhttp : fromHttp = false → ∀ stored ∈ state.live now, SameCookie stored cookie →
        stored.httpOnly = false)
      (hsecure : cookie.secure = false → sourceSecure = false →
        ∀ stored ∈ state.live now, shadows cookie stored = false)
      (hcookies : state'.cookies = kept ++ [{ cookie with creation := creation }])
      (hkept : Kept (state.others cookie now) cookie.domain kept)
      (hcreation : (∃ stored ∈ state.live now, SameCookie stored cookie ∧
          stored.creation = creation ∧ state'.nextCreation = state.nextCreation) ∨
        ((∀ stored ∈ state.live now, ¬ SameCookie stored cookie) ∧ creation = state.nextCreation ∧
          state'.nextCreation = nextNumber state.nextCreation))

private theorem creationFor_spec (state : CookieState) (cookie : StoredCookie) :
    (state.creationFor cookie).2.cookies = state.cookies ∧
      ((∃ stored ∈ state.cookies, SameCookie stored cookie ∧
          stored.creation = (state.creationFor cookie).1 ∧
          (state.creationFor cookie).2.nextCreation = state.nextCreation) ∨
        ((∀ stored ∈ state.cookies, ¬ SameCookie stored cookie) ∧
          (state.creationFor cookie).1 = state.nextCreation ∧
          (state.creationFor cookie).2.nextCreation = nextNumber state.nextCreation)) := by
  rw [creationFor]
  cases hfind : state.cookies.find? fun stored => SameCookie stored cookie with
  | none =>
    rw [List.find?_eq_none] at hfind
    refine ⟨rfl, .inr ⟨?_, rfl, rfl⟩⟩
    intro stored hstored hsame
    exact hfind stored hstored (decide_eq_true hsame)
  | some stored =>
    have hsame := List.find?_some hfind
    exact ⟨rfl, .inl ⟨stored, List.mem_of_find?_eq_some hfind, of_decide_eq_true hsame, rfl, rfl⟩⟩

theorem storeCookie_outcome (state : CookieState) (cookie : StoredCookie)
    (expired fromHttp sourceSecure : Bool) (now : SystemTime) :
    Outcome state cookie expired fromHttp sourceSecure now
      (state.storeCookie cookie expired fromHttp sourceSecure now).1 := by
  have hlive := state.purgeExpired_cookies now
  have hnext := state.purgeExpired_nextCreation now
  rw [storeCookie]
  generalize state.purgeExpired now = purged at hlive hnext
  obtain ⟨purged, changed⟩ := purged
  dsimp only at hlive hnext ⊢
  split
  next => exact .refused hlive hnext
  next haccepted =>
    rw [Bool.not_eq_true, Bool.or_eq_false_iff] at haccepted
    obtain ⟨hhttp, hsecure⟩ := haccepted
    obtain ⟨hcookies, hcreation⟩ := purged.creationFor_spec cookie
    rw [hlive] at hcookies
    rw [hlive, hnext] at hcreation
    have hsame : ∀ moved : CookieState, (if changed then moved.advanceVersion else moved).cookies =
        moved.cookies ∧ (if changed then moved.advanceVersion else moved).nextCreation =
        moved.nextCreation := by
      intro moved
      split <;> exact ⟨rfl, rfl⟩
    rw [place]
    generalize purged.creationFor cookie = numbered at hcookies hcreation
    obtain ⟨creation, numbered⟩ := numbered
    dsimp only at hcookies hcreation ⊢
    cases hexpired : expired with
    | true =>
      apply Outcome.removed rfl
      · simp only [if_true]
        split <;> simp [advanceVersion, others, hcookies]
      · simp only [if_true]
        rcases hcreation with ⟨-, -, -, -, hsameNext⟩ | ⟨-, -, hnewNext⟩
        · left
          split <;> exact hsameNext
        · right
          split <;> exact hnewNext
    | false =>
      have hkept := kept_evict (state.others cookie now) cookie.domain
      refine Outcome.stored rfl ?_ ?_ ?_ hkept (by simpa [advanceVersion] using hcreation)
      · rintro rfl stored hstored hidentity
        cases hflag : stored.httpOnly with
        | false => rfl
        | true =>
          have hany : purged.cookies.any (fun stored => decide (SameCookie stored cookie) &&
              stored.httpOnly) = true := by
            rw [List.any_eq_true, hlive]
            exact ⟨stored, hstored, by rw [decide_eq_true hidentity, hflag]; rfl⟩
          rw [rejectsHttpOnlyOverwrite, hany] at hhttp
          cases hhttp
      · intro hinsecure hsource stored hstored
        cases hshadow : shadows cookie stored with
        | false => rfl
        | true =>
          have hany : purged.cookies.any (shadows cookie) = true := by
            rw [List.any_eq_true, hlive]
            exact ⟨stored, hstored, hshadow⟩
          rw [rejectsInsecureOverlay, hany, hinsecure, hsource] at hsecure
          cases hsecure
      · simp [advanceVersion, others, hcookies]

end CookieState

/-! ## Calls -/

/-- A call with the times it reads and what becomes of the file. -/
inductive CookieCall
  | storeResponseCookie (request : FetchRequest) (setCookie : Str) (parsedAt storedAt : SystemTime)
      (persist : CookieState → Except Str Unit)
  | setDocumentCookie (documentUrl assignment : Str) (parsedAt storedAt : SystemTime)
      (persist : CookieState → Except Str Unit)
  | requestHeader (request : FetchRequest) (now : SystemTime)
      (persist : CookieState → Except Str Unit)
  | documentSnapshot (documentUrl : Str) (now : SystemTime)
      (persist : CookieState → Except Str Unit)

/-- The clock of the parser. -/
def CookieCall.parsedAt : CookieCall → SystemTime
  | .storeResponseCookie _ _ parsedAt _ _ => parsedAt
  | .setDocumentCookie _ _ parsedAt _ _ => parsedAt
  | .requestHeader _ now _ => now
  | .documentSnapshot _ now _ => now

namespace CookieHost

variable (host : CookieHost)

/-- The jar after a call. -/
def call (state : CookieState) : CookieCall → CookieState
  | .storeResponseCookie request setCookie parsedAt storedAt persist =>
    (host.storeResponseCookie persist state request setCookie parsedAt storedAt).2
  | .setDocumentCookie documentUrl assignment parsedAt storedAt persist =>
    (host.setDocumentCookie persist state documentUrl assignment parsedAt storedAt).2
  | .requestHeader request now persist => (host.requestHeader persist state request now).2
  | .documentSnapshot documentUrl now persist =>
    (host.documentSnapshot persist state documentUrl now).2

/-- The cookie that a call tries to store, with the URL that it comes from. -/
def assigned (call : CookieCall) : Option (ParsedUrl × StoredCookie × Bool × Bool × SystemTime) :=
  match call with
  | .storeResponseCookie request setCookie parsedAt storedAt _ => do
    let parsed ← request.url
    let (cookie, expired) ← parseCookieInternal host.suffixes parsed setCookie true parsedAt
    if sameSiteAllowsSetting host.suffixes host.urlParse cookie request then
      some (parsed, cookie, expired, true, storedAt)
    else none
  | .setDocumentCookie documentUrl assignment parsedAt storedAt _ => do
    let parsed ← ParsedUrl.parse host.urlParse documentUrl
    let (cookie, expired) ← parseCookieInternal host.suffixes parsed assignment false parsedAt
    some (parsed, cookie, expired, false, storedAt)
  | _ => none

theorem assigned_parsed {host : CookieHost} {call : CookieCall} {parsed : ParsedUrl}
    {cookie : StoredCookie} {expired fromHttp : Bool} {now : SystemTime}
    (h : host.assigned call = some (parsed, cookie, expired, fromHttp, now)) :
    ∃ text, parseCookieInternal host.suffixes parsed text fromHttp call.parsedAt =
      some (cookie, expired) := by
  cases call with
  | storeResponseCookie request setCookie parsedAt storedAt persist =>
    simp only [assigned, Option.bind_eq_bind, Option.bind_eq_some_iff] at h
    obtain ⟨url, -, ⟨found, late⟩, hparse, hsite⟩ := h
    split at hsite
    · cases hsite
      exact ⟨_, hparse⟩
    · cases hsite
  | setDocumentCookie documentUrl assignment parsedAt storedAt persist =>
    simp only [assigned, Option.bind_eq_bind, Option.bind_eq_some_iff] at h
    obtain ⟨url, -, ⟨found, late⟩, hparse, hsome⟩ := h
    cases hsome
    exact ⟨_, hparse⟩
  | requestHeader request now persist => cases h
  | documentSnapshot documentUrl now persist => cases h

@[simp] theorem finish_state {α : Type} (persist : CookieState → Except Str Unit) (result : α)
    (state : CookieState) (changed : Bool) : (finish persist result state changed).2 = state := by
  rw [finish]
  split
  · split <;> rfl
  · rfl

/-- A call stores a cookie, drops what has expired or does nothing. -/
theorem call_cases (state : CookieState) (call : CookieCall) :
    (∃ parsed cookie expired fromHttp now,
      host.assigned call = some (parsed, cookie, expired, fromHttp, now) ∧
        host.call state call =
          (state.storeCookie cookie expired fromHttp (isSecureUrl parsed) now).1) ∨
      (host.assigned call = none ∧
        (host.call state call = state ∨ ∃ now, host.call state call = (state.purgeExpired now).1)) := by
  cases call with
  | storeResponseCookie request setCookie parsedAt storedAt persist =>
    rw [CookieHost.call, storeResponseCookie, assigned]
    cases hurl : request.url with
    | none => exact .inr ⟨rfl, .inl rfl⟩
    | some parsed =>
      cases hparse : parseCookieInternal host.suffixes parsed setCookie true parsedAt with
      | none => exact .inr ⟨by simp [hparse], .inl (by simp only [hparse])⟩
      | some found =>
        obtain ⟨cookie, expired⟩ := found
        simp only [hparse, Option.bind_eq_bind, Option.bind_some]
        cases hsite : sameSiteAllowsSetting host.suffixes host.urlParse cookie request with
        | false => exact .inr ⟨by simp, .inl (by simp)⟩
        | true => exact .inl ⟨parsed, cookie, expired, true, storedAt, by simp, by simp⟩
  | setDocumentCookie documentUrl assignment parsedAt storedAt persist =>
    rw [CookieHost.call, setDocumentCookie, assigned]
    cases hurl : ParsedUrl.parse host.urlParse documentUrl with
    | none => exact .inr ⟨rfl, .inl rfl⟩
    | some parsed =>
      cases hparse : parseCookieInternal host.suffixes parsed assignment false parsedAt with
      | none => exact .inr ⟨by simp [hparse], .inl (by simp only [hparse])⟩
      | some found =>
        obtain ⟨cookie, expired⟩ := found
        simp only [hparse, Option.bind_eq_bind, Option.bind_some]
        exact .inl ⟨parsed, cookie, expired, false, storedAt, rfl, by simp⟩
  | requestHeader request now persist =>
    rw [CookieHost.call, requestHeader]
    cases hurl : request.url with
    | none => exact .inr ⟨rfl, .inl rfl⟩
    | some parsed => exact .inr ⟨rfl, .inr ⟨now, by simp⟩⟩
  | documentSnapshot documentUrl now persist =>
    rw [CookieHost.call, documentSnapshot]
    cases hurl : ParsedUrl.parse host.urlParse documentUrl with
    | none => exact .inr ⟨rfl, .inl rfl⟩
    | some parsed => exact .inr ⟨rfl, .inr ⟨now, by simp⟩⟩

theorem call_of_assigned {state : CookieState} {call : CookieCall} {parsed : ParsedUrl}
    {cookie : StoredCookie} {expired fromHttp : Bool} {now : SystemTime}
    (h : host.assigned call = some (parsed, cookie, expired, fromHttp, now)) :
    host.call state call =
      (state.storeCookie cookie expired fromHttp (isSecureUrl parsed) now).1 := by
  obtain ⟨parsed', cookie', expired', fromHttp', now', hsome, hcall⟩ | ⟨hnone, -⟩ :=
    host.call_cases state call
  · rw [h] at hsome
    cases hsome
    exact hcall
  · rw [h] at hnone
    cases hnone

end CookieHost

end BetterWebBrowser.Cookies
