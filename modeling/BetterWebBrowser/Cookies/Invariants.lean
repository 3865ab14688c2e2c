import BetterWebBrowser.Cookies.Jar
import Mathlib.Data.List.Pairwise
import Mathlib.Logic.Function.Iterate

/-!
# Invariants of the jar over runs

Identities, creation numbers and limits hold after every call, and the version tells jars
apart as long as the counter has not gone round.
-/

namespace BetterWebBrowser.Cookies

open Framework Navigation

/-! ## Counters -/

theorem nextNumber_lt (number : Nat) : nextNumber number < 2 ^ 64 := by
  rw [nextNumber]
  split
  · assumption
  · decide

theorem nextNumber_pos (number : Nat) : 0 < nextNumber number := by
  rw [nextNumber]
  split <;> omega

/-- The counter after any number of steps. -/
theorem iterate_nextNumber {number : Nat} (hpos : 0 < number) (hlt : number < 2 ^ 64) (steps : Nat) :
    nextNumber^[steps] number = (number - 1 + steps) % (2 ^ 64 - 1) + 1 := by
  induction steps with
  | zero =>
    rw [Function.iterate_zero_apply, Nat.add_zero, Nat.mod_eq_of_lt (by omega)]
    omega
  | succ steps ih =>
    rw [Function.iterate_succ_apply', ih, nextNumber, ← Nat.add_assoc]
    split
    next hroom => omega
    next hfull => omega

/-- Fewer steps than the counter has values lead elsewhere. -/
theorem iterate_nextNumber_ne {number steps : Nat} (hpos : 0 < number) (hlt : number < 2 ^ 64)
    (hsteps : 0 < steps) (hfew : steps < 2 ^ 64 - 1) : nextNumber^[steps] number ≠ number := by
  rw [iterate_nextNumber hpos hlt]
  intro hsame
  by_cases hwrap : number - 1 + steps < 2 ^ 64 - 1
  · rw [Nat.mod_eq_of_lt hwrap] at hsame
    omega
  · rw [Nat.mod_eq_sub_mod (by omega), Nat.mod_eq_of_lt (by omega)] at hsame
    omega

/-! ## One call -/

namespace CookieState

variable {state state' : CookieState} {cookie : StoredCookie}
  {expired fromHttp sourceSecure : Bool} {now : SystemTime}

/-- The invariants of the jar. -/
structure Valid (state : CookieState) : Prop where
  identities : state.cookies.Pairwise fun first second => ¬ SameCookie first second
  creations : (state.cookies.map StoredCookie.creation).Nodup
  perDomain : ∀ domain, state.cookies.countP (fun cookie => cookie.domain = domain) ≤
    MAX_COOKIES_PER_DOMAIN
  total : state.cookies.length ≤ MAX_COOKIES

/-- Creation numbers below the bound are used up; the counter stands at the bound. -/
def UsedBelow (state : CookieState) (bound : Nat) : Prop :=
  (∀ cookie ∈ state.cookies, cookie.creation < bound) ∧
    (bound < 2 ^ 64 → state.nextCreation = bound)

theorem Valid.sublist (h : state.Valid) (hsub : state'.cookies.Sublist state.cookies) :
    state'.Valid where
  identities := h.identities.sublist hsub
  creations := h.creations.sublist (hsub.map _)
  perDomain domain := (hsub.countP_le).trans (h.perDomain domain)
  total := hsub.length_le.trans h.total

theorem live_sublist (state : CookieState) (now : SystemTime) :
    (state.live now).Sublist state.cookies := List.filter_sublist

theorem others_sublist (state : CookieState) (cookie : StoredCookie) (now : SystemTime) :
    (state.others cookie now).Sublist (state.live now) := List.filter_sublist

theorem mem_others {stored : StoredCookie} :
    stored ∈ state.others cookie now ↔ stored ∈ state.live now ∧ ¬ SameCookie stored cookie := by
  simp [others]

/-- Cookies of one identity are one cookie. -/
theorem Valid.eq_of_same (h : state.Valid) {first second : StoredCookie}
    (hfirst : first ∈ state.cookies) (hsecond : second ∈ state.cookies)
    (hsame : SameCookie first second) : first = second := by
  by_contra hne
  have hsymm : Std.Symm fun first second : StoredCookie => ¬ SameCookie first second :=
    ⟨fun _ _ hnot hsame => hnot hsame.symm⟩
  exact h.identities.forall hfirst hsecond hne hsame

theorem Valid.eq_of_creation (h : state.Valid) {first second : StoredCookie}
    (hfirst : first ∈ state.cookies) (hsecond : second ∈ state.cookies)
    (hsame : first.creation = second.creation) : first = second :=
  List.inj_on_of_nodup_map h.creations hfirst hsecond hsame

/-- Appending the new cookie keeps the invariants. -/
private theorem Valid.append (h : state.Valid) {kept : List StoredCookie} {stored : StoredCookie}
    (hsub : kept.Sublist state.cookies) (hcookies : state'.cookies = kept ++ [stored])
    (hidentity : ∀ other ∈ kept, ¬ SameCookie other stored)
    (hcreation : ∀ other ∈ kept, other.creation ≠ stored.creation)
    (hdomain : kept.countP (fun cookie => cookie.domain = stored.domain) < MAX_COOKIES_PER_DOMAIN)
    (htotal : kept.length < MAX_COOKIES) : state'.Valid where
  identities := by
    rw [hcookies, List.pairwise_append]
    refine ⟨h.identities.sublist hsub, List.pairwise_singleton _ _, ?_⟩
    intro other hother last hlast
    rw [List.mem_singleton.mp hlast]
    exact hidentity other hother
  creations := by
    rw [hcookies, List.map_append]
    apply List.Nodup.append (h.creations.sublist (hsub.map _)) (List.nodup_singleton _)
    intro creation hother hlast
    obtain ⟨other, hmem, rfl⟩ := List.mem_map.mp hother
    exact hcreation other hmem (List.mem_singleton.mp hlast)
  perDomain domain := by
    rw [hcookies, List.countP_append, List.countP_singleton]
    by_cases hdomain' : stored.domain = domain
    · subst hdomain'
      rw [if_pos (decide_eq_true rfl)]
      omega
    · rw [if_neg (by simpa using hdomain')]
      exact (hsub.countP_le).trans (h.perDomain domain)
  total := by
    rw [hcookies, List.length_append, List.length_singleton]
    exact htotal

/-- Storing a cookie keeps the invariants and uses up at most one creation number. -/
theorem Outcome.valid (h : state.Valid) {bound : Nat} (hused : state.UsedBelow bound)
    (hbound : bound < 2 ^ 64)
    (houtcome : Outcome state cookie expired fromHttp sourceSecure now state') :
    state'.Valid ∧ ∃ bound', bound' ≤ bound + 1 ∧ state'.UsedBelow bound' := by
  have hlive : (state.live now).Sublist state.cookies := state.live_sublist now
  have hnumber : ∀ {next : Nat}, next = nextNumber state.nextCreation →
      bound + 1 < 2 ^ 64 → next = bound + 1 := by
    rintro next rfl hroom
    rw [hused.2 hbound, nextNumber, if_pos hroom]
  cases houtcome with
  | refused hcookies hnext =>
    refine ⟨h.sublist (hcookies ▸ hlive), bound, by omega, ?_, fun hlt => hnext.trans (hused.2 hlt)⟩
    intro other hother
    rw [hcookies] at hother
    exact hused.1 other (hlive.subset hother)
  | removed hexpired hcookies hnext =>
    have hsub : state'.cookies.Sublist state.cookies :=
      hcookies ▸ (state.others_sublist cookie now).trans hlive
    refine ⟨h.sublist hsub, ?_⟩
    rcases hnext with hnext | hnext
    · exact ⟨bound, by omega, fun other hother => hused.1 other (hsub.subset hother),
        fun hlt => hnext.trans (hused.2 hlt)⟩
    · refine ⟨bound + 1, le_rfl, ?_, hnumber hnext⟩
      intro other hother
      have hlt := hused.1 other (hsub.subset hother)
      omega
  | stored hexpired hhttp hsecure hcookies hkept hcreation =>
    rename_i kept creation
    have hsub : kept.Sublist state.cookies :=
      hkept.sublist.trans ((state.others_sublist cookie now).trans hlive)
    have hothers : ∀ other ∈ kept, other ∈ state.live now ∧ ¬ SameCookie other cookie := by
      intro other hother
      exact mem_others.mp (hkept.sublist.subset hother)
    have hdistinct : ∀ other ∈ kept, other.creation ≠ creation := by
      intro other hother hsame
      rcases hcreation with ⟨stored, hstored, hidentity, rfl, -⟩ | ⟨-, rfl, -⟩
      · have heq := h.eq_of_creation (hsub.subset hother) (hlive.subset hstored) hsame
        rw [← heq] at hidentity
        exact (hothers other hother).2 hidentity
      · have hlt := hused.1 other (hsub.subset hother)
        rw [hused.2 hbound] at hsame
        omega
    have hcount : (state.others cookie now).countP (fun other => other.domain = cookie.domain) ≤
        MAX_COOKIES_PER_DOMAIN :=
      (((state.others_sublist cookie now).trans hlive).countP_le).trans (h.perDomain _)
    have hlength : (state.others cookie now).length ≤ MAX_COOKIES :=
      (((state.others_sublist cookie now).trans hlive).length_le).trans h.total
    refine ⟨h.append hsub hcookies (fun other hother => (hothers other hother).2) hdistinct
      (hkept.domain_room hcount) (hkept.room hlength), ?_⟩
    rcases hcreation with ⟨stored, hstored, -, rfl, hnext⟩ | ⟨-, rfl, hnext⟩
    · refine ⟨bound, by omega, ?_, fun hlt => hnext.trans (hused.2 hlt)⟩
      intro other hother
      rw [hcookies, List.mem_append, List.mem_singleton] at hother
      rcases hother with hother | rfl
      · exact hused.1 other (hsub.subset hother)
      · exact hused.1 stored (hlive.subset hstored)
    · refine ⟨bound + 1, le_rfl, ?_, hnumber hnext⟩
      intro other hother
      rw [hcookies, List.mem_append, List.mem_singleton] at hother
      rcases hother with hother | rfl
      · have hlt := hused.1 other (hsub.subset hother)
        omega
      · show state.nextCreation < bound + 1
        rw [hused.2 hbound]
        omega

/-! ## Versions -/

/-- The version has moved on this often, at least once if the cookies changed. -/
def Advanced (state state' : CookieState) (steps : Nat) : Prop :=
  state'.version = nextNumber^[steps] state.version ∧ (steps = 0 → state'.cookies = state.cookies)

theorem Advanced.refl (state : CookieState) : Advanced state state 0 := ⟨rfl, fun _ => rfl⟩

theorem Advanced.trans {state'' : CookieState} {steps steps' : Nat} (h : Advanced state state' steps)
    (h' : Advanced state' state'' steps') : Advanced state state'' (steps + steps') := by
  constructor
  · rw [h'.1, h.1, Nat.add_comm, Function.iterate_add_apply]
  · intro hzero
    rw [h'.2 (by omega), h.2 (by omega)]

theorem purgeExpired_advanced (state : CookieState) (now : SystemTime) :
    ∃ steps ≤ 1, Advanced state (state.purgeExpired now).1 steps := by
  rw [purgeExpired]
  dsimp only
  split
  next => exact ⟨1, le_rfl, rfl, fun hzero => absurd hzero (by decide)⟩
  next hsame =>
    rw [not_not] at hsame
    refine ⟨0, by omega, rfl, fun _ => ?_⟩
    exact (state.live_sublist now).eq_of_length hsame

private theorem place_advanced (state : CookieState) (cookie : StoredCookie) (expired changed : Bool) :
    Advanced state
      (if (state.place cookie expired changed).2
        then (state.place cookie expired changed).1.advanceVersion
        else (state.place cookie expired changed).1)
      (if (state.place cookie expired changed).2 then 1 else 0) := by
  have hnumbered : (state.creationFor cookie).2.version = state.version ∧
      (state.creationFor cookie).2.cookies = state.cookies := by
    rw [creationFor]
    split <;> exact ⟨rfl, rfl⟩
  rw [place]
  generalize state.creationFor cookie = numbered at hnumbered
  obtain ⟨creation, numbered⟩ := numbered
  obtain ⟨hversion, hcookies⟩ := hnumbered
  dsimp only at hversion hcookies ⊢
  cases expired with
  | false => exact ⟨by simp [advanceVersion, hversion], by simp⟩
  | true =>
    simp only [if_true]
    cases hchanged : changed || state.cookies.any fun stored => SameCookie stored cookie with
    | true => exact ⟨by simp [advanceVersion, hversion], by simp⟩
    | false =>
      refine ⟨hversion, fun _ => ?_⟩
      show numbered.cookies.filter _ = state.cookies
      rw [hcookies, List.filter_eq_self]
      intro stored hstored
      have hnone := (Bool.or_eq_false_iff.mp hchanged).2
      rw [List.any_eq_false] at hnone
      simpa using hnone stored hstored

theorem storeCookie_advanced (state : CookieState) (cookie : StoredCookie)
    (expired fromHttp sourceSecure : Bool) (now : SystemTime) :
    ∃ steps ≤ 2, Advanced state (state.storeCookie cookie expired fromHttp sourceSecure now).1
      steps := by
  obtain ⟨purges, hpurges, hpurged⟩ := state.purgeExpired_advanced now
  rw [storeCookie]
  generalize state.purgeExpired now = purged at hpurged
  obtain ⟨purged, changed⟩ := purged
  dsimp only at hpurged ⊢
  split
  · exact ⟨purges, by omega, hpurged⟩
  · refine ⟨_, ?_, hpurged.trans (purged.place_advanced cookie expired changed)⟩
    split <;> omega

end CookieState

/-! ## Runs -/

namespace CookieHost

open CookieState

variable (host : CookieHost) {state start : CookieState}

theorem call_valid (h : state.Valid) {bound : Nat} (hused : state.UsedBelow bound)
    (hbound : bound < 2 ^ 64) (call : CookieCall) :
    (host.call state call).Valid ∧ ∃ bound', bound' ≤ bound + 1 ∧
      (host.call state call).UsedBelow bound' := by
  obtain ⟨parsed, cookie, expired, fromHttp, now, -, hcall⟩ | ⟨-, hcall | ⟨now, hcall⟩⟩ :=
    host.call_cases state call
  · rw [hcall]
    exact (storeCookie_outcome state cookie expired fromHttp _ now).valid h hused hbound
  · rw [hcall]
    exact ⟨h, bound, by omega, hused⟩
  · rw [hcall]
    have hsub : (state.purgeExpired now).1.cookies.Sublist state.cookies := by
      rw [purgeExpired_cookies]
      exact state.live_sublist now
    refine ⟨h.sublist hsub, bound, by omega, fun other hother => hused.1 other (hsub.subset hother), ?_⟩
    rw [purgeExpired_nextCreation]
    exact hused.2

theorem run_valid (h : start.Valid) {bound : Nat} (hused : start.UsedBelow bound)
    {calls : List CookieCall} (hroom : bound + calls.length ≤ 2 ^ 64) :
    (calls.foldl host.call start).Valid := by
  induction calls generalizing start bound with
  | nil => exact h
  | cons call calls ih =>
    rw [List.length_cons] at hroom
    obtain ⟨hvalid, bound', hle, hused'⟩ := call_valid host h hused (by omega) call
    exact ih hvalid hused' (by omega)

theorem call_advanced (state : CookieState) (call : CookieCall) :
    ∃ steps ≤ 2, Advanced state (host.call state call) steps := by
  obtain ⟨parsed, cookie, expired, fromHttp, now, -, hcall⟩ | ⟨-, hcall | ⟨now, hcall⟩⟩ :=
    host.call_cases state call
  · rw [hcall]
    exact storeCookie_advanced state cookie expired fromHttp _ now
  · rw [hcall]
    exact ⟨0, by omega, .refl state⟩
  · rw [hcall]
    obtain ⟨steps, hsteps, hadvanced⟩ := state.purgeExpired_advanced now
    exact ⟨steps, by omega, hadvanced⟩

theorem run_advanced (start : CookieState) (calls : List CookieCall) :
    ∃ steps ≤ 2 * calls.length, Advanced start (calls.foldl host.call start) steps := by
  induction calls generalizing start with
  | nil => exact ⟨0, le_rfl, .refl start⟩
  | cons call calls ih =>
    obtain ⟨first, hfirst, hadvanced⟩ := call_advanced host start call
    obtain ⟨rest, hrest, hadvanced'⟩ := ih (host.call start call)
    refine ⟨first + rest, ?_, hadvanced.trans hadvanced'⟩
    rw [List.length_cons]
    omega

theorem run_version_pos (calls : List CookieCall) (hpos : 0 < start.version) :
    0 < (calls.foldl host.call start).version := by
  obtain ⟨steps, -, hversion, -⟩ := run_advanced host start calls
  rw [hversion]
  cases steps with
  | zero => exact hpos
  | succ steps =>
    rw [Function.iterate_succ_apply']
    exact nextNumber_pos _

theorem run_version_lt (calls : List CookieCall) (hlt : start.version < 2 ^ 64) :
    (calls.foldl host.call start).version < 2 ^ 64 := by
  obtain ⟨steps, -, hversion, -⟩ := run_advanced host start calls
  rw [hversion]
  cases steps with
  | zero => exact hlt
  | succ steps =>
    rw [Function.iterate_succ_apply']
    exact nextNumber_lt _

variable {host}

/-- A snapshot shows the version and the cookies of the jar that it leaves. -/
theorem documentSnapshot_spec {persist : CookieState → Except Str Unit} {documentUrl : Str}
    {now : SystemTime} {snapshot : CookieSnapshot}
    (h : (host.documentSnapshot persist state documentUrl now).1 = .ok snapshot) :
    ∃ parsed, ParsedUrl.parse host.urlParse documentUrl = some parsed ∧
      snapshot.version = (host.documentSnapshot persist state documentUrl now).2.version ∧
      snapshot.header =
        host.documentHeader (host.documentSnapshot persist state documentUrl now).2.cookies parsed := by
  rw [documentSnapshot] at h ⊢
  cases hurl : ParsedUrl.parse host.urlParse documentUrl with
  | none =>
    rw [hurl] at h
    cases h
  | some parsed =>
    rw [hurl] at h
    dsimp only at h ⊢
    rw [finish_state]
    refine ⟨parsed, rfl, ?_⟩
    rw [finish] at h
    split at h
    · split at h
      · cases h
      · cases h
        exact ⟨rfl, rfl⟩
    · cases h
      exact ⟨rfl, rfl⟩

/-! ## The contract of the jar -/

/-- What one call guarantees, beyond the invariants. -/
structure CallContract (host : CookieHost) (state : CookieState) (call : CookieCall) : Prop where
  /-- Scripts neither store nor change cookies that are hidden from them. -/
  script : ∀ documentUrl assignment parsedAt storedAt persist,
    call = .setDocumentCookie documentUrl assignment parsedAt storedAt persist →
    (∀ cookie ∈ (host.call state call).cookies, cookie.httpOnly = true → cookie ∈ state.cookies) ∧
      ∀ cookie ∈ state.live storedAt, cookie.httpOnly = true →
        ∀ other ∈ (host.call state call).cookies, SameCookie other cookie → other = cookie
  /-- From an insecure URL nothing is stored over a secure cookie. -/
  insecure : ∀ parsed cookie expired fromHttp now,
    host.assigned call = some (parsed, cookie, expired, fromHttp, now) → isSecureUrl parsed = false →
    (∃ stored ∈ state.live now, shadows cookie stored = true) →
    ∀ other ∈ (host.call state call).cookies, other ∈ state.cookies
  /-- A replacement keeps the creation number. -/
  replaced : ∀ parsed cookie expired fromHttp now,
    host.assigned call = some (parsed, cookie, expired, fromHttp, now) →
    ∀ stored ∈ state.live now, ∀ other ∈ (host.call state call).cookies, SameCookie other stored →
      other.creation = stored.creation

/-- What holds of a run. -/
structure JarContract (host : CookieHost) (start : CookieState) (calls : List CookieCall) : Prop where
  valid : (calls.foldl host.call start).Valid
  each : ∀ first call rest, calls = first ++ call :: rest →
    host.CallContract (first.foldl host.call start) call
  /-- Two snapshots of a URL that differ have different versions. -/
  versions : calls.length < 2 ^ 63 →
    ∀ first middle rest documentUrl now now' persist persist' snapshot snapshot',
    calls = first ++ .documentSnapshot documentUrl now persist ::
      (middle ++ .documentSnapshot documentUrl now' persist' :: rest) →
    (host.documentSnapshot persist (first.foldl host.call start) documentUrl now).1 = .ok snapshot →
    (host.documentSnapshot persist' ((first ++ .documentSnapshot documentUrl now persist ::
      middle).foldl host.call start) documentUrl now').1 = .ok snapshot' →
    snapshot.header ≠ snapshot'.header → snapshot.version ≠ snapshot'.version

private theorem assigned_script {documentUrl assignment : Str} {parsedAt storedAt now : SystemTime}
    {persist : CookieState → Except Str Unit} {parsed : ParsedUrl} {cookie : StoredCookie}
    {expired fromHttp : Bool}
    (h : host.assigned (.setDocumentCookie documentUrl assignment parsedAt storedAt persist) =
      some (parsed, cookie, expired, fromHttp, now)) :
    fromHttp = false ∧ now = storedAt ∧ cookie.httpOnly = false := by
  simp only [assigned, Option.bind_eq_bind, Option.bind_eq_some_iff, Option.some.injEq,
    Prod.mk.injEq] at h
  obtain ⟨url, -, ⟨found, late⟩, hparse, rfl, rfl, rfl, rfl, rfl⟩ := h
  obtain ⟨-, attributes, haccepted⟩ := parseCookieInternal_accepted hparse
  refine ⟨rfl, rfl, ?_⟩
  cases hflag : found.httpOnly with
  | false => rfl
  | true => cases haccepted.httpOnly hflag

private theorem assigned_insecure {call : CookieCall} {now : SystemTime} {parsed : ParsedUrl}
    {cookie : StoredCookie} {expired fromHttp : Bool}
    (h : host.assigned call = some (parsed, cookie, expired, fromHttp, now))
    (hinsecure : isSecureUrl parsed = false) : cookie.secure = false := by
  obtain ⟨text, hparse⟩ := assigned_parsed h
  obtain ⟨-, attributes, haccepted⟩ := parseCookieInternal_accepted hparse
  cases hsecure : cookie.secure with
  | false => rfl
  | true =>
    have hurl := haccepted.secure hsecure
    rw [hinsecure] at hurl
    cases hurl

/-- Only the assigned cookie is new. -/
private theorem Outcome.mem_cookies {cookie : StoredCookie} {expired fromHttp sourceSecure : Bool}
    {now : SystemTime} {state' : CookieState}
    (houtcome : Outcome state cookie expired fromHttp sourceSecure now state') {other : StoredCookie}
    (hother : other ∈ state'.cookies) :
    other ∈ state.live now ∨ (∃ creation, other = { cookie with creation := creation }) := by
  cases houtcome with
  | refused hcookies hnext => exact .inl (hcookies ▸ hother)
  | removed hexpired hcookies hnext => exact .inl (mem_others.mp (hcookies ▸ hother)).1
  | stored hexpired hhttp hsecure hcookies hkept hcreation =>
    rw [hcookies, List.mem_append, List.mem_singleton] at hother
    rcases hother with hother | hother
    · exact .inl (mem_others.mp (hkept.sublist.subset hother)).1
    · exact .inr ⟨_, hother⟩

theorem call_contract (h : state.Valid) (call : CookieCall) : host.CallContract state call := by
  have heq : ∀ now, ∀ first ∈ state.live now, ∀ second ∈ state.live now,
      SameCookie first second → first = second := fun now first hfirst second hsecond =>
    h.eq_of_same (mem_live.mp hfirst).1 (mem_live.mp hsecond).1
  obtain ⟨parsed, cookie, expired, fromHttp, now, hassigned, hcall⟩ | ⟨hassigned, hcall⟩ :=
    host.call_cases state call
  · have houtcome := storeCookie_outcome state cookie expired fromHttp (isSecureUrl parsed) now
    rw [← hcall] at houtcome
    refine ⟨?_, ?_, ?_⟩
    · rintro documentUrl assignment parsedAt storedAt persist rfl
      obtain ⟨rfl, rfl, hscript⟩ := assigned_script hassigned
      have hhidden : ∀ other ∈ (host.call state (.setDocumentCookie documentUrl assignment parsedAt
          now persist)).cookies, other.httpOnly = true → other ∈ state.live now := by
        intro other hother hflag
        rcases Outcome.mem_cookies houtcome hother with hlive | ⟨creation, rfl⟩
        · exact hlive
        · rw [show cookie.httpOnly = true from hflag] at hscript
          cases hscript
      refine ⟨fun other hother hflag => (mem_live.mp (hhidden other hother hflag)).1, ?_⟩
      intro hidden hlive hflag other hother hsame
      rcases Outcome.mem_cookies houtcome hother with hbefore | ⟨creation, rfl⟩
      · exact heq now other hbefore hidden hlive hsame
      · cases houtcome with
        | refused hcookies hnext =>
          exact heq now _ (hcookies ▸ hother) hidden hlive hsame
        | removed hexpired hcookies hnext =>
          exact heq now _ (mem_others.mp (hcookies ▸ hother)).1 hidden hlive hsame
        | stored hexpired hhttp hsecure hcookies hkept hcreation =>
          have hvisible := hhttp rfl hidden hlive hsame.symm
          rw [hflag] at hvisible
          cases hvisible
    · intro parsed' cookie' expired' fromHttp' now' hassigned' hinsecure hshadow other hother
      rw [hassigned] at hassigned'
      cases hassigned'
      obtain ⟨stored, hstored, hshadow⟩ := hshadow
      cases houtcome with
      | refused hcookies hnext => exact (mem_live.mp (hcookies ▸ hother)).1
      | removed hexpired hcookies hnext =>
        exact (mem_live.mp (mem_others.mp (hcookies ▸ hother)).1).1
      | stored hexpired hhttp hsecure hcookies hkept hcreation =>
        have hclear := hsecure (assigned_insecure hassigned hinsecure) hinsecure stored hstored
        rw [hshadow] at hclear
        cases hclear
    · intro parsed' cookie' expired' fromHttp' now' hassigned' stored hstored other hother hsame
      rw [hassigned] at hassigned'
      cases hassigned'
      cases houtcome with
      | refused hcookies hnext => rw [heq now other (hcookies ▸ hother) stored hstored hsame]
      | removed hexpired hcookies hnext =>
        rw [heq now other (mem_others.mp (hcookies ▸ hother)).1 stored hstored hsame]
      | stored hexpired hhttp hsecure hcookies hkept hcreation =>
        rw [hcookies, List.mem_append, List.mem_singleton] at hother
        rcases hother with hother | rfl
        · rw [heq now other (mem_others.mp (hkept.sublist.subset hother)).1 stored hstored hsame]
        · rcases hcreation with ⟨before, hbefore, hidentity, rfl, -⟩ | ⟨hnone, -, -⟩
          · rw [heq now stored hstored before hbefore (hsame.symm.trans hidentity.symm)]
          · exact absurd hsame.symm (hnone stored hstored)
  · refine ⟨?_, ?_, ?_⟩
    · have hsub : (host.call state call).cookies.Sublist state.cookies := by
        rcases hcall with hcall | ⟨now, hcall⟩
        · rw [hcall]
        · rw [hcall, purgeExpired_cookies]
          exact state.live_sublist now
      rintro documentUrl assignment parsedAt storedAt persist rfl
      refine ⟨fun other hother _ => hsub.subset hother, ?_⟩
      intro hidden hlive _ other hother hsame
      exact h.eq_of_same (hsub.subset hother) (mem_live.mp hlive).1 hsame
    · intro parsed cookie expired fromHttp now hassigned'
      rw [hassigned] at hassigned'
      cases hassigned'
    · intro parsed cookie expired fromHttp now hassigned'
      rw [hassigned] at hassigned'
      cases hassigned'

/-- A jar to start from, with creation numbers left for this many calls. -/
structure Ready (start : CookieState) (calls : Nat) : Prop where
  valid : start.Valid
  numbered : ∀ cookie ∈ start.cookies, cookie.creation < start.nextCreation
  room : start.nextCreation + calls ≤ 2 ^ 64
  version_pos : 0 < start.version
  version_lt : start.version < 2 ^ 64

theorem ready_empty {calls : Nat} (h : calls < 2 ^ 64) : Ready {} calls where
  valid := ⟨.nil, .nil, fun _ => Nat.zero_le _, Nat.zero_le _⟩
  numbered := by simp
  room := by
    show 1 + calls ≤ 2 ^ 64
    omega
  version_pos := by decide
  version_lt := by decide

/-- The jar after some of the calls is ready for the rest. -/
private theorem Ready.valid_prefix {first rest : List CookieCall}
    (h : Ready start (first ++ rest).length) : (first.foldl host.call start).Valid := by
  have hroom := h.room
  rw [List.length_append] at hroom
  exact run_valid host h.valid ⟨h.numbered, fun _ => rfl⟩ (by omega)

private theorem versions_differ (h : 0 < start.version) (hlt : start.version < 2 ^ 64)
    {middle : List CookieCall} (hfew : middle.length + 2 < 2 ^ 63) {documentUrl : Str}
    {now now' : SystemTime} {persist persist' : CookieState → Except Str Unit}
    {snapshot snapshot' : CookieSnapshot}
    (hfirst : (host.documentSnapshot persist start documentUrl now).1 = .ok snapshot)
    (hsecond : (host.documentSnapshot persist' ((CookieCall.documentSnapshot documentUrl now persist ::
      middle).foldl host.call start) documentUrl now').1 = .ok snapshot')
    (hheader : snapshot.header ≠ snapshot'.header) : snapshot.version ≠ snapshot'.version := by
  obtain ⟨parsed, hparsed, hversion, hshown⟩ := documentSnapshot_spec hfirst
  obtain ⟨parsed', hparsed', hversion', hshown'⟩ := documentSnapshot_spec hsecond
  rw [hparsed] at hparsed'
  cases hparsed'
  have hstart : 0 < (host.call start (.documentSnapshot documentUrl now persist)).version :=
    run_version_pos host [.documentSnapshot documentUrl now persist] h
  have hstartLt : (host.call start (.documentSnapshot documentUrl now persist)).version < 2 ^ 64 :=
    run_version_lt host [.documentSnapshot documentUrl now persist] hlt
  obtain ⟨steps, hsteps, hadvanced⟩ := run_advanced host
    (host.call start (.documentSnapshot documentUrl now persist))
    (middle ++ [.documentSnapshot documentUrl now' persist'])
  rw [List.foldl_append] at hadvanced
  rw [List.length_append, List.length_singleton] at hsteps
  change Advanced (host.documentSnapshot persist start documentUrl now).2
    (host.documentSnapshot persist' ((CookieCall.documentSnapshot documentUrl now persist ::
      middle).foldl host.call start) documentUrl now').2 steps at hadvanced
  intro hsame
  rw [hversion, hversion', hadvanced.1] at hsame
  by_cases hzero : steps = 0
  · rw [hshown, hshown', hadvanced.2 hzero] at hheader
    exact hheader rfl
  · exact iterate_nextNumber_ne hstart hstartLt (by omega) (by omega) hsame.symm

/-- Every run of a jar keeps its contract. -/
theorem run_contract {calls : List CookieCall} (h : Ready start calls.length) :
    host.JarContract start calls where
  valid := run_valid host h.valid ⟨h.numbered, fun _ => rfl⟩ h.room
  each := by
    rintro first call rest rfl
    exact call_contract h.valid_prefix call
  versions := by
    rintro hfew first middle rest documentUrl now now' persist persist' snapshot snapshot' rfl
      hfirst hsecond
    rw [List.foldl_append] at hsecond
    apply versions_differ (run_version_pos host _ h.version_pos) (run_version_lt host _ h.version_lt) _ hfirst
      hsecond
    simp only [List.length_append, List.length_cons] at hfew
    omega

/-- In a new jar, and in one that was loaded, as long as creation numbers last. -/
theorem jar_contract (host : CookieHost) (calls : List CookieCall) :
    (calls.length < 2 ^ 64 → host.JarContract {} calls) ∧
      ∀ start, Ready start calls.length → host.JarContract start calls :=
  ⟨fun hfew => run_contract (ready_empty hfew), fun _ h => run_contract h⟩

/-! ## The version goes round -/

def sampleUrl : Str := "https://a/".toList

/-- No suffix is public, and one URL can be parsed. -/
def sampleHost : CookieHost where
  suffixes := ⟨fun _ => false, fun _ => none⟩
  urlParse input := if input = sampleUrl then some ⟨"https".toList, [], none,
    some (.Domain "a".toList), some 443, "/".toList, none, sampleUrl⟩ else none

/-- A script sets a cookie that lives for a second. -/
def setFor (value : Char) (now : SystemTime) : CookieCall :=
  .setDocumentCookie sampleUrl ("k=".toList ++ value :: "; Max-Age=1".toList) now now fun _ => .ok ()

def snapshotAt (now : SystemTime) : CookieCall := .documentSnapshot sampleUrl now fun _ => .ok ()

/-- The clock goes on for a minute, past the expiry, and back again. -/
def clockRound : List CookieCall := [setFor 'y' 1200000000, setFor 'y' 600000000]

def sampleCookie (value : Char) (expires : SystemTime) (creation : Nat) : StoredCookie :=
  ⟨"k".toList, [value], "a".toList, "/".toList, false, true, false, .Default, some expires, creation⟩

private theorem setFor_assigned (value : Char) (hvalue : value = 'x' ∨ value = 'y')
    (now : SystemTime) (hnow : now = 600000000 ∨ now = 1200000000) :
    sampleHost.assigned (setFor value now) = some (⟨"https".toList, "a".toList, 443, "/".toList⟩,
      sampleCookie value (now + 10000000) 0, false, false, now) := by
  rcases hvalue with rfl | rfl <;> rcases hnow with rfl | rfl <;> decide +kernel

private theorem setFor_call (state : CookieState) {value : Char} (hvalue : value = 'x' ∨ value = 'y')
    {now : SystemTime} (hnow : now = 600000000 ∨ now = 1200000000) :
    sampleHost.call state (setFor value now) =
      (state.storeCookie (sampleCookie value (now + 10000000) 0) false false true now).1 :=
  sampleHost.call_of_assigned (setFor_assigned value hvalue now hnow)

/-- Past the expiry the old cookie goes and a new one comes. -/
private theorem late_effect (value : Char) (creation next version : Nat) :
    (CookieState.mk [sampleCookie value 610000000 creation] next version).storeCookie
        (sampleCookie 'y' 1210000000 0) false false true 1200000000 =
      (⟨[sampleCookie 'y' 1210000000 next], nextNumber next, nextNumber (nextNumber version)⟩,
        true) := by
  have hpurge : (CookieState.mk [sampleCookie value 610000000 creation] next version).purgeExpired
      1200000000 = (⟨[], next, nextNumber version⟩, true) := rfl
  rw [storeCookie, hpurge]
  rfl

/-- Back in time the cookie is replaced. -/
private theorem early_effect (creation next version : Nat) :
    (CookieState.mk [sampleCookie 'y' 1210000000 creation] next version).storeCookie
        (sampleCookie 'y' 610000000 0) false false true 600000000 =
      (⟨[sampleCookie 'y' 610000000 creation], next, nextNumber version⟩, true) := by
  have hpurge : (CookieState.mk [sampleCookie 'y' 1210000000 creation] next version).purgeExpired
      600000000 = (⟨[sampleCookie 'y' 1210000000 creation], next, version⟩, false) := rfl
  have hplace : (CookieState.mk [sampleCookie 'y' 1210000000 creation] next version).place
      (sampleCookie 'y' 610000000 0) false false =
      (⟨[sampleCookie 'y' 610000000 creation], next, version⟩, true) := rfl
  have hkept : ((CookieState.mk [sampleCookie 'y' 1210000000 creation] next
      version).rejectsHttpOnlyOverwrite (sampleCookie 'y' 610000000 0) false ||
      (CookieState.mk [sampleCookie 'y' 1210000000 creation] next version).rejectsInsecureOverlay
        (sampleCookie 'y' 610000000 0) true) = false := rfl
  rw [storeCookie, hpurge]
  dsimp only
  rw [hkept, hplace]
  rfl

private theorem round_effect (value : Char) (creation next version : Nat) :
    clockRound.foldl sampleHost.call ⟨[sampleCookie value 610000000 creation], next, version⟩ =
      ⟨[sampleCookie 'y' 610000000 next], nextNumber next,
        nextNumber (nextNumber (nextNumber version))⟩ := by
  rw [clockRound, List.foldl_cons, setFor_call _ (.inr rfl) (.inr rfl), List.foldl_cons,
    setFor_call _ (.inr rfl) (.inl rfl)]
  change (((CookieState.mk [sampleCookie value 610000000 creation] next version).storeCookie
    (sampleCookie 'y' 1210000000 0) false false true 1200000000).1.storeCookie
    (sampleCookie 'y' 610000000 0) false false true 600000000).1 = _
  rw [late_effect, early_effect]

private theorem rounds_effect (rounds creation next version : Nat) :
    ∃ creation' next', (List.replicate rounds clockRound).flatten.foldl sampleHost.call
        ⟨[sampleCookie 'y' 610000000 creation], next, version⟩ =
      ⟨[sampleCookie 'y' 610000000 creation'], next', nextNumber^[3 * rounds] version⟩ := by
  induction rounds generalizing creation next version with
  | zero => exact ⟨creation, next, rfl⟩
  | succ rounds ih =>
    obtain ⟨creation', next', hrest⟩ :=
      ih next (nextNumber next) (nextNumber (nextNumber (nextNumber version)))
    refine ⟨creation', next', ?_⟩
    rw [List.replicate_succ, List.flatten_cons, List.foldl_append, round_effect, hrest,
      Nat.mul_add, Function.iterate_add_apply]
    rfl

/-- After some rounds of the clock the snapshot is another one of the same version. -/
private theorem rounds_repeat {rounds : Nat} (hrounds : 3 * (rounds + 1) = 2 ^ 64 - 1) :
    (setFor 'x' 600000000 :: snapshotAt 600000000 ::
        ((clockRound ++ (List.replicate rounds clockRound).flatten) ++
          [snapshotAt 600000000])).length < 2 ^ 64 ∧
      (sampleHost.documentSnapshot (fun _ => .ok ())
        ([setFor 'x' 600000000].foldl sampleHost.call {}) sampleUrl 600000000).1 =
          .ok ⟨2, "k=x".toList⟩ ∧
      (sampleHost.documentSnapshot (fun _ => .ok ())
        ((setFor 'x' 600000000 :: snapshotAt 600000000 ::
          (clockRound ++ (List.replicate rounds clockRound).flatten)).foldl sampleHost.call {})
        sampleUrl 600000000).1 = .ok ⟨2, "k=y".toList⟩ := by
  have hstart : sampleHost.call {} (setFor 'x' 600000000) =
      ⟨[sampleCookie 'x' 610000000 1], 2, 2⟩ := by
    rw [setFor_call _ (.inl rfl) (.inl rfl)]
    rfl
  have hshown : ∀ value, value = 'x' ∨ value = 'y' → ∀ creation next version,
      sampleHost.documentSnapshot (fun _ => .ok ())
        ⟨[sampleCookie value 610000000 creation], next, version⟩ sampleUrl 600000000 =
      (.ok ⟨version, ['k', '=', value]⟩,
        ⟨[sampleCookie value 610000000 creation], next, version⟩) := by
    intro value hvalue creation next version
    rcases hvalue with rfl | rfl <;> rfl
  refine ⟨?_, ?_, ?_⟩
  · have hlength : (List.replicate rounds clockRound).flatten.length = 2 * rounds := by
      simp [List.length_flatten, clockRound, Nat.mul_comm]
    have hround : clockRound.length = 2 := rfl
    simp only [List.length_cons, List.length_append, hlength, List.length_nil, hround]
    omega
  · rw [List.foldl_cons, hstart, List.foldl_nil, hshown _ (.inl rfl)]
    rfl
  · have hsnapshot : sampleHost.call ⟨[sampleCookie 'x' 610000000 1], 2, 2⟩ (snapshotAt 600000000) =
        ⟨[sampleCookie 'x' 610000000 1], 2, 2⟩ := by
      rw [snapshotAt, call, hshown _ (.inl rfl)]
    rw [List.foldl_cons, hstart, List.foldl_cons, hsnapshot, List.foldl_append, round_effect]
    obtain ⟨creation', next', hrest⟩ :=
      rounds_effect rounds 2 (nextNumber 2) (nextNumber (nextNumber (nextNumber 2)))
    have hversion : nextNumber^[3 * rounds] (nextNumber (nextNumber (nextNumber 2))) = 2 := calc
      nextNumber^[3 * rounds] (nextNumber (nextNumber (nextNumber 2)))
        = nextNumber^[3 * rounds] (nextNumber^[3] 2) := rfl
      _ = nextNumber^[3 * (rounds + 1)] 2 := by
        rw [Nat.mul_add, ← Function.iterate_add_apply]
      _ = 2 := by
        rw [hrounds, iterate_nextNumber (by decide) (by decide), Nat.add_mod_right]
        decide
    rw [hrest, hshown _ (.inr rfl), hversion]
    rfl

/-- The version goes round in fewer than 2 ^ 64 calls, since a call can move it twice. -/
theorem jar_contract_fails : ∃ middle : List CookieCall, ∃ snapshot snapshot' : CookieSnapshot,
    (setFor 'x' 600000000 :: snapshotAt 600000000 ::
        (middle ++ [snapshotAt 600000000])).length < 2 ^ 64 ∧
      (sampleHost.documentSnapshot (fun _ => .ok ())
        ([setFor 'x' 600000000].foldl sampleHost.call {}) sampleUrl 600000000).1 = .ok snapshot ∧
      (sampleHost.documentSnapshot (fun _ => .ok ())
        ((setFor 'x' 600000000 :: snapshotAt 600000000 :: middle).foldl sampleHost.call {})
        sampleUrl 600000000).1 = .ok snapshot' ∧
      snapshot.header ≠ snapshot'.header ∧ snapshot.version = snapshot'.version := by
  have hrounds : 3 * (6148914691236517204 + 1) = 2 ^ 64 - 1 := by decide
  obtain ⟨hlength, hfirst, hsecond⟩ := rounds_repeat hrounds
  exact ⟨_, _, _, hlength, hfirst, hsecond, by decide, rfl⟩

theorem jar_contract_sample :
    sampleHost.JarContract {} [setFor 'x' 600000000, snapshotAt 600000000] :=
  (jar_contract sampleHost [setFor 'x' 600000000, snapshotAt 600000000]).1 (by decide)

end CookieHost

end BetterWebBrowser.Cookies
