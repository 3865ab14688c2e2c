import BetterWebBrowser.Framework.Transition
import BetterWebBrowser.Http.Cache

/-!
# Invariants of the response cache

The entries of one partition share a `Vary` list and no two of them match the same request, so the
entry that a lookup finds is the last response that was stored for it.
-/

namespace BetterWebBrowser.Http

open Framework

def bodyBytes (entries : List CachedResponse) : Nat := (entries.map fun entry => entry.body.length).sum

@[simp] theorem bodyBytes_nil : bodyBytes [] = 0 := rfl

@[simp] theorem bodyBytes_cons (entry : CachedResponse) (entries : List CachedResponse) :
    bodyBytes (entry :: entries) = entry.body.length + bodyBytes entries := by
  simp [bodyBytes]

@[simp] theorem bodyBytes_append (first second : List CachedResponse) :
    bodyBytes (first ++ second) = bodyBytes first + bodyBytes second := by
  simp [bodyBytes]

namespace CachedResponse

variable {first second : CachedResponse} {partition : Partition} {outbound : HeaderList}

theorem varyMatches_iff :
    first.varyMatches outbound = true ↔
      ∀ name ∈ first.vary, first.requestHeaders.values name = outbound.values name := by
  simp [varyMatches]

theorem isMatch_iff :
    first.isMatch partition outbound = true ↔ first.partition = partition ∧ first.varyMatches outbound = true := by
  simp [isMatch]

/-- Two responses with one `Vary` list that match the same request match each other. -/
theorem varyMatches_of_both (hvary : first.vary = second.vary) (hfirst : first.varyMatches outbound = true)
    (hsecond : second.varyMatches outbound = true) : first.varyMatches second.requestHeaders = true := by
  rw [varyMatches_iff] at hfirst hsecond ⊢
  intro name hname
  rw [hfirst name hname, hsecond name (hvary ▸ hname)]

/-- An earlier and a later response of one partition have the same variant key, with other values. -/
def Apart (earlier later : CachedResponse) : Prop :=
  earlier.partition = later.partition →
    earlier.vary = later.vary ∧ earlier.varyMatches later.requestHeaders = false

theorem Apart.not_both (h : Apart first second) (hfirst : first.isMatch partition outbound = true) :
    second.isMatch partition outbound = false := by
  rw [isMatch_iff] at hfirst
  rw [← Bool.not_eq_true, isMatch_iff]
  intro hsecond
  obtain ⟨hvary, hother⟩ := h (hfirst.1.trans hsecond.1.symm)
  rw [varyMatches_of_both hvary hfirst.2 hsecond.2] at hother
  cases hother

end CachedResponse

namespace ResponseCache

variable {response entry : CachedResponse} {entries : List CachedResponse} {bytes : Nat}

/-! ## The two loops of `insert` -/

theorem dropVariants_entries :
    (dropVariants response entries bytes).1 = entries.filter fun entry => !isReplacedBy response entry := by
  induction entries generalizing bytes with
  | nil => rfl
  | cons entry entries ih =>
    rw [dropVariants]
    by_cases h : isReplacedBy response entry = true
    · rw [if_pos h, ih, List.filter_cons_of_neg (by simp [h])]
    · rw [if_neg h, List.filter_cons_of_pos (by simp [h])]
      simp only [ih]

theorem dropVariants_bytes (rest : Nat) :
    (dropVariants response entries (bodyBytes entries + rest)).2 =
      bodyBytes (entries.filter fun entry => !isReplacedBy response entry) + rest := by
  induction entries generalizing rest with
  | nil => rfl
  | cons entry entries ih =>
    rw [dropVariants, bodyBytes_cons]
    by_cases h : isReplacedBy response entry = true
    · have hbytes : entry.body.length + bodyBytes entries + rest - entry.body.length = bodyBytes entries + rest := by
        omega
      rw [if_pos h, hbytes, ih, List.filter_cons_of_neg (by simp [h])]
    · have hbytes : entry.body.length + bodyBytes entries + rest =
          bodyBytes entries + (entry.body.length + rest) := by
        omega
      rw [if_neg h, hbytes, List.filter_cons_of_pos (by simp [h]), bodyBytes_cons]
      simp only [ih]
      omega

/-- What a new response leaves is apart from it. -/
theorem apart_of_not_replaced (h : (!isReplacedBy response entry) = true) : entry.Apart response := by
  intro hpartition
  rw [isReplacedBy, decide_eq_true hpartition, Bool.true_and, Bool.not_or, Bool.and_eq_true, Bool.not_eq_true',
    Bool.not_eq_true', decide_eq_false_iff_not, not_not] at h
  refine ⟨h.1, ?_⟩
  rw [← Bool.not_eq_true, CachedResponse.isMatch_iff] at h
  rw [← Bool.not_eq_true]
  exact fun hmatch => h.2 ⟨hpartition, hmatch⟩

theorem evict_suffix : (evict entries bytes).entries <:+ entries := by
  induction entries generalizing bytes with
  | nil => exact List.suffix_rfl
  | cons oldest entries ih =>
    rw [evict]
    split
    · exact ih.trans (List.suffix_cons oldest entries)
    · exact List.suffix_rfl

/-- The loop ends within the limits, with the bytes of what is left. -/
theorem evict_limits (h : bytes = bodyBytes entries) :
    (evict entries bytes).bytes = bodyBytes (evict entries bytes).entries ∧
      (evict entries bytes).entries.length ≤ MAX_ENTRIES ∧ (evict entries bytes).bytes ≤ MAX_TOTAL_BYTES := by
  induction entries generalizing bytes with
  | nil =>
    rw [h]
    exact ⟨rfl, Nat.zero_le _, Nat.zero_le _⟩
  | cons oldest entries ih =>
    rw [evict]
    split
    · apply ih
      rw [h, bodyBytes_cons]
      omega
    · rename_i hlimit
      rw [not_or] at hlimit
      exact ⟨h, Nat.le_of_not_lt hlimit.1, Nat.le_of_not_lt hlimit.2⟩

/-! ## Runs -/

/-- Whether `insert` takes a response that matches the request. -/
def isStoredFor (partition : Partition) (outbound : HeaderList) (response : CachedResponse) : Bool :=
  decide (response.body.length ≤ MAX_ENTRY_BYTES) && response.isMatch partition outbound

/-- The cache after the insertions of `responses`. -/
structure Holds (responses : List CachedResponse) (cache : ResponseCache) : Prop where
  bytes : cache.bytes = bodyBytes cache.entries
  entries_le : cache.entries.length ≤ MAX_ENTRIES
  bytes_le : cache.bytes ≤ MAX_TOTAL_BYTES
  apart : cache.entries.Pairwise CachedResponse.Apart
  latest : ∀ partition outbound, ∀ entry ∈ cache.entries, entry.isMatch partition outbound = true →
    (responses.filter (isStoredFor partition outbound)).getLast? = some entry

theorem Holds.empty : Holds [] empty where
  bytes := rfl
  entries_le := Nat.zero_le _
  bytes_le := Nat.zero_le _
  apart := .nil
  latest := fun _ _ _ h => absurd h List.not_mem_nil

/-- The last response that is stored for a request is the one that the cache finds. -/
private theorem latest_append {responses : List CachedResponse} {partition : Partition} {outbound : HeaderList}
    (hmatch : entry.isMatch partition outbound = true)
    (hmem : entry = response ∧ response.body.length ≤ MAX_ENTRY_BYTES ∨
      entry.Apart response ∧ (responses.filter (isStoredFor partition outbound)).getLast? = some entry) :
    ((responses ++ [response]).filter (isStoredFor partition outbound)).getLast? = some entry := by
  rw [List.filter_append]
  rcases hmem with ⟨rfl, hlen⟩ | ⟨hapart, hlast⟩
  · have hstored : isStoredFor partition outbound entry = true := by
      rw [isStoredFor, decide_eq_true hlen, hmatch]
      rfl
    rw [List.filter_cons_of_pos hstored, List.filter_nil, List.getLast?_append, List.getLast?_singleton]
    rfl
  · have hstored : ¬ isStoredFor partition outbound response = true := by
      rw [isStoredFor, hapart.not_both hmatch, Bool.and_false]
      exact Bool.false_ne_true
    rw [List.filter_cons_of_neg hstored, List.filter_nil, List.append_nil, hlast]

theorem Holds.insert {responses : List CachedResponse} {cache : ResponseCache} (h : Holds responses cache)
    (response : CachedResponse) : Holds (responses ++ [response]) (cache.insert response) := by
  rw [ResponseCache.insert]
  split
  · -- a body that is too long is not stored
    rename_i hlong
    refine ⟨h.bytes, h.entries_le, h.bytes_le, h.apart, fun partition outbound entry hmem hmatch => ?_⟩
    have hnone : ¬ isStoredFor partition outbound response = true := by
      rw [isStoredFor, decide_eq_false (Nat.not_le_of_lt hlong), Bool.false_and]
      exact Bool.false_ne_true
    rw [List.filter_append, List.filter_cons_of_neg hnone, List.filter_nil, List.append_nil]
    exact h.latest partition outbound entry hmem hmatch
  · rename_i hlen
    have hbytes : (dropVariants response cache.entries cache.bytes).2 =
        bodyBytes (cache.entries.filter fun entry => !isReplacedBy response entry) := by
      rw [h.bytes]
      exact dropVariants_bytes 0
    simp only [dropVariants_entries, hbytes]
    generalize hkept : (cache.entries.filter fun entry => !isReplacedBy response entry) = kept
    have hmemKept : ∀ entry ∈ kept, entry ∈ cache.entries ∧ entry.Apart response := by
      intro entry hmem
      rw [← hkept] at hmem
      obtain ⟨hmem, hkeep⟩ := List.mem_filter.mp hmem
      exact ⟨hmem, apart_of_not_replaced hkeep⟩
    have hsum : bodyBytes kept + response.body.length = bodyBytes (kept ++ [response]) := by simp
    obtain ⟨hbytes, hentries, htotal⟩ := evict_limits hsum
    have hsuffix : (evict (kept ++ [response]) (bodyBytes kept + response.body.length)).entries <:+
        kept ++ [response] := evict_suffix
    refine ⟨hbytes, hentries, htotal, ?_, ?_⟩
    · apply List.Pairwise.sublist hsuffix.sublist
      rw [List.pairwise_append]
      refine ⟨?_, List.pairwise_singleton _ _, ?_⟩
      · rw [← hkept]
        exact h.apart.sublist List.filter_sublist
      · intro entry hmem other hother
        rw [List.mem_singleton.mp hother]
        exact (hmemKept entry hmem).2
    · intro partition outbound entry hmem hmatch
      apply latest_append hmatch
      rcases List.mem_append.mp (hsuffix.mem hmem) with hmem | hmem
      · obtain ⟨hmem, hapart⟩ := hmemKept entry hmem
        exact .inr ⟨hapart, h.latest partition outbound entry hmem hmatch⟩
      · exact .inl ⟨List.mem_singleton.mp hmem, Nat.le_of_not_lt hlen⟩

/-- The cache after a sequence of insertions. -/
def after (responses : List CachedResponse) : ResponseCache := responses.foldl insert empty

theorem holds_after (responses : List CachedResponse) : Holds responses (after responses) := by
  refine (Run.foldl insert empty responses).historyInvariant Holds .empty ?_
  rintro labels cache response _ h rfl
  exact h.insert response

theorem Holds.same_vary {responses : List CachedResponse} {cache : ResponseCache} (h : Holds responses cache)
    {first second : CachedResponse} (hfirst : first ∈ cache.entries) (hsecond : second ∈ cache.entries)
    (hpartition : first.partition = second.partition) : first.vary = second.vary := by
  have hforward : cache.entries.Pairwise fun first second =>
      first.partition = second.partition → first.vary = second.vary :=
    h.apart.imp fun hapart heq => (hapart heq).1
  have hback : cache.entries.Pairwise fun first second =>
      second.partition = first.partition → second.vary = first.vary :=
    hforward.imp fun hvary heq => (hvary heq.symm).symm
  exact hforward.forall_of_forall_of_flip (fun _ _ _ => rfl) hback hfirst hsecond hpartition

theorem Holds.filter_length {responses : List CachedResponse} {cache : ResponseCache} (h : Holds responses cache)
    (partition : Partition) (outbound : HeaderList) :
    (cache.entries.filter fun entry => entry.isMatch partition outbound).length ≤ 1 := by
  have hpair := h.apart.sublist (List.filter_sublist (p := fun entry => entry.isMatch partition outbound))
  cases hfound : cache.entries.filter fun entry => entry.isMatch partition outbound with
  | nil => exact Nat.zero_le _
  | cons first rest =>
    cases rest with
    | nil => exact Nat.le_refl _
    | cons second rest =>
      rw [hfound] at hpair
      have hmatch : ∀ entry ∈ first :: second :: rest, entry.isMatch partition outbound = true := by
        intro entry hmem
        rw [← hfound] at hmem
        exact (List.mem_filter.mp hmem).2
      have hapart := (List.pairwise_cons.mp hpair).1 second List.mem_cons_self
      have hboth := hapart.not_both (hmatch first List.mem_cons_self)
      rw [hmatch second (List.mem_cons_of_mem _ List.mem_cons_self)] at hboth
      cases hboth

/-- A lookup finds the entry that matches. -/
theorem Holds.lookup {responses : List CachedResponse} {cache : ResponseCache} (h : Holds responses cache)
    {request : FetchRequest} {outbound : HeaderList} (hmem : entry ∈ cache.entries)
    (hmatch : entry.isMatch (Partition.new request outbound) outbound = true) :
    cache.lookup request outbound = some entry := by
  have hfound : ∃ found, cache.entries.reverse.find?
      (fun entry => entry.isMatch (Partition.new request outbound) outbound) = some found := by
    rw [← Option.isSome_iff_exists, List.find?_isSome]
    exact ⟨entry, List.mem_reverse.mpr hmem, hmatch⟩
  obtain ⟨found, hfound⟩ := hfound
  have hfoundMatch : found.isMatch (Partition.new request outbound) outbound = true :=
    List.find?_some (p := fun entry => CachedResponse.isMatch entry (Partition.new request outbound) outbound) hfound
  have hlatest := h.latest _ _ found (List.mem_reverse.mp (List.mem_of_find?_eq_some hfound)) hfoundMatch
  rw [h.latest _ _ entry hmem hmatch] at hlatest
  rw [ResponseCache.lookup, hfound, ← Option.some.inj hlatest]
  rfl

/-- The store after any sequence of insertions: its bytes and limits, one `Vary` list in each
partition, one match for each request, and the lookup of the last response stored for it. -/
theorem response_cache_store (responses : List CachedResponse) :
    (after responses).bytes = bodyBytes (after responses).entries ∧
    (after responses).entries.length ≤ MAX_ENTRIES ∧
    (after responses).bytes ≤ MAX_TOTAL_BYTES ∧
    (∀ first ∈ (after responses).entries, ∀ second ∈ (after responses).entries,
      first.partition = second.partition → first.vary = second.vary) ∧
    (∀ partition outbound,
      ((after responses).entries.filter fun entry => entry.isMatch partition outbound).length ≤ 1) ∧
    ∀ request outbound, ∀ entry ∈ (after responses).entries,
      entry.isMatch (Partition.new request outbound) outbound = true →
        (after responses).lookup request outbound = some entry ∧
          (responses.filter (isStoredFor (Partition.new request outbound) outbound)).getLast? = some entry := by
  have h := holds_after responses
  exact ⟨h.bytes, h.entries_le, h.bytes_le, fun _ hfirst _ hsecond => h.same_vary hfirst hsecond, h.filter_length,
    fun request outbound entry hmem hmatch => ⟨h.lookup hmem hmatch, h.latest _ _ entry hmem hmatch⟩⟩

end ResponseCache

/-! ## Responses that are built -/

/-- A response as a candidate completes it, or as a 304 renews it. -/
inductive Built (rfc2822 : Str → Option Int) : CachedResponse → Prop
  | candidate {candidate : CacheCandidate} {now : Nat} {wallClock : Int} {request : FetchRequest}
      {outbound : HeaderList} {status : Nat} {headers : HeaderList} {requestedAt : Nat} (chunks : List (List UInt8)) :
      CacheCandidate.new rfc2822 now wallClock request outbound status headers requestedAt = some candidate →
        Built rfc2822 (chunks.foldl CacheCandidate.push candidate).response
  | revalidated {stored renewed : CachedResponse} {now : Nat} {wallClock : Int} {headers : HeaderList} :
      Built rfc2822 stored → stored.revalidated rfc2822 now wallClock headers = some renewed → Built rfc2822 renewed

theorem CachedResponse.revalidated_eq {stored renewed : CachedResponse} {rfc2822 : Str → Option Int} {now : Nat}
    {wallClock : Int} {headers : HeaderList}
    (h : stored.revalidated rfc2822 now wallClock headers = some renewed) :
    ∃ merged policy, headers.entries.foldlM mergeField stored.headers = some merged ∧
      CachePolicy.forResponse rfc2822 merged wallClock = some policy ∧
      renewed = { stored with
        headers := merged
        storedAt := now
        initialAge := policy.initialAge
        freshnessLifetime := policy.freshnessLifetime
        noCache := policy.noCache
        mustRevalidate := policy.mustRevalidate } := by
  rw [revalidated] at h
  obtain ⟨merged, hmerged, h⟩ := Option.bind_eq_some_iff.mp h
  obtain ⟨policy, hpolicy, h⟩ := Option.bind_eq_some_iff.mp h
  exact ⟨merged, policy, hmerged, hpolicy, (Option.some.inj h).symm⟩

end BetterWebBrowser.Http
