import BetterWebBrowser.Http.CacheInvariants

/-!
# Revalidation

A 304 response renews a stored one. The fields that it names should be replaced by all of its lines
for them, and everything that the store derives from the header list should be derived again. The
code keeps the last line of a field and the old `Vary` list.
-/

namespace BetterWebBrowser.Http

open Framework

namespace HeaderList

instance (header : Header) : Decidable header.Normal :=
  decidable_of_iff (Str.toAsciiLowercase header.name = header.name ∧
      (normalizeValue header.value).toOption = some header.value)
    ⟨fun h => ⟨h.1, by
        cases hvalue : normalizeValue header.value with
        | ok value => rw [hvalue] at h; exact congrArg _ (Option.some.inj h.2)
        | error message => rw [hvalue] at h; cases h.2⟩,
      fun h => ⟨h.name, by rw [h.value]; rfl⟩⟩

/-- The lines of a field that a 304 replaces. -/
def replacing (headers : HeaderList) (name : Str) : List Header :=
  headers.entries.filter fun header => !CachedResponse.isRetainedField header.name && named name header

/-- The stored lines of the fields that the 304 does not name, and all of its other lines. -/
def complete (stored headers : HeaderList) : HeaderList where
  entries := (stored.entries.filter fun header => (headers.replacing header.name).isEmpty) ++
    headers.entries.filter fun header => !CachedResponse.isRetainedField header.name
  normal := by
    intro header hmem
    rcases List.mem_append.mp hmem with hmem | hmem
    · exact stored.normal header (List.mem_filter.mp hmem).1
    · exact headers.normal header (List.mem_filter.mp hmem).1

theorem named_congr {name other : Str} (h : Str.toAsciiLowercase name = Str.toAsciiLowercase other)
    (header : Header) : named name header = named other header := by
  rw [named, named, Str.eqIgnoreAsciiCase, Str.eqIgnoreAsciiCase, h]

theorem named_self {header : Header} (h : header.Normal) {name : Str} (hnamed : named name header = true) :
    header.name = Str.toAsciiLowercase name := by
  rw [named_normal h, decide_eq_true_eq] at hnamed
  exact hnamed

theorem values_complete (stored headers : HeaderList) (name : Str) :
    (complete stored headers).values name =
      if (headers.replacing name).isEmpty then stored.values name
      else (headers.replacing name).map Header.value := by
  have hlater : (headers.entries.filter fun header => !CachedResponse.isRetainedField header.name).filter
      (named name) = headers.replacing name := by
    rw [List.filter_filter, replacing]
    apply List.filter_congr
    intro header _
    exact Bool.and_comm _ _
  have hearlier : (stored.entries.filter fun header => (headers.replacing header.name).isEmpty).filter (named name) =
      if (headers.replacing name).isEmpty then stored.entries.filter (named name) else [] := by
    have hsame : ∀ header ∈ stored.entries, named name header = true →
        headers.replacing header.name = headers.replacing name := by
      intro header hmem hnamed
      rw [replacing, replacing]
      apply List.filter_congr
      intro other _
      have hlower : Str.toAsciiLowercase header.name = Str.toAsciiLowercase name := by
        rw [named_self (stored.normal header hmem) hnamed, Str.toAsciiLowercase_toAsciiLowercase]
      rw [named_congr hlower]
    rw [List.filter_filter]
    split
    · rename_i hempty
      apply List.filter_congr
      intro header hmem
      cases hnamed : named name header with
      | false => rfl
      | true => rw [hsame header hmem hnamed, hempty]; rfl
    · rename_i hempty
      rw [List.filter_eq_nil_iff]
      intro header hmem hboth
      obtain ⟨hnamed, hnone⟩ := Bool.and_eq_true_iff.mp hboth
      rw [hsame header hmem hnamed] at hnone
      exact hempty hnone
  rw [values, complete, List.filter_append, List.map_append, hlater, hearlier]
  split
  · rename_i hempty
    rw [List.isEmpty_iff.mp hempty, List.map_nil, List.append_nil, values]
  · rw [List.map_nil, List.nil_append]

theorem replacing_of_retained (headers : HeaderList) {name : Str}
    (h : CachedResponse.isRetainedField (Str.toAsciiLowercase name) = true) : headers.replacing name = [] := by
  rw [replacing, List.filter_eq_nil_iff]
  intro header hmem hboth
  obtain ⟨hfield, hnamed⟩ := Bool.and_eq_true_iff.mp hboth
  rw [named_self (headers.normal header hmem) hnamed, h] at hfield
  cases hfield

theorem replacing_map (headers : HeaderList) {name : Str}
    (h : CachedResponse.isRetainedField (Str.toAsciiLowercase name) = false) :
    (headers.replacing name).map Header.value = headers.values name := by
  rw [values, replacing]
  congr 1
  apply List.filter_congr
  intro header hmem
  cases hnamed : named name header with
  | false => exact Bool.and_false _
  | true =>
    rw [named_self (headers.normal header hmem) hnamed, h]
    rfl

theorem contains_iff (headers : HeaderList) (name : Str) :
    headers.contains name = true ↔ headers.values name ≠ [] := by
  rw [contains, get_eq_head?]
  cases headers.values name <;> simp

end HeaderList

/-! ## Fields after the merge -/

namespace CachedResponse

/-- After the merge a field that the 304 names has the last of its lines. -/
theorem values_merged {stored merged : HeaderList} {entries : List Header}
    (hnormal : ∀ header ∈ entries, header.Normal) (h : entries.foldlM mergeField stored = some merged) (name : Str) :
    merged.values name =
      match (entries.filter fun header => !isRetainedField header.name && HeaderList.named name header).getLast? with
      | some header => [header.value]
      | none => stored.values name := by
  induction entries generalizing stored with
  | nil => rw [← Option.some.inj h]; rfl
  | cons header entries ih =>
    rw [List.foldlM_cons] at h
    obtain ⟨next, hnext, h⟩ := Option.bind_eq_some_iff.mp h
    rw [ih (fun other hmem => hnormal other (List.mem_cons_of_mem _ hmem)) h]
    rw [mergeField] at hnext
    have hheader : header.Normal := hnormal header List.mem_cons_self
    by_cases hretained : isRetainedField header.name = true
    · rw [if_pos hretained] at hnext
      rw [← Option.some.inj hnext, List.filter_cons_of_neg (by simp [hretained])]
    · rw [if_neg hretained] at hnext
      have hset : stored.set header.name header.value = .ok next := by
        cases hset : stored.set header.name header.value with
        | ok next' => rw [hset] at hnext; exact congrArg _ (Option.some.inj hnext)
        | error message => rw [hset] at hnext; cases hnext
      have hvalues := HeaderList.values_set hheader hset name
      by_cases hnamed : HeaderList.named name header = true
      · rw [if_pos (HeaderList.named_self hheader hnamed).symm] at hvalues
        rw [List.filter_cons_of_pos (by simp [hretained, hnamed]), hvalues]
        cases hrest : entries.filter fun header => !isRetainedField header.name && HeaderList.named name header with
        | nil => rfl
        | cons first rest => rw [List.getLast?_cons_cons, List.getLast?_cons]
      · have hother : ¬ Str.toAsciiLowercase name = header.name := by
          intro heq
          apply hnamed
          rw [HeaderList.named_normal hheader, heq]
          exact decide_eq_true rfl
        rw [if_neg hother] at hvalues
        rw [List.filter_cons_of_neg (by simp [hnamed]), hvalues]

end CachedResponse

/-! ## The policy -/

section Congr

variable {first second : HeaderList} (h : ∀ name, first.values name = second.values name)
include h

theorem get_congr (name : Str) : first.get name = second.get name := by
  rw [HeaderList.get_eq_head?, HeaderList.get_eq_head?, h]

theorem hasDirective_congr (name : String) : hasDirective first name = hasDirective second name := by
  rw [hasDirective, hasDirective, cacheControlParts, cacheControlParts, h]

theorem directiveSeconds_congr (name : String) : directiveSeconds first name = directiveSeconds second name := by
  rw [directiveSeconds, directiveSeconds, cacheControlParts, cacheControlParts, h]

theorem contains_congr (name : Str) : first.contains name = second.contains name := by
  rw [HeaderList.contains, HeaderList.contains, get_congr h]

theorem responseLifetime_congr (rfc2822 : Str → Option Int) (receivedAt : Int) :
    responseLifetime rfc2822 first receivedAt = responseLifetime rfc2822 second receivedAt := by
  rw [responseLifetime, responseLifetime, directiveSeconds_congr h, get_congr h, get_congr h]

theorem responseAge_congr (rfc2822 : Str → Option Int) (receivedAt : Int) :
    responseAge rfc2822 first receivedAt = responseAge rfc2822 second receivedAt := by
  rw [responseAge, responseAge, get_congr h, get_congr h]

/-- The policy reads the values of fields only. -/
theorem forResponse_congr (rfc2822 : Str → Option Int) (receivedAt : Int) :
    CachePolicy.forResponse rfc2822 first receivedAt = CachePolicy.forResponse rfc2822 second receivedAt := by
  rw [CachePolicy.forResponse, CachePolicy.forResponse, hasDirective_congr h, responseLifetime_congr h,
    responseAge_congr h, contains_congr h, contains_congr h, hasDirective_congr h, hasDirective_congr h]

theorem varyFields_congr : varyFields first = varyFields second := by
  rw [varyFields, varyFields, h]

end Congr

/-- The whole policy of a renewed response is that of the complete new header list. -/
structure Renewed (rfc2822 : Str → Option Int) (wallClock : Int) (stored : CachedResponse) (headers : HeaderList)
    (renewed : CachedResponse) : Prop where
  replaced : ∀ name, CachedResponse.isRetainedField (Str.toAsciiLowercase name) = false →
    headers.contains name = true → renewed.headers.values name = headers.values name
  kept : ∀ name, headers.contains name = false → renewed.headers.values name = stored.headers.values name
  body : renewed.body = stored.body
  vary : varyFields renewed.headers = some renewed.vary
  noStore : hasDirective headers "no-store" = false
  policy : CachePolicy.forResponse rfc2822 (HeaderList.complete stored.headers headers) wallClock =
    some ⟨renewed.freshnessLifetime, renewed.initialAge, renewed.noCache, renewed.mustRevalidate⟩

section Revalidated

variable {rfc2822 : Str → Option Int} {now : Nat} {wallClock : Int} {stored renewed : CachedResponse}
  {headers : HeaderList}

/-- If no field is repeated, the merge gives the complete header list. -/
private theorem merged_eq_complete {merged : HeaderList}
    (hsingle : ∀ name, CachedResponse.isRetainedField (Str.toAsciiLowercase name) = false →
      (headers.values name).length ≤ 1)
    (h : headers.entries.foldlM CachedResponse.mergeField stored.headers = some merged) (name : Str) :
    merged.values name = (HeaderList.complete stored.headers headers).values name := by
  have hlength : (headers.replacing name).length ≤ 1 := by
    cases hretained : CachedResponse.isRetainedField (Str.toAsciiLowercase name) with
    | true =>
      rw [HeaderList.replacing_of_retained headers hretained]
      exact Nat.zero_le _
    | false =>
      rw [← List.length_map Header.value, HeaderList.replacing_map headers hretained]
      exact hsingle name hretained
  rw [CachedResponse.values_merged headers.normal h, HeaderList.values_complete]
  change (match (headers.replacing name).getLast? with
    | some header => [header.value]
    | none => stored.headers.values name) = _
  cases hlines : headers.replacing name with
  | nil => rfl
  | cons first rest =>
    cases rest with
    | nil => rfl
    | cons second rest =>
      rw [hlines] at hlength
      exact absurd hlength (by simp)

/-- Every field that the 304 names has one line after the merge. -/
private theorem merged_length {merged : HeaderList}
    (h : headers.entries.foldlM CachedResponse.mergeField stored.headers = some merged) {name : Str}
    (hretained : CachedResponse.isRetainedField (Str.toAsciiLowercase name) = false)
    (hmem : headers.values name ≠ []) : (merged.values name).length = 1 := by
  rw [CachedResponse.values_merged headers.normal h]
  change (match (headers.replacing name).getLast? with
    | some header => [header.value]
    | none => stored.headers.values name).length = 1
  cases hlast : (headers.replacing name).getLast? with
  | none =>
    rw [List.getLast?_eq_none_iff] at hlast
    rw [← HeaderList.replacing_map headers hretained, hlast] at hmem
    exact absurd rfl hmem
  | some header => rfl

/-- A renewed response has the whole policy exactly if the 304 repeats no field that it replaces and
the complete header list still has the stored `Vary` list. -/
theorem revalidated_keeps_policy_iff
    (h : stored.revalidated rfc2822 now wallClock headers = some renewed) :
    Renewed rfc2822 wallClock stored headers renewed ↔
      (∀ name, CachedResponse.isRetainedField (Str.toAsciiLowercase name) = false →
        (headers.values name).length ≤ 1) ∧
      varyFields (HeaderList.complete stored.headers headers) = some stored.vary := by
  obtain ⟨merged, policy, hmerged, hpolicy, rfl⟩ := CachedResponse.revalidated_eq h
  constructor
  · intro hrenewed
    have hsingle : ∀ name, CachedResponse.isRetainedField (Str.toAsciiLowercase name) = false →
        (headers.values name).length ≤ 1 := by
      intro name hretained
      by_cases hmem : headers.values name = []
      · rw [hmem]
        exact Nat.zero_le _
      · have hreplaced : merged.values name = headers.values name :=
          hrenewed.replaced name hretained ((HeaderList.contains_iff headers name).mpr hmem)
        rw [← hreplaced, merged_length hmerged hretained hmem]
    refine ⟨hsingle, ?_⟩
    rw [← varyFields_congr (merged_eq_complete hsingle hmerged)]
    exact hrenewed.vary
  · rintro ⟨hsingle, hvary⟩
    have hcomplete := merged_eq_complete hsingle hmerged
    have hreplaced : ∀ name, CachedResponse.isRetainedField (Str.toAsciiLowercase name) = false →
        headers.contains name = true → merged.values name = headers.values name := by
      intro name hretained hmem
      rw [hcomplete, HeaderList.values_complete, HeaderList.replacing_map headers hretained, if_neg]
      rw [List.isEmpty_iff, ← List.map_eq_nil_iff, HeaderList.replacing_map headers hretained]
      exact (HeaderList.contains_iff headers name).mp hmem
    refine ⟨hreplaced, ?_, rfl, ?_, ?_, ?_⟩
    · intro name hnone
      have hempty : headers.replacing name = [] := by
        cases hretained : CachedResponse.isRetainedField (Str.toAsciiLowercase name) with
        | true => exact HeaderList.replacing_of_retained headers hretained
        | false =>
          rw [← List.map_eq_nil_iff, HeaderList.replacing_map headers hretained]
          by_contra hmem
          rw [(HeaderList.contains_iff headers name).mpr hmem] at hnone
          cases hnone
      change merged.values name = _
      rw [hcomplete, HeaderList.values_complete, hempty]
      rfl
    · change varyFields merged = _
      rw [varyFields_congr hcomplete, hvary]
    · -- a `no-store` of the 304 would have refused the merged list
      by_contra hstore
      rw [Bool.not_eq_false] at hstore
      have hmem : headers.contains "cache-control".toList = true := by
        rw [HeaderList.contains_iff]
        intro hnone
        rw [hasDirective, cacheControlParts, hnone] at hstore
        cases hstore
      have hsame := hreplaced "cache-control".toList (by decide) hmem
      have hrefused : hasDirective merged "no-store" = true := by
        rw [hasDirective, cacheControlParts, hsame]
        exact hstore
      rw [CachePolicy.forResponse, if_pos hrefused] at hpolicy
      cases hpolicy
    · rw [← forResponse_congr hcomplete, hpolicy]

end Revalidated

/-! ## Repeated fields -/

private def sampleStored : CachedResponse where
  partition := ⟨"https://a.test/".toList, none, .subresource, .fetch, .cors, .omit, none, none⟩
  vary := []
  requestHeaders := .new
  status := 200
  headers := ⟨[⟨"etag".toList, "v1".toList⟩, ⟨"cache-control".toList, "max-age=5".toList⟩], by decide +kernel⟩
  body := [1]
  storedAt := 0
  initialAge := 0
  freshnessLifetime := fromSecs 5
  noCache := false
  mustRevalidate := false

private def sampleRenewal : HeaderList := ⟨[⟨"cache-control".toList, "no-cache".toList⟩], by decide +kernel⟩

private def sampleRepeated : HeaderList :=
  ⟨[⟨"cache-control".toList, "no-store".toList⟩, ⟨"cache-control".toList, "max-age=60".toList⟩], by decide +kernel⟩

/-- One new `Cache-Control` line renews the whole policy. -/
theorem revalidated_keeps_policy_sample :
    ∃ renewed, sampleStored.revalidated (fun _ => none) 1 0 sampleRenewal = some renewed ∧
      (Renewed (fun _ => none) 0 sampleStored sampleRenewal renewed ↔
        (∀ name, CachedResponse.isRetainedField (Str.toAsciiLowercase name) = false →
          (sampleRenewal.values name).length ≤ 1) ∧
        varyFields (HeaderList.complete sampleStored.headers sampleRenewal) = some sampleStored.vary) := by
  obtain ⟨renewed, h⟩ := Option.isSome_iff_exists.mp
    (show (sampleStored.revalidated (fun _ => none) 1 0 sampleRenewal).isSome = true by decide +kernel)
  exact ⟨renewed, h, revalidated_keeps_policy_iff h⟩

/-- A 304 that forbids storing on one line and allows it on another is stored. -/
theorem repeated_no_store_is_stored :
    ∃ renewed, sampleStored.revalidated (fun _ => none) 1 0 sampleRepeated = some renewed ∧
      ¬ Renewed (fun _ => none) 0 sampleStored sampleRepeated renewed := by
  obtain ⟨renewed, h⟩ := Option.isSome_iff_exists.mp
    (show (sampleStored.revalidated (fun _ => none) 1 0 sampleRepeated).isSome = true by decide +kernel)
  refine ⟨renewed, h, fun hrenewed => ?_⟩
  have hstore : hasDirective sampleRepeated "no-store" = true := by decide +kernel
  rw [hrenewed.noStore] at hstore
  cases hstore

end BetterWebBrowser.Http
