import BetterWebBrowser.Framework.Outcome
import BetterWebBrowser.RendererProtocol.Coalescing

/-!
# Bytes of one-shot resources

What a queued report occupies: its images, retirements and glyphs, and its runtime report as
it travels. A report that two others are merged into stays within the bound that the merge
was admitted under.
-/

namespace BetterWebBrowser.RendererProtocol

open Framework

namespace RuntimeReport

def runtimeBytes (value : RuntimeReport) : Nat := value.edgeBytes + snapshotBytes value value

theorem coalesce_eq_ok {previous next merged : RuntimeReport}
    (h : previous.coalesce next = .ok merged) :
    ∃ prior : List WheelAcknowledgement, prior.length = previous.wheelAcknowledgements.length ∧
      merged = mergeFields previous next (prior ++ next.wheelAcknowledgements) := by
  let prior := if next.viewportScrollY.isSome then clearDeltas previous.wheelAcknowledgements
    else previous.wheelAcknowledgements
  have hlength : prior.length = previous.wheelAcknowledgements.length := by
    simp only [prior]
    split
    next => exact List.length_map _
    next => rfl
  refine ⟨prior, hlength, ?_⟩
  rw [coalesce] at h
  obtain ⟨_, -, h⟩ := bind_eq_ok.mp h
  obtain ⟨_, -, h⟩ := bind_eq_ok.mp h
  generalize hcount : ((List.zipWith (· + ·) previous.entryCounts next.entryCounts).any
    fun total => decide (MAX_RUNTIME_REPORT_ENTRIES < total)) = count at h
  cases count with
  | true => cases h
  | false =>
    simp only [Bool.false_eq_true, if_false] at h
    by_cases hack : previous.historyTraversalAck.isSome ∧ next.historyTraversalAck.isSome ∧
        previous.historyTraversalAck ≠ next.historyTraversalAck
    · rw [if_pos hack] at h
      cases h
    rw [if_neg hack] at h
    by_cases hrejection : previous.nativeTextRejection.isSome ∧ next.nativeTextRejection.isSome
    · rw [if_pos hrejection] at h
      cases h
    rw [if_neg hrejection] at h
    exact (Except.ok.inj h).symm

private theorem edgeBytes_mergeFields (previous next : RuntimeReport)
    (prior : List WheelAcknowledgement)
    (h : prior.length = previous.wheelAcknowledgements.length) :
    (mergeFields previous next (prior ++ next.wheelAcknowledgements)).edgeBytes =
      previous.edgeBytes + next.edgeBytes := by
  simp only [edgeBytes, mergeFields, List.map_append, List.sum_append, List.length_append, h]
  omega

private theorem snapshotBytes_mergeFields (previous next : RuntimeReport)
    (wheel : List WheelAcknowledgement) :
    snapshotBytes (mergeFields previous next wheel) (mergeFields previous next wheel) =
      snapshotBytes previous next := by
  have hlatest : ∀ {A : Type} (later earlier : Option A),
      (if later.isNone then earlier else later) = later.or earlier := by
    intro A later earlier
    cases later <;> rfl
  simp only [snapshotBytes, mergeFields, hlatest, Option.or_self]
  cases hurl : next.navigationUrl with
  | none => simp
  | some url => simp [hurl]

theorem runtimeBytes_coalesce {previous next merged : RuntimeReport}
    (h : previous.coalesce next = .ok merged) :
    merged.runtimeBytes = previous.edgeBytes + next.edgeBytes + snapshotBytes previous next := by
  obtain ⟨prior, hlength, rfl⟩ := coalesce_eq_ok h
  rw [runtimeBytes, edgeBytes_mergeFields _ _ _ hlength, snapshotBytes_mergeFields]

theorem mergedRuntimeBytes_eq_some {previous next : RuntimeReport} {bytes : Nat}
    (h : previous.mergedRuntimeBytes next = some bytes) :
    bytes = previous.edgeBytes + next.edgeBytes + snapshotBytes previous next := by
  rw [mergedRuntimeBytes] at h
  split at h
  next => cases h
  next =>
    split at h
    next => cases h
    next =>
      split at h
      next => cases h
      next => exact (Option.some.inj h).symm

end RuntimeReport

/-! ## Runtime updates -/

namespace RendererRuntimeUpdate

def oneShotResourceBytes (value : RendererRuntimeUpdate) : Nat :=
  value.runtimeUpdateOverhead + value.runtime.runtimeBytes

/-- Both updates in order, or one that was admitted. -/
theorem coalesce_eq_ok {previous next : RendererRuntimeUpdate}
    {result : RendererRuntimeUpdate × Option RendererRuntimeUpdate}
    (h : previous.coalesce next = .ok result) :
    result = (previous, some next) ∨
      mergeIsBounded previous next = true ∧ ∃ runtime, previous.runtime.coalesce next.runtime = .ok runtime ∧
        result = ({ next with
          clockAdvanced := next.clockAdvanced || previous.clockAdvanced
          runtime := runtime
          load := previous.load.coalesce next.load }, none) := by
  rw [coalesce] at h
  by_cases hdocument : previous.document ≠ next.document
  · rw [if_pos hdocument] at h
    cases h
  rw [if_neg hdocument] at h
  by_cases hbounded : ¬ mergeIsBounded previous next = true
  · rw [if_pos hbounded] at h
    cases h
    exact .inl rfl
  · rw [if_neg hbounded] at h
    obtain ⟨runtime, hruntime, h⟩ := bind_eq_ok.mp h
    cases h
    exact .inr ⟨not_not.mp hbounded, runtime, hruntime, rfl⟩

theorem coalesce_split {previous next first second : RendererRuntimeUpdate}
    (h : previous.coalesce next = .ok (first, some second)) : first = previous ∧ second = next := by
  obtain heq | ⟨-, runtime, -, heq⟩ := coalesce_eq_ok h
  · cases heq
    exact ⟨rfl, rfl⟩
  · cases heq

theorem coalesce_document {previous next merged : RendererRuntimeUpdate}
    (h : previous.coalesce next = .ok (merged, none)) : merged.document = next.document := by
  obtain heq | ⟨-, runtime, -, heq⟩ := coalesce_eq_ok h
  · cases heq
  · cases heq
    rfl

theorem oneShotResourceBytes_coalesce {previous next merged : RendererRuntimeUpdate}
    (h : previous.coalesce next = .ok (merged, none)) :
    merged.oneShotResourceBytes ≤ MAX_CONTROL_PAYLOAD := by
  obtain heq | ⟨hbounded, runtime, hruntime, heq⟩ := coalesce_eq_ok h
  · cases heq
  · cases heq
    have hsize := RuntimeReport.runtimeBytes_coalesce hruntime
    rw [mergeIsBounded] at hbounded
    split at hbounded
    next => cases hbounded
    next =>
      split at hbounded
      next bytes hbytes =>
        rw [RuntimeReport.mergedRuntimeBytes_eq_some hbytes, decide_eq_true_eq] at hbounded
        rw [oneShotResourceBytes, hsize, Nat.add_comm]
        exact hbounded
      next => cases hbounded

end RendererRuntimeUpdate

/-! ## Presentations -/

namespace RendererPresentation

variable {Content : Type}

def imageBytes (image : PresentedImage) : Nat := Str.byteLen image.url + 16 + image.image.bgra.length

def keyBytes (key : Str) : Nat := Str.byteLen key + 4

def glyphBytes (glyph : PresentedGlyphRaster) : Nat := 17 + glyph.image.bgra.length

def resourceBytes (value : RendererPresentation Content) : Nat :=
  20 + (value.images.map imageBytes).sum + (value.retiredImageKeys.map keyBytes).sum +
    (value.glyphs.map glyphBytes).sum

def oneShotResourceBytes (value : RendererPresentation Content) : Nat :=
  value.resourceBytes + value.runtime.runtimeBytes

/-- No image is retired together with its update. -/
def KeysApart (value : RendererPresentation Content) : Prop :=
  ∀ image ∈ value.images, image.url ∉ value.retiredImageKeys

theorem keysApart_of_validate {keys : List Str} {images : List PresentedImage}
    (h : validateRetiredKeys keys images = .ok ()) : ∀ image ∈ images, image.url ∉ keys := by
  rw [validateRetiredKeys] at h
  split at h
  next => cases h
  next =>
    split at h
    next => cases h
    next hpassed =>
      intro image himage hkey
      exact hpassed (.inl ⟨image.url, hkey, .inr (.inr ⟨image, himage, rfl⟩)⟩)

private theorem sum_map_reverse {A : Type} (f : A → Nat) (l : List A) :
    (l.reverse.map f).sum = (l.map f).sum := by
  rw [List.map_reverse, List.sum_reverse]

/-- The bytes admitted are those of the resources that the merge makes. -/
theorem resourceBytes_mergeResources {previous next : RendererPresentation Content} {bytes : Nat}
    (hnext : next.KeysApart) (h : mergedBytes previous next = some bytes) :
    (previous.mergeResources next).resourceBytes = bytes := by
  rw [mergedBytes] at h
  split at h
  next =>
    rw [← Option.some.inj h]
    have himages : (next.images.reverse ++ previous.images.reverse).filter
        (fun image => decide (image.url ∉ next.retiredImageKeys)) =
        (previous.images.filter (fun image => decide (image.url ∉ next.retiredImageKeys)) ++
          next.images).reverse := by
      have hkept : next.images.filter (fun image => decide (image.url ∉ next.retiredImageKeys)) =
          next.images := by
        rw [List.filter_eq_self]
        intro image hmem
        exact decide_eq_true (hnext image hmem)
      rw [List.filter_append, List.reverse_append, List.filter_reverse, List.filter_reverse, hkept]
    have hretired : ((previous.retiredImageKeys ++ next.retiredImageKeys).filter
        fun key => decide (key ∉ next.imageUrls)) =
        (previous.retiredImageKeys.filter fun key => decide (key ∉ next.imageUrls)) ++
          next.retiredImageKeys := by
      rw [List.filter_append]
      congr 1
      rw [List.filter_eq_self]
      intro key hmem
      refine decide_eq_true fun hurl => ?_
      obtain ⟨image, himage, rfl⟩ := List.mem_map.mp hurl
      exact hnext image himage hmem
    have hglyphs : next.glyphs.reverse ++ (previous.glyphs.filter
        (fun _ => decide (previous.glyphEpoch = next.glyphEpoch))).reverse =
        (if previous.glyphEpoch = next.glyphEpoch then previous.glyphs ++ next.glyphs
          else next.glyphs).reverse := by
      by_cases hepoch : previous.glyphEpoch = next.glyphEpoch
      · simp [hepoch]
      · simp [hepoch]
    have hkeys : ((OrdMap.setOf ((previous.retiredImageKeys.filter
        fun key => decide (key ∉ next.imageUrls)) ++ next.retiredImageKeys)).keys).Perm
        (OrdMap.retainFirst id [] ((previous.retiredImageKeys.filter
          fun key => decide (key ∉ next.imageUrls)) ++ next.retiredImageKeys)) := by
      have hnodup := OrdMap.nodup_map_retainFirst id [] ((previous.retiredImageKeys.filter
          fun key => decide (key ∉ next.imageUrls)) ++ next.retiredImageKeys)
      rw [List.map_id] at hnodup
      rw [List.perm_ext_iff_of_nodup (OrdMap.nodup_keys _) hnodup]
      intro key
      have hmem := OrdMap.mem_map_retainFirst id [] ((previous.retiredImageKeys.filter
          fun key => decide (key ∉ next.imageUrls)) ++ next.retiredImageKeys) key
      rw [List.map_id, List.map_id] at hmem
      rw [OrdMap.mem_keys, OrdMap.contains_setOf, hmem]
      simp
    rw [himages, hretired, hglyphs, resourceBytes, mergeResources]
    simp only [sum_map_reverse, (hkeys.map keyBytes).sum_eq]
    rfl
  next => cases h

/-- Images and retirements stay apart. -/
theorem keysApart_mergeResources {previous next : RendererPresentation Content}
    (hprevious : previous.KeysApart) (hnext : next.KeysApart) :
    (previous.mergeResources next).KeysApart := by
  intro image himage hkey
  have himage := (OrdMap.retainFirst_sublist _ _ _).subset (List.mem_reverse.mp himage)
  rw [List.mem_reverse, List.mem_append, List.mem_filter, decide_eq_true_eq] at himage
  have hkey := (OrdMap.contains_setOf _ _).mp ((OrdMap.mem_keys _ _).mp hkey)
  rw [List.mem_append, List.mem_filter, decide_eq_true_eq] at hkey
  obtain ⟨himage, hkept⟩ | himage := himage
  · obtain ⟨hkey, -⟩ | hkey := hkey
    · exact hprevious image himage hkey
    · exact hkept hkey
  · obtain ⟨-, hkept⟩ | hkey := hkey
    · exact hkept (List.mem_map_of_mem himage)
    · exact hnext image himage hkey

/-- Both presentations in order, or one that was admitted. -/
theorem coalesce_eq_ok {previous next : RendererPresentation Content}
    {result : RendererPresentation Content × Option (RendererPresentation Content)}
    (h : previous.coalesce next = .ok result) :
    result = (previous, some next) ∨
      mergeIsBounded previous next = true ∧ ∃ runtime accessibility,
        previous.runtime.coalesce next.runtime = .ok runtime ∧
        result = ({ previous.mergeResources next with
          accessibility := accessibility
          clockAdvanced := next.clockAdvanced || previous.clockAdvanced
          runtime := runtime
          style := previous.style.coalesce next.style
          load := previous.load.coalesce next.load }, none) := by
  rw [coalesce] at h
  by_cases hdocument : previous.document ≠ next.document
  · rw [if_pos hdocument] at h
    cases h
  rw [if_neg hdocument] at h
  by_cases hrevision : next.revision ≤ previous.revision
  · rw [if_pos hrevision] at h
    cases h
  rw [if_neg hrevision] at h
  by_cases hbounded : ¬ mergeIsBounded previous next = true
  · rw [if_pos hbounded] at h
    cases h
    exact .inl rfl
  · rw [if_neg hbounded] at h
    obtain ⟨accessibility, -, h⟩ := bind_eq_ok.mp h
    obtain ⟨runtime, hruntime, h⟩ := bind_eq_ok.mp h
    cases h
    exact .inr ⟨not_not.mp hbounded, runtime, accessibility, hruntime, rfl⟩

theorem coalesce_split {previous next first second : RendererPresentation Content}
    (h : previous.coalesce next = .ok (first, some second)) : first = previous ∧ second = next := by
  obtain heq | ⟨-, runtime, accessibility, -, heq⟩ := coalesce_eq_ok h
  · cases heq
    exact ⟨rfl, rfl⟩
  · cases heq

theorem coalesce_document {previous next merged : RendererPresentation Content}
    (h : previous.coalesce next = .ok (merged, none)) : merged.document = next.document := by
  obtain heq | ⟨-, runtime, accessibility, -, heq⟩ := coalesce_eq_ok h
  · cases heq
  · cases heq
    rfl

theorem keysApart_coalesce {previous next merged : RendererPresentation Content}
    (h : previous.coalesce next = .ok (merged, none)) (hprevious : previous.KeysApart)
    (hnext : next.KeysApart) : merged.KeysApart := by
  obtain heq | ⟨-, runtime, accessibility, -, heq⟩ := coalesce_eq_ok h
  · cases heq
  · cases heq
    exact keysApart_mergeResources hprevious hnext

theorem oneShotResourceBytes_coalesce {previous next merged : RendererPresentation Content}
    (h : previous.coalesce next = .ok (merged, none)) (hnext : next.KeysApart) :
    merged.oneShotResourceBytes ≤ MAX_RENDERER_PRESENTATION_BYTES := by
  obtain heq | ⟨hbounded, runtime, accessibility, hruntime, heq⟩ := coalesce_eq_ok h
  · cases heq
  · cases heq
    have hsize := RuntimeReport.runtimeBytes_coalesce hruntime
    rw [mergeIsBounded] at hbounded
    split at hbounded
    next => cases hbounded
    next =>
      split at hbounded
      next => cases hbounded
      next =>
        split at hbounded
        next resources bytes hmerged hbytes =>
          rw [RuntimeReport.mergedRuntimeBytes_eq_some hbytes, decide_eq_true_eq] at hbounded
          rw [← resourceBytes_mergeResources hnext hmerged] at hbounded
          rw [oneShotResourceBytes, hsize]
          exact hbounded
        next => cases hbounded

end RendererPresentation

end BetterWebBrowser.RendererProtocol
