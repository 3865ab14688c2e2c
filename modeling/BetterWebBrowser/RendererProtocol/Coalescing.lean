import BetterWebBrowser.RendererProtocol.Report

/-!
# Coalescing queued reports

Two adjacent undelivered reports of one document become one, unless the result would exceed
a bound of the wire format or lose an observable step; then both are delivered in order.
Sizes are exact sums: the source saturates them at `2^64`, far above the bounds they are
compared with.
-/

namespace BetterWebBrowser.RendererProtocol

open Framework

/-- Largest finite single-precision number. -/
def F32_MAX : ℚ := (2 ^ 24 - 1) * 2 ^ 104

def clampF32 (value : ℚ) : ℚ := max (-F32_MAX) (min F32_MAX value)

/-! ## Runtime reports -/

namespace RuntimeReport

/-- Contributions superseded by a later absolute scroll. -/
def clearDeltas (values : List WheelAcknowledgement) : List WheelAcknowledgement :=
  values.map fun value => { value with viewportDeltaY := 0 }

def entryCounts (report : RuntimeReport) : List Nat :=
  [report.errors.length, report.console.length, report.diagnostics.length,
    report.historyActions.length, report.cookieUpdates.length]

/-- Field by field: append, last known value, sum, or the later snapshot. -/
def mergeFields (self next : RuntimeReport) (wheelAcknowledgements : List WheelAcknowledgement) :
    RuntimeReport where
  scriptsExecuted := saturatingAdd self.scriptsExecuted next.scriptsExecuted
  domMutations := saturatingAdd self.domMutations next.domMutations
  errors := self.errors ++ next.errors
  console := self.console ++ next.console
  diagnostics := self.diagnostics ++ next.diagnostics
  navigationUrl := if next.navigationUrl.isNone then self.navigationUrl else next.navigationUrl
  navigationOptions :=
    if next.navigationUrl.isNone then self.navigationOptions else next.navigationOptions
  viewportScrollY :=
    if next.viewportScrollY.isNone then self.viewportScrollY else next.viewportScrollY
  viewportWheelDeltaY :=
    if next.viewportScrollY.isNone then
      clampF32 (self.viewportWheelDeltaY + next.viewportWheelDeltaY)
    else next.viewportWheelDeltaY
  wheelAcknowledgements := wheelAcknowledgements
  wheelHasBlockingListeners :=
    if next.wheelHasBlockingListeners.isNone then self.wheelHasBlockingListeners
    else next.wheelHasBlockingListeners
  wheelHasNestedScroll :=
    if next.wheelHasNestedScroll.isNone then self.wheelHasNestedScroll
    else next.wheelHasNestedScroll
  historyActions := self.historyActions ++ next.historyActions
  historyTraversalAck :=
    if next.historyTraversalAck.isNone then self.historyTraversalAck
    else next.historyTraversalAck
  nativeTextRejection :=
    if next.nativeTextRejection.isNone then self.nativeTextRejection
    else next.nativeTextRejection
  cookieUpdates := self.cookieUpdates ++ next.cookieUpdates
  runtimeActive := next.runtimeActive
  runtimeStopped := next.runtimeStopped || self.runtimeStopped
  renderRequested := next.renderRequested || self.renderRequested
  media := next.media

def coalesce (self next : RuntimeReport) : ProtocolResult RuntimeReport := do
  validateWheel self.wheelAcknowledgements
  let prior := if next.viewportScrollY.isSome then clearDeltas self.wheelAcknowledgements
    else self.wheelAcknowledgements
  let wheelAcknowledgements := prior ++ next.wheelAcknowledgements
  validateWheel wheelAcknowledgements
  if (List.zipWith (· + ·) self.entryCounts next.entryCounts).any
      fun total => decide (MAX_RUNTIME_REPORT_ENTRIES < total) then
    throw (.InvalidPayload "coalesced runtime entry count")
  if self.historyTraversalAck.isSome ∧ next.historyTraversalAck.isSome ∧
      self.historyTraversalAck ≠ next.historyTraversalAck then
    throw (.InvalidPayload "coalesced history acknowledgements")
  if self.nativeTextRejection.isSome ∧ next.nativeTextRejection.isSome then
    throw (.InvalidPayload "coalesced native text rejections")
  return mergeFields self next wheelAcknowledgements

end RuntimeReport

/-! ## Counters -/

def InvalidationFallbacks.saturatingAdd (self other : InvalidationFallbacks) :
    InvalidationFallbacks where
  siblingCombinator := RendererProtocol.saturatingAdd self.siblingCombinator other.siblingCombinator
  nestedSelector := RendererProtocol.saturatingAdd self.nestedSelector other.nestedSelector
  unboundedRules := RendererProtocol.saturatingAdd self.unboundedRules other.unboundedRules
  keylessDescendant := RendererProtocol.saturatingAdd self.keylessDescendant other.keylessDescendant
  ruleDiffSubtrees := RendererProtocol.saturatingAdd self.ruleDiffSubtrees other.ruleDiffSubtrees

def StyleReport.coalesce (self next : StyleReport) : StyleReport where
  invalidatedNodes := saturatingAdd self.invalidatedNodes next.invalidatedNodes
  totalStyles := saturatingAdd self.totalStyles next.totalStyles
  recomputedStyles := saturatingAdd self.recomputedStyles next.recomputedStyles
  changedStyles := saturatingAdd self.changedStyles next.changedStyles
  removedStyles := saturatingAdd self.removedStyles next.removedStyles
  layoutChanged := self.layoutChanged || next.layoutChanged
  fullRebuild := self.fullRebuild || next.fullRebuild
  invalidationFallbacks := self.invalidationFallbacks.saturatingAdd next.invalidationFallbacks

def LayoutStats.saturatingAdd (self other : LayoutStats) : LayoutStats where
  passes := RendererProtocol.saturatingAdd self.passes other.passes
  boxesRebuilt := RendererProtocol.saturatingAdd self.boxesRebuilt other.boxesRebuilt
  blocksLaidOut := RendererProtocol.saturatingAdd self.blocksLaidOut other.blocksLaidOut
  subtreesReplayed := RendererProtocol.saturatingAdd self.subtreesReplayed other.subtreesReplayed
  itemsEmitted := RendererProtocol.saturatingAdd self.itemsEmitted other.itemsEmitted
  itemsReplayed := RendererProtocol.saturatingAdd self.itemsReplayed other.itemsReplayed
  boxTreeMicros := RendererProtocol.saturatingAdd self.boxTreeMicros other.boxTreeMicros
  blockLayoutMicros := RendererProtocol.saturatingAdd self.blockLayoutMicros other.blockLayoutMicros
  inlineGeometryMicros :=
    RendererProtocol.saturatingAdd self.inlineGeometryMicros other.inlineGeometryMicros
  overflowMicros := RendererProtocol.saturatingAdd self.overflowMicros other.overflowMicros
  paintOrderMicros := RendererProtocol.saturatingAdd self.paintOrderMicros other.paintOrderMicros
  hitTestMicros := RendererProtocol.saturatingAdd self.hitTestMicros other.hitTestMicros
  stickyMicros := RendererProtocol.saturatingAdd self.stickyMicros other.stickyMicros

/-- Only the number of cached shapes is a snapshot. -/
def PageLoadReport.coalesce (self next : PageLoadReport) : PageLoadReport where
  parseMicros := saturatingAdd self.parseMicros next.parseMicros
  htmlParseMicros := saturatingAdd self.htmlParseMicros next.htmlParseMicros
  resourceProcessingMicros :=
    saturatingAdd self.resourceProcessingMicros next.resourceProcessingMicros
  scriptMicros := saturatingAdd self.scriptMicros next.scriptMicros
  scriptFetchMicros := saturatingAdd self.scriptFetchMicros next.scriptFetchMicros
  styleMicros := saturatingAdd self.styleMicros next.styleMicros
  layoutMicros := saturatingAdd self.layoutMicros next.layoutMicros
  textMeasureCount := saturatingAdd self.textMeasureCount next.textMeasureCount
  textShapeCacheHits := saturatingAdd self.textShapeCacheHits next.textShapeCacheHits
  textShapeCacheMisses := saturatingAdd self.textShapeCacheMisses next.textShapeCacheMisses
  textShapeCacheFlushes := saturatingAdd self.textShapeCacheFlushes next.textShapeCacheFlushes
  textShapeCacheEntries := next.textShapeCacheEntries
  fontCatalogMicros := saturatingAdd self.fontCatalogMicros next.fontCatalogMicros
  fontSelectMicros := saturatingAdd self.fontSelectMicros next.fontSelectMicros
  openTypeShapeMicros := saturatingAdd self.openTypeShapeMicros next.openTypeShapeMicros
  glyphRasterMicros := saturatingAdd self.glyphRasterMicros next.glyphRasterMicros
  presentationEncodeMicros :=
    saturatingAdd self.presentationEncodeMicros next.presentationEncodeMicros
  presentationDecodeMicros :=
    saturatingAdd self.presentationDecodeMicros next.presentationDecodeMicros
  layout := self.layout.saturatingAdd next.layout

/-! ## Sizes -/

namespace RuntimeReport

def edgeBytes (value : RuntimeReport) : Nat :=
  let strings := ((value.errors ++ value.console ++ value.diagnostics ++ value.cookieUpdates).map
    fun text => 4 + Str.byteLen text).sum
  let actions := value.historyActions.map fun
    | .Update url _ state _ =>
      11 + Str.byteLen url + (state.map fun state => 4 + Str.byteLen state).getD 0
    | .Traverse _ => 5
    | .SetScrollRestoration _ => 2
  value.wheelAcknowledgements.length * 21 + strings + actions.sum

/-- Fixed fields and the fields whose later value wins. -/
def snapshotBytes (previous next : RuntimeReport) : Nat :=
  let flag (value : Bool) : Nat := if value then 1 else 0
  let rejection := (next.nativeTextRejection.or previous.nativeTextRejection).map fun rejection =>
    8 + 4 + 16 + 4 + Str.byteLen rejection.value + 4 + 4
  let source := if next.navigationUrl.isSome then next else previous
  let navigation := source.navigationUrl.map fun url =>
    13 + Str.byteLen url + Str.byteLen source.navigationOptions.target +
      (source.navigationOptions.post.map fun post =>
        8 + Str.byteLen post.contentType + post.body.length).getD 0
  let media := next.media.map fun media =>
    80 + Str.byteLen media.backend + Str.byteLen media.mimeType + Str.byteLen media.videoCodec +
      Str.byteLen media.audioCodec +
      (media.failure.map fun failure => 4 + Str.byteLen failure).getD 0
  54 + flag (next.wheelHasBlockingListeners.or previous.wheelHasBlockingListeners).isSome +
    flag (next.wheelHasNestedScroll.or previous.wheelHasNestedScroll).isSome + rejection.getD 0 +
    (if (next.historyTraversalAck.or previous.historyTraversalAck).isSome then 8 else 0) +
    navigation.getD 0 +
    (if (next.viewportScrollY.or previous.viewportScrollY).isSome then 4 else 0) + media.getD 0

def mergedRuntimeBytes (previous next : RuntimeReport) : Option Nat :=
  if MAX_WHEEL_ACKNOWLEDGEMENTS <
      previous.wheelAcknowledgements.length + next.wheelAcknowledgements.length then none
  else if previous.nativeTextRejection.isSome ∧ next.nativeTextRejection.isSome then none
  else if (List.zipWith (· + ·) previous.entryCounts next.entryCounts).any
      fun total => decide (MAX_RUNTIME_REPORT_ENTRIES < total) then none
  else some (previous.edgeBytes + next.edgeBytes + snapshotBytes previous next)

/-- Summing opposite motions would erase the interruption; an absolute scroll supersedes them. -/
def wheelDirectionChanged (previous next : RuntimeReport) : Bool :=
  next.viewportScrollY.isNone && decide (previous.viewportWheelDeltaY ≠ 0) &&
    decide (next.viewportWheelDeltaY ≠ 0) &&
    (decide (0 < previous.viewportWheelDeltaY) != decide (0 < next.viewportWheelDeltaY))

end RuntimeReport

/-! ## Resources -/

section Resources

variable {Content : Type}

namespace RendererPresentation

def imageUrls (value : RendererPresentation Content) : List Str := value.images.map PresentedImage.url

def mergedBytes (previous next : RendererPresentation Content) : Option Nat :=
  let images := OrdMap.retainFirst PresentedImage.url []
    ((next.images.reverse ++ previous.images.reverse).filter
      fun image => decide (image.url ∉ next.retiredImageKeys))
  let retirements := OrdMap.retainFirst id []
    ((previous.retiredImageKeys ++ next.retiredImageKeys).filter
      fun key => decide (key ∉ next.imageUrls))
  let glyphs := OrdMap.retainFirst PresentedGlyphRaster.id []
    (next.glyphs.reverse ++ (previous.glyphs.filter
      fun _ => decide (previous.glyphEpoch = next.glyphEpoch)).reverse)
  let glyphBytes := (glyphs.map fun glyph => glyph.image.bgra.length).sum
  let bytes := 20 + (images.map fun image => Str.byteLen image.url + 16 + image.image.bgra.length).sum +
    (retirements.map fun key => Str.byteLen key + 4).sum +
    (glyphs.map fun glyph => 17 + glyph.image.bgra.length).sum
  if images.length ≤ MAX_PRESENTED_IMAGES ∧ retirements.length ≤ MAX_PRESENTED_IMAGES ∧
      glyphs.length ≤ MAX_GLYPH_RASTERS ∧ glyphBytes ≤ MAX_PRESENTED_GLYPH_BYTES ∧
      bytes ≤ MAX_RENDERER_PRESENTATION_BYTES then some bytes
  else none

/-- Later updates cancel old retirements, later retirements cancel old updates, and the last
bitmap of each identity is kept. -/
def mergeResources (previous next : RendererPresentation Content) : RendererPresentation Content :=
  let retired := previous.retiredImageKeys.filter fun key => decide (key ∉ next.imageUrls)
  let images := previous.images.filter fun image => decide (image.url ∉ next.retiredImageKeys)
  let glyphs := if previous.glyphEpoch = next.glyphEpoch then previous.glyphs ++ next.glyphs
    else next.glyphs
  { next with
    retiredImageKeys := (OrdMap.setOf (retired ++ next.retiredImageKeys)).keys
    images := (OrdMap.retainFirst PresentedImage.url [] (images ++ next.images).reverse).reverse
    glyphs := (OrdMap.retainFirst PresentedGlyphRaster.id [] glyphs.reverse).reverse }

def mergeIsBounded (previous next : RendererPresentation Content) : Bool :=
  if previous.runtime.nativeTextRejection.isSome ∨
      previous.runtime.wheelDirectionChanged next.runtime then false
  else if previous.runtime.wheelAcknowledgements.any
      fun value => decide (value.decision = .NestedScroll) then false
  else
    match mergedBytes previous next, previous.runtime.mergedRuntimeBytes next.runtime with
    | some resources, some runtime => decide (resources + runtime ≤ MAX_RENDERER_PRESENTATION_BYTES)
    | _, _ => false

/-- The merged presentation, or both of them to be delivered in order. -/
def coalesce (self next : RendererPresentation Content) :
    ProtocolResult (RendererPresentation Content × Option (RendererPresentation Content)) := do
  if self.document ≠ next.document then throw (.InvalidPayload "presentation coalescing document")
  if next.revision ≤ self.revision then throw (.InvalidPayload "presentation coalescing revision")
  if ¬ mergeIsBounded self next then return (self, some next)
  let merged := mergeResources self next
  let accessibility ← self.accessibility.coalesce next.accessibility
  let runtime ← self.runtime.coalesce next.runtime
  return ({ merged with
    accessibility := accessibility
    clockAdvanced := next.clockAdvanced || self.clockAdvanced
    runtime := runtime
    style := self.style.coalesce next.style
    load := self.load.coalesce next.load }, none)

end RendererPresentation

namespace RendererRuntimeUpdate

/-- Document id, clock flag, eighteen load counters and thirteen layout counters, and the
optional timer. -/
def runtimeUpdateOverhead (value : RendererRuntimeUpdate) : Nat :=
  8 + 1 + (18 + 13) * 8 + 1 + if value.nextTimerMicros.isSome then 8 else 0

def mergeIsBounded (previous next : RendererRuntimeUpdate) : Bool :=
  if previous.runtime.nativeTextRejection.isSome ∨
      previous.runtime.wheelDirectionChanged next.runtime then false
  else
    match previous.runtime.mergedRuntimeBytes next.runtime with
    | some runtime => decide (runtime + next.runtimeUpdateOverhead ≤ MAX_CONTROL_PAYLOAD)
    | none => false

def coalesce (self next : RendererRuntimeUpdate) :
    ProtocolResult (RendererRuntimeUpdate × Option RendererRuntimeUpdate) := do
  if self.document ≠ next.document then throw (.InvalidPayload "runtime-update coalescing document")
  if ¬ mergeIsBounded self next then return (self, some next)
  let runtime ← self.runtime.coalesce next.runtime
  return ({ next with
    clockAdvanced := next.clockAdvanced || self.clockAdvanced
    runtime := runtime
    load := self.load.coalesce next.load }, none)

end RendererRuntimeUpdate

end Resources

end BetterWebBrowser.RendererProtocol
