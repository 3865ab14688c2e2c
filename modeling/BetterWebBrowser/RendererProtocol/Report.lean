import BetterWebBrowser.RendererProtocol.Accessibility
import Mathlib.Algebra.Order.AbsoluteValue.Basic

/-!
# Renderer reports

What one renderer task reports to the browser: a presentation with its resources and a
runtime report, or a runtime report alone. Single-precision numbers that passed the decoder
are finite and are taken as exact rationals. The parts of a presentation that are only ever
replaced as a whole are one type parameter.
-/

namespace BetterWebBrowser.RendererProtocol

open Framework

def MAX_URL_BYTES : Nat := 16 * 1024
def MAX_MEDIA_SESSIONS_PER_TAB : Nat := 4
def MAX_PRESENTED_IMAGES : Nat := 64 + 64 + 256 + MAX_MEDIA_SESSIONS_PER_TAB + 64 + 1
def MAX_GLYPH_RASTERS : Nat := 65536
def MAX_GLYPH_RASTER_DIMENSION : Nat := 1024
def MAX_GLYPH_RASTER_PIXELS : Nat := 1024 * 1024
def MAX_GLYPH_RASTER_BYTES : Nat := 4 * 1024 * 1024
def MAX_PRESENTED_GLYPH_BYTES : Nat := 48 * 1024 * 1024
def MAX_CONTROL_PAYLOAD : Nat := 256 * 1024
def MAX_RENDERER_PRESENTATION_BYTES : Nat := 64 * 1024 * 1024
def MAX_RUNTIME_REPORT_ENTRIES : Nat := 512
def MAX_WHEEL_ACKNOWLEDGEMENTS : Nat := 128

/-- `u64::saturating_add`. -/
def saturatingAdd (a b : Nat) : Nat := min (a + b) (2 ^ 64 - 1)

theorem saturatingAdd_assoc (a b c : Nat) :
    saturatingAdd (saturatingAdd a b) c = saturatingAdd a (saturatingAdd b c) := by
  simp only [saturatingAdd]
  omega

/-! ## Runtime reports -/

inductive WheelDecision
  | Cancelled | NestedScroll | Viewport | NoMotion
deriving DecidableEq

structure WheelAcknowledgement where
  sequence : Nat
  decision : WheelDecision
  /-- Accepted viewport distance of this input; zero for other decisions. -/
  viewportDeltaY : ℚ
  dispatchMicros : Nat
deriving DecidableEq

structure FormPost where
  contentType : Str
  body : List UInt8
deriving DecidableEq

structure NavigationOptions where
  target : Str
  post : Option FormPost
  noreferrer : Bool
  replaceHistory : Bool
  userInitiated : Bool
  formSubmission : Bool
deriving DecidableEq

inductive ScrollRestorationMode
  | Auto | Manual
deriving DecidableEq

inductive HistoryAction
  | Update (url : Str) (replace : Bool) (state : Option Str) (scrollY : ℚ)
  | Traverse (delta : Int)
  | SetScrollRestoration (mode : ScrollRestorationMode)
deriving DecidableEq

structure NativeTextRejection where
  sequence : Nat
  generation : Nat
  target : DocumentNodeId
  value : Str
  selectionStart : Nat
  selectionEnd : Nat
deriving DecidableEq

structure MediaRuntimeReport where
  active : Bool
  playing : Bool
  ended : Bool
  currentTime100ns : Nat
  duration100ns : Nat
  backend : Str
  mimeType : Str
  videoCodec : Str
  audioCodec : Str
  encodedQueueBytes : Nat
  encodedQueueLimitBytes : Nat
  decodedFrameQueueDepth : Nat
  decodedFrameQueueLimit : Nat
  framesSubmitted : Nat
  droppedFrames : Nat
  width : Nat
  height : Nat
  failure : Option Str
deriving DecidableEq

structure RuntimeReport where
  scriptsExecuted : Nat
  domMutations : Nat
  errors : List Str
  console : List Str
  diagnostics : List Str
  navigationUrl : Option Str
  navigationOptions : NavigationOptions
  viewportScrollY : Option ℚ
  viewportWheelDeltaY : ℚ
  wheelAcknowledgements : List WheelAcknowledgement
  wheelHasBlockingListeners : Option Bool
  wheelHasNestedScroll : Option Bool
  historyActions : List HistoryAction
  historyTraversalAck : Option Nat
  nativeTextRejection : Option NativeTextRejection
  cookieUpdates : List Str
  runtimeActive : Bool
  runtimeStopped : Bool
  renderRequested : Bool
  media : Option MediaRuntimeReport
deriving DecidableEq

/-- Windows of two: each sequence is below the next one. -/
def sequencesIncrease : List WheelAcknowledgement → Bool
  | first :: second :: values =>
    decide (first.sequence < second.sequence) && sequencesIncrease (second :: values)
  | _ => true

/-- `wheel::validate`; every distance is finite already. -/
def validateWheel (values : List WheelAcknowledgement) : ProtocolResult Unit :=
  if MAX_WHEEL_ACKNOWLEDGEMENTS < values.length ∨
      values.head?.any (fun value => decide (value.sequence = 0)) ∨
      ¬ sequencesIncrease values ∨
      (values.any fun value => decide (value.decision ≠ .Viewport ∧ value.viewportDeltaY ≠ 0)) then
    .error (.InvalidPayload "wheel acknowledgements")
  else .ok ()

/-- The checks `decode_runtime` makes on the fields that the merge compares. -/
def RuntimeReport.validate (report : RuntimeReport) : ProtocolResult Unit :=
  if report.viewportScrollY.any (fun y => decide (y < 0)) then
    .error (.InvalidPayload "viewport scroll offset")
  else
    match validateWheel report.wheelAcknowledgements with
    | .error error => .error error
    | .ok () =>
      if report.historyTraversalAck = some 0 then
        .error (.InvalidPayload "history traversal acknowledgement")
      else .ok ()

/-! ## Counters -/

structure InvalidationFallbacks where
  siblingCombinator : Nat
  nestedSelector : Nat
  unboundedRules : Nat
  keylessDescendant : Nat
  ruleDiffSubtrees : Nat
deriving DecidableEq

structure StyleReport where
  invalidatedNodes : Nat
  totalStyles : Nat
  recomputedStyles : Nat
  changedStyles : Nat
  removedStyles : Nat
  layoutChanged : Bool
  fullRebuild : Bool
  invalidationFallbacks : InvalidationFallbacks
deriving DecidableEq

structure LayoutStats where
  passes : Nat
  boxesRebuilt : Nat
  blocksLaidOut : Nat
  subtreesReplayed : Nat
  itemsEmitted : Nat
  itemsReplayed : Nat
  boxTreeMicros : Nat
  blockLayoutMicros : Nat
  inlineGeometryMicros : Nat
  overflowMicros : Nat
  paintOrderMicros : Nat
  hitTestMicros : Nat
  stickyMicros : Nat
deriving DecidableEq

structure PageLoadReport where
  parseMicros : Nat
  htmlParseMicros : Nat
  resourceProcessingMicros : Nat
  scriptMicros : Nat
  scriptFetchMicros : Nat
  styleMicros : Nat
  layoutMicros : Nat
  textMeasureCount : Nat
  textShapeCacheHits : Nat
  textShapeCacheMisses : Nat
  textShapeCacheFlushes : Nat
  textShapeCacheEntries : Nat
  fontCatalogMicros : Nat
  fontSelectMicros : Nat
  openTypeShapeMicros : Nat
  glyphRasterMicros : Nat
  presentationEncodeMicros : Nat
  presentationDecodeMicros : Nat
  layout : LayoutStats
deriving DecidableEq

/-! ## Presentations -/

structure DecodedImage where
  width : Nat
  height : Nat
  bgra : List UInt8
deriving DecidableEq

structure PresentedImage where
  url : Str
  image : DecodedImage
deriving DecidableEq

structure PresentedGlyphRaster where
  id : Nat
  image : DecodedImage
  color : Bool
deriving DecidableEq

/-- `content` is what a newer presentation replaces as a whole: reader document, layout, GPU
canvases and page diagnostics. -/
structure RendererPresentation (Content : Type) where
  document : Nat
  revision : Nat
  clockAdvanced : Bool
  title : Str
  finalUrl : Str
  status : Nat
  characterSet : Str
  content : Content
  images : List PresentedImage
  /-- Image keys sent before that this document no longer owns. -/
  retiredImageKeys : List Str
  glyphEpoch : Nat
  glyphs : List PresentedGlyphRaster
  runtime : RuntimeReport
  style : StyleReport
  load : PageLoadReport
  accessibility : AccessibilityUpdate
  nextTimerMicros : Option Nat
deriving DecidableEq

structure RendererRuntimeUpdate where
  document : Nat
  clockAdvanced : Bool
  runtime : RuntimeReport
  load : PageLoadReport
  nextTimerMicros : Option Nat
deriving DecidableEq

def validateRetiredKeys (keys : List Str) (images : List PresentedImage) : ProtocolResult Unit :=
  if MAX_PRESENTED_IMAGES < keys.length then .error (.InvalidPayload "retired image count")
  else if (∃ key ∈ keys, key = [] ∨ MAX_URL_BYTES < Str.byteLen key ∨
      ∃ image ∈ images, image.url = key) ∨ ¬ keys.Nodup then
    .error (.InvalidPayload "retired image key")
  else .ok ()

namespace PresentedGlyphRaster

def expectedBytes (glyph : PresentedGlyphRaster) : Nat := glyph.image.width * glyph.image.height * 4

def isValid (glyph : PresentedGlyphRaster) : Bool :=
  decide (glyph.id ≠ 0 ∧ glyph.image.width ≠ 0 ∧ glyph.image.height ≠ 0 ∧
    glyph.image.width ≤ MAX_GLYPH_RASTER_DIMENSION ∧
    glyph.image.height ≤ MAX_GLYPH_RASTER_DIMENSION ∧
    glyph.image.width * glyph.image.height ≤ MAX_GLYPH_RASTER_PIXELS ∧
    glyph.expectedBytes ≤ MAX_GLYPH_RASTER_BYTES ∧ glyph.image.bgra.length = glyph.expectedBytes)

end PresentedGlyphRaster

def validateGlyphRasters (epoch : Nat) (glyphs : List PresentedGlyphRaster) : ProtocolResult Unit :=
  if epoch = 0 then .error (.InvalidPayload "glyph epoch")
  else if MAX_GLYPH_RASTERS < glyphs.length then .error (.InvalidPayload "glyph raster count")
  else if ¬ glyphs.all PresentedGlyphRaster.isValid ∨
      ¬ (glyphs.map PresentedGlyphRaster.id).Nodup then
    .error (.InvalidPayload "glyph raster")
  else if MAX_PRESENTED_GLYPH_BYTES < (glyphs.map PresentedGlyphRaster.expectedBytes).sum then
    .error (.InvalidPayload "glyph raster budget")
  else .ok ()

/-- The checks `decode` makes on the fields that the merge looks at. -/
def RendererPresentation.validate {Content : Type} (value : RendererPresentation Content) :
    ProtocolResult Unit := do
  if value.revision = 0 then throw (.InvalidPayload "zero presentation revision")
  value.runtime.validate
  value.accessibility.validateUpdate
  if MAX_PRESENTED_IMAGES < value.images.length then throw (.InvalidPayload "presented image count")
  validateRetiredKeys value.retiredImageKeys value.images
  validateGlyphRasters value.glyphEpoch value.glyphs

end BetterWebBrowser.RendererProtocol
