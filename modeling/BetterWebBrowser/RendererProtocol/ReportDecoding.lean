import BetterWebBrowser.RendererProtocol.AccessibilityExact
import BetterWebBrowser.RendererProtocol.OneShotBytes
import BetterWebBrowser.RendererProtocol.StorageExact

/-!
# Decoding of the queued reports

Presentations, runtime updates and broadcast commands as the browser reads them. The sections
of a presentation that are only ever replaced as a whole are read by parameters. What a
decoder accepts occupies no more than its payload.
-/

namespace BetterWebBrowser.RendererProtocol

open Framework

def MAX_RENDERED_TEXT_BYTES : Nat := 2 * 1024 * 1024
def MAX_PAGE_DIAGNOSTIC_BYTES : Nat := 2 * 1024 * 1024
def MAX_DECODED_IMAGE_PIXELS : Nat := 32 * 1024 * 1024
def MAX_DECODED_IMAGE_BYTES : Nat := MAX_DECODED_IMAGE_PIXELS * 4
def MAX_DECODED_IMAGE_DIMENSION : Nat := 32 * 1024
def MAX_BROADCAST_NAME_BYTES : Nat := 4 * 1024
def MAX_BROADCAST_MESSAGE_BYTES : Nat := 128 * 1024

/-- The reader of a section takes bytes off the front only. -/
structure Section (A : Type) where
  read : WireReader A
  takes : Reader.Takes read fun _ => 0

/-- Readers of the sections that a newer presentation replaces as a whole; the layout is read
against the items it is a delta of. -/
structure PresentationSections (Document Diagnostics Layout Canvases : Type) where
  decodeReader : Section Document
  sourceUrl : Document → Str
  decodeDiagnostics : List UInt8 → ProtocolResult Diagnostics
  decodeLayout : Section Layout
  decodeGpu : Section Canvases

structure PresentationContent (Document Diagnostics Layout Canvases : Type) where
  reader : Document
  pageDiagnostics : Diagnostics
  layout : Layout
  gpuCanvases : Canvases

inductive BroadcastOperation
  | Open (name : Str)
  | Post (serialized : Str)
  | Close
deriving DecidableEq

structure BroadcastCommand where
  document : DocumentId
  channelId : UInt64
  operation : BroadcastOperation
deriving DecidableEq

def isAsciiHexdigit (c : Char) : Bool :=
  ('0' ≤ c ∧ c ≤ '9') ∨ ('a' ≤ c ∧ c ≤ 'f') ∨ ('A' ≤ c ∧ c ≤ 'F')

def BroadcastCommand.validate (command : BroadcastCommand) : ProtocolResult Unit :=
  if command.channelId = 0 then .error (.InvalidPayload "broadcast channel identifier")
  else
    match command.operation with
    | .Open name =>
      if MAX_BROADCAST_NAME_BYTES < Str.byteLen name ∨ Str.byteLen name % 4 ≠ 0 ∨
          ¬ name.all isAsciiHexdigit then .error (.InvalidPayload "broadcast channel name")
      else .ok ()
    | .Post serialized =>
      if MAX_BROADCAST_MESSAGE_BYTES < Str.byteLen serialized then
        .error (.InvalidPayload "broadcast message size")
      else .ok ()
    | .Close => .ok ()

/-! ## Bytes of a report read -/

namespace RuntimeCodec

private theorem length_actionLayout (action : HistoryAction) :
    (actionLayout action).length = match action.exact with
      | .Update url _ state _ =>
        11 + Str.byteLen url + (state.map fun state => 4 + Str.byteLen state).getD 0
      | .Traverse _ => 5
      | .SetScrollRestoration _ => 2 := by
  cases action with
  | Update url replace state scrollY =>
    cases state with
    | none =>
      simp only [HistoryAction.exact, actionLayout, updateLayout, List.length_append, length_u8,
        length_stringLayout, length_bool, length_optional, length_f32, Option.elim_none,
        Option.map_none, Option.getD_none]
      omega
    | some state =>
      simp only [HistoryAction.exact, actionLayout, updateLayout, List.length_append, length_u8,
        length_stringLayout, length_bool, length_optional, length_f32, Option.elim_some,
        Option.map_some, Option.getD_some]
      omega
  | Traverse delta => simp [HistoryAction.exact, actionLayout]
  | SetScrollRestoration mode => simp [HistoryAction.exact, actionLayout]

private theorem edgeBytes_exact (report : RuntimeReport) :
    report.exact.edgeBytes = report.wheelAcknowledgements.length * 21 +
      ((report.errors ++ report.console ++ report.diagnostics ++ report.cookieUpdates).map
        fun text => (stringLayout text).length).sum +
      (report.historyActions.map fun action => (actionLayout action).length).sum := by
  simp only [RendererProtocol.RuntimeReport.edgeBytes, RuntimeReport.exact, List.length_map,
    List.map_map, length_stringLayout]
  congr 2
  refine List.map_congr_left fun action _ => ?_
  rw [length_actionLayout]
  cases action <;> rfl

private theorem length_optionsLayout (options : NavigationOptions) (url : Str) :
    (stringLayout url ++ optionsLayout options).length = 13 + Str.byteLen url +
      Str.byteLen options.target + (options.post.map fun post =>
        8 + Str.byteLen post.contentType + post.body.length).getD 0 := by
  cases hpost : options.post with
  | none =>
    simp only [optionsLayout, hpost, List.length_append, length_stringLayout, length_bool,
      length_optional, Option.elim_none, Option.map_none, Option.getD_none]
    omega
  | some post =>
    simp only [optionsLayout, hpost, List.length_append, length_stringLayout, length_bool,
      length_optional, Option.elim_some, Option.map_some, Option.getD_some, postLayout,
      length_prefixed]
    omega

private theorem length_mediaLayout (media : MediaRuntimeReport) :
    (mediaLayout media).length = 80 + Str.byteLen media.backend + Str.byteLen media.mimeType +
      Str.byteLen media.videoCodec + Str.byteLen media.audioCodec +
      (media.failure.map fun failure => 4 + Str.byteLen failure).getD 0 := by
  cases hfailure : media.failure with
  | none =>
    simp only [mediaLayout, hfailure, List.length_append, length_bool, length_u64,
      length_stringLayout, length_u16, length_u32, length_optional, Option.elim_none,
      Option.map_none, Option.getD_none]
    omega
  | some failure =>
    simp only [mediaLayout, hfailure, List.length_append, length_bool, length_u64,
      length_stringLayout, length_u16, length_u32, length_optional, Option.elim_some,
      Option.map_some, Option.getD_some]
    omega

private theorem length_rejectionLayout (rejection : NativeTextRejection) :
    (rejectionLayout rejection).length = 8 + 4 + 16 + 4 + Str.byteLen rejection.value + 4 + 4 := by
  simp only [rejectionLayout, nodeIdLayout, List.length_append, length_u64, length_u32,
    length_u128, length_stringLayout]
  omega

private theorem getD_map_eq_elim {A : Type} (f : A → Nat) (value : Option A) :
    (value.map f).getD 0 = value.elim 0 f := by
  cases value <;> rfl

private theorem ite_isSome {A : Type} (value : Option A) (bytes : Nat) :
    (if value.isSome = true then bytes else 0) = value.elim 0 fun _ => bytes := by
  cases value <;> rfl

private theorem elim_map {A B : Type} (f : A → B) (g : B → Nat) (value : Option A) :
    (value.map f).elim 0 g = value.elim 0 fun found => g (f found) := by
  cases value <;> rfl

private theorem snapshotBytes_exact (report : RuntimeReport) :
    RendererProtocol.RuntimeReport.snapshotBytes report.exact report.exact = 54 +
      (report.wheelHasBlockingListeners.elim 0 fun _ => 1) +
      (report.wheelHasNestedScroll.elim 0 fun _ => 1) +
      (report.nativeTextRejection.elim 0 fun rejection => (rejectionLayout rejection).length) +
      (report.historyTraversalAck.elim 0 fun _ => 8) +
      (report.navigationUrl.elim 0 fun url =>
        (stringLayout url ++ optionsLayout report.navigationOptions).length) +
      (report.viewportScrollY.elim 0 fun _ => 4) +
      report.media.elim 0 fun media => (mediaLayout media).length := by
  have hsource : (if report.exact.navigationUrl.isSome then report.exact else report.exact) =
      report.exact := ite_self _
  rw [RendererProtocol.RuntimeReport.snapshotBytes, hsource]
  simp only [Option.or_self, ite_isSome, getD_map_eq_elim, RuntimeReport.exact, elim_map, NativeTextRejection.exact,
    MediaRuntimeReport.exact, length_rejectionLayout, length_optionsLayout, length_mediaLayout]

/-- A report occupies as many bytes as it has on the wire. -/
theorem runtimeBytes_exact (report : RuntimeReport) :
    report.exact.runtimeBytes = (runtimeLayout report).length := by
  rw [RendererProtocol.RuntimeReport.runtimeBytes, edgeBytes_exact, snapshotBytes_exact]
  simp only [runtimeLayout, navigationLayout, List.length_append, length_u64, length_bool,
    length_f32, length_listLayout, length_optional, length_wheelLayout, List.map_append,
    List.sum_append]
  omega

end RuntimeCodec

namespace ReportDecoding

open WireReader RuntimeCodec StorageCodec

/-! ## Counters -/

def counter : WireReader Nat := do
  let value ← u64
  pure value.toNat

/-- `LayoutStats::from_fields` -/
def layoutFromFields (fields : List Nat) : LayoutStats where
  passes := fields.getD 0 0
  boxesRebuilt := fields.getD 1 0
  blocksLaidOut := fields.getD 2 0
  subtreesReplayed := fields.getD 3 0
  itemsEmitted := fields.getD 4 0
  itemsReplayed := fields.getD 5 0
  boxTreeMicros := fields.getD 6 0
  blockLayoutMicros := fields.getD 7 0
  inlineGeometryMicros := fields.getD 8 0
  overflowMicros := fields.getD 9 0
  paintOrderMicros := fields.getD 10 0
  hitTestMicros := fields.getD 11 0
  stickyMicros := fields.getD 12 0

/-- The counters of a load report in the order of the wire. -/
def loadFromFields (fields : List Nat) (layout : LayoutStats) : PageLoadReport where
  parseMicros := fields.getD 0 0
  htmlParseMicros := fields.getD 1 0
  resourceProcessingMicros := fields.getD 2 0
  scriptMicros := fields.getD 3 0
  scriptFetchMicros := fields.getD 4 0
  styleMicros := fields.getD 5 0
  layoutMicros := fields.getD 6 0
  textMeasureCount := fields.getD 7 0
  textShapeCacheHits := fields.getD 8 0
  textShapeCacheMisses := fields.getD 9 0
  textShapeCacheFlushes := fields.getD 10 0
  textShapeCacheEntries := fields.getD 11 0
  fontCatalogMicros := fields.getD 12 0
  fontSelectMicros := fields.getD 13 0
  openTypeShapeMicros := fields.getD 14 0
  glyphRasterMicros := fields.getD 15 0
  presentationEncodeMicros := fields.getD 16 0
  presentationDecodeMicros := fields.getD 17 0
  layout := layout

def decodeLoad : WireReader PageLoadReport := do
  let fields ← Reader.times counter 18
  let layout ← Reader.times counter 13
  pure (loadFromFields fields (layoutFromFields layout))

def fallbacksFromFields (fields : List Nat) : InvalidationFallbacks where
  siblingCombinator := fields.getD 0 0
  nestedSelector := fields.getD 1 0
  unboundedRules := fields.getD 2 0
  keylessDescendant := fields.getD 3 0
  ruleDiffSubtrees := fields.getD 4 0

def decodeStyle : WireReader StyleReport := do
  let invalidatedNodes ← counter
  let totalStyles ← counter
  let recomputedStyles ← counter
  let changedStyles ← counter
  let removedStyles ← counter
  let layoutChanged ← bool
  let fullRebuild ← bool
  let fallbacks ← Reader.times counter 5
  pure { invalidatedNodes, totalStyles, recomputedStyles, changedStyles, removedStyles,
         layoutChanged, fullRebuild, invalidationFallbacks := fallbacksFromFields fallbacks }

/-! ## Runtime updates and broadcast commands -/

/-- `decode_renderer_document` of message kind 0x0120. -/
def decodeRuntimeUpdate : WireReader RendererProtocol.RendererRuntimeUpdate := do
  let document ← decodeDocumentId
  let clockAdvanced ← bool
  let runtime ← decodeRuntime
  let load ← decodeLoad
  let nextTimerMicros ← option u64
  finish
  pure { document := document.get.toNat, clockAdvanced, runtime := runtime.exact, load,
         nextTimerMicros := nextTimerMicros.map UInt64.toNat }

def decodeOperation : WireReader BroadcastOperation := do
  match ← u8 with
  | 1 =>
    let name ← string MAX_BROADCAST_NAME_BYTES
    pure (.Open name)
  | 2 =>
    let serialized ← string MAX_BROADCAST_MESSAGE_BYTES
    pure (.Post serialized)
  | 3 => pure .Close
  | _ => WireReader.invalid "broadcast operation"

def decodeCommand : WireReader BroadcastCommand := do
  let document ← decodeDocumentId
  let channelId ← u64
  let operation ← decodeOperation
  finish
  let command := { document, channelId, operation }
  Reader.ofExcept (BroadcastCommand.validate command)
  pure command

/-! ## Resources of a presentation -/

def decodeImage : WireReader PresentedImage := do
  let url ← string MAX_URL_BYTES
  let width ← u32
  let height ← u32
  Reader.failIf (width = 0 ∨ height = 0 ∨ MAX_DECODED_IMAGE_DIMENSION < width.toNat ∨
      MAX_DECODED_IMAGE_DIMENSION < height.toNat ∨
      MAX_DECODED_IMAGE_PIXELS < width.toNat * height.toNat)
    (.InvalidPayload "presented image dimensions")
  let bgra ← bytes MAX_DECODED_IMAGE_BYTES
  Reader.failIf (bgra.length ≠ width.toNat * height.toNat * 4)
    (.InvalidPayload "presented image pixels")
  pure { url, image := { width := width.toNat, height := height.toNat, bgra } }

/-- The images that are left to read, behind images of so many bytes. -/
def decodeImages : Nat → Nat → WireReader (List PresentedImage)
  | 0, _ => pure []
  | count + 1, imageBytes => do
    let image ← decodeImage
    Reader.failIf (MAX_RENDERER_PRESENTATION_BYTES < imageBytes + image.image.bgra.length)
      (.InvalidPayload "presented image budget")
    let images ← decodeImages count (imageBytes + image.image.bgra.length)
    pure (image :: images)

def decodeGlyph (ids : List Nat) : WireReader PresentedGlyphRaster := do
  let id ← u32
  Reader.failIf (id = 0 ∨ id.toNat ∈ ids) (.InvalidPayload "glyph raster identifier")
  let color ← bool
  let width ← u32
  let height ← u32
  Reader.failIf (width = 0 ∨ height = 0 ∨ MAX_GLYPH_RASTER_DIMENSION < width.toNat ∨
      MAX_GLYPH_RASTER_DIMENSION < height.toNat ∨
      MAX_GLYPH_RASTER_PIXELS < width.toNat * height.toNat)
    (.InvalidPayload "glyph raster dimensions")
  let bgra ← bytes MAX_GLYPH_RASTER_BYTES
  Reader.failIf (bgra.length ≠ width.toNat * height.toNat * 4) (.InvalidPayload "glyph raster pixels")
  pure { id := id.toNat, image := { width := width.toNat, height := height.toNat, bgra }, color }

/-- The glyphs that are left to read, behind those with these identifiers and so many bytes. -/
def decodeGlyphs : Nat → List Nat → Nat → WireReader (List PresentedGlyphRaster)
  | 0, _, _ => pure []
  | count + 1, ids, glyphBytes => do
    let glyph ← decodeGlyph ids
    Reader.failIf (MAX_PRESENTED_GLYPH_BYTES < glyphBytes + glyph.image.bgra.length)
      (.InvalidPayload "glyph raster budget")
    let glyphs ← decodeGlyphs count (glyph.id :: ids) (glyphBytes + glyph.image.bgra.length)
    pure (glyph :: glyphs)

structure Resources where
  images : List PresentedImage
  retiredImageKeys : List Str
  glyphEpoch : Nat
  glyphs : List PresentedGlyphRaster

def decodeResources : WireReader Resources := do
  let imageCount ← u32
  Reader.failIf (MAX_PRESENTED_IMAGES < imageCount.toNat) (.InvalidPayload "presented image count")
  let images ← decodeImages imageCount.toNat 0
  let retiredCount ← u32
  Reader.failIf (MAX_PRESENTED_IMAGES < retiredCount.toNat) (.InvalidPayload "retired image count")
  let retiredImageKeys ← Reader.times (string MAX_URL_BYTES) retiredCount.toNat
  Reader.ofExcept (validateRetiredKeys retiredImageKeys images)
  let glyphEpoch ← counter
  Reader.failIf (glyphEpoch = 0) (.InvalidPayload "glyph epoch")
  let glyphCount ← u32
  Reader.failIf (MAX_GLYPH_RASTERS < glyphCount.toNat) (.InvalidPayload "glyph raster count")
  let glyphs ← decodeGlyphs glyphCount.toNat [] 0
  pure { images, retiredImageKeys, glyphEpoch, glyphs }

/-! ## Presentations -/

section Presentations

variable {Document Diagnostics Layout Canvases : Type}

def decodePresentationFields (sections : PresentationSections Document Diagnostics Layout Canvases) :
    WireReader (RendererPresentation (PresentationContent Document Diagnostics Layout Canvases)) := do
  let document ← decodeDocumentId
  let revision ← decodeNonzero "zero presentation revision"
  let clockAdvanced ← bool
  let title ← string MAX_RENDERED_TEXT_BYTES
  let finalUrl ← string MAX_URL_BYTES
  let status ← u16
  let characterSet ← string 256
  let reader ← sections.decodeReader.read
  Reader.failIf (sections.sourceUrl reader ≠ finalUrl) (.InvalidPayload "reader document URL")
  let runtime ← decodeRuntime
  let style ← decodeStyle
  let load ← decodeLoad
  let diagnosticBytes ← bytes MAX_PAGE_DIAGNOSTIC_BYTES
  let pageDiagnostics ← Reader.ofExcept (sections.decodeDiagnostics diagnosticBytes)
  let accessibility ← AccessibilityCodec.decode
  let nextTimerMicros ← option u64
  let layout ← sections.decodeLayout.read
  let resources ← decodeResources
  let gpuCanvases ← sections.decodeGpu.read
  finish
  pure { document := document.get.toNat, revision := revision.toNat, clockAdvanced, title, finalUrl,
         status := status.toNat, characterSet, content := { reader, pageDiagnostics, layout, gpuCanvases },
         images := resources.images, retiredImageKeys := resources.retiredImageKeys,
         glyphEpoch := resources.glyphEpoch, glyphs := resources.glyphs, runtime := runtime.exact,
         style, load, accessibility := accessibility.exact,
         nextTimerMicros := nextTimerMicros.map UInt64.toNat }

def decodePresentation (sections : PresentationSections Document Diagnostics Layout Canvases)
    (payload : List UInt8) :
    ProtocolResult (RendererPresentation (PresentationContent Document Diagnostics Layout Canvases)) :=
  if MAX_RENDERER_PRESENTATION_BYTES < payload.length then
    .error (.PayloadTooLarge (UInt32.ofNat payload.length))
  else WireReader.payload (decodePresentationFields sections) payload

end Presentations

/-! ## What is read fits its payload -/

private theorem u16_takes : Reader.Takes u16 fun _ => 2 := u16_inverts.takes.weaken fun _ => by simp

private theorem u32_takes : Reader.Takes u32 fun _ => 4 := u32_inverts.takes.weaken fun _ => by simp

private theorem u64_takes : Reader.Takes u64 fun _ => 8 := u64_inverts.takes.weaken fun _ => by simp

private theorem bool_takes : Reader.Takes bool fun _ => 1 := bool_inverts.takes.weaken fun _ => by simp

private theorem counter_takes : Reader.Takes counter fun _ => 8 := u64_takes.map fun _ => le_rfl

private theorem string_takes {maximum : Nat} (h : maximum < 2 ^ 32) :
    Reader.Takes (string maximum) fun value => 4 + Str.byteLen value :=
  (WireReader.string_inverts h).takes.weaken fun value => (length_stringLayout value).ge

private theorem bytes_takes {maximum : Nat} (h : maximum < 2 ^ 32) :
    Reader.Takes (bytes maximum) fun value => 4 + value.length :=
  (WireReader.bytes_inverts h).takes.weaken fun value => (length_prefixed value).ge

private theorem document_takes : Reader.Takes decodeDocumentId fun _ => 8 :=
  decodeDocumentId_inverts.takes.weaken fun _ => by simp

private theorem runtime_takes : Reader.Takes decodeRuntime fun report => report.exact.runtimeBytes :=
  decodeRuntime_inverts.takes.weaken fun report => (runtimeBytes_exact report).le

private theorem timer_takes : Reader.Takes (option u64) fun value => 1 + value.elim 0 fun _ => 8 :=
  (option_inverts u64_inverts).takes.weaken fun value => by
    rw [length_optional]
    cases value <;> simp

private theorem counters_takes (count : Nat) :
    Reader.Takes (Reader.times counter count) fun values => values.length * 8 := by
  refine (counter_takes.times count).weaken fun values => ?_
  rw [List.map_const', List.sum_replicate_nat]

private theorem load_takes : Reader.Takes decodeLoad fun _ => (18 + 13) * 8 := by
  intro input load rest h
  obtain ⟨fields, middle, hfields, h, htakes⟩ := (counters_takes 18).step h
  obtain ⟨layout, last, hlayout, h, hmore⟩ := (counters_takes 13).step h
  cases h
  rw [Reader.length_times hfields] at htakes
  rw [Reader.length_times hlayout] at hmore
  show (18 + 13) * 8 + rest.length ≤ input.length
  omega

private theorem finish_takes : Reader.Takes finish fun _ => 0 := by
  intro input value rest h
  rw [finish] at h
  split at h
  next =>
    cases h
    exact (Nat.zero_add _).le
  next => cases h

theorem decodeRuntimeUpdate_takes :
    Reader.Takes decodeRuntimeUpdate RendererProtocol.RendererRuntimeUpdate.oneShotResourceBytes := by
  intro input update rest h
  obtain ⟨document, input₁, -, h, h₁⟩ := document_takes.step h
  obtain ⟨clock, input₂, -, h, h₂⟩ := bool_takes.step h
  obtain ⟨runtime, input₃, -, h, h₃⟩ := runtime_takes.step h
  obtain ⟨load, input₄, -, h, h₄⟩ := load_takes.step h
  obtain ⟨timer, input₅, -, h, h₅⟩ := timer_takes.step h
  obtain ⟨_, input₆, hfinish, h⟩ := Reader.run_bind_eq_ok.mp h
  cases h
  have hrest := finish_takes _ _ _ hfinish
  simp only [RendererProtocol.RendererRuntimeUpdate.oneShotResourceBytes,
    RendererProtocol.RendererRuntimeUpdate.runtimeUpdateOverhead, Option.isSome_map, ite_isSome]
  omega

/-! ## Presentations fit too -/

private theorem decodeImage_takes : Reader.Takes decodeImage RendererPresentation.imageBytes := by
  intro input image rest h
  obtain ⟨url, input₁, -, h, h₁⟩ := (string_takes (by decide)).step h
  obtain ⟨width, input₂, -, h, h₂⟩ := u32_takes.step h
  obtain ⟨height, input₃, -, h, h₃⟩ := u32_takes.step h
  obtain ⟨_, input₄, -, h, h₄⟩ := (Reader.Takes.failIf _ _).step h
  obtain ⟨bgra, input₅, -, h, h₅⟩ := (bytes_takes (by decide)).step h
  obtain ⟨_, input₆, -, h, h₆⟩ := (Reader.Takes.failIf _ _).step h
  cases h
  simp only [RendererPresentation.imageBytes]
  omega

private theorem decodeImages_takes (count imageBytes : Nat) :
    Reader.Takes (decodeImages count imageBytes) fun images =>
      (images.map RendererPresentation.imageBytes).sum := by
  induction count generalizing imageBytes with
  | zero =>
    intro input images rest h
    cases h
    exact (Nat.zero_add _).le
  | succ count ih =>
    intro input images rest h
    rw [decodeImages] at h
    obtain ⟨image, input₁, -, h, h₁⟩ := decodeImage_takes.step h
    obtain ⟨_, input₂, -, h, h₂⟩ := (Reader.Takes.failIf _ _).step h
    obtain ⟨more, input₃, -, h, h₃⟩ := (ih _).step h
    cases h
    simp only [List.map_cons, List.sum_cons]
    omega

private theorem decodeGlyph_takes (ids : List Nat) :
    Reader.Takes (decodeGlyph ids) RendererPresentation.glyphBytes := by
  intro input glyph rest h
  obtain ⟨id, input₁, -, h, h₁⟩ := u32_takes.step h
  obtain ⟨_, input₂, -, h, h₂⟩ := (Reader.Takes.failIf _ _).step h
  obtain ⟨color, input₃, -, h, h₃⟩ := bool_takes.step h
  obtain ⟨width, input₄, -, h, h₄⟩ := u32_takes.step h
  obtain ⟨height, input₅, -, h, h₅⟩ := u32_takes.step h
  obtain ⟨_, input₆, -, h, h₆⟩ := (Reader.Takes.failIf _ _).step h
  obtain ⟨bgra, input₇, -, h, h₇⟩ := (bytes_takes (by decide)).step h
  obtain ⟨_, input₈, -, h, h₈⟩ := (Reader.Takes.failIf _ _).step h
  cases h
  simp only [RendererPresentation.glyphBytes]
  omega

private theorem decodeGlyphs_takes (count : Nat) (ids : List Nat) (glyphBytes : Nat) :
    Reader.Takes (decodeGlyphs count ids glyphBytes) fun glyphs =>
      (glyphs.map RendererPresentation.glyphBytes).sum := by
  induction count generalizing ids glyphBytes with
  | zero =>
    intro input glyphs rest h
    cases h
    exact (Nat.zero_add _).le
  | succ count ih =>
    intro input glyphs rest h
    rw [decodeGlyphs] at h
    obtain ⟨glyph, input₁, -, h, h₁⟩ := (decodeGlyph_takes ids).step h
    obtain ⟨_, input₂, -, h, h₂⟩ := (Reader.Takes.failIf _ _).step h
    obtain ⟨more, input₃, -, h, h₃⟩ := (ih _ _).step h
    cases h
    simp only [List.map_cons, List.sum_cons]
    omega

private theorem keys_takes (count : Nat) :
    Reader.Takes (Reader.times (string MAX_URL_BYTES) count) fun keys =>
      (keys.map RendererPresentation.keyBytes).sum := by
  have hkey : Reader.Takes (string MAX_URL_BYTES) RendererPresentation.keyBytes :=
    (string_takes (by decide)).weaken fun key => (Nat.add_comm _ _).le
  exact hkey.times count

/-- The resources of a presentation as they are measured. -/
def Resources.size (resources : Resources) : Nat :=
  20 + (resources.images.map RendererPresentation.imageBytes).sum +
    (resources.retiredImageKeys.map RendererPresentation.keyBytes).sum +
    (resources.glyphs.map RendererPresentation.glyphBytes).sum

private theorem decodeResources_takes : Reader.Takes decodeResources Resources.size := by
  intro input resources rest h
  obtain ⟨imageCount, input₁, -, h, h₁⟩ := u32_takes.step h
  obtain ⟨_, input₂, -, h, h₂⟩ := (Reader.Takes.failIf _ _).step h
  obtain ⟨images, input₃, -, h, h₃⟩ := (decodeImages_takes _ _).step h
  obtain ⟨retiredCount, input₄, -, h, h₄⟩ := u32_takes.step h
  obtain ⟨_, input₅, -, h, h₅⟩ := (Reader.Takes.failIf _ _).step h
  obtain ⟨keys, input₆, -, h, h₆⟩ := (keys_takes _).step h
  obtain ⟨_, input₇, -, h, h₇⟩ := (Reader.Takes.ofExcept _).step h
  obtain ⟨glyphEpoch, input₈, -, h, h₈⟩ := counter_takes.step h
  obtain ⟨_, input₉, -, h, h₉⟩ := (Reader.Takes.failIf _ _).step h
  obtain ⟨glyphCount, input₁₀, -, h, h₁₀⟩ := u32_takes.step h
  obtain ⟨_, input₁₁, -, h, h₁₁⟩ := (Reader.Takes.failIf _ _).step h
  obtain ⟨glyphs, input₁₂, -, h, h₁₂⟩ := (decodeGlyphs_takes _ _ _).step h
  cases h
  simp only [Resources.size]
  omega

/-- No image that is read is retired together with its update. -/
private theorem decodeResources_apart {input rest : List UInt8} {resources : Resources}
    (h : decodeResources input = .ok (resources, rest)) :
    ∀ image ∈ resources.images, image.url ∉ resources.retiredImageKeys := by
  obtain ⟨imageCount, input₁, -, h⟩ := Reader.run_bind_eq_ok.mp h
  obtain ⟨_, input₂, -, h⟩ := Reader.run_bind_eq_ok.mp h
  obtain ⟨images, input₃, -, h⟩ := Reader.run_bind_eq_ok.mp h
  obtain ⟨retiredCount, input₄, -, h⟩ := Reader.run_bind_eq_ok.mp h
  obtain ⟨_, input₅, -, h⟩ := Reader.run_bind_eq_ok.mp h
  obtain ⟨keys, input₆, -, h⟩ := Reader.run_bind_eq_ok.mp h
  obtain ⟨_, input₇, hkeys, h⟩ := Reader.run_bind_eq_ok.mp h
  obtain ⟨glyphEpoch, input₈, -, h⟩ := Reader.run_bind_eq_ok.mp h
  obtain ⟨_, input₉, -, h⟩ := Reader.run_bind_eq_ok.mp h
  obtain ⟨glyphCount, input₁₀, -, h⟩ := Reader.run_bind_eq_ok.mp h
  obtain ⟨_, input₁₁, -, h⟩ := Reader.run_bind_eq_ok.mp h
  obtain ⟨glyphs, input₁₂, -, h⟩ := Reader.run_bind_eq_ok.mp h
  cases h
  exact RendererPresentation.keysApart_of_validate (Reader.run_ofExcept_eq_ok.mp hkeys).1

section Presentations

variable {Document Diagnostics Layout Canvases : Type}
  (sections : PresentationSections Document Diagnostics Layout Canvases)

private theorem style_takes : Reader.Takes decodeStyle fun _ => 0 := by
  intro input style rest h
  obtain ⟨_, input₁, -, h, h₁⟩ := counter_takes.step h
  obtain ⟨_, input₂, -, h, h₂⟩ := counter_takes.step h
  obtain ⟨_, input₃, -, h, h₃⟩ := counter_takes.step h
  obtain ⟨_, input₄, -, h, h₄⟩ := counter_takes.step h
  obtain ⟨_, input₅, -, h, h₅⟩ := counter_takes.step h
  obtain ⟨_, input₆, -, h, h₆⟩ := bool_takes.step h
  obtain ⟨_, input₇, -, h, h₇⟩ := bool_takes.step h
  obtain ⟨_, input₈, -, h, h₈⟩ := (counters_takes 5).step h
  cases h
  show 0 + rest.length ≤ input.length
  omega

/-- What a presentation occupies is part of its payload, and its keys are apart. -/
private theorem decodePresentationFields_fits {input rest : List UInt8}
    {presentation : RendererPresentation (PresentationContent Document Diagnostics Layout Canvases)}
    (h : decodePresentationFields sections input = .ok (presentation, rest)) :
    presentation.oneShotResourceBytes ≤ input.length ∧ presentation.KeysApart := by
  obtain ⟨document, input₁, -, h, h₁⟩ := document_takes.step h
  obtain ⟨revision, input₂, -, h, h₂⟩ := (decodeNonzero_inverts _).takes.step h
  obtain ⟨clockAdvanced, input₃, -, h, h₃⟩ := bool_takes.step h
  obtain ⟨title, input₄, -, h, h₄⟩ := (string_takes (by decide)).step h
  obtain ⟨finalUrl, input₅, -, h, h₅⟩ := (string_takes (by decide)).step h
  obtain ⟨status, input₆, -, h, h₆⟩ := u16_takes.step h
  obtain ⟨characterSet, input₇, -, h, h₇⟩ := (string_takes (by decide)).step h
  obtain ⟨reader, input₈, -, h, h₈⟩ := sections.decodeReader.takes.step h
  obtain ⟨_, input₉, -, h, h₉⟩ := (Reader.Takes.failIf _ _).step h
  obtain ⟨runtime, input₁₀, -, h, h₁₀⟩ := runtime_takes.step h
  obtain ⟨style, input₁₁, -, h, h₁₁⟩ := style_takes.step h
  obtain ⟨load, input₁₂, -, h, h₁₂⟩ := load_takes.step h
  obtain ⟨diagnosticBytes, input₁₃, -, h, h₁₃⟩ := (bytes_takes (by decide)).step h
  obtain ⟨pageDiagnostics, input₁₄, -, h, h₁₄⟩ := (Reader.Takes.ofExcept _).step h
  obtain ⟨accessibility, input₁₅, -, h, h₁₅⟩ := AccessibilityCodec.decode_inverts.takes.step h
  obtain ⟨nextTimerMicros, input₁₆, -, h, h₁₆⟩ := timer_takes.step h
  obtain ⟨layout, input₁₇, -, h, h₁₇⟩ := sections.decodeLayout.takes.step h
  obtain ⟨resources, input₁₈, hresources, h, h₁₈⟩ := decodeResources_takes.step h
  obtain ⟨gpuCanvases, input₁₉, -, h, h₁₉⟩ := sections.decodeGpu.takes.step h
  obtain ⟨_, input₂₀, -, h, h₂₀⟩ := finish_takes.step h
  cases h
  refine ⟨?_, decodeResources_apart hresources⟩
  simp only [Resources.size] at h₁₈
  simp only [RendererPresentation.oneShotResourceBytes, RendererPresentation.resourceBytes]
  omega

theorem decodePresentation_fits {payload : List UInt8}
    {presentation : RendererPresentation (PresentationContent Document Diagnostics Layout Canvases)}
    (h : decodePresentation sections payload = .ok presentation) :
    presentation.oneShotResourceBytes ≤ MAX_RENDERER_PRESENTATION_BYTES ∧ presentation.KeysApart := by
  rw [decodePresentation] at h
  split at h
  next => cases h
  next hlength =>
    rw [WireReader.payload] at h
    cases hfields : decodePresentationFields sections payload with
    | error error =>
      rw [hfields] at h
      cases h
    | ok result =>
      rw [hfields] at h
      cases h
      obtain ⟨hbytes, hapart⟩ := decodePresentationFields_fits sections hfields
      exact ⟨hbytes.trans (not_lt.mp hlength), hapart⟩

end Presentations

/-! ## Storage messages fit -/

theorem decodeCommand_fits {input rest : List UInt8} {command : BroadcastCommand} {serialized : Str}
    (h : decodeCommand input = .ok (command, rest)) (hpost : command.operation = .Post serialized) :
    Str.byteLen serialized ≤ MAX_BROADCAST_MESSAGE_BYTES := by
  obtain ⟨document, input₁, -, h⟩ := Reader.run_bind_eq_ok.mp h
  obtain ⟨channelId, input₂, -, h⟩ := Reader.run_bind_eq_ok.mp h
  obtain ⟨operation, input₃, -, h⟩ := Reader.run_bind_eq_ok.mp h
  obtain ⟨_, input₄, -, h⟩ := Reader.run_bind_eq_ok.mp h
  obtain ⟨_, input₅, hvalid, h⟩ := Reader.run_bind_eq_ok.mp h
  cases h
  have hvalid := (Reader.run_ofExcept_eq_ok.mp hvalid).1
  simp only at hpost
  rw [BroadcastCommand.validate] at hvalid
  simp only [hpost] at hvalid
  by_contra hlong
  rw [if_pos (not_le.mp hlong)] at hvalid
  split at hvalid
  next => cases hvalid
  next => cases hvalid

theorem decodeMutation_fits {input rest : List UInt8} {request : StorageMutationRequest}
    (h : decodeMutation input = .ok (request, rest)) :
    request.mutation.exact.byteLen ≤ Storage.MAX_STORAGE_BYTES_PER_ORIGIN := by
  obtain ⟨found, input₁, -, h⟩ := Reader.run_bind_eq_ok.mp h
  obtain ⟨_, input₂, hvalid, h⟩ := Reader.run_bind_eq_ok.mp h
  obtain ⟨_, input₃, -, h⟩ := Reader.run_bind_eq_ok.mp h
  cases h
  have hvalid := (Reader.run_ofExcept_eq_ok.mp hvalid).1
  rw [StorageMutationRequest.validate] at hvalid
  obtain ⟨_, -, hmutation⟩ := bind_eq_ok.mp hvalid
  have hmutation : request.mutation.exact.validate = .ok () := mapError_eq_ok.mp hmutation
  have hbytes {bytes : Nat} (hbytes : Storage.validateBytes bytes = .ok ()) :
      bytes ≤ Storage.MAX_STORAGE_BYTES_PER_ORIGIN := by
    by_contra hlong
    rw [Storage.validateBytes, if_pos (not_le.mp hlong)] at hbytes
    cases hbytes
  rw [Storage.StorageMutation.validate] at hmutation
  split at hmutation
  next => cases hmutation
  next =>
    rw [Storage.StorageMutation.byteLen]
    cases hoperation : request.mutation.exact.operation with
    | Set key value =>
      rw [hoperation] at hmutation
      exact hbytes hmutation
    | Remove key =>
      rw [hoperation] at hmutation
      exact hbytes hmutation
    | Clear => exact Nat.zero_le _

end ReportDecoding
end BetterWebBrowser.RendererProtocol
