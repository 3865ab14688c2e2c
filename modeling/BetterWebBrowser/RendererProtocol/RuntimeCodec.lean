import BetterWebBrowser.RendererProtocol.Report
import BetterWebBrowser.RendererProtocol.Wire

/-!
# Codec of the runtime reports

A runtime report as it is written, read and measured. Its numbers have the widths and the
bits they have on the wire.
-/

namespace BetterWebBrowser.RendererProtocol

open Framework

def MAX_HISTORY_STATE_BYTES : Nat := 32 * 1024
def MAX_RUNTIME_REPORT_TEXT_BYTES : Nat := 64 * 1024
def MAX_RENDERER_TEXT_INPUT_BYTES : Nat := 64 * 1024
def MAX_FORM_BODY_BYTES : Nat := 5 * 1024 * 1024

namespace NavigationOptions

instance : Inhabited NavigationOptions :=
  ⟨{ target := [], post := none, noreferrer := false, replaceHistory := false,
     userInitiated := false, formSubmission := false }⟩

/-- The content types a form may be sent with. -/
def isFormContentType (contentType : Str) : Bool :=
  contentType = "application/x-www-form-urlencoded".toList ∨ contentType = "text/plain".toList ∨
    "multipart/form-data; boundary=".toList.isPrefixOf contentType

def validate (options : NavigationOptions) : Except String Unit := do
  failIf (1024 < Str.byteLen options.target ∨ '\x00' ∈ options.target) "invalid navigation target"
  match options.post with
  | none => pure ()
  | some post =>
    failIf (MAX_FORM_BODY_BYTES < post.body.length) "form submission exceeds the 5 MiB body limit"
    failIf (256 < Str.byteLen post.contentType ∨
        '\r' ∈ post.contentType ∨ '\n' ∈ post.contentType ∨ '\x00' ∈ post.contentType ∨
        ¬ isFormContentType post.contentType)
      "invalid form submission content type"

end NavigationOptions

namespace DocumentNodeId

/-- `DocumentNodeId::new` -/
def new (value : BitVec 128) : ProtocolResult DocumentNodeId :=
  if h : value.toNat / 2 ^ 64 ≠ 0 ∧ value.toNat % 2 ^ 64 ≠ 0 then
    .ok ⟨value.toNat, value.isLt, h.1, h.2⟩
  else .error (.InvalidPayload "document node identifier")

end DocumentNodeId

/-- A document of the renderer. -/
structure DocumentId where
  get : UInt64
  ne_zero : get ≠ 0
deriving DecidableEq

namespace ScrollRestorationMode

def wireTag : ScrollRestorationMode → UInt8
  | .Auto => 0
  | .Manual => 1

def fromWireTag : UInt8 → ProtocolResult ScrollRestorationMode
  | 0 => .ok .Auto
  | 1 => .ok .Manual
  | _ => .error (.InvalidPayload "scroll restoration mode")

end ScrollRestorationMode

namespace RuntimeCodec

structure WheelAcknowledgement where
  sequence : UInt64
  decision : WheelDecision
  viewportDeltaY : Single
  dispatchMicros : UInt64
deriving DecidableEq

inductive HistoryAction
  | Update (url : Str) (replace : Bool) (state : Option Str) (scrollY : Single)
  | Traverse (delta : Int32)
  | SetScrollRestoration (mode : ScrollRestorationMode)
deriving DecidableEq

structure NativeTextRejection where
  sequence : UInt64
  generation : UInt32
  target : DocumentNodeId
  value : Str
  selectionStart : UInt32
  selectionEnd : UInt32
deriving DecidableEq

structure MediaRuntimeReport where
  active : Bool
  playing : Bool
  ended : Bool
  currentTime100ns : UInt64
  duration100ns : UInt64
  backend : Str
  mimeType : Str
  videoCodec : Str
  audioCodec : Str
  encodedQueueBytes : UInt64
  encodedQueueLimitBytes : UInt64
  decodedFrameQueueDepth : UInt16
  decodedFrameQueueLimit : UInt16
  framesSubmitted : UInt64
  droppedFrames : UInt64
  width : UInt32
  height : UInt32
  failure : Option Str
deriving DecidableEq

structure RuntimeReport where
  scriptsExecuted : UInt64
  domMutations : UInt64
  errors : List Str
  console : List Str
  diagnostics : List Str
  navigationUrl : Option Str
  navigationOptions : NavigationOptions
  viewportScrollY : Option Single
  viewportWheelDeltaY : Single
  wheelAcknowledgements : List WheelAcknowledgement
  wheelHasBlockingListeners : Option Bool
  wheelHasNestedScroll : Option Bool
  historyActions : List HistoryAction
  historyTraversalAck : Option UInt64
  nativeTextRejection : Option NativeTextRejection
  cookieUpdates : List Str
  runtimeActive : Bool
  runtimeStopped : Bool
  renderRequested : Bool
  media : Option MediaRuntimeReport
deriving DecidableEq

instance : Inhabited RuntimeReport :=
  ⟨{ scriptsExecuted := 0, domMutations := 0, errors := [], console := [], diagnostics := [],
     navigationUrl := none, navigationOptions := default, viewportScrollY := none,
     viewportWheelDeltaY := ⟨0⟩, wheelAcknowledgements := [], wheelHasBlockingListeners := none,
     wheelHasNestedScroll := none, historyActions := [], historyTraversalAck := none,
     nativeTextRejection := none, cookieUpdates := [], runtimeActive := false,
     runtimeStopped := false, renderRequested := false, media := none }⟩

structure RendererRuntimeUpdate where
  document : DocumentId
  clockAdvanced : Bool
  runtime : RuntimeReport
  load : PageLoadReport
  nextTimerMicros : Option UInt64
deriving DecidableEq

/-- `value.encode_utf16().count()` -/
def utf16Len (value : Str) : Nat := (value.map fun c => if c.toNat < 0x10000 then 1 else 2).sum

/-! ## Encoding -/

/-- A text of the report. -/
def encodeText (field : String) (value : Str) : ProtocolResult (List UInt8) := do
  failIf (MAX_RUNTIME_REPORT_TEXT_BYTES < Str.byteLen value) (.InvalidPayload field)
  WireWriter.string value

def encodeStrings (values : List Str) (field : String) : ProtocolResult (List UInt8) := do
  failIf (MAX_RUNTIME_REPORT_ENTRIES < values.length) (.InvalidPayload field)
  let texts ← Reader.writeEach (encodeText "runtime report text") values
  pure (WireWriter.u32 (UInt32.ofNat values.length) ++ texts)

def encodePost (post : FormPost) : ProtocolResult (List UInt8) := do
  let contentType ← WireWriter.string post.contentType
  let body ← WireWriter.bytes post.body
  pure (contentType ++ body)

/-- The options are written behind a URL only. -/
def encodeNavigation (options : NavigationOptions) (url : Str) : ProtocolResult (List UInt8) := do
  let url ← WireWriter.string url
  (options.validate).mapError .InvalidPayload
  let target ← WireWriter.string options.target
  let post ← WireWriter.option encodePost options.post
  pure (url ++ target ++ WireWriter.bool options.noreferrer ++ WireWriter.bool options.replaceHistory ++
    WireWriter.bool options.userInitiated ++ WireWriter.bool options.formSubmission ++ post)

def wheelDecisionTag : WheelDecision → UInt8
  | .Cancelled => 1
  | .NestedScroll => 2
  | .Viewport => 3
  | .NoMotion => 4

/-- `wheel::validate` -/
def validateWheel (values : List WheelAcknowledgement) : ProtocolResult Unit :=
  failIf (MAX_WHEEL_ACKNOWLEDGEMENTS < values.length ∨
      values.head?.any (fun value => value.sequence = 0) ∨
      (values.zip values.tail).any (fun pair => pair.2.sequence ≤ pair.1.sequence) ∨
      values.any fun value => !value.viewportDeltaY.isFinite ||
        (value.decision ≠ .Viewport && value.viewportDeltaY.neZero))
    (.InvalidPayload "wheel acknowledgements")

def encodeAcknowledgement (value : WheelAcknowledgement) : List UInt8 :=
  WireWriter.u64 value.sequence ++ WireWriter.u8 (wheelDecisionTag value.decision) ++
    WireWriter.f32 value.viewportDeltaY ++ WireWriter.u64 value.dispatchMicros

/-- `wheel::encode` -/
def encodeWheel (values : List WheelAcknowledgement) : ProtocolResult (List UInt8) := do
  validateWheel values
  pure (WireWriter.u32 (UInt32.ofNat values.length) ++ values.flatMap encodeAcknowledgement)

def encodeHistoryAction : HistoryAction → ProtocolResult (List UInt8)
  | .Update url replace state scrollY => do
    failIf (url = [] ∨ MAX_URL_BYTES < Str.byteLen url ∨ ¬ scrollY.isFinite ∨ scrollY.ltZero ∨
        state.any fun value => MAX_HISTORY_STATE_BYTES < Str.byteLen value)
      (.InvalidPayload "history update")
    let url ← WireWriter.string url
    let state ← WireWriter.option WireWriter.string state
    pure (WireWriter.u8 1 ++ url ++ WireWriter.bool replace ++ state ++ WireWriter.f32 scrollY)
  | .Traverse delta => pure (WireWriter.u8 2 ++ WireWriter.i32 delta)
  | .SetScrollRestoration mode => pure (WireWriter.u8 3 ++ WireWriter.u8 mode.wireTag)

def encodeRejection (rejection : NativeTextRejection) : ProtocolResult (List UInt8) := do
  failIf (rejection.sequence = 0 ∨ MAX_RENDERER_TEXT_INPUT_BYTES < Str.byteLen rejection.value ∨
      rejection.selectionEnd < rejection.selectionStart ∨
      utf16Len rejection.value < rejection.selectionEnd.toNat)
    (.InvalidPayload "native text rejection")
  let value ← WireWriter.string rejection.value
  pure (WireWriter.u64 rejection.sequence ++ WireWriter.u32 rejection.generation ++
    WireWriter.u128 (BitVec.ofNat 128 rejection.target.get) ++ value ++
    WireWriter.u32 rejection.selectionStart ++ WireWriter.u32 rejection.selectionEnd)

def encodeMediaRuntime (report : MediaRuntimeReport) : ProtocolResult (List UInt8) := do
  let backend ← encodeText "media runtime text" report.backend
  let mimeType ← encodeText "media runtime text" report.mimeType
  let videoCodec ← encodeText "media runtime text" report.videoCodec
  let audioCodec ← encodeText "media runtime text" report.audioCodec
  let failure ← WireWriter.option (encodeText "media runtime failure") report.failure
  pure (WireWriter.bool report.active ++ WireWriter.bool report.playing ++
    WireWriter.bool report.ended ++ WireWriter.u64 report.currentTime100ns ++
    WireWriter.u64 report.duration100ns ++ backend ++ mimeType ++ videoCodec ++ audioCodec ++
    WireWriter.u64 report.encodedQueueBytes ++ WireWriter.u64 report.encodedQueueLimitBytes ++
    WireWriter.u16 report.decodedFrameQueueDepth ++ WireWriter.u16 report.decodedFrameQueueLimit ++
    WireWriter.u64 report.framesSubmitted ++ WireWriter.u64 report.droppedFrames ++
    WireWriter.u32 report.width ++ WireWriter.u32 report.height ++ failure)

def encodeFlag (flag : Bool) : ProtocolResult (List UInt8) := pure (WireWriter.bool flag)

def encodeRuntime (report : RuntimeReport) : ProtocolResult (List UInt8) := do
  let errors ← encodeStrings report.errors "runtime errors count"
  let console ← encodeStrings report.console "runtime console count"
  let diagnostics ← encodeStrings report.diagnostics "runtime diagnostics count"
  let navigation ← WireWriter.option (encodeNavigation report.navigationOptions) report.navigationUrl
  failIf (report.viewportScrollY.any fun y => !y.isFinite || y.ltZero)
    (.InvalidPayload "viewport scroll offset")
  let scroll ← WireWriter.option (fun y => pure (WireWriter.f32 y)) report.viewportScrollY
  failIf (¬ report.viewportWheelDeltaY.isFinite) (.InvalidPayload "viewport wheel delta")
  let wheel ← encodeWheel report.wheelAcknowledgements
  let blocking ← WireWriter.option encodeFlag report.wheelHasBlockingListeners
  let nested ← WireWriter.option encodeFlag report.wheelHasNestedScroll
  failIf (MAX_RUNTIME_REPORT_ENTRIES < report.historyActions.length)
    (.InvalidPayload "history action count")
  let actions ← Reader.writeEach encodeHistoryAction report.historyActions
  failIf (report.historyTraversalAck = some 0) (.InvalidPayload "history traversal acknowledgement")
  let ack ← WireWriter.option (fun sequence => pure (WireWriter.u64 sequence))
    report.historyTraversalAck
  let rejection ← WireWriter.option encodeRejection report.nativeTextRejection
  let cookies ← encodeStrings report.cookieUpdates "runtime cookie updates count"
  let media ← WireWriter.option encodeMediaRuntime report.media
  pure (WireWriter.u64 report.scriptsExecuted ++ WireWriter.u64 report.domMutations ++ errors ++
    console ++ diagnostics ++ navigation ++ scroll ++ WireWriter.f32 report.viewportWheelDeltaY ++
    wheel ++ blocking ++ nested ++
    WireWriter.u32 (UInt32.ofNat report.historyActions.length) ++ actions ++ ack ++ rejection ++
    cookies ++ WireWriter.bool report.runtimeActive ++ WireWriter.bool report.runtimeStopped ++
    WireWriter.bool report.renderRequested ++ media)

def loadFields (report : PageLoadReport) : List Nat :=
  [report.parseMicros, report.htmlParseMicros, report.resourceProcessingMicros,
   report.scriptMicros, report.scriptFetchMicros, report.styleMicros, report.layoutMicros,
   report.textMeasureCount, report.textShapeCacheHits, report.textShapeCacheMisses,
   report.textShapeCacheFlushes, report.textShapeCacheEntries, report.fontCatalogMicros,
   report.fontSelectMicros, report.openTypeShapeMicros, report.glyphRasterMicros,
   report.presentationEncodeMicros, report.presentationDecodeMicros]

/-- `LayoutStats::to_fields` -/
def toFields (stats : LayoutStats) : List Nat :=
  [stats.passes, stats.boxesRebuilt, stats.blocksLaidOut, stats.subtreesReplayed,
   stats.itemsEmitted, stats.itemsReplayed, stats.boxTreeMicros, stats.blockLayoutMicros,
   stats.inlineGeometryMicros, stats.overflowMicros, stats.paintOrderMicros, stats.hitTestMicros,
   stats.stickyMicros]

def encodeLoad (report : PageLoadReport) : List UInt8 :=
  (loadFields report ++ toFields report.layout).flatMap fun value => WireWriter.u64 (UInt64.ofNat value)

/-- The payload of a `RuntimeUpdate`, message kind 0x0120. -/
def encodeRuntimeUpdate (update : RendererRuntimeUpdate) : ProtocolResult (List UInt8) := do
  let runtime ← encodeRuntime update.runtime
  pure (WireWriter.u64 update.document.get ++ WireWriter.bool update.clockAdvanced ++ runtime ++
    encodeLoad update.load ++ WireWriter.optional WireWriter.u64 update.nextTimerMicros)

/-! ## Decoding -/

open WireReader

/-- A counted list whose count is checked first. -/
def decodeList {A : Type} (maximum : Nat) (field : String) (item : WireReader A) :
    WireReader (List A) := do
  let count ← boundedCount (← u32) maximum field
  item.times count

def decodeStrings : WireReader (List Str) :=
  decodeList MAX_RUNTIME_REPORT_ENTRIES "runtime report count" (string MAX_RUNTIME_REPORT_TEXT_BYTES)

def decodePost : WireReader FormPost := do
  let contentType ← string 256
  let body ← bytes MAX_FORM_BODY_BYTES
  pure { contentType, body }

def decodeOptionFields : WireReader NavigationOptions := do
  let target ← string 1024
  let noreferrer ← bool
  let replaceHistory ← bool
  let userInitiated ← bool
  let formSubmission ← bool
  let post ← option decodePost
  pure { target, noreferrer, replaceHistory, userInitiated, formSubmission, post }

def decodeOptions : WireReader NavigationOptions := do
  let options ← decodeOptionFields
  Reader.ofExcept (options.validate.mapError .InvalidPayload)
  pure options

/-- The URL, and the options behind it or the default ones. -/
def decodeNavigation : WireReader (Option Str × NavigationOptions) := do
  match ← option (string MAX_URL_BYTES) with
  | none => pure (none, default)
  | some url =>
    let options ← decodeOptions
    pure (some url, options)

def decodeWheelDecision : WireReader WheelDecision := do
  match ← u8 with
  | 1 => pure .Cancelled
  | 2 => pure .NestedScroll
  | 3 => pure .Viewport
  | 4 => pure .NoMotion
  | _ => WireReader.invalid "wheel decision"

def decodeAcknowledgement : WireReader WheelAcknowledgement := do
  let sequence ← u64
  let decision ← decodeWheelDecision
  let viewportDeltaY ← f32
  let dispatchMicros ← u64
  pure { sequence, decision, viewportDeltaY, dispatchMicros }

/-- `wheel::decode` -/
def decodeWheel : WireReader (List WheelAcknowledgement) := do
  let values ← decodeList MAX_WHEEL_ACKNOWLEDGEMENTS "wheel acknowledgements" decodeAcknowledgement
  Reader.ofExcept (validateWheel values)
  pure values

def decodeUpdate : WireReader (Str × Bool × Option Str × Single) := do
  let url ← string MAX_URL_BYTES
  let replace ← bool
  let state ← option (string MAX_HISTORY_STATE_BYTES)
  let scrollY ← f32
  Reader.failIf (¬ scrollY.isFinite ∨ scrollY.ltZero) (.InvalidPayload "history scroll position")
  pure (url, replace, state, scrollY)

def decodeMode : WireReader ScrollRestorationMode := do
  let tag ← u8
  Reader.ofExcept (ScrollRestorationMode.fromWireTag tag)

def decodeHistoryAction : WireReader HistoryAction := do
  match ← u8 with
  | 1 =>
    let (url, replace, state, scrollY) ← decodeUpdate
    pure (.Update url replace state scrollY)
  | 2 =>
    let delta ← i32
    pure (.Traverse delta)
  | 3 =>
    let mode ← decodeMode
    pure (.SetScrollRestoration mode)
  | _ => WireReader.invalid "history action tag"

def decodeNodeId : WireReader DocumentNodeId := do
  let value ← u128
  Reader.ofExcept (DocumentNodeId.new value)

def decodeRejection : WireReader NativeTextRejection := do
  let sequence ← u64
  let generation ← u32
  let target ← decodeNodeId
  let value ← string MAX_RENDERER_TEXT_INPUT_BYTES
  let selectionStart ← u32
  let selectionEnd ← u32
  Reader.failIf (sequence = 0 ∨ selectionEnd < selectionStart ∨ utf16Len value < selectionEnd.toNat)
    (.InvalidPayload "native text rejection")
  pure { sequence, generation, target, value, selectionStart, selectionEnd }

def decodeMediaRuntime : WireReader MediaRuntimeReport := do
  let active ← bool
  let playing ← bool
  let ended ← bool
  let currentTime100ns ← u64
  let duration100ns ← u64
  let backend ← string MAX_RUNTIME_REPORT_TEXT_BYTES
  let mimeType ← string MAX_RUNTIME_REPORT_TEXT_BYTES
  let videoCodec ← string MAX_RUNTIME_REPORT_TEXT_BYTES
  let audioCodec ← string MAX_RUNTIME_REPORT_TEXT_BYTES
  let encodedQueueBytes ← u64
  let encodedQueueLimitBytes ← u64
  let decodedFrameQueueDepth ← u16
  let decodedFrameQueueLimit ← u16
  let framesSubmitted ← u64
  let droppedFrames ← u64
  let width ← u32
  let height ← u32
  let failure ← option (string MAX_RUNTIME_REPORT_TEXT_BYTES)
  pure { active, playing, ended, currentTime100ns, duration100ns, backend, mimeType, videoCodec,
         audioCodec, encodedQueueBytes, encodedQueueLimitBytes, decodedFrameQueueDepth,
         decodedFrameQueueLimit, framesSubmitted, droppedFrames, width, height, failure }

def decodeRuntime : WireReader RuntimeReport := do
  let scriptsExecuted ← u64
  let domMutations ← u64
  let errors ← decodeStrings
  let console ← decodeStrings
  let diagnostics ← decodeStrings
  let (navigationUrl, navigationOptions) ← decodeNavigation
  let viewportScrollY ← option f32
  Reader.failIf (viewportScrollY.any fun y => !y.isFinite || y.ltZero)
    (.InvalidPayload "viewport scroll offset")
  let viewportWheelDeltaY ← f32
  Reader.failIf (¬ viewportWheelDeltaY.isFinite) (.InvalidPayload "viewport wheel delta")
  let wheelAcknowledgements ← decodeWheel
  let wheelHasBlockingListeners ← option bool
  let wheelHasNestedScroll ← option bool
  let historyActions ← decodeList MAX_RUNTIME_REPORT_ENTRIES "history action count" decodeHistoryAction
  let historyTraversalAck ← option u64
  Reader.failIf (historyTraversalAck = some 0) (.InvalidPayload "history traversal acknowledgement")
  let nativeTextRejection ← option decodeRejection
  let cookieUpdates ← decodeStrings
  let runtimeActive ← bool
  let runtimeStopped ← bool
  let renderRequested ← bool
  let media ← option decodeMediaRuntime
  pure { scriptsExecuted, domMutations, errors, console, diagnostics, navigationUrl,
         navigationOptions, viewportScrollY, viewportWheelDeltaY, wheelAcknowledgements,
         wheelHasBlockingListeners, wheelHasNestedScroll, historyActions, historyTraversalAck,
         nativeTextRejection, cookieUpdates, runtimeActive, runtimeStopped, renderRequested, media }

/-! ## Measuring -/

/-- `bytes.saturating_add(4).saturating_add(text.len())` over the texts. -/
def addTexts (bytes : Nat) (texts : List Str) : Nat :=
  texts.foldl (fun bytes text => saturatingAdd (saturatingAdd bytes 4) (Str.byteLen text)) bytes

def addHistoryAction (bytes : Nat) : HistoryAction → Nat
  | .Update url _ state _ =>
    saturatingAdd (saturatingAdd (saturatingAdd bytes 11) (Str.byteLen url))
      (state.elim 0 fun state => saturatingAdd 4 (Str.byteLen state))
  | .Traverse _ => saturatingAdd bytes 5
  | .SetScrollRestoration _ => saturatingAdd bytes 2

def edgeBytes (value : RuntimeReport) : Nat :=
  let strings := addTexts (min (value.wheelAcknowledgements.length * 21) (2 ^ 64 - 1))
    (value.errors ++ value.console ++ value.diagnostics ++ value.cookieUpdates)
  value.historyActions.foldl addHistoryAction strings

def addRejection (bytes : Nat) : Option NativeTextRejection → Nat
  | none => bytes
  | some rejection => saturatingAdd bytes (8 + 4 + 16 + 4 + Str.byteLen rejection.value + 4 + 4)

def addNavigation (bytes : Nat) (navigation : RuntimeReport) : Nat :=
  match navigation.navigationUrl with
  | none => bytes
  | some url =>
    let bytes := saturatingAdd (saturatingAdd (saturatingAdd bytes 13) (Str.byteLen url))
      (Str.byteLen navigation.navigationOptions.target)
    match navigation.navigationOptions.post with
    | none => bytes
    | some post => saturatingAdd (saturatingAdd (saturatingAdd bytes 8) (Str.byteLen post.contentType))
      post.body.length

def addMedia (bytes : Nat) : Option MediaRuntimeReport → Nat
  | none => bytes
  | some media =>
    let bytes := saturatingAdd (saturatingAdd (saturatingAdd (saturatingAdd (saturatingAdd bytes 80)
      (Str.byteLen media.backend)) (Str.byteLen media.mimeType)) (Str.byteLen media.videoCodec))
      (Str.byteLen media.audioCodec)
    match media.failure with
    | none => bytes
    | some failure => saturatingAdd (saturatingAdd bytes 4) (Str.byteLen failure)

/-- Fixed fields and list prefixes, and the optional bodies of the merged snapshot. -/
def snapshotBytes (previous next : RuntimeReport) : Nat :=
  let bytes := saturatingAdd 54
    (next.wheelHasBlockingListeners.or previous.wheelHasBlockingListeners).isSome.toNat
  let bytes := saturatingAdd bytes
    (next.wheelHasNestedScroll.or previous.wheelHasNestedScroll).isSome.toNat
  let bytes := addRejection bytes (next.nativeTextRejection.or previous.nativeTextRejection)
  let bytes :=
    if (next.historyTraversalAck.or previous.historyTraversalAck).isSome then saturatingAdd bytes 8
    else bytes
  let bytes := addNavigation bytes (if next.navigationUrl.isSome then next else previous)
  let bytes :=
    if (next.viewportScrollY.or previous.viewportScrollY).isSome then saturatingAdd bytes 4
    else bytes
  addMedia bytes next.media

def runtimeBytes (value : RuntimeReport) : Nat :=
  saturatingAdd (edgeBytes value) (snapshotBytes value value)

def runtimeUpdateOverhead (value : RendererRuntimeUpdate) : Nat :=
  8 + 1 + (18 + 13) * 8 + 1 + value.nextTimerMicros.isSome.toNat * 8

def RendererRuntimeUpdate.oneShotResourceBytes (value : RendererRuntimeUpdate) : Nat :=
  saturatingAdd (runtimeUpdateOverhead value) (runtimeBytes value.runtime)

end RuntimeCodec

end BetterWebBrowser.RendererProtocol
