import BetterWebBrowser.IndexedDb.Model
import BetterWebBrowser.RendererProtocol.Report
import BetterWebBrowser.RendererProtocol.Wire
import BetterWebBrowser.Storage.Types

/-!
# Message kinds

The three tables of message kinds: the encoders, the kinds a direction allows, and the payload
limits. A message is its variant and what it carries; the payload encoders are a parameter,
since a kind depends on the variant only.
-/

namespace BetterWebBrowser.RendererProtocol

open Framework Storage

inductive DocumentInputVariant
  | Wheel | Pointer | Keyboard | Text | NativeText | Selection | Focus | Scroll | Lifecycle | History
deriving DecidableEq

inductive BrowserVariant
  | Hello | Ping | Shutdown | ProtocolFailure
  | BeginDocument | BeginStreamingDocument | AbortDocument | DocumentChunk | EndDocument
  | CookieSnapshot | StorageSnapshotStart | StorageSnapshotEntry | StorageSnapshotEnd | StorageSync
  | FetchResponseStart | FetchResponseChunk | FetchResponseEnd | FetchResponseAbort
  | WebSocketEvent | DatabaseEvent | SpeechUpdate | NotificationUpdate | ClipboardUpdate
  | FilePickerUpdate | PermissionUpdate | GeolocationUpdate | MediaDeviceUpdate
  | MediaCaptureUpdate | MediaCaptureFrame | SensorUpdate | BroadcastDelivery | WakeLockUpdate
  | AdvanceTime | ViewportChanged | Input (input : DocumentInputVariant)
  | PresentationAcknowledged | FullscreenResponse | PointerLockResponse | CancelDocument
  | GpuCanvasPolicy | AccessibilityPolicy | Test
deriving DecidableEq

inductive RendererVariant
  | WebSocketCommand | DatabaseCommand | SpeechRequest | NotificationRequest
  | ProtocolHandlerRequest | ClipboardRequest | FilePickerRequest | PermissionRequest
  | GeolocationRequest | MediaDeviceRequest | MediaCaptureRequest | SensorRequest
  | BroadcastCommand | WakeLockRequest | VideoFrame
  | Ready | Pong | ShutdownComplete | Diagnostic
  | FetchBatchStart | FetchRequestStart | FetchRequestChunk | FetchRequestEnd | FetchRequestAbort
  | FetchResponseConsumed | PresentationStart | PresentationChunk | PresentationEnd
  | RuntimeUpdate | DocumentFailed | NavigationRequested | PointerCursor | ScrollCompleted
  | TextSelectionUpdate | FullscreenRequest | PointerLockRequest
  | CookieMutation | PolicyMutation | StorageMutation | StateSnapshotApplied | Restrictions
deriving DecidableEq

structure BrowserMessage (Content : Type) where
  variant : BrowserVariant
  content : Content

structure RendererMessage (Content : Type) where
  variant : RendererVariant
  content : Content

/-! ## The encoders -/

def DocumentInputVariant.kind : DocumentInputVariant → UInt16
  | .Wheel => 0x0151
  | .Pointer => 0x0141
  | .Keyboard => 0x0143
  | .Text => 0x0145
  | .NativeText => 0x0157
  | .Selection => 0x0159
  | .Focus => 0x0147
  | .Scroll => 0x0149
  | .Lifecycle => 0x014b
  | .History => 0x0155

def BrowserVariant.kind : BrowserVariant → UInt16
  | .BroadcastDelivery => 0x0201
  | .DatabaseEvent => 0x0181
  | .SpeechUpdate => 0x0191
  | .NotificationUpdate => 0x01a1
  | .PermissionUpdate => 0x0221
  | .GeolocationUpdate => 0x01b1
  | .MediaDeviceUpdate => 0x01c1
  | .MediaCaptureUpdate => 0x0231
  | .MediaCaptureFrame => 0x0233
  | .SensorUpdate => 0x01d1
  | .ClipboardUpdate => 0x01f1
  | .FilePickerUpdate => 0x0241
  | .WakeLockUpdate => 0x0211
  | .WebSocketEvent => 0x0171
  | .StorageSync => 0x0138
  | .GpuCanvasPolicy => 0x0251
  | .AccessibilityPolicy => 0x0253
  | .Hello => 1
  | .Ping => 3
  | .Shutdown => 5
  | .ProtocolFailure => 7
  -- encode_browser_document
  | .BeginStreamingDocument => 0x0107
  | .AbortDocument => 0x0109
  | .BeginDocument => 0x0101
  | .DocumentChunk => 0x0103
  | .EndDocument => 0x0105
  | .FetchResponseStart => 0x0111
  | .FetchResponseChunk => 0x0113
  | .FetchResponseEnd => 0x0115
  | .FetchResponseAbort => 0x0117
  | .AdvanceTime => 0x0121
  | .ViewportChanged => 0x0123
  | .CancelDocument => 0x0125
  -- encode_browser_input
  | .Input input => input.kind
  | .PresentationAcknowledged => 0x014d
  | .FullscreenResponse => 0x014f
  | .PointerLockResponse => 0x0153
  -- encode_browser_state
  | .CookieSnapshot => 0x0131
  | .StorageSnapshotStart => 0x0133
  | .StorageSnapshotEntry => 0x0135
  | .StorageSnapshotEnd => 0x0137
  | .Test => 0x8001

def RendererVariant.kind : RendererVariant → UInt16
  | .BroadcastCommand => 0x0200
  | .DatabaseCommand => 0x0180
  | .SpeechRequest => 0x0190
  | .NotificationRequest => 0x01a0
  | .ProtocolHandlerRequest => 0x01e0
  | .PermissionRequest => 0x0220
  | .GeolocationRequest => 0x01b0
  | .MediaDeviceRequest => 0x01c0
  | .MediaCaptureRequest => 0x0230
  | .SensorRequest => 0x01d0
  | .ClipboardRequest => 0x01f0
  | .FilePickerRequest => 0x0240
  | .WakeLockRequest => 0x0210
  | .WebSocketCommand => 0x0170
  | .VideoFrame => 0x0160
  | .Ready => 2
  | .Pong => 4
  | .ShutdownComplete => 6
  | .Diagnostic => 8
  -- encode_renderer_document
  | .FetchBatchStart => 0x0102
  | .FetchRequestStart => 0x0104
  | .FetchRequestChunk => 0x0106
  | .FetchRequestEnd => 0x0108
  | .FetchRequestAbort => 0x010a
  | .FetchResponseConsumed => 0x010c
  | .PresentationStart => 0x0112
  | .PresentationChunk => 0x0114
  | .PresentationEnd => 0x0116
  | .RuntimeUpdate => 0x0120
  | .DocumentFailed => 0x0118
  | .NavigationRequested => 0x011a
  | .PointerCursor => 0x011e
  | .ScrollCompleted => 0x0122
  -- encode_renderer_input
  | .FullscreenRequest => 0x0150
  | .PointerLockRequest => 0x0152
  | .TextSelectionUpdate => 0x0156
  -- encode_renderer_state
  | .CookieMutation => 0x0132
  | .PolicyMutation => 0x013a
  | .StorageMutation => 0x0134
  | .StateSnapshotApplied => 0x0136
  | .Restrictions => 0x8002

/-- The payload encoders of the messages of both directions. -/
structure PayloadCodec (Content : Type) where
  encodeBrowserPayload : BrowserVariant → Content → ProtocolResult (List UInt8)
  encodeRendererPayload : RendererVariant → Content → ProtocolResult (List UInt8)

variable {Content : Type}

def PayloadCodec.encodeBrowser (codec : PayloadCodec Content) (message : BrowserMessage Content) :
    ProtocolResult (UInt16 × List UInt8) := do
  let payload ← codec.encodeBrowserPayload message.variant message.content
  pure (message.variant.kind, payload)

def PayloadCodec.encodeRenderer (codec : PayloadCodec Content) (message : RendererMessage Content) :
    ProtocolResult (UInt16 × List UInt8) := do
  let payload ← codec.encodeRendererPayload message.variant message.content
  pure (message.variant.kind, payload)

/-! ## What a direction allows -/

inductive Direction
  | Browser
  | Renderer
deriving DecidableEq

def Direction.kinds : Direction → List UInt16
  | .Browser =>
    [1, 3, 5, 7, 0x0101, 0x0103, 0x0105, 0x0107, 0x0109, 0x0111, 0x0113, 0x0115, 0x0117, 0x0121,
      0x0123, 0x0125, 0x0131, 0x0133, 0x0135, 0x0137, 0x0138, 0x0141, 0x0143, 0x0145, 0x0147,
      0x0149, 0x014b, 0x014d, 0x014f, 0x0151, 0x0153, 0x0155, 0x0157, 0x0159, 0x0171, 0x0181,
      0x0191, 0x01a1, 0x01b1, 0x01c1, 0x0231, 0x0233, 0x0241, 0x0251, 0x0253, 0x01d1, 0x01f1,
      0x0201, 0x0211, 0x0221, 0x8001]
  | .Renderer =>
    [2, 4, 6, 8, 0x0102, 0x0104, 0x0106, 0x0108, 0x010a, 0x010c, 0x0112, 0x0114, 0x0116, 0x0118,
      0x011a, 0x011e, 0x0120, 0x0122, 0x0132, 0x0134, 0x0136, 0x013a, 0x0150, 0x0152, 0x0156,
      0x0160, 0x0170, 0x0180, 0x0190, 0x01a0, 0x01b0, 0x01c0, 0x0230, 0x0240, 0x01d0, 0x01e0,
      0x01f0, 0x0200, 0x0210, 0x0220, 0x8002]

def Direction.allows (direction : Direction) (kind : UInt16) : Bool :=
  direction.kinds.contains kind

/-! ## Payload limits -/

def MAX_FRAME_PAYLOAD : Nat := 8 * 1024 * 1024
def MAX_STORAGE_FRAME_BYTES : Nat := 2 * MAX_STORAGE_BYTES_PER_ORIGIN + 26
def MAX_STORAGE_WRITE_FRAME_BYTES : Nat := MAX_STORAGE_FRAME_BYTES + MAX_URL_BYTES + 12
def MAX_STORAGE_SYNC_FRAME_BYTES : Nat := 4 * MAX_STORAGE_BYTES_PER_ORIGIN + MAX_URL_BYTES + 64
def MAX_CLIPBOARD_TEXT_BYTES : Nat := 256 * 1024
def MAX_CAPTURE_FRAME_BYTES : Nat := 2 * 1024 * 1024

def payloadLimit (kind : UInt16) : Nat :=
  match kind.toNat with
  | 0x0134 => MAX_STORAGE_WRITE_FRAME_BYTES
  | 0x0135 => MAX_STORAGE_FRAME_BYTES
  | 0x0138 => MAX_STORAGE_SYNC_FRAME_BYTES
  | 0x0180 | 0x0181 => IndexedDb.MAX_INDEXED_DB_IPC_BYTES + 64
  | 0x01f0 | 0x01f1 => MAX_CLIPBOARD_TEXT_BYTES + 128
  | 0x0233 => MAX_CAPTURE_FRAME_BYTES + 64
  -- document, request, response, and presentation body chunks are the only bulk frames
  | 0x0103 | 0x0106 | 0x0113 | 0x0114 | 0x0160 => MAX_FRAME_PAYLOAD
  | _ => MAX_CONTROL_PAYLOAD

/-- The largest payload that a reader takes by default. -/
def defaultMaxPayload : Nat := max MAX_FRAME_PAYLOAD MAX_STORAGE_SYNC_FRAME_BYTES

theorem payloadLimit_le (kind : UInt16) : payloadLimit kind ≤ defaultMaxPayload := by
  rw [payloadLimit]
  split <;> decide

/-! ## The tables agree -/

/-- The browser's messages in the order of the direction's table. -/
private def browserVariants : List BrowserVariant :=
  [.Hello, .Ping, .Shutdown, .ProtocolFailure, .BeginDocument, .DocumentChunk, .EndDocument,
    .BeginStreamingDocument, .AbortDocument, .FetchResponseStart, .FetchResponseChunk,
    .FetchResponseEnd, .FetchResponseAbort, .AdvanceTime, .ViewportChanged, .CancelDocument,
    .CookieSnapshot, .StorageSnapshotStart, .StorageSnapshotEntry, .StorageSnapshotEnd, .StorageSync,
    .Input .Pointer, .Input .Keyboard, .Input .Text, .Input .Focus, .Input .Scroll,
    .Input .Lifecycle, .PresentationAcknowledged, .FullscreenResponse, .Input .Wheel,
    .PointerLockResponse, .Input .History, .Input .NativeText, .Input .Selection, .WebSocketEvent,
    .DatabaseEvent, .SpeechUpdate, .NotificationUpdate, .GeolocationUpdate, .MediaDeviceUpdate,
    .MediaCaptureUpdate, .MediaCaptureFrame, .FilePickerUpdate, .GpuCanvasPolicy,
    .AccessibilityPolicy, .SensorUpdate, .ClipboardUpdate, .BroadcastDelivery, .WakeLockUpdate,
    .PermissionUpdate, .Test]

/-- The renderer's messages in the order of the direction's table. -/
private def rendererVariants : List RendererVariant :=
  [.Ready, .Pong, .ShutdownComplete, .Diagnostic, .FetchBatchStart, .FetchRequestStart,
    .FetchRequestChunk, .FetchRequestEnd, .FetchRequestAbort, .FetchResponseConsumed,
    .PresentationStart, .PresentationChunk, .PresentationEnd, .DocumentFailed, .NavigationRequested,
    .PointerCursor, .RuntimeUpdate, .ScrollCompleted, .CookieMutation, .StorageMutation,
    .StateSnapshotApplied, .PolicyMutation, .FullscreenRequest, .PointerLockRequest,
    .TextSelectionUpdate, .VideoFrame, .WebSocketCommand, .DatabaseCommand, .SpeechRequest,
    .NotificationRequest, .GeolocationRequest, .MediaDeviceRequest, .MediaCaptureRequest,
    .FilePickerRequest, .SensorRequest, .ProtocolHandlerRequest, .ClipboardRequest,
    .BroadcastCommand, .WakeLockRequest, .PermissionRequest, .Restrictions]

/-- A kind that the encoder of this direction's messages produces. -/
def Direction.Produces : Direction → UInt16 → Prop
  | .Browser, kind => ∃ variant : BrowserVariant, variant.kind = kind
  | .Renderer, kind => ∃ variant : RendererVariant, variant.kind = kind

def Direction.opposite : Direction → Direction
  | .Browser => .Renderer
  | .Renderer => .Browser

/-- A direction allows exactly the kinds that its encoder produces. -/
theorem allows_iff_produces (direction : Direction) (kind : UInt16) :
    direction.allows kind = true ↔ direction.Produces kind := by
  rw [Direction.allows, List.contains_iff_mem]
  cases direction with
  | Browser =>
    constructor
    · intro h
      have htable : Direction.Browser.kinds = browserVariants.map BrowserVariant.kind := by decide
      rw [htable] at h
      obtain ⟨variant, -, hkind⟩ := List.mem_map.mp h
      exact ⟨variant, hkind⟩
    · rintro ⟨variant, rfl⟩
      cases variant with
      | Input input => cases input <;> decide
      | _ => decide
  | Renderer =>
    constructor
    · intro h
      have htable : Direction.Renderer.kinds = rendererVariants.map RendererVariant.kind := by decide
      rw [htable] at h
      obtain ⟨variant, -, hkind⟩ := List.mem_map.mp h
      exact ⟨variant, hkind⟩
    · rintro ⟨variant, rfl⟩
      cases variant <;> decide

/-- No kind is allowed in both directions. -/
theorem allows_opposite {direction : Direction} {kind : UInt16} (h : direction.allows kind = true) :
    direction.opposite.allows kind = false := by
  have hall : (Direction.Browser.kinds.all fun kind => !Direction.Renderer.kinds.contains kind) =
      true := by decide
  have hdisjoint : ∀ kind ∈ Direction.Browser.kinds, kind ∉ Direction.Renderer.kinds := by
    intro kind hkind hother
    have hnot := List.all_eq_true.mp hall kind hkind
    rw [List.contains_iff_mem.mpr hother] at hnot
    cases hnot
  rw [Direction.allows, List.contains_iff_mem] at h
  rw [Direction.allows, ← Bool.not_eq_true, List.contains_iff_mem]
  cases direction with
  | Browser => exact hdisjoint kind h
  | Renderer => exact fun hbrowser => hdisjoint kind hbrowser h

end BetterWebBrowser.RendererProtocol
