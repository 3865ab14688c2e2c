import BetterWebBrowser.RendererProtocol.ReportDecoding

/-!
# Event queue

The bounded queue of a renderer's events between the broker, its only sender, and the browser.
A send that has to wait keeps its event outside the queue and tries again whenever the queue
changes. What an event says beyond the fields read here is one type parameter. The wake-up of
the browser's window is left out.
-/

namespace BetterWebBrowser.RendererProcess

open Framework RendererProtocol

def MAX_QUEUED_RENDERER_EVENTS : Nat := 256
def MAX_QUEUED_RENDERER_FETCH_BATCHES : Nat := 1
def MAX_PENDING_STORAGE_BYTES : Nat := 32 * 1024 * 1024

/-! ## Events -/

/-- A message of which only the document is read. -/
structure DocumentMessage (Detail : Type) where
  document : Nat
  detail : Detail
deriving DecidableEq

structure VideoFrameIdentity where
  document : Nat
  revision : Nat
  frame : Nat
  node : Nat
  width : Nat
  height : Nat
deriving DecidableEq

structure VideoFrameUpdate where
  identity : VideoFrameIdentity
  pixels : List UInt8
deriving DecidableEq

structure PointerCursorResult (Detail : Type) where
  document : Nat
  sequence : Nat
  cursor : Detail
deriving DecidableEq

structure TextSelectionUpdate (Detail : Type) where
  document : Nat
  target : DocumentNodeId
  value : Str
  selectionStart : Nat
  selectionEnd : Nat
  direction : Detail
  /-- Last browser input applied when the renderer produced this selection. -/
  observedInputSequence : Nat
deriving DecidableEq

inductive RendererEvent (Content Detail : Type)
  | Diagnostic (code : Nat) (text : Str)
  | FetchBatch (document : Nat) (requests : Detail)
  | FetchAbort (document requestId : Nat)
  | Presentation (value : RendererPresentation Content)
  | VideoFrame (update : VideoFrameUpdate)
  | RuntimeUpdate (value : RendererRuntimeUpdate)
  | DocumentFailed (document : Nat) (detail : Str)
  | NavigationRequested (document : Nat) (url : Str) (detail : Detail)
  | PointerCursor (result : PointerCursorResult Detail)
  | ScrollCompleted (document sequence : Nat)
  | TextSelectionUpdate (update : TextSelectionUpdate Detail)
  | FullscreenRequested (request : DocumentMessage Detail)
  | PointerLockRequested (request : DocumentMessage Detail)
  | WakeLockRequested (request : DocumentMessage Detail)
  | CookieMutation (mutation : DocumentMessage Detail)
  | PolicyMutation (mutation : DocumentMessage Detail)
  | StorageMutation (request : StorageCodec.StorageMutationRequest)
  | BroadcastCommand (command : BroadcastCommand)
  | WebSocketCommand (command : DocumentMessage Detail)
  | DatabaseCommand (command : DocumentMessage Detail)
  | SpeechRequest (request : DocumentMessage Detail)
  | NotificationRequest (request : DocumentMessage Detail)
  | ProtocolHandlerRequest (request : DocumentMessage Detail)
  | PermissionRequest (request : DocumentMessage Detail)
  | GeolocationRequest (request : DocumentMessage Detail)
  | MediaDeviceRequest (request : DocumentMessage Detail)
  | MediaCaptureRequest (request : DocumentMessage Detail)
  | SensorRequest (request : DocumentMessage Detail)
  | ClipboardRequest (request : DocumentMessage Detail)
  | FilePickerRequest (request : DocumentMessage Detail)
  | Unresponsive
  | Exited (exit : Detail)

variable {Content Detail : Type}

namespace RendererEvent

/-- The events that `send` neither merges nor replaces. -/
def isLossless : RendererEvent Content Detail → Bool
  | .FetchBatch .. | .ScrollCompleted .. | .FetchAbort .. | .StorageMutation _
  | .BroadcastCommand _ | .PolicyMutation _ | .WebSocketCommand _ | .DatabaseCommand _
  | .SpeechRequest _ | .NotificationRequest _ | .PermissionRequest _ | .GeolocationRequest _
  | .MediaDeviceRequest _ | .MediaCaptureRequest _ | .SensorRequest _ | .ClipboardRequest _
  | .FilePickerRequest _ => true
  | _ => false

def isFetchBatch : RendererEvent Content Detail → Bool
  | .FetchBatch .. => true
  | _ => false

def isVideoFrame : RendererEvent Content Detail → Bool
  | .VideoFrame _ => true
  | _ => false

/-- `event_document` -/
def document : RendererEvent Content Detail → Option Nat
  | .FetchBatch document _ | .FetchAbort document _ | .DocumentFailed document _
  | .ScrollCompleted document _ | .NavigationRequested document _ _ => some document
  | .PointerCursor result => some result.document
  | .TextSelectionUpdate update => some update.document
  | .Presentation value => some value.document
  | .VideoFrame update => some update.identity.document
  | .RuntimeUpdate value => some value.document
  | .StorageMutation request => some request.document.get.toNat
  | .BroadcastCommand command => some command.document.get.toNat
  | .CookieMutation message | .PolicyMutation message | .WebSocketCommand message
  | .DatabaseCommand message | .SpeechRequest message | .NotificationRequest message
  | .ProtocolHandlerRequest message | .PermissionRequest message | .GeolocationRequest message
  | .MediaDeviceRequest message | .MediaCaptureRequest message | .SensorRequest message
  | .ClipboardRequest message | .FilePickerRequest message | .FullscreenRequested message
  | .PointerLockRequested message | .WakeLockRequested message => some message.document
  | .Diagnostic .. | .Unresponsive | .Exited _ => none

/-- `event_storage_bytes` -/
def storageBytes : RendererEvent Content Detail → Nat
  | .StorageMutation request => request.mutation.exact.byteLen
  | .BroadcastCommand command =>
    match command.operation with
    | .Post serialized => Str.byteLen serialized
    | _ => 0
  | _ => 0

/-- `event_resource_bytes` -/
def resourceBytes : RendererEvent Content Detail → Nat
  | .Presentation value => value.oneShotResourceBytes
  | .RuntimeUpdate value => value.oneShotResourceBytes
  | _ => 0

def asPresentation : RendererEvent Content Detail → Option (RendererPresentation Content)
  | .Presentation value => some value
  | _ => none

def asRuntimeUpdate : RendererEvent Content Detail → Option RendererRuntimeUpdate
  | .RuntimeUpdate value => some value
  | _ => none

end RendererEvent

open RendererEvent

/-! ## Compaction and budgets -/

/-- Only an adjacent value of the same kind and document can merge. It leaves the queue first. -/
def coalesceLast {A : Type} (view : RendererEvent Content Detail → Option A)
    (make : A → RendererEvent Content Detail) (document : A → Nat)
    (merge : A → A → ProtocolResult (A × Option A)) (events : List (RendererEvent Content Detail))
    (next : A) : List (RendererEvent Content Detail) × ProtocolResult A :=
  match events.getLast?.bind view with
  | none => (events, .ok next)
  | some previous =>
    if document previous = document next then
      match merge previous next with
      | .error error => (events.dropLast, .error error)
      | .ok (first, some second) => (events.dropLast ++ [make first], .ok second)
      | .ok (merged, none) => (events.dropLast, .ok merged)
    else (events, .ok next)

/-- `presentations::coalesce` -/
def coalesce (events : List (RendererEvent Content Detail)) (next : RendererPresentation Content) :
    List (RendererEvent Content Detail) × ProtocolResult (RendererPresentation Content) :=
  coalesceLast asPresentation .Presentation RendererPresentation.document
    RendererPresentation.coalesce events next

/-- `presentations::coalesce_runtime` -/
def coalesceRuntime (events : List (RendererEvent Content Detail)) (next : RendererRuntimeUpdate) :
    List (RendererEvent Content Detail) × ProtocolResult RendererRuntimeUpdate :=
  coalesceLast asRuntimeUpdate .RuntimeUpdate RendererRuntimeUpdate.document
    RendererRuntimeUpdate.coalesce events next

def exceedsResourceBudget (events : List (RendererEvent Content Detail))
    (next : RendererEvent Content Detail) : Bool :=
  decide (MAX_RENDERER_PRESENTATION_BYTES < next.resourceBytes + (events.map resourceBytes).sum)

def queuedFetchBatches (events : List (RendererEvent Content Detail)) : Nat :=
  (events.filter isFetchBatch).length

def queuedStorageBytes (events : List (RendererEvent Content Detail)) : Nat :=
  (events.map storageBytes).sum

/-- What the first part of a coalesced send makes of the event. -/
inductive Prepared (Content Detail : Type)
  | Refused (error : ProtocolError)
  | Superseded
  | Ready (event : RendererEvent Content Detail)

/-- The part of `send_coalesced` before its capacity loop, which may change the queue. -/
def prepare (events : List (RendererEvent Content Detail)) :
    RendererEvent Content Detail → List (RendererEvent Content Detail) × Prepared Content Detail
  -- one retained video frame per session
  | .VideoFrame next => (events.filter fun queued => !queued.isVideoFrame, .Ready (.VideoFrame next))
  | .Presentation next =>
    match coalesce events next with
    | (left, .ok value) => (left, .Ready (.Presentation value))
    | (left, .error error) => (left, .Refused error)
  | .RuntimeUpdate next =>
    match coalesceRuntime events next with
    | (left, .ok value) => (left, .Ready (.RuntimeUpdate value))
    | (left, .error error) => (left, .Refused error)
  | .PointerCursor next =>
    if events.any fun
      | .PointerCursor previous =>
        decide (previous.document = next.document ∧ next.sequence ≤ previous.sequence)
      | _ => false then (events, .Superseded)
    else
      (events.filter fun
        | .PointerCursor previous => decide (previous.document ≠ next.document)
        | _ => true, .Ready (.PointerCursor next))
  | .TextSelectionUpdate next =>
    if events.any fun
      | .TextSelectionUpdate previous =>
        decide (previous.document = next.document ∧ previous.target = next.target ∧
          next.observedInputSequence < previous.observedInputSequence)
      | _ => false then (events, .Superseded)
    else
      (events.filter fun
        | .TextSelectionUpdate previous =>
          decide (¬ (previous.document = next.document ∧ previous.target = next.target))
        | _ => true, .Ready (.TextSelectionUpdate next))
  | event => (events, .Ready event)

/-! ## The queue -/

structure EventQueue (Content Detail : Type) where
  events : List (RendererEvent Content Detail)
  senderOpen : Bool
  receiverOpen : Bool

/-- A send has returned, or it waits with this event for the queue to change. -/
inductive Sending (Content Detail : Type)
  | Returned (result : ProtocolResult Unit)
  | Waiting (event : RendererEvent Content Detail)

namespace EventQueue

def bounded : EventQueue Content Detail := ⟨[], true, true⟩

def push (queue : EventQueue Content Detail) (event : RendererEvent Content Detail) :
    EventQueue Content Detail := { queue with events := queue.events ++ [event] }

/-- The condition of the capacity loop of `send_coalesced`. -/
def coalescedFull (events : List (RendererEvent Content Detail))
    (event : RendererEvent Content Detail) : Bool :=
  decide (MAX_QUEUED_RENDERER_EVENTS ≤ events.length) || exceedsResourceBudget events event

/-- The condition of the loop of `send_lossless`. -/
def losslessFull (events : List (RendererEvent Content Detail))
    (event : RendererEvent Content Detail) : Bool :=
  decide (MAX_QUEUED_RENDERER_EVENTS ≤ events.length) ||
    decide (MAX_QUEUED_RENDERER_FETCH_BATCHES ≤ queuedFetchBatches events) ||
    decide (MAX_PENDING_STORAGE_BYTES < queuedStorageBytes events + event.storageBytes)

/-- The rest of `send_coalesced`, up to where it waits. -/
def offerCoalesced (queue : EventQueue Content Detail) (event : RendererEvent Content Detail)
    (wait : Bool) : EventQueue Content Detail × Sending Content Detail :=
  if queue.receiverOpen && coalescedFull queue.events event then
    if wait then (queue, .Waiting event)
    else (queue, .Returned (.error (.InvalidPayload "browser renderer-event queue exhausted")))
  else if queue.receiverOpen then (queue.push event, .Returned (.ok ()))
  else (queue, .Returned (.ok ()))

def sendCoalesced (queue : EventQueue Content Detail) (event : RendererEvent Content Detail)
    (wait : Bool) : EventQueue Content Detail × Sending Content Detail :=
  if queue.receiverOpen then
    match prepare queue.events event with
    | (events, .Refused error) => ({ queue with events }, .Returned (.error error))
    | (events, .Superseded) => ({ queue with events }, .Returned (.ok ()))
    | (events, .Ready event) => offerCoalesced { queue with events } event wait
  else (queue, .Returned (.error (.InvalidPayload "browser renderer-event receiver closed")))

def sendLossless (queue : EventQueue Content Detail) (event : RendererEvent Content Detail) :
    EventQueue Content Detail × Sending Content Detail :=
  if queue.receiverOpen && losslessFull queue.events event then (queue, .Waiting event)
  else if queue.receiverOpen then (queue.push event, .Returned (.ok ()))
  else (queue, .Returned (.ok ()))

def send (queue : EventQueue Content Detail) (event : RendererEvent Content Detail) :
    EventQueue Content Detail × Sending Content Detail :=
  if event.isLossless then queue.sendLossless event else queue.sendCoalesced event true

def trySend (queue : EventQueue Content Detail) (event : RendererEvent Content Detail) :
    EventQueue Content Detail × Sending Content Detail :=
  queue.sendCoalesced event false

/-- A send that waits looks at the queue again. -/
def resume (queue : EventQueue Content Detail) (event : RendererEvent Content Detail) :
    EventQueue Content Detail × Sending Content Detail :=
  if event.isLossless then queue.sendLossless event else queue.offerCoalesced event true

def discardDocument (queue : EventQueue Content Detail) (document : Nat) :
    EventQueue Content Detail :=
  { queue with events := queue.events.filter fun event => decide (event.document ≠ some document) }

inductive RecvError
  | Empty | Disconnected
deriving DecidableEq

/-- `recv_timeout` up to where it waits or gives up. -/
def recv (queue : EventQueue Content Detail) :
    Except RecvError (RendererEvent Content Detail × EventQueue Content Detail) :=
  match queue.events with
  | event :: events => .ok (event, { queue with events })
  | [] => if queue.receiverOpen && queue.senderOpen then .error .Empty else .error .Disconnected

def tryRecvIf (queue : EventQueue Content Detail) (accepts : RendererEvent Content Detail → Bool) :
    Except RecvError (RendererEvent Content Detail × EventQueue Content Detail) :=
  if queue.events.head?.any fun event => !accepts event then .error .Empty else queue.recv

end EventQueue

end BetterWebBrowser.RendererProcess
