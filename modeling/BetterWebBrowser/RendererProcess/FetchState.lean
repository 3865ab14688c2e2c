import BetterWebBrowser.Framework.Checked
import BetterWebBrowser.Framework.OrdMap
import BetterWebBrowser.RendererProtocol.Types
import Mathlib.Data.Finset.Erase

/-!
# The assembler of Fetch responses

Responses of several requests arrive interleaved. A buffered one is collected for the batch
that asked for it, a streamed one is handed to its document piece by piece. An error ends
the connection; the state it would leave behind is not kept.
-/

namespace BetterWebBrowser.RendererProcess

open Framework RendererProtocol

abbrev Bytes := List UInt8

def MAX_FRAME_PAYLOAD : Nat := 8 * 1024 * 1024

def MAX_RESPONSE_BODY_BYTES : Nat := 16 * 1024 * 1024

def MAX_RENDERER_FETCH_BATCH_BODY_BYTES : Nat := 32 * 1024 * 1024

/-! ## Messages -/

inductive FetchResponseType
  | Basic
  | Cors
  | Opaque
  | OpaqueRedirect
deriving DecidableEq

inductive BrowserFetchErrorKind
  | InvalidRequest
  | Network
  | Aborted
  | Cors
  | Redirect
  | BodyTooLarge
deriving DecidableEq

structure BrowserFetchError where
  kind : BrowserFetchErrorKind
  message : Str
deriving DecidableEq

inductive FetchResponseResult
  | Success (responseType : FetchResponseType) (urls : List Str) (status : Nat)
      (headers : List (Str × Str))
  | Failure (error : BrowserFetchError)
deriving DecidableEq

structure FetchResponseHead where
  requestId : Nat
  result : FetchResponseResult
deriving DecidableEq

/-- The decoder bounds the bytes by the payload of a frame. -/
structure TransferChunk where
  transferId : Nat
  offset : Nat
  bytes : Bytes
  bounded : bytes.length ≤ MAX_FRAME_PAYLOAD - 16
deriving DecidableEq

structure FetchResponseEnd where
  requestId : Nat
  totalLength : Nat
deriving DecidableEq

structure FetchResponseAbort where
  requestId : Nat
  error : BrowserFetchError
deriving DecidableEq

structure BrowserFetchResponse where
  head : FetchResponseHead
  body : Bytes
deriving DecidableEq

/-- The messages of the browser; `Other` is any that is not part of a Fetch response. -/
inductive BrowserMessage
  | FetchResponseStart (head : FetchResponseHead)
  | FetchResponseChunk (chunk : TransferChunk)
  | FetchResponseEnd (ending : FetchResponseEnd)
  | FetchResponseAbort (abort : FetchResponseAbort)
  | Other
deriving DecidableEq

inductive ScriptFetchDelivery
  | Head (document : Nat) (head : FetchResponseHead)
  | Chunk (document requestId : Nat) (bytes : Bytes)
  | End (document requestId : Nat)
  | Abort (document requestId : Nat) (error : BrowserFetchError)
deriving DecidableEq

/-- A message of the assembler itself or the text of a protocol error. -/
inductive FetchError
  | Text (message : String)
  | Protocol (error : ProtocolError)
deriving DecidableEq

/-! ## Incremental transfers -/

structure StreamingTransferAssembler where
  transferId : Nat
  maximum : Nat
  bytes : Bytes
deriving DecidableEq

namespace StreamingTransferAssembler

def new (transferId maximum : Nat) : ProtocolResult StreamingTransferAssembler :=
  if transferId = 0 then .error (.InvalidPayload "stream transfer declaration")
  else .ok ⟨transferId, maximum, []⟩

def push (self : StreamingTransferAssembler) (chunk : TransferChunk) :
    ProtocolResult StreamingTransferAssembler :=
  if chunk.transferId ≠ self.transferId ∨ chunk.offset ≠ self.bytes.length then
    .error (.InvalidPayload "stream transfer offset")
  else
    match checkedAdd 64 self.bytes.length chunk.bytes.length with
    | none => .error (.InvalidPayload "stream transfer length")
    | some next =>
      if self.maximum < next then .error (.InvalidPayload "stream transfer overflow")
      else .ok { self with bytes := self.bytes ++ chunk.bytes }

def finish (self : StreamingTransferAssembler) (transferId totalLength : Nat) :
    ProtocolResult Bytes :=
  if transferId ≠ self.transferId ∨ totalLength ≠ self.bytes.length ∨ self.maximum < totalLength then
    .error (.InvalidPayload "incomplete stream transfer")
  else .ok self.bytes

end StreamingTransferAssembler

/-! ## The assembler -/

inductive ResponseMode
  | Buffered
  | Streaming
deriving DecidableEq

structure TrackedRequest where
  document : Nat
  batchId : Nat
  delivery : ResponseMode
deriving DecidableEq

structure BufferedResponse where
  head : FetchResponseHead
  body : StreamingTransferAssembler
deriving DecidableEq

structure StreamingResponse where
  received : Nat
deriving DecidableEq

structure FetchState where
  requests : OrdMap Nat TrackedRequest := .empty
  buffered : OrdMap Nat BufferedResponse := .empty
  streaming : OrdMap Nat StreamingResponse := .empty
  completed : OrdMap Nat BrowserFetchResponse := .empty
  completedOrder : List Nat := []
  batchBytes : OrdMap Nat Nat := .empty
  retiredThrough : Nat := 0

structure PendingFetchBatch where
  document : Nat
  batchId : Nat
  expected : Finset Nat

namespace BrowserMessage

def fetchId : BrowserMessage → Option Nat
  | FetchResponseStart head => some head.requestId
  | FetchResponseChunk chunk => some chunk.transferId
  | FetchResponseEnd ending => some ending.requestId
  | FetchResponseAbort abort => some abort.requestId
  | Other => none

end BrowserMessage

namespace FetchState

abbrev Outcome (α : Type) := Except FetchError α

def modeOf (streaming : Bool) : ResponseMode := if streaming then .Streaming else .Buffered

/-- The requests of a batch as they are tracked. -/
def trackedRequests (document batchId : Nat) (requests : List (Nat × Bool)) :
    List (Nat × TrackedRequest) :=
  requests.map fun request => (request.1, ⟨document, batchId, modeOf request.2⟩)

def register (state : FetchState) (document batchId : Nat) (requests : List (Nat × Bool)) :
    Outcome FetchState :=
  if requests.any fun request => state.requests.contains request.1 then
    .error (.Text "renderer reused an active Fetch request identifier")
  else .ok { state with
    requests := state.requests.insertAll (trackedRequests document batchId requests)
    batchBytes := if requests.any fun request => !request.2 then state.batchBytes.insert batchId 0
      else state.batchBytes }

def cleanupBatch (state : FetchState) (batchId : Nat) : FetchState :=
  if state.requests.entries.any fun entry => entry.2.batchId = batchId then state
  else { state with batchBytes := state.batchBytes.erase batchId }

def start (state : FetchState) (head : FetchResponseHead) :
    Outcome (Option ScriptFetchDelivery × FetchState) :=
  match state.requests.get head.requestId with
  | none => .error (.Text "unexpected browser Fetch response")
  | some tracked =>
    if state.completed.contains head.requestId || state.buffered.contains head.requestId ||
        state.streaming.contains head.requestId then
      .error (.Text "unexpected browser Fetch response")
    else
      match tracked.delivery with
      | .Buffered =>
        match StreamingTransferAssembler.new head.requestId MAX_RESPONSE_BODY_BYTES with
        | .error error => .error (.Protocol error)
        | .ok body => .ok (none, { state with
            buffered := state.buffered.insert head.requestId ⟨head, body⟩ })
      | .Streaming => .ok (some (.Head tracked.document head), { state with
          streaming := state.streaming.insert head.requestId ⟨0⟩ })

def chunk (state : FetchState) (chunk : TransferChunk) :
    Outcome (Option ScriptFetchDelivery × FetchState) :=
  match state.requests.get chunk.transferId with
  | none => .error (.Text "unsolicited Fetch response chunk")
  | some tracked =>
    match tracked.delivery with
    | .Buffered =>
      match checkedAdd 64 ((state.batchBytes.get tracked.batchId).getD 0) chunk.bytes.length with
      | none => .error (.Text "Fetch response batch length overflow")
      | some received =>
        if MAX_RENDERER_FETCH_BATCH_BODY_BYTES < received then
          .error (.Text "Fetch response batch exceeded its body budget")
        else
          match state.buffered.get chunk.transferId with
          | none => .error (.Text "unsolicited Fetch response chunk")
          | some response =>
            match response.body.push chunk with
            | .error error => .error (.Protocol error)
            | .ok body => .ok (none, { state with
                batchBytes := state.batchBytes.insert tracked.batchId received
                buffered := state.buffered.insert chunk.transferId { response with body := body } })
    | .Streaming =>
      match state.streaming.get chunk.transferId with
      | none => .error (.Text "unsolicited Fetch response chunk")
      | some response =>
        if chunk.offset ≠ response.received then
          .error (.Text "Fetch stream response offset mismatch")
        else
          match checkedAdd 32 response.received (chunk.bytes.length % 2 ^ 32) with
          | none => .error (.Text "Fetch stream response length overflow")
          | some received => .ok (some (.Chunk tracked.document chunk.transferId chunk.bytes),
              { state with streaming := state.streaming.insert chunk.transferId ⟨received⟩ })

/-- A response is complete; the batch takes it later. -/
def complete (state : FetchState) (response : BrowserFetchResponse) (id : Nat) : FetchState :=
  { state with
    buffered := state.buffered.erase id
    completed := state.completed.insert id response
    completedOrder := state.completedOrder ++ [id] }

/-- A streamed response is over. -/
def release (state : FetchState) (tracked : TrackedRequest) (id : Nat) : FetchState :=
  cleanupBatch { state with
    streaming := state.streaming.erase id
    requests := state.requests.erase id } tracked.batchId

def ending (state : FetchState) (ending : FetchResponseEnd) :
    Outcome (Option ScriptFetchDelivery × FetchState) :=
  match state.requests.get ending.requestId with
  | none => .error (.Text "unsolicited Fetch response completion")
  | some tracked =>
    match tracked.delivery with
    | .Buffered =>
      match state.buffered.get ending.requestId with
      | none => .error (.Text "unsolicited Fetch response completion")
      | some response =>
        match response.body.finish ending.requestId ending.totalLength with
        | .error error => .error (.Protocol error)
        | .ok body =>
          if state.completed.contains ending.requestId then
            .error (.Text "duplicate browser Fetch response")
          else .ok (none, state.complete ⟨response.head, body⟩ ending.requestId)
    | .Streaming =>
      match state.streaming.get ending.requestId with
      | none => .error (.Text "unsolicited Fetch response completion")
      | some response =>
        if response.received ≠ ending.totalLength then
          .error (.Text "Fetch stream response length mismatch")
        else .ok (some (.End tracked.document ending.requestId),
          state.release tracked ending.requestId)

def abort (state : FetchState) (abort : FetchResponseAbort) :
    Outcome (Option ScriptFetchDelivery × FetchState) :=
  match state.requests.get abort.requestId with
  | none => .error (.Text "unexpected browser Fetch abort")
  | some tracked =>
    match tracked.delivery with
    | .Buffered =>
      if !state.buffered.contains abort.requestId || state.completed.contains abort.requestId then
        .error (.Text "unexpected browser Fetch abort")
      else .ok (none, state.complete ⟨⟨abort.requestId, .Failure abort.error⟩, []⟩ abort.requestId)
    | .Streaming =>
      if !state.streaming.contains abort.requestId then
        .error (.Text "unexpected browser Fetch abort")
      else .ok (some (.Abort tracked.document abort.requestId abort.error),
        state.release tracked abort.requestId)

/-- Replies to a cancelled request may still arrive. -/
def drops (state : FetchState) (id : Nat) : Bool :=
  id ≤ state.retiredThrough && !state.requests.contains id

def handle (state : FetchState) (message : BrowserMessage) :
    Outcome (Option ScriptFetchDelivery × FetchState) :=
  match message.fetchId with
  | none => .error (.Text "non-Fetch message reached the Fetch assembler")
  | some id =>
    if state.drops id then .ok (none, state)
    else
      match message with
      | .FetchResponseStart head => state.start head
      | .FetchResponseChunk piece => state.chunk piece
      | .FetchResponseEnd last => state.ending last
      | .FetchResponseAbort failure => state.abort failure
      | .Other => .error (.Text "non-Fetch message reached the Fetch assembler")

/-- What `take_completed` has done so far. -/
structure Taking where
  state : FetchState
  expected : Finset Nat
  responses : List BrowserFetchResponse

def takeOne (pending : PendingFetchBatch) (taking : Taking) (id : Nat) : Outcome Taking :=
  match taking.state.requests.get id with
  | none => .error (.Text "Fetch batch request was not active")
  | some tracked =>
    if tracked.document ≠ pending.document ∨ tracked.batchId ≠ pending.batchId ∨
        tracked.delivery ≠ .Buffered then
      .error (.Text "Fetch batch identity mismatch")
    else
      match taking.state.completed.get id with
      | none => .error (.Text "browser omitted a Fetch response")
      | some response => .ok {
          state := { taking.state with
            requests := taking.state.requests.erase id
            completed := taking.state.completed.erase id }
          expected := taking.expected.erase id
          responses := taking.responses ++ [response] }

/-- Drop what is no longer completed from the order. -/
def retainCompleted (state : FetchState) : FetchState :=
  { state with completedOrder := state.completedOrder.filter state.completed.contains }

/-- The responses of this batch that are ready, in completion order. -/
def ready (state : FetchState) (pending : PendingFetchBatch) : List Nat :=
  state.completedOrder.filter fun id => id ∈ pending.expected

def takeCompleted (state : FetchState) (pending : PendingFetchBatch) :
    Outcome (List BrowserFetchResponse × PendingFetchBatch × FetchState) := do
  let taking ← (state.ready pending).foldlM (takeOne pending) ⟨state, pending.expected, []⟩
  pure (taking.responses, { pending with expected := taking.expected },
    taking.state.retainCompleted.cleanupBatch pending.batchId)

def documentRequests (state : FetchState) (document : Nat) : List Nat :=
  (state.requests.entries.filter fun entry => entry.2.document = document).map Prod.fst

def cancelOne (state : FetchState) (id : Nat) : FetchState :=
  let cleaned := match state.requests.get id with
    | some request => cleanupBatch { state with requests := state.requests.erase id } request.batchId
    | none => state
  { cleaned with
    retiredThrough := max state.retiredThrough id
    buffered := state.buffered.erase id
    streaming := state.streaming.erase id
    completed := state.completed.erase id }

def cancelDocument (state : FetchState) (document : Nat) : FetchState :=
  ((state.documentRequests document).foldl cancelOne state).retainCompleted

end FetchState

end BetterWebBrowser.RendererProcess
