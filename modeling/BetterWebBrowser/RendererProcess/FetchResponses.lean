import BetterWebBrowser.RendererProcess.FetchState

/-!
# One request in the assembler

A request is answered by one start, chunks at contiguous offsets and one end or abort. The
assembler keeps what it knows of a request in four maps; their entries for one identifier
are its view.
-/

namespace BetterWebBrowser.RendererProcess

open Framework RendererProtocol

/-! ## The protocol of a request -/

/-- How far the answer to a request has come. -/
inductive Phase
  | Waiting
  | Open (head : FetchResponseHead) (body : Bytes)
  | Done (response : BrowserFetchResponse)

/-- Only streamed responses are delivered piece by piece. -/
def TrackedRequest.deliver (tracked : TrackedRequest) (delivery : ScriptFetchDelivery) :
    List ScriptFetchDelivery :=
  if tracked.delivery = .Streaming then [delivery] else []

theorem TrackedRequest.deliver_buffered {tracked : TrackedRequest}
    (hmode : tracked.delivery = .Buffered) (delivery : ScriptFetchDelivery) :
    tracked.deliver delivery = [] := by
  simp [deliver, hmode]

theorem TrackedRequest.deliver_streaming {tracked : TrackedRequest}
    (hmode : tracked.delivery = .Streaming) (delivery : ScriptFetchDelivery) :
    tracked.deliver delivery = [delivery] := by
  simp [deliver, hmode]

/-- The messages of a request in order, what they deliver, and the phase they lead to. -/
inductive Progress (id : Nat) (tracked : TrackedRequest) :
    List BrowserMessage → List ScriptFetchDelivery → Phase → Prop
  | waiting : Progress id tracked [] [] .Waiting
  | start (head : FetchResponseHead) (hid : head.requestId = id) :
      Progress id tracked [.FetchResponseStart head]
        (tracked.deliver (.Head tracked.document head)) (.Open head [])
  | chunk {messages : List BrowserMessage} {deliveries : List ScriptFetchDelivery}
      {head : FetchResponseHead} {body : Bytes} (piece : TransferChunk)
      (hid : piece.transferId = id) (hoffset : piece.offset = body.length)
      (hbefore : Progress id tracked messages deliveries (.Open head body)) :
      Progress id tracked (messages ++ [.FetchResponseChunk piece])
        (deliveries ++ tracked.deliver (.Chunk tracked.document id piece.bytes))
        (.Open head (body ++ piece.bytes))
  | ending {messages : List BrowserMessage} {deliveries : List ScriptFetchDelivery}
      {head : FetchResponseHead} {body : Bytes} (last : FetchResponseEnd)
      (hid : last.requestId = id) (hlength : last.totalLength = body.length)
      (hbefore : Progress id tracked messages deliveries (.Open head body)) :
      Progress id tracked (messages ++ [.FetchResponseEnd last])
        (deliveries ++ tracked.deliver (.End tracked.document id)) (.Done ⟨head, body⟩)
  | abort {messages : List BrowserMessage} {deliveries : List ScriptFetchDelivery}
      {head : FetchResponseHead} {body : Bytes} (failure : FetchResponseAbort)
      (hid : failure.requestId = id)
      (hbefore : Progress id tracked messages deliveries (.Open head body)) :
      Progress id tracked (messages ++ [.FetchResponseAbort failure])
        (deliveries ++ tracked.deliver (.Abort tracked.document id failure.error))
        (.Done ⟨⟨id, .Failure failure.error⟩, []⟩)

namespace Progress

variable {id : Nat} {tracked : TrackedRequest} {messages : List BrowserMessage}
  {deliveries : List ScriptFetchDelivery}

theorem head_id {head : FetchResponseHead} {body : Bytes}
    (h : Progress id tracked messages deliveries (.Open head body)) : head.requestId = id := by
  generalize hphase : Phase.Open head body = phase at h
  induction h generalizing head body with
  | waiting => cases hphase
  | start head' hid =>
    cases hphase
    exact hid
  | chunk piece hid hoffset hbefore ih =>
    cases hphase
    exact ih rfl
  | ending last hid hlength hbefore ih => cases hphase
  | abort failure hid hbefore ih => cases hphase

theorem response_id {response : BrowserFetchResponse}
    (h : Progress id tracked messages deliveries (.Done response)) :
    response.head.requestId = id := by
  cases h with
  | ending last hid hlength hbefore => exact hbefore.head_id
  | abort failure hid hbefore => rfl

/-- An open response is the start and chunks that follow each other. -/
theorem open_shape {head : FetchResponseHead} {body : Bytes}
    (h : Progress id tracked messages deliveries (.Open head body)) :
    ∃ pieces : List TransferChunk,
      messages = .FetchResponseStart head :: pieces.map .FetchResponseChunk ∧
      body = pieces.flatMap TransferChunk.bytes ∧
      ∀ front piece back, pieces = front ++ piece :: back →
        piece.offset = (front.flatMap TransferChunk.bytes).length := by
  generalize hphase : Phase.Open head body = phase at h
  induction h generalizing head body with
  | waiting => cases hphase
  | start head' hid =>
    cases hphase
    exact ⟨[], rfl, rfl, by simp⟩
  | chunk piece hid hoffset hbefore ih =>
    cases hphase
    obtain ⟨pieces, rfl, rfl, hoffsets⟩ := ih rfl
    refine ⟨pieces ++ [piece], by simp, by simp, ?_⟩
    intro front other back hsplit
    rcases List.eq_nil_or_concat back with rfl | ⟨back, last, rfl⟩
    · obtain ⟨rfl, hlast⟩ := List.append_inj' hsplit rfl
      cases hlast
      exact hoffset
    · rw [List.concat_eq_append, ← List.cons_append, ← List.append_assoc] at hsplit
      exact hoffsets front other back (List.append_inj' hsplit rfl).1
  | ending last hid hlength hbefore ih => cases hphase
  | abort failure hid hbefore ih => cases hphase

/-- A finished response is the concatenation of its chunks, or the failure. -/
theorem done_shape {response : BrowserFetchResponse}
    (h : Progress id tracked messages deliveries (.Done response)) :
    ∃ (head : FetchResponseHead) (pieces : List TransferChunk) (last : BrowserMessage),
      messages = .FetchResponseStart head :: pieces.map .FetchResponseChunk ++ [last] ∧
      ((∃ ending, last = .FetchResponseEnd ending ∧
          response = ⟨head, pieces.flatMap TransferChunk.bytes⟩) ∨
        ∃ failure, last = .FetchResponseAbort failure ∧
          response = ⟨⟨id, .Failure failure.error⟩, []⟩) := by
  cases h with
  | ending last hid hlength hbefore =>
    obtain ⟨pieces, hmessages, hbody, -⟩ := hbefore.open_shape
    exact ⟨_, pieces, .FetchResponseEnd last, by rw [hmessages], .inl ⟨last, rfl, by rw [hbody]⟩⟩
  | abort failure hid hbefore =>
    obtain ⟨pieces, hmessages, -, -⟩ := hbefore.open_shape
    exact ⟨_, pieces, .FetchResponseAbort failure, by rw [hmessages], .inr ⟨failure, rfl, rfl⟩⟩

end Progress

/-! ## Views -/

/-- What the maps say about one identifier. -/
@[ext] structure View where
  request : Option TrackedRequest := none
  buffered : Option BufferedResponse := none
  streaming : Option StreamingResponse := none
  completed : Option BrowserFetchResponse := none

/-- The view of a request in each phase. -/
def TrackedRequest.view (tracked : TrackedRequest) (id : Nat) : Phase → View
  | .Waiting => { request := some tracked }
  | .Open head body =>
    match tracked.delivery with
    | .Buffered => { request := some tracked,
                     buffered := some ⟨head, ⟨id, MAX_RESPONSE_BODY_BYTES, body⟩⟩ }
    | .Streaming => { request := some tracked, streaming := some ⟨body.length⟩ }
  | .Done response =>
    match tracked.delivery with
    | .Buffered => { request := some tracked, completed := some response }
    | .Streaming => {}

namespace FetchState

def view (state : FetchState) (id : Nat) : View :=
  ⟨state.requests.get id, state.buffered.get id, state.streaming.get id, state.completed.get id⟩

/-- A byte count is only kept for a batch with a live request. -/
def Live (state : FetchState) (batchId : Nat) : Prop :=
  ∃ id tracked, state.requests.get id = some tracked ∧ tracked.batchId = batchId

def BatchesLive (state : FetchState) : Prop :=
  ∀ batchId, state.batchBytes.contains batchId → state.Live batchId

/-- The order lists the completed identifiers, each once. -/
def Ordered (state : FetchState) : Prop :=
  state.completedOrder.Nodup ∧ ∀ id, id ∈ state.completedOrder ↔ state.completed.contains id

@[simp] theorem view_cleanupBatch (state : FetchState) (batchId id : Nat) :
    (state.cleanupBatch batchId).view id = state.view id := by
  rw [cleanupBatch]
  split <;> rfl

@[simp] theorem cleanupBatch_completedOrder (state : FetchState) (batchId : Nat) :
    (state.cleanupBatch batchId).completedOrder = state.completedOrder := by
  rw [cleanupBatch]
  split <;> rfl

@[simp] theorem cleanupBatch_completed (state : FetchState) (batchId : Nat) :
    (state.cleanupBatch batchId).completed = state.completed := by
  rw [cleanupBatch]
  split <;> rfl

@[simp] theorem cleanupBatch_requests (state : FetchState) (batchId : Nat) :
    (state.cleanupBatch batchId).requests = state.requests := by
  rw [cleanupBatch]
  split <;> rfl

@[simp] theorem cleanupBatch_retiredThrough (state : FetchState) (batchId : Nat) :
    (state.cleanupBatch batchId).retiredThrough = state.retiredThrough := by
  rw [cleanupBatch]
  split <;> rfl

/-- Cleaning a batch up makes up for requests of it that went. -/
theorem cleanupBatch_batchesLive {state : FetchState} {batchId : Nat}
    (h : ∀ other, other ≠ batchId → state.batchBytes.contains other → state.Live other) :
    (state.cleanupBatch batchId).BatchesLive := by
  intro other hother
  have hlive : state.Live other := by
    rw [cleanupBatch] at hother
    split at hother
    next hany =>
      by_cases hsame : other = batchId
      · obtain ⟨⟨id, tracked⟩, hentry, hbatch⟩ := List.any_eq_true.mp hany
        exact ⟨id, tracked, (OrdMap.mem_entries_iff_get _ _ _).mp hentry,
          (of_decide_eq_true hbatch).trans hsame.symm⟩
      · exact h other hsame hother
    next =>
      obtain ⟨hne, hkey⟩ := (OrdMap.contains_erase _ _ _).mp hother
      exact h other hne hkey
  obtain ⟨id, tracked, hget, hbatch⟩ := hlive
  exact ⟨id, tracked, by rw [cleanupBatch_requests]; exact hget, hbatch⟩

/-- Removing one request and cleaning its batch up keeps the byte counts live. -/
theorem erase_batchesLive {state : FetchState} {id : Nat} {tracked : TrackedRequest}
    (h : state.BatchesLive) (hget : state.requests.get id = some tracked) {erased : FetchState}
    (hrequests : erased.requests = state.requests.erase id)
    (hbatches : erased.batchBytes = state.batchBytes) :
    (erased.cleanupBatch tracked.batchId).BatchesLive := by
  apply cleanupBatch_batchesLive
  intro other hne hkey
  rw [hbatches] at hkey
  obtain ⟨witness, live, hlive, hbatch⟩ := h other hkey
  refine ⟨witness, live, ?_, hbatch⟩
  have hother : witness ≠ id := by
    rintro rfl
    rw [hget] at hlive
    cases hlive
    exact hne hbatch.symm
  rw [hrequests, OrdMap.get_erase_ne _ hother]
  exact hlive

end FetchState

/-! ## One message -/

/-- What a message that is not dropped does to its request. -/
inductive Turn (id : Nat) (tracked : TrackedRequest) :
    Phase → BrowserMessage → List ScriptFetchDelivery → Phase → Prop
  | start (head : FetchResponseHead) (hid : head.requestId = id) :
      Turn id tracked .Waiting (.FetchResponseStart head)
        (tracked.deliver (.Head tracked.document head)) (.Open head [])
  | chunk {head : FetchResponseHead} {body : Bytes} (piece : TransferChunk)
      (hid : piece.transferId = id) (hoffset : piece.offset = body.length) :
      Turn id tracked (.Open head body) (.FetchResponseChunk piece)
        (tracked.deliver (.Chunk tracked.document id piece.bytes)) (.Open head (body ++ piece.bytes))
  | ending {head : FetchResponseHead} {body : Bytes} (last : FetchResponseEnd)
      (hid : last.requestId = id) (hlength : last.totalLength = body.length) :
      Turn id tracked (.Open head body) (.FetchResponseEnd last)
        (tracked.deliver (.End tracked.document id)) (.Done ⟨head, body⟩)
  | abort {head : FetchResponseHead} {body : Bytes} (failure : FetchResponseAbort)
      (hid : failure.requestId = id) :
      Turn id tracked (.Open head body) (.FetchResponseAbort failure)
        (tracked.deliver (.Abort tracked.document id failure.error))
        (.Done ⟨⟨id, .Failure failure.error⟩, []⟩)

theorem Progress.turn {id : Nat} {tracked : TrackedRequest} {messages : List BrowserMessage}
    {deliveries reply : List ScriptFetchDelivery} {phase phase' : Phase} {message : BrowserMessage}
    (h : Progress id tracked messages deliveries phase)
    (hturn : Turn id tracked phase message reply phase') :
    Progress id tracked (messages ++ [message]) (deliveries ++ reply) phase' := by
  cases hturn with
  | start head hid =>
    cases h
    exact .start head hid
  | chunk piece hid hoffset => exact h.chunk piece hid hoffset
  | ending last hid hlength => exact h.ending last hid hlength
  | abort failure hid => exact h.abort failure hid

/-- The identifiers that a phase adds to the completed ones. -/
def Phase.completes (phase : Phase) (tracked : TrackedRequest) (id : Nat) : List Nat :=
  match phase, tracked.delivery with
  | .Done _, .Buffered => [id]
  | _, _ => []

theorem Phase.completes_nodup (phase : Phase) (tracked : TrackedRequest) (id : Nat) :
    (phase.completes tracked id).Nodup := by
  cases phase <;> cases hmode : tracked.delivery <;> simp [completes, hmode]

theorem Phase.mem_completes {phase : Phase} {tracked : TrackedRequest} {id other : Nat}
    (h : other ∈ phase.completes tracked id) : other = id ∧ ∃ response, phase = .Done response := by
  cases phase <;> cases hmode : tracked.delivery <;> simp_all [completes]

/-- How the state moves with one of its requests. -/
structure Moves (state state' : FetchState) (id : Nat) (tracked : TrackedRequest) (phase' : Phase) :
    Prop where
  view : state'.view id = tracked.view id phase'
  others : ∀ other, other ≠ id → state'.view other = state.view other
  order : state'.completedOrder = state.completedOrder ++ phase'.completes tracked id
  watermark : state'.retiredThrough = state.retiredThrough
  batches : state.BatchesLive → state'.BatchesLive

namespace FetchState

variable {state state' : FetchState} {id : Nat} {tracked : TrackedRequest} {phase : Phase}
  {reply : Option ScriptFetchDelivery}

private theorem view_fields (hview : state.view id = tracked.view id phase) :
    state.requests.get id = (tracked.view id phase).request ∧
      state.buffered.get id = (tracked.view id phase).buffered ∧
      state.streaming.get id = (tracked.view id phase).streaming ∧
      state.completed.get id = (tracked.view id phase).completed := by
  rw [← hview]
  exact ⟨rfl, rfl, rfl, rfl⟩

private theorem start_turn {head : FetchResponseHead}
    (hview : state.view head.requestId = tracked.view head.requestId phase)
    (hget : state.requests.get head.requestId = some tracked)
    (h : state.start head = .ok (reply, state')) :
    ∃ phase', Turn head.requestId tracked phase (.FetchResponseStart head) reply.toList phase' ∧
      Moves state state' head.requestId tracked phase' := by
  obtain ⟨hrequest, hbuffered, hstreaming, hcompleted⟩ := view_fields hview
  rw [start, hget] at h
  simp only at h
  split at h
  next => cases h
  next hfresh =>
    simp only [OrdMap.contains, Bool.or_eq_true, not_or, Bool.not_eq_true, Option.isSome_eq_false_iff,
      Option.isNone_iff_eq_none] at hfresh
    obtain ⟨⟨hnotCompleted, hnotBuffered⟩, hnotStreaming⟩ := hfresh
    cases hmode : tracked.delivery with
    | Buffered =>
      have hwaiting : phase = .Waiting := by
        cases phase <;> simp_all [TrackedRequest.view]
      subst hwaiting
      simp only [hmode, StreamingTransferAssembler.new] at h
      split at h
      next => cases h
      next body hnew =>
        split at hnew
        next => cases hnew
        next =>
          cases hnew
          cases h
          refine ⟨.Open head [], ?_, ?_⟩
          · rw [Option.toList_none, ← tracked.deliver_buffered hmode]
            exact .start head rfl
          · exact
              { view := by simp [view, TrackedRequest.view, hmode, hget, hnotStreaming, hnotCompleted]
                others := by
                  intro other hother
                  simp [view, OrdMap.get_insert_ne _ _ hother]
                order := by simp [Phase.completes]
                watermark := rfl
                batches := id }
    | Streaming =>
      have hwaiting : phase = .Waiting := by
        cases phase <;> simp_all [TrackedRequest.view]
      subst hwaiting
      simp only [hmode] at h
      cases h
      refine ⟨.Open head [], ?_, ?_⟩
      · rw [Option.toList_some, ← tracked.deliver_streaming hmode]
        exact .start head rfl
      · exact
          { view := by simp [view, TrackedRequest.view, hmode, hget, hnotBuffered, hnotCompleted]
            others := by
              intro other hother
              simp [view, OrdMap.get_insert_ne _ _ hother]
            order := by simp [Phase.completes]
            watermark := rfl
            batches := id }

/-- Pieces go to a request that is open. -/
private theorem buffered_open (hview : state.view id = tracked.view id phase)
    (hmode : tracked.delivery = .Buffered) {response : BufferedResponse}
    (hbuffered : state.buffered.get id = some response) :
    ∃ head body, phase = .Open head body ∧
      response = ⟨head, ⟨id, MAX_RESPONSE_BODY_BYTES, body⟩⟩ ∧
      state.streaming.get id = none ∧ state.completed.get id = none := by
  obtain ⟨-, hbuffer, hstreaming, hcompleted⟩ := view_fields hview
  rw [hbuffered] at hbuffer
  cases phase <;> simp_all [TrackedRequest.view]

private theorem streaming_open (hview : state.view id = tracked.view id phase)
    (hmode : tracked.delivery = .Streaming) {response : StreamingResponse}
    (hstream : state.streaming.get id = some response) :
    ∃ head body, phase = .Open head body ∧ response = ⟨body.length⟩ ∧
      state.buffered.get id = none ∧ state.completed.get id = none := by
  obtain ⟨-, hbuffer, hstreaming, hcompleted⟩ := view_fields hview
  rw [hstream] at hstreaming
  cases phase <;> simp_all [TrackedRequest.view]

private theorem chunk_turn {piece : TransferChunk}
    (hview : state.view piece.transferId = tracked.view piece.transferId phase)
    (hget : state.requests.get piece.transferId = some tracked)
    (h : state.chunk piece = .ok (reply, state')) :
    ∃ phase', Turn piece.transferId tracked phase (.FetchResponseChunk piece) reply.toList phase' ∧
      Moves state state' piece.transferId tracked phase' := by
  rw [chunk, hget] at h
  simp only at h
  cases hmode : tracked.delivery with
  | Buffered =>
    simp only [hmode] at h
    split at h
    next => cases h
    next received hreceived =>
      split at h
      next => cases h
      next =>
        split at h
        next => cases h
        next response hresponse =>
          split at h
          next => cases h
          next pushed hpush =>
            cases h
            obtain ⟨head, body, rfl, rfl, hstreaming, hcompleted⟩ :=
              buffered_open hview hmode hresponse
            rw [StreamingTransferAssembler.push] at hpush
            split at hpush
            next => cases hpush
            next hoffset =>
              simp only [not_or, not_not] at hoffset
              split at hpush
              next => cases hpush
              next =>
                split at hpush
                next => cases hpush
                next =>
                  cases hpush
                  refine ⟨.Open head (body ++ piece.bytes), ?_, ?_⟩
                  · rw [Option.toList_none, ← tracked.deliver_buffered hmode]
                    exact .chunk piece rfl hoffset.2
                  · exact
                      { view := by simp [view, TrackedRequest.view, hmode, hget, hstreaming, hcompleted]
                        others := by
                          intro other hother
                          simp [view, OrdMap.get_insert_ne _ _ hother]
                        order := by simp [Phase.completes]
                        watermark := rfl
                        batches := by
                          intro hlive batchId hkey
                          rcases (OrdMap.contains_insert _ _ _ _).mp hkey with rfl | hbefore
                          · exact ⟨piece.transferId, tracked, hget, rfl⟩
                          · exact hlive batchId hbefore }
  | Streaming =>
    simp only [hmode] at h
    split at h
    next => cases h
    next response hresponse =>
      obtain ⟨head, body, rfl, rfl, hbuffered, hcompleted⟩ := streaming_open hview hmode hresponse
      split at h
      next => cases h
      next hoffset =>
        rw [not_not] at hoffset
        split at h
        next => cases h
        next received hreceived =>
          cases h
          have hlength : received = (body ++ piece.bytes).length := by
            have hbounded := piece.bounded
            rw [MAX_FRAME_PAYLOAD] at hbounded
            rw [Nat.mod_eq_of_lt (by omega)] at hreceived
            rw [List.length_append]
            exact (checkedAdd_eq_some.mp hreceived).1.symm
          refine ⟨.Open head (body ++ piece.bytes), ?_, ?_⟩
          · rw [Option.toList_some, ← tracked.deliver_streaming hmode]
            exact .chunk piece rfl hoffset
          · exact
              { view := by simp [view, TrackedRequest.view, hmode, hget, hbuffered, hcompleted, hlength]
                others := by
                  intro other hother
                  simp [view, OrdMap.get_insert_ne _ _ hother]
                order := by simp [Phase.completes]
                watermark := rfl
                batches := fun hlive => hlive }

/-- A buffered request is completed with this response. -/
private theorem complete_moves (hget : state.requests.get id = some tracked)
    (hmode : tracked.delivery = .Buffered) (hstreaming : state.streaming.get id = none)
    (response : BrowserFetchResponse) :
    Moves state (state.complete response id) id tracked (.Done response) where
  view := by simp [view, complete, TrackedRequest.view, hmode, hget, hstreaming]
  others := by
    intro other hother
    simp [view, complete, OrdMap.get_insert_ne _ _ hother, OrdMap.get_erase_ne _ hother]
  order := by simp [complete, Phase.completes, hmode]
  watermark := rfl
  batches := fun hlive => hlive

/-- A streamed request is over. -/
private theorem release_moves (hget : state.requests.get id = some tracked)
    (hmode : tracked.delivery = .Streaming) (hbuffered : state.buffered.get id = none)
    (hcompleted : state.completed.get id = none) (response : BrowserFetchResponse) :
    Moves state (state.release tracked id) id tracked (.Done response) where
  view := by
    rw [release, view_cleanupBatch]
    simp [view, TrackedRequest.view, hmode, hbuffered, hcompleted]
  others := by
    intro other hother
    rw [release, view_cleanupBatch]
    simp [view, OrdMap.get_erase_ne _ hother]
  order := by simp [release, Phase.completes, hmode]
  watermark := by simp [release]
  batches := fun hlive => erase_batchesLive hlive hget rfl rfl

private theorem ending_turn {last : FetchResponseEnd}
    (hview : state.view last.requestId = tracked.view last.requestId phase)
    (hget : state.requests.get last.requestId = some tracked)
    (h : state.ending last = .ok (reply, state')) :
    ∃ phase', Turn last.requestId tracked phase (.FetchResponseEnd last) reply.toList phase' ∧
      Moves state state' last.requestId tracked phase' := by
  rw [ending, hget] at h
  simp only at h
  cases hmode : tracked.delivery with
  | Buffered =>
    simp only [hmode] at h
    split at h
    next => cases h
    next response hresponse =>
      obtain ⟨head, body, rfl, rfl, hstreaming, hcompleted⟩ := buffered_open hview hmode hresponse
      split at h
      next => cases h
      next finished hfinish =>
        split at h
        next => cases h
        next =>
          cases h
          rw [StreamingTransferAssembler.finish] at hfinish
          split at hfinish
          next => cases hfinish
          next hexact =>
            cases hfinish
            simp only [not_or, not_not] at hexact
            refine ⟨.Done ⟨head, body⟩, ?_, complete_moves hget hmode hstreaming _⟩
            rw [Option.toList_none, ← tracked.deliver_buffered hmode]
            exact .ending last rfl hexact.2.1
  | Streaming =>
    simp only [hmode] at h
    split at h
    next => cases h
    next response hresponse =>
      obtain ⟨head, body, rfl, rfl, hbuffered, hcompleted⟩ := streaming_open hview hmode hresponse
      split at h
      next => cases h
      next hexact =>
        cases h
        rw [not_not] at hexact
        refine ⟨.Done ⟨head, body⟩, ?_, release_moves hget hmode hbuffered hcompleted _⟩
        rw [Option.toList_some, ← tracked.deliver_streaming hmode]
        exact .ending last rfl hexact.symm

private theorem abort_turn {failure : FetchResponseAbort}
    (hview : state.view failure.requestId = tracked.view failure.requestId phase)
    (hget : state.requests.get failure.requestId = some tracked)
    (h : state.abort failure = .ok (reply, state')) :
    ∃ phase', Turn failure.requestId tracked phase (.FetchResponseAbort failure) reply.toList phase' ∧
      Moves state state' failure.requestId tracked phase' := by
  rw [abort, hget] at h
  simp only at h
  cases hmode : tracked.delivery with
  | Buffered =>
    simp only [hmode] at h
    split at h
    next => cases h
    next hpresent =>
      cases h
      simp only [Bool.or_eq_true, Bool.not_eq_true', not_or, Bool.not_eq_false] at hpresent
      obtain ⟨response, hresponse⟩ := Option.isSome_iff_exists.mp hpresent.1
      obtain ⟨head, body, rfl, rfl, hstreaming, hcompleted⟩ := buffered_open hview hmode hresponse
      refine ⟨.Done ⟨⟨failure.requestId, .Failure failure.error⟩, []⟩, ?_,
        complete_moves hget hmode hstreaming _⟩
      rw [Option.toList_none, ← tracked.deliver_buffered hmode]
      exact .abort failure rfl
  | Streaming =>
    simp only [hmode] at h
    split at h
    next => cases h
    next hpresent =>
      cases h
      simp only [Bool.not_eq_true', Bool.not_eq_false] at hpresent
      obtain ⟨response, hresponse⟩ := Option.isSome_iff_exists.mp hpresent
      obtain ⟨head, body, rfl, rfl, hbuffered, hcompleted⟩ := streaming_open hview hmode hresponse
      refine ⟨.Done ⟨⟨failure.requestId, .Failure failure.error⟩, []⟩, ?_,
        release_moves hget hmode hbuffered hcompleted _⟩
      rw [Option.toList_some, ← tracked.deliver_streaming hmode]
      exact .abort failure rfl

/-- A handled message is dropped, or moves its request one step. -/
theorem handle_cases {message : BrowserMessage} (h : state.handle message = .ok (reply, state')) :
    ∃ id, message.fetchId = some id ∧
      ((state.drops id = true ∧ reply = none ∧ state' = state) ∨
        ∃ tracked, state.drops id = false ∧ state.requests.get id = some tracked ∧
          ∀ phase, state.view id = tracked.view id phase →
            ∃ phase', Turn id tracked phase message reply.toList phase' ∧
              Moves state state' id tracked phase') := by
  rw [handle.eq_def] at h
  split at h
  next => cases h
  next id hid =>
    refine ⟨id, hid, ?_⟩
    split at h
    next hdropped =>
      cases h
      exact .inl ⟨hdropped, rfl, rfl⟩
    next hkept =>
      rw [Bool.not_eq_true] at hkept
      right
      cases message with
      | FetchResponseStart head =>
        cases hid
        cases hget : state.requests.get head.requestId with
        | none => simp [start, hget] at h
        | some tracked => exact ⟨tracked, hkept, rfl, fun phase hview => start_turn hview hget h⟩
      | FetchResponseChunk piece =>
        cases hid
        cases hget : state.requests.get piece.transferId with
        | none => simp [chunk, hget] at h
        | some tracked => exact ⟨tracked, hkept, rfl, fun phase hview => chunk_turn hview hget h⟩
      | FetchResponseEnd last =>
        cases hid
        cases hget : state.requests.get last.requestId with
        | none => simp [ending, hget] at h
        | some tracked => exact ⟨tracked, hkept, rfl, fun phase hview => ending_turn hview hget h⟩
      | FetchResponseAbort failure =>
        cases hid
        cases hget : state.requests.get failure.requestId with
        | none => simp [abort, hget] at h
        | some tracked => exact ⟨tracked, hkept, rfl, fun phase hview => abort_turn hview hget h⟩
      | Other => cases hid

end FetchState

end BetterWebBrowser.RendererProcess
