import BetterWebBrowser.Framework.Transition
import BetterWebBrowser.RendererProcess.FetchResponses
import Mathlib.Data.Finset.Insert
import Mathlib.Data.List.Forall2

/-!
# Runs of the assembler

Requests are registered with increasing identifiers, replies arrive in any order, batches
take what is ready and documents are cancelled. The log of a request records its accepted
messages, its deliveries and the responses taken for it.
-/

namespace BetterWebBrowser.RendererProcess

open Framework

/-- A request that was taken is gone. -/
def View.taken (view : View) : View := { view with request := none, completed := none }

namespace FetchState

variable {state state' : FetchState}

/-! ## Taking completed responses -/

/-- The responses belong to these requests, all of this batch. -/
def Belongs (state : FetchState) (pending : PendingFetchBatch) (id : Nat)
    (response : BrowserFetchResponse) : Prop :=
  state.completed.get id = some response ∧ ∃ tracked, state.requests.get id = some tracked ∧
    tracked.document = pending.document ∧ tracked.batchId = pending.batchId ∧
    tracked.delivery = .Buffered

/-- What taking these requests leaves. -/
structure Takes (pending : PendingFetchBatch) (ids : List Nat) (before after : Taking) : Prop where
  view : ∀ id, after.state.view id =
    if id ∈ ids then (before.state.view id).taken else before.state.view id
  responses : ∃ responses, after.responses = before.responses ++ responses ∧
    List.Forall₂ (before.state.Belongs pending) ids responses
  order : after.state.completedOrder = before.state.completedOrder
  watermark : after.state.retiredThrough = before.state.retiredThrough
  batches : (∀ batchId, batchId ≠ pending.batchId → before.state.batchBytes.contains batchId →
      before.state.Live batchId) →
    ∀ batchId, batchId ≠ pending.batchId → after.state.batchBytes.contains batchId →
      after.state.Live batchId

private theorem takeOne_takes {pending : PendingFetchBatch} {taking taking' : Taking} {id : Nat}
    (h : takeOne pending taking id = .ok taking') : Takes pending [id] taking taking' := by
  rw [takeOne] at h
  split at h
  next => cases h
  next tracked hget =>
    split at h
    next => cases h
    next hidentity =>
      simp only [not_or, not_not] at hidentity
      obtain ⟨hdocument, hbatch, hmode⟩ := hidentity
      split at h
      next => cases h
      next response hresponse =>
        cases h
        exact
          { view := by
              intro other
              by_cases hother : other = id
              · simp [FetchState.view, View.taken, hother]
              · simp [FetchState.view, hother, OrdMap.get_erase_ne _ hother]
            responses := ⟨[response], rfl,
              .cons ⟨hresponse, tracked, hget, hdocument, hbatch, hmode⟩ .nil⟩
            order := rfl
            watermark := rfl
            batches := by
              intro hlive other hne hkey
              obtain ⟨witness, live, hwitness, hlivebatch⟩ := hlive other hne hkey
              have hother : witness ≠ id := by
                rintro rfl
                rw [hget] at hwitness
                cases hwitness
                exact hne (hlivebatch.symm.trans hbatch)
              exact ⟨witness, live, (OrdMap.get_erase_ne _ hother).trans hwitness, hlivebatch⟩ }

private theorem Takes.trans {pending : PendingFetchBatch} {ids ids' : List Nat}
    {first middle last : Taking} (h : Takes pending ids first middle)
    (h' : Takes pending ids' middle last) (hdisjoint : ∀ id ∈ ids', id ∉ ids) :
    Takes pending (ids ++ ids') first last where
  view := by
    intro id
    rw [h'.view, h.view]
    by_cases hid : id ∈ ids'
    · simp [hid, hdisjoint id hid]
    · simp [hid]
  responses := by
    obtain ⟨responses, hresponses, hbelongs⟩ := h.responses
    obtain ⟨responses', hresponses', hbelongs'⟩ := h'.responses
    refine ⟨responses ++ responses', by rw [hresponses', hresponses, List.append_assoc], ?_⟩
    apply List.rel_append hbelongs
    have hsame : ∀ id ∈ ids', middle.state.view id = first.state.view id := by
      intro id hid
      rw [h.view, if_neg (hdisjoint id hid)]
    clear hresponses' hdisjoint h'
    induction hbelongs' with
    | nil => exact .nil
    | cons hhead _ ih =>
      refine .cons ?_ (ih fun id hid => hsame id (List.mem_cons_of_mem _ hid))
      have hview := hsame _ List.mem_cons_self
      rw [FetchState.view, FetchState.view, View.mk.injEq] at hview
      obtain ⟨hcompleted, tracked, hget, hidentity⟩ := hhead
      exact ⟨hview.2.2.2 ▸ hcompleted, tracked, hview.1 ▸ hget, hidentity⟩
  order := h'.order.trans h.order
  watermark := h'.watermark.trans h.watermark
  batches hlive := h'.batches (h.batches hlive)

private theorem foldlM_takes {pending : PendingFetchBatch} {ids : List Nat}
    {taking taking' : Taking} (hnodup : ids.Nodup)
    (h : ids.foldlM (takeOne pending) taking = .ok taking') :
    Takes pending ids taking taking' := by
  induction ids generalizing taking with
  | nil =>
    cases h
    exact
      { view := by simp
        responses := ⟨[], by simp, .nil⟩
        order := rfl
        watermark := rfl
        batches := fun hlive => hlive }
  | cons id ids ih =>
    rw [List.foldlM_cons] at h
    cases hone : takeOne pending taking id with
    | error error => rw [hone] at h; cases h
    | ok middle =>
      rw [hone] at h
      obtain ⟨hid, hnodup⟩ := List.nodup_cons.mp hnodup
      have hrest := ih hnodup h
      apply (takeOne_takes hone).trans hrest
      intro other hother hsame
      rw [List.mem_singleton.mp hsame] at hother
      exact hid hother

/-- Responses taken for a batch: which views go, and what is returned. -/
theorem takeCompleted_spec {pending pending' : PendingFetchBatch}
    {responses : List BrowserFetchResponse} (hordered : state.Ordered) (hlive : state.BatchesLive)
    (h : state.takeCompleted pending = .ok (responses, pending', state')) :
    (∀ id, state'.view id = if id ∈ state.ready pending then (state.view id).taken
        else state.view id) ∧
      List.Forall₂ (state.Belongs pending) (state.ready pending) responses ∧
      state'.completedOrder = state.completedOrder.filter state'.completed.contains ∧
      state'.retiredThrough = state.retiredThrough ∧ state'.BatchesLive := by
  rw [takeCompleted] at h
  cases hfold : (state.ready pending).foldlM (takeOne pending) ⟨state, pending.expected, []⟩ with
  | error error => rw [hfold] at h; cases h
  | ok taking =>
    rw [hfold] at h
    cases h
    have htakes := foldlM_takes (hordered.1.filter _) hfold
    refine ⟨?_, ?_, ?_, ?_, ?_⟩
    · intro id
      rw [view_cleanupBatch]
      exact htakes.view id
    · obtain ⟨responses, hresponses, hbelongs⟩ := htakes.responses
      rw [List.nil_append] at hresponses
      rw [hresponses]
      exact hbelongs
    · rw [cleanupBatch_completedOrder, cleanupBatch_completed]
      show taking.state.completedOrder.filter _ = _
      rw [htakes.order]
      rfl
    · rw [cleanupBatch_retiredThrough]
      exact htakes.watermark
    · apply cleanupBatch_batchesLive
      exact htakes.batches fun batchId _ hkey => hlive batchId hkey

/-! ## Cancelling a document -/

private theorem cancelOne_view (state : FetchState) (id other : Nat) :
    (state.cancelOne id).view other = if other = id then {} else state.view other := by
  have hrequests : (state.cancelOne id).requests = state.requests.erase id := by
    rw [cancelOne]
    cases hget : state.requests.get id with
    | none => exact (OrdMap.erase_eq_of_get_none _ hget).symm
    | some request => exact cleanupBatch_requests _ _
  rw [view, hrequests]
  by_cases hother : other = id
  · simp [cancelOne, hother]
  · simp [cancelOne, view, hother, OrdMap.get_erase_ne _ hother]

private theorem cancelOne_batchesLive {id : Nat} (h : state.BatchesLive) :
    (state.cancelOne id).BatchesLive := by
  rw [cancelOne]
  cases hget : state.requests.get id with
  | none => exact h
  | some request =>
    exact @erase_batchesLive state id request h hget
      { state with requests := state.requests.erase id } rfl rfl

private theorem cancelOne_order (state : FetchState) (id : Nat) :
    (state.cancelOne id).completedOrder = state.completedOrder ∧
      (state.cancelOne id).retiredThrough = max state.retiredThrough id := by
  rw [cancelOne]
  cases hget : state.requests.get id with
  | none => exact ⟨rfl, rfl⟩
  | some request => exact ⟨cleanupBatch_completedOrder _ _, rfl⟩

private theorem foldl_cancelOne (ids : List Nat) (state : FetchState) (hlive : state.BatchesLive) :
    (∀ other, (ids.foldl cancelOne state).view other = if other ∈ ids then {} else state.view other) ∧
      (ids.foldl cancelOne state).BatchesLive ∧
      (ids.foldl cancelOne state).completedOrder = state.completedOrder ∧
      state.retiredThrough ≤ (ids.foldl cancelOne state).retiredThrough ∧
      ∀ id ∈ ids, id ≤ (ids.foldl cancelOne state).retiredThrough := by
  induction ids generalizing state with
  | nil => simpa using hlive
  | cons id ids ih =>
    obtain ⟨hview, hbatches, horder, hwatermark, hretired⟩ :=
      ih (state.cancelOne id) (cancelOne_batchesLive hlive)
    obtain ⟨horder', hwatermark'⟩ := cancelOne_order state id
    rw [hwatermark'] at hwatermark
    refine ⟨?_, hbatches, horder.trans horder', by rw [List.foldl_cons]; omega, ?_⟩
    · intro other
      rw [List.foldl_cons, hview, cancelOne_view]
      by_cases hid : other = id <;> simp [hid]
    · intro other hother
      rcases List.mem_cons.mp hother with rfl | hmem
      · rw [List.foldl_cons]
        omega
      · exact hretired other hmem

theorem mem_documentRequests (document id : Nat) :
    id ∈ state.documentRequests document ↔
      ∃ tracked, state.requests.get id = some tracked ∧ tracked.document = document := by
  rw [documentRequests, List.mem_map]
  constructor
  · rintro ⟨⟨key, tracked⟩, hentry, rfl⟩
    obtain ⟨hmem, hdocument⟩ := List.mem_filter.mp hentry
    exact ⟨tracked, (OrdMap.mem_entries_iff_get _ _ _).mp hmem, of_decide_eq_true hdocument⟩
  · rintro ⟨tracked, hget, hdocument⟩
    exact ⟨(id, tracked), List.mem_filter.mpr ⟨(OrdMap.mem_entries_iff_get _ _ _).mpr hget,
      decide_eq_true hdocument⟩, rfl⟩

/-- A cancelled document takes its requests with it. -/
theorem cancelDocument_spec (document : Nat) (hlive : state.BatchesLive) :
    (∀ other, (state.cancelDocument document).view other =
        if other ∈ state.documentRequests document then {} else state.view other) ∧
      (state.cancelDocument document).BatchesLive ∧
      (state.cancelDocument document).completedOrder =
        state.completedOrder.filter (state.cancelDocument document).completed.contains ∧
      state.retiredThrough ≤ (state.cancelDocument document).retiredThrough ∧
      ∀ id ∈ state.documentRequests document, id ≤ (state.cancelDocument document).retiredThrough := by
  obtain ⟨hview, hbatches, horder, hwatermark, hretired⟩ :=
    foldl_cancelOne (state.documentRequests document) state hlive
  refine ⟨hview, hbatches, ?_, hwatermark, hretired⟩
  show List.filter _ (List.foldl cancelOne state _).completedOrder = _
  rw [horder]
  rfl

/-! ## Registering a batch -/

/-- How a batch tracks one of its requests. -/
def trackedIn (document batchId : Nat) (requests : List (Nat × Bool)) (id : Nat) :
    Option TrackedRequest :=
  (OrdMap.ofList (trackedRequests document batchId requests)).get id

private theorem trackedIn_isSome (document batchId : Nat) (requests : List (Nat × Bool)) (id : Nat) :
    (trackedIn document batchId requests id).isSome ↔ ∃ request ∈ requests, request.1 = id := by
  have hcontains := OrdMap.contains_ofList (trackedRequests document batchId requests) id
  rw [OrdMap.contains] at hcontains
  rw [trackedIn, hcontains, trackedRequests, List.map_map]
  simp

private theorem trackedIn_batch {document batchId id : Nat} {requests : List (Nat × Bool)}
    {tracked : TrackedRequest} (h : trackedIn document batchId requests id = some tracked) :
    tracked.document = document ∧ tracked.batchId = batchId := by
  have hmem := (OrdMap.mem_entries_iff_get _ _ _).mpr h
  have hall : ∀ (entries : List (Nat × TrackedRequest)),
      (∀ entry ∈ entries, entry.2.document = document ∧ entry.2.batchId = batchId) →
      ∀ entry ∈ (OrdMap.ofList entries).entries,
        entry.2.document = document ∧ entry.2.batchId = batchId := by
    intro entries
    induction entries using List.reverseRecOn with
    | nil =>
      intro _ entry hentry
      cases hentry
    | append_singleton entries last ih =>
      intro hentries entry hentry
      have hofList : OrdMap.ofList (entries ++ [last]) =
          (OrdMap.ofList entries).insert last.1 last.2 := by simp [OrdMap.ofList]
      rw [hofList] at hentry
      have hget := (OrdMap.mem_entries_iff_get _ _ _).mp hentry
      rw [OrdMap.get_insert] at hget
      split at hget
      · rw [← Option.some.inj hget]
        exact hentries last (by simp)
      · apply ih _ entry ((OrdMap.mem_entries_iff_get _ _ _).mpr hget)
        intro other hother
        exact hentries other (List.mem_append_left _ hother)
  apply hall (trackedRequests document batchId requests) _ (id, tracked) hmem
  intro entry hentry
  obtain ⟨request, -, rfl⟩ := List.mem_map.mp hentry
  exact ⟨rfl, rfl⟩

/-- A registered batch adds its requests and, if it collects any, a byte count. -/
theorem register_spec {document batchId : Nat} {requests : List (Nat × Bool)}
    (hlive : state.BatchesLive) (h : state.register document batchId requests = .ok state') :
    (∀ id, state'.view id = { state.view id with
        request := (trackedIn document batchId requests id).or (state.requests.get id) }) ∧
      state'.completedOrder = state.completedOrder ∧ state'.completed = state.completed ∧
      state'.retiredThrough = state.retiredThrough ∧ state'.BatchesLive := by
  rw [register] at h
  split at h
  next => cases h
  next hfresh =>
    cases h
    have hget : ∀ id, (state.requests.insertAll (trackedRequests document batchId requests)).get id =
        (trackedIn document batchId requests id).or (state.requests.get id) := by
      intro id
      exact OrdMap.get_insertAll _ _ _
    refine ⟨fun id => ?_, rfl, rfl, rfl, ?_⟩
    · simp only [view, hget]
    · intro other hother
      have hkey : (∃ request ∈ requests, other = batchId) ∨ state.batchBytes.contains other := by
        split at hother
        next hbuffered =>
          rcases (OrdMap.contains_insert _ _ _ _).mp hother with hsame | hbefore
          · obtain ⟨request, hrequest, -⟩ := List.any_eq_true.mp hbuffered
            exact .inl ⟨request, hrequest, hsame⟩
          · exact .inr hbefore
        next => exact .inr hother
      rcases hkey with ⟨request, hrequest, rfl⟩ | hbefore
      · obtain ⟨tracked, htracked⟩ := Option.isSome_iff_exists.mp
          ((trackedIn_isSome document other requests request.1).mpr ⟨request, hrequest, rfl⟩)
        exact ⟨request.1, tracked, by rw [hget, htracked]; rfl, (trackedIn_batch htracked).2⟩
      · obtain ⟨witness, live, hwitness, hbatch⟩ := hlive other hbefore
        refine ⟨witness, live, ?_, hbatch⟩
        rw [hget]
        cases htracked : trackedIn document batchId requests witness with
        | none => exact hwitness
        | some tracked =>
          obtain ⟨request, hrequest, rfl⟩ := (trackedIn_isSome document batchId requests
            witness).mp (by rw [htracked]; rfl)
          have hany : requests.any (fun request => state.requests.contains request.1) := by
            rw [List.any_eq_true]
            exact ⟨request, hrequest, by rw [OrdMap.contains, hwitness]; rfl⟩
          exact absurd hany hfresh

end FetchState

/-! ## Runs -/

/-- What has happened to one request. -/
structure RequestLog where
  tracked : Option TrackedRequest := none
  cancelled : Bool := false
  messages : List BrowserMessage := []
  deliveries : List ScriptFetchDelivery := []
  /-- The document and batch that took a response, and the response. -/
  taken : List (Nat × Nat × BrowserFetchResponse) := []

structure FetchHistory where
  state : FetchState := {}
  log : Nat → RequestLog := fun _ => {}
  /-- The identifiers in the order in which they were completed. -/
  completions : List Nat := []
  nextId : Nat := 0
  batches : List Nat := []

inductive FetchCall
  | register (document batchId : Nat) (requests : List (Nat × Bool))
  | handle (message : BrowserMessage)
  | takeCompleted (pending : PendingFetchBatch)
  | cancelDocument (document : Nat)

namespace FetchHistory

def recordRegister (history : FetchHistory) (document batchId : Nat) (requests : List (Nat × Bool))
    (state : FetchState) : FetchHistory :=
  { history with
    state := state
    log := fun id =>
      match FetchState.trackedIn document batchId requests id with
      | some tracked => { tracked := some tracked }
      | none => history.log id
    nextId := requests.foldl (fun next request => max next (request.1 + 1)) history.nextId
    batches := batchId :: history.batches }

/-- A dropped message is not accepted. -/
def recordMessage (history : FetchHistory) (message : BrowserMessage)
    (reply : Option ScriptFetchDelivery) (state : FetchState) : FetchHistory :=
  match message.fetchId with
  | none => { history with state := state }
  | some id =>
    if history.state.drops id then { history with state := state }
    else { history with
      state := state
      log := Function.update history.log id { history.log id with
        messages := (history.log id).messages ++ [message]
        deliveries := (history.log id).deliveries ++ reply.toList }
      completions := history.completions ++
        if !history.state.completed.contains id && state.completed.contains id then [id] else [] }

def recordTaken (history : FetchHistory) (pending : PendingFetchBatch)
    (responses : List BrowserFetchResponse) (state : FetchState) : FetchHistory :=
  { history with
    state := state
    log := fun id => { history.log id with
      taken := (history.log id).taken ++
        (responses.filter fun response => response.head.requestId = id).map
          fun response => (pending.document, pending.batchId, response) } }

def recordCancelled (history : FetchHistory) (document : Nat) : FetchHistory :=
  { history with
    state := history.state.cancelDocument document
    log := fun id =>
      if id ∈ history.state.documentRequests document then { history.log id with cancelled := true }
      else history.log id }

/-- One successful call. -/
def Step (history : FetchHistory) (call : FetchCall) (history' : FetchHistory) : Prop :=
  match call with
  | .register document batchId requests =>
    (requests.map Prod.fst).Pairwise (· < ·) ∧ (∀ request ∈ requests, history.nextId ≤ request.1) ∧
      batchId ∉ history.batches ∧
      ∃ state, history.state.register document batchId requests = .ok state ∧
        history' = history.recordRegister document batchId requests state
  | .handle message => ∃ reply state, history.state.handle message = .ok (reply, state) ∧
      history' = history.recordMessage message reply state
  | .takeCompleted pending => ∃ responses pending' state,
      history.state.takeCompleted pending = .ok (responses, pending', state) ∧
        history' = history.recordTaken pending responses state
  | .cancelDocument document => history' = history.recordCancelled document

end FetchHistory

/-- Where a request stands: what the state holds for it, and who has taken its response. -/
def Held (state : FetchState) (id : Nat) (tracked : TrackedRequest) (log : RequestLog)
    (phase : Phase) : Prop :=
  (log.taken = [] ∧ state.view id = tracked.view id phase) ∨
    ∃ response, phase = .Done response ∧ tracked.delivery = .Buffered ∧
      log.taken = [(tracked.document, tracked.batchId, response)] ∧ state.view id = {}

/-- What holds in every state of the assembler. -/
structure Assembled (history : FetchHistory) : Prop where
  live : ∀ id, history.state.buffered.contains id ∨ history.state.streaming.contains id ∨
    history.state.completed.contains id → history.state.requests.contains id
  disjoint : ∀ id, ¬ (history.state.buffered.contains id ∧ history.state.streaming.contains id) ∧
    ¬ (history.state.buffered.contains id ∧ history.state.completed.contains id) ∧
    ¬ (history.state.streaming.contains id ∧ history.state.completed.contains id)
  ordered : history.state.Ordered
  /-- Completion order; each request completes at most once. -/
  completion_order : history.state.completedOrder.Sublist history.completions ∧
    history.completions.Nodup
  batches : history.state.BatchesLive
  answered : ∀ id tracked, (history.log id).tracked = some tracked →
    (history.log id).cancelled = false →
    ∃ phase, Progress id tracked (history.log id).messages (history.log id).deliveries phase ∧
      Held history.state id tracked (history.log id) phase
  /-- A batch that expects a completed response takes it. -/
  collected : ∀ id response pending responses pending' state,
    history.state.completed.get id = some response → id ∈ pending.expected →
    history.state.takeCompleted pending = .ok (responses, pending', state) → response ∈ responses
  cancelled : ∀ id message, (history.log id).cancelled = true → message.fetchId = some id →
    history.state.handle message = .ok (none, history.state)

/-! ## The invariant -/

/-- A message that ends a response. -/
def BrowserMessage.Terminal : BrowserMessage → Prop
  | FetchResponseEnd _ => True
  | FetchResponseAbort _ => True
  | _ => False

theorem Progress.not_terminal {id : Nat} {tracked : TrackedRequest} {messages : List BrowserMessage}
    {deliveries : List ScriptFetchDelivery} {head : FetchResponseHead} {body : Bytes}
    (h : Progress id tracked messages deliveries (.Open head body)) :
    ∀ message ∈ messages, ¬ message.Terminal := by
  obtain ⟨pieces, rfl, -, -⟩ := h.open_shape
  intro message hmessage hterminal
  rcases List.mem_cons.mp hmessage with rfl | hmem
  · exact hterminal
  · obtain ⟨piece, -, rfl⟩ := List.mem_map.mp hmem
    exact hterminal

/-- Every identifier is in one of these positions. -/
inductive Standing (state : FetchState) (id : Nat) (log : RequestLog) : Prop
  | unknown (hlog : log = {}) (hview : state.view id = {})
  | cancelled (hcancelled : log.cancelled = true) (hview : state.view id = {})
  | held {tracked : TrackedRequest} {phase : Phase} (htracked : log.tracked = some tracked)
      (hcancelled : log.cancelled = false)
      (hprogress : Progress id tracked log.messages log.deliveries phase)
      (hheld : Held state id tracked log phase)

namespace Standing

variable {state state' : FetchState} {id : Nat} {log : RequestLog} {tracked : TrackedRequest}

theorem congr (h : Standing state id log) (hview : state'.view id = state.view id) :
    Standing state' id log := by
  cases h with
  | unknown hlog hnone => exact .unknown hlog (hview.trans hnone)
  | cancelled hcancelled hnone => exact .cancelled hcancelled (hview.trans hnone)
  | held htracked hcancelled hprogress hheld =>
    refine .held htracked hcancelled hprogress ?_
    rcases hheld with ⟨htaken, hsame⟩ | ⟨response, hphase, hmode, htaken, hnone⟩
    · exact .inl ⟨htaken, hview.trans hsame⟩
    · exact .inr ⟨response, hphase, hmode, htaken, hview.trans hnone⟩

/-- A live request is tracked as it was registered, and nothing was taken for it. -/
theorem of_request (h : Standing state id log) (hget : state.requests.get id = some tracked) :
    ∃ phase, log.tracked = some tracked ∧ log.cancelled = false ∧
      Progress id tracked log.messages log.deliveries phase ∧ log.taken = [] ∧
      state.view id = tracked.view id phase := by
  have hrequest : (state.view id).request = some tracked := hget
  cases h with
  | unknown hlog hview => rw [hview] at hrequest; cases hrequest
  | cancelled hcancelled hview => rw [hview] at hrequest; cases hrequest
  | held htracked hcancelled hprogress hheld =>
    rename_i found phase
    rcases hheld with ⟨htaken, hview⟩ | ⟨response, hphase, hmode, htaken, hview⟩
    · have hsame : found = tracked := by
        rw [hview] at hrequest
        cases phase <;> cases hmode : found.delivery <;>
          simp_all [TrackedRequest.view]
      subst hsame
      exact ⟨phase, htracked, hcancelled, hprogress, htaken, hview⟩
    · rw [hview] at hrequest
      cases hrequest

end Standing

/-- What every call keeps. -/
structure FetchHistory.Invariant (history : FetchHistory) : Prop where
  standing : ∀ id, Standing history.state id (history.log id)
  ordered : history.state.Ordered
  sublist : history.state.completedOrder.Sublist history.completions
  once : history.completions.Nodup
  ended : ∀ id ∈ history.completions, ∃ message ∈ (history.log id).messages, message.Terminal
  batches : history.state.BatchesLive
  fresh : ∀ id, history.nextId ≤ id → history.log id = {}
  retired : ∀ id, (history.log id).cancelled = true → id ≤ history.state.retiredThrough

namespace FetchHistory

variable {history : FetchHistory}

theorem invariant_init : Invariant {} where
  standing _ := .unknown rfl rfl
  ordered := ⟨.nil, by simp [OrdMap.contains]⟩
  sublist := .slnil
  once := .nil
  ended := by simp
  batches := by
    intro batchId hkey
    cases hkey
  fresh _ _ := rfl
  retired := by simp

private theorem le_nextId (requests : List (Nat × Bool)) (next : Nat) :
    next ≤ requests.foldl (fun next request => max next (request.1 + 1)) next ∧
      ∀ request ∈ requests,
        request.1 < requests.foldl (fun next request => max next (request.1 + 1)) next := by
  induction requests generalizing next with
  | nil => simp
  | cons first requests ih =>
    obtain ⟨hle, hlt⟩ := ih (max next (first.1 + 1))
    rw [List.foldl_cons]
    refine ⟨by omega, ?_⟩
    intro request hrequest
    rcases List.mem_cons.mp hrequest with rfl | hmem
    · omega
    · exact hlt request hmem

private theorem invariant_register (h : Invariant history) {document batchId : Nat}
    {requests : List (Nat × Bool)} {state : FetchState}
    (hfresh : ∀ request ∈ requests, history.nextId ≤ request.1)
    (hregister : history.state.register document batchId requests = .ok state) :
    Invariant (history.recordRegister document batchId requests state) := by
  obtain ⟨hview, horder, hcompleted, hwatermark, hbatches⟩ :=
    FetchState.register_spec h.batches hregister
  obtain ⟨hnext, hbelow⟩ := le_nextId requests history.nextId
  have hunknown : ∀ id tracked, FetchState.trackedIn document batchId requests id = some tracked →
      history.log id = {} := by
    intro id tracked htracked
    obtain ⟨request, hrequest, rfl⟩ := (FetchState.trackedIn_isSome document batchId requests
      id).mp (by rw [htracked]; rfl)
    exact h.fresh _ (hfresh request hrequest)
  exact
    { standing := by
        intro id
        show Standing state id (match FetchState.trackedIn document batchId requests id with
          | some tracked => { tracked := some tracked }
          | none => history.log id)
        cases htracked : FetchState.trackedIn document batchId requests id with
        | none =>
          apply (h.standing id).congr
          rw [hview, htracked]
          rfl
        | some tracked =>
          have hnone : history.state.view id = {} := by
            have hstanding := h.standing id
            rw [hunknown id tracked htracked] at hstanding
            cases hstanding with
            | unknown hlog hnone => exact hnone
            | cancelled hcancelled hnone => cases hcancelled
            | held hknown hcancelled hprogress hheld => cases hknown
          refine .held rfl rfl .waiting (.inl ⟨rfl, ?_⟩)
          rw [hview, htracked, hnone]
          rfl
      ordered := by
        show state.completedOrder.Nodup ∧
          ∀ id, id ∈ state.completedOrder ↔ state.completed.contains id = true
        rw [horder, hcompleted]
        exact h.ordered
      sublist := by
        show state.completedOrder.Sublist _
        rw [horder]
        exact h.sublist
      once := h.once
      ended := by
        intro id hid
        obtain ⟨message, hmessage, hterminal⟩ := h.ended id hid
        refine ⟨message, ?_, hterminal⟩
        show message ∈ (match FetchState.trackedIn document batchId requests id with
          | some tracked => { tracked := some tracked }
          | none => history.log id : RequestLog).messages
        cases htracked : FetchState.trackedIn document batchId requests id with
        | none => exact hmessage
        | some tracked =>
          rw [hunknown id tracked htracked] at hmessage
          cases hmessage
      batches := hbatches
      fresh := by
        intro id hid
        show (match FetchState.trackedIn document batchId requests id with
          | some tracked => { tracked := some tracked }
          | none => history.log id) = ({} : RequestLog)
        cases htracked : FetchState.trackedIn document batchId requests id with
        | none => exact h.fresh id (hnext.trans hid)
        | some tracked =>
          obtain ⟨request, hrequest, rfl⟩ := (FetchState.trackedIn_isSome document batchId requests
            id).mp (by rw [htracked]; rfl)
          exact absurd hid (Nat.not_le.mpr (hbelow request hrequest))
      retired := by
        intro id hid
        show id ≤ state.retiredThrough
        rw [hwatermark]
        apply h.retired id
        revert hid
        show (match FetchState.trackedIn document batchId requests id with
          | some tracked => { tracked := some tracked }
          | none => history.log id : RequestLog).cancelled = true → _
        cases htracked : FetchState.trackedIn document batchId requests id with
        | none => exact fun hid => hid
        | some tracked =>
          intro hid
          cases hid }

/-- The order grows by a request that completes. -/
private theorem completes_spec {state state' : FetchState} {id : Nat} {tracked : TrackedRequest}
    {phase' : Phase} (hmoves : Moves state state' id tracked phase')
    (hbefore : state.completed.contains id = false) :
    (if !state.completed.contains id && state'.completed.contains id then [id] else []) =
      phase'.completes tracked id := by
  have hcompleted : state'.completed.get id = (tracked.view id phase').completed := by
    rw [← hmoves.view]
    rfl
  rw [hbefore, OrdMap.contains, hcompleted]
  cases phase' <;> cases hmode : tracked.delivery <;>
    simp [TrackedRequest.view, Phase.completes, hmode]

private theorem ordered_moves {state state' : FetchState} {id : Nat} {tracked : TrackedRequest}
    {phase' : Phase} (hmoves : Moves state state' id tracked phase') (h : state.Ordered)
    (hbefore : state.completed.contains id = false) : state'.Ordered := by
  have hid : id ∉ state.completedOrder := by
    rw [h.2 id, hbefore]
    decide
  have hother : ∀ other, other ≠ id →
      state'.completed.contains other = state.completed.contains other := by
    intro other hne
    have hview := hmoves.others other hne
    rw [FetchState.view, FetchState.view, View.mk.injEq] at hview
    rw [OrdMap.contains, OrdMap.contains, hview.2.2.2]
  have hself : state'.completed.get id = (tracked.view id phase').completed := by
    rw [← hmoves.view]
    rfl
  rw [FetchState.Ordered, hmoves.order]
  have hadded : ∀ other, other ∈ phase'.completes tracked id →
      other = id ∧ state'.completed.contains id = true := by
    intro other hmem
    rw [OrdMap.contains, hself]
    revert hmem
    cases phase' <;> cases hmode : tracked.delivery <;>
      simp [TrackedRequest.view, Phase.completes, hmode]
  constructor
  · apply List.Nodup.append h.1 (phase'.completes_nodup tracked id)
    · intro other hmem hadd
      rw [(hadded other hadd).1] at hmem
      exact hid hmem
  · intro other
    rw [List.mem_append]
    by_cases hne : other = id
    · subst hne
      constructor
      · rintro (hmem | hadd)
        · exact absurd hmem hid
        · exact (hadded other hadd).2
      · intro hcontains
        right
        rw [OrdMap.contains, hself] at hcontains
        revert hcontains
        cases phase' <;> cases hmode : tracked.delivery <;>
          simp [TrackedRequest.view, Phase.completes, hmode]
    · rw [h.2 other, hother other hne]
      constructor
      · rintro (hcontains | hadd)
        · exact hcontains
        · exact absurd (hadded other hadd).1 hne
      · exact .inl

private theorem turn_open {id : Nat} {tracked : TrackedRequest} {phase phase' : Phase}
    {message : BrowserMessage} {reply : List ScriptFetchDelivery}
    (h : Turn id tracked phase message reply phase') {response : BrowserFetchResponse}
    (hdone : phase' = .Done response) : (∃ head body, phase = .Open head body) ∧ message.Terminal := by
  cases h with
  | start head hid => cases hdone
  | chunk piece hid hoffset => cases hdone
  | ending last hid hlength => exact ⟨⟨_, _, rfl⟩, trivial⟩
  | abort failure hid => exact ⟨⟨_, _, rfl⟩, trivial⟩

private theorem turn_not_completed {id : Nat} {tracked : TrackedRequest} {phase phase' : Phase}
    {message : BrowserMessage} {reply : List ScriptFetchDelivery} {state : FetchState}
    (h : Turn id tracked phase message reply phase') (hview : state.view id = tracked.view id phase) :
    state.completed.contains id = false := by
  have hcompleted : state.completed.get id = (tracked.view id phase).completed := by
    rw [← hview]
    rfl
  rw [OrdMap.contains, hcompleted]
  cases h with
  | start head hid => rfl
  | chunk piece hid hoffset => cases hmode : tracked.delivery <;> simp [TrackedRequest.view, hmode]
  | ending last hid hlength => cases hmode : tracked.delivery <;> simp [TrackedRequest.view, hmode]
  | abort failure hid => cases hmode : tracked.delivery <;> simp [TrackedRequest.view, hmode]

private theorem invariant_handle (h : Invariant history) {message : BrowserMessage}
    {reply : Option ScriptFetchDelivery} {state : FetchState}
    (hhandle : history.state.handle message = .ok (reply, state)) :
    Invariant (history.recordMessage message reply state) := by
  obtain ⟨id, hid, hdropped | ⟨tracked, hkept, hget, hturns⟩⟩ := FetchState.handle_cases hhandle
  · obtain ⟨hdrops, rfl, rfl⟩ := hdropped
    rw [recordMessage, hid]
    simp only [hdrops, if_true]
    exact h
  · obtain ⟨phase, htracked, hlive, hprogress, htaken, hview⟩ := (h.standing id).of_request hget
    obtain ⟨phase', hturn, hmoves⟩ := hturns phase hview
    have hbefore := turn_not_completed hturn hview
    have hnew := completes_spec hmoves hbefore
    rw [recordMessage, hid]
    simp only [hkept, Bool.false_eq_true, if_false, hnew]
    have hprogress' := hprogress.turn hturn
    have hnotEnded : ∀ other ∈ phase'.completes tracked id,
        other = id ∧ (∃ head body, phase = .Open head body) ∧ message.Terminal := by
      intro other hother
      obtain ⟨hsame, response, hdone⟩ := Phase.mem_completes hother
      exact ⟨hsame, turn_open hturn hdone⟩
    exact
      { standing := by
          intro other
          by_cases hother : other = id
          · subst hother
            change Standing state other (Function.update history.log other _ other)
            rw [Function.update_self]
            exact .held htracked hlive hprogress' (.inl ⟨htaken, hmoves.view⟩)
          · change Standing state other (Function.update history.log id _ other)
            rw [Function.update_of_ne hother]
            exact (h.standing other).congr (hmoves.others other hother)
        ordered := ordered_moves hmoves h.ordered hbefore
        sublist := by
          show state.completedOrder.Sublist _
          rw [hmoves.order]
          exact h.sublist.append_right _
        once := by
          apply List.Nodup.append h.once (phase'.completes_nodup tracked id)
          · intro other hmem hadd
            obtain ⟨rfl, ⟨head, body, rfl⟩, -⟩ := hnotEnded other hadd
            obtain ⟨ended, hended, hterminal⟩ := h.ended other hmem
            exact hprogress.not_terminal ended hended hterminal
        ended := by
          intro other hmem
          by_cases hother : other = id
          · subst hother
            rcases List.mem_append.mp hmem with hold | hadd
            · obtain ⟨ended, hended, hterminal⟩ := h.ended other hold
              exact ⟨ended, by simp [hended], hterminal⟩
            · exact ⟨message, by simp, (hnotEnded other hadd).2.2⟩
          · rcases List.mem_append.mp hmem with hold | hadd
            · obtain ⟨ended, hended, hterminal⟩ := h.ended other hold
              exact ⟨ended, by simpa [Function.update_of_ne hother] using hended, hterminal⟩
            · exact absurd (hnotEnded other hadd).1 hother
        batches := hmoves.batches h.batches
        fresh := by
          intro other hother
          have hne : other ≠ id := by
            rintro rfl
            rw [h.fresh other hother] at htracked
            cases htracked
          change Function.update history.log id _ other = _
          rw [Function.update_of_ne hne]
          exact h.fresh other hother
        retired := by
          intro other hother
          show other ≤ state.retiredThrough
          rw [hmoves.watermark]
          apply h.retired other
          by_cases hne : other = id
          · subst hne
            simpa using hother
          · change (Function.update history.log id _ other).cancelled = true at hother
            rwa [Function.update_of_ne hne] at hother }

/-- A request that is ready is held with its response. -/
private theorem Invariant.of_completed (h : Invariant history) {id : Nat} {response : BrowserFetchResponse}
    {tracked : TrackedRequest} (hget : history.state.requests.get id = some tracked)
    (hmode : tracked.delivery = .Buffered)
    (hcompleted : history.state.completed.get id = some response) :
    (history.log id).tracked = some tracked ∧ (history.log id).cancelled = false ∧
      Progress id tracked (history.log id).messages (history.log id).deliveries (.Done response) ∧
      (history.log id).taken = [] ∧ (history.state.view id).taken = {} := by
  obtain ⟨phase, htracked, hcancelled, hprogress, htaken, hview⟩ := (h.standing id).of_request hget
  have hfound : (tracked.view id phase).completed = some response := by
    rw [← hview]
    exact hcompleted
  cases phase with
  | Waiting => cases hfound
  | Open head body => simp [TrackedRequest.view, hmode] at hfound
  | Done found =>
    have hsame : found = response := by simpa [TrackedRequest.view, hmode] using hfound
    subst hsame
    refine ⟨htracked, hcancelled, hprogress, htaken, ?_⟩
    rw [hview]
    simp [TrackedRequest.view, View.taken, hmode]

private theorem Invariant.response_named (h : Invariant history) {pending : PendingFetchBatch}
    {id : Nat} {response : BrowserFetchResponse}
    (hbelongs : history.state.Belongs pending id response) : response.head.requestId = id := by
  obtain ⟨hcompleted, tracked, hget, -, -, hmode⟩ := hbelongs
  exact (h.of_completed hget hmode hcompleted).2.2.1.response_id

/-- Among responses to different requests, those to one of them. -/
private theorem filter_responses {belongs : Nat → BrowserFetchResponse → Prop} {ids : List Nat}
    {responses : List BrowserFetchResponse} (h : List.Forall₂ belongs ids responses)
    (hid : ∀ id ∈ ids, ∀ response, belongs id response → response.head.requestId = id)
    (hnodup : ids.Nodup) (id : Nat) :
    (id ∉ ids → responses.filter (fun response => response.head.requestId = id) = []) ∧
      (id ∈ ids → ∃ response, belongs id response ∧
        responses.filter (fun response => response.head.requestId = id) = [response]) := by
  induction h with
  | nil => simp
  | cons hhead htail ih =>
    rename_i first response ids responses
    obtain ⟨hfirst, hnodup⟩ := List.nodup_cons.mp hnodup
    have hresponse : response.head.requestId = first := hid first List.mem_cons_self _ hhead
    obtain ⟨hnone, hone⟩ := ih (fun id hmem => hid id (List.mem_cons_of_mem _ hmem)) hnodup
    by_cases hsame : id = first
    · subst hsame
      refine ⟨fun habsent => absurd List.mem_cons_self habsent, fun _ => ⟨response, hhead, ?_⟩⟩
      rw [List.filter_cons_of_pos (by exact decide_eq_true hresponse), hnone hfirst]
    · have hskip : (response :: responses).filter (fun response => response.head.requestId = id) =
          responses.filter fun response => response.head.requestId = id := by
        apply List.filter_cons_of_neg
        rw [decide_eq_true_eq, hresponse]
        exact Ne.symm hsame
      rw [hskip]
      exact ⟨fun habsent => hnone fun hmem => habsent (List.mem_cons_of_mem _ hmem),
        fun hmem => hone (List.mem_of_ne_of_mem hsame hmem)⟩

/-- What a call to the batch leaves of the order. -/
private theorem ordered_filter {state state' : FetchState} (h : state.Ordered)
    (horder : state'.completedOrder = state.completedOrder.filter state'.completed.contains)
    (hkept : ∀ id, state'.completed.contains id → state.completed.contains id) :
    state'.Ordered := by
  rw [FetchState.Ordered, horder]
  refine ⟨h.1.filter _, fun id => ?_⟩
  rw [List.mem_filter, h.2 id]
  exact ⟨fun hid => hid.2, fun hid => ⟨hkept id hid, hid⟩⟩

private theorem invariant_taken (h : Invariant history) {pending pending' : PendingFetchBatch}
    {responses : List BrowserFetchResponse} {state : FetchState}
    (htake : history.state.takeCompleted pending = .ok (responses, pending', state)) :
    Invariant (history.recordTaken pending responses state) := by
  obtain ⟨hview, hresponses, horder, hwatermark, hbatches⟩ :=
    FetchState.takeCompleted_spec h.ordered h.batches htake
  have hnodup : (history.state.ready pending).Nodup := h.ordered.1.filter _
  have hnamed : ∀ id ∈ history.state.ready pending, ∀ response,
      history.state.Belongs pending id response → response.head.requestId = id :=
    fun _ _ _ hbelongs => h.response_named hbelongs
  exact
    { standing := by
        intro id
        obtain ⟨hnone, hone⟩ := filter_responses hresponses hnamed hnodup id
        change Standing state id { history.log id with
          taken := (history.log id).taken ++
            (responses.filter fun response => response.head.requestId = id).map
              fun response => (pending.document, pending.batchId, response) }
        by_cases hready : id ∈ history.state.ready pending
        · obtain ⟨response, hbelongs, hfilter⟩ := hone hready
          obtain ⟨hcompleted, tracked, hget, hdocument, hbatch, hmode⟩ := hbelongs
          obtain ⟨htracked, hcancelled, hprogress, htaken, hgone⟩ :=
            h.of_completed hget hmode hcompleted
          refine .held htracked hcancelled hprogress (.inr ⟨response, rfl, hmode, ?_, ?_⟩)
          · rw [hfilter, htaken, hdocument, hbatch]
            rfl
          · rw [hview, if_pos hready]
            exact hgone
        · rw [hnone hready, List.map_nil, List.append_nil]
          apply (h.standing id).congr
          rw [hview, if_neg hready]
      ordered := by
        apply ordered_filter h.ordered horder
        intro id hid
        have hcompleted : (state.view id).completed.isSome := hid
        rw [hview] at hcompleted
        split at hcompleted
        · cases hcompleted
        · exact hcompleted
      sublist := by
        show state.completedOrder.Sublist _
        rw [horder]
        exact List.filter_sublist.trans h.sublist
      once := h.once
      ended := h.ended
      batches := hbatches
      fresh := by
        intro id hid
        have hlog := h.fresh id hid
        obtain ⟨hnone, hone⟩ := filter_responses hresponses hnamed hnodup id
        have habsent : id ∉ history.state.ready pending := by
          intro hready
          obtain ⟨response, ⟨hcompleted, tracked, hget, -, -, hmode⟩, -⟩ := hone hready
          have htracked := (h.of_completed hget hmode hcompleted).1
          rw [hlog] at htracked
          cases htracked
        show ({ history.log id with
          taken := (history.log id).taken ++
            (responses.filter fun response => response.head.requestId = id).map
              fun response => (pending.document, pending.batchId, response) } : RequestLog) = {}
        rw [hnone habsent, hlog]
        rfl
      retired := by
        intro id hid
        show id ≤ state.retiredThrough
        rw [hwatermark]
        exact h.retired id hid }

private theorem invariant_cancelled (h : Invariant history) (document : Nat) :
    Invariant (history.recordCancelled document) := by
  obtain ⟨hview, hbatches, horder, hwatermark, hretired⟩ :=
    FetchState.cancelDocument_spec document h.batches
  exact
    { standing := by
        intro id
        change Standing (history.state.cancelDocument document) id
          (if id ∈ history.state.documentRequests document then
            { history.log id with cancelled := true } else history.log id)
        split
        next hid => exact .cancelled rfl (by rw [hview, if_pos hid])
        next hid => exact (h.standing id).congr (by rw [hview, if_neg hid])
      ordered := by
        apply ordered_filter h.ordered horder
        intro id hid
        have hcompleted : ((history.state.cancelDocument document).view id).completed.isSome := hid
        rw [hview] at hcompleted
        split at hcompleted
        · cases hcompleted
        · exact hcompleted
      sublist := by
        show (history.state.cancelDocument document).completedOrder.Sublist _
        rw [horder]
        exact List.filter_sublist.trans h.sublist
      once := h.once
      ended := by
        intro id hid
        obtain ⟨message, hmessage, hterminal⟩ := h.ended id hid
        refine ⟨message, ?_, hterminal⟩
        show message ∈ (if id ∈ history.state.documentRequests document then
          { history.log id with cancelled := true } else history.log id : RequestLog).messages
        split <;> exact hmessage
      batches := hbatches
      fresh := by
        intro id hid
        have hlog := h.fresh id hid
        show (if id ∈ history.state.documentRequests document then
          { history.log id with cancelled := true } else history.log id : RequestLog) = {}
        rw [if_neg]
        · exact hlog
        · intro hmem
          obtain ⟨tracked, hget, -⟩ := FetchState.mem_documentRequests document id |>.mp hmem
          obtain ⟨phase, htracked, -⟩ := (h.standing id).of_request hget
          rw [hlog] at htracked
          cases htracked
      retired := by
        intro id hid
        change (if id ∈ history.state.documentRequests document then
          { history.log id with cancelled := true } else history.log id : RequestLog).cancelled =
            true at hid
        split at hid
        next hmem => exact hretired id hmem
        next => exact (h.retired id hid).trans hwatermark }

/-- Every call keeps the invariant. -/
theorem step_invariant {history' : FetchHistory} {call : FetchCall} (h : Invariant history)
    (hstep : Step history call history') : Invariant history' := by
  cases call with
  | register document batchId requests =>
    obtain ⟨-, hfresh, -, state, hregister, rfl⟩ := hstep
    exact invariant_register h hfresh hregister
  | handle message =>
    obtain ⟨reply, state, hhandle, rfl⟩ := hstep
    exact invariant_handle h hhandle
  | takeCompleted pending =>
    obtain ⟨responses, pending', state, htake, rfl⟩ := hstep
    exact invariant_taken h htake
  | cancelDocument document =>
    cases hstep
    exact invariant_cancelled h document

/-- What an identifier can be in at once. -/
private theorem view_exclusive {state : FetchState} {id : Nat} {log : RequestLog}
    (h : Standing state id log) :
    (((state.view id).buffered.isSome ∨ (state.view id).streaming.isSome ∨
      (state.view id).completed.isSome) → (state.view id).request.isSome) ∧
      ¬ ((state.view id).buffered.isSome ∧ (state.view id).streaming.isSome) ∧
      ¬ ((state.view id).buffered.isSome ∧ (state.view id).completed.isSome) ∧
      ¬ ((state.view id).streaming.isSome ∧ (state.view id).completed.isSome) := by
  cases h with
  | unknown hlog hview => simp [hview]
  | cancelled hcancelled hview => simp [hview]
  | held htracked hcancelled hprogress hheld =>
    rename_i tracked phase
    rcases hheld with ⟨-, hview⟩ | ⟨response, -, -, -, hview⟩
    · rw [hview]
      cases phase <;> cases hmode : tracked.delivery <;> simp [TrackedRequest.view, hmode]
    · simp [hview]

theorem Invariant.assembled (h : Invariant history) : Assembled history where
  live id hid := (view_exclusive (h.standing id)).1 hid
  disjoint id := (view_exclusive (h.standing id)).2
  ordered := h.ordered
  completion_order := ⟨h.sublist, h.once⟩
  batches := h.batches
  answered := by
    intro id tracked htracked hlive
    cases h.standing id with
    | unknown hlog hview =>
      rw [hlog] at htracked
      cases htracked
    | cancelled hcancelled hview =>
      rw [hcancelled] at hlive
      cases hlive
    | held hknown hcancelled hprogress hheld =>
      rename_i found phase
      rw [hknown] at htracked
      cases htracked
      exact ⟨phase, hprogress, hheld⟩
  cancelled := by
    intro id message hcancelled hid
    have hview : history.state.view id = {} := by
      cases h.standing id with
      | unknown hlog hview => exact hview
      | cancelled hcancelled' hview => exact hview
      | held htracked hlive hprogress hheld =>
        rw [hlive] at hcancelled
        cases hcancelled
    have hrequest : history.state.requests.get id = none := by
      show (history.state.view id).request = none
      rw [hview]
    have hdrops : history.state.drops id = true := by
      rw [FetchState.drops, OrdMap.contains, hrequest]
      simpa using h.retired id hcancelled
    rw [FetchState.handle.eq_def, hid]
    simp only [hdrops, if_true]
  collected := by
    intro id response pending responses pending' state hcompleted hexpected htake
    obtain ⟨-, hresponses, -⟩ := FetchState.takeCompleted_spec h.ordered h.batches htake
    have hready : id ∈ history.state.ready pending := by
      apply List.mem_filter.mpr ⟨(h.ordered.2 id).mpr _, decide_eq_true hexpected⟩
      rw [OrdMap.contains, hcompleted]
      rfl
    obtain ⟨found, hbelongs, hfilter⟩ := (filter_responses hresponses
      (fun _ _ _ hbelongs => h.response_named hbelongs) (h.ordered.1.filter _) id).2 hready
    rw [Option.some.inj (hcompleted.symm.trans hbelongs.1)]
    exact (List.mem_filter.mp (hfilter ▸ List.mem_singleton_self found)).1

/-- Over any run of calls the assembler neither loses nor misattributes a response. -/
theorem run_assembled {calls : List FetchCall} (hrun : Run Step {} calls history) :
    Assembled history :=
  (hrun.invariant Invariant invariant_init fun _ _ _ h hstep => step_invariant h hstep).assembled

def sampleHead (id : Nat) : FetchResponseHead := ⟨id, .Success .Basic [] 200 []⟩
theorem run_assembled_sample :
    ∃ history, Run Step {}
      [.register 1 7 [(1, false), (2, true)], .handle (.FetchResponseStart (sampleHead 1)),
       .handle (.FetchResponseStart (sampleHead 2)),
       .handle (.FetchResponseChunk ⟨1, 0, [65, 66], by decide⟩),
       .handle (.FetchResponseEnd ⟨1, 2⟩), .takeCompleted ⟨1, 7, {1}⟩, .cancelDocument 1,
       .handle (.FetchResponseEnd ⟨2, 0⟩)] history ∧
      (history.log 1).taken = [(1, 7, ⟨sampleHead 1, [65, 66]⟩)] ∧ Assembled history := by
  have h : Run Step {}
      [.register 1 7 [(1, false), (2, true)], .handle (.FetchResponseStart (sampleHead 1)),
       .handle (.FetchResponseStart (sampleHead 2)),
       .handle (.FetchResponseChunk ⟨1, 0, [65, 66], by decide⟩),
       .handle (.FetchResponseEnd ⟨1, 2⟩), .takeCompleted ⟨1, 7, {1}⟩, .cancelDocument 1,
       .handle (.FetchResponseEnd ⟨2, 0⟩)] _ :=
    .snoc (.snoc (.snoc (.snoc (.snoc (.snoc (.snoc (.snoc .nil
      ⟨by decide, by decide, by decide, _, rfl, rfl⟩) ⟨_, _, rfl, rfl⟩) ⟨_, _, rfl, rfl⟩)
      ⟨_, _, rfl, rfl⟩) ⟨_, _, rfl, rfl⟩) ⟨_, _, _, rfl, rfl⟩) rfl) ⟨_, _, rfl, rfl⟩
  exact ⟨_, h, rfl, run_assembled h⟩

end FetchHistory

end BetterWebBrowser.RendererProcess
