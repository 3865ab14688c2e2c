import BetterWebBrowser.RendererProcess.EventRuns

/-!
# What the event queue guarantees

The bounds of the queue, the delivery of its events, and what a send may do to the events that
are queued already. A send of an event that a decoder returned does not wait for an empty
queue.
-/

namespace BetterWebBrowser.RendererProcess

open Framework RendererProtocol RendererEvent EventQueue

variable {Content Detail : Type}

/-! ## What a send leaves in the queue -/

private theorem mem_offerCoalesced {queue : EventQueue Content Detail}
    (hopen : queue.receiverOpen = true) (event : RendererEvent Content Detail) (wait : Bool)
    {old : RendererEvent Content Detail} (h : old ∈ queue.events) :
    old ∈ (queue.offerCoalesced event wait).1.events := by
  obtain ⟨-, -, heq⟩ | ⟨-, -, heq⟩ | ⟨-, heq⟩ := offerCoalesced_cases hopen event wait
  · rw [heq]
    exact h
  · rw [heq]
    exact h
  · rw [heq]
    exact List.mem_append_left _ h

/-- An event that was queued stays, or a newer one replaces it, or the report sent follows it. -/
theorem sendCoalesced_keeps {queue : EventQueue Content Detail} (hbounded : Bounded queue)
    (event : RendererEvent Content Detail) (wait : Bool) :
    ∀ old ∈ queue.events, old ∈ (queue.sendCoalesced event wait).1.events ∨
      (∃ newer ∈ (queue.sendCoalesced event wait).1.events, Overtakes newer old) ∨
      Continues old event := by
  intro old hmem
  rw [sendCoalesced, if_pos hbounded.receiverOpen]
  cases hprepare : prepare queue.events event with
  | mk left outcome =>
    have hcases := prepare_cases hprepare
    cases outcome with
    | Superseded =>
      cases hcases with
      | superseded => exact .inl hmem
    | Refused error =>
      cases hcases with
      | refused front last error hevents hcontinues =>
        rw [hevents] at hmem
        obtain hmem | hmem := List.mem_append.mp hmem
        · exact .inl hmem
        · obtain rfl := List.mem_singleton.mp hmem
          exact .inr (.inr hcontinues)
    | Ready ready =>
      cases hcases with
      | joined front last merged hevents hjoins =>
        rw [hevents] at hmem
        obtain hmem | hmem := List.mem_append.mp hmem
        · have hopen : ({ queue with events := left } : EventQueue Content Detail).receiverOpen = true :=
            hbounded.receiverOpen
          exact .inl (mem_offerCoalesced hopen ready wait hmem)
        · obtain rfl := List.mem_singleton.mp hmem
          exact .inr (.inr (continues_of_joins hjoins))
      | ready hreplaces =>
        let left : EventQueue Content Detail :=
          { queue with events := queue.events.filter fun queued => !replaces event queued }
        have hopen : left.receiverOpen = true := hbounded.receiverOpen
        cases hold : replaces event old with
        | false =>
          have hkept : old ∈ left.events := List.mem_filter.mpr ⟨hmem, by rw [hold]; rfl⟩
          exact .inl (mem_offerCoalesced hopen event wait hkept)
        | true =>
          refine .inr (.inl ⟨event, ?_, hreplaces old hmem hold⟩)
          show event ∈ (left.offerCoalesced event wait).1.events
          have hnotfull : coalescedFull left.events event = false := by
            by_contra hfull
            have hfilter := filter_eq_of_full hbounded (Bool.eq_true_of_not_eq_false hfull)
            have hkept : old ∈ queue.events.filter fun queued => !replaces event queued := by
              rw [hfilter]
              exact hmem
            rw [List.mem_filter, hold] at hkept
            exact absurd hkept.2 Bool.false_ne_true
          obtain ⟨hfull, -⟩ | ⟨hfull, -⟩ | ⟨-, heq⟩ :=
            offerCoalesced_cases hopen event wait
          · rw [hnotfull] at hfull
            cases hfull
          · rw [hnotfull] at hfull
            cases hfull
          · rw [heq]
            exact List.mem_append_right _ (List.mem_singleton_self _)

/-- A coalesced send that fails changes nothing, unless its report follows the last one queued. -/
theorem sendCoalesced_failed {queue : EventQueue Content Detail} (hbounded : Bounded queue)
    {event : RendererEvent Content Detail} {wait : Bool}
    (hlast : ∀ front last, queue.events = front ++ [last] → ¬ Continues last event)
    (h : (queue.sendCoalesced event wait).2.failed = true) :
    (queue.sendCoalesced event wait).1 = queue := by
  rw [sendCoalesced, if_pos hbounded.receiverOpen] at h ⊢
  cases hprepare : prepare queue.events event with
  | mk left outcome =>
    rw [hprepare] at h
    have hcases := prepare_cases hprepare
    cases outcome with
    | Superseded => cases h
    | Refused error =>
      cases hcases with
      | refused front last error hevents hcontinues => exact absurd hcontinues (hlast _ _ hevents)
    | Ready ready =>
      cases hcases with
      | joined front last merged hevents hjoins =>
        exact absurd (continues_of_joins hjoins) (hlast _ _ hevents)
      | ready hreplaces =>
        let left : EventQueue Content Detail :=
          { queue with events := queue.events.filter fun queued => !replaces event queued }
        have hopen : left.receiverOpen = true := hbounded.receiverOpen
        have h : (left.offerCoalesced event wait).2.failed = true := h
        show (left.offerCoalesced event wait).1 = queue
        obtain ⟨-, -, heq⟩ | ⟨hfull, -, heq⟩ | ⟨-, heq⟩ :=
          offerCoalesced_cases hopen event wait
        · rw [heq] at h
          cases h
        · have hevents : left.events = queue.events := filter_eq_of_full hbounded hfull
          rw [heq]
          cases queue
          exact congrArg (EventQueue.mk · _ _) hevents
        · rw [heq] at h
          cases h

theorem sendLossless_events {queue : EventQueue Content Detail} (hbounded : Bounded queue)
    (event : RendererEvent Content Detail) :
    (queue.sendLossless event).2.failed = false ∧
      ∀ old ∈ queue.events, old ∈ (queue.sendLossless event).1.events := by
  obtain ⟨-, heq⟩ | ⟨-, heq⟩ := sendLossless_cases hbounded.receiverOpen event
  · rw [heq]
    exact ⟨rfl, fun _ hmem => hmem⟩
  · rw [heq]
    exact ⟨rfl, fun _ hmem => List.mem_append_left _ hmem⟩

/-! ## Events that fit an empty queue -/

structure Fits (event : RendererEvent Content Detail) : Prop where
  resources : event.resourceBytes ≤ MAX_RENDERER_PRESENTATION_BYTES
  storage : event.storageBytes ≤ MAX_PENDING_STORAGE_BYTES
  apart : ∀ value, event = .Presentation value → value.KeysApart

/-- All events of the queue, and the one that waits, fit. -/
def AllFit (session : Session Content Detail) : Prop :=
  (∀ event ∈ session.queue.events, Fits event) ∧ ∀ event ∈ session.waiting, Fits event

theorem fits_of_joins {last event merged : RendererEvent Content Detail} (h : Joins last event merged)
    (hlast : Fits last) (hevent : Fits event) : Fits merged := by
  cases last with
  | Presentation previous =>
    cases event with
    | Presentation next =>
      cases merged with
      | Presentation value =>
        have hnext := hevent.apart next rfl
        refine ⟨RendererPresentation.oneShotResourceBytes_coalesce h.2 hnext, Nat.zero_le _, ?_⟩
        rintro _ ⟨⟩
        exact RendererPresentation.keysApart_coalesce h.2 (hlast.apart previous rfl) hnext
      | _ => exact h.elim
    | _ => exact h.elim
  | RuntimeUpdate previous =>
    cases event with
    | RuntimeUpdate next =>
      cases merged with
      | RuntimeUpdate value =>
        have hbytes := RendererRuntimeUpdate.oneShotResourceBytes_coalesce h.2
        exact ⟨hbytes.trans (by decide), Nat.zero_le _, fun _ heq => nomatch heq⟩
      | _ => exact h.elim
    | _ => exact h.elim
  | _ => exact h.elim

theorem coalescedFull_nil {event : RendererEvent Content Detail} (h : Fits event) :
    coalescedFull [] event = false := by
  have hbytes : exceedsResourceBudget [] event = false :=
    decide_eq_false (not_lt.mpr h.resources)
  rw [coalescedFull, hbytes, Bool.or_false]
  exact decide_eq_false (Nat.not_succ_le_zero _)

theorem losslessFull_nil {event : RendererEvent Content Detail} (h : Fits event) :
    losslessFull [] event = false := by
  have hstorage : decide (MAX_PENDING_STORAGE_BYTES <
      queuedStorageBytes ([] : List (RendererEvent Content Detail)) + event.storageBytes) = false := by
    refine decide_eq_false (not_lt.mpr ?_)
    rw [queuedStorageBytes, List.map_nil, List.sum_nil, Nat.zero_add]
    exact h.storage
  rw [losslessFull, hstorage, Bool.or_false, Bool.or_eq_false_iff]
  exact ⟨decide_eq_false (Nat.not_succ_le_zero _), decide_eq_false (Nat.not_succ_le_zero _)⟩

theorem AllFit.offerCoalesced {queue : EventQueue Content Detail}
    (hopen : queue.receiverOpen = true) {event : RendererEvent Content Detail} (wait : Bool)
    (hevents : ∀ event ∈ queue.events, Fits event) (hevent : Fits event) :
    AllFit (.after (queue.offerCoalesced event wait)) ∧
      ((queue.offerCoalesced event wait).1.events = [] →
        (queue.offerCoalesced event wait).2.waiting = none) := by
  obtain ⟨hfull, -, heq⟩ | ⟨-, -, heq⟩ | ⟨-, heq⟩ := offerCoalesced_cases hopen event wait
  · rw [heq]
    refine ⟨⟨hevents, ?_⟩, fun hempty => ?_⟩
    · rintro _ ⟨⟩
      exact hevent
    · have hempty : queue.events = [] := hempty
      rw [hempty, coalescedFull_nil hevent] at hfull
      cases hfull
  · rw [heq]
    exact ⟨⟨hevents, fun _ hmem => nomatch hmem⟩, fun _ => rfl⟩
  · rw [heq]
    exact ⟨⟨List.forall_mem_append.mpr ⟨hevents, List.forall_mem_singleton.mpr hevent⟩,
      fun _ hmem => nomatch hmem⟩, fun _ => rfl⟩

theorem AllFit.sendLossless {queue : EventQueue Content Detail}
    (hopen : queue.receiverOpen = true) {event : RendererEvent Content Detail}
    (hevents : ∀ event ∈ queue.events, Fits event) (hevent : Fits event) :
    AllFit (.after (queue.sendLossless event)) ∧
      ((queue.sendLossless event).1.events = [] → (queue.sendLossless event).2.waiting = none) := by
  obtain ⟨hfull, heq⟩ | ⟨-, heq⟩ := sendLossless_cases hopen event
  · rw [heq]
    refine ⟨⟨hevents, ?_⟩, fun hempty => ?_⟩
    · rintro _ ⟨⟩
      exact hevent
    · have hempty : queue.events = [] := hempty
      rw [hempty, losslessFull_nil hevent] at hfull
      cases hfull
  · rw [heq]
    exact ⟨⟨List.forall_mem_append.mpr ⟨hevents, List.forall_mem_singleton.mpr hevent⟩,
      fun _ hmem => nomatch hmem⟩, fun _ => rfl⟩

theorem AllFit.sendCoalesced {queue : EventQueue Content Detail} (hbounded : Bounded queue)
    {event : RendererEvent Content Detail} (wait : Bool)
    (hevents : ∀ event ∈ queue.events, Fits event) (hevent : Fits event) :
    AllFit (.after (queue.sendCoalesced event wait)) ∧
      ((queue.sendCoalesced event wait).1.events = [] →
        (queue.sendCoalesced event wait).2.waiting = none) := by
  have hnone : ∀ event ∈ (none : Option (RendererEvent Content Detail)), Fits event :=
    fun _ hmem => nomatch hmem
  rw [EventQueue.sendCoalesced, if_pos hbounded.receiverOpen]
  cases hprepare : prepare queue.events event with
  | mk left outcome =>
    have hcases := prepare_cases hprepare
    cases outcome with
    | Superseded =>
      cases hcases with
      | superseded => exact ⟨⟨hevents, hnone⟩, fun _ => rfl⟩
    | Refused error =>
      cases hcases with
      | refused front last error hfront hcontinues =>
        rw [hfront] at hevents
        exact ⟨⟨(List.forall_mem_append.mp hevents).1, hnone⟩, fun _ => rfl⟩
    | Ready ready =>
      cases hcases with
      | joined front last merged hfront hjoins =>
        rw [hfront] at hevents
        obtain ⟨hevents, hlast⟩ := List.forall_mem_append.mp hevents
        have hopen : ({ queue with events := left } : EventQueue Content Detail).receiverOpen = true :=
          hbounded.receiverOpen
        exact offerCoalesced hopen wait hevents (fits_of_joins hjoins (hlast last (List.mem_singleton_self _)) hevent)
      | ready hreplaces =>
        let left : EventQueue Content Detail :=
          { queue with events := queue.events.filter fun queued => !replaces event queued }
        have hopen : left.receiverOpen = true := hbounded.receiverOpen
        exact offerCoalesced hopen wait (fun event hmem => hevents event (List.mem_filter.mp hmem).1) hevent

theorem AllFit.send {queue : EventQueue Content Detail} (hbounded : Bounded queue)
    {event : RendererEvent Content Detail} (hevents : ∀ event ∈ queue.events, Fits event)
    (hevent : Fits event) :
    AllFit (.after (queue.send event)) ∧
      ((queue.send event).1.events = [] → (queue.send event).2.waiting = none) := by
  rw [EventQueue.send]
  split
  next => exact sendLossless hbounded.receiverOpen hevents hevent
  next => exact sendCoalesced hbounded true hevents hevent

theorem AllFit.resume {queue : EventQueue Content Detail} (hbounded : Bounded queue)
    {event : RendererEvent Content Detail} (hevents : ∀ event ∈ queue.events, Fits event)
    (hevent : Fits event) :
    AllFit (.after (queue.resume event)) ∧
      ((queue.resume event).1.events = [] → (queue.resume event).2.waiting = none) := by
  rw [EventQueue.resume]
  split
  next => exact sendLossless hbounded.receiverOpen hevents hevent
  next => exact offerCoalesced hbounded.receiverOpen true hevents hevent

theorem AllFit.recv {queue left : EventQueue Content Detail}
    {waiting : Option (RendererEvent Content Detail)} {event : RendererEvent Content Detail}
    (h : AllFit ⟨queue, waiting⟩) (hrecv : queue.recv = .ok (event, left)) :
    AllFit ⟨left, waiting⟩ := by
  rw [EventQueue.recv] at hrecv
  split at hrecv
  next first rest hevents =>
    cases hrecv
    refine ⟨fun event hmem => h.1 event ?_, h.2⟩
    show event ∈ queue.events
    rw [hevents]
    exact List.mem_cons_of_mem _ hmem
  next => split at hrecv <;> cases hrecv

/-- Events that fit stay events that fit, merged or not. -/
theorem Run.allFit {history : History Content Detail} {session : Session Content Detail}
    (h : Run history session) (hcalls : ∀ call ∈ history.calls, Fits call.event) : AllFit session := by
  have hsplit {history : History Content Detail} {event : RendererEvent Content Detail}
      {blocking : Bool} {sending : Sending Content Detail}
      (hcalls : ∀ call ∈ (history.call event blocking sending).calls, Fits call.event) :
      (∀ call ∈ history.calls, Fits call.event) ∧ Fits event := by
    obtain ⟨hbefore, hcall⟩ := List.forall_mem_append.mp hcalls
    exact ⟨hbefore, hcall _ (List.mem_singleton_self _)⟩
  induction h with
  | start => exact ⟨(fun _ hmem => nomatch hmem), fun _ hmem => nomatch hmem⟩
  | send hrun event ih =>
    obtain ⟨hbefore, hevent⟩ := hsplit hcalls
    exact (AllFit.send hrun.bounded (ih hbefore).1 hevent).1
  | trySend hrun event ih =>
    obtain ⟨hbefore, hevent⟩ := hsplit hcalls
    exact (AllFit.sendCoalesced hrun.bounded false (ih hbefore).1 hevent).1
  | discardDocument hrun document ih =>
    exact ⟨fun event hmem => (ih hcalls).1 event (List.mem_filter.mp hmem).1, (ih hcalls).2⟩
  | resume hrun ih =>
    exact (AllFit.resume hrun.bounded (ih hcalls).1 ((ih hcalls).2 _ rfl)).1
  | recv hrun hrecv ih => exact (ih hcalls).recv hrecv
  | tryRecvIf hrun accepts hrecv ih => exact (ih hcalls).recv (recv_of_tryRecvIf hrecv)

/-! ## Decoded events -/

section Decoded

variable {Document Diagnostics Layout Canvases : Type}

/-- A decoder of the browser returned the event; a presentation is stamped with its own load
report afterwards. -/
def Accepted : RendererEvent (PresentationContent Document Diagnostics Layout Canvases) Detail → Prop
  | .Presentation value => ∃ sections payload decoded,
    ReportDecoding.decodePresentation sections payload = .ok decoded ∧
      value = { decoded with load := value.load }
  | .RuntimeUpdate value => ∃ payload, payload.length ≤ payloadLimit 0x0120 ∧
    WireReader.payload ReportDecoding.decodeRuntimeUpdate payload = .ok value
  | .StorageMutation request => ∃ payload, WireReader.payload StorageCodec.decodeMutation payload = .ok request
  | .BroadcastCommand command => ∃ payload, WireReader.payload ReportDecoding.decodeCommand payload = .ok command
  | _ => True

private theorem payload_eq_ok {A : Type} {decoder : WireReader A} {payload : List UInt8} {value : A}
    (h : WireReader.payload decoder payload = .ok value) : ∃ rest, decoder payload = .ok (value, rest) := by
  rw [WireReader.payload] at h
  cases hresult : decoder payload with
  | error error =>
    rw [hresult] at h
    cases h
  | ok pair =>
    rw [hresult] at h
    cases h
    exact ⟨pair.2, rfl⟩

theorem fits_of_accepted
    {event : RendererEvent (PresentationContent Document Diagnostics Layout Canvases) Detail}
    (h : Accepted event) : Fits event := by
  cases event with
  | Presentation value =>
    obtain ⟨sections, payload, decoded, hdecode, hvalue⟩ := h
    obtain ⟨hbytes, hapart⟩ := ReportDecoding.decodePresentation_fits sections hdecode
    refine ⟨?_, Nat.zero_le _, ?_⟩
    · show value.oneShotResourceBytes ≤ _
      rw [hvalue]
      exact hbytes
    · rintro _ ⟨⟩
      rw [hvalue]
      exact hapart
  | RuntimeUpdate value =>
    obtain ⟨payload, hlength, hdecode⟩ := h
    obtain ⟨rest, hread⟩ := payload_eq_ok hdecode
    have htakes := ReportDecoding.decodeRuntimeUpdate_takes payload value rest hread
    have hlimit : payloadLimit 0x0120 ≤ MAX_RENDERER_PRESENTATION_BYTES := by decide
    refine ⟨?_, Nat.zero_le _, fun _ heq => by cases heq⟩
    show value.oneShotResourceBytes ≤ _
    omega
  | StorageMutation request =>
    obtain ⟨payload, hdecode⟩ := h
    obtain ⟨rest, hread⟩ := payload_eq_ok hdecode
    have hbytes := ReportDecoding.decodeMutation_fits hread
    exact ⟨Nat.zero_le _, hbytes.trans (by decide), fun _ heq => by cases heq⟩
  | BroadcastCommand command =>
    obtain ⟨payload, hdecode⟩ := h
    obtain ⟨rest, hread⟩ := payload_eq_ok hdecode
    refine ⟨Nat.zero_le _, ?_, fun _ heq => by cases heq⟩
    rw [RendererEvent.storageBytes]
    cases hoperation : command.operation with
    | Post serialized => exact (ReportDecoding.decodeCommand_fits hread hoperation).trans (by decide)
    | _ => exact Nat.zero_le _
  | _ => exact ⟨Nat.zero_le _, Nat.zero_le _, fun _ heq => by cases heq⟩

/-- What holds of the queue after any run. -/
structure QueueSound
    (history : History (PresentationContent Document Diagnostics Layout Canvases) Detail)
    (session : Session (PresentationContent Document Diagnostics Layout Canvases) Detail) : Prop where
  events_le : session.queue.events.length ≤ MAX_QUEUED_RENDERER_EVENTS
  bytes_le : (session.queue.events.map resourceBytes).sum ≤ MAX_RENDERER_PRESENTATION_BYTES
  /-- The run is a run of a line in which every call is delivered once and in order, merged into
  the report directly before it, or lost for one of the reasons of the rules. -/
  delivered : ∃ delivery, Delivery.Steps rules .empty delivery ∧ Delivery.Sound rules delivery ∧
    delivery.sent = history.calls ∧ eventsOf delivery.received = history.received ∧
    eventsOf delivery.queued = session.queue.events ∧
    delivery.held.map (fun parcel => parcel.item.event) = session.waiting ∧
    sentBatches delivery.queued ≤ MAX_QUEUED_RENDERER_FETCH_BATCHES ∧
    ∀ loss ∈ delivery.lost, ∀ document, loss.2 = .Discarded document → document ∈ history.discarded
  /-- A send takes an event out only for a newer one that it queues, or to merge with it. -/
  keeps : ∀ event, ∀ old ∈ session.queue.events,
    (old ∈ (session.queue.send event).1.events ∨
      (∃ newer ∈ (session.queue.send event).1.events, Overtakes newer old) ∨ Continues old event) ∧
    (old ∈ (session.queue.trySend event).1.events ∨
      (∃ newer ∈ (session.queue.trySend event).1.events, Overtakes newer old) ∨ Continues old event)
  /-- Other documents keep their events. -/
  discards : ∀ document, ((session.queue.discardDocument document).events.filter
    fun event => decide (event.document ≠ some document)) =
      session.queue.events.filter fun event => decide (event.document ≠ some document)
  /-- Nobody waits for an empty queue. -/
  waits : (∀ call ∈ history.calls, Accepted call.event) →
    (∀ event, Accepted event → (session.queue.send event).1.events = [] →
      (session.queue.send event).2.waiting = none) ∧
    ∀ event ∈ session.waiting, session.queue.events = [] →
      (session.queue.resume event).2.waiting = none
  /-- An error leaves the queue as it was, unless the report follows the last one queued. -/
  errors : ∀ event, (∀ front last, session.queue.events = front ++ [last] → ¬ Continues last event) →
    ((session.queue.send event).2.failed = true → (session.queue.send event).1 = session.queue) ∧
    ((session.queue.trySend event).2.failed = true → (session.queue.trySend event).1 = session.queue)

private theorem resume_nil
    {queue : EventQueue (PresentationContent Document Diagnostics Layout Canvases) Detail}
    {event : RendererEvent (PresentationContent Document Diagnostics Layout Canvases) Detail}
    (hbounded : Bounded queue) (hevent : Fits event) (hempty : queue.events = []) :
    (queue.resume event).2.waiting = none := by
  rw [EventQueue.resume]
  split
  next =>
    obtain ⟨hfull, -⟩ | ⟨-, heq⟩ := sendLossless_cases hbounded.receiverOpen event
    · rw [hempty, losslessFull_nil hevent] at hfull
      cases hfull
    · rw [heq]
      rfl
  next =>
    obtain ⟨hfull, -⟩ | ⟨hfull, -⟩ | ⟨-, heq⟩ := offerCoalesced_cases hbounded.receiverOpen event true
    · rw [hempty, coalescedFull_nil hevent] at hfull
      cases hfull
    · rw [hempty, coalescedFull_nil hevent] at hfull
      cases hfull
    · rw [heq]
      rfl

/-- The queue stays within its bounds, delivers in order, and loses only what the rules of the
line let it lose. -/
theorem event_queue_sound
    {history : History (PresentationContent Document Diagnostics Layout Canvases) Detail}
    {session : Session (PresentationContent Document Diagnostics Layout Canvases) Detail}
    (h : Run history session) : QueueSound history session := by
  have hbounded := h.bounded
  refine ⟨hbounded.events, hbounded.bytes, ?_, ?_, ?_, ?_, ?_⟩
  · obtain ⟨delivery, htracks⟩ := h.tracks
    exact ⟨delivery, htracks.steps, Delivery.Sound.steps htracks.steps, htracks.sent, htracks.received,
      htracks.queued, htracks.held, htracks.batches, htracks.discarded⟩
  · intro event old hmem
    refine ⟨?_, sendCoalesced_keeps hbounded event false old hmem⟩
    rw [EventQueue.send]
    split
    next => exact .inl ((sendLossless_events hbounded event).2 old hmem)
    next => exact sendCoalesced_keeps hbounded event true old hmem
  · intro document
    rw [EventQueue.discardDocument, List.filter_filter]
    simp only [Bool.and_self]
  · intro haccepted
    have hfit := h.allFit fun call hmem => fits_of_accepted (haccepted call hmem)
    constructor
    · intro event hevent
      exact (AllFit.send hbounded hfit.1 (fits_of_accepted hevent)).2
    · intro event hmem hempty
      exact resume_nil hbounded (hfit.2 event hmem) hempty
  · intro event hlast
    refine ⟨fun hfailed => ?_, sendCoalesced_failed hbounded hlast⟩
    rw [EventQueue.send] at hfailed ⊢
    split at hfailed
    next hlossless =>
      rw [(sendLossless_events hbounded event).1] at hfailed
      cases hfailed
    next hlossless =>
      rw [if_neg hlossless]
      exact sendCoalesced_failed hbounded hlast hfailed

end Decoded

/-- The frame of a first call is in the queue. -/
theorem event_queue_sound_frame :
    let frame : RendererEvent (PresentationContent Unit Unit Unit Unit) Unit :=
      .VideoFrame ⟨⟨1, 1, 1, 1, 1, 1⟩, [0, 0, 0, 255]⟩
    QueueSound (History.empty.call frame true (.Returned (.ok ()))) ⟨⟨[frame], true, true⟩, none⟩ :=
  event_queue_sound (.send .start (.VideoFrame ⟨⟨1, 1, 1, 1, 1, 1⟩, [0, 0, 0, 255]⟩))

/-- A presentation sent again is refused, and the one in the queue is gone. -/
theorem resend_loses (front : List (RendererEvent Content Detail)) (value : RendererPresentation Content) :
    EventQueue.send ⟨front ++ [.Presentation value], true, true⟩ (.Presentation value) =
      (⟨front, true, true⟩,
        .Returned (.error (.InvalidPayload "presentation coalescing revision"))) := by
  have hmerge : value.coalesce value =
      .error (.InvalidPayload "presentation coalescing revision") := by
    rw [RendererPresentation.coalesce, if_neg (not_not.mpr rfl)]
    simp only [le_refl, if_true]
    rfl
  have hcoalesce : coalesce (front ++ [RendererEvent.Presentation value]) value =
      ((front : List (RendererEvent Content Detail)),
        .error (.InvalidPayload "presentation coalescing revision")) := by
    rw [coalesce, coalesceLast, List.getLast?_concat]
    simp only [Option.bind_some, asPresentation, if_true, hmerge, List.dropLast_concat]
  rw [EventQueue.send, if_neg (by simp [isLossless]), EventQueue.sendCoalesced, if_pos rfl]
  simp only [prepare, hcoalesce]

/-- One frame of a document. -/
private def frameOf (document : Nat) : RendererEvent Unit Unit :=
  .VideoFrame ⟨⟨document, 1, 1, 1, 1, 1⟩, [0, 0, 0, 255]⟩

/-- A frame of one document goes when a frame of another one is sent. -/
theorem frame_of_other_document_dropped :
    ¬ ∀ (history : History Unit Unit) (session : Session Unit Unit) (event old : RendererEvent Unit Unit),
      Run history session → session.waiting = none → old ∈ session.queue.events →
      old.isVideoFrame = true → old ∉ (session.queue.send event).1.events →
        ∃ newer ∈ (session.queue.send event).1.events, newer.isVideoFrame = true ∧
          newer.document = old.document := by
  intro h
  have hrun := Run.send (.start : Run (.empty : History Unit Unit) .start) (frameOf 1)
  obtain ⟨newer, hmem, -, hdocument⟩ := h _ _ (frameOf 2) (frameOf 1) hrun rfl
    (List.mem_singleton_self _) rfl fun hmem => by cases List.mem_singleton.mp hmem
  obtain rfl := List.mem_singleton.mp hmem
  cases hdocument

end BetterWebBrowser.RendererProcess
