import BetterWebBrowser.RendererProcess.EventDelivery
import Mathlib.Algebra.Order.BigOperators.Group.List

/-!
# Runs of the event queue

The sender and the receiver take turns in any order. What has been received and what is
queued is the line of a delivery in order: each call is delivered once, merged into the call
directly before it, or lost for a reason that the rules of the line name.
-/

namespace BetterWebBrowser.RendererProcess

open Framework RendererProtocol RendererEvent EventQueue

variable {Content Detail : Type}

/-! ## Runs -/

/-- A call of `send` or `try_send`. -/
structure Call (Content Detail : Type) where
  event : RendererEvent Content Detail
  /-- The call was a `send`. -/
  blocking : Bool
  /-- The call returned an error. -/
  failed : Bool

/-- The fetch batches that came by `send`. -/
def Call.isSentBatch (call : Call Content Detail) : Bool := call.blocking && call.event.isFetchBatch

namespace Sending

def failed : Sending Content Detail → Bool
  | .Returned (.error _) => true
  | _ => false

def waiting : Sending Content Detail → Option (RendererEvent Content Detail)
  | .Waiting event => some event
  | .Returned _ => none

end Sending

/-- The queue and the event of a send that waits. -/
structure Session (Content Detail : Type) where
  queue : EventQueue Content Detail
  waiting : Option (RendererEvent Content Detail)

namespace Session

def start : Session Content Detail := ⟨.bounded, none⟩

def after (result : EventQueue Content Detail × Sending Content Detail) : Session Content Detail :=
  ⟨result.1, result.2.waiting⟩

end Session

structure History (Content Detail : Type) where
  calls : List (Call Content Detail)
  discarded : List Nat
  received : List (RendererEvent Content Detail)

namespace History

def empty : History Content Detail := ⟨[], [], []⟩

def call (history : History Content Detail) (event : RendererEvent Content Detail) (blocking : Bool)
    (sending : Sending Content Detail) : History Content Detail :=
  { history with calls := history.calls ++ [⟨event, blocking, sending.failed⟩] }

def discard (history : History Content Detail) (document : Nat) : History Content Detail :=
  { history with discarded := history.discarded ++ [document] }

def receive (history : History Content Detail) (event : RendererEvent Content Detail) :
    History Content Detail :=
  { history with received := history.received ++ [event] }

end History

/-- One sender, whose calls follow each other, and the receiver. -/
inductive Run : History Content Detail → Session Content Detail → Prop
  | start : Run .empty .start
  | send {history : History Content Detail} {queue : EventQueue Content Detail}
    (h : Run history ⟨queue, none⟩) (event : RendererEvent Content Detail) :
    Run (history.call event true (queue.send event).2) (.after (queue.send event))
  | trySend {history : History Content Detail} {queue : EventQueue Content Detail}
    (h : Run history ⟨queue, none⟩) (event : RendererEvent Content Detail) :
    Run (history.call event false (queue.trySend event).2) (.after (queue.trySend event))
  | discardDocument {history : History Content Detail} {queue : EventQueue Content Detail}
    (h : Run history ⟨queue, none⟩) (document : Nat) :
    Run (history.discard document) ⟨queue.discardDocument document, none⟩
  | resume {history : History Content Detail} {queue : EventQueue Content Detail}
    {event : RendererEvent Content Detail} (h : Run history ⟨queue, some event⟩) :
    Run history (.after (queue.resume event))
  | recv {history : History Content Detail} {queue left : EventQueue Content Detail}
    {waiting : Option (RendererEvent Content Detail)} {event : RendererEvent Content Detail}
    (h : Run history ⟨queue, waiting⟩) (hrecv : queue.recv = .ok (event, left)) :
    Run (history.receive event) ⟨left, waiting⟩
  | tryRecvIf {history : History Content Detail} {queue left : EventQueue Content Detail}
    {waiting : Option (RendererEvent Content Detail)} {event : RendererEvent Content Detail}
    (h : Run history ⟨queue, waiting⟩) (accepts : RendererEvent Content Detail → Bool)
    (hrecv : queue.tryRecvIf accepts = .ok (event, left)) :
    Run (history.receive event) ⟨left, waiting⟩

/-! ## The line -/

/-- Why a call is not delivered. -/
inductive Loss
  /-- A newer event is queued behind it. -/
  | Overtaken
  /-- One at least as new is queued already. -/
  | Outdated
  | Discarded (document : Nat)
  /-- The call returned an error. -/
  | Refused
  /-- The report directly behind it was refused. -/
  | BeforeRefusal

def rules : Delivery.Rules (Call Content Detail) Loss where
  merges first second merged := Joins first.event second.event merged.event ∧
    merged.blocking = second.blocking ∧ merged.failed = second.failed
  drops
    | .Overtaken, _, call, behind => ∃ newer ∈ behind, Overtakes newer.event call.event
    | .Discarded document, _, call, _ => call.event.document = some document
    | .BeforeRefusal, calls, call, behind => behind = [] ∧
      ∃ last, calls.getLast? = some last ∧ last.failed = true ∧ Continues call.event last.event
    | .Outdated, _, _, _ | .Refused, _, _, _ => False
  declines
    | .Outdated, call, queued => ∃ newer ∈ queued, AtLeastAsNew newer.event call.event
    | .Refused, call, _ => call.failed = true
    | .Overtaken, _, _ | .Discarded _, _, _ | .BeforeRefusal, _, _ => False

/-- The events of a part of the line. -/
def eventsOf (parcels : List (Parcel (Call Content Detail))) : List (RendererEvent Content Detail) :=
  parcels.map fun parcel => parcel.item.event

theorem eventsOf_append (parcels more : List (Parcel (Call Content Detail))) :
    eventsOf (parcels ++ more) = eventsOf parcels ++ eventsOf more := List.map_append

/-- The fetch batches of a part of the line that came by `send`. -/
def sentBatches (parcels : List (Parcel (Call Content Detail))) : Nat :=
  (parcels.filter fun parcel => parcel.item.isSentBatch).length

theorem sentBatches_append (parcels more : List (Parcel (Call Content Detail))) :
    sentBatches (parcels ++ more) = sentBatches parcels + sentBatches more := by
  rw [sentBatches, List.filter_append, List.length_append]
  rfl

theorem sentBatches_le_of_sublist {parcels more : List (Parcel (Call Content Detail))}
    (h : parcels.Sublist more) : sentBatches parcels ≤ sentBatches more := (h.filter _).length_le

theorem sentBatches_le (parcels : List (Parcel (Call Content Detail))) :
    sentBatches parcels ≤ queuedFetchBatches (eventsOf parcels) := by
  rw [queuedFetchBatches, eventsOf, List.filter_map, List.length_map]
  refine List.Sublist.length_le (List.monotone_filter_right _ fun parcel h => ?_)
  exact (Bool.and_eq_true_iff.mp h).2

/-- The delivery that a run of the queue amounts to. -/
structure Tracks (history : History Content Detail) (session : Session Content Detail)
    (delivery : Delivery (Call Content Detail) Loss) : Prop where
  steps : Delivery.Steps rules .empty delivery
  sent : delivery.sent = history.calls
  received : eventsOf delivery.received = history.received
  queued : eventsOf delivery.queued = session.queue.events
  held : delivery.held.map (fun parcel => parcel.item.event) = session.waiting
  discarded : ∀ loss ∈ delivery.lost, ∀ document, loss.2 = .Discarded document →
    document ∈ history.discarded
  batches : sentBatches delivery.queued ≤ MAX_QUEUED_RENDERER_FETCH_BATCHES

/-- What the capacity loops keep. -/
structure Bounded (queue : EventQueue Content Detail) : Prop where
  receiverOpen : queue.receiverOpen = true
  events : queue.events.length ≤ MAX_QUEUED_RENDERER_EVENTS
  bytes : (queue.events.map resourceBytes).sum ≤ MAX_RENDERER_PRESENTATION_BYTES

/-! ## The loops -/

theorem offerCoalesced_cases {queue : EventQueue Content Detail} (hopen : queue.receiverOpen = true)
    (event : RendererEvent Content Detail) (wait : Bool) :
    coalescedFull queue.events event = true ∧ wait = true ∧
        queue.offerCoalesced event wait = (queue, .Waiting event) ∨
      coalescedFull queue.events event = true ∧ wait = false ∧
        queue.offerCoalesced event wait =
          (queue, .Returned (.error (.InvalidPayload "browser renderer-event queue exhausted"))) ∨
      coalescedFull queue.events event = false ∧
        queue.offerCoalesced event wait = (queue.push event, .Returned (.ok ())) := by
  rw [offerCoalesced, hopen, Bool.true_and]
  cases hfull : coalescedFull queue.events event with
  | true =>
    cases wait with
    | true => exact .inl ⟨rfl, rfl, rfl⟩
    | false => exact .inr (.inl ⟨rfl, rfl, rfl⟩)
  | false => exact .inr (.inr ⟨rfl, rfl⟩)

theorem sendLossless_cases {queue : EventQueue Content Detail} (hopen : queue.receiverOpen = true)
    (event : RendererEvent Content Detail) :
    losslessFull queue.events event = true ∧ queue.sendLossless event = (queue, .Waiting event) ∨
      losslessFull queue.events event = false ∧
        queue.sendLossless event = (queue.push event, .Returned (.ok ())) := by
  rw [sendLossless, hopen, Bool.true_and]
  cases hfull : losslessFull queue.events event with
  | true => exact .inl ⟨rfl, rfl⟩
  | false => exact .inr ⟨rfl, rfl⟩

private theorem resourceBytes_of_replaces {event queued : RendererEvent Content Detail}
    (h : replaces event queued = true) : event.resourceBytes = 0 := by
  cases event with
  | Presentation value => cases h
  | RuntimeUpdate value => cases h
  | _ => rfl

private theorem resourceBytes_of_lossless {event : RendererEvent Content Detail}
    (h : event.isLossless = true) : event.resourceBytes = 0 := by
  cases event with
  | Presentation value => cases h
  | RuntimeUpdate value => cases h
  | _ => rfl

private theorem bytes_le_of_sublist {events more : List (RendererEvent Content Detail)}
    (h : events.Sublist more) : (events.map resourceBytes).sum ≤ (more.map resourceBytes).sum :=
  (h.map resourceBytes).sum_le_sum fun _ _ => Nat.zero_le _

/-- A send never takes events out of the queue and then finds it full. -/
theorem filter_eq_of_full {queue : EventQueue Content Detail} {event : RendererEvent Content Detail}
    (hbounded : Bounded queue)
    (h : coalescedFull (queue.events.filter fun queued => !replaces event queued) event = true) :
    (queue.events.filter fun queued => !replaces event queued) = queue.events := by
  by_contra hne
  have hlength : (queue.events.filter fun queued => !replaces event queued).length <
      queue.events.length := by
    refine lt_of_le_of_ne (List.length_filter_le _ _) fun heq => hne ?_
    exact List.filter_eq_self.mpr (List.length_filter_eq_length_iff.mp heq)
  obtain ⟨queued, -, hreplaces⟩ := List.length_filter_lt_length_iff_exists.mp hlength
  have hreplaces : replaces event queued = true := by
    cases hresult : replaces event queued with
    | true => rfl
    | false =>
      rw [hresult] at hreplaces
      exact absurd rfl hreplaces
  have hbytes := bytes_le_of_sublist
    (List.filter_sublist (l := queue.events) (p := fun queued => !replaces event queued))
  have hevents := hbounded.events
  have hbudget := hbounded.bytes
  rw [coalescedFull, exceedsResourceBudget, resourceBytes_of_replaces hreplaces, Bool.or_eq_true,
    decide_eq_true_eq, decide_eq_true_eq] at h
  omega

/-! ## The bounds -/

namespace Bounded

theorem bounded : Bounded (EventQueue.bounded : EventQueue Content Detail) where
  receiverOpen := rfl
  events := Nat.zero_le _
  bytes := Nat.zero_le _

theorem of_sublist {queue : EventQueue Content Detail} {events : List (RendererEvent Content Detail)}
    (h : Bounded queue) (hevents : events.Sublist queue.events) : Bounded { queue with events } where
  receiverOpen := h.receiverOpen
  events := hevents.length_le.trans h.events
  bytes := (bytes_le_of_sublist hevents).trans h.bytes

theorem push {queue : EventQueue Content Detail} {event : RendererEvent Content Detail}
    (h : Bounded queue) (hevents : queue.events.length < MAX_QUEUED_RENDERER_EVENTS)
    (hbytes : event.resourceBytes + (queue.events.map resourceBytes).sum ≤
      MAX_RENDERER_PRESENTATION_BYTES) : Bounded (queue.push event) where
  receiverOpen := h.receiverOpen
  events := by
    rw [EventQueue.push, List.length_append, List.length_singleton]
    exact hevents
  bytes := by
    rw [EventQueue.push, List.map_append, List.sum_append, List.map_singleton, List.sum_singleton]
    omega

theorem offerCoalesced {queue : EventQueue Content Detail} (h : Bounded queue)
    (event : RendererEvent Content Detail) (wait : Bool) :
    Bounded (queue.offerCoalesced event wait).1 := by
  obtain ⟨-, -, heq⟩ | ⟨-, -, heq⟩ | ⟨hfull, heq⟩ := offerCoalesced_cases h.receiverOpen event wait
  · rw [heq]
    exact h
  · rw [heq]
    exact h
  · rw [heq]
    rw [coalescedFull, exceedsResourceBudget, Bool.or_eq_false_iff, decide_eq_false_iff_not,
      decide_eq_false_iff_not, not_le, not_lt] at hfull
    exact h.push hfull.1 hfull.2

theorem sendLossless {queue : EventQueue Content Detail} (h : Bounded queue)
    {event : RendererEvent Content Detail} (hlossless : event.isLossless = true) :
    Bounded (queue.sendLossless event).1 := by
  obtain ⟨-, heq⟩ | ⟨hfull, heq⟩ := sendLossless_cases h.receiverOpen event
  · rw [heq]
    exact h
  · rw [heq]
    rw [losslessFull, Bool.or_eq_false_iff, Bool.or_eq_false_iff, decide_eq_false_iff_not,
      decide_eq_false_iff_not, not_le] at hfull
    refine h.push hfull.1.1 ?_
    rw [resourceBytes_of_lossless hlossless, Nat.zero_add]
    exact h.bytes

theorem sendCoalesced {queue : EventQueue Content Detail} (h : Bounded queue)
    (event : RendererEvent Content Detail) (wait : Bool) :
    Bounded (queue.sendCoalesced event wait).1 := by
  rw [EventQueue.sendCoalesced, if_pos h.receiverOpen]
  cases hprepare : prepare queue.events event with
  | mk left outcome =>
    cases prepare_cases hprepare with
    | superseded => exact h
    | refused front last error hevents => exact h.of_sublist (hevents ▸ List.sublist_append_left _ _)
    | joined front last merged hevents =>
      exact (h.of_sublist (hevents ▸ List.sublist_append_left _ _)).offerCoalesced merged wait
    | ready => exact (h.of_sublist List.filter_sublist).offerCoalesced event wait

theorem send {queue : EventQueue Content Detail} (h : Bounded queue)
    (event : RendererEvent Content Detail) : Bounded (queue.send event).1 := by
  rw [EventQueue.send]
  split
  next hlossless => exact h.sendLossless hlossless
  next => exact h.sendCoalesced event true

theorem resume {queue : EventQueue Content Detail} (h : Bounded queue)
    (event : RendererEvent Content Detail) : Bounded (queue.resume event).1 := by
  rw [EventQueue.resume]
  split
  next hlossless => exact h.sendLossless hlossless
  next => exact h.offerCoalesced event true

theorem recv {queue left : EventQueue Content Detail} {event : RendererEvent Content Detail}
    (h : Bounded queue) (hrecv : queue.recv = .ok (event, left)) : Bounded left := by
  rw [EventQueue.recv] at hrecv
  split at hrecv
  next first rest hevents =>
    cases hrecv
    exact h.of_sublist (hevents ▸ List.sublist_cons_self _ _)
  next => split at hrecv <;> cases hrecv

end Bounded

theorem recv_of_tryRecvIf {queue left : EventQueue Content Detail}
    {event : RendererEvent Content Detail} {accepts : RendererEvent Content Detail → Bool}
    (h : queue.tryRecvIf accepts = .ok (event, left)) : queue.recv = .ok (event, left) := by
  rw [tryRecvIf] at h
  split at h
  next => cases h
  next => exact h

theorem Run.bounded {history : History Content Detail} {session : Session Content Detail}
    (h : Run history session) : Bounded session.queue := by
  induction h with
  | start => exact Bounded.bounded
  | send _ event ih => exact ih.send event
  | trySend _ event ih => exact ih.sendCoalesced event false
  | discardDocument _ document ih => exact ih.of_sublist List.filter_sublist
  | resume _ ih => exact ih.resume _
  | recv _ hrecv ih => exact ih.recv hrecv
  | tryRecvIf _ accepts hrecv ih => exact ih.recv (recv_of_tryRecvIf hrecv)

/-! ## Moves of the line -/

/-- The sender holds an event of a call with these flags. -/
def Holds (delivery : Delivery (Call Content Detail) Loss) (blocking failed : Bool) : Prop :=
  ∃ parcel, delivery.held = some parcel ∧ parcel.item.blocking = blocking ∧
    parcel.item.failed = failed

namespace Tracks

variable {history : History Content Detail} {queue : EventQueue Content Detail}
  {delivery : Delivery (Call Content Detail) Loss}

theorem start : Tracks (.empty : History Content Detail) .start .empty where
  steps := .refl
  sent := rfl
  received := rfl
  queued := rfl
  held := rfl
  discarded := fun _ hmem => nomatch hmem
  batches := Nat.zero_le _

theorem offer (h : Tracks history ⟨queue, none⟩ delivery) (event : RendererEvent Content Detail)
    (blocking : Bool) (sending : Sending Content Detail) :
    ∃ next, Tracks (history.call event blocking sending) ⟨queue, some event⟩ next ∧
      Holds next blocking sending.failed := by
  obtain ⟨sent, received, queued, held, lost⟩ := delivery
  obtain rfl : held = none := Option.map_eq_none_iff.mp h.held
  refine ⟨_, { h with
    steps := h.steps.tail (.offer sent received queued lost ⟨event, blocking, sending.failed⟩)
    sent := ?_
    held := rfl }, _, rfl, rfl, rfl⟩
  show sent ++ _ = history.calls ++ _
  rw [← h.sent]

theorem merge {front : List (RendererEvent Content Detail)}
    {last event merged : RendererEvent Content Detail} {blocking failed : Bool}
    (h : Tracks history ⟨queue, some event⟩ delivery) (hholds : Holds delivery blocking failed)
    (hevents : queue.events = front ++ [last]) (hjoins : Joins last event merged) :
    ∃ next, Tracks history ⟨{ queue with events := front }, some merged⟩ next ∧
      Holds next blocking failed := by
  obtain ⟨sent, received, queued, held, lost⟩ := delivery
  obtain ⟨parcel, rfl, rfl, rfl⟩ := hholds
  have hevent : parcel.item.event = event := Option.some.inj h.held
  have hqueued : eventsOf queued = front ++ [last] := h.queued.trans hevents
  obtain ⟨before, tail, rfl, hfront, htail⟩ := List.map_eq_append_iff.mp hqueued
  obtain ⟨previous, rfl, hprevious⟩ := List.map_eq_singleton_iff.mp htail
  have hmerges : rules.merges previous.item parcel.item
      ⟨merged, parcel.item.blocking, parcel.item.failed⟩ := by
    refine ⟨?_, rfl, rfl⟩
    rw [hprevious, hevent]
    exact hjoins
  refine ⟨_, { h with
    steps := h.steps.tail (.merge sent received before lost previous parcel _ hmerges)
    queued := hfront
    held := rfl
    batches := ?_ }, _, rfl, rfl, rfl⟩
  exact (sentBatches_le_of_sublist (List.sublist_append_left _ _)).trans h.batches

theorem enqueue {event : RendererEvent Content Detail} {blocking failed : Bool}
    (h : Tracks history ⟨queue, some event⟩ delivery) (hholds : Holds delivery blocking failed)
    (hbatch : blocking = false ∨ event.isFetchBatch = false ∨ queuedFetchBatches queue.events = 0) :
    ∃ next, Tracks history ⟨queue.push event, none⟩ next ∧
      ∃ front last, next.queued = front ++ [last] ∧ last.item.event = event := by
  obtain ⟨sent, received, queued, held, lost⟩ := delivery
  obtain ⟨parcel, rfl, hblocking, -⟩ := hholds
  have hevent : parcel.item.event = event := Option.some.inj h.held
  refine ⟨_, { h with
    steps := h.steps.tail (.enqueue sent received queued lost parcel)
    queued := ?_
    held := rfl
    batches := ?_ }, queued, parcel, rfl, hevent⟩
  · have hqueued : eventsOf queued = queue.events := h.queued
    rw [eventsOf_append, hqueued, EventQueue.push, ← hevent]
    rfl
  · have hbatches : sentBatches queued ≤ MAX_QUEUED_RENDERER_FETCH_BATCHES := h.batches
    have hone : sentBatches [parcel] ≤ 1 := List.length_filter_le _ _
    rw [sentBatches_append]
    by_cases hsent : parcel.item.isSentBatch = true
    · obtain ⟨hsend, hfetch⟩ := Bool.and_eq_true_iff.mp hsent
      have hnone : queuedFetchBatches (eventsOf queued) = 0 := by
        obtain hblock | hkind | hnone := hbatch
        · rw [hblocking, hblock] at hsend
          cases hsend
        · rw [hevent, hkind] at hfetch
          cases hfetch
        · rw [h.queued]
          exact hnone
      have hle := sentBatches_le queued
      simp only [MAX_QUEUED_RENDERER_FETCH_BATCHES]
      omega
    · have hzero : sentBatches [parcel] = 0 := by simp [sentBatches, hsent]
      omega

theorem decline {event : RendererEvent Content Detail} {blocking failed : Bool} (why : Loss)
    (h : Tracks history ⟨queue, some event⟩ delivery) (hholds : Holds delivery blocking failed)
    (hwhy : why = .Outdated ∧ (∃ newer ∈ queue.events, AtLeastAsNew newer event) ∨
      why = .Refused ∧ failed = true) :
    ∃ next, Tracks history ⟨queue, none⟩ next := by
  obtain ⟨sent, received, queued, held, lost⟩ := delivery
  obtain ⟨parcel, rfl, -, hfailed⟩ := hholds
  have hevent : parcel.item.event = event := Option.some.inj h.held
  have hdeclines : rules.declines why parcel.item (Delivery.items queued) := by
    obtain ⟨rfl, newer, hmem, hnewer⟩ | ⟨rfl, hrefused⟩ := hwhy
    · rw [← h.queued] at hmem
      obtain ⟨found, hfound, rfl⟩ := List.mem_map.mp hmem
      rw [← hevent] at hnewer
      exact ⟨found.item, List.mem_map_of_mem hfound, hnewer⟩
    · exact hfailed.trans hrefused
  refine ⟨_, { h with
    steps := h.steps.tail (.decline sent received queued lost parcel why hdeclines)
    held := rfl
    discarded := ?_ }⟩
  intro loss hmem document hdiscarded
  obtain hmem | hmem := List.mem_append.mp hmem
  · exact h.discarded loss hmem document hdiscarded
  · obtain ⟨call, -, rfl⟩ := List.mem_map.mp hmem
    obtain ⟨rfl, -⟩ | ⟨rfl, -⟩ := hwhy <;> cases hdiscarded

/-- Losses that the line may take on. -/
private theorem discarded_append {lost more : List (Nat × Loss)} {documents : List Nat}
    (h : ∀ loss ∈ lost, ∀ document, loss.2 = .Discarded document → document ∈ documents)
    (hmore : ∀ loss ∈ more, ∀ document, loss.2 = .Discarded document → document ∈ documents) :
    ∀ loss ∈ lost ++ more, ∀ document, loss.2 = .Discarded document → document ∈ documents := by
  intro loss hmem
  obtain hmem | hmem := List.mem_append.mp hmem
  · exact h loss hmem
  · exact hmore loss hmem

/-- What the last event of the queue replaces is dropped. -/
theorem overtake {front : List (RendererEvent Content Detail)} {event : RendererEvent Content Detail}
    (h : Tracks history ⟨queue, none⟩ delivery) (hevents : queue.events = front ++ [event])
    (hreplaces : ∀ queued ∈ front, replaces event queued = true → Overtakes event queued) :
    ∃ next, Tracks history ⟨{ queue with
      events := (front.filter fun queued => !replaces event queued) ++ [event] }, none⟩ next := by
  obtain ⟨sent, received, queued, held, lost⟩ := delivery
  have hqueued : eventsOf queued = front ++ [event] := h.queued.trans hevents
  obtain ⟨before, tail, rfl, rfl, htail⟩ := List.map_eq_append_iff.mp hqueued
  obtain ⟨last, rfl, rfl⟩ := List.map_eq_singleton_iff.mp htail
  let keep : Call Content Detail → Bool := fun call => !replaces last.item.event call.event
  obtain ⟨more, hsteps, hmore⟩ := Delivery.steps_retain rules keep .Overtaken sent
    received [] before [last] held lost fun parcel hmem hkeep behind hbehind => by
      refine ⟨last.item, hbehind _ (List.mem_singleton_self _), ?_⟩
      exact hreplaces _ (List.mem_map_of_mem hmem) (by simpa [keep] using hkeep)
  refine ⟨_, { h with
    steps := h.steps.trans hsteps
    queued := ?_
    discarded := discarded_append h.discarded fun loss hmem document hdiscarded => ?_
    batches := ?_ }⟩
  · rw [List.nil_append, eventsOf_append, List.filter_map, eventsOf, eventsOf]
    rfl
  · rw [hmore loss hmem] at hdiscarded
    cases hdiscarded
  · refine (sentBatches_le_of_sublist ?_).trans h.batches
    rw [List.nil_append]
    exact List.filter_sublist.append (List.Sublist.refl _)

/-- The last event of the queue goes when the report that follows it is refused. -/
theorem dropLast {front : List (RendererEvent Content Detail)}
    {last : RendererEvent Content Detail} {call : Call Content Detail}
    (h : Tracks history ⟨queue, none⟩ delivery) (hevents : queue.events = front ++ [last])
    (hcall : history.calls.getLast? = some call) (hfailed : call.failed = true)
    (hcontinues : Continues last call.event) :
    ∃ next, Tracks history ⟨{ queue with events := front }, none⟩ next := by
  obtain ⟨sent, received, queued, held, lost⟩ := delivery
  have hqueued : eventsOf queued = front ++ [last] := h.queued.trans hevents
  obtain ⟨before, tail, rfl, hfront, htail⟩ := List.map_eq_append_iff.mp hqueued
  obtain ⟨parcel, rfl, hparcel⟩ := List.map_eq_singleton_iff.mp htail
  have hsent : sent = history.calls := h.sent
  have hdrops : rules.drops .BeforeRefusal sent parcel.item
      (Delivery.items ([] : List (Parcel (Call Content Detail)))) := by
    refine ⟨rfl, call, hsent ▸ hcall, hfailed, ?_⟩
    rw [hparcel]
    exact hcontinues
  have hstep := Delivery.Step.drop sent received before [] held lost parcel .BeforeRefusal hdrops
  rw [List.append_nil] at hstep
  refine ⟨_, { h with
    steps := h.steps.tail hstep
    queued := hfront
    discarded := discarded_append h.discarded fun loss hmem document hdiscarded => ?_
    batches := (sentBatches_le_of_sublist (List.sublist_append_left _ _)).trans h.batches }⟩
  obtain ⟨number, -, rfl⟩ := List.mem_map.mp hmem
  cases hdiscarded

theorem discard (h : Tracks history ⟨queue, none⟩ delivery) (document : Nat) :
    ∃ next, Tracks (history.discard document) ⟨queue.discardDocument document, none⟩ next := by
  obtain ⟨sent, received, queued, held, lost⟩ := delivery
  let keep : Call Content Detail → Bool := fun call => decide (call.event.document ≠ some document)
  obtain ⟨more, hsteps, hmore⟩ := Delivery.steps_retain rules keep (.Discarded document)
    sent received [] queued [] held lost fun parcel hmem hkeep behind _ => by
      have hdocument : ¬ parcel.item.event.document ≠ some document := of_decide_eq_false hkeep
      exact not_not.mp hdocument
  simp only [List.nil_append, List.append_nil] at hsteps
  have hqueued : eventsOf queued = queue.events := h.queued
  refine ⟨_, { h with
    steps := h.steps.trans hsteps
    queued := ?_
    discarded := ?_
    batches := (sentBatches_le_of_sublist List.filter_sublist).trans h.batches }⟩
  · rw [discardDocument, ← hqueued, eventsOf, eventsOf, List.filter_map]
    rfl
  · refine discarded_append (fun loss hmem found hfound => ?_) fun loss hmem found hfound => ?_
    · exact List.mem_append_left _ (h.discarded loss hmem found hfound)
    · rw [hmore loss hmem] at hfound
      cases hfound
      exact List.mem_append_right _ (List.mem_singleton_self _)

theorem receive {left : EventQueue Content Detail} {waiting : Option (RendererEvent Content Detail)}
    {event : RendererEvent Content Detail} (h : Tracks history ⟨queue, waiting⟩ delivery)
    (hrecv : queue.recv = .ok (event, left)) :
    ∃ next, Tracks (history.receive event) ⟨left, waiting⟩ next := by
  obtain ⟨sent, received, queued, held, lost⟩ := delivery
  rw [EventQueue.recv] at hrecv
  split at hrecv
  next first rest hevents =>
    cases hrecv
    have hqueued : eventsOf queued = event :: rest := h.queued.trans hevents
    obtain ⟨parcel, parcels, rfl, hparcel, hrest⟩ := List.map_eq_cons_iff.mp hqueued
    refine ⟨_, { h with
      steps := h.steps.tail (.receive sent received parcels held lost parcel)
      received := ?_
      queued := hrest
      batches := (sentBatches_le_of_sublist (List.sublist_cons_self _ _)).trans h.batches }⟩
    have hreceived : eventsOf received = history.received := h.received
    rw [eventsOf_append, hreceived, History.receive, ← hparcel]
    rfl
  next => split at hrecv <;> cases hrecv

/-- The end of a coalesced send, whose event the sender holds. -/
theorem offerCoalesced {event : RendererEvent Content Detail} {blocking failed wait : Bool}
    (h : Tracks history ⟨queue, some event⟩ delivery) (hholds : Holds delivery blocking failed)
    (hopen : queue.receiverOpen = true)
    (hbatch : blocking = false ∨ event.isFetchBatch = false)
    (hfailed : (queue.offerCoalesced event wait).2.failed = true → failed = true) :
    ∃ next, Tracks history (.after (queue.offerCoalesced event wait)) next := by
  obtain ⟨-, -, heq⟩ | ⟨-, -, heq⟩ | ⟨-, heq⟩ := offerCoalesced_cases hopen event wait
  · rw [heq]
    exact ⟨delivery, h⟩
  · rw [heq] at hfailed ⊢
    exact h.decline .Refused hholds (.inr ⟨rfl, hfailed rfl⟩)
  · rw [heq]
    obtain ⟨next, hnext, -⟩ := h.enqueue hholds (hbatch.elim .inl fun hkind => .inr (.inl hkind))
    exact ⟨next, hnext⟩

theorem sendLossless {event : RendererEvent Content Detail} {blocking failed : Bool}
    (h : Tracks history ⟨queue, some event⟩ delivery) (hholds : Holds delivery blocking failed)
    (hopen : queue.receiverOpen = true) :
    ∃ next, Tracks history (.after (queue.sendLossless event)) next := by
  obtain ⟨-, heq⟩ | ⟨hfull, heq⟩ := sendLossless_cases hopen event
  · rw [heq]
    exact ⟨delivery, h⟩
  · rw [heq]
    rw [losslessFull, Bool.or_eq_false_iff, Bool.or_eq_false_iff, decide_eq_false_iff_not,
      decide_eq_false_iff_not, not_le] at hfull
    have hnone : queuedFetchBatches queue.events = 0 := by
      have hfew := hfull.1.2
      simp only [MAX_QUEUED_RENDERER_FETCH_BATCHES] at hfew
      omega
    obtain ⟨next, hnext, -⟩ := h.enqueue hholds (.inr (.inr hnone))
    exact ⟨next, hnext⟩

end Tracks

private theorem isFetchBatch_of_joins {last event merged : RendererEvent Content Detail}
    (h : Joins last event merged) : merged.isFetchBatch = false := by
  cases merged with
  | FetchBatch document requests => cases last <;> cases event <;> exact h.elim
  | _ => rfl

theorem continues_of_joins {last event merged : RendererEvent Content Detail}
    (h : Joins last event merged) : Continues last event := by
  cases last with
  | Presentation previous =>
    cases event with
    | Presentation next => cases merged <;> first | exact h.1 | exact h.elim
    | _ => exact h.elim
  | RuntimeUpdate previous =>
    cases event with
    | RuntimeUpdate next => cases merged <;> first | exact h.1 | exact h.elim
    | _ => exact h.elim
  | _ => exact h.elim

private theorem isFetchBatch_of_not_lossless {event : RendererEvent Content Detail}
    (h : event.isLossless = false) : event.isFetchBatch = false := by
  cases event with
  | FetchBatch document requests => cases h
  | _ => rfl

namespace Tracks

variable {history : History Content Detail} {queue : EventQueue Content Detail}
  {delivery : Delivery (Call Content Detail) Loss}

/-- A report that merges and then does not fit is lost together with the one before it. -/
private theorem joined {front : List (RendererEvent Content Detail)}
    {event last merged : RendererEvent Content Detail} {blocking wait : Bool}
    {sending : Sending Content Detail}
    (h : Tracks (history.call event blocking sending) ⟨queue, some event⟩ delivery)
    (hholds : Holds delivery blocking sending.failed) (hopen : queue.receiverOpen = true)
    (hevents : queue.events = front ++ [last]) (hjoins : Joins last event merged)
    (hsending : sending = (EventQueue.offerCoalesced { queue with events := front } merged wait).2) :
    ∃ next, Tracks (history.call event blocking sending)
      (.after (EventQueue.offerCoalesced { queue with events := front } merged wait)) next := by
  cases hfailed : sending.failed with
  | false =>
    obtain ⟨next, hnext, hmerged⟩ := h.merge hholds hevents hjoins
    rw [hfailed] at hmerged
    refine hnext.offerCoalesced hmerged hopen (.inr (isFetchBatch_of_joins hjoins)) fun herror => ?_
    rw [← hsending, hfailed] at herror
    exact herror
  | true =>
    let left : EventQueue Content Detail := { queue with events := front }
    have hleft : left.receiverOpen = true := hopen
    have hsession : Session.after (EventQueue.offerCoalesced { queue with events := front } merged wait) =
        ⟨{ queue with events := front }, none⟩ := by
      obtain ⟨-, -, heq⟩ | ⟨-, -, heq⟩ | ⟨-, heq⟩ :=
        offerCoalesced_cases hleft merged wait
      · rw [hsending, heq] at hfailed
        cases hfailed
      · rw [heq]
        rfl
      · rw [hsending, heq] at hfailed
        cases hfailed
    obtain ⟨declined, hdeclined⟩ := h.decline .Refused hholds (.inr ⟨rfl, hfailed⟩)
    rw [hsession]
    exact hdeclined.dropLast hevents (List.getLast?_concat ..) hfailed (continues_of_joins hjoins)

/-- An event that takes out what it replaces. -/
private theorem ready {event : RendererEvent Content Detail} {blocking wait : Bool}
    {sending : Sending Content Detail}
    (h : Tracks (history.call event blocking sending) ⟨queue, some event⟩ delivery)
    (hholds : Holds delivery blocking sending.failed) (hbounded : Bounded queue)
    (hbatch : blocking = false ∨ event.isFetchBatch = false)
    (hreplaces : ∀ queued ∈ queue.events, replaces event queued = true → Overtakes event queued)
    (hsending : sending = (EventQueue.offerCoalesced { queue with
      events := queue.events.filter fun queued => !replaces event queued } event wait).2) :
    ∃ next, Tracks (history.call event blocking sending) (.after (EventQueue.offerCoalesced
      { queue with events := queue.events.filter fun queued => !replaces event queued } event wait)) next := by
  let left : EventQueue Content Detail :=
    { queue with events := queue.events.filter fun queued => !replaces event queued }
  have hopen : left.receiverOpen = true := hbounded.receiverOpen
  have hleft (hfull : coalescedFull left.events event = true) : left = queue := by
    have hevents : left.events = queue.events := filter_eq_of_full hbounded hfull
    cases queue
    exact congrArg (EventQueue.mk · _ _) hevents
  show ∃ next, Tracks _ (.after (left.offerCoalesced event wait)) next
  obtain ⟨hfull, -, heq⟩ | ⟨hfull, -, heq⟩ | ⟨-, heq⟩ :=
    offerCoalesced_cases hopen event wait
  · rw [heq, hleft hfull]
    exact ⟨delivery, h⟩
  · have hfailed : sending.failed = true := by
      rw [hsending]
      show (left.offerCoalesced event wait).2.failed = true
      rw [heq]
      rfl
    rw [heq, hleft hfull]
    exact h.decline .Refused hholds (.inr ⟨rfl, hfailed⟩)
  · obtain ⟨next, hnext, -⟩ := h.enqueue hholds (hbatch.elim .inl fun hkind => .inr (.inl hkind))
    rw [heq]
    exact hnext.overtake rfl hreplaces

theorem sendCoalesced {event : RendererEvent Content Detail} {blocking wait : Bool}
    (h : Tracks history ⟨queue, none⟩ delivery) (hbounded : Bounded queue)
    (hbatch : blocking = false ∨ event.isFetchBatch = false) :
    ∃ next, Tracks (history.call event blocking (queue.sendCoalesced event wait).2)
      (.after (queue.sendCoalesced event wait)) next := by
  obtain ⟨next, hnext, hholds⟩ := h.offer event blocking (queue.sendCoalesced event wait).2
  cases hprepare : prepare queue.events event with
  | mk left outcome =>
    have hcases := prepare_cases hprepare
    cases outcome with
    | Superseded =>
      have hsend : queue.sendCoalesced event wait =
          ({ queue with events := left }, .Returned (.ok ())) := by
        rw [EventQueue.sendCoalesced, if_pos hbounded.receiverOpen, hprepare]
      rw [hsend] at hnext hholds ⊢
      cases hcases with
      | superseded hnewer => exact hnext.decline .Outdated hholds (.inl ⟨rfl, hnewer⟩)
    | Refused error =>
      have hsend : queue.sendCoalesced event wait =
          ({ queue with events := left }, .Returned (.error error)) := by
        rw [EventQueue.sendCoalesced, if_pos hbounded.receiverOpen, hprepare]
      rw [hsend] at hnext hholds ⊢
      cases hcases with
      | refused front last error hevents hcontinues =>
        obtain ⟨declined, hdeclined⟩ := hnext.decline .Refused hholds (.inr ⟨rfl, rfl⟩)
        exact hdeclined.dropLast hevents (List.getLast?_concat ..) rfl hcontinues
    | Ready merged =>
      have hsend : queue.sendCoalesced event wait =
          EventQueue.offerCoalesced { queue with events := left } merged wait := by
        rw [EventQueue.sendCoalesced, if_pos hbounded.receiverOpen, hprepare]
      rw [hsend] at hnext hholds ⊢
      cases hcases with
      | joined front last merged hevents hjoins =>
        exact hnext.joined hholds hbounded.receiverOpen hevents hjoins rfl
      | ready hreplaces => exact hnext.ready hholds hbounded hbatch hreplaces rfl

end Tracks

/-- Every run of the queue is a run of the line. -/
theorem Run.tracks {history : History Content Detail} {session : Session Content Detail}
    (h : Run history session) : ∃ delivery, Tracks history session delivery := by
  induction h with
  | start => exact ⟨_, Tracks.start⟩
  | send hrun event ih =>
    obtain ⟨delivery, htracks⟩ := ih
    have hbounded := hrun.bounded
    rw [EventQueue.send]
    cases hlossless : event.isLossless with
    | true =>
      rw [if_pos rfl]
      obtain ⟨next, hnext, hholds⟩ := htracks.offer event true _
      exact hnext.sendLossless hholds hbounded.receiverOpen
    | false =>
      rw [if_neg Bool.false_ne_true]
      exact htracks.sendCoalesced hbounded (.inr (isFetchBatch_of_not_lossless hlossless))
  | trySend hrun event ih =>
    obtain ⟨delivery, htracks⟩ := ih
    exact htracks.sendCoalesced hrun.bounded (.inl rfl)
  | discardDocument hrun document ih =>
    obtain ⟨delivery, htracks⟩ := ih
    exact htracks.discard document
  | @resume history queue event hrun ih =>
    obtain ⟨delivery, htracks⟩ := ih
    have hopen := hrun.bounded.receiverOpen
    obtain ⟨parcel, hheld, -⟩ := Option.map_eq_some_iff.mp htracks.held
    have hholds : Holds delivery parcel.item.blocking parcel.item.failed := ⟨parcel, hheld, rfl, rfl⟩
    rw [EventQueue.resume]
    cases hlossless : event.isLossless with
    | true =>
      rw [if_pos rfl]
      exact htracks.sendLossless hholds hopen
    | false =>
      rw [if_neg Bool.false_ne_true]
      refine htracks.offerCoalesced hholds hopen (.inr (isFetchBatch_of_not_lossless hlossless)) ?_
      intro hfailed
      obtain ⟨-, -, heq⟩ | ⟨-, hwait, -⟩ | ⟨-, heq⟩ := offerCoalesced_cases hopen event true
      · rw [heq] at hfailed
        cases hfailed
      · cases hwait
      · rw [heq] at hfailed
        cases hfailed
  | recv hrun hrecv ih =>
    obtain ⟨delivery, htracks⟩ := ih
    exact htracks.receive hrecv
  | tryRecvIf hrun accepts hrecv ih =>
    obtain ⟨delivery, htracks⟩ := ih
    exact htracks.receive (recv_of_tryRecvIf hrecv)

end BetterWebBrowser.RendererProcess
