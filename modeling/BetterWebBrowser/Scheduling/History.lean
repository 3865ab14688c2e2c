import BetterWebBrowser.Scheduling.PendingTasks

/-!
# The history of an event loop

What a run has returned and started so far. It says which handles are pending and which
microtasks wait; the scheduler agrees in every state.
-/

namespace BetterWebBrowser.Scheduling

open Framework

variable {T : Type}

/-! ## Reading a history -/

namespace Event

/-- The handles that are pending after an event. -/
def pending (handles : Finset TaskHandle) : Event T → Finset TaskHandle
  | .queued task => insert task.handle handles
  | .cancelled handle _ => handles.erase handle
  | .cleared => ∅
  | .started task => if task.repeating then handles else handles.erase task.handle
  | _ => handles

/-- The microtasks queued since the last `clear`. -/
def queuedMicrotasks (microtasks : List T) : Event T → List T
  | .microtaskQueued payload => microtasks ++ [payload]
  | .cleared => []
  | _ => microtasks

/-- The microtasks started since the last `clear`. -/
def startedMicrotasks (microtasks : List T) : Event T → List T
  | .microtaskStarted payload => microtasks ++ [payload]
  | .cleared => []
  | _ => microtasks

/-- Whether a checkpoint has begun and not ended. -/
def openCheckpoint (isOpen : Bool) : Event T → Bool
  | .checkpointBegan => true
  | .checkpointEnded _ => false
  | _ => isOpen

/-- The event after which a handle is never run again. -/
def Final (handle : TaskHandle) : Event T → Prop
  | .cancelled other pending => other = handle ∧ pending = true
  | .started task => task.handle = handle ∧ task.repeating = false
  | _ => False

end Event

def pendingHandles (history : List (Event T)) : Finset TaskHandle := history.foldl Event.pending ∅

def queuedMicrotasks (history : List (Event T)) : List T := history.foldl Event.queuedMicrotasks []

def startedMicrotasks (history : List (Event T)) : List T := history.foldl Event.startedMicrotasks []

def openCheckpoint (history : List (Event T)) : Bool := history.foldl Event.openCheckpoint false

/-! ## Steps -/

namespace EventLoop

variable {loop next : EventLoop T} {events : List (Event T)}

/-- The forms a step can have. -/
inductive Stepped (loop : EventLoop T) : List (Event T) → EventLoop T → Prop
  | queued {source : TaskSource} {delay : Duration} {repeatInterval : Option Duration} {payload : T}
      {task : QueuedTask T} {s : EventLoopScheduler T}
      (hinterval : ∀ interval, repeatInterval = some interval → 0 < interval.val)
      (h : loop.scheduler.queueTaskInternal source delay repeatInterval payload = some (task, s)) :
      Stepped loop [.queued task] ⟨s, loop.callbacks⟩
  | cancelled (handle : TaskHandle) :
      Stepped loop [.cancelled handle (decide (handle ∈ loop.scheduler.activeTasks))]
        ⟨(loop.scheduler.cancel handle).1, loop.callbacks⟩
  | advanced (now : Duration) : Stepped loop [.advanced now] ⟨loop.scheduler.advanceTo now, loop.callbacks⟩
  | cleared : Stepped loop [.cleared] ⟨loop.scheduler.clear, loop.callbacks⟩
  | microtaskQueued (payload : T) :
      Stepped loop [.microtaskQueued payload] ⟨loop.scheduler.queueMicrotask payload, loop.callbacks⟩
  | nextDue (due : Option Duration) :
      Stepped loop [.nextDue due] ⟨loop.scheduler.discardCancelledFront, loop.callbacks⟩
  | idle {s : EventLoopScheduler T} (h : loop.scheduler.popRunnableTask = some (s, none)) :
      Stepped loop [.idle] ⟨s, loop.callbacks⟩
  | started {s : EventLoopScheduler T} {task : RunnableTask T}
      (h : loop.scheduler.popRunnableTask = some (s, some task)) :
      Stepped loop [.started task] ⟨s, .task task.handle :: loop.callbacks⟩
  | checkpoint {callbacks : List Callback} (task : Option TaskHandle)
      (h : loop.callbacks = callbacks ∨ ∃ handle, loop.callbacks = .task handle :: callbacks) :
      Stepped loop (performMicrotaskCheckpoint loop.scheduler callbacks task).2
        (performMicrotaskCheckpoint loop.scheduler callbacks task).1
  | microtask {task : Option TaskHandle} {executed : Nat} {callbacks : List Callback}
      (h : loop.callbacks = .microtask task executed :: callbacks) :
      Stepped loop (nextMicrotask loop.scheduler callbacks task (executed + 1)).2
        (nextMicrotask loop.scheduler callbacks task (executed + 1)).1

theorem Steps.stepped (h : loop.Steps events next) : Stepped loop events next := by
  obtain ⟨action, h⟩ := h
  cases action with
  | queueTask source delay payload =>
    obtain ⟨⟨task, s⟩, hqueue, heq⟩ := Option.map_eq_some_iff.mp h
    cases heq
    exact .queued (fun interval hsome => by cases hsome) hqueue
  | queueRepeatingTask source delay interval payload =>
    obtain ⟨⟨task, s⟩, hqueue, heq⟩ := Option.map_eq_some_iff.mp h
    cases heq
    refine .queued (fun other hsome => ?_) hqueue
    obtain rfl := Option.some.inj hsome
    have hone : MINIMUM_REPEAT_INTERVAL ≤ max interval MINIMUM_REPEAT_INTERVAL := le_max_right _ _
    exact lt_of_lt_of_le Nat.zero_lt_one hone
  | cancel handle =>
    cases h
    exact .cancelled handle
  | advanceTo now =>
    cases h
    exact .advanced now
  | clear =>
    cases h
    exact .cleared
  | queueMicrotask payload =>
    cases h
    exact .microtaskQueued payload
  | nextDueTime =>
    cases h
    exact .nextDue _
  | runOneTask =>
    obtain ⟨⟨s, result⟩, hpop, heq⟩ := Option.map_eq_some_iff.mp h
    cases result with
    | none =>
      cases heq
      exact .idle hpop
    | some task =>
      cases heq
      exact .started hpop
  | performMicrotaskCheckpoint =>
    obtain ⟨rfl, rfl⟩ := Prod.mk.inj (Option.some.inj h)
    exact .checkpoint none (Or.inl rfl)
  | finish =>
    change loop.finish = some (next, events) at h
    rw [finish] at h
    split at h
    · cases h
    · rename_i handle callbacks hcallbacks
      obtain ⟨rfl, rfl⟩ := Prod.mk.inj (Option.some.inj h)
      exact .checkpoint (some handle) (Or.inr ⟨handle, hcallbacks⟩)
    · rename_i task executed callbacks hcallbacks
      obtain ⟨rfl, rfl⟩ := Prod.mk.inj (Option.some.inj h)
      exact .microtask hcallbacks

/-- What holds of the history and the state at the start and is kept by every step holds in every run. -/
theorem runs_history (inv : List (Event T) → EventLoop T → Prop) (hinit : inv [] new)
    (hstep : ∀ history loop events next, inv history loop → Stepped loop events next → inv (history ++ events) next)
    {labels : List (List (Event T))} (h : Runs labels loop) : inv labels.flatten loop := by
  refine h.historyInvariant (fun labels loop => inv labels.flatten loop) hinit ?_
  intro labels loop events next hinv hstepped
  rw [List.flatten_append, List.flatten_singleton]
  exact hstep _ _ _ _ hinv hstepped.stepped

/-- An event of a longer history is one of the history so far or one of the new events. -/
theorem append_eq_split {history events before after : List (Event T)} {event : Event T}
    (h : history ++ events = before ++ event :: after) :
    (∃ rest, history = before ++ event :: rest ∧ after = rest ++ events) ∨
      ∃ rest, before = history ++ rest ∧ events = rest ++ event :: after := by
  obtain ⟨rest, hbefore, hevents⟩ | ⟨rest, hhistory, hafter⟩ := List.append_eq_append_iff.mp h
  · exact Or.inr ⟨rest, hbefore, hevents⟩
  · cases rest with
    | nil =>
      rw [List.nil_append] at hafter
      rw [List.append_nil] at hhistory
      exact Or.inr ⟨[], by rw [hhistory, List.append_nil], hafter.symm⟩
    | cons first rest =>
      obtain ⟨rfl, hrest⟩ := List.cons.inj hafter
      exact Or.inl ⟨rest, hhistory, hrest⟩

/-! ## Checkpoints -/

/-- A round of a checkpoint starts the first microtask, or ends the checkpoint when none waits. -/
theorem nextMicrotask_cases (s : EventLoopScheduler T) (callbacks : List Callback) (task : Option TaskHandle)
    (executed : Nat) :
    (∃ payload microtasks, s.microtasks = payload :: microtasks ∧
        nextMicrotask s callbacks task executed =
          (⟨{ s with microtasks := microtasks }, .microtask task executed :: callbacks⟩, [.microtaskStarted payload])) ∨
      s.microtasks = [] ∧
        nextMicrotask s callbacks task executed =
          (⟨{ s with performingMicrotaskCheckpoint := false }, callbacks⟩,
            .checkpointEnded executed :: summarize task executed) := by
  rw [nextMicrotask]
  split
  · rename_i payload microtasks hmicrotasks
    exact Or.inl ⟨payload, microtasks, hmicrotasks, rfl⟩
  · rename_i hmicrotasks
    exact Or.inr ⟨hmicrotasks, rfl⟩

/-- The events of a checkpoint. -/
def IsCheckpoint : Event T → Prop
  | .checkpointIgnored => True
  | .checkpointBegan => True
  | .microtaskStarted _ => True
  | .checkpointEnded _ => True
  | .finished _ => True
  | _ => False

theorem isCheckpoint_summarize (task : Option TaskHandle) (executed : Nat) :
    ∀ event ∈ (summarize task executed : List (Event T)), IsCheckpoint event := by
  intro event h
  obtain ⟨handle, -, rfl⟩ := List.mem_map.mp h
  trivial

theorem isCheckpoint_nextMicrotask (s : EventLoopScheduler T) (callbacks : List Callback) (task : Option TaskHandle)
    (executed : Nat) : ∀ event ∈ (nextMicrotask s callbacks task executed).2, IsCheckpoint event := by
  intro event h
  obtain ⟨payload, microtasks, -, heq⟩ | ⟨-, heq⟩ := nextMicrotask_cases s callbacks task executed
  · rw [heq, List.mem_singleton] at h
    rw [h]
    trivial
  · rw [heq] at h
    rcases List.mem_cons.mp h with rfl | h
    · trivial
    · exact isCheckpoint_summarize task executed event h

theorem isCheckpoint_performMicrotaskCheckpoint (s : EventLoopScheduler T) (callbacks : List Callback)
    (task : Option TaskHandle) : ∀ event ∈ (performMicrotaskCheckpoint s callbacks task).2, IsCheckpoint event := by
  intro event h
  rw [performMicrotaskCheckpoint] at h
  split at h
  · rcases List.mem_cons.mp h with rfl | h
    · trivial
    · exact isCheckpoint_summarize task 0 event h
  · rcases List.mem_cons.mp h with rfl | h
    · trivial
    · exact isCheckpoint_nextMicrotask _ callbacks task 0 event h

/-- A checkpoint leaves the tasks as they are. -/
structure SameTasks (s s' : EventLoopScheduler T) : Prop where
  now : s'.now = s.now
  tasks : s'.tasks = s.tasks
  activeTasks : s'.activeTasks = s.activeTasks
  nextHandle : s'.nextHandle = s.nextHandle
  nextSequence : s'.nextSequence = s.nextSequence

theorem sameTasks_nextMicrotask (s : EventLoopScheduler T) (callbacks : List Callback) (task : Option TaskHandle)
    (executed : Nat) : SameTasks s (nextMicrotask s callbacks task executed).1.scheduler := by
  obtain ⟨payload, microtasks, -, heq⟩ | ⟨-, heq⟩ := nextMicrotask_cases s callbacks task executed
  · rw [heq]
    exact ⟨rfl, rfl, rfl, rfl, rfl⟩
  · rw [heq]
    exact ⟨rfl, rfl, rfl, rfl, rfl⟩

theorem sameTasks_performMicrotaskCheckpoint (s : EventLoopScheduler T) (callbacks : List Callback)
    (task : Option TaskHandle) : SameTasks s (performMicrotaskCheckpoint s callbacks task).1.scheduler := by
  rw [performMicrotaskCheckpoint]
  split
  · exact ⟨rfl, rfl, rfl, rfl, rfl⟩
  · have hnext := sameTasks_nextMicrotask { s with performingMicrotaskCheckpoint := true } callbacks task 0
    exact ⟨hnext.now, hnext.tasks, hnext.activeTasks, hnext.nextHandle, hnext.nextSequence⟩

theorem SameTasks.consistent {s s' : EventLoopScheduler T} (h : SameTasks s s') (hs : s.Consistent) :
    s'.Consistent := by
  obtain ⟨-, htasks, hactive, hhandle, hsequence⟩ := h
  constructor
  · exact htasks ▸ hs.handles
  · exact htasks ▸ hs.sequences
  · exact htasks ▸ hactive ▸ hs.active
  · exact htasks ▸ hhandle ▸ hs.handle_lt
  · exact htasks ▸ hsequence ▸ hs.sequence_lt
  · exact htasks ▸ hs.interval_pos

theorem Stepped.consistent (h : Stepped loop events next) (hs : loop.scheduler.Consistent) :
    next.scheduler.Consistent := by
  cases h with
  | queued hinterval h => exact hs.queueTaskInternal hinterval h
  | cancelled handle => exact hs.cancel handle
  | advanced now => exact { hs with }
  | cleared => exact hs.clear
  | microtaskQueued payload => exact { hs with }
  | nextDue due => exact hs.discardCancelledFront
  | idle h => exact hs.popRunnableTask h
  | started h => exact hs.popRunnableTask h
  | checkpoint task h => exact (sameTasks_performMicrotaskCheckpoint _ _ _).consistent hs
  | microtask h => exact (sameTasks_nextMicrotask _ _ _ _).consistent hs

/-! ## Pending handles -/

theorem foldl_pending_checkpoint {events : List (Event T)} (h : ∀ event ∈ events, IsCheckpoint event)
    (handles : Finset TaskHandle) : events.foldl Event.pending handles = handles := by
  induction events with
  | nil => rfl
  | cons event events ih =>
    have hevent : Event.pending handles event = handles := by
      have hcheckpoint := h event List.mem_cons_self
      cases event with
      | checkpointIgnored => rfl
      | checkpointBegan => rfl
      | microtaskStarted payload => rfl
      | checkpointEnded executed => rfl
      | finished summary => rfl
      | _ => cases hcheckpoint
    rw [List.foldl_cons, hevent]
    exact ih fun other hother => h other (List.mem_cons_of_mem _ hother)

/-- A start takes the handle out of the set unless the task repeats. -/
theorem activeTasks_popRunnableTask {s s' : EventLoopScheduler T} {task : RunnableTask T}
    (h : s.popRunnableTask = some (s', some task)) :
    s'.activeTasks = if task.repeating then s.activeTasks else s.activeTasks.erase task.handle := by
  obtain ⟨hnone, -, -⟩ | ⟨front, rest, runnable, -, -, hresult, htake⟩ :=
    EventLoopScheduler.popRunnableTask_cases h
  · cases hnone
  · obtain rfl := Option.some.inj hresult
    obtain ⟨rfl, ⟨hone, rfl⟩ | ⟨interval, hrepeat, rfl⟩⟩ := EventLoopScheduler.takeTask_cases htake
    · simp [QueuedTask.runnable, hone, EventLoopScheduler.discardCancelledFront]
    · simp [QueuedTask.runnable, hrepeat, EventLoopScheduler.discardCancelledFront]

theorem activeTasks_idle {s s' : EventLoopScheduler T} (h : s.popRunnableTask = some (s', none)) :
    s' = s.discardCancelledFront := by
  obtain ⟨-, heq, -⟩ | ⟨front, rest, runnable, -, -, hresult, -⟩ := EventLoopScheduler.popRunnableTask_cases h
  · exact heq
  · cases hresult

theorem Stepped.activeTasks (h : Stepped loop events next) :
    next.scheduler.activeTasks = events.foldl Event.pending loop.scheduler.activeTasks := by
  cases h with
  | queued hinterval h =>
    obtain ⟨rfl, rfl⟩ := EventLoopScheduler.queueTaskInternal_eq h
    rfl
  | cancelled handle => rfl
  | advanced now => rfl
  | cleared => rfl
  | microtaskQueued payload => rfl
  | nextDue due => rfl
  | idle h =>
    rw [activeTasks_idle h]
    rfl
  | started h => exact activeTasks_popRunnableTask h
  | checkpoint task h =>
    rw [(sameTasks_performMicrotaskCheckpoint _ _ _).activeTasks,
      foldl_pending_checkpoint (isCheckpoint_performMicrotaskCheckpoint _ _ _)]
  | microtask h =>
    rw [(sameTasks_nextMicrotask _ _ _ _).activeTasks,
      foldl_pending_checkpoint (isCheckpoint_nextMicrotask _ _ _ _)]

theorem runs_consistent {labels : List (List (Event T))} (h : Runs labels loop) : loop.scheduler.Consistent :=
  runs_history (fun _ loop => loop.scheduler.Consistent) EventLoopScheduler.consistent_new
    (fun _ _ _ _ hs hstep => hstep.consistent hs) h

/-- The active handles are those that the history says are pending. -/
theorem runs_activeTasks {labels : List (List (Event T))} (h : Runs labels loop) :
    loop.scheduler.activeTasks = pendingHandles labels.flatten := by
  refine runs_history (fun history loop => loop.scheduler.activeTasks = pendingHandles history) rfl ?_ h
  intro history loop events next hactive hstep
  rw [hstep.activeTasks, hactive, pendingHandles, pendingHandles, List.foldl_append]

end EventLoop

end BetterWebBrowser.Scheduling
