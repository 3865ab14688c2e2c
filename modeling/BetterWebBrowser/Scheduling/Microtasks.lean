import BetterWebBrowser.Scheduling.History

/-!
# Microtasks

The microtasks that were queued are those that were started and those that wait, in this order.
A checkpoint is open while a callback of one of its microtasks runs, and ends when none waits.
-/

namespace BetterWebBrowser.Scheduling

open Framework

variable {T : Type}

namespace EventLoop

variable {loop next : EventLoop T} {events : List (Event T)}

/-! ## First in, first out -/

theorem foldl_queuedMicrotasks_checkpoint {events : List (Event T)} (h : ∀ event ∈ events, IsCheckpoint event)
    (microtasks : List T) : events.foldl Event.queuedMicrotasks microtasks = microtasks := by
  induction events with
  | nil => rfl
  | cons event events ih =>
    have hevent : Event.queuedMicrotasks microtasks event = microtasks := by
      have hcheckpoint := h event List.mem_cons_self
      cases event with
      | microtaskQueued payload => cases hcheckpoint
      | cleared => cases hcheckpoint
      | _ => rfl
    rw [List.foldl_cons, hevent]
    exact ih fun other hother => h other (List.mem_cons_of_mem _ hother)

theorem foldl_startedMicrotasks_summarize (task : Option TaskHandle) (executed : Nat) (microtasks : List T) :
    (summarize task executed).foldl Event.startedMicrotasks microtasks = microtasks := by
  cases task with
  | none => rfl
  | some handle => rfl

/-- What is started is taken from the front of what waits. -/
theorem startedMicrotasks_nextMicrotask (s : EventLoopScheduler T) (callbacks : List Callback)
    (task : Option TaskHandle) (executed : Nat) (started : List T) :
    (nextMicrotask s callbacks task executed).2.foldl Event.startedMicrotasks started ++
        (nextMicrotask s callbacks task executed).1.scheduler.microtasks = started ++ s.microtasks := by
  obtain ⟨payload, microtasks, hmicrotasks, heq⟩ | ⟨hmicrotasks, heq⟩ :=
    nextMicrotask_cases s callbacks task executed
  · rw [heq, hmicrotasks]
    exact List.append_assoc started [payload] microtasks
  · rw [heq]
    dsimp only
    rw [List.foldl_cons, foldl_startedMicrotasks_summarize]
    rfl

theorem startedMicrotasks_performMicrotaskCheckpoint (s : EventLoopScheduler T) (callbacks : List Callback)
    (task : Option TaskHandle) (started : List T) :
    (performMicrotaskCheckpoint s callbacks task).2.foldl Event.startedMicrotasks started ++
        (performMicrotaskCheckpoint s callbacks task).1.scheduler.microtasks = started ++ s.microtasks := by
  rw [performMicrotaskCheckpoint]
  split
  · dsimp only
    rw [List.foldl_cons, foldl_startedMicrotasks_summarize]
    rfl
  · exact startedMicrotasks_nextMicrotask { s with performingMicrotaskCheckpoint := true } callbacks task 0 started

theorem microtasks_popRunnableTask {s s' : EventLoopScheduler T} {result : Option (RunnableTask T)}
    (h : s.popRunnableTask = some (s', result)) :
    s'.microtasks = s.microtasks ∧ s'.performingMicrotaskCheckpoint = s.performingMicrotaskCheckpoint := by
  obtain ⟨-, rfl, -⟩ | ⟨front, rest, runnable, -, -, -, htake⟩ := EventLoopScheduler.popRunnableTask_cases h
  · exact ⟨rfl, rfl⟩
  · obtain ⟨-, ⟨-, rfl⟩ | ⟨interval, -, rfl⟩⟩ := EventLoopScheduler.takeTask_cases htake
    · exact ⟨rfl, rfl⟩
    · exact ⟨rfl, rfl⟩

theorem Stepped.microtasks (h : Stepped loop events next) {queued started : List T}
    (hfifo : queued = started ++ loop.scheduler.microtasks) :
    events.foldl Event.queuedMicrotasks queued =
      events.foldl Event.startedMicrotasks started ++ next.scheduler.microtasks := by
  cases h with
  | queued hinterval h =>
    obtain ⟨-, rfl⟩ := EventLoopScheduler.queueTaskInternal_eq h
    exact hfifo
  | cancelled handle => exact hfifo
  | advanced now => exact hfifo
  | cleared => rfl
  | microtaskQueued payload =>
    change queued ++ [payload] = started ++ (loop.scheduler.microtasks ++ [payload])
    rw [hfifo, List.append_assoc]
  | nextDue due => exact hfifo
  | idle h =>
    change queued = started ++ _
    rw [hfifo, (microtasks_popRunnableTask h).1]
  | started h =>
    change queued = started ++ _
    rw [hfifo, (microtasks_popRunnableTask h).1]
  | checkpoint task h =>
    rw [foldl_queuedMicrotasks_checkpoint (isCheckpoint_performMicrotaskCheckpoint _ _ _), hfifo,
      startedMicrotasks_performMicrotaskCheckpoint]
  | microtask h =>
    rw [foldl_queuedMicrotasks_checkpoint (isCheckpoint_nextMicrotask _ _ _ _), hfifo,
      startedMicrotasks_nextMicrotask]

/-- Every microtask that was queued and not cleared was started once, in the order of the calls,
or waits. -/
theorem runs_microtasks {labels : List (List (Event T))} (h : Runs labels loop) :
    queuedMicrotasks labels.flatten = startedMicrotasks labels.flatten ++ loop.scheduler.microtasks := by
  refine runs_history (fun history loop =>
    queuedMicrotasks history = startedMicrotasks history ++ loop.scheduler.microtasks) rfl ?_ h
  intro history loop events next hfifo hstep
  rw [queuedMicrotasks, startedMicrotasks, List.foldl_append, List.foldl_append]
  exact hstep.microtasks hfifo

/-! ## Open checkpoints -/

theorem foldl_openCheckpoint_summarize (task : Option TaskHandle) (executed : Nat) (isOpen : Bool) :
    ((summarize task executed : List (Event T))).foldl Event.openCheckpoint isOpen = isOpen := by
  cases task with
  | none => rfl
  | some handle => rfl

theorem openCheckpoint_nextMicrotask (s : EventLoopScheduler T) (callbacks : List Callback)
    (task : Option TaskHandle) (executed : Nat) :
    (nextMicrotask s callbacks task executed).1.scheduler.performingMicrotaskCheckpoint =
      (nextMicrotask s callbacks task executed).2.foldl Event.openCheckpoint s.performingMicrotaskCheckpoint := by
  obtain ⟨payload, microtasks, -, heq⟩ | ⟨-, heq⟩ := nextMicrotask_cases s callbacks task executed
  · rw [heq]
    rfl
  · rw [heq]
    dsimp only
    rw [List.foldl_cons, foldl_openCheckpoint_summarize]
    rfl

theorem openCheckpoint_performMicrotaskCheckpoint (s : EventLoopScheduler T) (callbacks : List Callback)
    (task : Option TaskHandle) :
    (performMicrotaskCheckpoint s callbacks task).1.scheduler.performingMicrotaskCheckpoint =
      (performMicrotaskCheckpoint s callbacks task).2.foldl Event.openCheckpoint s.performingMicrotaskCheckpoint := by
  rw [performMicrotaskCheckpoint]
  split
  · dsimp only
    rw [List.foldl_cons, foldl_openCheckpoint_summarize]
    rfl
  · exact openCheckpoint_nextMicrotask { s with performingMicrotaskCheckpoint := true } callbacks task 0

theorem Stepped.openCheckpoint (h : Stepped loop events next) :
    next.scheduler.performingMicrotaskCheckpoint =
      events.foldl Event.openCheckpoint loop.scheduler.performingMicrotaskCheckpoint := by
  cases h with
  | queued hinterval h =>
    obtain ⟨-, rfl⟩ := EventLoopScheduler.queueTaskInternal_eq h
    rfl
  | cancelled handle => rfl
  | advanced now => rfl
  | cleared => rfl
  | microtaskQueued payload => rfl
  | nextDue due => rfl
  | idle h => exact (microtasks_popRunnableTask h).2
  | started h => exact (microtasks_popRunnableTask h).2
  | checkpoint task h => exact openCheckpoint_performMicrotaskCheckpoint _ _ _
  | microtask h => exact openCheckpoint_nextMicrotask _ _ _ _

theorem runs_openCheckpoint {labels : List (List (Event T))} (h : Runs labels loop) :
    loop.scheduler.performingMicrotaskCheckpoint = openCheckpoint labels.flatten := by
  refine runs_history (fun history loop =>
    loop.scheduler.performingMicrotaskCheckpoint = Scheduling.openCheckpoint history) rfl ?_ h
  intro history loop events next hopen hstep
  rw [hstep.openCheckpoint, hopen, Scheduling.openCheckpoint, Scheduling.openCheckpoint, List.foldl_append]

/-- The callbacks of microtasks that run. -/
def microtaskCallbacks (callbacks : List Callback) : Nat :=
  callbacks.countP fun callback => match callback with
    | .task _ => false
    | .microtask _ _ => true

/-- One callback of a microtask runs while a checkpoint is performed, and none else. -/
def OneCheckpoint (loop : EventLoop T) : Prop :=
  microtaskCallbacks loop.callbacks = if loop.scheduler.performingMicrotaskCheckpoint then 1 else 0

theorem oneCheckpoint_nextMicrotask {s : EventLoopScheduler T} {callbacks : List Callback}
    (hperforming : s.performingMicrotaskCheckpoint = true) (hnone : microtaskCallbacks callbacks = 0)
    (task : Option TaskHandle) (executed : Nat) : OneCheckpoint (nextMicrotask s callbacks task executed).1 := by
  obtain ⟨payload, microtasks, -, heq⟩ | ⟨-, heq⟩ := nextMicrotask_cases s callbacks task executed
  · rw [heq, OneCheckpoint]
    dsimp only
    rw [hperforming, microtaskCallbacks, List.countP_cons_of_pos rfl]
    exact congrArg Nat.succ hnone
  · rw [heq]
    exact hnone

theorem Stepped.oneCheckpoint (h : Stepped loop events next) (hone : OneCheckpoint loop) : OneCheckpoint next := by
  cases h with
  | queued hinterval h =>
    obtain ⟨-, rfl⟩ := EventLoopScheduler.queueTaskInternal_eq h
    exact hone
  | cancelled handle => exact hone
  | advanced now => exact hone
  | cleared => exact hone
  | microtaskQueued payload => exact hone
  | nextDue due => exact hone
  | idle h =>
    rw [OneCheckpoint, (microtasks_popRunnableTask h).2]
    exact hone
  | started h =>
    rw [OneCheckpoint, (microtasks_popRunnableTask h).2]
    exact hone
  | @checkpoint callbacks task h =>
    have hsame : microtaskCallbacks callbacks = microtaskCallbacks loop.callbacks := by
      rcases h with heq | ⟨handle, heq⟩
      · rw [heq]
      · rw [heq, microtaskCallbacks, microtaskCallbacks, List.countP_cons_of_neg Bool.false_ne_true]
    rw [OneCheckpoint, ← hsame] at hone
    rw [performMicrotaskCheckpoint]
    split
    · exact hone
    · rename_i hperforming
      rw [if_neg hperforming] at hone
      exact oneCheckpoint_nextMicrotask rfl hone task 0
  | @microtask task executed callbacks h =>
    rw [OneCheckpoint, h, microtaskCallbacks, List.countP_cons_of_pos rfl] at hone
    cases hperforming : loop.scheduler.performingMicrotaskCheckpoint with
    | false =>
      rw [hperforming] at hone
      cases hone
    | true =>
      rw [hperforming, if_pos rfl] at hone
      exact oneCheckpoint_nextMicrotask hperforming (Nat.succ.inj hone) task (executed + 1)

/-- A checkpoint is open exactly while a callback of a microtask runs. -/
theorem runs_open_iff {labels : List (List (Event T))} (h : Runs labels loop) :
    openCheckpoint labels.flatten = true ↔ ∃ task executed, .microtask task executed ∈ loop.callbacks := by
  have hone : OneCheckpoint loop := runs_history (fun _ loop => OneCheckpoint loop) rfl
    (fun _ _ _ _ hone hstep => hstep.oneCheckpoint hone) h
  rw [OneCheckpoint, runs_openCheckpoint h] at hone
  cases hopen : Scheduling.openCheckpoint labels.flatten with
  | true =>
    rw [hopen, if_pos rfl] at hone
    obtain ⟨callback, hmem, hmicrotask⟩ := List.countP_pos_iff.mp (hone ▸ Nat.zero_lt_one)
    cases callback with
    | task handle => cases hmicrotask
    | microtask task executed => exact ⟨fun _ => ⟨task, executed, hmem⟩, fun _ => rfl⟩
  | false =>
    rw [hopen, if_neg Bool.false_ne_true] at hone
    refine ⟨fun h => absurd h Bool.false_ne_true, fun ⟨task, executed, hmem⟩ => ?_⟩
    exact absurd rfl (List.countP_eq_zero.mp hone _ hmem)

/-! ## Ends of checkpoints -/

theorem summarize_ended {task : Option TaskHandle} {count executed : Nat} :
    .checkpointEnded executed ∉ (summarize task count : List (Event T)) := by
  cases task with
  | none => simp [summarize]
  | some handle => simp [summarize]

/-- A checkpoint ends when no microtask waits. -/
theorem nextMicrotask_ended {s : EventLoopScheduler T} {callbacks : List Callback} {task : Option TaskHandle}
    {executed count : Nat} {before after : List (Event T)}
    (h : (nextMicrotask s callbacks task executed).2 = before ++ .checkpointEnded count :: after) :
    before = [] ∧ s.microtasks = [] := by
  obtain ⟨payload, microtasks, -, heq⟩ | ⟨hmicrotasks, heq⟩ := nextMicrotask_cases s callbacks task executed
  · rw [heq] at h
    have hmem : .checkpointEnded count ∈ [Event.microtaskStarted payload] := by
      rw [show [Event.microtaskStarted payload] = _ from h]
      simp
    cases List.mem_singleton.mp hmem
  · rw [heq] at h
    refine ⟨?_, hmicrotasks⟩
    cases before with
    | nil => rfl
    | cons first before =>
      have hrest := (List.cons.inj h).2
      have hmem : .checkpointEnded count ∈ (summarize task executed : List (Event T)) := by
        rw [hrest]
        simp
      exact absurd hmem summarize_ended

theorem Stepped.ended (h : Stepped loop events next) {before after : List (Event T)} {executed : Nat}
    (hevents : events = before ++ .checkpointEnded executed :: after) :
    (∀ event ∈ before, event = .checkpointBegan) ∧ loop.scheduler.microtasks = [] := by
  have hmem : .checkpointEnded executed ∈ events := by
    rw [hevents]
    simp
  cases h with
  | queued hinterval h => cases List.mem_singleton.mp hmem
  | cancelled handle => cases List.mem_singleton.mp hmem
  | advanced now => cases List.mem_singleton.mp hmem
  | cleared => cases List.mem_singleton.mp hmem
  | microtaskQueued payload => cases List.mem_singleton.mp hmem
  | nextDue due => cases List.mem_singleton.mp hmem
  | idle h => cases List.mem_singleton.mp hmem
  | started h => cases List.mem_singleton.mp hmem
  | checkpoint task h =>
    rw [performMicrotaskCheckpoint] at hevents hmem
    split at hevents
    · rename_i hperforming
      rw [if_pos hperforming] at hmem
      rcases List.mem_cons.mp hmem with heq | hmem
      · cases heq
      · exact absurd hmem summarize_ended
    · cases before with
      | nil => cases (List.cons.inj hevents).1
      | cons first before =>
        obtain ⟨rfl, hrest⟩ := List.cons.inj hevents
        obtain ⟨rfl, hmicrotasks⟩ := nextMicrotask_ended hrest
        exact ⟨fun event hevent => List.mem_singleton.mp hevent, hmicrotasks⟩
  | microtask h =>
    obtain ⟨rfl, hmicrotasks⟩ := nextMicrotask_ended hevents
    exact ⟨fun event hevent => absurd hevent List.not_mem_nil, hmicrotasks⟩

/-- When a checkpoint ends, all microtasks that were queued have been started. -/
theorem runs_ended {labels : List (List (Event T))} (h : Runs labels loop) {before after : List (Event T)}
    {executed : Nat} (hsplit : labels.flatten = before ++ .checkpointEnded executed :: after) :
    startedMicrotasks before = queuedMicrotasks before := by
  have hruns := runs_history (fun history loop =>
    queuedMicrotasks history = startedMicrotasks history ++ loop.scheduler.microtasks ∧
      ∀ before executed after, history = before ++ .checkpointEnded executed :: after →
        startedMicrotasks before = queuedMicrotasks before)
    ⟨rfl, fun before executed after h => absurd h (by simp)⟩ ?_ h
  · exact hruns.2 _ _ _ hsplit
  · rintro history loop events next ⟨hfifo, hended⟩ hstep
    constructor
    · rw [queuedMicrotasks, startedMicrotasks, List.foldl_append, List.foldl_append]
      exact hstep.microtasks hfifo
    · intro before executed after hsplit
      rcases append_eq_split hsplit with ⟨rest, hhistory, -⟩ | ⟨rest, rfl, hevents⟩
      · exact hended _ _ _ hhistory
      · obtain ⟨hbegan, hmicrotasks⟩ := hstep.ended hevents
        have hqueued : ∀ microtasks : List T, rest.foldl Event.queuedMicrotasks microtasks = microtasks :=
          foldl_queuedMicrotasks_checkpoint fun event hevent => by
            rw [hbegan event hevent]
            trivial
        have hstarted : ∀ microtasks : List T, rest.foldl Event.startedMicrotasks microtasks = microtasks := by
          clear hevents hsplit hqueued
          induction rest with
          | nil => exact fun _ => rfl
          | cons first rest ih =>
            intro microtasks
            rw [List.foldl_cons, hbegan first List.mem_cons_self]
            exact ih (fun event hevent => hbegan event (List.mem_cons_of_mem _ hevent)) microtasks
        rw [hmicrotasks, List.append_nil] at hfifo
        rw [queuedMicrotasks, startedMicrotasks, List.foldl_append, List.foldl_append, hqueued, hstarted]
        exact hfifo.symm

end EventLoop

end BetterWebBrowser.Scheduling
