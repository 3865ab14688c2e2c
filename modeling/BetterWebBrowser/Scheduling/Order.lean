import BetterWebBrowser.Scheduling.History

/-!
# Scheduling order

In every run the least due task is taken, a cancelled or finished handle is never run again, a
pending task keeps its work, and the microtasks are started in the order in which they came.
-/

namespace BetterWebBrowser.Scheduling

open Framework

variable {T : Type}

namespace EventLoop

variable {loop next : EventLoop T} {events : List (Event T)}

/-! ## Handles that are done -/

/-- A handle that was given out and is not active. -/
def Gone (handle : TaskHandle) (s : EventLoopScheduler T) : Prop :=
  handle.id < s.nextHandle ∧ handle ∉ s.activeTasks

theorem popRunnableTask_active {s s' : EventLoopScheduler T} {task : RunnableTask T}
    (h : s.popRunnableTask = some (s', some task)) : task.handle ∈ s.activeTasks := by
  obtain ⟨hnone, -, -⟩ | ⟨front, rest, runnable, hpop, -, hresult, htake⟩ :=
    EventLoopScheduler.popRunnableTask_cases h
  · cases hnone
  · obtain rfl := Option.some.inj hresult
    rw [(EventLoopScheduler.takeTask_cases htake).1]
    exact EventLoopScheduler.front_active hpop

theorem popRunnableTask_nextHandle {s s' : EventLoopScheduler T} {result : Option (RunnableTask T)}
    (h : s.popRunnableTask = some (s', result)) : s'.nextHandle = s.nextHandle := by
  obtain ⟨-, rfl, -⟩ | ⟨front, rest, runnable, -, -, -, htake⟩ := EventLoopScheduler.popRunnableTask_cases h
  · rfl
  · obtain ⟨-, ⟨-, rfl⟩ | ⟨interval, -, rfl⟩⟩ := EventLoopScheduler.takeTask_cases htake
    · rfl
    · rfl

theorem Stepped.nextHandle_le (h : Stepped loop events next) :
    loop.scheduler.nextHandle ≤ next.scheduler.nextHandle := by
  cases h with
  | queued hinterval h =>
    obtain ⟨-, rfl⟩ := EventLoopScheduler.queueTaskInternal_eq h
    exact Nat.le_succ _
  | cancelled handle => exact le_rfl
  | advanced now => exact le_rfl
  | cleared => exact le_rfl
  | microtaskQueued payload => exact le_rfl
  | nextDue due => exact le_rfl
  | idle h => exact (popRunnableTask_nextHandle h).ge
  | started h => exact (popRunnableTask_nextHandle h).ge
  | checkpoint task h => exact (sameTasks_performMicrotaskCheckpoint _ _ _).nextHandle.ge
  | microtask h => exact (sameTasks_nextMicrotask _ _ _ _).nextHandle.ge

/-- A handle is made active only when it is given out. -/
theorem Stepped.active_of_lt (h : Stepped loop events next) {handle : TaskHandle}
    (hlt : handle.id < loop.scheduler.nextHandle) (hactive : handle ∈ next.scheduler.activeTasks) :
    handle ∈ loop.scheduler.activeTasks := by
  cases h with
  | queued hinterval h =>
    obtain ⟨-, rfl⟩ := EventLoopScheduler.queueTaskInternal_eq h
    rcases Finset.mem_insert.mp hactive with rfl | hactive
    · exact absurd hlt (lt_irrefl _)
    · exact hactive
  | cancelled other => exact Finset.mem_of_mem_erase hactive
  | advanced now => exact hactive
  | cleared => exact absurd hactive (Finset.notMem_empty _)
  | microtaskQueued payload => exact hactive
  | nextDue due => exact hactive
  | idle h =>
    rw [activeTasks_idle h] at hactive
    exact hactive
  | started h =>
    change handle ∈ _ at hactive
    rw [activeTasks_popRunnableTask h] at hactive
    split at hactive
    · exact hactive
    · exact Finset.mem_of_mem_erase hactive
  | checkpoint task h => exact (sameTasks_performMicrotaskCheckpoint _ _ _).activeTasks ▸ hactive
  | microtask h => exact (sameTasks_nextMicrotask _ _ _ _).activeTasks ▸ hactive

theorem Stepped.gone (h : Stepped loop events next) {handle : TaskHandle} (hgone : Gone handle loop.scheduler) :
    Gone handle next.scheduler :=
  ⟨hgone.1.trans_le h.nextHandle_le, fun hactive => hgone.2 (h.active_of_lt hgone.1 hactive)⟩

/-- What is started was active, and nothing else happens in the step. -/
theorem Stepped.started_active (h : Stepped loop events next) {task : RunnableTask T}
    (hstarted : .started task ∈ events) : task.handle ∈ loop.scheduler.activeTasks ∧ events = [.started task] := by
  have hcheckpoint : ∀ events : List (Event T), (∀ event ∈ events, IsCheckpoint event) → .started task ∉ events :=
    fun events hall hmem => hall _ hmem
  cases h with
  | queued hinterval h => cases List.mem_singleton.mp hstarted
  | cancelled handle => cases List.mem_singleton.mp hstarted
  | advanced now => cases List.mem_singleton.mp hstarted
  | cleared => cases List.mem_singleton.mp hstarted
  | microtaskQueued payload => cases List.mem_singleton.mp hstarted
  | nextDue due => cases List.mem_singleton.mp hstarted
  | idle h => cases List.mem_singleton.mp hstarted
  | started h =>
    cases List.mem_singleton.mp hstarted
    exact ⟨popRunnableTask_active h, rfl⟩
  | checkpoint task h => exact absurd hstarted (hcheckpoint _ (isCheckpoint_performMicrotaskCheckpoint _ _ _))
  | microtask h => exact absurd hstarted (hcheckpoint _ (isCheckpoint_nextMicrotask _ _ _ _))

/-- A cancellation is a step of its own. -/
theorem Stepped.cancelled_eq (h : Stepped loop events next) {handle : TaskHandle} {pending : Bool}
    (hcancelled : .cancelled handle pending ∈ events) :
    events = [.cancelled handle pending] ∧ pending = decide (handle ∈ loop.scheduler.activeTasks) := by
  have hcheckpoint : ∀ events : List (Event T), (∀ event ∈ events, IsCheckpoint event) →
      .cancelled handle pending ∉ events := fun events hall hmem => hall _ hmem
  cases h with
  | queued hinterval h => cases List.mem_singleton.mp hcancelled
  | cancelled other =>
    cases List.mem_singleton.mp hcancelled
    exact ⟨rfl, rfl⟩
  | advanced now => cases List.mem_singleton.mp hcancelled
  | cleared => cases List.mem_singleton.mp hcancelled
  | microtaskQueued payload => cases List.mem_singleton.mp hcancelled
  | nextDue due => cases List.mem_singleton.mp hcancelled
  | idle h => cases List.mem_singleton.mp hcancelled
  | started h => cases List.mem_singleton.mp hcancelled
  | checkpoint task h => exact absurd hcancelled (hcheckpoint _ (isCheckpoint_performMicrotaskCheckpoint _ _ _))
  | microtask h => exact absurd hcancelled (hcheckpoint _ (isCheckpoint_nextMicrotask _ _ _ _))

/-- A handle is done after its final event, which ends the step. -/
theorem Stepped.final (h : Stepped loop events next) (hs : loop.scheduler.Consistent) {event : Event T}
    {handle : TaskHandle} (hfinal : event.Final handle) (hmem : event ∈ events) :
    events = [event] ∧ Gone handle next.scheduler := by
  have hgone : handle ∈ loop.scheduler.activeTasks → handle ∉ next.scheduler.activeTasks →
      Gone handle next.scheduler := by
    intro hactive hnot
    obtain ⟨task, htask, rfl⟩ := hs.active handle hactive
    exact ⟨(hs.handle_lt task htask).trans_le h.nextHandle_le, hnot⟩
  cases event with
  | cancelled other pending =>
    obtain ⟨rfl, rfl⟩ := hfinal
    obtain ⟨rfl, hpending⟩ := h.cancelled_eq hmem
    refine ⟨rfl, hgone (of_decide_eq_true hpending.symm) ?_⟩
    rw [h.activeTasks]
    exact Finset.notMem_erase _ _
  | started task =>
    obtain ⟨rfl, hone⟩ := hfinal
    obtain ⟨hactive, rfl⟩ := h.started_active hmem
    refine ⟨rfl, hgone hactive ?_⟩
    rw [h.activeTasks, List.foldl_cons, List.foldl_nil, Event.pending, if_neg (by rw [hone]; exact Bool.false_ne_true)]
    exact Finset.notMem_erase _ _
  | _ => cases hfinal

/-- After its final event a handle is never run again. -/
theorem runs_final {labels : List (List (Event T))} (h : Runs labels loop) {before after : List (Event T)}
    {event : Event T} {handle : TaskHandle} (hsplit : labels.flatten = before ++ event :: after)
    (hfinal : event.Final handle) {task : RunnableTask T} (hstarted : .started task ∈ after) :
    task.handle ≠ handle := by
  have hruns := runs_history (fun history loop => loop.scheduler.Consistent ∧
    ∀ before event after, history = before ++ event :: after → event.Final handle →
      Gone handle loop.scheduler ∧ ∀ task, .started task ∈ after → task.handle ≠ handle)
    ⟨EventLoopScheduler.consistent_new, fun before event after h => absurd h (by simp)⟩ ?_ h
  · exact (hruns.2 _ _ _ hsplit hfinal).2 task hstarted
  · rintro history loop events next ⟨hs, hgone⟩ hstep
    refine ⟨hstep.consistent hs, fun before event after hsplit hfinal => ?_⟩
    rcases append_eq_split hsplit with ⟨rest, hhistory, rfl⟩ | ⟨rest, rfl, hevents⟩
    · obtain ⟨hgone, hnever⟩ := hgone _ _ _ hhistory hfinal
      refine ⟨hstep.gone hgone, fun task hstarted => ?_⟩
      rcases List.mem_append.mp hstarted with hstarted | hstarted
      · exact hnever task hstarted
      · intro heq
        exact hgone.2 (heq ▸ (hstep.started_active hstarted).1)
    · obtain ⟨hsingle, hgone⟩ := hstep.final hs hfinal (by rw [hevents]; simp)
      rw [hevents, List.append_eq_singleton_iff] at hsingle
      obtain ⟨-, hafter⟩ | ⟨-, hafter⟩ := hsingle
      · obtain rfl := (List.cons.inj hafter).2
        exact ⟨hgone, fun task hstarted => by cases hstarted⟩
      · cases hafter

/-- A cancellation tells whether the handle was pending. -/
theorem runs_cancelled {labels : List (List (Event T))} (h : Runs labels loop) {before after : List (Event T)}
    {handle : TaskHandle} {pending : Bool} (hsplit : labels.flatten = before ++ .cancelled handle pending :: after) :
    pending = true ↔ handle ∈ pendingHandles before := by
  have hruns := runs_history (fun history loop => loop.scheduler.activeTasks = pendingHandles history ∧
    ∀ before handle pending after, history = before ++ .cancelled handle pending :: after →
      (pending = true ↔ handle ∈ pendingHandles before))
    ⟨rfl, fun before handle pending after h => absurd h (by simp)⟩ ?_ h
  · exact hruns.2 _ _ _ _ hsplit
  · rintro history loop events next ⟨hactive, htold⟩ hstep
    constructor
    · rw [hstep.activeTasks, hactive, pendingHandles, pendingHandles, List.foldl_append]
    · intro before handle pending after hsplit
      rcases append_eq_split hsplit with ⟨rest, hhistory, -⟩ | ⟨rest, rfl, hevents⟩
      · exact htold _ _ _ _ hhistory
      · have hmem : .cancelled handle pending ∈ events := by
          rw [hevents]
          simp
        obtain ⟨hsingle, rfl⟩ := hstep.cancelled_eq hmem
        rw [hevents, List.append_eq_singleton_iff] at hsingle
        obtain ⟨rfl, -⟩ | ⟨-, hafter⟩ := hsingle
        · rw [List.append_nil, ← hactive, decide_eq_true_eq]
        · cases hafter

end EventLoop

end BetterWebBrowser.Scheduling
