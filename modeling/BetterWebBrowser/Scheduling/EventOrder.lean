import BetterWebBrowser.Scheduling.Order
import BetterWebBrowser.Scheduling.Microtasks

/-!
# What holds of every run

Pending tasks keep their work until they are cancelled, cleared or run; the results of the two
modules before are put together.
-/

namespace BetterWebBrowser.Scheduling

open Framework

variable {T : Type}

/-- An entry for the work of a task; a task of one run keeps its entry. -/
structure SameWork (task entry : QueuedTask T) : Prop where
  handle : entry.handle = task.handle
  source : entry.source = task.source
  repeatInterval : entry.repeatInterval = task.repeatInterval
  payload : entry.payload = task.payload
  once : task.repeatInterval = none → entry = task

theorem SameWork.refl (task : QueuedTask T) : SameWork task task := ⟨rfl, rfl, rfl, rfl, fun _ => rfl⟩

theorem SameWork.trans {a b c : QueuedTask T} (hab : SameWork a b) (hbc : SameWork b c) : SameWork a c where
  handle := hbc.handle.trans hab.handle
  source := hbc.source.trans hab.source
  repeatInterval := hbc.repeatInterval.trans hab.repeatInterval
  payload := hbc.payload.trans hab.payload
  once := fun h => (hbc.once (hab.repeatInterval.trans h)).trans (hab.once h)

theorem Duration.lt_saturatingAdd {now interval : Duration} (h : 0 < interval.val) :
    now < now.saturatingAdd interval ∨ now = MAX ∧ now.saturatingAdd interval = MAX := by
  rw [saturatingAdd]
  split
  · exact Or.inl (Fin.lt_def.mpr (Nat.lt_add_of_pos_right h))
  · by_cases hnow : now = MAX
    · exact Or.inr ⟨hnow, rfl⟩
    · refine Or.inl (lt_of_le_of_ne ?_ hnow)
      exact Fin.le_def.mpr (Nat.le_pred_of_lt now.isLt)

namespace EventLoop

variable {loop next : EventLoop T} {events : List (Event T)}

/-! ## The next task -/

/-- A task that starts is the least of the pending ones, and due. -/
theorem runOneTask_started (hs : loop.scheduler.Consistent) {task : RunnableTask T}
    (h : loop.runOneTask = some (next, [.started task])) :
    ∃ entry ∈ loop.scheduler.live, entry.runnable = task ∧ entry.due ≤ loop.scheduler.now ∧
      (∀ other ∈ loop.scheduler.live, other = entry ∨ entry.key < other.key) ∧
      (task.repeating = true → ∃ again ∈ next.scheduler.live, again.handle = task.handle ∧
        (loop.scheduler.now < again.due ∨ loop.scheduler.now = Duration.MAX ∧ again.due = Duration.MAX)) := by
  obtain ⟨⟨s, result⟩, hpop, heq⟩ := Option.map_eq_some_iff.mp h
  cases result with
  | none => cases (Prod.mk.inj heq).2
  | some runnable =>
    cases heq
    obtain ⟨hnone, -, -⟩ | ⟨front, rest, taken, hfront, hdue, hresult, htake⟩ :=
      EventLoopScheduler.popRunnableTask_cases hpop
    · cases hnone
    · obtain rfl := Option.some.inj hresult
      obtain ⟨hlive, hleast⟩ := hs.front_least hfront
      obtain ⟨rfl, hcases⟩ := EventLoopScheduler.takeTask_cases htake
      refine ⟨front, hlive, rfl, hdue, hleast, fun hrepeating => ?_⟩
      rcases hcases with ⟨hone, -⟩ | ⟨interval, hrepeat, rfl⟩
      · rw [QueuedTask.runnable, hone] at hrepeating
        cases hrepeating
      · have hactive : front.handle ∈ loop.scheduler.activeTasks := EventLoopScheduler.front_active hfront
        refine ⟨{ front with due := loop.scheduler.now.saturatingAdd interval,
                             sequence := loop.scheduler.nextSequence },
          EventLoopScheduler.mem_live.mpr ⟨SortedQueue.mem_push.mpr (Or.inl rfl), hactive⟩, rfl, ?_⟩
        exact Duration.lt_saturatingAdd
          (hs.interval_pos front (EventLoopScheduler.mem_live.mp hlive).1 interval hrepeat)

/-- No task starts only if none is due. -/
theorem runOneTask_idle (hs : loop.scheduler.Consistent) (h : loop.runOneTask = some (next, [.idle])) :
    ∀ entry ∈ loop.scheduler.live, loop.scheduler.now < entry.due := by
  intro entry hentry
  obtain ⟨⟨s, result⟩, hpop, heq⟩ := Option.map_eq_some_iff.mp h
  cases result with
  | some runnable => cases (Prod.mk.inj heq).2
  | none =>
    obtain ⟨-, -, hlater⟩ | ⟨front, rest, taken, -, -, hresult, -⟩ := EventLoopScheduler.popRunnableTask_cases hpop
    · cases hfront : loop.scheduler.discardCancelledFront.tasks.pop with
      | none =>
        rw [EventLoopScheduler.live_eq_nil hfront] at hentry
        cases hentry
      | some front =>
        obtain ⟨front, rest⟩ := front
        have hnow := hlater front rest hfront
        rcases (hs.front_least hfront).2 entry hentry with rfl | hlt
        · exact hnow
        · rcases Prod.Lex.toLex_lt_toLex.mp hlt with hlt | ⟨heq, -⟩
          · exact hnow.trans hlt
          · have hsame : front.due = entry.due := heq
            exact hsame ▸ hnow
    · cases hresult

/-! ## Pending work -/

/-- The work of an active handle stays in the queue. -/
theorem Stepped.sameWork (h : Stepped loop events next) {task : QueuedTask T}
    (htask : task ∈ loop.scheduler.tasks.entries) (hactive : task.handle ∈ loop.scheduler.activeTasks)
    (hnext : task.handle ∈ next.scheduler.activeTasks) :
    ∃ entry ∈ next.scheduler.tasks.entries, SameWork task entry := by
  have hdiscard := (EventLoopScheduler.mem_discardCancelledFront hactive).mpr htask
  cases h with
  | queued hinterval h =>
    obtain ⟨-, rfl⟩ := EventLoopScheduler.queueTaskInternal_eq h
    exact ⟨task, SortedQueue.mem_push.mpr (Or.inr htask), .refl task⟩
  | cancelled handle => exact ⟨task, htask, .refl task⟩
  | advanced now => exact ⟨task, htask, .refl task⟩
  | cleared => exact absurd hnext (Finset.notMem_empty _)
  | microtaskQueued payload => exact ⟨task, htask, .refl task⟩
  | nextDue due => exact ⟨task, hdiscard, .refl task⟩
  | idle h =>
    rw [activeTasks_idle h]
    exact ⟨task, hdiscard, .refl task⟩
  | @started s runnable h =>
    obtain ⟨hnone, -, -⟩ | ⟨front, rest, taken, hfront, -, -, htake⟩ := EventLoopScheduler.popRunnableTask_cases h
    · cases hnone
    · rw [SortedQueue.pop_eq_some.mp hfront, List.mem_cons] at hdiscard
      obtain ⟨-, ⟨hone, rfl⟩ | ⟨interval, hrepeat, rfl⟩⟩ := EventLoopScheduler.takeTask_cases htake
      · rcases hdiscard with rfl | hrest
        · exact absurd hnext (Finset.notMem_erase _ _)
        · exact ⟨task, hrest, .refl task⟩
      · rcases hdiscard with rfl | hrest
        · refine ⟨_, SortedQueue.mem_push.mpr (Or.inl rfl), ⟨rfl, rfl, rfl, rfl, fun hone => ?_⟩⟩
          rw [hrepeat] at hone
          cases hone
        · exact ⟨task, SortedQueue.mem_push.mpr (Or.inr hrest), .refl task⟩
  | checkpoint runs h =>
    rw [(sameTasks_performMicrotaskCheckpoint _ _ _).tasks]
    exact ⟨task, htask, .refl task⟩
  | microtask h =>
    rw [(sameTasks_nextMicrotask _ _ _ _).tasks]
    exact ⟨task, htask, .refl task⟩

theorem Stepped.queued_eq (h : Stepped loop events next) {task : QueuedTask T} (hqueued : .queued task ∈ events) :
    task ∈ next.scheduler.tasks.entries ∧ task.handle.id = loop.scheduler.nextHandle ∧
      next.scheduler.nextHandle = loop.scheduler.nextHandle + 1 := by
  have hcheckpoint : ∀ events : List (Event T), (∀ event ∈ events, IsCheckpoint event) → .queued task ∉ events :=
    fun events hall hmem => hall _ hmem
  cases h with
  | queued hinterval h =>
    cases List.mem_singleton.mp hqueued
    obtain ⟨htask, rfl⟩ := EventLoopScheduler.queueTaskInternal_eq h
    exact ⟨SortedQueue.mem_push.mpr (Or.inl rfl), by rw [htask], rfl⟩
  | cancelled handle => cases List.mem_singleton.mp hqueued
  | advanced now => cases List.mem_singleton.mp hqueued
  | cleared => cases List.mem_singleton.mp hqueued
  | microtaskQueued payload => cases List.mem_singleton.mp hqueued
  | nextDue due => cases List.mem_singleton.mp hqueued
  | idle h => cases List.mem_singleton.mp hqueued
  | started h => cases List.mem_singleton.mp hqueued
  | checkpoint task h => exact absurd hqueued (hcheckpoint _ (isCheckpoint_performMicrotaskCheckpoint _ _ _))
  | microtask h => exact absurd hqueued (hcheckpoint _ (isCheckpoint_nextMicrotask _ _ _ _))

/-- A queued task whose handle is active is in the queue. -/
theorem runs_kept {labels : List (List (Event T))} (h : Runs labels loop) {task : QueuedTask T}
    (hqueued : .queued task ∈ labels.flatten) (hactive : task.handle ∈ loop.scheduler.activeTasks) :
    ∃ entry ∈ loop.scheduler.tasks.entries, SameWork task entry := by
  have hruns := runs_history (fun history loop => ∀ task, .queued task ∈ history →
    task.handle.id < loop.scheduler.nextHandle ∧
      (task.handle ∈ loop.scheduler.activeTasks → ∃ entry ∈ loop.scheduler.tasks.entries, SameWork task entry))
    (fun task h => by cases h) ?_ h
  · exact (hruns task hqueued).2 hactive
  · intro history loop events next hkept hstep task hqueued
    rcases List.mem_append.mp hqueued with hqueued | hqueued
    · obtain ⟨hlt, hkept⟩ := hkept task hqueued
      refine ⟨hlt.trans_le hstep.nextHandle_le, fun hnext => ?_⟩
      have hactive := hstep.active_of_lt hlt hnext
      obtain ⟨entry, hentry, hsame⟩ := hkept hactive
      rw [← hsame.handle] at hactive hnext
      obtain ⟨later, hlater, hsame'⟩ := hstep.sameWork hentry hactive hnext
      exact ⟨later, hlater, hsame.trans hsame'⟩
    · obtain ⟨hmem, hid, hnext⟩ := hstep.queued_eq hqueued
      refine ⟨?_, fun _ => ⟨task, hmem, .refl task⟩⟩
      rw [hid, hnext]
      exact Nat.lt_succ_self _

/-! ## The order of events -/

/-- The order in which a scheduler does its work. -/
structure Ordered (history : List (Event T)) (loop : EventLoop T) : Prop where
  /-- The active handles are those with one live entry. -/
  active_iff : ∀ handle, handle ∈ loop.scheduler.activeTasks ↔
    (loop.scheduler.live.filter fun task => decide (task.handle = handle)).length = 1
  /-- The active handles are the pending ones. -/
  active_eq : loop.scheduler.activeTasks = pendingHandles history
  cancelled_iff : ∀ before handle pending after, history = before ++ .cancelled handle pending :: after →
    (pending = true ↔ handle ∈ pendingHandles before)
  /-- A task that was cancelled, or was run and does not repeat, is never run again. -/
  final : ∀ before event handle after, history = before ++ event :: after → event.Final handle →
    ∀ task, .started task ∈ after → task.handle ≠ handle
  /-- A task that starts is the least of the pending ones, and due; if it repeats, it is put back. -/
  started : ∀ next task, loop.runOneTask = some (next, [.started task]) →
    ∃ entry ∈ loop.scheduler.live, entry.runnable = task ∧ entry.due ≤ loop.scheduler.now ∧
      (∀ other ∈ loop.scheduler.live, other = entry ∨ entry.key < other.key) ∧
      (task.repeating = true → ∃ again ∈ next.scheduler.live, again.handle = task.handle ∧
        (loop.scheduler.now < again.due ∨ loop.scheduler.now = Duration.MAX ∧ again.due = Duration.MAX))
  idle : ∀ next, loop.runOneTask = some (next, [.idle]) →
    ∀ entry ∈ loop.scheduler.live, loop.scheduler.now < entry.due
  /-- What was queued and is still pending is in the queue, with its own work. -/
  kept : ∀ task, .queued task ∈ history → task.handle ∈ pendingHandles history →
    ∃ entry ∈ loop.scheduler.live, SameWork task entry
  /-- The microtasks that were started are the first of those that were queued, the others wait. -/
  microtasks : queuedMicrotasks history = startedMicrotasks history ++ loop.scheduler.microtasks
  ended : ∀ before executed after, history = before ++ .checkpointEnded executed :: after →
    startedMicrotasks before = queuedMicrotasks before
  /-- A checkpoint is open only while the callback of a microtask runs. -/
  open_iff : openCheckpoint history = true ↔ ∃ task executed, .microtask task executed ∈ loop.callbacks
  /-- The callback of a task is followed by a checkpoint. -/
  checkpoint : ∀ handle callbacks, loop.callbacks = .task handle :: callbacks → openCheckpoint history = false →
    ∃ next events, loop.finish = some (next, .checkpointBegan :: events)

/-- Every run of an event loop keeps the order. -/
theorem event_loop_order {labels : List (List (Event T))} (h : Runs labels loop) : Ordered labels.flatten loop := by
  have hs := runs_consistent h
  constructor
  · exact hs.active_iff
  · exact runs_activeTasks h
  · exact fun before handle pending after hsplit => runs_cancelled h hsplit
  · exact fun before event handle after hsplit hfinal task hstarted => runs_final h hsplit hfinal hstarted
  · exact fun next task hstarted => runOneTask_started hs hstarted
  · exact fun next hidle => runOneTask_idle hs hidle
  · intro task hqueued hpending
    rw [← runs_activeTasks h] at hpending
    obtain ⟨entry, hentry, hsame⟩ := runs_kept h hqueued hpending
    rw [← hsame.handle] at hpending
    exact ⟨entry, EventLoopScheduler.mem_live.mpr ⟨hentry, hpending⟩, hsame⟩
  · exact runs_microtasks h
  · exact fun before executed after hsplit => runs_ended h hsplit
  · exact runs_open_iff h
  · intro handle callbacks hcallbacks hclosed
    rw [← runs_openCheckpoint h] at hclosed
    rw [finish, hcallbacks]
    dsimp only
    rw [performMicrotaskCheckpoint, if_neg (by rw [hclosed]; exact Bool.false_ne_true)]
    exact ⟨_, _, rfl⟩

/-! ## Runs on given calls -/

/-- The calls one after the other. -/
def run (loop : EventLoop T) : List (Action T) → Option (EventLoop T × List (List (Event T)))
  | [] => some (loop, [])
  | action :: actions => do
    let (next, events) ← loop.step action
    let (last, labels) ← next.run actions
    return (last, events :: labels)

theorem runs_run {labels labels' : List (List (Event T))} {last : EventLoop T} {actions : List (Action T)}
    (h : Runs labels loop) (hrun : loop.run actions = some (last, labels')) : Runs (labels ++ labels') last := by
  induction actions generalizing loop labels labels' with
  | nil =>
    obtain ⟨rfl, rfl⟩ := Prod.mk.inj (Option.some.inj hrun)
    rw [List.append_nil]
    exact h
  | cons action actions ih =>
    rw [run] at hrun
    obtain ⟨⟨next, events⟩, hstep, hrest⟩ := Option.bind_eq_some_iff.mp hrun
    obtain ⟨⟨last', rest⟩, hlast, heq⟩ := Option.bind_eq_some_iff.mp hrest
    obtain ⟨rfl, rfl⟩ := Prod.mk.inj (Option.some.inj heq)
    have hnext : Runs (labels ++ [events]) next := Run.snoc h ⟨action, hstep⟩
    have hdone := ih hnext hlast
    rwa [List.append_assoc] at hdone

private def startOf : Event Nat → Option (Sum Nat Nat)
  | .started task => some (.inl task.payload)
  | .microtaskStarted payload => some (.inr payload)
  | _ => none

/-- At `Duration::MAX` a repeating task is put back at the clock, not after it. A microtask that is
cleared is not started by the next checkpoint. A microtask's callback that runs a task starts it
before the microtasks that wait. -/
theorem scheduling_exceptions :
    (new.run [.advanceTo Duration.MAX, .queueRepeatingTask .Timer Duration.ZERO Duration.ZERO 7, .runOneTask]).map
        (fun result => (result.1.scheduler.now, result.1.scheduler.live.map QueuedTask.due)) =
      some (Duration.MAX, [Duration.MAX]) ∧
    (new.run [.queueMicrotask 9, .clear, .performMicrotaskCheckpoint]).map (fun result => result.2.flatten) =
      some [.microtaskQueued 9, .cleared, .checkpointBegan, .checkpointEnded 0] ∧
    (new.run [.queueTask .Lifecycle Duration.ZERO 1, .queueTask .Lifecycle Duration.ZERO 2, .runOneTask,
        .queueMicrotask 3, .queueMicrotask 4, .finish, .runOneTask, .finish, .finish]).map
        (fun result => result.2.flatten.filterMap startOf) =
      some [.inl 1, .inr 3, .inl 2, .inr 4] := by
  refine ⟨?_, ?_, ?_⟩
  · decide +kernel
  · decide +kernel
  · decide +kernel

/-- A task that repeats and queues a microtask each time. -/
private def loopActions : List (Action Nat) :=
  [.queueRepeatingTask .Timer Duration.ZERO Duration.ZERO 7, .queueTask .Lifecycle Duration.ZERO 8, .runOneTask,
    .queueMicrotask 9, .finish, .finish, .runOneTask, .cancel ⟨1⟩, .finish]

theorem event_loop_order_sample :
    ∃ labels loop, (new.run loopActions) = some (loop, labels) ∧ Ordered labels.flatten loop ∧
      startedMicrotasks labels.flatten = [9] ∧ pendingHandles labels.flatten = ∅ := by
  cases hrun : new.run loopActions with
  | none => exact absurd hrun (by decide +kernel)
  | some result =>
    obtain ⟨loop, labels⟩ := result
    have hevents : (new.run loopActions).map (fun result => startedMicrotasks result.2.flatten) = some [9] := by
      decide +kernel
    have hpending : (new.run loopActions).map (fun result => pendingHandles result.2.flatten) = some ∅ := by
      decide +kernel
    rw [hrun] at hevents hpending
    exact ⟨labels, loop, rfl, event_loop_order (runs_run Run.nil hrun), Option.some.inj hevents,
      Option.some.inj hpending⟩

end EventLoop

end BetterWebBrowser.Scheduling
