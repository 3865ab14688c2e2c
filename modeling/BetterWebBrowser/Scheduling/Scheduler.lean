import BetterWebBrowser.Framework.SortedQueue
import BetterWebBrowser.Framework.Transition
import Mathlib.Data.Finset.Basic
import Mathlib.Data.Fintype.Basic
import Mathlib.Data.Prod.Lex

/-!
# The event loop's scheduler

One queue of tasks ordered by due time and insertion sequence, a set of active handles beside
it, and a queue of microtasks. A callback may call the scheduler again, so the event loop
carries the callbacks that run, the innermost first.
-/

namespace BetterWebBrowser.Scheduling

open Framework

/-- Nanoseconds, up to `Duration::MAX`. -/
abbrev Duration := Fin (2 ^ 64 * 1000000000)

namespace Duration

def ZERO : Duration := ⟨0, by decide⟩

def MAX : Duration := ⟨2 ^ 64 * 1000000000 - 1, by decide⟩

def saturatingAdd (a b : Duration) : Duration :=
  if h : a.val + b.val < 2 ^ 64 * 1000000000 then ⟨a.val + b.val, h⟩ else MAX

end Duration

def MINIMUM_REPEAT_INTERVAL : Duration := ⟨1, by decide⟩

structure TaskHandle where
  id : Nat
deriving DecidableEq

inductive TaskSource
  | Timer
  | IdleTask
  | Networking
  | MediaElement
  | FontLoading
  | PerformanceTimeline
  | UserInteraction
  | Lifecycle
  | DomManipulation
  | Rendering
deriving DecidableEq

structure RunnableTask (T : Type) where
  handle : TaskHandle
  source : TaskSource
  scheduledFor : Duration
  repeating : Bool
  payload : T
deriving DecidableEq

structure RunSummary where
  task : TaskHandle
  microtasksRun : Nat
deriving DecidableEq

structure QueuedTask (T : Type) where
  due : Duration
  sequence : Nat
  handle : TaskHandle
  source : TaskSource
  repeatInterval : Option Duration
  payload : T
deriving DecidableEq

/-- The order of the queue. -/
def QueuedTask.key {T : Type} (task : QueuedTask T) : Duration ×ₗ Nat := toLex (task.due, task.sequence)

def QueuedTask.runnable {T : Type} (task : QueuedTask T) : RunnableTask T :=
  ⟨task.handle, task.source, task.due, task.repeatInterval.isSome, task.payload⟩

structure EventLoopScheduler (T : Type) where
  now : Duration
  tasks : SortedQueue (QueuedTask.key (T := T))
  activeTasks : Finset TaskHandle
  microtasks : List T
  nextHandle : Nat
  nextSequence : Nat
  performingMicrotaskCheckpoint : Bool

namespace EventLoopScheduler

variable {T : Type}

def new : EventLoopScheduler T := ⟨Duration.ZERO, .empty, ∅, [], 1, 0, false⟩

def advanceTo (s : EventLoopScheduler T) (now : Duration) : EventLoopScheduler T := { s with now := max s.now now }

/-- `none` here and below: the `u64` counter is exhausted and the call panics. -/
def takeHandle (s : EventLoopScheduler T) : Option (TaskHandle × EventLoopScheduler T) :=
  if s.nextHandle + 1 < 2 ^ 64 then some (⟨s.nextHandle⟩, { s with nextHandle := s.nextHandle + 1 }) else none

def takeSequence (s : EventLoopScheduler T) : Option (Nat × EventLoopScheduler T) :=
  if s.nextSequence + 1 < 2 ^ 64 then some (s.nextSequence, { s with nextSequence := s.nextSequence + 1 }) else none

def queueTaskInternal (s : EventLoopScheduler T) (source : TaskSource) (delay : Duration)
    (repeatInterval : Option Duration) (payload : T) : Option (QueuedTask T × EventLoopScheduler T) := do
  let (handle, s) ← s.takeHandle
  let (sequence, s) ← s.takeSequence
  let task := ⟨s.now.saturatingAdd delay, sequence, handle, source, repeatInterval, payload⟩
  return (task, { s with tasks := s.tasks.push task, activeTasks := insert handle s.activeTasks })

def queueTask (s : EventLoopScheduler T) (source : TaskSource) (delay : Duration) (payload : T) :
    Option (QueuedTask T × EventLoopScheduler T) := s.queueTaskInternal source delay none payload

def queueRepeatingTask (s : EventLoopScheduler T) (source : TaskSource) (delay interval : Duration) (payload : T) :
    Option (QueuedTask T × EventLoopScheduler T) :=
  s.queueTaskInternal source delay (some (max interval MINIMUM_REPEAT_INTERVAL)) payload

def cancel (s : EventLoopScheduler T) (handle : TaskHandle) : EventLoopScheduler T × Bool :=
  ({ s with activeTasks := s.activeTasks.erase handle }, decide (handle ∈ s.activeTasks))

def queueMicrotask (s : EventLoopScheduler T) (payload : T) : EventLoopScheduler T :=
  { s with microtasks := s.microtasks ++ [payload] }

def clear (s : EventLoopScheduler T) : EventLoopScheduler T :=
  { s with tasks := .empty, activeTasks := ∅, microtasks := [] }

def discardCancelledFront (s : EventLoopScheduler T) : EventLoopScheduler T :=
  { s with tasks := s.tasks.dropFront fun task => decide (task.handle ∉ s.activeTasks) }

def nextDueTime (s : EventLoopScheduler T) : EventLoopScheduler T × Option Duration :=
  (s.discardCancelledFront, s.discardCancelledFront.tasks.peek.map QueuedTask.due)

/-- The task that was taken from the front, when it is to run. -/
def takeTask (s : EventLoopScheduler T) (task : QueuedTask T) :
    Option (EventLoopScheduler T × RunnableTask T) :=
  match task.repeatInterval with
  | some interval => do
    let (sequence, s) ← s.takeSequence
    let again := { task with due := s.now.saturatingAdd interval, sequence := sequence }
    return ({ s with tasks := s.tasks.push again }, task.runnable)
  | none => some ({ s with activeTasks := s.activeTasks.erase task.handle }, task.runnable)

def popRunnableTask (s : EventLoopScheduler T) : Option (EventLoopScheduler T × Option (RunnableTask T)) :=
  match s.discardCancelledFront.tasks.pop with
  | none => some (s.discardCancelledFront, none)
  | some (task, rest) =>
    if s.now < task.due then some (s.discardCancelledFront, none)
    else (takeTask { s.discardCancelledFront with tasks := rest } task).map fun (s, task) => (s, some task)

end EventLoopScheduler

/-! ## Callbacks -/

/-- A callback that runs: of a task, or of a microtask in a checkpoint, which may belong to a task
and has run some microtasks before. -/
inductive Callback
  | task (handle : TaskHandle)
  | microtask (task : Option TaskHandle) (executed : Nat)
deriving DecidableEq

/-- What the calls return and which callbacks they start. -/
inductive Event (T : Type)
  | queued (task : QueuedTask T)
  | cancelled (handle : TaskHandle) (pending : Bool)
  | advanced (now : Duration)
  | cleared
  | nextDue (due : Option Duration)
  | microtaskQueued (payload : T)
  | idle
  | started (task : RunnableTask T)
  | checkpointIgnored
  | checkpointBegan
  | microtaskStarted (payload : T)
  | checkpointEnded (executed : Nat)
  | finished (summary : RunSummary)
deriving DecidableEq

structure EventLoop (T : Type) where
  scheduler : EventLoopScheduler T
  callbacks : List Callback

namespace EventLoop

variable {T : Type}

def new : EventLoop T := ⟨.new, []⟩

def summarize (task : Option TaskHandle) (executed : Nat) : List (Event T) :=
  task.toList.map fun handle => .finished ⟨handle, executed⟩

/-- One round of the loop of a checkpoint: the next microtask's callback starts, or the checkpoint ends. -/
def nextMicrotask (s : EventLoopScheduler T) (callbacks : List Callback) (task : Option TaskHandle)
    (executed : Nat) : EventLoop T × List (Event T) :=
  match s.microtasks with
  | payload :: microtasks =>
    (⟨{ s with microtasks := microtasks }, .microtask task executed :: callbacks⟩, [.microtaskStarted payload])
  | [] =>
    (⟨{ s with performingMicrotaskCheckpoint := false }, callbacks⟩, .checkpointEnded executed :: summarize task executed)

def performMicrotaskCheckpoint (s : EventLoopScheduler T) (callbacks : List Callback) (task : Option TaskHandle) :
    EventLoop T × List (Event T) :=
  if s.performingMicrotaskCheckpoint then (⟨s, callbacks⟩, .checkpointIgnored :: summarize task 0)
  else
    let (loop, events) := nextMicrotask { s with performingMicrotaskCheckpoint := true } callbacks task 0
    (loop, .checkpointBegan :: events)

/-- Up to the start of the task's callback. -/
def runOneTask (loop : EventLoop T) : Option (EventLoop T × List (Event T)) :=
  loop.scheduler.popRunnableTask.map fun (s, task) =>
    match task with
    | none => (⟨s, loop.callbacks⟩, [.idle])
    | some task => (⟨s, .task task.handle :: loop.callbacks⟩, [.started task])

/-- The innermost callback returns. -/
def finish (loop : EventLoop T) : Option (EventLoop T × List (Event T)) :=
  match loop.callbacks with
  | [] => none
  | .task handle :: callbacks => some (performMicrotaskCheckpoint loop.scheduler callbacks (some handle))
  | .microtask task executed :: callbacks => some (nextMicrotask loop.scheduler callbacks task (executed + 1))

/-- What the owner, or the callback that runs, does next. -/
inductive Action (T : Type)
  | queueTask (source : TaskSource) (delay : Duration) (payload : T)
  | queueRepeatingTask (source : TaskSource) (delay interval : Duration) (payload : T)
  | cancel (handle : TaskHandle)
  | advanceTo (now : Duration)
  | clear
  | queueMicrotask (payload : T)
  | nextDueTime
  | runOneTask
  | performMicrotaskCheckpoint
  | finish

def queued (loop : EventLoop T) (result : Option (QueuedTask T × EventLoopScheduler T)) :
    Option (EventLoop T × List (Event T)) :=
  result.map fun (task, s) => (⟨s, loop.callbacks⟩, [.queued task])

def step (loop : EventLoop T) : Action T → Option (EventLoop T × List (Event T))
  | .queueTask source delay payload => loop.queued (loop.scheduler.queueTask source delay payload)
  | .queueRepeatingTask source delay interval payload =>
    loop.queued (loop.scheduler.queueRepeatingTask source delay interval payload)
  | .cancel handle =>
    some (⟨(loop.scheduler.cancel handle).1, loop.callbacks⟩, [.cancelled handle (loop.scheduler.cancel handle).2])
  | .advanceTo now => some (⟨loop.scheduler.advanceTo now, loop.callbacks⟩, [.advanced now])
  | .clear => some (⟨loop.scheduler.clear, loop.callbacks⟩, [.cleared])
  | .queueMicrotask payload => some (⟨loop.scheduler.queueMicrotask payload, loop.callbacks⟩, [.microtaskQueued payload])
  | .nextDueTime => some (⟨loop.scheduler.nextDueTime.1, loop.callbacks⟩, [.nextDue loop.scheduler.nextDueTime.2])
  | .runOneTask => loop.runOneTask
  | .performMicrotaskCheckpoint => some (performMicrotaskCheckpoint loop.scheduler loop.callbacks none)
  | .finish => loop.finish

/-- A step with the events it gives. -/
def Steps (loop : EventLoop T) (events : List (Event T)) (next : EventLoop T) : Prop :=
  ∃ action, loop.step action = some (next, events)

/-- The events of a run. -/
abbrev Runs (events : List (List (Event T))) (loop : EventLoop T) : Prop := Run Steps new events loop

end EventLoop

end BetterWebBrowser.Scheduling
