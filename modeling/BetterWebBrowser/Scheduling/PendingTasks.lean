import BetterWebBrowser.Scheduling.Scheduler

/-!
# Pending tasks

Cancelling only takes a handle out of the set, so the queue may hold entries that are no longer
active. No handle has two entries, and every active handle has one.
-/

namespace BetterWebBrowser.Scheduling

open Framework

namespace EventLoopScheduler

variable {T : Type} {s s' : EventLoopScheduler T}

/-- Handles and sequence numbers are used once, and what is active is in the queue. -/
structure Consistent (s : EventLoopScheduler T) : Prop where
  handles : (s.tasks.entries.map QueuedTask.handle).Nodup
  sequences : (s.tasks.entries.map QueuedTask.sequence).Nodup
  active : ∀ handle ∈ s.activeTasks, ∃ task ∈ s.tasks.entries, task.handle = handle
  handle_lt : ∀ task ∈ s.tasks.entries, task.handle.id < s.nextHandle
  sequence_lt : ∀ task ∈ s.tasks.entries, task.sequence < s.nextSequence
  interval_pos : ∀ task ∈ s.tasks.entries, ∀ interval, task.repeatInterval = some interval → 0 < interval.val

/-- The entries of active handles. -/
def live (s : EventLoopScheduler T) : List (QueuedTask T) :=
  s.tasks.entries.filter fun task => decide (task.handle ∈ s.activeTasks)

theorem mem_live {task : QueuedTask T} :
    task ∈ s.live ↔ task ∈ s.tasks.entries ∧ task.handle ∈ s.activeTasks := by
  rw [live, List.mem_filter, decide_eq_true_eq]

/-! ## What the calls do -/

theorem queueTaskInternal_eq {source : TaskSource} {delay : Duration} {repeatInterval : Option Duration}
    {payload : T} {task : QueuedTask T}
    (h : s.queueTaskInternal source delay repeatInterval payload = some (task, s')) :
    task = ⟨s.now.saturatingAdd delay, s.nextSequence, ⟨s.nextHandle⟩, source, repeatInterval, payload⟩ ∧
      s' = { s with
        tasks := s.tasks.push task
        activeTasks := insert ⟨s.nextHandle⟩ s.activeTasks
        nextHandle := s.nextHandle + 1
        nextSequence := s.nextSequence + 1 } := by
  rw [queueTaskInternal, takeHandle] at h
  split at h
  · rw [Option.bind_eq_bind, Option.bind_some] at h
    dsimp only at h
    rw [takeSequence] at h
    split at h
    · cases h
      exact ⟨rfl, rfl⟩
    · cases h
  · cases h

theorem takeTask_cases {task : QueuedTask T} {runnable : RunnableTask T}
    (h : s.takeTask task = some (s', runnable)) :
    runnable = task.runnable ∧
      ((task.repeatInterval = none ∧ s' = { s with activeTasks := s.activeTasks.erase task.handle }) ∨
        ∃ interval, task.repeatInterval = some interval ∧
          s' = { s with
            tasks := s.tasks.push
              { task with due := s.now.saturatingAdd interval, sequence := s.nextSequence }
            nextSequence := s.nextSequence + 1 }) := by
  rw [takeTask] at h
  cases hrepeat : task.repeatInterval with
  | none =>
    rw [hrepeat] at h
    cases h
    exact ⟨rfl, Or.inl ⟨rfl, rfl⟩⟩
  | some interval =>
    rw [hrepeat, takeSequence] at h
    dsimp only at h
    split at h
    · cases h
      exact ⟨rfl, Or.inr ⟨interval, rfl, rfl⟩⟩
    · cases h

theorem popRunnableTask_cases {result : Option (RunnableTask T)} (h : s.popRunnableTask = some (s', result)) :
    (result = none ∧ s' = s.discardCancelledFront ∧
        ∀ task rest, s.discardCancelledFront.tasks.pop = some (task, rest) → s.now < task.due) ∨
      ∃ task rest runnable, s.discardCancelledFront.tasks.pop = some (task, rest) ∧ task.due ≤ s.now ∧
        result = some runnable ∧
        takeTask { s.discardCancelledFront with tasks := rest } task = some (s', runnable) := by
  rw [popRunnableTask] at h
  split at h
  · rename_i hnone
    cases h
    refine Or.inl ⟨rfl, rfl, fun task rest hpop => ?_⟩
    rw [hnone] at hpop
    cases hpop
  · rename_i task rest hpop
    split at h
    · rename_i hlt
      cases h
      refine Or.inl ⟨rfl, rfl, fun other others hother => ?_⟩
      rw [hpop] at hother
      cases hother
      exact hlt
    · rename_i hle
      obtain ⟨⟨next, runnable⟩, htake, heq⟩ := Option.map_eq_some_iff.mp h
      cases heq
      exact Or.inr ⟨task, rest, runnable, hpop, not_lt.mp hle, rfl, htake⟩

/-! ## The front -/

/-- What is active is not discarded. -/
theorem mem_discardCancelledFront {task : QueuedTask T} (h : task.handle ∈ s.activeTasks) :
    task ∈ s.discardCancelledFront.tasks.entries ↔ task ∈ s.tasks.entries :=
  SortedQueue.mem_dropFront (by simpa using h)

theorem front_active {task : QueuedTask T} {rest : SortedQueue QueuedTask.key}
    (h : s.discardCancelledFront.tasks.pop = some (task, rest)) : task.handle ∈ s.activeTasks := by
  have hfront := SortedQueue.dropFront_pop h
  simpa using hfront

/-- Two entries with different sequence numbers have different keys. -/
theorem Consistent.key_injective (hs : s.Consistent) {a b : QueuedTask T} (ha : a ∈ s.tasks.entries)
    (hb : b ∈ s.tasks.entries) (h : a.key = b.key) : a = b := by
  have hsequence : a.sequence = b.sequence := congrArg (fun key : Duration ×ₗ Nat => (ofLex key).2) h
  exact List.inj_on_of_nodup_map hs.sequences ha hb hsequence

/-- The front is the least entry of an active handle. -/
theorem Consistent.front_least (hs : s.Consistent) {task : QueuedTask T} {rest : SortedQueue QueuedTask.key}
    (h : s.discardCancelledFront.tasks.pop = some (task, rest)) :
    task ∈ s.live ∧ ∀ other ∈ s.live, other = task ∨ task.key < other.key := by
  have hentries := SortedQueue.pop_eq_some.mp h
  have hmem : task ∈ s.tasks.entries := by
    rw [← mem_discardCancelledFront (front_active h), hentries]
    exact List.mem_cons_self
  refine ⟨mem_live.mpr ⟨hmem, front_active h⟩, fun other hother => ?_⟩
  obtain ⟨hother, hactive⟩ := mem_live.mp hother
  have hplace := (mem_discardCancelledFront hactive).mpr hother
  rw [hentries, List.mem_cons] at hplace
  rcases hplace with rfl | hrest
  · exact Or.inl rfl
  · by_cases heq : other = task
    · exact Or.inl heq
    · have hle := SortedQueue.front_le h hrest
      exact Or.inr (lt_of_le_of_ne hle fun hkey => heq (hs.key_injective hmem hother hkey).symm)

/-- If nothing is at the front, nothing is active. -/
theorem live_eq_nil (h : s.discardCancelledFront.tasks.pop = none) :
    s.live = [] := by
  rw [List.eq_nil_iff_forall_not_mem]
  intro task htask
  obtain ⟨hmem, hactive⟩ := mem_live.mp htask
  have hplace := (mem_discardCancelledFront hactive).mpr hmem
  rw [SortedQueue.pop_eq_none.mp h] at hplace
  cases hplace

/-! ## Consistency -/

theorem consistent_new : (new : EventLoopScheduler T).Consistent where
  handles := List.nodup_nil
  sequences := List.nodup_nil
  active := fun _ h => absurd h (Finset.notMem_empty _)
  handle_lt := fun _ h => by cases h
  sequence_lt := fun _ h => by cases h
  interval_pos := fun _ h => by cases h

theorem Consistent.queueTaskInternal (hs : s.Consistent) {source : TaskSource} {delay : Duration}
    {repeatInterval : Option Duration} {payload : T} {task : QueuedTask T}
    (hinterval : ∀ interval, repeatInterval = some interval → 0 < interval.val)
    (h : s.queueTaskInternal source delay repeatInterval payload = some (task, s')) : s'.Consistent := by
  obtain ⟨htask, rfl⟩ := queueTaskInternal_eq h
  have hperm := s.tasks.perm_push task
  constructor
  · rw [(hperm.map _).nodup_iff, List.map_cons, List.nodup_cons]
    refine ⟨fun hmem => ?_, hs.handles⟩
    obtain ⟨other, hother, heq⟩ := List.mem_map.mp hmem
    have hlt := hs.handle_lt other hother
    rw [heq, htask] at hlt
    exact absurd hlt (lt_irrefl _)
  · rw [(hperm.map _).nodup_iff, List.map_cons, List.nodup_cons]
    refine ⟨fun hmem => ?_, hs.sequences⟩
    obtain ⟨other, hother, heq⟩ := List.mem_map.mp hmem
    have hlt := hs.sequence_lt other hother
    rw [heq, htask] at hlt
    exact absurd hlt (lt_irrefl _)
  · intro handle hhandle
    rcases Finset.mem_insert.mp hhandle with rfl | hhandle
    · exact ⟨task, SortedQueue.mem_push.mpr (Or.inl rfl), by rw [htask]⟩
    · obtain ⟨other, hother, heq⟩ := hs.active handle hhandle
      exact ⟨other, SortedQueue.mem_push.mpr (Or.inr hother), heq⟩
  · intro other hother
    rcases SortedQueue.mem_push.mp hother with rfl | hother
    · rw [htask]
      exact Nat.lt_succ_self _
    · exact Nat.lt_succ_of_lt (hs.handle_lt other hother)
  · intro other hother
    rcases SortedQueue.mem_push.mp hother with rfl | hother
    · rw [htask]
      exact Nat.lt_succ_self _
    · exact Nat.lt_succ_of_lt (hs.sequence_lt other hother)
  · intro other hother
    rcases SortedQueue.mem_push.mp hother with rfl | hother
    · rw [htask]
      exact hinterval
    · exact hs.interval_pos other hother

theorem Consistent.cancel (hs : s.Consistent) (handle : TaskHandle) : (s.cancel handle).1.Consistent :=
  { hs with active := fun other hother => hs.active other (Finset.mem_of_mem_erase hother) }

theorem Consistent.clear (_ : s.Consistent) : s.clear.Consistent where
  handles := List.nodup_nil
  sequences := List.nodup_nil
  active := fun _ h => absurd h (Finset.notMem_empty _)
  handle_lt := fun _ h => by cases h
  sequence_lt := fun _ h => by cases h
  interval_pos := fun _ h => by cases h

theorem Consistent.discardCancelledFront (hs : s.Consistent) : s.discardCancelledFront.Consistent := by
  have hsub : s.discardCancelledFront.tasks.entries.Sublist s.tasks.entries := SortedQueue.dropFront_sublist _ _
  constructor
  · exact (hsub.map _).nodup hs.handles
  · exact (hsub.map _).nodup hs.sequences
  · intro handle hhandle
    have hactive : handle ∈ s.activeTasks := hhandle
    obtain ⟨task, htask, rfl⟩ := hs.active handle hactive
    exact ⟨task, (mem_discardCancelledFront hactive).mpr htask, rfl⟩
  · exact fun task htask => hs.handle_lt task (hsub.mem htask)
  · exact fun task htask => hs.sequence_lt task (hsub.mem htask)
  · exact fun task htask => hs.interval_pos task (hsub.mem htask)

/-- The front is taken: a task of one run leaves the set too, a repeating one is put back. -/
theorem Consistent.takeTask (hs : s.Consistent) {task : QueuedTask T} {rest : SortedQueue QueuedTask.key}
    {runnable : RunnableTask T} (hpop : s.tasks.pop = some (task, rest))
    (h : EventLoopScheduler.takeTask { s with tasks := rest } task = some (s', runnable)) : s'.Consistent := by
  have hentries := SortedQueue.pop_eq_some.mp hpop
  have hrest : ∀ other ∈ rest.entries, other ∈ s.tasks.entries := by
    intro other hother
    rw [hentries]
    exact List.mem_cons_of_mem _ hother
  have htask : task ∈ s.tasks.entries := by
    rw [hentries]
    exact List.mem_cons_self
  have hhandles := hs.handles
  have hsequences := hs.sequences
  rw [hentries, List.map_cons] at hhandles hsequences
  obtain ⟨-, ⟨-, rfl⟩ | ⟨interval, hinterval, rfl⟩⟩ := takeTask_cases h
  · constructor
    · exact (List.nodup_cons.mp hhandles).2
    · exact (List.nodup_cons.mp hsequences).2
    · intro handle hhandle
      obtain ⟨hne, hactive⟩ := Finset.mem_erase.mp hhandle
      obtain ⟨other, hother, rfl⟩ := hs.active handle hactive
      rw [hentries, List.mem_cons] at hother
      rcases hother with rfl | hother
      · exact absurd rfl hne
      · exact ⟨other, hother, rfl⟩
    · exact fun other hother => hs.handle_lt other (hrest other hother)
    · exact fun other hother => hs.sequence_lt other (hrest other hother)
    · exact fun other hother => hs.interval_pos other (hrest other hother)
  · generalize hagain : ({ task with due := s.now.saturatingAdd interval, sequence := s.nextSequence } : QueuedTask T) =
      again
    have hhandle : again.handle = task.handle := by rw [← hagain]
    have hsequence : again.sequence = s.nextSequence := by rw [← hagain]
    have hperm := rest.perm_push again
    constructor
    · rw [(hperm.map _).nodup_iff, List.map_cons, hhandle]
      exact hhandles
    · rw [(hperm.map _).nodup_iff, List.map_cons, List.nodup_cons]
      refine ⟨fun hmem => ?_, (List.nodup_cons.mp hsequences).2⟩
      obtain ⟨other, hother, heq⟩ := List.mem_map.mp hmem
      have hlt := hs.sequence_lt other (hrest other hother)
      rw [heq, hsequence] at hlt
      exact absurd hlt (lt_irrefl _)
    · intro handle hactive
      obtain ⟨other, hother, rfl⟩ := hs.active handle hactive
      rw [hentries, List.mem_cons] at hother
      rcases hother with rfl | hother
      · exact ⟨again, SortedQueue.mem_push.mpr (Or.inl rfl), hhandle⟩
      · exact ⟨other, SortedQueue.mem_push.mpr (Or.inr hother), rfl⟩
    · intro other hother
      rcases SortedQueue.mem_push.mp hother with rfl | hother
      · rw [hhandle]
        exact hs.handle_lt task htask
      · exact hs.handle_lt other (hrest other hother)
    · intro other hother
      rcases SortedQueue.mem_push.mp hother with rfl | hother
      · rw [hsequence]
        exact Nat.lt_succ_self _
      · exact Nat.lt_succ_of_lt (hs.sequence_lt other (hrest other hother))
    · intro other hother
      rcases SortedQueue.mem_push.mp hother with rfl | hother
      · rw [← hagain]
        exact hs.interval_pos task htask
      · exact hs.interval_pos other (hrest other hother)

theorem Consistent.popRunnableTask (hs : s.Consistent) {result : Option (RunnableTask T)}
    (h : s.popRunnableTask = some (s', result)) : s'.Consistent := by
  rcases popRunnableTask_cases h with ⟨-, rfl, -⟩ | ⟨task, rest, runnable, hpop, -, -, htake⟩
  · exact hs.discardCancelledFront
  · exact hs.discardCancelledFront.takeTask hpop htake

/-- An active handle has one entry, and one entry with an active handle makes it active. -/
theorem Consistent.active_iff (hs : s.Consistent) (handle : TaskHandle) :
    handle ∈ s.activeTasks ↔ (s.live.filter fun task => decide (task.handle = handle)).length = 1 := by
  constructor
  · intro hactive
    obtain ⟨task, htask, rfl⟩ := hs.active handle hactive
    have honly : ∀ other ∈ s.live.filter fun other => decide (other.handle = task.handle), other = task := by
      intro other hother
      obtain ⟨hlive, heq⟩ := List.mem_filter.mp hother
      exact List.inj_on_of_nodup_map hs.handles (mem_live.mp hlive).1 htask (of_decide_eq_true heq)
    have hmem : task ∈ s.live.filter fun other => decide (other.handle = task.handle) :=
      List.mem_filter.mpr ⟨mem_live.mpr ⟨htask, hactive⟩, by simp⟩
    have hnodup : (s.live.filter fun other => decide (other.handle = task.handle)).Nodup :=
      (List.Nodup.of_map _ hs.handles).filter _ |>.filter _
    generalize s.live.filter (fun other => decide (other.handle = task.handle)) = found at honly hmem hnodup ⊢
    match found with
    | [] => cases hmem
    | [_] => rfl
    | a :: b :: _ =>
      have hsame : a = b := by rw [honly a (by simp), honly b (by simp)]
      simp [hsame] at hnodup
  · intro hone
    obtain ⟨task, heq⟩ := List.length_eq_one_iff.mp hone
    have hmem : task ∈ s.live.filter fun task => decide (task.handle = handle) := by
      rw [heq]
      exact List.mem_cons_self
    obtain ⟨hlive, hhandle⟩ := List.mem_filter.mp hmem
    rw [← of_decide_eq_true hhandle]
    exact (mem_live.mp hlive).2

end EventLoopScheduler

end BetterWebBrowser.Scheduling
