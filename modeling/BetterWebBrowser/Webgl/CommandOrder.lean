import BetterWebBrowser.Webgl.CommandPipeline
import BetterWebBrowser.Framework.Transition
import Mathlib.Algebra.Order.BigOperators.Group.List

/-!
# The order of commands

Every job travels from the queue through the mailbox to the owner, and no context's jobs overtake
each other. A command that the owner could not give to a context is told to the realm before the
realm asks for anything else.
-/

namespace BetterWebBrowser.Webgl.Session

open Framework Framework.Str
open IndexedDb (Json)

/-! ## What the owner does to the contexts -/

namespace BackendContexts

variable {G F : Type} (native : Native G F) {b b' b'' : BackendContexts G} {id : Nat}

/-- No context is new, and nothing is recorded. -/
structure Kept (b b' : BackendContexts G) : Prop where
  handled : b'.handled = b.handled
  next : b'.next = b.next
  contexts : ∀ id, b'.contexts.contains id = true → b.contexts.contains id = true

theorem Kept.refl (b : BackendContexts G) : Kept b b := ⟨rfl, rfl, fun _ => id⟩

theorem Kept.trans (h : Kept b b') (h' : Kept b' b'') : Kept b b'' where
  handled := h'.handled.trans h.handled
  next := h'.next.trans h.next
  contexts := fun id hid => h.contexts id (h'.contexts id hid)

theorem kept_remove (b : BackendContexts G) (id : Nat) : Kept b (b.remove id) where
  handled := rfl
  next := rfl
  contexts := by
    intro other h
    rw [remove, OrdMap.contains_erase] at h
    simp_all

theorem kept_set {context : G} (h : b.contexts.get id = some context) (later : G) : Kept b (b.set id later) where
  handled := rfl
  next := rfl
  contexts := by
    intro other hother
    rw [set, OrdMap.contains_insert] at hother
    by_cases hsame : other = id
    · simp [hsame, OrdMap.contains, h]
    · simpa [hsame] using hother

theorem kept_foldl {A : Type} {f : BackendContexts G → A → BackendContexts G} (h : ∀ b a, Kept b (f b a))
    (items : List A) (b : BackendContexts G) : Kept b (items.foldl f b) := by
  induction items generalizing b with
  | nil => exact .refl b
  | cons item items ih => exact (h b item).trans (ih (f b item))

theorem kept_command_error (b : BackendContexts G) (id error : Nat) : Kept b (b.command_error native id error).2 := by
  rw [command_error]
  split
  · exact .refl b
  · next h => exact kept_set h _

theorem kept_execute_command_bound (b : BackendContexts G) (id : Nat) (command : Command)
    (bytes : Option (List UInt8)) (already_current : Bool) :
    Kept b (b.execute_command_bound native id command bytes already_current).2 := by
  rw [execute_command_bound]
  split
  · exact .refl b
  · next h =>
    simp only []
    split
    · exact kept_set h _
    split
    · exact (kept_set h _).trans (kept_remove _ id)
    split
    · exact kept_set h _
    · exact kept_set h _

theorem kept_execute_data (b : BackendContexts G) (id : Nat) (command : Str) (bytes : Option (List UInt8)) :
    Kept b (b.execute_data native id command bytes).2 := by
  rw [execute_data]
  split
  · exact kept_command_error native b id _
  split
  · exact kept_command_error native b id _
  · exact kept_execute_command_bound native b id _ bytes false

theorem kept_read_pixels_owned (b : BackendContexts G) (id : Nat) (command : Str) (input : Option (List UInt8)) :
    Kept b (b.read_pixels_owned native id command input).2 := by
  rw [read_pixels_owned]
  split
  · exact .refl b
  · next h =>
    simp only []
    split
    · exact kept_set h _
    split
    · exact kept_set h _
    split
    · exact kept_set h _
    split
    · exact kept_set h _
    split
    · exact kept_set h _
    · exact kept_set h _

theorem kept_snapshot_pixels (b : BackendContexts G) (id : Nat) (straight_alpha : Bool) :
    Kept b (b.snapshot_pixels native id straight_alpha).2 := by
  rw [snapshot_pixels]
  split
  · exact .refl b
  · next h =>
    split
    · exact .refl b
    simp only []
    split
    · exact kept_set h _
    · exact kept_set h _

theorem kept_gpu_frame (b : BackendContexts G) (id : Nat) : Kept b (b.gpu_frame native id).2 := by
  rw [gpu_frame]
  split
  · exact .refl b
  · next h => exact kept_set h _

theorem kept_paint_fallback (b : BackendContexts G) (id : Nat) : Kept b (b.paint_fallback native id).2 := by
  have hsnapshot := kept_snapshot_pixels native b id true
  rw [paint_fallback]
  split
  · exact .refl b
  split
  · exact .refl b
  split
  · exact .refl b
  split
  · next h => rwa [h] at hsnapshot
  · next h => rwa [h] at hsnapshot

theorem kept_set_profiling (b : BackendContexts G) (ids : List Nat) (enabled : Bool) :
    Kept b (b.set_profiling native ids enabled) := by
  rw [set_profiling]
  apply kept_foldl
  intro b id
  split
  · next h => exact kept_set h _
  · exact .refl b

theorem kept_taskStep (task : List Nat × BackendContexts G) (id : Nat) : Kept task.2 (taskStep native task id).2 := by
  rw [taskStep]
  split
  · exact .refl _
  · next h =>
    split
    · exact .refl _
    simp only []
    split
    · exact kept_set h _
    split
    · exact kept_set h _
    · exact kept_set h _

theorem kept_complete_task (b : BackendContexts G) (ids : List Nat) : Kept b (b.complete_task native ids).2 := by
  have hrun : ∀ (ids : List Nat) (task : List Nat × BackendContexts G),
      Kept task.2 (ids.foldl (taskStep native) task).2 := by
    intro ids
    induction ids with
    | nil => exact fun task => .refl task.2
    | cons id ids ih => exact fun task => (kept_taskStep native task id).trans (ih (taskStep native task id))
  exact (hrun ids ([], b)).trans (kept_foldl kept_remove _ _)

theorem kept_resource_diagnostics (b : BackendContexts G) (ids : List Nat) :
    Kept b (b.resource_diagnostics native ids).2 := by
  have hrun : ∀ (ids : List Nat) (reports : List Str × BackendContexts G),
      Kept reports.2 (ids.foldl (diagnosticStep native) reports).2 := by
    intro ids
    induction ids with
    | nil => exact fun reports => .refl reports.2
    | cons id ids ih =>
      intro reports
      have hstep : Kept reports.2 (diagnosticStep native reports id).2 := by
        rw [diagnosticStep]
        split
        · exact .refl _
        · next h => exact kept_set h _
      exact hstep.trans (ih _)
  exact hrun _ ([], b)

theorem kept_progress_compilers (b : BackendContexts G) : Kept b (b.progress_compilers native) where
  handled := rfl
  next := rfl
  contexts := by
    intro id h
    rw [progress_compilers, OrdMap.contains, OrdMap.get_mapValues] at h
    simpa [OrdMap.contains] using h

theorem kept_executeEntry (batch : Batch G) (id : Nat) (entry : Entry) :
    Kept batch.backend (executeEntry native batch id entry).2.2 := by
  cases entry with
  | Json source => exact kept_execute_data native _ id source none
  | Numeric command => exact kept_execute_command_bound native _ id _ none _
  | Upload source bytes => exact kept_execute_data native _ id source (some bytes)

theorem create_cases (b : BackendContexts G) (width height : Nat) (options : Str) :
    b.create native width height options = (none, b) ∨ ∃ context, b.create native width height options =
      (some (b.next + 1), { b with next := b.next + 1, contexts := b.contexts.insert (b.next + 1) context }) := by
  rw [create]
  split
  · exact .inl rfl
  · simp only []
    split
    · next next context hnext _ =>
      obtain ⟨rfl, _⟩ := checkedAdd_eq_some.mp hnext
      exact .inr ⟨context, rfl⟩
    · exact .inl rfl

theorem contains_foldl_remove {ids : List Nat} {b : BackendContexts G} {id : Nat}
    (h : (ids.foldl remove b).contexts.contains id = true) : b.contexts.contains id = true ∧ id ∉ ids := by
  induction ids generalizing b with
  | nil => simpa using h
  | cons first ids ih =>
    have hrest := ih h
    rw [remove, OrdMap.contains_erase] at hrest
    simp_all

end BackendContexts

/-- A job and its context. -/
def Handled.entry (handled : Handled) : Nat × Job := (handled.id, handled.job)

/-- A queued command that the context did not get. -/
def Handled.Refused (handled : Handled) : Prop := handled.lost = true ∧ ∃ entry, handled.job = .Queued entry

namespace BackendContexts

variable {G F : Type} (native : Native G F)

/-- The commands of a batch are recorded in order, and the contexts of the refused ones are reported. -/
structure Batched (before after : Batch G) (commands : List (Nat × Entry)) (records : List Handled) : Prop where
  handled : after.backend.handled = before.backend.handled ++ records
  jobs : records.map Handled.entry = (Operation.Batch commands).jobs
  reported : ∀ record ∈ records, record.lost = true → record.id ∈ after.lost
  lost : before.lost ⊆ after.lost
  next : after.backend.next = before.backend.next
  contexts : ∀ id, after.backend.contexts.contains id = true → before.backend.contexts.contains id = true

theorem batched_step (batch : Batch G) (command : Nat × Entry) :
    ∃ records, Batched batch (batchStep native batch command) [command] records := by
  have hkept := kept_executeEntry native batch command.1 command.2
  rw [batchStep]
  split
  · next hlost =>
    refine ⟨[⟨command.1, .Queued command.2, true⟩], rfl, rfl, ?_, fun _ h => h, rfl, fun _ h => h⟩
    intro record hrecord _
    rw [List.mem_singleton.mp hrecord]
    exact hlost
  · have hhandled : ∀ lost, ((executeEntry native batch command.1 command.2).2.2.note
        [⟨command.1, .Queued command.2, lost⟩]).handled =
          batch.backend.handled ++ [⟨command.1, .Queued command.2, lost⟩] := by
      intro lost
      rw [note, hkept.handled]
    simp only []
    split
    · refine ⟨_, hhandled _, rfl, ?_, Finset.subset_insert _ _, hkept.next, hkept.contexts⟩
      intro record hrecord _
      rw [List.mem_singleton.mp hrecord]
      exact Finset.mem_insert_self _ _
    · next hlost =>
      refine ⟨_, hhandled _, rfl, ?_, fun _ h => h, hkept.next, hkept.contexts⟩
      intro record hrecord hrefused
      rw [List.mem_singleton.mp hrecord] at hrefused
      exact absurd hrefused hlost

theorem batched_run (commands : List (Nat × Entry)) (batch : Batch G) :
    ∃ records, Batched batch (commands.foldl (batchStep native) batch) commands records := by
  induction commands generalizing batch with
  | nil =>
    exact ⟨[], (List.append_nil _).symm, rfl, fun _ h => absurd h List.not_mem_nil, fun _ h => h, rfl, fun _ h => h⟩
  | cons command commands ih =>
    obtain ⟨first, hfirst⟩ := batched_step native batch command
    obtain ⟨rest, hrest⟩ := ih (batchStep native batch command)
    refine ⟨first ++ rest, ?_, ?_, ?_, hfirst.lost.trans hrest.lost, hrest.next.trans hfirst.next,
      fun id h => hfirst.contexts id (hrest.contexts id h)⟩
    · rw [List.foldl_cons, hrest.handled, hfirst.handled, List.append_assoc]
    · rw [List.map_append, hfirst.jobs, hrest.jobs]
      rfl
    · intro record hrecord hlost
      rcases List.mem_append.mp hrecord with h | h
      · exact hrest.lost (hfirst.reported record h hlost)
      · exact hrest.reported record h hlost

end BackendContexts

namespace Owner

variable {G F : Type} (native : Native G F)

/-- No context is new, and those that stay keep their leases. -/
structure Unchanged (owner after : Owner G) : Prop where
  next : after.backend.next = owner.backend.next
  contexts : ∀ id, after.backend.contexts.contains id = true →
    owner.backend.contexts.contains id = true ∧ after.leases.get id = owner.leases.get id

theorem Unchanged.refl (owner : Owner G) : Unchanged owner owner := ⟨rfl, fun _ h => ⟨h, rfl⟩⟩

theorem Unchanged.trans {owner middle after : Owner G} (h : Unchanged owner middle) (h' : Unchanged middle after) :
    Unchanged owner after where
  next := h'.next.trans h.next
  contexts := by
    intro id hid
    have hmiddle := h'.contexts id hid
    have howner := h.contexts id hmiddle.1
    exact ⟨howner.1, hmiddle.2.trans howner.2⟩

theorem unchanged_of_kept {owner : Owner G} {backend : BackendContexts G}
    (h : BackendContexts.Kept owner.backend backend) : Unchanged owner { owner with backend := backend } where
  next := h.next
  contexts := fun id hid => ⟨h.contexts id hid, rfl⟩

theorem unchanged_remove (owner : Owner G) (id : Nat) : Unchanged owner (owner.remove id) where
  next := rfl
  contexts := by
    intro other h
    rw [remove, BackendContexts.remove, OrdMap.contains_erase] at h
    have hne : other ≠ id := by simp_all
    simp_all [remove, OrdMap.get_erase]

theorem unchanged_foldl_remove (ids : List Nat) (owner : Owner G) : Unchanged owner (ids.foldl remove owner) := by
  induction ids generalizing owner with
  | nil => exact .refl owner
  | cons id ids ih => exact (unchanged_remove owner id).trans (ih (owner.remove id))

theorem handled_foldl_remove (ids : List Nat) (owner : Owner G) :
    (ids.foldl remove owner).backend.handled = owner.backend.handled := by
  induction ids generalizing owner with
  | nil => rfl
  | cons id ids ih => exact ih (owner.remove id)

/-- A context is new, under a name that no context had. -/
structure Grows (held : Finset Nat) (owner : Owner G) (operation : Operation) (after : Owner G) : Prop where
  created : ∃ width height options lease profiling, operation = .Create width height options lease profiling ∧
    alive held lease = true ∧ after.leases = owner.leases.insert (owner.backend.next + 1) lease
  next : after.backend.next = owner.backend.next + 1
  contexts : ∀ id, after.backend.contexts.contains id = true →
    id = owner.backend.next + 1 ∨ owner.backend.contexts.contains id = true

/-- What is recorded of a request: its jobs in order, with the refused commands reported. -/
structure Recorded (owner : Owner G) (operation : Operation) (reply : Reply F) (after : Owner G)
    (records : List Handled) : Prop where
  handled : after.backend.handled = owner.backend.handled ++ records
  jobs : records.map Handled.entry = operation.jobs
  told : ∀ record ∈ records, record.Refused → ∃ lost, reply = .Batch lost ∧ record.id ∈ lost

/-- Nothing but a new context or a loss is told by the owner. -/
inductive Performed (held : Finset Nat) (owner : Owner G) (operation : Operation) (reply : Reply F) (after : Owner G) :
    Prop
  | unchanged (h : Unchanged owner after) (hreply : ∀ id, reply ≠ .Created (some id))
  | grows (h : Grows held owner operation after) (hreply : reply = .Created (some (owner.backend.next + 1)))

theorem unchanged_complete_task (owner : Owner G) (ids : List Nat) :
    Unchanged owner ⟨(owner.backend.complete_task native ids).2,
      owner.leases.eraseAll (owner.backend.complete_task native ids).1⟩ where
  next := (BackendContexts.kept_complete_task native owner.backend ids).next
  contexts := by
    intro id h
    have hmem := BackendContexts.contains_foldl_remove h
    refine ⟨(BackendContexts.kept_complete_task native owner.backend ids).contexts id h, ?_⟩
    exact (OrdMap.get_eraseAll _ _ _).trans (if_neg hmem.2)

theorem handled_execute (owner : Owner G) (held : Finset Nat) (operation : Operation)
    (h : ∀ commands, operation ≠ .Batch commands) :
    (owner.execute native held operation).2.2.backend.handled = owner.backend.handled := by
  cases operation with
  | Create width height options lease profiling =>
    rw [execute]
    split
    · rfl
    rcases BackendContexts.create_cases native owner.backend width height options with hnone | ⟨context, hsome⟩
    · rw [hnone]
    · rw [hsome]
      exact (BackendContexts.kept_set_profiling native _ _ _).handled
  | Command id command bytes => exact (BackendContexts.kept_execute_data native _ _ _ _).handled
  | Batch commands => exact absurd rfl (h commands)
  | Pixels id command bytes => exact (BackendContexts.kept_read_pixels_owned native _ _ _ _).handled
  | Snapshot id straight_alpha => exact (BackendContexts.kept_snapshot_pixels native _ _ _).handled
  | GpuFrame id => exact (BackendContexts.kept_gpu_frame native _ _).handled
  | PaintFallback id => exact (BackendContexts.kept_paint_fallback native _ _).handled
  | TaskBoundary ids => exact (BackendContexts.kept_complete_task native _ _).handled
  | ResourceDiagnostics ids => exact (BackendContexts.kept_resource_diagnostics native _ _).handled
  | Profiling ids enabled => exact (BackendContexts.kept_set_profiling native _ _ _).handled

theorem asked_of_mem_jobs {operation : Operation} (h : ∀ commands, operation ≠ .Batch commands) {job : Nat × Job}
    (hjob : job ∈ operation.jobs) : ∀ entry, job.2 ≠ .Queued entry := by
  cases operation <;> simp_all [Operation.jobs] <;> grind

/-- Every request is recorded. -/
theorem recorded_perform (owner : Owner G) (held : Finset Nat) (operation : Operation) :
    ∃ records, Recorded owner operation (owner.perform native held operation).1
      (owner.perform native held operation).2.2 records := by
  by_cases hbatch : ∃ commands, operation = .Batch commands
  · obtain ⟨commands, rfl⟩ := hbatch
    obtain ⟨records, hrun⟩ := BackendContexts.batched_run native commands ⟨owner.backend, ∅, none⟩
    refine ⟨records, ?_, hrun.jobs, ?_⟩
    · simp only [perform, execute, noted, BackendContexts.note, BackendContexts.execute_batch, List.append_nil]
      exact hrun.handled
    · intro record hrecord hrefused
      exact ⟨_, rfl, (Finset.mem_sort _).mpr (hrun.reported record hrecord hrefused.1)⟩
  · have hnone : ∀ commands, operation ≠ .Batch commands := fun commands h => hbatch ⟨commands, h⟩
    have hnoted : noted operation (owner.execute native held operation).1 =
        operation.jobs.map fun job => ⟨job.1, job.2, (owner.execute native held operation).1.isLost⟩ := by
      cases operation with
      | Batch commands => exact absurd rfl (hnone commands)
      | _ => rfl
    refine ⟨noted operation (owner.execute native held operation).1, ?_, ?_, ?_⟩
    · simp only [perform, BackendContexts.note, handled_execute native owner held operation hnone]
    · rw [hnoted, List.map_map]
      exact List.map_id _
    · intro record hrecord hrefused
      rw [hnoted, List.mem_map] at hrecord
      obtain ⟨job, hjob, rfl⟩ := hrecord
      obtain ⟨entry, hentry⟩ := hrefused.2
      exact absurd hentry (asked_of_mem_jobs hnone hjob entry)

/-- Recording changes nothing else. -/
theorem unchanged_note {owner after : Owner G} (h : Unchanged owner after) (records : List Handled) :
    Unchanged owner { after with backend := after.backend.note records } := ⟨h.next, h.contexts⟩

theorem performed (owner : Owner G) (held : Finset Nat) (operation : Operation) :
    Performed held owner operation (owner.perform native held operation).1
      (owner.perform native held operation).2.2 := by
  cases operation with
  | Create width height options lease profiling =>
    simp only [perform, execute]
    split
    · exact .unchanged (unchanged_note (.refl owner) _) (by simp)
    next halive =>
    rcases BackendContexts.create_cases native owner.backend width height options with hnone | ⟨context, hsome⟩
    · rw [hnone]
      exact .unchanged (unchanged_note (.refl owner) _) (by simp)
    · rw [hsome]
      have hkept := BackendContexts.kept_set_profiling native { owner.backend with
        next := owner.backend.next + 1, contexts := owner.backend.contexts.insert (owner.backend.next + 1) context }
        [owner.backend.next + 1] profiling
      refine .grows ⟨?_, hkept.next, ?_⟩ rfl
      · exact ⟨width, height, options, lease, profiling, rfl, by simpa using halive, rfl⟩
      · intro id hid
        have hbefore := hkept.contexts id hid
        rw [OrdMap.contains_insert] at hbefore
        simpa using hbefore
  | Command id command bytes =>
    exact .unchanged (unchanged_note (unchanged_of_kept (BackendContexts.kept_execute_data native _ _ _ _)) _)
      (by simp [perform, execute])
  | Batch commands =>
    obtain ⟨records, hrun⟩ := BackendContexts.batched_run native commands ⟨owner.backend, ∅, none⟩
    have hunchanged : Unchanged owner { owner with backend := (owner.backend.execute_batch native commands).2 } :=
      ⟨hrun.next, fun id h => ⟨hrun.contexts id h, rfl⟩⟩
    exact .unchanged (unchanged_note hunchanged _) (by simp [perform, execute])
  | Pixels id command bytes =>
    exact .unchanged (unchanged_note (unchanged_of_kept (BackendContexts.kept_read_pixels_owned native _ _ _ _)) _)
      (by simp [perform, execute])
  | Snapshot id straight_alpha =>
    exact .unchanged (unchanged_note (unchanged_of_kept (BackendContexts.kept_snapshot_pixels native _ _ _)) _)
      (by simp [perform, execute])
  | GpuFrame id =>
    exact .unchanged (unchanged_note (unchanged_of_kept (BackendContexts.kept_gpu_frame native _ _)) _)
      (by simp [perform, execute])
  | PaintFallback id =>
    exact .unchanged (unchanged_note (unchanged_of_kept (BackendContexts.kept_paint_fallback native _ _)) _)
      (by simp [perform, execute])
  | TaskBoundary ids =>
    exact .unchanged (unchanged_note (unchanged_complete_task native owner ids) _) (by simp [perform, execute])
  | ResourceDiagnostics ids =>
    exact .unchanged (unchanged_note (unchanged_of_kept (BackendContexts.kept_resource_diagnostics native _ _)) _)
      (by simp [perform, execute])
  | Profiling ids enabled =>
    exact .unchanged (unchanged_note (unchanged_of_kept (BackendContexts.kept_set_profiling native _ _ _)) _)
      (by simp [perform, execute])

theorem unchanged_sweep (owner : Owner G) (retired : List Nat) (held : Finset Nat) :
    Unchanged owner (owner.sweep retired held) := by
  rw [sweep, retain, ← List.foldl_map]
  exact (unchanged_foldl_remove _ _).trans (unchanged_foldl_remove _ _)

theorem handled_sweep (owner : Owner G) (retired : List Nat) (held : Finset Nat) :
    (owner.sweep retired held).backend.handled = owner.backend.handled := by
  rw [sweep, retain, ← List.foldl_map, handled_foldl_remove, handled_foldl_remove]

end Owner

/-! ## The line of jobs -/

/-- The jobs of one context. -/
def jobsOf (id : Nat) (jobs : List (Nat × Job)) : List Job :=
  (jobs.filter fun job => decide (job.1 = id)).map Prod.snd

@[simp] theorem jobsOf_nil (id : Nat) : jobsOf id [] = [] := rfl

@[simp] theorem jobsOf_append (id : Nat) (jobs more : List (Nat × Job)) :
    jobsOf id (jobs ++ more) = jobsOf id jobs ++ jobsOf id more := by
  simp [jobsOf]

theorem jobsOf_eq_nil {id : Nat} {jobs : List (Nat × Job)} (h : ∀ job ∈ jobs, job.1 ≠ id) : jobsOf id jobs = [] := by
  simpa [jobsOf, List.filter_eq_nil_iff] using fun a b hmem => h (a, b) hmem

/-- A batch that the owner can be given. -/
def Pending.Limited (commands : List (Nat × Entry)) : Prop :=
  commands.length ≤ MAX_COMMANDS ∧ weight commands ≤ MAX_PENDING_BYTES

theorem Pending.Limited.sublist {commands more : List (Nat × Entry)} (h : Limited more) (hsub : commands.Sublist more) :
    Limited commands := by
  refine ⟨hsub.length_le.trans h.1, le_trans ?_ h.2⟩
  exact (hsub.map _).sum_le_sum fun _ _ => Nat.zero_le _

/-- What a call has under way: commands that are in no queue, a batch that is out, and contexts that
the call is going to remove. -/
structure Midway where
  hand : List (Nat × Entry)
  flight : Option Flight
  suspects : Finset Nat

/-- Between two calls. -/
def Contexts.rest (contexts : Contexts) : Midway := ⟨[], contexts.inflight, ∅⟩

namespace System

variable {G F : Type} (native : Native G F) {s s' : System G F} {m : Midway}

def requests (s : System G F) : List Request := s.serving.toList ++ s.mailbox.toList

/-- The jobs that the owner has not handled. -/
def waiting (s : System G F) (hand : List (Nat × Entry)) : List (Nat × Job) :=
  s.requests.flatMap (fun request => request.operation.jobs) ++ (Operation.Batch hand).jobs ++
    (Operation.Batch s.contexts.pending.commands).jobs

def line (s : System G F) (hand : List (Nat × Entry)) : List (Nat × Job) :=
  s.owner.backend.handled.map Handled.entry ++ s.waiting hand

/-- The tickets of the replies and of the requests, oldest first. -/
def ticketLine (s : System G F) : List Nat := s.replies.map Prod.fst ++ s.requests.filterMap Request.ticket

/-- Names that somebody has or that a job bears. -/
def Known (s : System G F) (hand : List (Nat × Entry)) (id : Nat) : Prop :=
  id ∈ s.contexts.live ∨ id ∈ s.peers ∨ ∃ job ∈ s.issued ++ s.line hand, job.1 = id

/-- The reply that says so is there. -/
def Told (s : System G F) (flight : Option Flight) (id : Nat) : Prop :=
  ∃ batch ∈ flight, id ∈ batch.ids ∧ ∃ lost, (batch.reply, Reply.Batch lost) ∈ s.replies ∧ id ∈ lost

/-- A batch of the realm is the one that is out, or it is given up. -/
def Carried (s : System G F) (m : Midway) (ticket : Nat) (commands : List (Nat × Entry)) : Prop :=
  (∃ batch ∈ m.flight, batch.reply = ticket ∧ ticket ∈ s.listening ∧ ∀ command ∈ commands, command.1 ∈ batch.ids) ∨
    ∀ command ∈ commands, command.1 ∈ s.contexts.live → command.1 ∈ m.suspects

/-- The context got every command before this point; what it was asked itself may have been given up. -/
def Settled (s : System G F) (id : Nat) (before : List (Nat × Job)) : Prop :=
  ∃ got later asked, s.owner.backend.handled.filter (fun record => decide (record.id = id)) = got ++ later ∧
    (∀ record ∈ got, ¬record.Refused) ∧ jobsOf id before = got.map Handled.job ++ asked ∧
    ∀ job ∈ asked, ∃ operation, job = .Asked operation

structure Sound (m : Midway) (s : System G F) : Prop where
  /-- No job of a live context is left out, repeated or overtaken. -/
  ordered : ∀ id ∈ s.contexts.live, jobsOf id s.issued = jobsOf id (s.line m.hand)
  told : ∀ record ∈ s.owner.backend.handled, record.Refused → record.id ∈ s.contexts.live →
    record.id ∈ m.suspects ∨ s.Told m.flight record.id
  batches : ∀ request ∈ s.requests, ∀ ticket commands,
    request = ⟨some ticket, .Batch commands⟩ → s.Carried m ticket commands
  foreign : ∀ request ∈ s.requests, request.ticket = none → ∀ job ∈ request.operation.jobs, job.1 ∈ s.peers
  apart : ∀ id ∈ s.contexts.live, id ∉ s.peers
  tickets : s.ticketLine.Pairwise (· < ·)
  posted : ∀ ticket ∈ s.ticketLine, ticket < s.tickets
  names : ∀ id, s.Known m.hand id → id ≤ s.owner.backend.next
  /-- A context is named by nobody before its creator reads the reply. -/
  newborn : ∀ ticket id, (ticket, Reply.Created (some id)) ∈ s.replies →
    id ≤ s.owner.backend.next ∧ ¬s.Known m.hand id ∧
      ∀ other, (other, Reply.Created (some id)) ∈ s.replies → other = ticket
  asynchronous : s.contexts.asynchronous ⊆ s.contexts.live
  counted : s.contexts.pending.upload_bytes = Pending.weight s.contexts.pending.commands
  queue : Pending.Limited s.contexts.pending.commands
  hand : Pending.Limited m.hand
  small : ∀ request ∈ s.requests, ∀ ticket commands, request = ⟨some ticket, .Batch commands⟩ →
    Pending.Limited commands
  /-- Nothing is asked before all commands are done. -/
  barrier : ∀ before job operation after, s.issued = before ++ (job, .Asked operation) :: after →
    ∀ id ∈ s.contexts.live, s.Settled id before

/-- Contexts may be given up, and their commands leave the queue. -/
structure Lapsed (s s' : System G F) : Prop where
  handled : s'.owner.backend.handled = s.owner.backend.handled
  next : s'.owner.backend.next = s.owner.backend.next
  requests : s'.requests = s.requests
  replies : s'.replies = s.replies
  listening : s'.listening = s.listening
  tickets : s'.tickets = s.tickets
  peers : s'.peers = s.peers
  issued : s'.issued = s.issued
  live : s'.contexts.live ⊆ s.contexts.live
  asynchronous : s'.contexts.asynchronous ⊆ s'.contexts.live
  queue : s'.contexts.pending.commands.Sublist s.contexts.pending.commands
  jobs : ∀ id ∈ s'.contexts.live, jobsOf id (Operation.Batch s'.contexts.pending.commands).jobs =
    jobsOf id (Operation.Batch s.contexts.pending.commands).jobs
  counted : s'.contexts.pending.upload_bytes = Pending.weight s'.contexts.pending.commands

theorem Lapsed.known {id : Nat} (h : Lapsed s s') (hand : List (Nat × Entry)) (hid : s'.Known hand id) :
    s.Known hand id := by
  rcases hid with hlive | hpeer | ⟨job, hjob, rfl⟩
  · exact .inl (h.live hlive)
  · exact .inr (.inl (h.peers ▸ hpeer))
  · have hqueue : (Operation.Batch s'.contexts.pending.commands).jobs ⊆
        (Operation.Batch s.contexts.pending.commands).jobs := (h.queue.map _).subset
    refine .inr (.inr ⟨job, ?_, rfl⟩)
    simp only [System.line, waiting, List.mem_append, h.issued, h.handled, h.requests] at hjob ⊢
    have := @hqueue job
    tauto

theorem Sound.lapse (hsound : Sound m s) (h : Lapsed s s') : Sound m s' where
  ordered := by
    intro id hid
    rw [h.issued, hsound.ordered id (h.live hid)]
    simp only [System.line, waiting, jobsOf_append, h.handled, h.requests, h.jobs id hid]
  told := by
    rw [h.handled]
    intro record hrecord hrefused hlive
    rw [Told, h.replies]
    exact hsound.told record hrecord hrefused (h.live hlive)
  batches := by
    rw [h.requests]
    intro request hrequest ticket commands heq
    rw [Carried, h.listening]
    exact (hsound.batches request hrequest ticket commands heq).imp_right
      fun hgone command hcommand hlive => hgone command hcommand (h.live hlive)
  foreign := by
    rw [h.requests, h.peers]
    exact hsound.foreign
  apart := by
    rw [h.peers]
    exact fun id hid => hsound.apart id (h.live hid)
  tickets := by
    rw [ticketLine, h.replies, h.requests]
    exact hsound.tickets
  posted := by
    rw [ticketLine, h.replies, h.requests, h.tickets]
    exact hsound.posted
  names := by
    intro id hid
    rw [h.next]
    exact hsound.names id (h.known m.hand hid)
  newborn := by
    intro ticket id hid
    rw [h.replies] at hid ⊢
    have hnew := hsound.newborn ticket id hid
    exact ⟨h.next ▸ hnew.1, fun hknown => hnew.2.1 (h.known m.hand hknown), hnew.2.2⟩
  asynchronous := h.asynchronous
  counted := h.counted
  queue := hsound.queue.sublist h.queue
  hand := hsound.hand
  small := by
    rw [h.requests]
    exact hsound.small
  barrier := by
    intro before job operation after heq id hid
    rw [h.issued] at heq
    rw [Settled, h.handled]
    exact hsound.barrier before job operation after heq id (h.live hid)

/-- What the order does not depend on. -/
structure Alike (s s' : System G F) : Prop where
  contexts : s'.contexts = s.contexts
  handled : s'.owner.backend.handled = s.owner.backend.handled
  next : s'.owner.backend.next = s.owner.backend.next
  requests : s'.requests = s.requests
  replies : s'.replies = s.replies
  listening : s'.listening = s.listening
  tickets : s'.tickets = s.tickets
  peers : s'.peers = s.peers
  issued : s'.issued = s.issued

/-- The queue and the contexts are as they were. -/
theorem Sound.lapsed (hsound : Sound m s) (h : Alike s s') : Lapsed s s' where
  handled := h.handled
  next := h.next
  requests := h.requests
  replies := h.replies
  listening := h.listening
  tickets := h.tickets
  peers := h.peers
  issued := h.issued
  live := h.contexts ▸ Finset.Subset.refl _
  asynchronous := by
    rw [h.contexts]
    exact hsound.asynchronous
  queue := h.contexts ▸ List.Sublist.refl _
  jobs := by
    rw [h.contexts]
    exact fun _ _ => rfl
  counted := by
    rw [h.contexts]
    exact hsound.counted

theorem Sound.alike (hsound : Sound m s) (h : Alike s s') : Sound m s' := hsound.lapse (hsound.lapsed h)

/-! ## Beside the realm -/

theorem Sound.receive (h : Sound m s) : Sound m (s.receive native) := by
  rw [System.receive]
  split
  · exact h
  · next hserving =>
    have hnext := (Owner.unchanged_sweep s.owner s.retired s.held).next
    have hhandled := Owner.handled_sweep s.owner s.retired s.held
    simp only []
    split
    · next request hmailbox =>
      exact h.alike ⟨rfl, hhandled, hnext, by simp [requests, hserving, hmailbox], rfl, rfl, rfl, rfl, rfl⟩
    · exact h.alike ⟨rfl, hhandled, hnext, by simp [requests], rfl, rfl, rfl, rfl, rfl⟩

/-- What the owner leaves behind after a request. -/
structure Served (request : Request) (s s' : System G F) (records : List Handled) (sent : List (Nat × Reply F)) :
    Prop where
  contexts : s'.contexts = s.contexts
  listening : s'.listening = s.listening
  tickets : s'.tickets = s.tickets
  issued : s'.issued = s.issued
  requests : s'.requests = s.mailbox.toList
  handled : s'.owner.backend.handled = s.owner.backend.handled ++ records
  jobs : records.map Handled.entry = request.operation.jobs
  replies : s'.replies = s.replies ++ sent
  addressed : (sent.map Prod.fst).Sublist request.ticket.toList
  next : s.owner.backend.next ≤ s'.owner.backend.next
  peers : s.peers ⊆ s'.peers
  granted : ∀ id ∈ s'.peers, id ∈ s.peers ∨
    s.owner.backend.next < id ∧ id ≤ s'.owner.backend.next ∧ sent = []
  created : ∀ ticket id, (ticket, Reply.Created (some id)) ∈ sent →
    s.owner.backend.next < id ∧ id ≤ s'.owner.backend.next

theorem ticketLine_serving {request : Request} (h : s.serving = some request) : s.ticketLine =
    s.replies.map Prod.fst ++ (request.ticket.toList ++ s.mailbox.toList.filterMap Request.ticket) := by
  cases hticket : request.ticket <;> simp [ticketLine, requests, h, hticket]

theorem ticketLine_served {request : Request} {sent : List (Nat × Reply F)} (hserving : s.serving = some request)
    (hrequests : s'.requests = s.mailbox.toList) (hreplies : s'.replies = s.replies ++ sent)
    (haddressed : (sent.map Prod.fst).Sublist request.ticket.toList) : s'.ticketLine.Sublist s.ticketLine := by
  rw [ticketLine_serving hserving, ticketLine, hreplies, hrequests, List.map_append, List.append_assoc]
  exact (List.Sublist.refl _).append (haddressed.append (List.Sublist.refl _))

theorem Served.line {request : Request} {records : List Handled} {sent : List (Nat × Reply F)}
    (h : Served request s s' records sent) (hserving : s.serving = some request) (hand : List (Nat × Entry)) :
    s'.line hand = s.line hand := by
  have hrequests : s.requests = request :: s.mailbox.toList := by simp [System.requests, hserving]
  simp [System.line, waiting, h.handled, h.requests, h.contexts, h.jobs, hrequests]

theorem Told.mono {flight : Option Flight} {id : Nat} (h : s.Told flight id)
    (hreplies : ∀ reply ∈ s.replies, reply ∈ s'.replies) : s'.Told flight id := by
  obtain ⟨batch, hbatch, hid, lost, hreply, hlost⟩ := h
  exact ⟨batch, hbatch, hid, lost, hreplies _ hreply, hlost⟩

theorem Settled.mono {id : Nat} {before : List (Nat × Job)} (h : s.Settled id before) {records : List Handled}
    (hhandled : s'.owner.backend.handled = s.owner.backend.handled ++ records) : s'.Settled id before := by
  obtain ⟨got, later, asked, hgot, hrest⟩ := h
  refine ⟨got, later ++ records.filter (fun record => decide (record.id = id)), asked, ?_, hrest⟩
  rw [hhandled, List.filter_append, hgot, List.append_assoc]

theorem Sound.served {request : Request} (records : List Handled) (sent : List (Nat × Reply F)) (h : Sound m s)
    (hserving : s.serving = some request) (hserved : Served request s s' records sent)
    (htold : ∀ record ∈ records, record.Refused → record.id ∈ s.contexts.live →
      record.id ∈ m.suspects ∨ s'.Told m.flight record.id) :
    Sound m s' := by
  have hline := hserved.line hserving m.hand
  have hknown : ∀ id, s'.Known m.hand id → s.Known m.hand id ∨
      s.owner.backend.next < id ∧ id ≤ s'.owner.backend.next ∧ sent = [] := by
    intro id hid
    rw [Known, hline, hserved.contexts, hserved.issued] at hid
    rcases hid with hlive | hpeer | hjob
    · exact .inl (.inl hlive)
    · exact (hserved.granted id hpeer).imp_left fun hold => .inr (.inl hold)
    · exact .inl (.inr (.inr hjob))
  have htickets := ticketLine_served hserving hserved.requests hserved.replies hserved.addressed
  constructor
  case ordered =>
    rw [hserved.contexts, hserved.issued, hline]
    exact h.ordered
  case told =>
    rw [hserved.handled, hserved.contexts]
    intro record hrecord hrefused hlive
    rcases List.mem_append.mp hrecord with hold | hnew
    · refine (h.told record hold hrefused hlive).imp_right fun htold => htold.mono ?_
      intro reply hreply
      rw [hserved.replies]
      exact List.mem_append_left _ hreply
    · exact htold record hnew hrefused hlive
  case batches =>
    intro other hother ticket commands heq
    rw [Carried, hserved.listening, hserved.contexts]
    refine h.batches other ?_ ticket commands heq
    rw [hserved.requests] at hother
    exact List.mem_append_right _ hother
  case foreign =>
    intro other hother hticket job hjob
    rw [hserved.requests] at hother
    exact hserved.peers (h.foreign other (List.mem_append_right _ hother) hticket job hjob)
  case apart =>
    rw [hserved.contexts]
    intro id hlive hpeer
    rcases hserved.granted id hpeer with hold | ⟨hnew, -, -⟩
    · exact h.apart id hlive hold
    · exact absurd (h.names id (.inl hlive)) (by omega)
  case tickets => exact h.tickets.sublist htickets
  case posted =>
    rw [hserved.tickets]
    exact fun ticket hticket => h.posted ticket (htickets.subset hticket)
  case names =>
    intro id hid
    rcases hknown id hid with hold | ⟨-, hle, -⟩
    · exact (h.names id hold).trans hserved.next
    · exact hle
  case newborn =>
    intro ticket id hreply
    rw [hserved.replies] at hreply
    rcases List.mem_append.mp hreply with hold | hnew
    · have hbefore := h.newborn ticket id hold
      refine ⟨hbefore.1.trans hserved.next, fun hid => ?_, fun other hother => ?_⟩
      · rcases hknown id hid with hid | ⟨hlt, -, -⟩
        · exact hbefore.2.1 hid
        · exact absurd hbefore.1 (by omega)
      · rw [hserved.replies] at hother
        rcases List.mem_append.mp hother with hother | hother
        · exact hbefore.2.2 other hother
        · exact absurd hbefore.1 (by have := (hserved.created other id hother).1; omega)
    · have hcreated := hserved.created ticket id hnew
      refine ⟨hcreated.2, fun hid => ?_, fun other hother => ?_⟩
      · rcases hknown id hid with hid | ⟨-, -, hnone⟩
        · exact absurd (h.names id hid) (by omega)
        · rw [hnone] at hnew
          exact absurd hnew List.not_mem_nil
      · rw [hserved.replies] at hother
        rcases List.mem_append.mp hother with hother | hother
        · exact absurd (h.newborn other id hother).1 (by omega)
        · have hticket := hserved.addressed.subset (List.mem_map_of_mem hnew)
          have hsame := hserved.addressed.subset (List.mem_map_of_mem hother)
          rw [Option.mem_toList] at hticket hsame
          exact Option.some.inj (hsame.symm.trans hticket)
  case asynchronous =>
    rw [hserved.contexts]
    exact h.asynchronous
  case counted =>
    rw [hserved.contexts]
    exact h.counted
  case queue =>
    rw [hserved.contexts]
    exact h.queue
  case hand => exact h.hand
  case small =>
    intro other hother
    rw [hserved.requests] at hother
    exact h.small other (List.mem_append_right _ hother)
  case barrier =>
    intro before job operation after heq id hlive
    rw [hserved.issued] at heq
    rw [hserved.contexts] at hlive
    exact (h.barrier before job operation after heq id hlive).mono hserved.handled

/-- A refused command of a live context is in the batch that is out, or its context is given up. -/
theorem Sound.refused {request : Request} (h : Sound m s) (hserving : s.serving = some request)
    {reply : Reply F} {after : Owner G} {records : List Handled}
    (hrecorded : Owner.Recorded s.owner request.operation reply after records) {record : Handled}
    (hrecord : record ∈ records) (hrefused : record.Refused) (hlive : record.id ∈ s.contexts.live) :
    record.id ∈ m.suspects ∨ ∃ batch ∈ m.flight, request.ticket = some batch.reply ∧ batch.reply ∈ s.listening ∧
      record.id ∈ batch.ids ∧ ∃ lost, reply = .Batch lost ∧ record.id ∈ lost := by
  have hmem : request ∈ s.requests := by simp [requests, hserving]
  have hjob : (record.id, record.job) ∈ request.operation.jobs := by
    rw [← hrecorded.jobs]
    exact List.mem_map_of_mem hrecord
  obtain ⟨lost, hreply, hlost⟩ := hrecorded.told record hrecord hrefused
  obtain ⟨entry, hentry⟩ := hrefused.2
  rw [hentry] at hjob
  obtain ⟨commands, hbatch⟩ : ∃ commands, request.operation = .Batch commands := by
    by_contra hnone
    exact Owner.asked_of_mem_jobs (fun commands h => hnone ⟨commands, h⟩) hjob entry rfl
  have hcommand : (record.id, entry) ∈ commands := by
    rw [hbatch] at hjob
    simpa [Operation.jobs] using hjob
  cases hticket : request.ticket with
  | none => exact absurd (h.foreign request hmem hticket _ hjob) (h.apart _ hlive)
  | some ticket =>
    have heq : request = ⟨some ticket, .Batch commands⟩ := by rw [← hticket, ← hbatch]
    rcases h.batches request hmem ticket commands heq with ⟨batch, hflight, rfl, hlistening, hids⟩ | hgone
    · exact .inr ⟨batch, hflight, rfl, hlistening, hids _ hcommand, lost, hreply, hlost⟩
    · exact .inl (hgone _ hcommand hlive)

theorem granted_of_ne {reply : Reply F} (h : ∀ id, reply ≠ .Created (some id)) : granted reply = ∅ := by
  rw [granted]
  exact fun id hid => h id hid

theorem Sound.execute (h : Sound m s) (heard : Bool) : Sound m (s.execute native heard) := by
  rw [System.execute]
  split
  · exact h
  next request hserving =>
  obtain ⟨records, hrecorded⟩ := Owner.recorded_perform native s.owner s.held request.operation
  have hperformed := Owner.performed native s.owner s.held request.operation
  have hnext : s.owner.backend.next ≤ (s.owner.perform native s.held request.operation).2.2.backend.next := by
    cases hperformed with
    | unchanged hsame _ => exact hsame.next.ge
    | grows hgrows _ => rw [hgrows.next]; exact Nat.le_succ _
  have hcreated : ∀ id, (s.owner.perform native s.held request.operation).1 = .Created (some id) →
      s.owner.backend.next < id ∧ id ≤ (s.owner.perform native s.held request.operation).2.2.backend.next := by
    intro id hid
    cases hperformed with
    | unchanged _ hnone => exact absurd hid (hnone id)
    | grows hgrows hreply =>
      rw [hreply] at hid
      cases hid
      exact ⟨Nat.lt_succ_self _, hgrows.next.ge⟩
  have hremoved := fun ids => (Owner.unchanged_foldl_remove ids (s.owner.perform native s.held request.operation).2.2).next
  simp only []
  split
  · next ticket hticket =>
    split
    · refine h.served records [(ticket, (s.owner.perform native s.held request.operation).1)] hserving ?_ ?_
      · exact {
          contexts := rfl, listening := rfl, tickets := rfl, issued := rfl, requests := rfl
          handled := hrecorded.handled, jobs := hrecorded.jobs, replies := rfl, addressed := by simp [hticket]
          next := hnext, peers := fun _ hid => hid, granted := fun _ hid => .inl hid
          created := fun other id hreply => hcreated id (by simp_all) }
      · intro record hrecord hrefused hlive
        refine (h.refused hserving hrecorded hrecord hrefused hlive).imp_right ?_
        rintro ⟨batch, hflight, hreply, -, hids, lost, heq, hlost⟩
        rw [hticket, Option.some.injEq] at hreply
        refine ⟨batch, hflight, hids, lost, ?_, hlost⟩
        simp [hreply, heq]
    · next hclosed =>
      refine h.served records [] hserving ?_ ?_
      · exact {
          contexts := rfl, listening := rfl, tickets := rfl, issued := rfl, requests := rfl
          handled := (Owner.handled_foldl_remove _ _).trans hrecorded.handled
          jobs := hrecorded.jobs, replies := (List.append_nil _).symm, addressed := List.nil_sublist _
          next := hnext.trans (hremoved _).ge, peers := fun _ hid => hid, granted := fun _ hid => .inl hid
          created := by simp }
      · intro record hrecord hrefused hlive
        refine (h.refused hserving hrecorded hrecord hrefused hlive).imp_right ?_
        rintro ⟨batch, -, hreply, hlistening, -⟩
        rw [hticket, Option.some.injEq] at hreply
        exact absurd (hreply ▸ hlistening) hclosed
  · next hticket =>
    have htold : ∀ record ∈ records, record.Refused → record.id ∈ s.contexts.live →
        record.id ∈ m.suspects ∨ False := by
      intro record hrecord hrefused hlive
      refine (h.refused hserving hrecorded hrecord hrefused hlive).imp_right ?_
      rintro ⟨batch, -, hreply, -⟩
      rw [hticket] at hreply
      cases hreply
    split
    · refine h.served records [] hserving ?_
        fun record hrecord hrefused hlive => (htold record hrecord hrefused hlive).imp_right False.elim
      exact {
        contexts := rfl, listening := rfl, tickets := rfl, issued := rfl, requests := rfl
        handled := hrecorded.handled, jobs := hrecorded.jobs, replies := (List.append_nil _).symm
        addressed := List.nil_sublist _, next := hnext, peers := Finset.subset_union_left
        created := by simp
        granted := by
          intro id hid
          refine (Finset.mem_union.mp hid).imp_right fun hnew => ?_
          cases hperformed with
          | unchanged _ hnone => simp [granted_of_ne hnone] at hnew
          | grows hgrows hreply =>
            rw [hreply] at hnew
            have hbetween := hcreated _ hreply
            rw [← Finset.mem_singleton.mp hnew] at hbetween
            exact ⟨hbetween.1, hbetween.2, rfl⟩ }
    · refine h.served records [] hserving ?_
        fun record hrecord hrefused hlive => (htold record hrecord hrefused hlive).imp_right False.elim
      exact {
        contexts := rfl, listening := rfl, tickets := rfl, issued := rfl, requests := rfl
        handled := (Owner.handled_foldl_remove _ _).trans hrecorded.handled
        jobs := hrecorded.jobs, replies := (List.append_nil _).symm, addressed := List.nil_sublist _
        next := hnext.trans (hremoved _).ge, peers := fun _ hid => hid, granted := fun _ hid => .inl hid
        created := by simp }

/-- The other realms' requests are about other contexts. -/
theorem Sound.peer (h : Sound m s) {operation : Operation} (hroom : s.mailbox.isNone = true)
    (hforeign : System.foreign s.peers operation = true) : Sound m { s with mailbox := some ⟨none, operation⟩ } := by
  have hnone : s.mailbox = none := Option.isNone_iff_eq_none.mp hroom
  have hpeers : ∀ job ∈ operation.jobs, job.1 ∈ s.peers := by
    cases operation with
    | Create width height options lease profiling => simp [Operation.jobs]
    | _ => exact fun job hjob => of_decide_eq_true (List.all_eq_true.mp hforeign job hjob)
  have hrequests : requests { s with mailbox := some ⟨none, operation⟩ } = s.requests ++ [⟨none, operation⟩] := by
    simp [requests, hnone]
  have hline : ∀ id, id ∉ s.peers →
      jobsOf id (line { s with mailbox := some ⟨none, operation⟩ } m.hand) = jobsOf id (s.line m.hand) := by
    intro id hid
    have hjobs : jobsOf id operation.jobs = [] := jobsOf_eq_nil fun job hjob heq => hid (heq ▸ hpeers job hjob)
    simp [line, waiting, hrequests, hjobs]
  have hknown : ∀ id, Known { s with mailbox := some ⟨none, operation⟩ } m.hand id → s.Known m.hand id := by
    rintro id (hlive | hpeer | ⟨job, hjob, rfl⟩)
    · exact .inl hlive
    · exact .inr (.inl hpeer)
    · simp only [line, waiting, hrequests, List.mem_append, List.flatMap_append, List.flatMap_singleton] at hjob
      by_cases hmem : job ∈ operation.jobs
      · exact .inr (.inl (hpeers job hmem))
      · refine .inr (.inr ⟨job, ?_, rfl⟩)
        simp only [line, waiting, List.mem_append]
        tauto
  have htickets : ticketLine { s with mailbox := some ⟨none, operation⟩ } = s.ticketLine := by
    simp [ticketLine, hrequests]
  refine { h with
    ordered := ?ordered, batches := ?batches, foreign := ?foreign, tickets := ?tickets,
    posted := ?posted, names := ?names, newborn := ?newborn, small := ?small }
  case ordered => exact fun id hid => (h.ordered id hid).trans (hline id (h.apart id hid)).symm
  case batches =>
    intro request hrequest ticket commands heq
    rw [hrequests, List.mem_append, List.mem_singleton] at hrequest
    rcases hrequest with hold | hnew
    · exact h.batches request hold ticket commands heq
    · simp [heq] at hnew
  case foreign =>
    intro request hrequest hticket
    rw [hrequests, List.mem_append, List.mem_singleton] at hrequest
    rcases hrequest with hold | hnew
    · exact h.foreign request hold hticket
    · rw [hnew]
      exact hpeers
  case tickets => exact htickets ▸ h.tickets
  case posted => exact htickets ▸ h.posted
  case names => exact fun id hid => h.names id (hknown id hid)
  case newborn =>
    intro ticket id hreply
    have hnew := h.newborn ticket id hreply
    exact ⟨hnew.1, fun hid => hnew.2.1 (hknown id hid), hnew.2.2⟩
  case small =>
    intro request hrequest ticket commands heq
    rw [hrequests, List.mem_append, List.mem_singleton] at hrequest
    rcases hrequest with hold | hnew
    · exact h.small request hold ticket commands heq
    · simp [heq] at hnew

theorem Sound.turn (h : Sound m s) (turn : Turn) : Sound m (s.turn native turn) := by
  cases turn with
  | receive => exact h.receive native
  | execute heard => exact h.execute native heard
  | peer operation =>
    simp only [System.turn]
    split
    · next hcondition => exact h.peer hcondition.1 hcondition.2
    · exact h
  | retire id =>
    simp only [System.turn]
    split
    · exact h.alike ⟨rfl, rfl, rfl, rfl, rfl, rfl, rfl, rfl, rfl⟩
    · exact h

/-- What every turn keeps, a pause keeps. -/
theorem pause_induction {P : System G F → Prop} (hturn : ∀ s turn, P s → P (s.turn native turn))
    (h : P { s with schedule := s.schedule.tail }) : P (s.pause native) := by
  have hturns : ∀ (turns : List Turn) (s : System G F), P s → P (s.turns native turns) := by
    intro turns
    induction turns with
    | nil => exact fun s h => h
    | cons turn turns ih => exact fun s h => ih _ (hturn s turn h)
  exact hturns _ _ h

theorem Sound.pause (h : Sound m s) : Sound m (s.pause native) :=
  pause_induction native (fun _ turn h => Sound.turn native h turn) (h.alike ⟨rfl, rfl, rfl, rfl, rfl, rfl, rfl, rfl, rfl⟩)

end System

end BetterWebBrowser.Webgl.Session
