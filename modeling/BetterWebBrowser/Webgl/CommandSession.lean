import BetterWebBrowser.Webgl.CommandBatch
import BetterWebBrowser.Webgl.Objects
import Mathlib.Data.Finset.Card
import Mathlib.Data.Finset.Sort

/-!
# A realm and the native owner

All native contexts belong to one thread. A realm sends it one request at a time through a mailbox
of one place and gives up when the reply is late. Its queue of commands goes the same way, except
that the realm goes on while the owner works. What the owner and the other realms do meanwhile is
the schedule, one slice for each moment at which the realm looks or acts. The contexts, their JSON
and the driver are parameters.
-/

namespace BetterWebBrowser.Webgl.Session

open Framework Framework.Str
open IndexedDb (Json)

def MAX_CONTEXTS : Nat := 8
def MAX_NATIVE_CONTEXTS : Nat := 16
def MAX_UPLOAD_BYTES : Nat := 16 * 1024 * 1024
def MAX_COMMAND_BYTES : Nat := 256 * 1024 * 6 + 4096

abbrev Bitmap := Nat × Nat × List UInt8

/-- The lease of a context is `none` for other realms, which give up theirs by retiring the context. -/
inductive Operation
  | Create (width height : Nat) (options : Str) (lease : Option Nat) (profiling : Bool)
  | Command (id : Nat) (command : Str) (bytes : Option (List UInt8))
  | Batch (commands : List (Nat × Entry))
  | Pixels (id : Nat) (command : Str) (bytes : Option (List UInt8))
  | Snapshot (id : Nat) (straight_alpha : Bool)
  | GpuFrame (id : Nat)
  | PaintFallback (id : Nat)
  | TaskBoundary (ids : List Nat)
  | ResourceDiagnostics (ids : List Nat)
  | Profiling (ids : List Nat) (enabled : Bool)

inductive PixelReply
  | Bytes (bytes : List UInt8)
  | Error
  | Lost

inductive Reply (F : Type)
  | Created (id : Option Nat)
  | Command (value : Json)
  | Batch (lost : List Nat)
  | Pixels (reply : PixelReply)
  | Snapshot (bitmap : Option Bitmap)
  | GpuFrame (frame : Except Str F)
  | PaintFallback (bitmap : Except Str (Option Bitmap))
  | TaskBoundary (lost : List Nat)
  | ResourceDiagnostics (report : List Str)
  | Profiling

/-- What is asked of one context: a queued command, or a request of its own. -/
inductive Job
  | Queued (entry : Entry)
  | Asked (operation : Operation)

/-- The contexts that a request is about, in order. -/
def Operation.jobs (operation : Operation) : List (Nat × Job) :=
  match operation with
  | .Create _ _ _ _ _ => []
  | .Batch commands => commands.map fun command => (command.1, .Queued command.2)
  | .Command id _ _ | .Pixels id _ _ | .Snapshot id _ | .GpuFrame id | .PaintFallback id => [(id, .Asked operation)]
  | .TaskBoundary ids | .ResourceDiagnostics ids | .Profiling ids _ => ids.map fun id => (id, .Asked operation)

/-! ## The owner's contexts -/

/-- A native context `G` with its driver, what a frame `F` is, and the JSON of commands and options. -/
structure Native (G F : Type) where
  fromStr : Str → Option Command
  api : Str → Option ApiVersion
  /-- A new context, given the bytes that the others hold. -/
  create : Nat → Nat → Nat → Str → Option G
  version : G → ApiVersion
  resource_bytes : G → Nat
  /-- The resource limit, given the bytes that the others hold. -/
  limit : G → Nat → G
  make_current : G → Bool × G
  dispatch_data : G → Command → Option (List UInt8) → Except Nat Json × G
  progress_program_links : G → Except Nat Unit × G
  progress_compilers : G → G
  error : G → Nat → G
  poisoned : G → Bool
  read_pixels_data : G → Command → Option (List UInt8) → Except Nat (List UInt8) × G
  snapshot : G → Bool → Option Bitmap × G
  poll_gpu_frame : G → Except Str F × G
  /-- The last frame, if it still shows what was drawn. -/
  last_gpu_bitmap : G → Option (Except Str (Option Bitmap))
  complete_gpu_task : G → Except Nat Unit × G
  enable_profile : G → Bool → G
  diagnostics : G → Nat → List Str × G

/-- `{"lost":true}` -/
def LOST : Json := .Object [("lost".toList, .Bool true)]

def isLost : Json → Bool
  | .Object fields =>
    match fields.find? fun field => decide (field.1 = "lost".toList) with
    | some (_, .Bool lost) => lost
    | _ => false
  | _ => false

def Reply.isLost {F : Type} : Reply F → Bool
  | .Command value => Session.isLost value
  | .Pixels .Lost => true
  | _ => false

/-- A job, its context, and whether the context was lost instead. -/
structure Handled where
  id : Nat
  job : Job
  lost : Bool

/-- The contexts and the last name; `handled` records the jobs that the owner was given. -/
structure BackendContexts (G : Type) where
  contexts : OrdMap Nat G
  next : Nat
  handled : List Handled

namespace BackendContexts

variable {G F : Type} (native : Native G F)

def default : BackendContexts G := ⟨.empty, 0, []⟩

def set (backend : BackendContexts G) (id : Nat) (context : G) : BackendContexts G :=
  { backend with contexts := backend.contexts.insert id context }

def remove (backend : BackendContexts G) (id : Nat) : BackendContexts G :=
  { backend with contexts := backend.contexts.erase id }

def note (backend : BackendContexts G) (handled : List Handled) : BackendContexts G :=
  { backend with handled := backend.handled ++ handled }

def other_bytes (backend : BackendContexts G) (id : Nat) : Nat :=
  (backend.contexts.erase id).weight fun _ context => native.resource_bytes context

def create (backend : BackendContexts G) (width height : Nat) (options : Str) : Option Nat × BackendContexts G :=
  if MAX_NATIVE_CONTEXTS ≤ backend.contexts.len then (none, backend)
  else
    let existing := backend.contexts.weight fun _ context => native.resource_bytes context
    match checkedAdd 32 backend.next 1, native.create existing width height options with
    | some next, some context => (some next, { backend with next := next, contexts := backend.contexts.insert next context })
    | _, _ => (none, backend)

def set_profiling (backend : BackendContexts G) (ids : List Nat) (enabled : Bool) : BackendContexts G :=
  (ids.take MAX_CONTEXTS).foldl (fun backend id =>
    match backend.contexts.get id with
    | some context => backend.set id (native.enable_profile context enabled)
    | none => backend) backend

def command_error (backend : BackendContexts G) (id error : Nat) : Json × BackendContexts G :=
  match backend.contexts.get id with
  | none => (LOST, backend)
  | some context => (.Null, backend.set id (native.error context error))

/-- The context is current already, or is made so. -/
def activated (context : G) (already_current : Bool) : Bool × G :=
  if already_current = true then (true, context) else native.make_current context

/-- What a command leaves behind, and its value. -/
def dispatched (context : G) (command : Command) (bytes : Option (List UInt8)) : Except Nat Json × G :=
  let result := native.dispatch_data context command bytes
  if command.op = "compileShader".toList ∨ command.op = "linkProgram".toList then
    match native.progress_program_links result.2 with
    | (.ok _, context) => (result.1, context)
    | (.error error, context) => (result.1, native.error context error)
  else result

def execute_command_bound (backend : BackendContexts G) (id : Nat) (command : Command) (bytes : Option (List UInt8))
    (already_current : Bool) : Json × BackendContexts G :=
  match backend.contexts.get id with
  | none => (LOST, backend)
  | some context =>
    let context := native.limit context (backend.other_bytes native id)
    let current := activated native context already_current
    if current.1 = false then (LOST, backend.set id current.2)
    else
      let result := dispatched native current.2 command bytes
      if native.poisoned result.2 = true then (LOST, (backend.set id result.2).remove id)
      else
        match result.1 with
        | .ok value => (value, backend.set id result.2)
        | .error error => (.Null, backend.set id (native.error result.2 error))

def execute_data (backend : BackendContexts G) (id : Nat) (command : Str) (bytes : Option (List UInt8)) :
    Json × BackendContexts G :=
  if MAX_COMMAND_BYTES < byteLen command ∨ bytes.any (fun b => decide (MAX_UPLOAD_BYTES < b.length)) = true then
    backend.command_error native id gl.OUT_OF_MEMORY
  else
    match native.fromStr command with
    | none => backend.command_error native id gl.INVALID_VALUE
    | some command => backend.execute_command_bound native id command bytes false

/-- The state of a batch: the contexts, the lost ones and the context that is current. -/
structure Batch (G : Type) where
  backend : BackendContexts G
  lost : Finset Nat
  current : Option Nat

def executeEntry (batch : Batch G) (id : Nat) : Entry → Json × Option Nat × BackendContexts G
  | .Numeric command =>
    let result := batch.backend.execute_command_bound native id command.write_command none
      (decide (batch.current = some id))
    (result.1, some id, result.2)
  | .Json source =>
    let result := batch.backend.execute_data native id source none
    (result.1, none, result.2)
  | .Upload source bytes =>
    let result := batch.backend.execute_data native id source (some bytes)
    (result.1, none, result.2)

def batchStep (batch : Batch G) (command : Nat × Entry) : Batch G :=
  if command.1 ∈ batch.lost then
    { batch with backend := batch.backend.note [⟨command.1, .Queued command.2, true⟩] }
  else
    let result := executeEntry native batch command.1 command.2
    let backend := result.2.2.note [⟨command.1, .Queued command.2, isLost result.1⟩]
    if isLost result.1 = true then ⟨backend, insert command.1 batch.lost, none⟩
    else ⟨backend, batch.lost, result.2.1⟩

def execute_batch (backend : BackendContexts G) (commands : List (Nat × Entry)) : List Nat × BackendContexts G :=
  let batch := commands.foldl (batchStep native) ⟨backend, ∅, none⟩
  (batch.lost.sort (· ≤ ·), batch.backend)

def read_pixels_owned (backend : BackendContexts G) (id : Nat) (command : Str) (input : Option (List UInt8)) :
    PixelReply × BackendContexts G :=
  match backend.contexts.get id with
  | none => (.Lost, backend)
  | some context =>
    let context := native.limit context (backend.other_bytes native id)
    let refused := fun error => (PixelReply.Error, backend.set id (native.error context error))
    if 1024 < byteLen command ∨ input.any (fun b => decide (MAX_UPLOAD_BYTES < b.length)) = true then
      refused gl.OUT_OF_MEMORY
    else
      match native.fromStr command with
      | none => refused gl.INVALID_VALUE
      | some command =>
        if command.op ≠ "readPixels".toList ∧ command.op ≠ "getBufferSubData".toList then
          refused gl.INVALID_OPERATION
        else
          let current := native.make_current context
          if current.1 = false then (.Lost, backend.set id current.2)
          else
            match native.read_pixels_data current.2 command input with
            | (.ok bytes, context) => (.Bytes bytes, backend.set id context)
            | (.error error, context) => (.Error, backend.set id (native.error context error))

def snapshot_pixels (backend : BackendContexts G) (id : Nat) (straight_alpha : Bool) :
    Option Bitmap × BackendContexts G :=
  match backend.contexts.get id with
  | none => (none, backend)
  | some context =>
    if native.poisoned context = true then (none, backend)
    else
      let current := native.make_current context
      if current.1 = false then (none, backend.set id current.2)
      else
        let result := native.snapshot current.2 straight_alpha
        (result.1, backend.set id result.2)

def gpu_frame (backend : BackendContexts G) (id : Nat) : Except Str F × BackendContexts G :=
  match backend.contexts.get id with
  | none => (.error "GPU Canvas context is unavailable".toList, backend)
  | some context =>
    let result := native.poll_gpu_frame context
    (result.1, backend.set id result.2)

def paint_fallback (backend : BackendContexts G) (id : Nat) : Except Str (Option Bitmap) × BackendContexts G :=
  match backend.contexts.get id with
  | none => (.error "GPU Canvas context is unavailable".toList, backend)
  | some context =>
    if native.poisoned context = true then (.error "GPU Canvas context is lost".toList, backend)
    else
      match native.last_gpu_bitmap context with
      | some bitmap => (bitmap, backend)
      | none =>
        match backend.snapshot_pixels native id true with
        | (some bitmap, backend) => (.ok (some bitmap), backend)
        | (none, backend) => (.error "GPU Canvas fallback readback is unavailable".toList, backend)

/-- One context of a task boundary, with the contexts that were lost before it. -/
def taskStep (task : List Nat × BackendContexts G) (id : Nat) : List Nat × BackendContexts G :=
  match task.2.contexts.get id with
  | none => (task.1 ++ [id], task.2)
  | some context =>
    if native.version context ≠ .Two then task
    else
      let current := native.make_current context
      if current.1 = false then (task.1 ++ [id], task.2.set id current.2)
      else
        match native.complete_gpu_task current.2 with
        | (.ok _, context) => (task.1, task.2.set id context)
        | (.error _, context) => (task.1 ++ [id], task.2.set id context)

def complete_task (backend : BackendContexts G) (ids : List Nat) : List Nat × BackendContexts G :=
  let task := ids.foldl (taskStep native) ([], backend)
  (task.1, task.1.foldl remove task.2)

def diagnosticStep (reports : List Str × BackendContexts G) (id : Nat) : List Str × BackendContexts G :=
  match reports.2.contexts.get id with
  | none => reports
  | some context =>
    let report := native.diagnostics context id
    (reports.1 ++ report.1, reports.2.set id report.2)

def resource_diagnostics (backend : BackendContexts G) (ids : List Nat) : List Str × BackendContexts G :=
  (ids.take MAX_CONTEXTS).foldl (diagnosticStep native) ([], backend)

def progress_compilers (backend : BackendContexts G) : BackendContexts G :=
  { backend with contexts := backend.contexts.mapValues fun _ context => native.progress_compilers context }

end BackendContexts

/-! ## The owner thread -/

structure Owner (G : Type) where
  backend : BackendContexts G
  leases : OrdMap Nat (Option Nat)

namespace Owner

variable {G F : Type} (native : Native G F)

def default : Owner G := ⟨.default, .empty⟩

def remove (owner : Owner G) (id : Nat) : Owner G := ⟨owner.backend.remove id, owner.leases.erase id⟩

/-- The lease is held. -/
def alive (held : Finset Nat) : Option Nat → Bool
  | none => true
  | some lease => decide (lease ∈ held)

/-- Contexts whose lease nobody holds are removed. -/
def retain (owner : Owner G) (held : Finset Nat) : Owner G :=
  (owner.leases.entries.filter fun entry => !alive held entry.2).foldl (fun owner entry => owner.remove entry.1) owner

/-- What the owner does whenever it has looked into the mailbox. -/
def sweep (owner : Owner G) (retired : List Nat) (held : Finset Nat) : Owner G :=
  (retired.foldl remove owner).retain held

/-- The reply, the contexts to remove if nobody reads it, and the owner. -/
def execute (owner : Owner G) (held : Finset Nat) : Operation → Reply F × List Nat × Owner G
  | .Create width height options lease profiling =>
    if alive held lease = false then (.Created none, [], owner)
    else
      match owner.backend.create native width height options with
      | (none, backend) => (.Created none, [], { owner with backend := backend })
      | (some id, backend) =>
        (.Created (some id), [id], ⟨backend.set_profiling native [id] profiling, owner.leases.insert id lease⟩)
  | .Command id command bytes =>
    let result := owner.backend.execute_data native id command bytes
    (.Command result.1, [id], { owner with backend := result.2 })
  | .Batch commands =>
    let result := owner.backend.execute_batch native commands
    (.Batch result.1, commands.map Prod.fst, { owner with backend := result.2 })
  | .Pixels id command bytes =>
    let result := owner.backend.read_pixels_owned native id command bytes
    (.Pixels result.1, [id], { owner with backend := result.2 })
  | .Snapshot id straight_alpha =>
    let result := owner.backend.snapshot_pixels native id straight_alpha
    (.Snapshot result.1, [id], { owner with backend := result.2 })
  | .GpuFrame id =>
    let result := owner.backend.gpu_frame native id
    (.GpuFrame result.1, [id], { owner with backend := result.2 })
  | .PaintFallback id =>
    let result := owner.backend.paint_fallback native id
    (.PaintFallback result.1, [id], { owner with backend := result.2 })
  | .TaskBoundary ids =>
    let result := owner.backend.complete_task native ids
    (.TaskBoundary result.1, [], ⟨result.2, owner.leases.eraseAll result.1⟩)
  | .ResourceDiagnostics ids =>
    let result := owner.backend.resource_diagnostics native ids
    (.ResourceDiagnostics result.1, [], { owner with backend := result.2 })
  | .Profiling ids enabled =>
    (.Profiling, [], { owner with backend := owner.backend.set_profiling native ids enabled })

/-- The jobs of a request, for the record; a batch records its own. -/
def noted (operation : Operation) (reply : Reply F) : List Handled :=
  match operation with
  | .Batch _ => []
  | _ => operation.jobs.map fun job => ⟨job.1, job.2, reply.isLost⟩

/-- Carries a request out and records it. -/
def perform (owner : Owner G) (held : Finset Nat) (operation : Operation) : Reply F × List Nat × Owner G :=
  let result := owner.execute native held operation
  (result.1, result.2.1, { result.2.2 with backend := result.2.2.backend.note (noted operation result.1) })

end Owner

end BetterWebBrowser.Webgl.Session
