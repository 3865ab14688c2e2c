import BetterWebBrowser.Webgl.AttributeValidation

/-!
# Draws

The draw commands. Each checks everything first and gives the driver one call.
-/

namespace BetterWebBrowser.Webgl

open Framework

/-- `i32::MAX` -/
def I32_MAX : Nat := 2 ^ 31 - 1

def MAX_DRAWS : Nat := 4096

def checked_mode (mode : Nat) : Result Nat :=
  if [gl.POINTS, gl.LINES, gl.LINE_LOOP, gl.LINE_STRIP, gl.TRIANGLES, gl.TRIANGLE_STRIP, gl.TRIANGLE_FAN].contains
    mode then .ok mode
  else Err gl.INVALID_ENUM

namespace WebGl

/-! ## The driver call -/

/-- The draw writes to the buffers of a capture that runs. -/
def executed (driver : Driver) (call : NativeDraw) (context : WebGl) : WebGl :=
  match context.bound_record with
  | .error _ => context
  | .ok record =>
    if context.api = .Two ∧ record.active = true ∧ record.paused = false then
      { context with objects := record.bindings.foldl (fun objects binding =>
        objects.update binding.id fun object =>
          { object with contents := driver.captured call binding.id object.contents }) context.objects }
    else context

/-- The draw call of an admitted command, and its accounting. -/
def perform (driver : Driver) (admitted : Option (NativeDraw × Nat)) : Gl Unit :=
  match admitted with
  | none => pure ()
  | some (call, captured) => do
    Method.modify fun context =>
      { executed driver call context with calls := context.calls ++ [call] }
    Method.ofExcept (driver.draw_result call)
    record_transform_capture captured

/-! ## One draw -/

def checkArrays (driver : Driver) (c : Command) : Gl (Option (NativeDraw × Nat)) := do
  let mode ← Method.ofExcept (c.u 0 >>= checked_mode)
  let first ← Method.ofExcept (c.u 1)
  let count ← Method.ofExcept (c.u 2)
  Method.failIf (MAX_DRAW_VERTICES < count ∨ I32_MAX < first + (count - 1)) (.Returned gl.INVALID_VALUE)
  Method.onlyIf (count ≠ 0) (validate_attributes driver (first + (count - 1)))
  Method.read (validate_program driver)
  let captured ← Method.read fun context => context.prepare_transform_capture mode false [(count, 1)]
  Method.read sampling_guard
  Method.read validate_framebuffer
  pure (some (⟨mode, none, [⟨first, count, 1⟩]⟩, captured))

def drawArrays (driver : Driver) (c : Command) : Gl Unit := do
  let admitted ← checkArrays driver c
  perform driver admitted

/-- The attributes are checked unless all indices restart a primitive. -/
def validate_indexed (driver : Driver) (maximum : Option Nat) (instances : Nat) (instanced : Bool) : Gl Unit :=
  match maximum with
  | none => pure ()
  | some maximum => validate_instance_attributes driver maximum instances instanced

def checkElements (driver : Driver) (c : Command) : Gl (Option (NativeDraw × Nat)) := do
  let mode ← Method.ofExcept (c.u 0 >>= checked_mode)
  let count ← Method.ofExcept (c.u 1)
  let kind ← Method.ofExcept (c.u 2)
  let offset ← Method.ofExcept (c.u 3)
  let size ← Method.read fun context => context.index_size kind
  Method.failIf (MAX_DRAW_VERTICES < count) (.Returned gl.INVALID_VALUE)
  Method.failIf (¬size ∣ offset) (.Returned gl.INVALID_OPERATION)
  if count = 0 then do
    Method.read (validate_program driver)
    pure none
  else do
    let maximum ← maximum_index driver count size offset
    validate_indexed driver maximum 1 false
    Method.read (validate_program driver)
    Method.read sampling_guard
    Method.read validate_framebuffer
    pure (some (⟨mode, some kind, [⟨offset, count, 1⟩]⟩, 0))

def drawElements (driver : Driver) (c : Command) : Gl Unit := do
  let admitted ← checkElements driver c
  perform driver admitted

/-- The range hints are checked and ignored. -/
def rangeCommand (c : Command) (context : WebGl) : Result Command := do
  failIf (context.api ≠ .Two) (.Returned gl.INVALID_OPERATION)
  let start ← c.u 1
  let stop ← c.u 2
  failIf (stop < start) (.Returned gl.INVALID_VALUE)
  let mode ← c.u 0
  let count ← c.n 3
  let kind ← c.u 4
  let offset ← orError gl.INVALID_VALUE c.i[5]?
  .ok ⟨.drawElements, [(mode : Int), count, (kind : Int), offset], [], []⟩

def draw_range_elements (driver : Driver) (c : Command) : Gl Unit := do
  let draw ← Method.read (rangeCommand c)
  drawElements driver draw

/-! ## Instances of one draw -/

/-- The check of the work of an instanced draw. -/
def check_work (driver : Driver) (mode count instances : Nat) : Gl Unit :=
  if MAX_DRAW_VERTICES < count ∨ MAX_DRAW_VERTICES < instances ∨ 2 ^ 32 ≤ count * instances ∨
      MAX_DRAW_VERTICES < count * instances then do
    Method.read fun context =>
      if mode = gl.POINTS then context.validate_transform_point_capacity driver count instances else .ok ()
    Method.ofExcept (Err gl.INVALID_VALUE)
  else pure ()

def checkElementsInstanced (driver : Driver) (c : Command) (mode count instances captured : Nat) :
    Gl (Option (NativeDraw × Nat)) := do
  let kind ← Method.ofExcept (c.u 2)
  let offset ← Method.ofExcept (c.u 3)
  let size ← Method.read fun context => context.index_size kind
  Method.failIf (¬size ∣ offset) (.Returned gl.INVALID_OPERATION)
  if count = 0 ∨ instances = 0 then pure none
  else do
    let maximum ← maximum_index driver count size offset
    validate_indexed driver maximum instances true
    Method.read fun context => failIf (context.extensions.elements = false) (.Returned gl.INVALID_OPERATION)
    Method.read sampling_guard
    pure (some (⟨mode, some kind, [⟨offset, count, instances⟩]⟩, captured))

def checkArraysInstanced (driver : Driver) (c : Command) (mode count instances captured : Nat) :
    Gl (Option (NativeDraw × Nat)) := do
  let first ← Method.ofExcept (c.u 1)
  Method.failIf (2 ^ 32 ≤ first + count ∨ I32_MAX < first ∨ I32_MAX + 1 < first + count)
    (.Returned gl.INVALID_VALUE)
  if count = 0 ∨ instances = 0 then pure none
  else do
    validate_instance_attributes driver (first + count - 1) instances true
    Method.read fun context => failIf (context.extensions.arrays = false) (.Returned gl.INVALID_OPERATION)
    Method.read sampling_guard
    pure (some (⟨mode, none, [⟨first, count, instances⟩]⟩, captured))

def Command.elementsInstanced (c : Command) : Bool :=
  decide (c.op = .drawElementsInstancedANGLE ∨ c.op = .drawElementsInstanced)

def checkInstanced (driver : Driver) (c : Command) : Gl (Option (NativeDraw × Nat)) := do
  Method.read fun context => failIf (context.extensions.instancing = false) (.Returned gl.INVALID_OPERATION)
  let mode ← Method.ofExcept (c.u 0 >>= checked_mode)
  let indexed := Command.elementsInstanced c
  let count ← Method.ofExcept (c.u (if indexed then 1 else 2))
  let instances ← Method.ofExcept (c.u (if indexed then 4 else 3))
  check_work driver mode count instances
  Method.read (validate_program driver)
  Method.read validate_framebuffer
  let captured ← Method.read fun context =>
    context.prepare_transform_capture mode indexed [(count, instances)]
  if indexed then checkElementsInstanced driver c mode count instances captured
  else checkArraysInstanced driver c mode count instances captured

/-- The part of `instanced_command` that draws. -/
def instanced_command (driver : Driver) (c : Command) : Gl Unit := do
  let admitted ← checkInstanced driver c
  perform driver admitted

end WebGl

/-! ## Lists of draws -/

structure Batch where
  mode : Nat
  kind : Nat
  indexed : Bool
  instanced : Bool
  draws : List Draw
  work : Nat

namespace Batch

def parseDraw (c : Command) (batch : Batch) (index : Nat) : Result Batch := do
  let start ← c.n (3 + index * 3)
  let count ← c.n (3 + index * 3 + 1)
  let instances ← c.n (3 + index * 3 + 2)
  failIf (start < 0 ∨ count < 0 ∨ instances < 0 ∨ (batch.instanced = false ∧ instances ≠ 1))
    (.Returned gl.INVALID_VALUE)
  failIf (batch.indexed = false ∧ (I32_MAX : Int) + 1 < start + count) (.Returned gl.INVALID_VALUE)
  let work ← orError gl.INVALID_VALUE (checkedAdd 64 batch.work (count.toNat * instances.toNat))
  .ok { batch with draws := batch.draws ++ [⟨start.toNat, count.toNat, instances.toNat⟩], work := work }

def parse (c : Command) : Result Batch := do
  let mode ← c.u 0 >>= checked_mode
  let kind ← c.u 1
  let draws ← c.u 2
  failIf (MAX_DRAWS < draws) (.Returned gl.OUT_OF_MEMORY)
  failIf (c.i.length ≠ 3 + draws * 3 ∨ c.f ≠ [] ∨ c.text ≠ []) (.Returned gl.INVALID_VALUE)
  let indexed := decide (c.op = .multiDrawElementsWEBGL ∨ c.op = .multiDrawElementsInstancedWEBGL)
  let instanced := decide (c.op = .multiDrawArraysInstancedWEBGL ∨ c.op = .multiDrawElementsInstancedWEBGL)
  (List.range draws).foldlM (parseDraw c) ⟨mode, kind, indexed, instanced, [], 0⟩

end Batch

namespace WebGl

/-- The largest vertex of a draw, if it uses any. -/
def draw_maximum (driver : Driver) (indexed : Bool) (size : Nat) (draw : Draw) : Gl (Option Nat) :=
  if indexed then maximum_index driver draw.count size draw.start
  else Method.ofExcept ((orError gl.INVALID_VALUE (checkedAdd 32 draw.start (draw.count - 1))).map some)

/-- The largest vertex and the most instances so far. -/
def joinMaxima (maxima : Option Nat × Nat) (maximum : Option Nat) (instances : Nat) : Option Nat × Nat :=
  match maximum with
  | none => maxima
  | some maximum => (some (maxima.1.elim maximum (max · maximum)), max maxima.2 instances)

def batch_maxima (driver : Driver) (indexed : Bool) (size : Nat) : List Draw → Option Nat × Nat → Gl (Option Nat × Nat)
  | [], maxima => pure maxima
  | draw :: draws, maxima => do
    Method.failIf (indexed = true ∧ ¬size ∣ draw.start) (.Returned gl.INVALID_OPERATION)
    if draw.count = 0 ∨ draw.instances = 0 then batch_maxima driver indexed size draws maxima
    else do
      let maximum ← draw_maximum driver indexed size draw
      batch_maxima driver indexed size draws (joinMaxima maxima maximum draw.instances)

def checkBatch (driver : Driver) (c : Command) : Gl (Option (NativeDraw × Nat)) := do
  Method.read fun context => failIf (context.extensions.multi_draw = false) (.Returned gl.INVALID_OPERATION)
  let batch ← Method.ofExcept (Batch.parse c)
  Method.failIf (MAX_DRAW_VERTICES < batch.work ∨
    ∃ draw ∈ batch.draws, MAX_DRAW_VERTICES < draw.count ∨ MAX_DRAW_VERTICES < draw.instances)
    (.Returned gl.INVALID_VALUE)
  let size ← Method.read fun context => if batch.indexed then context.index_size batch.kind else .ok 0
  Method.read (validate_program driver)
  Method.read validate_framebuffer
  let captured ← Method.read fun context => context.prepare_transform_capture batch.mode batch.indexed
    (batch.draws.map fun draw => (draw.count, draw.instances))
  let maxima ← batch_maxima driver batch.indexed size batch.draws (none, 0)
  validate_indexed driver maxima.1 maxima.2 batch.instanced
  Method.read fun context => failIf (context.extensions.multi_draw_entries = false) (.Returned gl.INVALID_OPERATION)
  Method.read sampling_guard
  pure (some (⟨batch.mode, if batch.indexed then some batch.kind else none, batch.draws⟩, captured))

def multi_draw_command (driver : Driver) (c : Command) : Gl Unit := do
  let admitted ← checkBatch driver c
  perform driver admitted

/-! ## Dispatch -/

/-- A function of WebGL 2 only. -/
def core_only (method : Gl Unit) : Gl Unit := do
  let context ← Method.get
  if context.api ≠ .Two then Method.ofExcept (Err gl.INVALID_OPERATION) else method

/-- The draw commands of `dispatch`. -/
def draw_command (driver : Driver) (c : Command) : Gl Unit :=
  match c.op with
  | .drawArrays => drawArrays driver c
  | .drawElements => drawElements driver c
  | .drawRangeElements => draw_range_elements driver c
  | .drawArraysInstanced | .drawElementsInstanced => core_only (instanced_command driver c)
  | .drawArraysInstancedANGLE | .drawElementsInstancedANGLE => instanced_command driver c
  | .multiDrawArraysWEBGL | .multiDrawElementsWEBGL | .multiDrawArraysInstancedWEBGL
  | .multiDrawElementsInstancedWEBGL => multi_draw_command driver c
  | _ => Method.ofExcept (Err gl.INVALID_OPERATION)

end WebGl

end BetterWebBrowser.Webgl
