import BetterWebBrowser.Webgl.VertexArrays

/-!
# Indexed buffer bindings

Uniform ranges of the context and capture ranges of the bound transform feedback. Both also change
the generic binding of their target.
-/

namespace BetterWebBrowser.Webgl

open Framework
open targets

namespace WebGl

/-! ## Binding -/

/-- The buffer may be bound for uniforms or a capture. -/
def check_indexed (context : WebGl) (id : Nat) : Result Unit := do
  let _ ← context.objects.name id .Buffer
  if id = 0 then .ok ()
  else do
    let object ← context.objects.get id .Buffer
    failIf (object.pending_delete = true ∨ object.buffer_target = gl.ELEMENT_ARRAY_BUFFER)
      (.Returned gl.INVALID_OPERATION)

/-- The range of `bindBufferRange`; its alignment is that of the offset and of the size. -/
def indexed_range (c : Command) (alignment : Nat × Nat) (id : Nat) : Result Binding := do
  let offset ← address c 3
  let size ← address c 4
  failIf (size = 0 ∨ ¬alignment.2 ∣ size ∨ 2 ^ 63 ≤ offset + size) (.Returned gl.INVALID_VALUE)
  failIf (¬alignment.1 ∣ offset) (.Returned gl.INVALID_VALUE)
  .ok ⟨id, offset, some size⟩

/-- What is bound; without a buffer there is no range. -/
def new_binding (c : Command) (alignment : Nat × Nat) (id : Nat) : Result Binding :=
  if id ≠ 0 ∧ c.op = .bindBufferRange then indexed_range c alignment id else .ok ⟨id, 0, none⟩

/-- A buffer that is bound by an index holds no indices. -/
def classify_indexed (id : Nat) : Gl Unit :=
  Method.onlyIf (id ≠ 0) (write_object id fun object => { object with buffer_target := gl.ARRAY_BUFFER })

def check_uniform (driver : Driver) (c : Command) (context : WebGl) : Result (Nat × Binding × Binding) := do
  let index ← c.u 1
  let previous ← orError gl.INVALID_VALUE context.indexed_uniforms[index]?
  let id ← c.u 2
  context.check_indexed id
  failIf (id ≠ 0 ∧ c.op = .bindBufferRange ∧ driver.uniform_alignment < 1) (.Returned gl.INVALID_VALUE)
  let binding ← new_binding c (driver.uniform_alignment.toNat, 1) id
  let _ ← orError gl.INVALID_OPERATION context.core
  .ok (index, previous, binding)

def bind_uniform (driver : Driver) (c : Command) : Gl Unit := do
  let (index, previous, binding) ← Method.read (check_uniform driver c)
  let context ← Method.get
  let objects ← Method.ofExcept (context.objects.switch_buffer previous.id binding.id)
  Method.modify fun context => { context with
    objects := objects
    indexed_uniforms := context.indexed_uniforms.set index binding }
  classify_indexed binding.id
  Method.modify fun context =>
    { context with core_buffer_bindings := context.core_buffer_bindings.insert UNIFORM binding.id }

/-- A write to the bound record. -/
def write_record (write : Record → Record) : Gl Unit := do
  let context ← Method.get
  let record ← Method.ofExcept context.bound_record
  Method.modify fun context => { context with transform_feedback := { context.transform_feedback with
    records := context.transform_feedback.records.insert context.transform_feedback.bound (write record) } }

def check_capture_binding (c : Command) (context : WebGl) : Result (Nat × Binding × Binding) := do
  let index ← c.u 1
  let record ← context.bound_record
  let previous ← orError gl.INVALID_VALUE record.bindings[index]?
  failIf (record.active = true) (.Returned gl.INVALID_OPERATION)
  let id ← c.u 2
  context.check_indexed id
  let binding ← new_binding c (4, 4) id
  let _ ← orPanic context.core
  .ok (index, previous, binding)

def transform_buffer_command (c : Command) : Gl Unit := do
  let (index, previous, binding) ← Method.read (check_capture_binding c)
  let context ← Method.get
  let objects ← Method.ofExcept (context.objects.switch_buffer previous.id binding.id)
  Method.modify fun context => { context with objects := objects }
  write_record fun record => { record with bindings := record.bindings.set index binding }
  classify_indexed binding.id
  Method.modify fun context =>
    { context with core_buffer_bindings := context.core_buffer_bindings.insert TRANSFORM_FEEDBACK binding.id }

/-- `bindBufferBase` and `bindBufferRange` -/
def indexed_uniform_command (driver : Driver) (c : Command) : Gl Unit := do
  let context ← Method.get
  Method.failIf (context.api ≠ .Two) (.Returned gl.INVALID_OPERATION)
  let target ← Method.ofExcept (c.u 0)
  let _ ← Method.ofExcept (c.u 1)
  if target = TRANSFORM_FEEDBACK then transform_buffer_command c
  else if target = UNIFORM then bind_uniform driver c
  else Method.ofExcept (Err gl.INVALID_ENUM)

/-! ## Deletion of a buffer -/

/-- The bindings without the buffer. -/
def detached (id : Nat) (bindings : List Binding) : List Binding :=
  bindings.map fun binding => if binding.id = id then .default else binding

/-- One release for each binding of the buffer. -/
def release_bindings (id : Nat) (bindings : List Binding) (objects : Objects) : Objects :=
  release_all ((bindings.filter fun binding => decide (binding.id = id)).map fun binding => binding.id) objects

/-- The name that is bound to the target again after a detachment. -/
def check_generic (context : WebGl) (target id : Nat) : Result Unit := do
  let generic := (context.core_buffer_bindings.get target).getD 0
  let _ ← context.objects.name (if generic = id then 0 else generic) .Buffer
  .ok ()

def detach_capture (id : Nat) : Gl Unit := do
  let context ← Method.get
  let record ← Method.ofExcept context.bound_record
  let object ← Method.ofExcept (context.objects.get id .Buffer)
  Method.failIf (object.native_deleted = false ∧ record.active = true ∧ ∃ binding ∈ record.bindings, binding.id = id)
    (.Returned gl.INVALID_OPERATION)
  Method.modify fun context => { context with
    objects := release_bindings id record.bindings context.objects
    transform_feedback := { context.transform_feedback with
      records := context.transform_feedback.records.insert context.transform_feedback.bound
        { record with bindings := detached id record.bindings } } }
  Method.read fun context => context.check_generic TRANSFORM_FEEDBACK id

def detach_transform_buffer (id : Nat) : Gl Unit := do
  let context ← Method.get
  if context.api = .One then pure () else detach_capture id

def detach_core_buffer (id : Nat) : Gl Unit :=
  Method.modify fun context => { context with
    core_buffer_bindings := context.core_buffer_bindings.mapValues fun _ binding => if binding = id then 0 else binding }

def detach_uniforms (id : Nat) : Gl Unit := do
  let context ← Method.get
  let _ ← Method.ofExcept (orError gl.INVALID_OPERATION context.core)
  Method.modify fun context => { context with
    objects := release_bindings id context.indexed_uniforms context.objects
    indexed_uniforms := detached id context.indexed_uniforms }
  Method.read fun context => context.check_generic UNIFORM 0

def detach_indexed_uniform (id : Nat) : Gl Unit := do
  let context ← Method.get
  if context.api = .One then pure () else detach_uniforms id

/-- The slots of the current array without the buffer. -/
def detach_slots (id : Nat) : Gl Unit :=
  Method.modify fun context => { context with
    objects := release_all
      ((context.attributes.filter fun slot => decide (slot.buffer = id)).map fun slot => slot.buffer) context.objects
    attributes := context.attributes.map fun slot => if slot.buffer = id then { slot with buffer := 0 } else slot }

/-- WebGL 1 gives the driver a new array without the buffer. -/
def replace_array (driver : Driver) : Gl Unit := do
  let context ← Method.get
  let _ ← Method.ofExcept (context.array_native context.vertex_arrays.bound)
  let replacement ← rebuild_vertex_array driver
  if context.vertex_arrays.bound = 0 then Method.modify fun context =>
    { context with vertex_arrays := { context.vertex_arrays with default_native := replacement } }
  else do
    let _ ← Method.ofExcept (context.objects.get context.vertex_arrays.bound .VertexArray)
    write_object context.vertex_arrays.bound fun object => { object with native := replacement }

def detach_everywhere (driver : Driver) (id : Nat) : Gl Unit := do
  let context ← Method.get
  Method.onlyIf (context.api = .Two) (write_object id fun object => { object with native_deleted := true })
  detach_transform_buffer id
  detach_core_buffer id
  detach_indexed_uniform id
  Method.modify fun context =>
    { context with array_buffer := if context.array_buffer = id then 0 else context.array_buffer }
  Method.onlyIf (context.element_buffer = id) (switch_element 0)
  detach_slots id
  Method.onlyIf (context.vertex_arrays.default_native ≠ 0 ∧ context.api = .One) (replace_array driver)
  delete_object id .Buffer

def delete_buffer (driver : Driver) (id : Nat) : Gl Unit := do
  let context ← Method.get
  if id = 0 then pure ()
  else do
    let object ← Method.ofExcept (context.objects.get id .Buffer)
    if object.pending_delete = true then pure () else detach_everywhere driver id

end WebGl

end BetterWebBrowser.Webgl
