import BetterWebBrowser.Webgl.BufferCommands

/-!
# Vertex arrays

Attribute slots and the arrays that keep them. The bound array lives in the context; the others are
saved, and what was saved of the bound one before it was bound stays behind.
-/

namespace BetterWebBrowser.Webgl

open Framework

/-! ## Attribute slots -/

def component_bytes (kind : Nat) (api : ApiVersion) : Result Nat :=
  if kind = gl.BYTE ∨ kind = gl.UNSIGNED_BYTE then .ok 1
  else if kind = gl.SHORT ∨ kind = gl.UNSIGNED_SHORT then .ok 2
  else if kind = gl.FLOAT then .ok 4
  else if kind = 0x140b ∧ api = .Two then .ok 2
  else if [gl.INT, gl.UNSIGNED_INT, 0x8368, 0x8d9f].contains kind ∧ api = .Two then .ok 4
  else Err gl.INVALID_ENUM

/-- The buffers that an array refers to. -/
def VertexState.slots (state : VertexState) : List Nat :=
  state.element :: state.attributes.map fun slot => slot.buffer

namespace WebGl

def current_vertex_state (context : WebGl) : VertexState := ⟨context.attributes, context.element_buffer⟩

/-- Integer slots are never normalized. -/
def pointer_normalized (c : Command) (integer : Bool) : Result Nat := if integer then .ok 0 else c.u 3

/-- With a buffer the driver is told. -/
def check_pointer_buffer (context : WebGl) (integer : Bool) : Result Unit :=
  if context.array_buffer = 0 then .ok ()
  else do
    let _ ← context.objects.get context.array_buffer .Buffer
    failIf (integer = true ∧ context.core.isNone = true) (.Returned gl.INVALID_OPERATION)

/-- The slot and what is to be put there. -/
def check_pointer (c : Command) (context : WebGl) : Result (Nat × Attribute) := do
  let integer := decide (c.op = .vertexAttribIPointer)
  failIf (integer = true ∧ context.api ≠ .Two) (.Returned gl.INVALID_OPERATION)
  let index ← c.u 0
  let width ← c.u 1
  let kind ← c.u 2
  let normalized ← pointer_normalized c integer
  let stride ← c.u (if integer then 3 else 4)
  let offset ← c.u (if integer then 4 else 5)
  failIf (integer = true ∧ [gl.BYTE, gl.UNSIGNED_BYTE, gl.SHORT, gl.UNSIGNED_SHORT, gl.INT,
    gl.UNSIGNED_INT].contains kind = false) (.Returned gl.INVALID_ENUM)
  let component ← component_bytes kind context.api
  failIf (¬(1 ≤ width ∧ width ≤ 4) ∨ 255 < stride) (.Returned gl.INVALID_VALUE)
  let slot ← orError gl.INVALID_VALUE context.attributes[index]?
  let packed := decide (kind = 0x8368 ∨ kind = 0x8d9f)
  failIf ((packed = true ∧ width ≠ 4) ∨ ¬component ∣ offset ∨ ¬component ∣ stride ∨
    (context.array_buffer = 0 ∧ offset ≠ 0)) (.Returned gl.INVALID_OPERATION)
  context.check_pointer_buffer integer
  .ok (index,
    { buffer := context.array_buffer
      size := if packed then 4 else width * component
      width := width
      integer := integer
      stride := stride
      offset := offset
      enabled := slot.enabled
      divisor := slot.divisor
      kind := kind
      normalized := decide (normalized ≠ 0) })

/-- The slot takes another buffer and gives up the one it has. -/
def set_slot (index : Nat) (slot : Attribute) : Gl Unit := do
  let context ← Method.get
  let previous ← Method.ofExcept (orError gl.INVALID_VALUE context.attributes[index]?)
  let objects ← Method.ofExcept (context.objects.switch_buffer previous.buffer slot.buffer)
  Method.modify fun context => { context with objects := objects, attributes := context.attributes.set index slot }

def vertex_pointer (c : Command) : Gl Unit := do
  let (index, slot) ← Method.read (check_pointer c)
  set_slot index slot

/-- `enableVertexAttribArray` and `disableVertexAttribArray` -/
def enable_slot (c : Command) : Gl Unit := do
  let context ← Method.get
  let index ← Method.ofExcept (c.u 0)
  let slot ← Method.ofExcept (orError gl.INVALID_VALUE context.attributes[index]?)
  Method.modify fun context => { context with
    attributes := context.attributes.set index { slot with enabled := decide (c.op = .enableVertexAttribArray) } }

/-- `vertexAttribDivisor` and `vertexAttribDivisorANGLE` -/
def set_divisor (c : Command) : Gl Unit := do
  let context ← Method.get
  Method.failIf (context.extensions.instancing = false) (.Returned gl.INVALID_OPERATION)
  let index ← Method.ofExcept (c.u 0)
  let divisor ← Method.ofExcept (c.u 1)
  let slot ← Method.ofExcept (orError gl.INVALID_VALUE context.attributes[index]?)
  Method.failIf (context.extensions.divisor = false) (.Returned gl.INVALID_OPERATION)
  Method.modify fun context => { context with attributes := context.attributes.set index { slot with divisor := divisor } }

/-! ## Arrays -/

def array_native (context : WebGl) (id : Nat) : Result Nat :=
  if id = 0 then .ok context.vertex_arrays.default_native else context.objects.name id .VertexArray

/-- What rebuilding an array gives to the driver can be given. -/
def check_rebuild (context : WebGl) : Result Unit := do
  failIf (context.extensions.gen_arrays = false) (.Returned gl.INVALID_OPERATION)
  failIf (context.extensions.bind_array = false) (.Returned gl.INVALID_OPERATION)
  let _ ← context.array_native context.vertex_arrays.bound
  context.attributes.forM fun slot => do
    let _ ← context.objects.name slot.buffer .Buffer
    failIf (slot.buffer ≠ 0 ∧ slot.integer = true ∧ context.core.isNone = true) (.Returned gl.INVALID_OPERATION)
    failIf (context.extensions.instancing = true ∧ context.extensions.divisor = false)
      (.Returned gl.INVALID_OPERATION)
  let _ ← context.objects.name context.element_buffer .Buffer
  let _ ← context.objects.name context.array_buffer .Buffer
  .ok ()

/-- A driver array with the slots of the current one. -/
def rebuild_vertex_array (driver : Driver) : Gl Nat := do
  Method.read check_rebuild
  let context ← Method.get
  Method.onlyIf (context.vertex_arrays.default_native = 0) (Method.modify fun context => { context with
    vertex_arrays := { context.vertex_arrays with
      states := context.vertex_arrays.states.insert 0 context.current_vertex_state } })
  pure (driver.generate context.objects).val

def enable_vertex_arrays (driver : Driver) : Gl Unit := do
  let context ← Method.get
  if context.vertex_arrays.default_native ≠ 0 then pure ()
  else do
    let native ← rebuild_vertex_array driver
    Method.modify fun context =>
      { context with vertex_arrays := { context.vertex_arrays with default_native := native } }

def create_vertex_array (driver : Driver) : Gl Nat := do
  let context ← Method.get
  Method.failIf (context.extensions.gen_arrays = false) (.Returned gl.INVALID_OPERATION)
  let created ← Method.ofExcept (context.objects.insert .VertexArray (driver.generate context.objects))
  Method.modify fun context => { context with
    objects := created.2
    vertex_arrays := { context.vertex_arrays with
      states := context.vertex_arrays.states.insert created.1
        ⟨List.replicate context.attributes.length .default, 0⟩ } }
  pure created.1

/-- The saved state of the array that is to be bound. -/
def check_array (id : Nat) (context : WebGl) : Result VertexState := do
  let _ ← context.array_native id
  let next ← orError gl.INVALID_OPERATION (context.vertex_arrays.states.get id)
  failIf (context.extensions.bind_array = false) (.Returned gl.INVALID_OPERATION)
  .ok next

def bind_vertex_array (id : Nat) : Gl Unit := do
  let context ← Method.get
  if id = context.vertex_arrays.bound then pure ()
  else do
    let next ← Method.read (check_array id)
    Method.modify fun context => { context with
      vertex_arrays := { context.vertex_arrays with
        states := context.vertex_arrays.states.insert context.vertex_arrays.bound context.current_vertex_state
        bound := id }
      attributes := next.attributes
      element_buffer := next.element }

/-- Gives up what the slots refer to, one after the other. -/
def release_all (ids : List Nat) (objects : Objects) : Objects :=
  ids.foldl (fun objects id => if id = 0 then objects else objects.release id) objects

/-- The saved state goes and with it what it refers to. -/
def release_saved (id : Nat) : Gl Unit := do
  let context ← Method.get
  match context.vertex_arrays.states.get id with
  | none => pure ()
  | some state => Method.modify fun context => { context with
      objects := release_all state.slots context.objects
      vertex_arrays := { context.vertex_arrays with states := context.vertex_arrays.states.erase id } }

/-- The name of an object goes. -/
def delete_object (id : Nat) (kind : Kind) : Gl Unit := do
  let context ← Method.get
  let objects ← Method.ofExcept (context.objects.delete id kind)
  Method.modify fun context => { context with objects := objects }

def delete_known_array (id : Nat) : Gl Unit := do
  let context ← Method.get
  Method.onlyIf (context.vertex_arrays.bound = id) (bind_vertex_array 0)
  release_saved id
  delete_object id .VertexArray

def delete_vertex_array (id : Nat) : Gl Unit := do
  let context ← Method.get
  if id = 0 ∨ (context.objects.get id .VertexArray).isOk = false then pure () else delete_known_array id

/-- Vertex arrays are enabled. -/
def arrays_enabled (context : WebGl) : Result Unit :=
  failIf (context.vertex_arrays.default_native = 0) (.Returned gl.INVALID_OPERATION)

end WebGl

end BetterWebBrowser.Webgl
