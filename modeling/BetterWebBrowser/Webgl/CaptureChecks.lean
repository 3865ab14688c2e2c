import BetterWebBrowser.Webgl.Context

/-!
# What a capture forbids

A buffer that a draw may write to must not be read by it. An active capture also has a ledger of
the vertices it has room for.
-/

namespace BetterWebBrowser.Webgl

open Framework

namespace targets

def COPY_READ : Nat := 0x8f36
def COPY_WRITE : Nat := 0x8f37
def UNIFORM : Nat := 0x8a11
def PIXEL_PACK : Nat := 0x88eb
def PIXEL_UNPACK : Nat := 0x88ec
def TRANSFORM_FEEDBACK : Nat := 0x8c8e

end targets

open targets

namespace Ledger

def primitive (mode : Nat) : Result Nat :=
  if mode = gl.POINTS then .ok 1
  else if mode = gl.LINES then .ok 2
  else if mode = gl.TRIANGLES then .ok 3
  else Err gl.INVALID_OPERATION

/-- Incomplete primitives are not captured. -/
def complete (primitive : Nat) (draw : Nat × Nat) : Nat := (draw.1 - draw.1 % primitive) * draw.2

def prepare (ledger : Ledger) (mode : Nat) (indexed : Bool) (draws : List (Nat × Nat)) : Result Nat := do
  failIf (indexed = true ∨ mode ≠ ledger.mode) (.Returned gl.INVALID_OPERATION)
  let primitive ← primitive mode
  let vertices ← draws.foldlM (fun vertices draw =>
    orError gl.INVALID_OPERATION (checkedAdd 64 vertices (complete primitive draw))) 0
  let last ← orError gl.INVALID_OPERATION (checkedAdd 64 ledger.written vertices)
  failIf (ledger.capacity < last) (.Returned gl.INVALID_OPERATION)
  .ok vertices

end Ledger

namespace WebGl

def prepare_transform_capture (context : WebGl) (mode : Nat) (indexed : Bool) (draws : List (Nat × Nat)) :
    Result Nat :=
  if context.api = .One then .ok 0
  else do
    let record ← context.bound_record
    if record.active = false ∨ record.paused = true then .ok 0
    else record.ledger.prepare mode indexed draws

def record_transform_capture (vertices : Nat) : Gl Unit :=
  if vertices = 0 then pure ()
  else do
    let context ← Method.get
    let record ← Method.ofExcept context.bound_record
    Method.modify fun context => { context with transform_feedback := { context.transform_feedback with
      records := context.transform_feedback.records.insert context.transform_feedback.bound
        { record with ledger := { record.ledger with written := record.ledger.written + vertices } } } }

/-- What the range of a binding leaves of a buffer of this length. -/
def available (binding : Binding) (length : Nat) : Nat :=
  match binding.size with
  | none => length - binding.offset
  | some size => min size (length - binding.offset)

def validate_transform_point_capacity (driver : Driver) (context : WebGl) (count instances : Nat) :
    Result Unit :=
  if context.api ≠ .Two then .ok ()
  else do
    let record ← context.bound_record
    if record.active = false ∨ record.paused = true then .ok ()
    else do
      let program ← context.objects.get record.program .Program
      if driver.transform_varyings program.native ≤ 0 then .ok ()
      else do
        let binding ← orError gl.INVALID_OPERATION record.bindings.head?
        let object ← context.objects.get binding.id .Buffer
        let vertices ← orError gl.INVALID_OPERATION (unsignedWord 64 (count * instances))
        let minimum ← orError gl.INVALID_OPERATION (unsignedWord 64 (vertices * 4))
        failIf (available binding object.bytes.length < minimum) (.Returned gl.INVALID_OPERATION)

def validate_transform_buffer_use (context : WebGl) (target id : Nat) : Result Unit :=
  if context.api = .One ∨ id = 0 then .ok ()
  else do
    let record ← context.bound_record
    failIf (target ≠ TRANSFORM_FEEDBACK ∧ ∃ binding ∈ record.bindings, binding.id = id)
      (.Returned gl.INVALID_OPERATION)

/-- The buffer of a binding is bound somewhere else as well. -/
def bound_elsewhere (context : WebGl) (id : Nat) : Bool :=
  decide (context.array_buffer = id) ||
    (context.core_buffer_bindings.entries.any fun entry => decide (entry.1 ≠ TRANSFORM_FEEDBACK ∧ entry.2 = id)) ||
    context.indexed_uniforms.any fun uniform => decide (uniform.id = id)

def validate_transform_draw (driver : Driver) (context : WebGl) : Result Unit :=
  if context.api = .One then .ok ()
  else do
    let record ← context.bound_record
    (context.attributes.filter fun slot => slot.enabled).forM fun slot =>
      context.validate_transform_buffer_use gl.ARRAY_BUFFER slot.buffer
    failIf (record.active = true ∧ record.paused = false ∧
      ∃ binding ∈ record.bindings, binding.id ≠ 0 ∧ context.bound_elsewhere binding.id = true)
      (.Returned gl.INVALID_OPERATION)
    let program ← context.objects.get context.program .Program
    let count := driver.active_uniform_blocks program.native
    failIf (¬(0 ≤ count ∧ count ≤ 4096)) (.Returned gl.INVALID_OPERATION)
    let _ ← orPanic context.core
    (List.range count.toNat).forM fun index =>
      let binding := driver.uniform_block_binding program.native index
      if binding < 0 then .ok ()
      else match context.indexed_uniforms[binding.toNat]? with
        | none => .ok ()
        | some uniform => context.validate_transform_buffer_use UNIFORM uniform.id

def validate_program (driver : Driver) (context : WebGl) : Result Unit := do
  context.validate_transform_draw driver
  let program ← context.objects.get context.program .Program
  failIf (driver.link_status program.native = 0) (.Returned gl.INVALID_OPERATION)

end WebGl

end BetterWebBrowser.Webgl
