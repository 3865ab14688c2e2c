import BetterWebBrowser.Webgl.IndexedBuffers

/-!
# Captures

Transform feedback objects and the captures they hold. The room of a capture is counted once, when
it begins.
-/

namespace BetterWebBrowser.Webgl

open Framework
open targets

namespace Ledger

def components (kind : Nat) : Option Nat :=
  if [gl.FLOAT, gl.INT, gl.UNSIGNED_INT].contains kind then some 1
  else if [0x8b50, 0x8b53, 0x8dc6].contains kind then some 2
  else if [0x8b51, 0x8b54, 0x8dc7].contains kind then some 3
  else if [0x8b52, 0x8b55, 0x8dc8, 0x8b5a].contains kind then some 4
  else if kind = 0x8b5b then some 9
  else if kind = 0x8b5c then some 16
  else if [0x8b65, 0x8b67].contains kind then some 6
  else if [0x8b66, 0x8b69].contains kind then some 8
  else if [0x8b68, 0x8b6a].contains kind then some 12
  else none

/-- The bytes of one captured output. -/
def varying_bytes (name_length : Int) (varying : Varying) : Result Nat := do
  failIf (varying.length < 0 ∨ name_length ≤ varying.length ∨ varying.size < 1) (.Returned gl.INVALID_OPERATION)
  let components ← orError gl.INVALID_OPERATION (components varying.kind)
  let numbers ← orError gl.INVALID_OPERATION (unsignedWord 64 (components * varying.size.toNat))
  orError gl.INVALID_OPERATION (unsignedWord 64 (numbers * 4))

/-- The bytes that a vertex leaves in each binding: one output in each, or all in one. -/
def strides (driver : Driver) (program : Nat) : Result (List Nat) := do
  let count := driver.transform_varyings program
  let mode := driver.transform_buffer_mode program
  let name_length := driver.transform_name_length program
  failIf (¬(1 ≤ count ∧ count ≤ 64) ∨ ¬(1 ≤ name_length ∧ name_length ≤ 1025)) (.Returned gl.INVALID_OPERATION)
  failIf (mode ≠ 0x8c8d ∧ mode ≠ 0x8c8c) (.Returned gl.INVALID_OPERATION)
  let strides ← (List.range count.toNat).mapM fun index =>
    varying_bytes name_length (driver.transform_varying program index)
  if mode = 0x8c8d then .ok strides
  else do
    let sum ← strides.foldlM (fun sum stride => orError gl.INVALID_OPERATION (checkedAdd 64 sum stride)) 0
    .ok [sum]

end Ledger

namespace WebGl

/-- How many vertices the bindings have room for. -/
def room (context : WebGl) (record : Record) (strides : List Nat) : Result Nat :=
  strides.zipIdx.foldlM (fun capacity entry => do
    let binding ← orError gl.INVALID_OPERATION record.bindings[entry.2]?
    let buffer ← context.objects.get binding.id .Buffer
    .ok (min capacity (available binding buffer.bytes.length / entry.1))) (2 ^ 64 - 1)

def new_transform_ledger (driver : Driver) (mode : Nat) (context : WebGl) : Result Ledger := do
  let program ← context.objects.get context.program .Program
  let strides ← Ledger.strides driver program.native
  let _ ← orError gl.INVALID_OPERATION context.core
  let record ← context.bound_record
  let capacity ← context.room record strides
  .ok ⟨mode, capacity, 0⟩

/-! ## Objects -/

def create_transform_feedback (driver : Driver) : Gl Nat := do
  let context ← Method.get
  let _ ← Method.ofExcept (orPanic context.core)
  let created ← Method.ofExcept (context.objects.insert .TransformFeedback (driver.generate context.objects))
  Method.modify fun context => { context with
    objects := created.2
    transform_feedback := { context.transform_feedback with
      records := context.transform_feedback.records.insert created.1 (.new context.transform_feedback.count) } }
  pure created.1

def check_transform_binding (c : Command) (context : WebGl) : Result (Nat × Record) := do
  let target ← c.u 0
  failIf (target ≠ 0x8e22) (.Returned gl.INVALID_ENUM)
  let id ← c.u 1
  let _ ← context.objects.name id .TransformFeedback
  let bound ← context.bound_record
  failIf (bound.active = true ∧ bound.paused = false) (.Returned gl.INVALID_OPERATION)
  let _ ← orPanic context.core
  let record ← orPanic (context.transform_feedback.records.get id)
  .ok (id, record)

def bind_transform_feedback (c : Command) : Gl Unit := do
  let (id, record) ← Method.read (check_transform_binding c)
  Method.modify fun context => { context with transform_feedback := { context.transform_feedback with
    bound := id
    records := context.transform_feedback.records.insert id { record with seen := true } } }

/-- The record of a deleted object gives up its buffers. -/
def drop_record (id : Nat) : Gl Unit := do
  let context ← Method.get
  let record ← Method.ofExcept (orPanic (context.transform_feedback.records.get id))
  Method.modify fun context => { context with
    objects := release_all (record.bindings.map fun binding => binding.id) context.objects
    transform_feedback := { context.transform_feedback with
      records := context.transform_feedback.records.erase id } }

def check_transform_deletion (id : Nat) (context : WebGl) : Result Unit := do
  let _ ← context.objects.get id .TransformFeedback
  let record ← orPanic (context.transform_feedback.records.get id)
  failIf (record.active = true) (.Returned gl.INVALID_OPERATION)

def delete_known_feedback (id : Nat) : Gl Unit := do
  Method.read (check_transform_deletion id)
  Method.modify fun context => { context with transform_feedback := { context.transform_feedback with
    bound := if context.transform_feedback.bound = id then 0 else context.transform_feedback.bound } }
  delete_object id .TransformFeedback
  drop_record id

def delete_transform_feedback (c : Command) : Gl Unit := do
  let id ← Method.ofExcept (c.u 0)
  if id = 0 then pure () else delete_known_feedback id

/-! ## One capture -/

def invalidate_mirror (id : Nat) : Gl Unit := do
  forget_ranges id
  let context ← Method.get
  let objects ← Method.ofExcept
    (context.objects.get_mut id .Buffer fun object => { object with buffer_mirror_valid := false })
  Method.modify fun context => { context with objects := objects }

/-- The driver may write to the captured buffers from now on. -/
def invalidate_captured : List Binding → Gl Unit
  | [] => pure ()
  | binding :: bindings => do
    Method.onlyIf (binding.id ≠ 0) (invalidate_mirror binding.id)
    invalidate_captured bindings

/-- No buffer is captured twice. -/
def distinct_bindings (record : Record) : Bool :=
  decide ((record.bindings.filter fun binding => decide (binding.id ≠ 0)).map fun binding => binding.id).Nodup

def check_begin (driver : Driver) (c : Command) (context : WebGl) : Result (Record × Ledger) := do
  let record ← context.bound_record
  let _ ← orPanic context.core
  let mode ← c.u 0
  failIf (mode ≠ gl.POINTS ∧ mode ≠ gl.LINES ∧ mode ≠ gl.TRIANGLES) (.Returned gl.INVALID_ENUM)
  failIf (record.active = true) (.Returned gl.INVALID_OPERATION)
  context.validate_program driver
  failIf (distinct_bindings record = false) (.Returned gl.INVALID_OPERATION)
  let ledger ← new_transform_ledger driver mode context
  .ok (record, ledger)

def retain_program : Gl Unit := do
  let context ← Method.get
  let objects ← Method.ofExcept (context.objects.retain context.program .Program)
  Method.modify fun context => { context with objects := objects }

def begin_transform_feedback (driver : Driver) (c : Command) : Gl Unit := do
  let (record, ledger) ← Method.read (check_begin driver c)
  invalidate_captured record.bindings
  retain_program
  let context ← Method.get
  write_record fun record => { record with active := true, program := context.program, ledger := ledger }

def end_transform_feedback : Gl Unit := do
  let context ← Method.get
  let record ← Method.ofExcept context.bound_record
  Method.failIf (record.active = false) (.Returned gl.INVALID_OPERATION)
  Method.modify fun context => { context with objects := context.objects.release record.program }
  write_record fun record => { record with active := false, paused := false, program := 0, ledger := .default }

def pause_transform_feedback : Gl Unit := do
  let context ← Method.get
  let record ← Method.ofExcept context.bound_record
  Method.failIf (record.active = false ∨ record.paused = true) (.Returned gl.INVALID_OPERATION)
  write_record fun record => { record with paused := true }

def resume_transform_feedback : Gl Unit := do
  let context ← Method.get
  let record ← Method.ofExcept context.bound_record
  Method.failIf (record.active = false ∨ record.paused = false) (.Returned gl.INVALID_OPERATION)
  Method.failIf (record.program ≠ context.program) (.Returned gl.INVALID_OPERATION)
  invalidate_captured record.bindings
  write_record fun record => { record with paused := false }

end WebGl

end BetterWebBrowser.Webgl
