import BetterWebBrowser.Webgl.Captures
import BetterWebBrowser.Webgl.Draws

/-!
# Commands

The dispatch of the commands on buffers, vertex arrays, captures and draws, and what they start
from.
-/

namespace BetterWebBrowser.Webgl

open Framework

inductive Reply
  | Null
  | name (id : Nat)
  | bytes (data : List UInt8)
deriving DecidableEq, Repr

namespace WebGl

/-- The method returns nothing. -/
def null (method : Gl Unit) : Gl Reply := do
  method
  pure .Null

/-- The method returns the name of a new object. -/
def named (method : Gl Nat) : Gl Reply := do
  let id ← method
  pure (.name id)

/-- A command of vertex arrays. -/
def with_arrays (method : Gl Reply) : Gl Reply := do
  Method.read arrays_enabled
  method

/-- A function of WebGL 2 only. -/
def two_only (method : Gl Reply) : Gl Reply := do
  let context ← Method.get
  if context.api ≠ .Two then Method.ofExcept (Err gl.INVALID_OPERATION) else method

def bind_array_command (c : Command) : Gl Unit := do
  let id ← Method.ofExcept (c.u 0)
  bind_vertex_array id

def delete_array_command (c : Command) : Gl Unit := do
  let id ← Method.ofExcept (c.u 0)
  delete_vertex_array id

def delete_buffer_command (driver : Driver) (c : Command) : Gl Unit := do
  let id ← Method.ofExcept (c.u 0)
  delete_buffer driver id

def get_buffer_sub_data (driver : Driver) (c : Command) : Gl Reply := do
  let data ← read_buffer driver c
  pure (.bytes data)

def dispatch (driver : Driver) (c : Command) (bytes : Option (List UInt8)) : Gl Reply :=
  match c.op with
  | .createBuffer => named (create_buffer driver)
  | .deleteBuffer => null (delete_buffer_command driver c)
  | .bindBuffer => null (bind_buffer c)
  | .bufferData => null (buffer_data c bytes)
  | .bufferSubData => null (buffer_sub_data c bytes)
  | .copyBufferSubData => null (copy_buffer_sub_data c)
  | .getBufferSubData => get_buffer_sub_data driver c
  | .readPixelsToBuffer => null (read_pixels_to_buffer driver c bytes)
  | .createVertexArray => two_only (with_arrays (named (create_vertex_array driver)))
  | .createVertexArrayOES => with_arrays (named (create_vertex_array driver))
  | .bindVertexArray => two_only (with_arrays (null (bind_array_command c)))
  | .bindVertexArrayOES => with_arrays (null (bind_array_command c))
  | .deleteVertexArray => two_only (with_arrays (null (delete_array_command c)))
  | .deleteVertexArrayOES => with_arrays (null (delete_array_command c))
  | .vertexAttribPointer | .vertexAttribIPointer => null (vertex_pointer c)
  | .enableVertexAttribArray | .disableVertexAttribArray => null (enable_slot c)
  | .vertexAttribDivisor => two_only (null (set_divisor c))
  | .vertexAttribDivisorANGLE => null (set_divisor c)
  | .bindBufferBase | .bindBufferRange => null (indexed_uniform_command driver c)
  | .createTransformFeedback => two_only (named (create_transform_feedback driver))
  | .bindTransformFeedback => two_only (null (bind_transform_feedback c))
  | .deleteTransformFeedback => two_only (null (delete_transform_feedback c))
  | .beginTransformFeedback => two_only (null (begin_transform_feedback driver c))
  | .endTransformFeedback => two_only (null end_transform_feedback)
  | .pauseTransformFeedback => two_only (null pause_transform_feedback)
  | .resumeTransformFeedback => two_only (null resume_transform_feedback)
  | _ => null (draw_command driver c)

end WebGl

end BetterWebBrowser.Webgl
