import BetterWebBrowser.Framework.Method
import BetterWebBrowser.Webgl.Objects

/-!
# A context

What a WebGL context keeps for its buffers, attributes, vertex arrays, captures and draws. The
driver is a parameter: it answers questions about linked programs, and its buffers are part of the
objects. Framebuffers and textures are left out; what their checks say is part of the state.
-/

namespace BetterWebBrowser.Webgl

open Framework

def MAX_UPLOAD_BYTES : Nat := 16 * 1024 * 1024
def MAX_SHADER_BYTES : Nat := 32 * 1024
def MAX_DRAW_VERTICES : Nat := 1000000

inductive Op
  | createBuffer
  | deleteBuffer
  | bindBuffer
  | bufferData
  | bufferSubData
  | copyBufferSubData
  | getBufferSubData
  | readPixelsToBuffer
  | createVertexArray
  | createVertexArrayOES
  | bindVertexArray
  | bindVertexArrayOES
  | deleteVertexArray
  | deleteVertexArrayOES
  | vertexAttribPointer
  | vertexAttribIPointer
  | enableVertexAttribArray
  | disableVertexAttribArray
  | vertexAttribDivisor
  | vertexAttribDivisorANGLE
  | drawArrays
  | drawElements
  | drawRangeElements
  | drawArraysInstanced
  | drawArraysInstancedANGLE
  | drawElementsInstanced
  | drawElementsInstancedANGLE
  | multiDrawArraysWEBGL
  | multiDrawElementsWEBGL
  | multiDrawArraysInstancedWEBGL
  | multiDrawElementsInstancedWEBGL
  | bindBufferBase
  | bindBufferRange
  | createTransformFeedback
  | bindTransformFeedback
  | deleteTransformFeedback
  | beginTransformFeedback
  | endTransformFeedback
  | pauseTransformFeedback
  | resumeTransformFeedback
deriving DecidableEq, Repr

/-- Of the floating-point arguments only the bits are here; the text is a list of bytes. -/
structure Command where
  op : Op
  i : List Int
  f : List UInt64
  text : List UInt8
deriving DecidableEq, Repr

namespace Command

def u (c : Command) (index : Nat) : Result Nat :=
  match c.i[index]? with
  | none => Err gl.INVALID_VALUE
  | some value => if 0 ≤ value ∧ value < 2 ^ 32 then .ok value.toNat else Err gl.INVALID_VALUE

def n (c : Command) (index : Nat) : Result Int :=
  match c.i[index]? with
  | none => Err gl.INVALID_VALUE
  | some value => if -2 ^ 31 ≤ value ∧ value < 2 ^ 31 then .ok value else Err gl.INVALID_VALUE

theorem u_of_get {c : Command} {index value : Nat} (h : c.i[index]? = some (value : Int))
    (hlt : value < 2 ^ 32) : c.u index = .ok value := by
  have hword : 0 ≤ (value : Int) ∧ (value : Int) < 2 ^ 32 := ⟨Int.natCast_nonneg value, by exact_mod_cast hlt⟩
  simp only [u, h, if_pos hword, Int.toNat_natCast]

end Command

/-! ## Vertex attributes -/

structure Attribute where
  buffer : Nat
  size : Nat
  width : Nat
  integer : Bool
  stride : Nat
  offset : Nat
  enabled : Bool
  divisor : Nat
  kind : Nat
  normalized : Bool
deriving DecidableEq, Repr

def Attribute.default : Attribute :=
  { buffer := 0, size := 16, width := 4, integer := false, stride := 0, offset := 0, enabled := false,
    divisor := 0, kind := gl.FLOAT, normalized := false }

structure VertexState where
  attributes : List Attribute
  element : Nat
deriving DecidableEq, Repr

structure VertexArrays where
  bound : Nat
  default_native : Nat
  states : OrdMap Nat VertexState

/-! ## Indexed bindings and captures -/

structure Binding where
  id : Nat
  offset : Nat
  size : Option Nat
deriving DecidableEq, Repr

def Binding.default : Binding := ⟨0, 0, none⟩

structure Ledger where
  mode : Nat
  capacity : Nat
  written : Nat
deriving DecidableEq, Repr

def Ledger.default : Ledger := ⟨0, 0, 0⟩

structure Record where
  bindings : List Binding
  active : Bool
  paused : Bool
  program : Nat
  ledger : Ledger
  seen : Bool
deriving DecidableEq, Repr

def Record.new (count : Nat) : Record :=
  { bindings := List.replicate count .default, active := false, paused := false, program := 0,
    ledger := .default, seen := false }

structure TransformFeedback where
  bound : Nat
  records : OrdMap Nat Record
  count : Nat

/-! ## Caches -/

namespace IndexCache

structure Key where
  owner : Nat
  offset : Nat
  count : Nat
  width : Nat
deriving DecidableEq, Repr

structure Entry where
  key : Key
  maximum : Option Nat
deriving DecidableEq, Repr

end IndexCache

namespace AttributeReflection

structure Entry where
  owner : Nat
  generation : Nat
  active : Nat
deriving DecidableEq, Repr

end AttributeReflection

/-! ## Draws -/

/-- One draw: where it starts (a vertex, or a byte of the element buffer), its vertices or
indices, and its instances. -/
structure Draw where
  start : Nat
  count : Nat
  instances : Nat
deriving DecidableEq, Repr

/-- A draw call of the driver; `kind` is the index type of an indexed one. -/
structure NativeDraw where
  mode : Nat
  kind : Option Nat
  draws : List Draw
deriving DecidableEq, Repr

/-- An input of a linked program, and the location of its name. -/
structure ActiveAttribute where
  length : Int
  size : Int
  kind : Nat
  location : Int
deriving DecidableEq, Repr

/-- An output that a linked program captures. -/
structure Varying where
  length : Int
  size : Int
  kind : Nat
deriving DecidableEq, Repr

/-- What the driver answers. -/
structure Driver where
  /-- A new name for an object. -/
  generate : Objects → { name : Nat // name ≠ 0 }
  link_status : Nat → Int
  active_attributes : Nat → Result Int
  active_attribute : Nat → Nat → Result ActiveAttribute
  active_uniform_blocks : Nat → Int
  uniform_block_binding : Nat → Nat → Int
  uniform_alignment : Int
  transform_varyings : Nat → Int
  transform_buffer_mode : Nat → Nat
  transform_name_length : Nat → Int
  transform_varying : Nat → Nat → Varying
  /-- The error left by mapping a buffer, if any. -/
  map_buffer : Nat → Result Unit
  /-- The error left by a draw, if any. -/
  draw_result : NativeDraw → Result Unit
  /-- The storage of a captured buffer after a draw. -/
  captured : NativeDraw → Nat → List UInt8 → List UInt8
  /-- The storage of a buffer after pixels are read into it. -/
  packed : Command → List UInt8 → List UInt8

/-! ## The context -/

/-- Which extension functions the driver has, and which extensions the author enabled. -/
structure Extensions where
  multi_draw : Bool
  multi_draw_entries : Bool
  instancing : Bool
  uint_indices : Bool
  divisor : Bool
  elements : Bool
  arrays : Bool
  gen_arrays : Bool
  bind_array : Bool
deriving DecidableEq, Repr

structure CoreEntries where
  max_element_index : Nat
deriving DecidableEq, Repr

structure WebGl where
  api : ApiVersion
  core : Option CoreEntries
  core_buffer_bindings : OrdMap Nat Nat
  objects : Objects
  index_cache : List IndexCache.Entry
  attribute_reflection : List AttributeReflection.Entry
  array_buffer : Nat
  element_buffer : Nat
  program : Nat
  attributes : List Attribute
  extensions : Extensions
  vertex_arrays : VertexArrays
  indexed_uniforms : List Binding
  transform_feedback : TransformFeedback
  /-- The answer of `validate_framebuffer`. -/
  framebuffer : Result Unit
  /-- The answer of `sampling_guard`. -/
  sampling : Result Unit
  /-- The answer of `prepare_object_storage` for an object and a size. -/
  storage : Nat → Nat → Result Unit
  /-- The size of the pixels that a command reads, if they can be read. -/
  pack_layout : Command → Result Nat
  /-- The draws that the driver was given. -/
  calls : List NativeDraw

abbrev Gl := Method (Fault Nat) WebGl

/-- `self.transform_feedback.records[&self.transform_feedback.bound]` -/
def WebGl.bound_record (context : WebGl) : Result Record :=
  orPanic (context.transform_feedback.records.get context.transform_feedback.bound)

def WebGl.validate_framebuffer (context : WebGl) : Result Unit := context.framebuffer

def WebGl.sampling_guard (context : WebGl) : Result Unit := context.sampling

end BetterWebBrowser.Webgl
