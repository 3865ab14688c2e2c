import BetterWebBrowser.Framework.Checked
import BetterWebBrowser.IndexedDb.Clone
import Mathlib.Data.Finset.Basic

/-!
# Commands waiting for the native owner

Setters and small uploads return nothing, so a realm queues them and hands them over in batches.
The replies to a few polls are kept until the end of the task. Reading JSON texts is a parameter.
-/

namespace BetterWebBrowser.Webgl.Session

open Framework Framework.Str
open IndexedDb (Json)

/-- A command as its text says it. -/
structure Command where
  op : Str
  i : List Int
  f : List Double
  text : Str

/-! ## Numeric commands -/

def MAX_NUMERIC_VALUES : Nat := 64
def MAX_UNIFORM_FLOATS : Nat := 8192

/-- The operations that may wait in the queue. -/
def operations : List String :=
  ["bindBuffer", "bufferData", "bindBufferBase", "bindBufferRange", "bindTexture", "activeTexture",
    "texParameteri", "texParameterf", "bindFramebuffer", "bindRenderbuffer", "framebufferTexture2D",
    "framebufferTextureLayer", "framebufferRenderbuffer", "bindVertexArray", "bindVertexArrayOES",
    "vertexAttribPointer", "vertexAttribIPointer", "vertexAttribDivisor", "vertexAttribDivisorANGLE",
    "enableVertexAttribArray", "disableVertexAttribArray", "enable", "disable", "viewport", "scissor",
    "clearColor", "clearDepth", "clearStencil", "clear", "colorMask", "depthMask", "depthFunc",
    "depthRange", "blendColor", "blendFunc", "blendFuncSeparate", "blendEquation", "blendEquationSeparate",
    "stencilMask", "stencilMaskSeparate", "stencilFunc", "stencilFuncSeparate", "stencilOp",
    "stencilOpSeparate", "cullFace", "frontFace", "polygonOffset", "sampleCoverage", "lineWidth",
    "pixelStorei", "useProgram", "uniform1f", "uniform2f", "uniform3f", "uniform4f", "uniform1i",
    "uniform2i", "uniform3i", "uniform4i", "uniform1fv", "uniform2fv", "uniform3fv", "uniform4fv",
    "uniform1iv", "uniform2iv", "uniform3iv", "uniform4iv", "uniformMatrix2fv", "uniformMatrix3fv",
    "uniformMatrix4fv", "uniform1ui", "uniform2ui", "uniform3ui", "uniform4ui", "uniform1uiv",
    "uniform2uiv", "uniform3uiv", "uniform4uiv", "uniformMatrix2x3fv", "uniformMatrix2x4fv",
    "uniformMatrix3x2fv", "uniformMatrix3x4fv", "uniformMatrix4x2fv", "uniformMatrix4x3fv", "drawArrays",
    "drawElements", "drawArraysInstanced", "drawElementsInstanced", "drawArraysInstancedANGLE",
    "drawElementsInstancedANGLE", "drawRangeElements", "drawBuffers", "drawBuffersWEBGL", "readBuffer",
    "beginQuery", "endQuery", "beginTransformFeedback", "endTransformFeedback", "pauseTransformFeedback",
    "resumeTransformFeedback", "bindTransformFeedback", "deleteBuffer", "deleteTexture",
    "deleteFramebuffer", "deleteRenderbuffer", "deleteShader", "deleteProgram", "deleteVertexArray",
    "deleteVertexArrayOES", "bridgeError"]

def Pending.operation (name : Str) : Bool := decide (name ∈ operations.map String.toList)

def large_float_uniform (op : Str) : Bool :=
  decide (op ∈ (["uniform1fv", "uniform2fv", "uniform3fv", "uniform4fv", "uniformMatrix2fv", "uniformMatrix3fv",
    "uniformMatrix4fv", "uniformMatrix2x3fv", "uniformMatrix2x4fv", "uniformMatrix3x2fv",
    "uniformMatrix3x4fv", "uniformMatrix4x2fv", "uniformMatrix4x3fv"]).map String.toList)

/-- Few enough operands, all of them integers that JavaScript has. -/
def NumericCommand.admits (op : Str) (i : List Int) (f : List Double) : Bool :=
  Pending.operation op
    && (checkedAdd 64 i.length f.length).any (fun count => decide (count ≤ MAX_NUMERIC_VALUES)
      || large_float_uniform op && decide (i.length ≤ 2) && decide (f.length ≤ MAX_UNIFORM_FLOATS))
    && i.all fun value => decide (value.natAbs ≤ 9007199254740991)

structure NumericCommand where
  op : Str
  i : List Int
  f : List Double
  admitted : NumericCommand.admits op i f = true

namespace NumericCommand

def new (op : Str) (i : List Int) (f : List Double) : Option NumericCommand :=
  if h : admits op i f = true then some ⟨op, i, f, h⟩ else none

def write_command (command : NumericCommand) : Command := ⟨command.op, command.i, command.f, []⟩

end NumericCommand

inductive Entry
  | Json (source : Str)
  | Numeric (command : NumericCommand)
  | Upload (source : Str) (bytes : List UInt8)

/-- The bytes of an upload. -/
def Entry.weight : Entry → Nat
  | .Upload _ bytes => bytes.length
  | _ => 0

structure Pending where
  commands : List (Nat × Entry)
  upload_bytes : Nat

namespace Pending

def MAX_COMMANDS : Nat := 128
def MAX_COMMAND_BYTES : Nat := 1024
def MAX_QUEUED_UPLOAD : Nat := 256 * 1024
def MAX_PENDING_BYTES : Nat := 4 * 1024 * 1024

def default : Pending := ⟨[], 0⟩

/-- The operation of a text in the encoding of the bridge. -/
def canonical (source : Str) : Option Str :=
  (stripPrefix source "\x7b\"op\":\"".toList).bind fun tail =>
    (splitOnce tail ['"']).bind fun parts =>
      if parts.2.head? = some ',' ∨ parts.2.head? = some '\x7d' then some parts.1 else none

def candidate (source : Str) : Bool :=
  decide (byteLen source ≤ MAX_COMMAND_BYTES) && (canonical source).any operation

def upload_operations : List String :=
  ["bufferData", "bufferSubData", "texImage2D", "texSubImage2D", "texImage3D", "texSubImage3D",
    "compressedTexImage2D", "compressedTexSubImage2D", "compressedTexImage3D", "compressedTexSubImage3D"]

def upload_candidate (source : Str) (bytes : Nat) : Bool :=
  decide (bytes ≤ MAX_QUEUED_UPLOAD) && decide (byteLen source ≤ MAX_COMMAND_BYTES)
    && (canonical source).any fun name => decide (name ∈ upload_operations.map String.toList)

def upload_fits (pending : Pending) (bytes : Nat) : Bool :=
  (checkedAdd 64 pending.upload_bytes bytes).any fun total => decide (total ≤ MAX_PENDING_BYTES)

def push (pending : Pending) (id : Nat) (source : Str) : Pending :=
  { pending with commands := pending.commands ++ [(id, .Json source)] }

def push_numeric (pending : Pending) (id : Nat) (command : NumericCommand) : Pending :=
  { pending with commands := pending.commands ++ [(id, .Numeric command)] }

def push_upload (pending : Pending) (id : Nat) (source : Str) (bytes : List UInt8) : Pending :=
  ⟨pending.commands ++ [(id, .Upload source bytes)], pending.upload_bytes + bytes.length⟩

def full (pending : Pending) : Bool := decide (pending.commands.length = MAX_COMMANDS)

/-- The bytes of all uploads in the queue. -/
def weight (commands : List (Nat × Entry)) : Nat := (commands.map fun command => command.2.weight).sum

def remove (pending : Pending) (id : Nat) : Pending :=
  let commands := pending.commands.filter fun command => decide (command.1 ≠ id)
  ⟨commands, weight commands⟩

end Pending

/-! ## Replies that are kept -/

def MAX_REPLIES : Nat := 256

structure Cache where
  replies : OrdMap Nat (OrdMap Str Json)
  finished : Finset Nat

namespace Cache

def default : Cache := ⟨.empty, ∅⟩

/-- `finish` without operands. -/
def bareFinish (command : Command) : Bool :=
  decide (command.op = "finish".toList) && command.i.isEmpty && command.f.isEmpty && command.text.isEmpty

def get (fromStr : Str → Option Command) (cache : Cache) (context : Nat) (command : Str) : Option Json :=
  if context ∈ cache.finished ∧ (fromStr command).any bareFinish = true then some .Null
  else (cache.replies.get context).bind fun replies => replies.get command

def remove (cache : Cache) (context : Nat) : Cache :=
  ⟨cache.replies.erase context, cache.finished.erase context⟩

/-- The text may be that of a poll. -/
def mayPoll (source : Str) : Bool :=
  decide (byteLen source ≤ 256) &&
    ["\"getQueryParameter\"", "\"finish\"", "\"getSyncParameter\"", "\"clientWaitSync\""].any fun name =>
      decide (name.toList <:+: source)

def isBoolean : Json → Bool
  | .Bool _ => true
  | _ => false

def isNull : Json → Bool
  | .Null => true
  | _ => false

/-- A status of this task, or a wait that does not wait. -/
def cacheable (command : Command) (value : Json) : Bool :=
  if command.op = "getQueryParameter".toList then
    decide (command.i.length = 2) && decide (command.i[1]? = some 0x8867) && isBoolean value
  else if command.op = "finish".toList then
    command.i.isEmpty && command.f.isEmpty && command.text.isEmpty && isNull value
  else if command.op = "getSyncParameter".toList then
    decide (command.i.length = 2) && decide (command.i[1]? = some 0x9114)
      && (value.asU64.any fun status => decide (status = 0x9118 ∨ status = 0x9119))
  else if command.op = "clientWaitSync".toList then
    decide (command.i.length = 3) && decide (command.i.drop 1 = [0, 0])
      && (value.asU64.any fun status => decide (status = 0x911a ∨ status = 0x911b))
  else false

/-- The replies of all contexts. -/
def count (cache : Cache) : Nat := cache.replies.weight fun _ replies => replies.len

def record (fromStr : Str → Option Command) (cache : Cache) (context : Nat) (source : Str) (value : Json) : Cache :=
  if mayPoll source = false then cache.remove context
  else
    match fromStr source with
    | none => cache.remove context
    | some command =>
      if cacheable command value = false then cache.remove context
      else if command.op = "finish".toList then { cache with finished := insert context cache.finished }
      else
        let replies := if cache.count = MAX_REPLIES then .empty else cache.replies
        { cache with replies := replies.insert context (((replies.get context).getD .empty).insert source value) }

end Cache

end BetterWebBrowser.Webgl.Session
