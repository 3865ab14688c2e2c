import BetterWebBrowser.Framework.Observation
import BetterWebBrowser.Webgl.IndexRanges

/-!
# Buffer commands

Creating and binding buffers, uploads, copies between buffers and reads of pixels into one. Every
command checks first; what it then gives to the driver changes the storage of the object and the
browser's copy of it.
-/

namespace BetterWebBrowser.Webgl

open Framework
open targets

def classification (target : Nat) : Nat :=
  if target = COPY_READ ∨ target = COPY_WRITE then 0
  else if target = gl.ELEMENT_ARRAY_BUFFER then gl.ELEMENT_ARRAY_BUFFER
  else gl.ARRAY_BUFFER

/-- The bytes with some of them replaced. -/
def overwrite (bytes : List UInt8) (offset : Nat) (data : List UInt8) : List UInt8 :=
  bytes.take offset ++ data ++ bytes.drop (offset + data.length)

namespace WebGl

/-! ## Names -/

def create_buffer (driver : Driver) : Gl Nat := do
  let context ← Method.get
  let created ← Method.ofExcept (context.objects.insert .Buffer (driver.generate context.objects))
  Method.modify fun context => { context with objects := created.2 }
  pure created.1

/-! ## Binding -/

/-- The first binding decides whether a buffer holds indices. -/
def bound_class (context : WebGl) (target id : Nat) : Result Nat :=
  if id = 0 then .ok 0
  else do
    let object ← context.objects.get id .Buffer
    let previous := object.buffer_target
    let requested := classification target
    failIf (previous ≠ 0 ∧ requested ≠ 0 ∧ previous ≠ requested) (.Returned gl.INVALID_OPERATION)
    .ok (if requested = 0 then if previous = 0 then gl.ARRAY_BUFFER else previous else requested)

/-- The object may be bound. -/
def check_live (context : WebGl) (id : Nat) : Result Unit :=
  if id = 0 then .ok ()
  else do
    let object ← context.objects.get id .Buffer
    failIf (object.pending_delete = true) (.Returned gl.INVALID_OPERATION)

def check_bind (c : Command) (context : WebGl) : Result (Nat × Nat × Nat) := do
  let target ← c.u 0
  let id ← c.u 1
  let _ ← context.objects.name id .Buffer
  context.check_live id
  failIf (target ≠ gl.ARRAY_BUFFER ∧ target ≠ gl.ELEMENT_ARRAY_BUFFER ∧
    ¬(context.api = .Two ∧ extra_target target = true)) (.Returned gl.INVALID_ENUM)
  let bound ← context.bound_class target id
  .ok (target, id, bound)

/-- The element slot of the current vertex array counts as a reference. -/
def switch_element (id : Nat) : Gl Unit := do
  let context ← Method.get
  let objects ← Method.ofExcept (context.objects.switch_buffer context.element_buffer id)
  Method.modify fun context => { context with objects := objects, element_buffer := id }

def bind_target (target id : Nat) : Gl Unit :=
  if target = gl.ARRAY_BUFFER then Method.modify fun context => { context with array_buffer := id }
  else if target = gl.ELEMENT_ARRAY_BUFFER then switch_element id
  else Method.modify fun context =>
    { context with core_buffer_bindings := context.core_buffer_bindings.insert target id }

def bind_buffer (c : Command) : Gl Unit := do
  let (target, id, bound) ← Method.read (check_bind c)
  Method.onlyIf (id ≠ 0) (write_object id fun object => { object with buffer_target := bound })
  bind_target target id

/-! ## Uploads -/

def core_usage (usage : Nat) : Bool := [0x88e1, 0x88e2, 0x88e5, 0x88e6, 0x88e9, 0x88ea].contains usage

def check_data (c : Command) (bytes : Option (List UInt8)) (context : WebGl) : Result (Nat × Nat) := do
  let target ← c.u 0
  let id ← context.bound_buffer target
  context.validate_transform_buffer_use target id
  let size ← c.u 1
  let usage ← c.u 2
  failIf (usage ≠ gl.STATIC_DRAW ∧ usage ≠ gl.DYNAMIC_DRAW ∧ usage ≠ gl.STREAM_DRAW ∧
    ¬(context.api = .Two ∧ core_usage usage = true)) (.Returned gl.INVALID_ENUM)
  failIf (MAX_UPLOAD_BYTES < size ∨ ∃ data ∈ bytes, data.length ≠ size) (.Returned gl.INVALID_VALUE)
  context.storage id size
  .ok (id, size)

def buffer_data (c : Command) (bytes : Option (List UInt8)) : Gl Unit := do
  let (id, size) ← Method.read (check_data c bytes)
  let data := bytes.getD (List.replicate size 0)
  forget_ranges id
  write_object id fun object => { object with bytes := data, buffer_mirror_valid := true, contents := data }

def check_sub_data (c : Command) (bytes : Option (List UInt8)) (context : WebGl) :
    Result (Nat × Nat × List UInt8) := do
  let target ← c.u 0
  let id ← context.bound_buffer target
  context.validate_transform_buffer_use target id
  let offset ← c.u 1
  let data ← orError gl.INVALID_VALUE bytes
  let last ← orError gl.INVALID_VALUE (checkedAdd 64 offset data.length)
  let object ← context.objects.get id .Buffer
  failIf (object.bytes.length < last) (.Returned gl.INVALID_VALUE)
  .ok (id, offset, data)

def buffer_sub_data (c : Command) (bytes : Option (List UInt8)) : Gl Unit := do
  let (id, offset, data) ← Method.read (check_sub_data c bytes)
  forget_ranges id
  write_object id fun object =>
    { object with
      bytes := overwrite object.bytes offset data
      contents := overwrite object.contents offset data
      buffer_mirror_valid := object.buffer_mirror_valid || decide (offset = 0 ∧ data.length = object.bytes.length) }

/-! ## Copies -/

/-- A range of one buffer that goes to a range of another. -/
structure Transfer where
  source : Nat
  destination : Nat
  source_offset : Nat
  destination_offset : Nat
  size : Nat
deriving DecidableEq, Repr

def check_transfer (c : Command) (context : WebGl) : Result Transfer := do
  failIf (context.api ≠ .Two) (.Returned gl.INVALID_OPERATION)
  let read ← c.u 0
  let write ← c.u 1
  let source ← context.bound_buffer read
  let destination ← context.bound_buffer write
  context.validate_transform_buffer_use read source
  context.validate_transform_buffer_use write destination
  let source_offset ← nonnegative c 2
  let destination_offset ← nonnegative c 3
  let size ← nonnegative c 4
  let source_object ← context.objects.get source .Buffer
  let source_end ← range_end source_offset size source_object.bytes.length
  let destination_object ← context.objects.get destination .Buffer
  let destination_end ← range_end destination_offset size destination_object.bytes.length
  failIf (source = destination ∧ source_offset < destination_end ∧ destination_offset < source_end)
    (.Returned gl.INVALID_VALUE)
  failIf (¬(source_object.buffer_target = gl.ELEMENT_ARRAY_BUFFER ↔
      destination_object.buffer_target = gl.ELEMENT_ARRAY_BUFFER))
    (.Returned gl.INVALID_OPERATION)
  let _ ← orError gl.INVALID_OPERATION context.core
  .ok ⟨source, destination, source_offset, destination_offset, size⟩

/-- The destination of a copy, after it. -/
def transferred (transfer : Transfer) (source destination : Object) : Object :=
  { destination with
    bytes := overwrite destination.bytes transfer.destination_offset
      ((source.bytes.drop transfer.source_offset).take transfer.size)
    contents := overwrite destination.contents transfer.destination_offset
      ((source.contents.drop transfer.source_offset).take transfer.size)
    buffer_mirror_valid := source.buffer_mirror_valid && (destination.buffer_mirror_valid ||
      decide (transfer.destination_offset = 0 ∧ transfer.size = destination.bytes.length)) }

def copy_buffer_sub_data (c : Command) : Gl Unit := do
  let transfer ← Method.read (check_transfer c)
  forget_ranges transfer.destination
  let context ← Method.get
  let source ← Method.ofExcept (context.objects.get transfer.source .Buffer)
  write_object transfer.destination (transferred transfer source)

/-! ## Pixels -/

def type_alignment (kind : Nat) : Result Nat :=
  if kind = gl.BYTE ∨ kind = gl.UNSIGNED_BYTE then .ok 1
  else if [gl.SHORT, gl.UNSIGNED_SHORT, 0x140b, 0x8033, 0x8034, 0x8363].contains kind then .ok 2
  else if [gl.INT, gl.UNSIGNED_INT, gl.FLOAT, 0x8368, 0x8c3b, 0x8c3e, 0x84fa].contains kind then .ok 4
  else if kind = 0x8dad then .ok 8
  else Err gl.INVALID_ENUM

/-- A pointer-sized argument. -/
def address (c : Command) (index : Nat) : Result Nat :=
  match c.i[index]? with
  | none => Err gl.INVALID_VALUE
  | some value => if 0 ≤ value ∧ value < 2 ^ 64 then .ok value.toNat else Err gl.INVALID_VALUE

def pixel_buffer_offset (context : WebGl) (c : Command) (target index size kind : Nat) : Result Nat := do
  let id := (context.core_buffer_bindings.get target).getD 0
  context.validate_transform_buffer_use target id
  let buffer ← context.objects.get id .Buffer
  let offset ← address c index
  let alignment ← type_alignment kind
  failIf (¬alignment ∣ offset) (.Returned gl.INVALID_OPERATION)
  failIf (2 ^ 64 ≤ offset + size ∨ buffer.bytes.length < offset + size) (.Returned gl.INVALID_OPERATION)
  .ok offset

def check_pixels (c : Command) (bytes : Option (List UInt8)) (context : WebGl) : Result Nat := do
  failIf (context.api ≠ .Two ∨ bytes.isSome = true) (.Returned gl.INVALID_OPERATION)
  let width ← c.n 2
  let height ← c.n 3
  failIf (width < 0 ∨ height < 0) (.Returned gl.INVALID_VALUE)
  let _ ← c.u 4
  let kind ← c.u 5
  let size ← context.pack_layout c
  failIf (MAX_UPLOAD_BYTES < size) (.Returned gl.OUT_OF_MEMORY)
  let _ ← context.pixel_buffer_offset c PIXEL_PACK 6 size kind
  let _ ← c.n 0
  let _ ← c.n 1
  .ok ((context.core_buffer_bindings.get PIXEL_PACK).getD 0)

def read_pixels_to_buffer (driver : Driver) (c : Command) (bytes : Option (List UInt8)) : Gl Unit := do
  let id ← Method.read (check_pixels c bytes)
  forget_ranges id
  write_object id fun object =>
    { object with contents := driver.packed c object.contents, buffer_mirror_valid := false }

end WebGl

end BetterWebBrowser.Webgl
