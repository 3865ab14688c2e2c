import BetterWebBrowser.Framework.RecentList
import BetterWebBrowser.Webgl.CaptureChecks

/-!
# Index ranges

The largest index of a range of the element buffer, taken from the browser's copy of the buffer
and cached by range. A copy that the driver may have overtaken is read back first.
-/

namespace BetterWebBrowser.Webgl

open Framework
open targets

/-! ## Indices in bytes -/

/-- The number of a little-endian word. -/
def fromNeBytes : List UInt8 → Nat
  | [] => 0
  | byte :: bytes => byte.toNat + 256 * fromNeBytes bytes

/-- The index at a position of a list of indices of this size. -/
def indexAt (indices : List UInt8) (size position : Nat) : Nat :=
  fromNeBytes ((indices.drop (position * size)).take size)

/-- The index that restarts a primitive. -/
def restartMarker (size : Nat) : Nat := 256 ^ size - 1

def maximum (indices : List UInt8) (size : Nat) (api : ApiVersion) : Result (Option Nat) :=
  if size = 1 ∨ size = 2 ∨ size = 4 then
    let values := (List.range (indices.length / size)).map (indexAt indices size)
    let maximum := (values.filter fun value => decide (api = .One ∨ value ≠ restartMarker size)).max?
    if maximum = none ∧ api = .One then Err gl.INVALID_OPERATION else .ok maximum
  else Err gl.INVALID_ENUM

/-! ## The cache -/

namespace IndexCache

def MAX_RANGES : Nat := 64

def lookup (key : Key) (entries : List Entry) : Option Entry × List Entry :=
  Recent.touch (fun entry => decide (entry.key = key)) entries

def insert (key : Key) (maximum : Option Nat) (entries : List Entry) : List Entry :=
  Recent.push MAX_RANGES ⟨key, maximum⟩ (entries.eraseP fun entry => decide (entry.key = key))

def remove (owner : Nat) (entries : List Entry) : List Entry :=
  entries.filter fun entry => decide (entry.key.owner ≠ owner)

end IndexCache

namespace WebGl

def index_size (context : WebGl) (kind : Nat) : Result Nat :=
  if kind = gl.UNSIGNED_BYTE then .ok 1
  else if kind = gl.UNSIGNED_SHORT then .ok 2
  else if kind = gl.UNSIGNED_INT ∧ context.extensions.uint_indices = true then .ok 4
  else Err gl.INVALID_ENUM

theorem index_size_cases {context : WebGl} {kind size : Nat} (h : context.index_size kind = .ok size) :
    kind = gl.UNSIGNED_BYTE ∧ size = 1 ∨ kind = gl.UNSIGNED_SHORT ∧ size = 2 ∨ kind = gl.UNSIGNED_INT ∧ size = 4 := by
  rw [index_size] at h
  split_ifs at h with hbyte hshort hint
  · cases h
    exact .inl ⟨hbyte, rfl⟩
  · cases h
    exact .inr (.inl ⟨hshort, rfl⟩)
  · cases h
    exact .inr (.inr ⟨hint.1, rfl⟩)
  · cases h

theorem index_size_pos {context : WebGl} {kind size : Nat} (h : context.index_size kind = .ok size) : 0 < size := by
  obtain ⟨-, rfl⟩ | ⟨-, rfl⟩ | ⟨-, rfl⟩ := index_size_cases h
  · decide
  · decide
  · decide

/-! ## Reading a buffer back -/

def extra_target (target : Nat) : Bool :=
  [COPY_READ, COPY_WRITE, UNIFORM, PIXEL_PACK, PIXEL_UNPACK, TRANSFORM_FEEDBACK].contains target

def bound_buffer (context : WebGl) (target : Nat) : Result Nat := do
  let id ←
    if target = gl.ARRAY_BUFFER then .ok context.array_buffer
    else if target = gl.ELEMENT_ARRAY_BUFFER then .ok context.element_buffer
    else if context.api = .Two ∧ extra_target target = true then
      .ok ((context.core_buffer_bindings.get target).getD 0)
    else Err gl.INVALID_ENUM
  let _ ← context.objects.get id .Buffer
  .ok id

def any_active (context : WebGl) : Bool :=
  context.transform_feedback.records.entries.any fun entry => entry.2.active

/-- An offset or a size; a pointer-sized integer that is not negative. -/
def nonnegative (c : Command) (index : Nat) : Result Nat :=
  match c.i[index]? with
  | none => Err gl.INVALID_VALUE
  | some value => if 0 ≤ value ∧ value < 2 ^ 63 then .ok value.toNat else Err gl.INVALID_VALUE

theorem nonnegative_of_get {c : Command} {index value : Nat} (h : c.i[index]? = some (value : Int))
    (hlt : value < 2 ^ 63) : nonnegative c index = .ok value := by
  have hword : 0 ≤ (value : Int) ∧ (value : Int) < 2 ^ 63 := ⟨Int.natCast_nonneg value, by exact_mod_cast hlt⟩
  simp only [nonnegative, h, if_pos hword, Int.toNat_natCast]

def range_end (offset size capacity : Nat) : Result Nat :=
  if offset + size < 2 ^ 64 ∧ offset + size ≤ capacity then .ok (offset + size) else Err gl.INVALID_VALUE

def forget_ranges (id : Nat) : Gl Unit :=
  Method.modify fun context => { context with index_cache := IndexCache.remove id context.index_cache }

def write_object (id : Nat) (write : Object → Object) : Gl Unit :=
  Method.modify fun context => { context with objects := context.objects.update id write }

/-- The end of `read_buffer`: a whole buffer that was read back is a copy again. -/
def keep_readback (id offset size : Nat) (bytes : List UInt8) (object : Object) : Gl (List UInt8) :=
  if offset = 0 ∧ size = object.bytes.length then do
    forget_ranges id
    write_object id fun object => { object with bytes := bytes, buffer_mirror_valid := true }
    pure bytes
  else pure bytes

/-- Mapping gives the bytes that the driver holds. -/
def read_native (driver : Driver) (id offset size : Nat) (object : Object) : Gl (List UInt8) := do
  let context ← Method.get
  let _ ← Method.ofExcept (orError gl.INVALID_OPERATION context.core)
  Method.ofExcept (driver.map_buffer object.native)
  keep_readback id offset size ((object.contents.drop offset).take size) object

def read_buffer (driver : Driver) (c : Command) : Gl (List UInt8) := do
  let context ← Method.get
  Method.failIf (context.api ≠ .Two) (.Returned gl.INVALID_OPERATION)
  let target ← Method.ofExcept (c.u 0)
  let id ← Method.ofExcept (context.bound_buffer target)
  Method.failIf (target = TRANSFORM_FEEDBACK ∧ context.any_active = true) (.Returned gl.INVALID_OPERATION)
  Method.ofExcept (context.validate_transform_buffer_use target id)
  let offset ← Method.ofExcept (nonnegative c 1)
  let size ← Method.ofExcept (nonnegative c 2)
  let object ← Method.ofExcept (context.objects.get id .Buffer)
  let _ ← Method.ofExcept (range_end offset size object.bytes.length)
  Method.failIf (MAX_UPLOAD_BYTES < size) (.Returned gl.OUT_OF_MEMORY)
  if size = 0 then pure []
  else if object.buffer_mirror_valid = true then pure ((object.bytes.drop offset).take size)
  else read_native driver id offset size object

/-! ## The largest index -/

/-- The command that reads the whole element buffer. -/
def readElements (length : Nat) : Command :=
  ⟨.getBufferSubData, [(gl.ELEMENT_ARRAY_BUFFER : Nat), (0 : Nat), (length : Nat)], [], []⟩

/-- A copy that may be stale is read back whole. -/
def refresh (driver : Driver) (owner : Nat) (buffer : Object) : Gl Unit :=
  if buffer.buffer_mirror_valid = true then pure ()
  else do
    forget_ranges owner
    let _ ← read_buffer driver (readElements buffer.bytes.length)
    pure ()

def scan_indices (key : IndexCache.Key) : Gl (Option Nat) := do
  let context ← Method.get
  let buffer ← Method.ofExcept (context.objects.get key.owner .Buffer)
  let value ← Method.ofExcept
    (maximum ((buffer.bytes.drop key.offset).take (key.count * key.width)) key.width context.api)
  Method.modify fun context => { context with index_cache := IndexCache.insert key value context.index_cache }
  pure value

def cached_maximum (key : IndexCache.Key) : Gl (Option Nat) := do
  let context ← Method.get
  match IndexCache.lookup key context.index_cache with
  | (some entry, entries) => do
    Method.modify fun context => { context with index_cache := entries }
    pure entry.maximum
  | (none, _) => scan_indices key

/-- The driver's limit. -/
def beyond_limit (context : WebGl) (maximum : Option Nat) : Bool :=
  match maximum, context.core with
  | some maximum, some core => decide (core.max_element_index < maximum)
  | _, _ => false

/-- The end of `maximum_index`. -/
def within_limit (maximum : Option Nat) : Gl (Option Nat) := do
  let context ← Method.get
  Method.failIf (context.beyond_limit maximum = true) (.Returned gl.INVALID_OPERATION)
  pure maximum

def maximum_index (driver : Driver) (count size offset : Nat) : Gl (Option Nat) := do
  let context ← Method.get
  let owner := context.element_buffer
  let buffer ← Method.ofExcept (context.objects.get owner .Buffer)
  let bytes ← Method.ofExcept (orError gl.INVALID_OPERATION (unsignedWord 64 (count * size)))
  let stop ← Method.ofExcept (orError gl.INVALID_OPERATION (checkedAdd 64 offset bytes))
  Method.failIf (buffer.bytes.length < stop) (.Returned gl.INVALID_OPERATION)
  refresh driver owner buffer
  let maximum ← cached_maximum ⟨owner, offset, count, size⟩
  within_limit maximum

end WebGl

end BetterWebBrowser.Webgl
