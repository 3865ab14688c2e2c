import BetterWebBrowser.Framework.OrdMap
import BetterWebBrowser.Framework.Faults

/-!
# Browser names of driver objects

The table of the objects of a context. A name is given out once and stays in the table until the
object is deleted and nothing refers to it. An error is a GL error code. Shaders, framebuffers and
the storage budget are left out.
-/

namespace BetterWebBrowser.Webgl

open Framework

abbrev Result := Except (Fault Nat)

def Err {A : Type} (code : Nat) : Result A := .error (.Returned code)

namespace gl

def POINTS : Nat := 0
def LINES : Nat := 1
def LINE_LOOP : Nat := 2
def LINE_STRIP : Nat := 3
def TRIANGLES : Nat := 4
def TRIANGLE_STRIP : Nat := 5
def TRIANGLE_FAN : Nat := 6
def INVALID_ENUM : Nat := 0x0500
def INVALID_VALUE : Nat := 0x0501
def INVALID_OPERATION : Nat := 0x0502
def OUT_OF_MEMORY : Nat := 0x0505
def INVALID_FRAMEBUFFER_OPERATION : Nat := 0x0506
def BYTE : Nat := 0x1400
def UNSIGNED_BYTE : Nat := 0x1401
def SHORT : Nat := 0x1402
def UNSIGNED_SHORT : Nat := 0x1403
def INT : Nat := 0x1404
def UNSIGNED_INT : Nat := 0x1405
def FLOAT : Nat := 0x1406
def STREAM_DRAW : Nat := 0x88e0
def STATIC_DRAW : Nat := 0x88e4
def DYNAMIC_DRAW : Nat := 0x88e8
def ARRAY_BUFFER : Nat := 0x8892
def ELEMENT_ARRAY_BUFFER : Nat := 0x8893

end gl

def MAX_OBJECTS : Nat := 8192

inductive ApiVersion
  | One
  | Two
deriving DecidableEq, Repr

inductive Kind
  | Buffer
  | Shader
  | Program
  | Texture
  | Framebuffer
  | Renderbuffer
  | VertexArray
  | Sampler
  | Query
  | TransformFeedback
deriving DecidableEq, Repr

/-- Kinds whose objects stay while something refers to them. -/
def Kind.counted : Kind → Bool
  | .Shader | .Program | .Buffer | .Texture | .Renderbuffer => true
  | _ => false

structure Object where
  kind : Kind
  native : Nat
  bytes : List UInt8
  buffer_mirror_valid : Bool
  buffer_target : Nat
  generation : Nat
  pending_delete : Bool
  native_deleted : Bool
  references : Nat
  /-- The driver's side: the storage of the native object. -/
  contents : List UInt8
deriving DecidableEq, Repr

structure Objects where
  entries : OrdMap Nat Object
  /-- The next name of the process; peer contexts take names too. -/
  next_object : Nat
  /-- A release found no reference to take from a buffer. -/
  saturated : Bool

namespace Objects

def get (objects : Objects) (id : Nat) (kind : Kind) : Result Object :=
  match objects.entries.get id with
  | none => Err gl.INVALID_OPERATION
  | some object => if object.kind = kind then .ok object else Err gl.INVALID_OPERATION

def name (objects : Objects) (id : Nat) (kind : Kind) : Result Nat :=
  if id = 0 then .ok 0
  else do
    let object ← objects.get id kind
    if object.native_deleted then Err gl.INVALID_OPERATION else .ok object.native

def insert (objects : Objects) (kind : Kind) (native : Nat) : Result (Nat × Objects) :=
  if native = 0 ∨ MAX_OBJECTS ≤ objects.entries.len then Err gl.OUT_OF_MEMORY
  else if 2 ^ 32 ≤ objects.next_object + 1 then Err gl.OUT_OF_MEMORY
  else .ok (objects.next_object,
    { entries := objects.entries.insert objects.next_object
        { kind := kind, native := native, bytes := [], buffer_mirror_valid := true, buffer_target := 0,
          generation := 0, pending_delete := false, native_deleted := false, references := 0,
          contents := [] },
      next_object := objects.next_object + 1
      saturated := objects.saturated })

/-- A write through `get_mut`. -/
def update (objects : Objects) (id : Nat) (write : Object → Object) : Objects :=
  match objects.entries.get id with
  | none => objects
  | some object => { objects with entries := objects.entries.insert id (write object) }

def get_mut (objects : Objects) (id : Nat) (kind : Kind) (write : Object → Object) : Result Objects := do
  let _ ← objects.get id kind
  .ok (objects.update id write)

def retire_unreferenced (objects : Objects) (id : Nat) : Objects :=
  match objects.entries.get id with
  | none => objects
  | some object =>
    if object.pending_delete = true ∧ object.references = 0 then
      { objects with entries := objects.entries.erase id }
    else objects

/-- There is nothing to take from this entry. -/
def nothing_held (objects : Objects) (id : Nat) : Bool :=
  (objects.entries.get id).any fun object => decide (object.kind = .Buffer ∧ object.references = 0)

def release (objects : Objects) (id : Nat) : Objects :=
  { (objects.update id fun object => { object with references := object.references - 1 }).retire_unreferenced id with
    saturated := objects.saturated || objects.nothing_held id }

def retain (objects : Objects) (id : Nat) (kind : Kind) : Result Objects := do
  let object ← objects.get id kind
  failIf (2 ^ 32 ≤ object.references + 1) (.Returned gl.OUT_OF_MEMORY)
  .ok (objects.update id fun object => { object with references := object.references + 1 })

/-- The plain addition panics when it overflows. -/
def retain_buffer (objects : Objects) (id : Nat) : Result Objects := do
  let object ← objects.get id .Buffer
  let references ← orPanic (checkedAdd 32 object.references 1)
  .ok (objects.update id fun object => { object with references := references })

/-- The name zero stands for no buffer. -/
def retain_new (objects : Objects) (new : Nat) : Result Objects :=
  if new = 0 then .ok objects else objects.retain_buffer new

def switch_buffer (objects : Objects) (old new : Nat) : Result Objects :=
  if old = new then .ok objects
  else do
    let retained ← objects.retain_new new
    .ok (if old = 0 then retained else retained.release old)

def delete_native_buffer_name (objects : Objects) (id : Nat) : Result Objects :=
  objects.get_mut id .Buffer fun object => { object with native_deleted := true }

def delete (objects : Objects) (id : Nat) (kind : Kind) : Result Objects :=
  if id = 0 then .ok objects
  else do
    let object ← objects.get id kind
    if kind.counted then
      if object.pending_delete then .ok objects
      else .ok ((objects.update id fun object =>
        { object with pending_delete := true }).retire_unreferenced id)
    else .ok { objects with entries := objects.entries.erase id }

theorem get_eq_ok {objects : Objects} {id : Nat} {kind : Kind} {object : Object} :
    objects.get id kind = .ok object ↔ objects.entries.get id = some object ∧ object.kind = kind := by
  rw [get]
  cases hentry : objects.entries.get id with
  | none =>
    constructor
    · intro h
      cases h
    · rintro ⟨h, -⟩
      cases h
  | some found =>
    simp only [Option.some.injEq]
    by_cases hkind : found.kind = kind
    · rw [if_pos hkind]
      constructor
      · intro h
        cases h
        exact ⟨rfl, hkind⟩
      · rintro ⟨rfl, -⟩
        rfl
    · rw [if_neg hkind]
      constructor
      · intro h
        cases h
      · rintro ⟨rfl, h⟩
        exact absurd h hkind

end Objects

end BetterWebBrowser.Webgl
