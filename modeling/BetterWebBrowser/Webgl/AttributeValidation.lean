import BetterWebBrowser.Framework.Observation
import BetterWebBrowser.Webgl.IndexRanges

/-!
# Attributes of a draw

Which slots the linked program reads is asked once; the ranges that the enabled slots reach are
checked at every draw.
-/

namespace BetterWebBrowser.Webgl

open Framework

namespace AttributeReflection

def MAX_PROGRAMS : Nat := 32

def lookup (owner generation : Nat) (entries : List Entry) : Option Entry × List Entry :=
  Recent.touch (fun entry => decide (entry.owner = owner ∧ entry.generation = generation)) entries

def remove (owner : Nat) (entries : List Entry) : List Entry :=
  entries.filter fun entry => decide (entry.owner ≠ owner)

def insert (owner generation active : Nat) (entries : List Entry) : List Entry :=
  Recent.push MAX_PROGRAMS ⟨owner, generation, active⟩ (remove owner entries)

/-- A matrix takes one slot for each column. -/
def columns (kind : Nat) : Nat :=
  if [0x8b5a, 0x8b65, 0x8b66].contains kind then 2
  else if [0x8b5b, 0x8b67, 0x8b68].contains kind then 3
  else if [0x8b5c, 0x8b69, 0x8b6a].contains kind then 4
  else 1

def slots (location : Int) (kind : Nat) (size : Int) (maximum : Nat) : Option Nat :=
  if location < 0 then some 0
  else if size < 0 then none
  else
    let count := columns kind * size.toNat
    let start := location.toNat
    if 2 ^ 64 ≤ count ∨ 2 ^ 64 ≤ start + count then none
    else if count = 0 ∨ 32 < maximum ∨ maximum < start + count then none
    else some ((List.range' start count).foldl (fun mask index => mask ||| 1 <<< index) 0)

/-- The slots of one input. -/
def active_slots (driver : Driver) (program maximum index : Nat) : Result Nat := do
  let input ← driver.active_attribute program index
  failIf (input.length < 0 ∨ (MAX_SHADER_BYTES : Int) + 1 ≤ input.length) (.Returned gl.INVALID_OPERATION)
  orError gl.INVALID_OPERATION (slots input.location input.kind input.size maximum)

/-- The slots that a linked program reads, one bit each. -/
def scan (driver : Driver) (program maximum : Nat) : Result Nat := do
  let count ← driver.active_attributes program
  failIf (count < 0 ∨ (maximum : Int) < count) (.Returned gl.INVALID_OPERATION)
  (List.range count.toNat).foldlM (fun active index => do
    let slots ← active_slots driver program maximum index
    .ok (active ||| slots)) 0

end AttributeReflection

namespace WebGl

def reflect (driver : Driver) (generation native maximum : Nat) : Gl Nat := do
  let active ← Method.ofExcept (AttributeReflection.scan driver native maximum)
  Method.modify fun context => { context with
    attribute_reflection :=
      AttributeReflection.insert context.program generation active context.attribute_reflection }
  pure active

def active_attribute_mask (driver : Driver) : Gl Nat := do
  let context ← Method.get
  let object ← Method.ofExcept (context.objects.get context.program .Program)
  match AttributeReflection.lookup context.program object.generation context.attribute_reflection with
  | (some entry, entries) => do
    Method.modify fun context => { context with attribute_reflection := entries }
    pure entry.active
  | (none, _) => reflect driver object.generation object.native context.attributes.length

/-- The last element of an attribute that is read: by vertex, or every few instances. -/
def lastElement (slot : Attribute) (maximum instances : Nat) : Nat :=
  if slot.divisor = 0 then maximum else (instances - 1) / slot.divisor

def packedStride (slot : Attribute) : Nat := if slot.stride = 0 then slot.size else slot.stride

/-- Where an element of an attribute ends in its buffer. -/
def elementEnd (slot : Attribute) (element : Nat) : Nat :=
  slot.offset + element * packedStride slot + slot.size

/-- The enabled slots that the program reads. -/
def consumed (active : Nat) (attributes : List Attribute) : List Attribute :=
  (attributes.zipIdx.filter fun entry => entry.1.enabled && active.testBit entry.2).map Prod.fst

def attribute_fits (objects : Objects) (maximum instances : Nat) (per_vertex : Bool) (slot : Attribute) :
    Result Bool := do
  let buffer ← objects.get slot.buffer .Buffer
  failIf (buffer.bytes.length < elementEnd slot (lastElement slot maximum instances))
    (.Returned gl.INVALID_OPERATION)
  .ok (per_vertex || decide (slot.divisor = 0))

def attributes_fit (active maximum instances : Nat) (instanced : Bool) (context : WebGl) : Result Unit := do
  failIf (∃ slot ∈ context.attributes, slot.enabled = true ∧ slot.buffer = 0) (.Returned gl.INVALID_OPERATION)
  let per_vertex ← (consumed active context.attributes).foldlM
    (attribute_fits context.objects maximum instances) false
  failIf (instanced = true ∧ per_vertex = false ∧ context.api = .One) (.Returned gl.INVALID_OPERATION)

def validate_instance_attributes (driver : Driver) (maximum instances : Nat) (instanced : Bool) : Gl Unit := do
  let active ← active_attribute_mask driver
  Method.read (attributes_fit active maximum instances instanced)

def validate_attributes (driver : Driver) (maximum : Nat) : Gl Unit :=
  validate_instance_attributes driver maximum 1 false

end WebGl

end BetterWebBrowser.Webgl
