import BetterWebBrowser.Framework.Checked
import BetterWebBrowser.RendererProtocol.Wire

/-!
# Display items as edits to the previous presentation's items

The encoder sends a list of display items whole, or as edits that name ranges of the list it
sent last; the decoder, which kept that list, rebuilds the whole one.
-/

namespace BetterWebBrowser.RendererProtocol

open Framework

/-- Replace `removed` base items starting at `start` with the next `inserted` encoded items. -/
structure Edit where
  start : Nat
  removed : Nat
  inserted : Nat
deriving DecidableEq, Repr

/-- Items of the previous presentation of the same document, as the codec saw them. -/
structure ItemBase (Item : Type) where
  revision : UInt64
  items : List Item

/-- The comparison and the codec of a single display item. -/
structure ItemCodec (Item : Type) where
  sameDisplayItem : Item → Item → Bool
  encodeItem : Item → ProtocolResult (List UInt8)
  decodeItem : WireReader Item

def MAX_DOM_NODES : Nat := 100_000

namespace ItemCodec

variable {Item : Type} (codec : ItemCodec Item)

/-! ## Encoding -/

/-- The length of the longest common prefix of two lists. -/
def commonPrefix (old new : List Item) : Nat :=
  ((old.zip new).takeWhile fun pair => codec.sameDisplayItem pair.1 pair.2).length

/-- One edit for each run of items that differ, or `none` when they come to more than
`budget`. -/
def changedRuns (start budget : Nat) (pairs : List (Item × Item)) (index sent : Nat) :
    Option (List Edit) :=
  match pairs with
  | [] => some []
  | (old, new) :: rest =>
    if codec.sameDisplayItem old new then changedRuns start budget rest (index + 1) sent
    else
      let differs := fun pair : Item × Item => !codec.sameDisplayItem pair.1 pair.2
      let run := 1 + (rest.takeWhile differs).length
      if sent + run > budget then none
      else do
        let edits ← changedRuns start budget (rest.dropWhile differs) (index + run) (sent + run)
        some ({ start := start + index, removed := run, inserted := run } :: edits)
termination_by pairs.length
decreasing_by
  · exact Nat.lt_succ_self _
  · exact Nat.lt_succ_of_le (List.length_dropWhile_le _ _)

/-- Edits that turn `old` into `new`, or `none` when they would replace most of it. -/
def edits (old new : List Item) : Option (List Edit) :=
  let start := codec.commonPrefix old new
  let suffix := codec.commonPrefix (old.drop start).reverse (new.drop start).reverse
  -- the suffix is taken behind the prefix, so neither range is reversed
  let oldMiddle := (old.take (old.length - suffix)).drop start
  let newMiddle := (new.take (new.length - suffix)).drop start
  let budget := new.length / 2
  if oldMiddle.length ≠ newMiddle.length then
    if newMiddle.length ≤ budget then
      some [{ start := start, removed := oldMiddle.length, inserted := newMiddle.length }]
    else none
  else codec.changedRuns start budget (oldMiddle.zip newMiddle) 0 0

def encodeEach (items : List Item) : ProtocolResult (List UInt8) :=
  Reader.writeEach codec.encodeItem items

/-- `value as usize` -/
def asUsize (value : Int) : Nat := (value % 2 ^ 64).toNat

/-- The edits on the wire. Inserted items sit at the same place in the new list, shifted by
earlier edits. -/
def encodeEdits (items : List Item) : Int → List Edit → Except (Fault ProtocolError) (List UInt8)
  | _, [] => pure []
  | offset, edit :: edits => do
    let first := asUsize (edit.start + offset)
    let inserted ← slice items first (first + edit.inserted)
    let bytes ← (codec.encodeEach inserted).mapError .Returned
    let more ← encodeEdits items (offset + (edit.inserted - edit.removed)) edits
    pure (WireWriter.u32 (UInt32.ofNat edit.start) ++ WireWriter.u32 (UInt32.ofNat edit.removed) ++
      WireWriter.u32 (UInt32.ofNat edit.inserted) ++ bytes ++ more)

def encodeItems (items : List Item) (base : Option (ItemBase Item)) :
    Except (Fault ProtocolError) (List UInt8) :=
  match base.bind fun base => (codec.edits base.items items).map (base, ·) with
  | none => do
    let bytes ← (codec.encodeEach items).mapError .Returned
    pure (WireWriter.u8 0 ++ WireWriter.u32 (UInt32.ofNat items.length) ++ bytes)
  | some (base, edits) => do
    let bytes ← codec.encodeEdits items 0 edits
    pure (WireWriter.u8 1 ++ WireWriter.u64 base.revision ++
      WireWriter.u32 (UInt32.ofNat edits.length) ++ bytes)

/-! ## Decoding -/

abbrev SpliceReader (A : Type) := Reader (Fault ProtocolError) A

def invalid {A : Type} (field : String) : SpliceReader A :=
  Reader.fail (.Returned (.InvalidPayload field))

/-- The edits of a list applied to the base: the base items copied so far and the new list. -/
def decodeEdits (base : List Item) : Nat → Nat → List Item → SpliceReader (Nat × List Item)
  | 0, copied, items => pure (copied, items)
  | count + 1, copied, items => do
    let start := (← WireReader.u32.orRaise).toNat
    let removed := (← WireReader.u32.orRaise).toNat
    let inserted ← (WireReader.boundedCount (← WireReader.u32.orRaise) (MAX_DOM_NODES * 4)
      "display item edit").orRaise
    match (checkedAdd 64 start removed).filter fun stop => copied ≤ start ∧ stop ≤ base.length with
    | none => invalid "display item edit range"
    | some stop =>
      let kept ← Reader.ofExcept (slice base copied start)
      if (items ++ kept).length + inserted > MAX_DOM_NODES * 4 then invalid "display items"
      else
        let new ← (codec.decodeItem.times inserted).orRaise
        decodeEdits base count stop (items ++ kept ++ new)

def decodeItems (base : Option (ItemBase Item)) : SpliceReader (List Item) := do
  match ← WireReader.u8.orRaise with
  | 0 =>
    let count ← (WireReader.boundedCount (← WireReader.u32.orRaise) (MAX_DOM_NODES * 4)
      "display items").orRaise
    (codec.decodeItem.times count).orRaise
  | 1 =>
    let revision ← WireReader.u64.orRaise
    match base.filter fun base => base.revision = revision with
    | none => invalid "display item base revision"
    | some base =>
      let count ← (WireReader.boundedCount (← WireReader.u32.orRaise) (MAX_DOM_NODES * 4)
        "display item edits").orRaise
      let (copied, items) ← codec.decodeEdits base.items count 0 []
      let kept ← Reader.ofExcept (slice base.items copied base.items.length)
      if (items ++ kept).length > MAX_DOM_NODES * 4 then invalid "display items"
      else pure (items ++ kept)
  | _ => invalid "display item encoding"

end ItemCodec

end BetterWebBrowser.RendererProtocol
