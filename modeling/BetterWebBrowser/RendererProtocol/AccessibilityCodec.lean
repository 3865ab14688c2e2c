import BetterWebBrowser.RendererProtocol.Accessibility
import BetterWebBrowser.RendererProtocol.RuntimeReading

/-!
# Codec of the accessibility updates

An accessibility update as it is written and read. Its numbers have the widths and the bits
they have on the wire; the checks are made on the exact values that the bits stand for. A node
carries the byte of its checked state only in the roles that have one.
-/

namespace BetterWebBrowser.RendererProtocol

open Framework

/-- The exact number that the bits stand for. -/
def Single.exact (number : Single) : F32 :=
  if number.isFinite then .Finite number.value else .NotFinite

namespace AccessibilityCodec

open RuntimeCodec

structure RectF where
  x : Single
  y : Single
  width : Single
  height : Single
deriving DecidableEq

structure SemanticSelection where
  start : UInt32
  stop : UInt32
deriving DecidableEq

structure SemanticNode where
  id : DocumentNodeId
  role : SemanticRole
  name : Str
  value : Str
  description : Str
  bounds : RectF
  children : List DocumentNodeId
  level : Option UInt32
  disabled : Bool
  readOnly : Bool
  actions : SemanticActions
  selection : Option SemanticSelection
  checked : Option SemanticChecked
deriving DecidableEq

structure AccessibilityUpdate where
  full : Bool
  root : DocumentNodeId
  focus : DocumentNodeId
  nodes : List SemanticNode
  added : List DocumentNodeId
  removed : List DocumentNodeId
deriving DecidableEq

/-! ## Validation -/

def RectF.exact (rect : RectF) : RendererProtocol.RectF :=
  ⟨rect.x.exact, rect.y.exact, rect.width.exact, rect.height.exact⟩

def SemanticSelection.exact (selection : SemanticSelection) : RendererProtocol.SemanticSelection :=
  ⟨selection.start.toNat, selection.stop.toNat⟩

def SemanticNode.exact (node : SemanticNode) : RendererProtocol.SemanticNode where
  id := node.id
  role := node.role
  name := node.name
  value := node.value
  description := node.description
  bounds := node.bounds.exact
  children := node.children
  level := node.level.map UInt32.toNat
  disabled := node.disabled
  readOnly := node.readOnly
  actions := node.actions
  selection := node.selection.map SemanticSelection.exact
  checked := node.checked

def AccessibilityUpdate.exact (update : AccessibilityUpdate) : RendererProtocol.AccessibilityUpdate where
  full := update.full
  root := update.root
  focus := update.focus
  nodes := update.nodes.map SemanticNode.exact
  added := update.added
  removed := update.removed

/-- `validate_rect` on the bits of the rectangle. -/
def checkRect (rect : RectF) : ProtocolResult Unit := validateRect rect.exact

/-- `validate_update` on the bits of the update. -/
def checkUpdate (update : AccessibilityUpdate) : ProtocolResult Unit := update.exact.validateUpdate

/-! ## Tags -/

/-- The roles whose nodes carry a checked state. -/
def isCheckable (role : SemanticRole) : Bool := role = .Checkbox ∨ role = .Radio

/-- `role as u8 + 1` -/
def roleTag (role : SemanticRole) : UInt8 := UInt8.ofNat (role.ctorIdx + 1)

def ROLES : List SemanticRole :=
  [.RootWebArea, .TextRun, .Paragraph, .Heading, .Link, .Button, .TextInput, .MultilineTextInput,
   .PasswordInput, .SearchInput, .ComboBox, .List, .ListItem, .Table, .RowGroup, .Row, .Cell,
   .RowHeader, .ColumnHeader, .Image, .Form, .Main, .Navigation, .Header, .Footer, .Article,
   .Section, .Checkbox, .Radio]

def decodeRole (tag : UInt8) : ProtocolResult SemanticRole :=
  match (checkedSub tag.toNat 1).bind fun index => ROLES[index]? with
  | some role => .ok role
  | none => .error (.InvalidPayload "accessibility role")

def actionBits (actions : SemanticActions) : UInt8 :=
  actions.focus.toUInt8 ||| (actions.invoke.toUInt8 <<< 1) ||| (actions.setValue.toUInt8 <<< 2)

def decodeActionBits (bits : UInt8) : ProtocolResult SemanticActions :=
  if bits &&& ~~~0b111 ≠ 0 then .error (.InvalidPayload "accessibility actions")
  else .ok { focus := bits &&& 1 ≠ 0, invoke := bits &&& 2 ≠ 0, setValue := bits &&& 4 ≠ 0 }

def checkedTag : SemanticChecked → UInt8
  | .False => 0
  | .True => 1
  | .Mixed => 2

/-! ## Encoding -/

abbrev EncodeResult := Except (Fault ProtocolError) (List UInt8)

def encodeRect (rect : RectF) : List UInt8 :=
  WireWriter.f32 rect.x ++ WireWriter.f32 rect.y ++ WireWriter.f32 rect.width ++
    WireWriter.f32 rect.height

def encodeIds (ids : List DocumentNodeId) : List UInt8 :=
  WireWriter.u32 (UInt32.ofNat ids.length) ++
    ids.flatMap fun id => WireWriter.u128 (BitVec.ofNat 128 id.get)

def encodeSelection (selection : SemanticSelection) : List UInt8 :=
  WireWriter.u32 selection.start ++ WireWriter.u32 selection.stop

def encodeString (value : Str) : EncodeResult := (WireWriter.string value).mapError .Returned

/-- The byte of the checkable roles; `node.checked.unwrap()` panics without a state. -/
def encodeChecked (role : SemanticRole) (checked : Option SemanticChecked) : EncodeResult :=
  if isCheckable role then
    match checked with
    | some state => pure (WireWriter.u8 (checkedTag state))
    | none => .error .Panicked
  else pure []

def encodeNode (node : SemanticNode) : EncodeResult := do
  let name ← encodeString node.name
  let value ← encodeString node.value
  let description ← encodeString node.description
  let checked ← encodeChecked node.role node.checked
  pure (WireWriter.u128 (BitVec.ofNat 128 node.id.get) ++ WireWriter.u8 (roleTag node.role) ++ name ++
    value ++ description ++ encodeRect node.bounds ++ encodeIds node.children ++
    WireWriter.optional WireWriter.u32 node.level ++ WireWriter.bool node.disabled ++
    WireWriter.bool node.readOnly ++ WireWriter.u8 (actionBits node.actions) ++
    WireWriter.optional encodeSelection node.selection ++ checked)

def encode (update : AccessibilityUpdate) : EncodeResult := do
  (checkUpdate update).mapError .Returned
  let nodes ← Reader.writeEach encodeNode update.nodes
  pure (WireWriter.bool update.full ++ WireWriter.u128 (BitVec.ofNat 128 update.root.get) ++
    WireWriter.u128 (BitVec.ofNat 128 update.focus.get) ++
    WireWriter.u32 (UInt32.ofNat update.nodes.length) ++ nodes ++ encodeIds update.added ++
    encodeIds update.removed)

/-! ## Decoding -/

open WireReader

def decodeRectFields : WireReader RectF := do
  let x ← f32
  let y ← f32
  let width ← f32
  let height ← f32
  pure { x, y, width, height }

def decodeRect : WireReader RectF := do
  let rect ← decodeRectFields
  Reader.ofExcept (checkRect rect)
  pure rect

def decodeIds (field : String) : WireReader (List DocumentNodeId) :=
  decodeList MAX_ACCESSIBILITY_NODES field decodeNodeId

def decodeSelection : WireReader SemanticSelection := do
  let start ← u32
  let stop ← u32
  pure { start, stop }

def decodeCheckedTag (role : SemanticRole) (tag : UInt8) : ProtocolResult SemanticChecked :=
  match tag with
  | 0 => .ok .False
  | 1 => .ok .True
  | 2 =>
    if role = .Checkbox then .ok .Mixed else .error (.InvalidPayload "accessibility checked state")
  | _ => .error (.InvalidPayload "accessibility checked state")

def decodeChecked (role : SemanticRole) : WireReader (Option SemanticChecked) :=
  if isCheckable role then do
    let tag ← u8
    let state ← Reader.ofExcept (decodeCheckedTag role tag)
    pure (some state)
  else pure none

def decodeRoleTag : WireReader SemanticRole := do
  let tag ← u8
  Reader.ofExcept (decodeRole tag)

def decodeActions : WireReader SemanticActions := do
  let bits ← u8
  Reader.ofExcept (decodeActionBits bits)

def decodeNode : WireReader SemanticNode := do
  let id ← decodeNodeId
  let role ← decodeRoleTag
  let name ← string MAX_ACCESSIBILITY_NODE_TEXT_BYTES
  let value ← string MAX_ACCESSIBILITY_NODE_TEXT_BYTES
  let description ← string MAX_ACCESSIBILITY_NODE_TEXT_BYTES
  let bounds ← decodeRect
  let children ← decodeIds "accessibility children"
  let level ← option u32
  let disabled ← bool
  let readOnly ← bool
  let actions ← decodeActions
  let selection ← option decodeSelection
  let checked ← decodeChecked role
  pure { id, role, name, value, description, bounds, children, level, disabled, readOnly, actions,
         selection, checked }

def decodeFields : WireReader AccessibilityUpdate := do
  let full ← bool
  let root ← decodeNodeId
  let focus ← decodeNodeId
  let nodes ← decodeList MAX_ACCESSIBILITY_NODES "accessibility nodes" decodeNode
  let added ← decodeIds "added accessibility nodes"
  let removed ← decodeIds "removed accessibility nodes"
  pure { full, root, focus, nodes, added, removed }

def decode : WireReader AccessibilityUpdate := do
  let update ← decodeFields
  Reader.ofExcept (checkUpdate update)
  pure update

end AccessibilityCodec
end BetterWebBrowser.RendererProtocol
