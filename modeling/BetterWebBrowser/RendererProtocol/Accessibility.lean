import BetterWebBrowser.RendererProtocol.Types

/-!
# Accessibility updates

A document's first update is its whole tree, later ones are deltas. The browser merges
updates that it has not delivered; hash maps and sets of the source are ordered ones here,
which is the order their contents are sorted into.
-/

namespace BetterWebBrowser.RendererProtocol

open Framework

def MAX_ACCESSIBILITY_NODES : Nat := 100000
def MAX_ACCESSIBILITY_EDGES : Nat := MAX_ACCESSIBILITY_NODES * 2
def MAX_ACCESSIBILITY_NODE_TEXT_BYTES : Nat := 64 * 1024
def MAX_ACCESSIBILITY_TOTAL_TEXT_BYTES : Nat := 4 * 1024 * 1024
def MAX_ACCESSIBILITY_COORDINATE : ℚ := 10000000

inductive SemanticRole
  | RootWebArea | TextRun | Paragraph | Heading | Link | Button | TextInput | MultilineTextInput
  | PasswordInput | SearchInput | ComboBox | List | ListItem | Table | RowGroup | Row | Cell
  | RowHeader | ColumnHeader | Image | Form | Main | Navigation | Header | Footer | Article
  | Section | Checkbox | Radio
deriving DecidableEq

inductive SemanticChecked
  | False | True | Mixed
deriving DecidableEq

structure SemanticActions where
  focus : Bool
  invoke : Bool
  setValue : Bool
deriving DecidableEq

/-- UTF-16 offsets. -/
structure SemanticSelection where
  start : Nat
  stop : Nat
deriving DecidableEq

structure SemanticNode where
  id : DocumentNodeId
  role : SemanticRole
  name : Str
  value : Str
  description : Str
  bounds : RectF
  children : List DocumentNodeId
  level : Option Nat
  disabled : Bool
  readOnly : Bool
  actions : SemanticActions
  selection : Option SemanticSelection
  checked : Option SemanticChecked
deriving DecidableEq

structure AccessibilityUpdate where
  /-- The first update of a document is a full tree; later ones hold changed nodes only. -/
  full : Bool
  root : DocumentNodeId
  focus : DocumentNodeId
  nodes : List SemanticNode
  /-- Nodes introduced by this delta. -/
  added : List DocumentNodeId
  removed : List DocumentNodeId
deriving DecidableEq

/-! ## Validation -/

def validateRect (rect : RectF) : ProtocolResult Unit :=
  if rect.x.isBetween (-MAX_ACCESSIBILITY_COORDINATE) MAX_ACCESSIBILITY_COORDINATE &&
      rect.y.isBetween (-MAX_ACCESSIBILITY_COORDINATE) MAX_ACCESSIBILITY_COORDINATE &&
      rect.width.isBetween 0 MAX_ACCESSIBILITY_COORDINATE &&
      rect.height.isBetween 0 MAX_ACCESSIBILITY_COORDINATE then .ok ()
  else .error (.InvalidPayload "accessibility bounds")

namespace SemanticNode

def texts (node : SemanticNode) : List Str := [node.name, node.value, node.description]

/-- The checks on one node that do not look at the other nodes. -/
def validate (node : SemanticNode) (seen : Bool) : ProtocolResult Unit :=
  if decide (node.role = .Checkbox ∨ node.role = .Radio) ≠ node.checked.isSome ∨
      (node.role = .Radio ∧ node.checked = some .Mixed) then
    .error (.InvalidPayload "accessibility checked state")
  else if seen ∨ node.level = some 0 ∨
      node.selection.any (fun selection => decide (selection.stop < selection.start)) then
    .error (.InvalidPayload "accessibility node")
  else
    match validateRect node.bounds with
    | .error error => .error error
    | .ok () =>
      if node.id ∈ node.children ∨ ¬ node.children.Nodup then
        .error (.InvalidPayload "accessibility children")
      else if node.texts.any fun text =>
          decide (MAX_ACCESSIBILITY_NODE_TEXT_BYTES < Str.byteLen text) then
        .error (.InvalidPayload "accessibility node text")
      else .ok ()

end SemanticNode

/-- The loop over the nodes: ids seen so far, edges and text bytes. The counts stay below
`2^64`, since the number of nodes is bounded and their lists come from memory. -/
def validateNodes : List DocumentNodeId → Nat → Nat → List SemanticNode → ProtocolResult (Nat × Nat)
  | _, edges, text, [] => .ok (edges, text)
  | seen, edges, text, node :: nodes =>
    match node.validate (decide (node.id ∈ seen)) with
    | .error error => .error error
    | .ok () =>
      validateNodes (node.id :: seen) (edges + node.children.length)
        (text + (node.texts.map Str.byteLen).sum) nodes

namespace AccessibilityUpdate

def nodeIds (update : AccessibilityUpdate) : List DocumentNodeId := update.nodes.map SemanticNode.id

def validateUpdate (update : AccessibilityUpdate) : ProtocolResult Unit :=
  if MAX_ACCESSIBILITY_NODES < update.nodes.length ∨ MAX_ACCESSIBILITY_NODES < update.added.length ∨
      MAX_ACCESSIBILITY_NODES < update.removed.length ∨
      (update.full ∧ (update.added ≠ [] ∨ update.removed ≠ [])) then
    .error (.InvalidPayload "accessibility update")
  else
    match validateNodes [] 0 0 update.nodes with
    | .error error => .error error
    | .ok (edges, text) =>
      if MAX_ACCESSIBILITY_EDGES < edges ∨ MAX_ACCESSIBILITY_TOTAL_TEXT_BYTES < text then
        .error (.InvalidPayload "accessibility budget")
      else if ¬ update.added.Nodup ∨ ∃ id ∈ update.added, id ∉ update.nodeIds then
        .error (.InvalidPayload "added accessibility node")
      else if ¬ update.removed.Nodup ∨
          ∃ id ∈ update.removed, id ∈ update.nodeIds ∨ id = update.root then
        .error (.InvalidPayload "removed accessibility node")
      else if update.full ∧ (update.root ∉ update.nodeIds ∨ update.focus ∉ update.nodeIds) then
        .error (.InvalidPayload "full accessibility tree")
      else .ok ()

/-! ## Coalescing -/

/-- Nodes by id, as a hash map collects them. -/
def collect (nodes : List SemanticNode) : OrdMap DocumentNodeId SemanticNode :=
  OrdMap.ofList (nodes.map fun node => (node.id, node))

/-- The values of a map, sorted by id. -/
def values (nodes : OrdMap DocumentNodeId SemanticNode) : List SemanticNode :=
  nodes.entries.map Prod.snd

/-- Remove nodes from an undelivered full tree. -/
def removeFromFull : OrdMap DocumentNodeId SemanticNode → List DocumentNodeId →
    ProtocolResult (OrdMap DocumentNodeId SemanticNode)
  | nodes, [] => .ok nodes
  | nodes, id :: removed =>
    if nodes.contains id then removeFromFull (nodes.erase id) removed
    else .error (.InvalidPayload "accessibility coalescing removal")

/-- Nodes and membership relative to what the consumer last saw. -/
structure Net where
  nodes : OrdMap DocumentNodeId SemanticNode
  added : OrdMap DocumentNodeId Unit
  removed : OrdMap DocumentNodeId Unit

/-- One removed id of the later delta. -/
def Net.remove (net : Net) (id : DocumentNodeId) : Net :=
  if net.added.contains id then
    ⟨net.nodes.erase id, net.added.erase id, net.removed⟩
  else ⟨net.nodes.erase id, net.added, net.removed.insert id ()⟩

/-- The nodes of the later delta. A node that left and returns before delivery is an update
for the consumer, not a new id. -/
def Net.insertAll (nextAdded : OrdMap DocumentNodeId Unit) : Net → List SemanticNode → ProtocolResult Net
  | net, [] => .ok net
  | net, node :: nodes =>
    let reintroduced := nextAdded.contains node.id
    if net.removed.contains node.id ∧ ¬ reintroduced then
      .error (.InvalidPayload "accessibility coalescing identity")
    else
      let added :=
        if ¬ net.removed.contains node.id ∧ reintroduced then net.added.insert node.id ()
        else net.added
      Net.insertAll nextAdded
        ⟨net.nodes.insert node.id node, added, net.removed.erase node.id⟩ nodes

def coalesce (self next : AccessibilityUpdate) : ProtocolResult AccessibilityUpdate :=
  if next.full then .ok next
  else if self.root ≠ next.root then .error (.InvalidPayload "accessibility coalescing root")
  else if self.full then
    match removeFromFull (collect self.nodes) next.removed with
    | .error error => .error error
    | .ok nodes =>
      let nodes := nodes.insertAll (next.nodes.map fun node => (node.id, node))
      .ok ⟨true, next.root, next.focus, values nodes, [], []⟩
  else
    let net : Net := ⟨collect self.nodes, OrdMap.setOf self.added, OrdMap.setOf self.removed⟩
    match Net.insertAll (OrdMap.setOf next.added) (next.removed.foldl Net.remove net) next.nodes with
    | .error error => .error error
    | .ok net => .ok ⟨false, next.root, next.focus, values net.nodes, net.added.keys, net.removed.keys⟩

end AccessibilityUpdate

end BetterWebBrowser.RendererProtocol
