import BetterWebBrowser.Dom.Node
import BetterWebBrowser.Framework.StackWalk

/-!
# Slots and the composed tree

Light children of a shadow host appear in the slots of its shadow tree: in the first slot of
their name, or in the slot that a script assigned them to. The composed tree is what is drawn.
-/

namespace BetterWebBrowser.Dom

open Framework

/-- The weak references between a slot and the nodes that are assigned to it. -/
structure ManualSlotState where
  assignedSlot : Option NodeId
  assignedNodes : List NodeId
deriving DecidableEq, Repr

def ManualSlotState.default : ManualSlotState := ⟨none, []⟩

/-- The nodes with the manual assignments; a weak reference to a dropped node is dead. -/
structure SlotHeap extends Heap where
  manualSlotState : NodeId → ManualSlotState
  dropped : List NodeId

/-- The two kinds of node that a slot takes. -/
def NodeData.isSlottable : NodeData → Bool
  | .element _ => true
  | .text _ => true
  | _ => false

def NodeData.isDocument : NodeData → Bool
  | .document => true
  | _ => false

/-- The root of a shadow tree whose slots are assigned by scripts. -/
def NodeData.isManual : NodeData → Bool
  | .shadowRoot data => data.manualSlotAssignment
  | _ => false

def Heap.isSlot (heap : Heap) (id : NodeId) : Bool := heap.tagName id == some "slot".toList

/-- The name that a slot has, or that a node asks for; empty when there is none. -/
def Heap.slotName (heap : Heap) (id : NodeId) (key : Str) : Str := (heap.attr id key).getD []

namespace SlotHeap

variable (dom : SlotHeap)

def upgrade (id : NodeId) : Option NodeId := if id ∈ dom.dropped then none else some id

def assignedSlot (id : NodeId) : Option NodeId := do
  let host ← dom.parent id
  let shadow ← dom.shadowRoot host
  if (dom.data shadow).isManual then
    let assigned ← (dom.manualSlotState id).assignedSlot.bind dom.upgrade
    if dom.isSlot assigned && decide (dom.treeRoot assigned = shadow) then some assigned else none
  else
    let wanted := dom.slotName id "slot".toList
    (dom.descendants shadow).tail.find? fun candidate =>
      dom.isSlot candidate && decide (dom.slotName candidate "name".toList = wanted)

/-- The light children of the host that are in the slot. -/
def directlyAssigned (slot root host : NodeId) : List NodeId :=
  if (dom.data root).isManual then
    ((dom.manualSlotState slot).assignedNodes.filterMap dom.upgrade).filter fun node =>
      decide (dom.parent node = some host) && decide (dom.assignedSlot node = some slot)
  else
    let name := dom.slotName slot "name".toList
    (dom.children host).filter fun node =>
      (dom.data node).isSlottable && decide (dom.slotName node "slot".toList = name) &&
        decide (dom.assignedSlot node = some slot)

/-- `assigned_nodes` without flattening. -/
def assignedNodes (slot : NodeId) : List NodeId :=
  if dom.isSlot slot then
    match dom.shadowHost (dom.treeRoot slot) with
    | none => []
    | some host => dom.directlyAssigned slot (dom.treeRoot slot) host
  else []

def isShadowSlot (node : NodeId) : Bool := dom.isSlot node && (dom.shadowHost (dom.treeRoot node)).isSome

/-- `assigned_nodes` with flattening, down to a depth of slots in slots. -/
def flattenedNodes : Nat → NodeId → List NodeId
  | 0, _ => []
  | depth + 1, slot =>
    if dom.isShadowSlot slot then
      let assigned := dom.assignedNodes slot
      (if assigned = [] then dom.children slot else assigned).flatMap fun node =>
        if dom.isShadowSlot node then flattenedNodes depth node else [node]
    else []

/-! ## Manual assignment -/

def setAssignedSlot (node : NodeId) (slot : Option NodeId) : SlotHeap :=
  { dom with
    manualSlotState := fun id =>
      if id = node then { dom.manualSlotState id with assignedSlot := slot } else dom.manualSlotState id }

def setAssignedNodes (slot : NodeId) (nodes : List NodeId) : SlotHeap :=
  { dom with
    manualSlotState := fun id =>
      if id = slot then { dom.manualSlotState id with assignedNodes := nodes } else dom.manualSlotState id }

def markMutated (id : NodeId) : SlotHeap := { dom with toHeap := dom.toHeap.markMutated id }

/-- The slot of a node, unless it was dropped. -/
def priorSlot (node : NodeId) : Option NodeId := (dom.manualSlotState node).assignedSlot.bind dom.upgrade

/-- A node of the old list loses the slot if it is still there. -/
def release (slot node : NodeId) : SlotHeap :=
  if dom.priorSlot node = some slot then dom.setAssignedSlot node none else dom

/-- What the loop over the arguments keeps: the nodes that are assigned so far (those it has
seen) and the slots whose lists change. -/
structure Assigning where
  dom : SlotHeap
  assigned : List NodeId
  affected : List NodeId

/-- One argument: it leaves the slot where it was before. -/
def assignNode (slot : NodeId) (state : Assigning) (node : NodeId) : Assigning :=
  if !(state.dom.data node).isSlottable || decide (node ∈ state.assigned) then state
  else
    match (state.dom.priorSlot node).filter fun prior => decide (prior ≠ slot) with
    | none => ⟨state.dom.setAssignedSlot node (some slot), state.assigned ++ [node], state.affected⟩
    | some prior =>
      let kept := (state.dom.manualSlotState prior).assignedNodes.filter fun candidate =>
        decide (state.dom.upgrade candidate ≠ none ∧ candidate ≠ node)
      ⟨(state.dom.setAssignedNodes prior kept).setAssignedSlot node (some slot), state.assigned ++ [node],
        if prior ∈ state.affected then state.affected else state.affected ++ [prior]⟩

def assignManualNodes (slot : NodeId) (nodes : List NodeId) : SlotHeap × List NodeId :=
  if !dom.isSlot slot then (dom, [])
  else if !(dom.data (dom.treeRoot slot)).isManual then (dom, [])
  else
    let previous := (dom.manualSlotState slot).assignedNodes.filterMap dom.upgrade
    let released := previous.foldl (fun dom node => dom.release slot node) (dom.setAssignedNodes slot [])
    let final := nodes.foldl (assignNode slot) ⟨released, [], [slot]⟩
    let installed := final.dom.setAssignedNodes slot final.assigned
    (final.affected.foldl markMutated installed, final.affected)

/-! ## The composed tree -/

def composedParent (node : NodeId) : Option NodeId :=
  match dom.assignedSlot node with
  | some slot => some slot
  | none =>
    match dom.shadowHost node with
    | some host => some host
    | none => (dom.parent node).bind fun parent => (dom.shadowHost parent).or (some parent)

def composedChildren (node : NodeId) : List NodeId :=
  match dom.shadowRoot node with
  | some root => dom.children root
  | none =>
    if dom.isShadowSlot node then
      let assigned := dom.assignedNodes node
      if assigned = [] then dom.children node else assigned
    else dom.children node

/-- The loop of `is_in_composed_tree`, which has no answer when it runs out of steps. -/
def isInComposedTreeIn : Nat → NodeId → Option Bool
  | 0, _ => none
  | steps + 1, current =>
    if (dom.data current).isDocument then some true
    else
      match dom.composedParent current with
      | none => some false
      | some parent =>
        if current ∈ dom.composedChildren parent then isInComposedTreeIn steps parent else some false

/-- What `ComposedDescendants::next` pushes for a node. -/
def composedPush (node : NodeId) : List NodeId :=
  if (dom.shadowRoot node).isSome || dom.isSlot node then dom.composedChildren node else dom.children node

/-- The nodes that the iterator returns in its first calls, and the stack it then has. -/
def composedDescendantsIn (calls : Nat) (root : NodeId) : List NodeId × List NodeId :=
  StackWalk.walk dom.composedPush calls [root]

end SlotHeap

end BetterWebBrowser.Dom
