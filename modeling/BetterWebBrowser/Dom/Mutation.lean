import BetterWebBrowser.Dom.Trees

/-!
# Tree mutations

The operations that create, insert and remove nodes and attach shadow trees, with the focus flags that they
keep. Form controls and style sheets are left out: what they do on insertion and removal changes no link and
no focus flag.
-/

namespace BetterWebBrowser.Dom

open Framework

def MAX_DOM_DEPTH : Nat := 512

namespace Heap

variable (heap : Heap)

def modify (id : NodeId) (write : Node → Node) : Heap :=
  { heap with node := Function.update heap.node id (write (heap.node id)) }

def setParent (id : NodeId) (parent : Option NodeId) : Heap := heap.modify id fun node => { node with parent := parent }

def setChildren (id : NodeId) (children : List NodeId) : Heap :=
  heap.modify id fun node => { node with children := children }

def setData (id : NodeId) (data : NodeData) : Heap := heap.modify id fun node => { node with data := data }

def markChildrenMutated (id : NodeId) : Heap :=
  (heap.modify id fun node => { node with childListVersion := node.childListVersion + 1 }).markMutated id

/-- The height of a subtree with its template contents, as far as a limit; the walk stops there. -/
def heightTo : Nat → NodeId → Nat
  | 0, _ => 0
  | depth + 1, id =>
    ((heap.children id ++ ((heap.element id).bind fun element => element.templateContents).toList).map fun child =>
      heightTo depth child + 1).foldr max 0

def subtreeHeight (root : NodeId) : Nat := heap.heightTo MAX_DOM_DEPTH root

def withinDepthBudget (parent child : NodeId) : Bool :=
  decide ((heap.ancestors parent).length + 1 + heap.subtreeHeight child ≤ MAX_DOM_DEPTH)

def parentAndIndex (target : NodeId) : Option (NodeId × Nat) := do
  let parent ← heap.parent target
  let index ← (heap.children parent).findIdx? fun child => child == target
  return (parent, index)

end Heap

/-- The nodes with the flags of the focused element, and that element as the host keeps it. -/
structure Page extends Heap where
  focused : NodeId → Bool
  focusWithin : NodeId → Bool
  focusedNode : Option NodeId

namespace Page

variable (page : Page)

def onHeap (write : Heap → Heap) : Page := { page with toHeap := write page.toHeap }

def markMutated (id : NodeId) : Page := page.onHeap fun heap => heap.markMutated id

/-! ## Creation -/

/-- `Node::new_in`, in the document of an allocator. -/
def newIn (document : Nat) (data : NodeData) : Page × NodeId :=
  let id : NodeId := ⟨document, (page.identity document).nextLocal⟩
  ({ page with
      allocated := id :: page.allocated
      node := Function.update page.node id (.isolated data)
      focused := Function.update page.focused id false
      focusWithin := Function.update page.focusWithin id false
      identity := Function.update page.identity document
        { page.identity document with nextLocal := (page.identity document).nextLocal + 1 } }, id)

def createTextFor (owner : NodeId) (contents : Str) : Page × NodeId := page.newIn owner.document (.text contents)

/-! ## Focus -/

def hasFocusWithin (id : NodeId) : Bool := (page.element id).isSome && page.focusWithin id

/-- Nodes that are no elements have no flag. -/
def setFocusWithin (focused : Bool) (page : Page) (current : NodeId) : Page :=
  if (page.element current).isSome = true ∧ page.focusWithin current ≠ focused then
    Page.markMutated { page with focusWithin := Function.update page.focusWithin current focused } current
  else page

def setFocusWithinPath (node : NodeId) (focused : Bool) : Page :=
  (page.inclusiveShadowAncestors node).foldl (setFocusWithin focused) page

def setFocused (id : NodeId) (focused : Bool) : Page :=
  if (page.element id).isSome = true ∧ page.focused id ≠ focused then
    Page.markMutated { page with focused := Function.update page.focused id focused } id
  else page

def clearFocusTarget (previous : Option NodeId) : Page :=
  match previous with
  | none => page
  | some previous => (page.setFocused previous false).setFocusWithinPath previous false

def giveFocusTarget (next : Option NodeId) : Page :=
  match next with
  | none => page
  | some next => (page.setFocused next true).setFocusWithinPath next true

/-- `set_focus_target` of the host and of the node. -/
def setFocusTarget (next : Option NodeId) : Page :=
  if page.focusedNode = next then page
  else { (page.clearFocusTarget page.focusedNode).giveFocusTarget next with focusedNode := next }

/-- `setFocus`: only elements take the focus. -/
def setFocus (next : Option NodeId) : Page :=
  page.setFocusTarget (next.filter fun node => (page.element node).isSome)

/-! ## Removal -/

def removeFromParent (target : NodeId) : Page :=
  match page.parentAndIndex target with
  | none => page
  | some (parent, index) =>
    let cleared := if page.hasFocusWithin target then page.setFocusWithinPath parent false else page
    cleared.onHeap fun heap => ((heap.setChildren parent ((heap.children parent).eraseIdx index)).setParent target none)
      |>.markChildrenMutated parent

def removeChild (parent child : NodeId) : Page × Bool :=
  match page.parentAndIndex child with
  | none => (page, false)
  | some (actual, _) => if parent ≠ actual then (page, false) else (page.removeFromParent child, true)

def clearChildren (node : NodeId) : Page :=
  let children := page.children node
  let emptied := page.onHeap fun heap =>
    children.foldl (fun heap child => heap.setParent child none) (heap.setChildren node [])
  if children = [] then emptied
  else
    let cleared := if children.any page.hasFocusWithin then emptied.setFocusWithinPath node false else emptied
    cleared.onHeap fun heap => heap.markChildrenMutated node

/-! ## Insertion -/

/-- The end of every insertion: the child is linked at an index. -/
def insertAt (parent child : NodeId) (index : Nat) : Page :=
  let linked := page.onHeap fun heap =>
    (heap.setParent child (some parent)).setChildren parent ((heap.children parent).insertIdx index child)
  let flagged := if linked.hasFocusWithin child then linked.setFocusWithinPath parent true else linked
  flagged.onHeap fun heap => heap.markChildrenMutated parent

def appendNode (parent child : NodeId) : Page := page.insertAt parent child (page.children parent).length

/-- The checks of both insertions; the ancestors are those of the tree, without hosts. -/
def refusesInsertion (parent child : NodeId) : Bool :=
  decide (parent = child) || decide (child ∈ page.inclusiveAncestors parent) || !page.withinDepthBudget parent child

def appendChild (parent child : NodeId) : Page × Bool :=
  if page.refusesInsertion parent child then (page, false)
  else ((page.removeFromParent child).appendNode parent child, true)

/-- The index once the child is taken away, which may stand before it. -/
def shiftedIndex (parent child : NodeId) (index : Nat) : Nat :=
  match page.parentAndIndex child with
  | none => index
  | some (oldParent, oldIndex) => if oldParent = parent ∧ oldIndex < index then index - 1 else index

def insertBefore (parent child reference : NodeId) : Page × Bool :=
  match page.parentAndIndex reference with
  | none => (page, false)
  | some (referenceParent, index) =>
    if parent ≠ referenceParent ∨ page.refusesInsertion parent child = true then (page, false)
    else
      ((page.removeFromParent child).insertAt parent child (page.shiftedIndex parent child index), true)

/-! ## Contents -/

def setTextContent (node : NodeId) (contents : Str) : Page :=
  match page.data node with
  | .text _ => (page.onHeap fun heap => heap.setData node (.text contents)).markMutated node
  | .cdata _ => (page.onHeap fun heap => heap.setData node (.cdata contents)).markMutated node
  | .comment _ => (page.onHeap fun heap => heap.setData node (.comment contents)).markMutated node
  | .processingInstruction target _ =>
    (page.onHeap fun heap => heap.setData node (.processingInstruction target contents)).markMutated node
  | _ =>
    let cleared := page.clearChildren node
    if contents = [] then cleared
    else
      let (created, text) := cleared.createTextFor node contents
      (created.appendChild node text).1

/-- The children that were parsed are appended one after the other; one that is refused is dropped. -/
def appendAll (target : NodeId) (children : List NodeId) : Page :=
  children.foldl (fun page child => (page.appendChild target child).1) page

/-- `replace_inner_html` with what `parse_html_fragment` made of the text. -/
def replaceInnerHtml (node : NodeId) (parsed : List NodeId) : Page :=
  match page.element ((page.shadowHost node).getD node) with
  | none => page.clearChildren node
  | some context =>
    let target := if (page.shadowHost node).isSome then node else context.templateContents.getD node
    (page.clearChildren target).appendAll target parsed

/-! ## Shadow trees -/

structure ShadowOptions where
  mode : ShadowRootMode
  delegatesFocus : Bool
  serializable : Bool
  clonable : Bool
  manualSlotAssignment : Bool
deriving DecidableEq, Repr

def ShadowOptions.rootData (options : ShadowOptions) (host : NodeId) : ShadowRootData where
  host := host
  mode := options.mode
  declarative := false
  registryIsGlobal := true
  registryIsNull := false
  keepRegistryNull := false
  manualSlotAssignment := options.manualSlotAssignment
  delegatesFocus := options.delegatesFocus
  serializable := options.serializable
  clonable := options.clonable

/-- A declarative root of the mode is emptied and taken over. -/
def reuseShadow (root : NodeId) (shadow : ShadowRootData) : Page :=
  let emptied := (page.children root).foldl (fun page child => (page.removeChild root child).1) page
  emptied.onHeap fun heap => heap.setData root (.shadowRoot { shadow with declarative := false })

def attachShadow (host : NodeId) (options : ShadowOptions) : Page × Option NodeId :=
  match page.element host with
  | none => (page, none)
  | some element =>
    match element.shadowRoot with
    | some root =>
      match page.data root with
      | .shadowRoot shadow =>
        if shadow.declarative = false ∨ shadow.mode ≠ options.mode then (page, none)
        else (page.reuseShadow root shadow, some root)
      | _ => (page, none)
    | none =>
      let (created, root) := page.newIn host.document (.shadowRoot (options.rootData host))
      ((created.onHeap fun heap => heap.setData host (.element { element with shadowRoot := some root })).markMutated host,
        some root)

end Page

end BetterWebBrowser.Dom
