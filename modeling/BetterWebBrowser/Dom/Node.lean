import BetterWebBrowser.Framework.Str
import BetterWebBrowser.Framework.Walk

/-!
# DOM nodes

The nodes of all documents, addressed by their identities, with the walks that the engine
takes over parents, shadow hosts and children.
-/

namespace BetterWebBrowser.Dom

open Framework

/-- A node identity: its allocation namespace and its number there (`local`). -/
structure NodeId where
  document : Nat
  serial : Nat
deriving DecidableEq, Repr

instance : LE NodeId := ⟨fun a b => a.document < b.document ∨ a.document = b.document ∧ a.serial ≤ b.serial⟩

instance : DecidableRel (fun a b : NodeId => a ≤ b) := fun a b =>
  inferInstanceAs (Decidable (a.document < b.document ∨ a.document = b.document ∧ a.serial ≤ b.serial))

structure QualName where
  namePrefix : Option Str
  ns : Str
  localName : Str
deriving DecidableEq, Repr

structure Attribute where
  name : QualName
  value : Str
deriving DecidableEq, Repr

inductive ShadowRootMode
  | opened
  | closed
deriving DecidableEq, Repr

structure ShadowRootData where
  host : NodeId
  mode : ShadowRootMode
  declarative : Bool
  registryIsGlobal : Bool
  registryIsNull : Bool
  keepRegistryNull : Bool
  manualSlotAssignment : Bool
  delegatesFocus : Bool
  serializable : Bool
  clonable : Bool
deriving DecidableEq, Repr

structure ElementData where
  name : QualName
  attrs : List Attribute
  templateContents : Option NodeId
  shadowRoot : Option NodeId
  fullscreen : Bool
deriving DecidableEq, Repr

inductive NodeData
  | document
  | shadowRoot (data : ShadowRootData)
  | doctype (name publicId systemId : Str)
  | text (contents : Str)
  | cdata (contents : Str)
  | comment (contents : Str)
  | processingInstruction (target contents : Str)
  | element (data : ElementData)
deriving DecidableEq, Repr

structure Node where
  parent : Option NodeId
  children : List NodeId
  data : NodeData
  subtreeMutationVersion : Nat
  childListVersion : Nat
deriving DecidableEq, Repr

/-- A node as it is created. -/
def Node.isolated (data : NodeData) : Node where
  parent := none
  children := []
  data := data
  subtreeMutationVersion := 0
  childListVersion := 0

/-- The state of a `NodeIdAllocator`. -/
structure Allocator where
  nextLocal : Nat
  mutationVersion : Nat
deriving DecidableEq, Repr

/-- Every node that was created, and the allocators. A node that a reference names stays alive. -/
structure Heap where
  allocated : List NodeId
  node : NodeId → Node
  identity : Nat → Allocator

namespace Heap

variable (heap : Heap)

def parent (id : NodeId) : Option NodeId := (heap.node id).parent

def children (id : NodeId) : List NodeId := (heap.node id).children

def data (id : NodeId) : NodeData := (heap.node id).data

def element (id : NodeId) : Option ElementData :=
  match heap.data id with
  | .element element => some element
  | _ => none

def tagName (id : NodeId) : Option Str := (heap.element id).map fun element => element.name.localName

def namespaceUri (id : NodeId) : Option Str := (heap.element id).map fun element => element.name.ns

def isFullscreen (id : NodeId) : Bool := (heap.element id).any fun element => element.fullscreen

def attr (id : NodeId) (wanted : Str) : Option Str := do
  let element ← heap.element id
  let found ← element.attrs.find? fun candidate => Str.eqIgnoreAsciiCase candidate.name.localName wanted
  return found.value

def shadowHost (id : NodeId) : Option NodeId :=
  match heap.data id with
  | .shadowRoot shadow => some shadow.host
  | _ => none

def shadowRoot (id : NodeId) : Option NodeId := (heap.element id).bind fun element => element.shadowRoot

def shadowIncludingParent (id : NodeId) : Option NodeId := (heap.parent id).or (heap.shadowHost id)

/-! ## Walks

An ancestor walk visits at most one node for each allocated one, unless it runs in a cycle. -/

/-- The node and its ancestors, the next one last. -/
def inclusiveAncestors (id : NodeId) : List NodeId :=
  Walk.successors heap.parent heap.allocated.length id

/-- The ancestors of a node. -/
def ancestors (id : NodeId) : List NodeId :=
  ((heap.parent id).map heap.inclusiveAncestors).getD []

def inclusiveShadowAncestors (id : NodeId) : List NodeId :=
  Walk.successors heap.shadowIncludingParent heap.allocated.length id

def treeRoot (id : NodeId) : NodeId := (heap.inclusiveAncestors id).getLastD id

def shadowIncludingRoot (id : NodeId) : NodeId := (heap.inclusiveShadowAncestors id).getLastD id

/-- The first nodes of a tree in tree order, down to a depth. -/
def descendantsTo : Nat → NodeId → List NodeId
  | 0, id => [id]
  | depth + 1, id => id :: (heap.children id).flatMap (descendantsTo depth)

def descendants (id : NodeId) : List NodeId := heap.descendantsTo heap.allocated.length id

/-- A node, its shadow tree and its children, down to a depth. -/
def shadowDescendantsTo : Nat → NodeId → List NodeId
  | 0, id => [id]
  | depth + 1, id =>
    id :: ((heap.shadowRoot id).toList ++ heap.children id).flatMap (shadowDescendantsTo depth)

def shadowIncludingDescendants (id : NodeId) : List NodeId :=
  heap.shadowDescendantsTo heap.allocated.length id

/-! ## Mutation versions -/

/-- The next version of the document goes to a node and everything that it is in. -/
def markMutated (id : NodeId) : Heap :=
  let visited := heap.inclusiveShadowAncestors id
  let root := heap.shadowIncludingRoot id
  let version := (heap.identity root.document).mutationVersion + 1
  { heap with
    node := fun other =>
      if other ∈ visited then { heap.node other with subtreeMutationVersion := version } else heap.node other
    identity := fun document =>
      if document = root.document then { heap.identity document with mutationVersion := version }
      else heap.identity document }

/-! ## Form owners -/

def ancestorRoot (id : NodeId) : Option NodeId := (heap.ancestors id).getLast?

def formOwner (id : NodeId) : Option NodeId :=
  match heap.attr id "form".toList with
  | some wanted => do
    let root ← heap.ancestorRoot id
    let node ← (heap.descendants root).find? fun node => heap.attr node "id".toList == some wanted
    if heap.tagName node == some "form".toList then some node else none
  | none => (heap.ancestors id).find? fun node => heap.tagName node == some "form".toList

end Heap

end BetterWebBrowser.Dom
