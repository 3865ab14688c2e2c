import BetterWebBrowser.Dom.Mutation
import BetterWebBrowser.Framework.Observation

/-!
# Tree operations of scripts

What the script layer checks before it calls the operations of the host, and how it calls them: a fragment
is inserted child by child. The check comes before all changes, so that a refused call changes nothing.
-/

namespace BetterWebBrowser.Dom

open Framework

structure DomException where
  message : Str
  name : Str
deriving DecidableEq, Repr

abbrev Script := Method DomException Page

def hierarchyError (message : String) : DomException := ⟨message.toList, "HierarchyRequestError".toList⟩

def notFoundError (message : String) : DomException := ⟨message.toList, "NotFoundError".toList⟩

namespace Page

/-! ## Pre-insertion validity -/

section Validity

variable (isRoot : NodeId → Bool) (page : Page)

/-- `node_type`; some of the nodes with document data are the roots of documents, the others fragments. -/
def nodeType (id : NodeId) : Nat :=
  match page.data id with
  | .element _ => 1
  | .text _ => 3
  | .cdata _ => 4
  | .comment _ => 8
  | .shadowRoot _ => 11
  | .document => if isRoot id then 9 else 11
  | .doctype .. => 10
  | .processingInstruction .. => 7

/-- Where the walk over hosts goes on. -/
def hostIncludingParent (id : NodeId) : Option NodeId :=
  match page.parent id with
  | some parent => some parent
  | none => if page.nodeType isRoot id = 11 then page.shadowHost id else none

def isHostIncludingInclusiveAncestor (ancestor node : NodeId) : Bool :=
  decide (ancestor ∈ Walk.successors (page.hostIncludingParent isRoot) page.allocated.length node)

/-- The checks of a fragment's children. -/
def fragmentError (node : NodeId) : Option DomException :=
  let fragmentChildren := page.children node
  if 1 < (fragmentChildren.filter fun candidate => page.nodeType isRoot candidate = 1).length ∨
      (fragmentChildren.any fun candidate =>
        page.nodeType isRoot candidate = 3 ∨ page.nodeType isRoot candidate = 4) = true then
    some (hierarchyError "A document fragment cannot create an invalid document tree")
  else none

/-- An element may come into a document that has none, and after its doctype. -/
def elementError (parent : NodeId) (child : Option NodeId) (excluded : List NodeId) : Option DomException :=
  let parentChildren := page.children parent
  let remaining := parentChildren.filter fun candidate => candidate ∉ excluded
  let following := (child.map fun child => parentChildren.drop (parentChildren.idxOf child + 1)).getD []
  let doctypeFollowsChild := following.any fun candidate =>
    page.nodeType isRoot candidate = 10 ∧ candidate ∉ excluded
  if (remaining.any fun candidate => page.nodeType isRoot candidate = 1) = true ∨ doctypeFollowsChild = true ∨
      (child.any fun child => page.nodeType isRoot child = 10 ∧ child ∉ excluded) = true then
    some (hierarchyError "A document can only contain one element after its doctype")
  else none

/-- A doctype may come into a document that has none, and before its element. -/
def doctypeError (parent : NodeId) (child : Option NodeId) (excluded : List NodeId) : Option DomException :=
  let parentChildren := page.children parent
  let remaining := parentChildren.filter fun candidate => candidate ∉ excluded
  let preceding := (child.map fun child => parentChildren.take (parentChildren.idxOf child)).getD []
  let elementPrecedesChild := preceding.any fun candidate =>
    page.nodeType isRoot candidate = 1 ∧ candidate ∉ excluded
  if (remaining.any fun candidate => page.nodeType isRoot candidate = 10) = true ∨ elementPrecedesChild = true ∨
      child = none ∧ (remaining.any fun candidate => page.nodeType isRoot candidate = 1) = true then
    some (hierarchyError "A document can only contain one doctype before its element")
  else none

/-- What a document refuses. -/
def documentError (node parent : NodeId) (child : Option NodeId) (excluded : List NodeId) : Option DomException :=
  let type := page.nodeType isRoot node
  if type = 3 ∨ type = 4 then some (hierarchyError "Text cannot be inserted directly into a document")
  else if type = 7 ∨ type = 8 then none
  else if type = 11 then
    (page.fragmentError isRoot node).or
      (if ((page.children node).any fun candidate => page.nodeType isRoot candidate = 1) = true then
        page.elementError isRoot parent child excluded
      else none)
  else if type = 1 then page.elementError isRoot parent child excluded
  else page.doctypeError isRoot parent child excluded

/-- `ensurePreInsertionValidity` -/
def insertionError (node parent : NodeId) (child : Option NodeId) (childrenToExclude : List NodeId) :
    Option DomException :=
  let type := page.nodeType isRoot node
  if page.nodeType isRoot parent ∉ [1, 9, 11] then some (hierarchyError "This node type cannot have children")
  else if page.isHostIncludingInclusiveAncestor isRoot node parent then
    some (hierarchyError "The inserted node contains its parent")
  else if (child.any fun child => page.parent child ≠ some parent) = true then
    some (notFoundError "The reference node is not a child")
  else if type ∉ [1, 3, 4, 7, 8, 10, 11] then some (hierarchyError "This node type cannot be inserted")
  else if page.nodeType isRoot parent ≠ 9 then
    if type = 10 then some (hierarchyError "A doctype can only be inserted into a document") else none
  else page.documentError isRoot node parent child childrenToExclude

end Validity

end Page

namespace Script

/-! ## Calls -/

def native {A : Type} (operation : Page → Page × A) : Script A := fun page =>
  (.ok (operation page).2, (operation page).1)

/-- `nodes.every(node => …)` stops at the first node that is refused. -/
def every (insert : NodeId → Script Bool) : List NodeId → Script Bool
  | [] => pure true
  | node :: rest => do
    let inserted ← insert node
    if inserted then every insert rest else pure false

section Calls

variable (isRoot : NodeId → Bool)

def ensurePreInsertionValidity (node parent : NodeId) (child : Option NodeId) (childrenToExclude : List NodeId) :
    Script Unit :=
  Method.read fun page =>
    match page.insertionError isRoot node parent child childrenToExclude with
    | some error => .error error
    | none => .ok ()

/-- The nodes that come with one: the children of a fragment. -/
def insertedNodes (page : Page) (child : NodeId) : List NodeId :=
  if page.nodeType isRoot child = 11 then page.children child else [child]

def appendChild (this child : NodeId) : Script (Option NodeId) := do
  ensurePreInsertionValidity isRoot child this none []
  let page ← Method.get
  let inserted ← every (fun node => native fun page => page.appendChild this node) (insertedNodes isRoot page child)
  return if inserted then some child else none

/-- `insertBefore` of the host, which appends without a reference. -/
def hostInsertBefore (this : NodeId) (reference : Option NodeId) (node : NodeId) : Script Bool :=
  match reference with
  | none => native fun page => page.appendChild this node
  | some reference => native fun page => page.insertBefore this node reference

def insertBefore (this child : NodeId) (reference : Option NodeId) : Script (Option NodeId) := do
  ensurePreInsertionValidity isRoot child this reference []
  let page ← Method.get
  let inserted ← every (hostInsertBefore this reference) (insertedNodes isRoot page child)
  return if inserted then some child else none

def removeChild (this child : NodeId) : Script NodeId := do
  let removed ← native fun page => page.removeChild this child
  Method.failIf (removed = false) ⟨"node is not a child".toList, "Error".toList⟩
  return child

def replaceChild (this child replaced : NodeId) : Script NodeId := do
  let page ← Method.get
  Method.failIf (page.parent replaced ≠ some this) (notFoundError "The node to replace is not a child")
  if child = replaced then return replaced
  else do
    ensurePreInsertionValidity isRoot child this (some replaced) [replaced]
    let inserted ← insertBefore isRoot this child (some replaced)
    Method.failIf (inserted = none) (hierarchyError "The replacement cannot be inserted here")
    let _ ← removeChild this replaced
    return replaced

/-- The loop that removes the first child until there is none, then the replacement. -/
def removeEach (this : NodeId) : List NodeId → Script Unit
  | [] => pure ()
  | child :: rest => do
    let _ ← removeChild this child
    removeEach this rest

def replaceChildren (this replacement : NodeId) : Script Unit := do
  let page ← Method.get
  ensurePreInsertionValidity isRoot replacement this none (page.children this)
  removeEach this (page.children this)
  let inserted ← appendChild isRoot this replacement
  Method.failIf (inserted = none) (hierarchyError "The replacement cannot be inserted here")

/-- `remove` of a child. -/
def remove (this : NodeId) : Script Unit := do
  let page ← Method.get
  match page.parent this with
  | none => pure ()
  | some parent =>
    let _ ← removeChild parent this
    pure ()

end Calls

end Script

/-! ## Runs -/

/-- The empty page: nothing was created yet. -/
def Page.empty : Page where
  allocated := []
  node := fun _ => .isolated .document
  identity := fun _ => ⟨1, 0⟩
  focused := fun _ => false
  focusWithin := fun _ => false
  focusedNode := none

/-- What a script does to the tree; with `innerHTML` the nodes that the parser made. -/
inductive ScriptCall
  | createNode (owner : NodeId) (data : NodeData)
  | appendChild (this child : NodeId)
  | insertBefore (this child : NodeId) (reference : Option NodeId)
  | removeChild (this child : NodeId)
  | remove (this : NodeId)
  | replaceChild (this child replaced : NodeId)
  | replaceChildren (this replacement : NodeId)
  | setTextContent (node : NodeId) (contents : Str)
  | setInnerHtml (node : NodeId) (parsed : List NodeId)
  | attachShadow (host : NodeId) (options : Page.ShadowOptions)
  | setFocus (next : Option NodeId)
deriving DecidableEq, Repr

def ScriptCall.perform (isRoot : NodeId → Bool) : ScriptCall → Script Unit
  | .createNode owner data => do
    let _ ← Script.native fun page => page.newIn owner.document data
  | .appendChild this child => do
    let _ ← Script.appendChild isRoot this child
  | .insertBefore this child reference => do
    let _ ← Script.insertBefore isRoot this child reference
  | .removeChild this child => do
    let _ ← Script.removeChild this child
  | .remove this => Script.remove this
  | .replaceChild this child replaced => do
    let _ ← Script.replaceChild isRoot this child replaced
  | .replaceChildren this replacement => Script.replaceChildren isRoot this replacement
  | .setTextContent node contents => Method.modify fun page => page.setTextContent node contents
  | .setInnerHtml node parsed => Method.modify fun page => page.replaceInnerHtml node parsed
  | .attachShadow host options => do
    let _ ← Script.native fun page => page.attachShadow host options
  | .setFocus next => Method.modify fun page => page.setFocus next

end BetterWebBrowser.Dom
