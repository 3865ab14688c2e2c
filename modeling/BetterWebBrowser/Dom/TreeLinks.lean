import BetterWebBrowser.Dom.Mutation
import BetterWebBrowser.Framework.Relink

/-!
# Links under mutations

What the mutations do to the links of a DOM: some children of a node lose their parent, or a node without
one gets a parent. Both keep a DOM well formed, the second as long as no shadow-including ancestor of the
parent is inserted.
-/

namespace BetterWebBrowser.Dom

open Framework

/-- Everything of the nodes but their versions. -/
structure Shape where
  parent : NodeId → Option NodeId
  children : NodeId → List NodeId
  data : NodeId → NodeData
  allocated : List NodeId
  nextLocal : Nat → Nat

namespace Shape

/-- Some children of a node lose it. -/
def cut (shape : Shape) (parent : NodeId) (nodes : List NodeId) : Shape :=
  { shape with
    parent := Walk.cut nodes shape.parent
    children := Function.update shape.children parent ((shape.children parent).filter fun child => child ∉ nodes) }

/-- A node gets a parent. -/
def link (shape : Shape) (parent child : NodeId) (children : List NodeId) : Shape :=
  { shape with
    parent := Function.update shape.parent child (some parent)
    children := Function.update shape.children parent children }

end Shape

namespace Heap

def shape (heap : Heap) : Shape where
  parent := heap.parent
  children := heap.children
  data := heap.data
  allocated := heap.allocated
  nextLocal := fun document => (heap.identity document).nextLocal

variable {heap heap' : Heap} {node parent child : NodeId}

theorem parent_of_shape (h : heap'.shape = heap.shape) : heap'.parent = heap.parent := congrArg Shape.parent h

theorem children_of_shape (h : heap'.shape = heap.shape) : heap'.children = heap.children := congrArg Shape.children h

theorem data_of_shape (h : heap'.shape.data = heap.shape.data) (id : NodeId) : heap'.data id = heap.data id :=
  congrFun h id

theorem element_of_shape (h : heap'.shape.data = heap.shape.data) : heap'.element = heap.element := by
  funext id
  rw [element, element, data_of_shape h]

theorem shadowHost_of_shape (h : heap'.shape.data = heap.shape.data) : heap'.shadowHost = heap.shadowHost := by
  funext id
  rw [shadowHost, shadowHost, data_of_shape h]

theorem shadowRoot_of_shape (h : heap'.shape.data = heap.shape.data) : heap'.shadowRoot = heap.shadowRoot := by
  funext id
  rw [shadowRoot, shadowRoot, element_of_shape h]

theorem data_of_cut {nodes : List NodeId} (h : heap'.shape = heap.shape.cut parent nodes) :
    heap'.shape.data = heap.shape.data := by
  rw [h, Shape.cut]

theorem data_of_link {children : List NodeId} (h : heap'.shape = heap.shape.link parent child children) :
    heap'.shape.data = heap.shape.data := by
  rw [h, Shape.link]

theorem children_of_cut {nodes : List NodeId} (h : heap'.shape = heap.shape.cut parent nodes) :
    heap'.children = Function.update heap.children parent
      ((heap.children parent).filter fun child => child ∉ nodes) := congrArg Shape.children h

theorem children_of_link {children : List NodeId} (h : heap'.shape = heap.shape.link parent child children) :
    heap'.children = Function.update heap.children parent children := congrArg Shape.children h

theorem shadowIncludingParent_congr (hparent : heap'.parent = heap.parent) (hhost : heap'.shadowHost = heap.shadowHost) :
    heap'.shadowIncludingParent = heap.shadowIncludingParent := by
  funext id
  rw [shadowIncludingParent, shadowIncludingParent, hparent, hhost]

theorem shadowIncludingParent_of_shape (h : heap'.shape = heap.shape) :
    heap'.shadowIncludingParent = heap.shadowIncludingParent :=
  shadowIncludingParent_congr (parent_of_shape h) (shadowHost_of_shape (congrArg Shape.data h))

/-! ## The basic writes -/

/-- A write to one node. -/
theorem shape_modify (id : NodeId) (write : Node → Node) : (heap.modify id write).shape =
    { heap.shape with
      parent := Function.update heap.parent id (write (heap.node id)).parent
      children := Function.update heap.children id (write (heap.node id)).children
      data := Function.update heap.data id (write (heap.node id)).data } := by
  simp only [shape, modify, Shape.mk.injEq, and_true]
  refine ⟨?_, ?_, ?_⟩
  all_goals
    funext other
    by_cases hsame : other = id <;> simp [Heap.parent, Heap.children, Heap.data, hsame]

theorem parent_node (id : NodeId) : (heap.node id).parent = heap.parent id := rfl

theorem children_node (id : NodeId) : (heap.node id).children = heap.children id := rfl

theorem data_node (id : NodeId) : (heap.node id).data = heap.data id := rfl

@[simp] theorem shape_setParent (id : NodeId) (parent : Option NodeId) :
    (heap.setParent id parent).shape = { heap.shape with parent := Function.update heap.shape.parent id parent } := by
  rw [setParent, shape_modify]
  simp [children_node, data_node, shape]

@[simp] theorem shape_setChildren (id : NodeId) (children : List NodeId) :
    (heap.setChildren id children).shape =
      { heap.shape with children := Function.update heap.shape.children id children } := by
  rw [setChildren, shape_modify]
  simp [parent_node, data_node, shape]

@[simp] theorem shape_setData (id : NodeId) (data : NodeData) :
    (heap.setData id data).shape = { heap.shape with data := Function.update heap.shape.data id data } := by
  rw [setData, shape_modify]
  simp [parent_node, children_node, shape]

theorem data_setData (id : NodeId) (data : NodeData) :
    (heap.setData id data).data = Function.update heap.data id data := congrArg Shape.data (shape_setData id data)

@[simp] theorem shape_markMutated (id : NodeId) : (heap.markMutated id).shape = heap.shape := by
  simp only [shape, markMutated, Shape.mk.injEq, true_and]
  refine ⟨?_, ?_, ?_, ?_⟩
  · funext other
    by_cases hmem : other ∈ heap.inclusiveShadowAncestors id <;> simp [Heap.parent, hmem]
  · funext other
    by_cases hmem : other ∈ heap.inclusiveShadowAncestors id <;> simp [Heap.children, hmem]
  · funext other
    by_cases hmem : other ∈ heap.inclusiveShadowAncestors id <;> simp [Heap.data, hmem]
  · funext document
    by_cases hsame : document = (heap.shadowIncludingRoot id).document <;> simp [hsame]

@[simp] theorem shape_markChildrenMutated (id : NodeId) : (heap.markChildrenMutated id).shape = heap.shape := by
  rw [markChildrenMutated, shape_markMutated, shape_modify]
  simp [parent_node, children_node, data_node, shape]

/-! ## Well-formed links -/

/-- A child that got a parent goes up to it. -/
theorem shadowIncludingParent_link {children : List NodeId}
    (h : heap'.shape = heap.shape.link parent child children) :
    heap'.shadowIncludingParent = Function.update heap.shadowIncludingParent child (some parent) := by
  have hparent : heap'.parent = Function.update heap.parent child (some parent) := congrArg Shape.parent h
  have hhost := shadowHost_of_shape (data_of_link h)
  funext id
  rw [shadowIncludingParent, hparent, hhost]
  by_cases hsame : id = child
  · simp [hsame]
  · simp [Function.update_of_ne hsame, shadowIncludingParent]

namespace WellFormed

/-- The links are the same, between more nodes. -/
theorem of_links (wf : heap.WellFormed) (hparent : heap'.parent = heap.parent) (hchildren : heap'.children = heap.children)
    (hhost : heap'.shadowHost = heap.shadowHost) (hroot : heap'.shadowRoot = heap.shadowRoot)
    (hallocated : ∀ id ∈ heap.allocated, id ∈ heap'.allocated) : heap'.WellFormed := by
  have hup := shadowIncludingParent_congr hparent hhost
  constructor
  · rw [hparent, hchildren]
    exact wf.childLinks
  · rw [hchildren]
    exact wf.childrenNodup
  · rw [hhost, hroot]
    exact wf.hostLinks
  · rw [hhost, hparent]
    exact wf.rootParent
  · rw [hup]
    exact wf.acyclic
  · rw [hup]
    exact fun node next hnext => hallocated node (wf.allocated node next hnext)

theorem of_shape (wf : heap.WellFormed) (h : heap'.shape = heap.shape) : heap'.WellFormed := by
  refine wf.of_links (parent_of_shape h) (children_of_shape h) (shadowHost_of_shape (congrArg Shape.data h))
    (shadowRoot_of_shape (congrArg Shape.data h)) fun id hid => ?_
  have hallocated : heap'.allocated = heap.allocated := congrArg Shape.allocated h
  rwa [hallocated]

/-- Children that lose their parent have no host either. -/
theorem shadowIncludingParent_cut (wf : heap.WellFormed) {nodes : List NodeId}
    (hnodes : ∀ node ∈ nodes, node ∈ heap.children parent) (h : heap'.shape = heap.shape.cut parent nodes) :
    heap'.shadowIncludingParent = Walk.cut nodes heap.shadowIncludingParent := by
  have hparent : heap'.parent = Walk.cut nodes heap.parent := congrArg Shape.parent h
  have hhost := shadowHost_of_shape (data_of_cut h)
  funext id
  rw [shadowIncludingParent, hparent, hhost, Walk.cut, Walk.cut]
  by_cases hmem : id ∈ nodes
  · have hlink := (wf.childLinks parent id).mp (hnodes id hmem)
    simp [hmem, wf.shadowHost_of_parent hlink]
  · simp [hmem, shadowIncludingParent]

theorem cut (wf : heap.WellFormed) {nodes : List NodeId} (hnodes : ∀ node ∈ nodes, node ∈ heap.children parent)
    (h : heap'.shape = heap.shape.cut parent nodes) : heap'.WellFormed := by
  have hparent : heap'.parent = Walk.cut nodes heap.parent := congrArg Shape.parent h
  have hchildren := children_of_cut h
  have hhost := shadowHost_of_shape (data_of_cut h)
  have hroot := shadowRoot_of_shape (data_of_cut h)
  have hup := wf.shadowIncludingParent_cut hnodes h
  have hallocated : heap'.allocated = heap.allocated := congrArg Shape.allocated h
  constructor
  · intro other child
    rw [hparent, hchildren, Walk.cut]
    by_cases hmem : child ∈ nodes
    · have hlink := (wf.childLinks parent child).mp (hnodes child hmem)
      by_cases hother : other = parent
      · simp [hother, hmem]
      · have hnot : child ∉ heap.children other := by
          rw [wf.childLinks, hlink]
          exact fun hsame => hother (Option.some.inj hsame).symm
        simp [Function.update_of_ne hother, hmem, hnot]
    · rw [if_neg hmem, ← wf.childLinks]
      by_cases hother : other = parent
      · simp [hother, hmem]
      · rw [Function.update_of_ne hother]
  · intro other
    rw [hchildren]
    by_cases hother : other = parent
    · rw [hother, Function.update_self]
      exact (wf.childrenNodup parent).filter _
    · rw [Function.update_of_ne hother]
      exact wf.childrenNodup other
  · rw [hhost, hroot]
    exact wf.hostLinks
  · intro root host hlink
    rw [hhost] at hlink
    rw [hparent, Walk.cut, wf.rootParent root host hlink, ite_self]
  · rw [hup]
    exact wf.acyclic.cut nodes
  · intro node next hnext
    rw [hup] at hnext
    rw [hallocated]
    exact wf.allocated node next (Walk.next_of_cut hnext).2

theorem link (wf : heap.WellFormed) {children : List NodeId} (hnone : heap.shadowIncludingParent child = none)
    (hallocated : child ∈ heap.allocated) (hback : ¬Walk.Reaches heap.shadowIncludingParent parent child)
    (hperm : children.Perm (child :: heap.children parent)) (h : heap'.shape = heap.shape.link parent child children) :
    heap'.WellFormed := by
  have hparent : heap'.parent = Function.update heap.parent child (some parent) := congrArg Shape.parent h
  have hchildren := children_of_link h
  have hhost := shadowHost_of_shape (data_of_link h)
  have hroot := shadowRoot_of_shape (data_of_link h)
  have hup := shadowIncludingParent_link h
  have hkept : heap'.allocated = heap.allocated := congrArg Shape.allocated h
  have hsplit : heap.parent child = none ∧ heap.shadowHost child = none := by
    simpa [shadowIncludingParent, Option.or_eq_none_iff] using hnone
  have hfree (other : NodeId) : child ∉ heap.children other := by
    rw [wf.childLinks, hsplit.1]
    exact Option.some_ne_none other ∘ Eq.symm
  constructor
  · intro other node
    rw [hparent, hchildren]
    by_cases hnode : node = child
    · by_cases hother : other = parent
      · simp [hnode, hother, hperm.mem_iff]
      · rw [hnode, Function.update_of_ne hother, Function.update_self]
        simp [hfree other, Ne.symm hother]
    · rw [Function.update_of_ne hnode, ← wf.childLinks]
      by_cases hother : other = parent
      · simp [hother, hperm.mem_iff, hnode]
      · rw [Function.update_of_ne hother]
  · intro other
    rw [hchildren]
    by_cases hother : other = parent
    · rw [hother, Function.update_self, hperm.nodup_iff, List.nodup_cons]
      exact ⟨hfree parent, wf.childrenNodup parent⟩
    · rw [Function.update_of_ne hother]
      exact wf.childrenNodup other
  · rw [hhost, hroot]
    exact wf.hostLinks
  · intro root host hlink
    rw [hhost] at hlink
    have hne : root ≠ child := by
      rintro rfl
      rw [hsplit.2] at hlink
      cases hlink
    rw [hparent, Function.update_of_ne hne, wf.rootParent root host hlink]
  · rw [hup]
    exact wf.acyclic.link hback
  · intro node next hnext
    rw [hup] at hnext
    rw [hkept]
    rcases Walk.next_of_update hnext with hold | ⟨rfl, -⟩
    · exact wf.allocated node next hold
    · exact hallocated

end WellFormed

end Heap

end BetterWebBrowser.Dom
