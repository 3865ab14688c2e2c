import BetterWebBrowser.Dom.TreeLinks

/-!
# Sound trees

A DOM is sound if it is well formed, what was not created yet is in no tree, and only nodes that may have
children or a parent have some. Whatever a mutation does to the links keeps this.
-/

namespace BetterWebBrowser.Dom

open Framework

/-- Nodes that may have any children. -/
def NodeData.isContainer : NodeData → Bool
  | .document => true
  | .shadowRoot _ => true
  | .element _ => true
  | _ => false

/-- Nodes that may have a parent. -/
def NodeData.isInsertable : NodeData → Bool
  | .document => false
  | .shadowRoot _ => false
  | _ => true

def NodeData.isDoctype : NodeData → Bool
  | .doctype .. => true
  | _ => false

def NodeData.isText : NodeData → Bool
  | .text _ => true
  | _ => false

/-- What a node may have as a child. Setting the contents of a doctype gives it a text. -/
def NodeData.holds (parent child : NodeData) : Bool :=
  child.isInsertable && (parent.isContainer || parent.isDoctype && child.isText)

theorem NodeData.insertable_of_holds {parent child : NodeData} (h : parent.holds child = true) :
    child.isInsertable = true := by
  rw [holds, Bool.and_eq_true] at h
  exact h.1

structure NodeData.SameKind (data data' : NodeData) : Prop where
  container : data'.isContainer = data.isContainer
  insertable : data'.isInsertable = data.isInsertable
  doctype : data'.isDoctype = data.isDoctype
  text : data'.isText = data.isText

/-- Nodes that are no part of a link between a host and its shadow root. -/
def NodeData.isPlain : NodeData → Bool
  | .shadowRoot _ => false
  | .element found => found.shadowRoot.isNone
  | _ => true

theorem NodeData.holds_of_sameKind {parent parent' child child' : NodeData} (hparent : parent.SameKind parent')
    (hchild : child.SameKind child') : parent'.holds child' = parent.holds child := by
  rw [holds, holds, hparent.container, hparent.doctype, hchild.insertable, hchild.text]

structure Heap.Sound (heap : Heap) : Prop extends heap.WellFormed where
  rootLinks : ∀ root host, heap.shadowHost root = some host → heap.shadowRoot host = some root
  fresh : ∀ id, id ∉ heap.allocated → heap.children id = [] ∧ heap.data id = .document
  serials : ∀ id ∈ heap.allocated, id.serial < heap.shape.nextLocal id.document
  kinds : ∀ child parent, heap.parent child = some parent → (heap.data parent).holds (heap.data child) = true

namespace Heap

variable {heap heap' : Heap} {node parent child host root : NodeId}

theorem element_of_data {element : ElementData} (h : heap.data node = .element element) :
    heap.element node = some element := by
  rw [Heap.element, h]

theorem data_of_element {element : ElementData} (h : heap.element node = some element) :
    heap.data node = .element element := by
  rw [Heap.element] at h
  split at h
  next found hdata => rw [hdata, Option.some.inj h]
  next => cases h

theorem shadowHost_eq_some : heap.shadowHost root = some host ↔
    ∃ shadow, heap.data root = .shadowRoot shadow ∧ shadow.host = host := by
  rw [shadowHost]
  cases heap.data root <;> simp

theorem shadowRoot_eq_some : heap.shadowRoot host = some root ↔
    ∃ element, heap.data host = .element element ∧ element.shadowRoot = some root := by
  rw [shadowRoot, Heap.element]
  cases heap.data host <;> simp

namespace Sound

theorem parent_of_mem (sound : heap.Sound) (h : child ∈ heap.children parent) : heap.parent child = some parent :=
  (sound.childLinks parent child).mp h

theorem mem_children (sound : heap.Sound) (h : heap.parent child = some parent) : child ∈ heap.children parent :=
  (sound.childLinks parent child).mpr h

theorem allocated_of_element (sound : heap.Sound) (h : (heap.element node).isSome = true) : node ∈ heap.allocated := by
  by_contra hnot
  rw [Heap.element, (sound.fresh node hnot).2] at h
  cases h

/-- Nothing leads to a node that was not created yet. -/
theorem not_next (sound : heap.Sound) (hfresh : node ∉ heap.allocated) (id : NodeId) :
    heap.shadowIncludingParent id ≠ some node := by
  intro hnext
  obtain ⟨hchildren, hdata⟩ := sound.fresh node hfresh
  rcases Option.or_eq_some_iff.mp hnext with hparent | ⟨-, hhost⟩
  · have hmem := sound.mem_children hparent
    rw [hchildren] at hmem
    cases hmem
  · obtain ⟨element, helement, -⟩ := shadowRoot_eq_some.mp (sound.rootLinks id node hhost)
    rw [hdata] at helement
    cases helement

/-- It leads nowhere either. -/
theorem next_none (sound : heap.Sound) (hfresh : node ∉ heap.allocated) : heap.shadowIncludingParent node = none := by
  by_contra hnext
  obtain ⟨next, hnext⟩ := Option.ne_none_iff_exists'.mp hnext
  exact hfresh (sound.allocated node next hnext)

theorem not_reaches (sound : heap.Sound) (hfresh : node ∉ heap.allocated) {id : NodeId} (hne : id ≠ node) :
    ¬Walk.Reaches heap.shadowIncludingParent id node := by
  intro hreach
  rcases Relation.ReflTransGen.cases_tail hreach with rfl | ⟨last, -, hlast⟩
  · exact hne rfl
  · exact sound.not_next hfresh last hlast

theorem of_shape (sound : heap.Sound) (h : heap'.shape = heap.shape) : heap'.Sound where
  toWellFormed := sound.toWellFormed.of_shape h
  rootLinks := by
    rw [shadowHost_of_shape (congrArg Shape.data h), shadowRoot_of_shape (congrArg Shape.data h)]
    exact sound.rootLinks
  fresh := by
    have hallocated : heap'.allocated = heap.allocated := congrArg Shape.allocated h
    have hdata : heap'.data = heap.data := congrArg Shape.data h
    rw [hallocated, children_of_shape h, hdata]
    exact sound.fresh
  serials := by
    have hallocated : heap'.allocated = heap.allocated := congrArg Shape.allocated h
    rw [hallocated, h]
    exact sound.serials
  kinds := by
    have hdata : heap'.data = heap.data := congrArg Shape.data h
    rw [parent_of_shape h, hdata]
    exact sound.kinds

theorem cut (sound : heap.Sound) {nodes : List NodeId} (hnodes : ∀ node ∈ nodes, node ∈ heap.children parent)
    (h : heap'.shape = heap.shape.cut parent nodes) : heap'.Sound := by
  have hparent : heap'.parent = Walk.cut nodes heap.parent := congrArg Shape.parent h
  have hchildren := children_of_cut h
  have hdata : heap'.data = heap.data := data_of_cut h
  have hallocated : heap'.allocated = heap.allocated := congrArg Shape.allocated h
  refine ⟨sound.toWellFormed.cut hnodes h, ?_, ?_, ?_, ?_⟩
  · rw [shadowHost_of_shape (data_of_cut h), shadowRoot_of_shape (data_of_cut h)]
    exact sound.rootLinks
  · intro id hid
    rw [hallocated] at hid
    rw [hchildren, hdata]
    by_cases hsame : id = parent
    · subst hsame
      simp [(sound.fresh id hid)]
    · simp [Function.update_of_ne hsame, sound.fresh id hid]
  · rw [hallocated, h]
    exact sound.serials
  · intro child other hlink
    rw [hparent] at hlink
    rw [hdata]
    exact sound.kinds child other (Walk.next_of_cut hlink).2

/-- A child gets a parent that it does not include. -/
theorem link (sound : heap.Sound) {children : List NodeId} (hnone : heap.shadowIncludingParent child = none)
    (hback : ¬Walk.Reaches heap.shadowIncludingParent parent child) (hallocated : child ∈ heap.allocated)
    (hparentAllocated : parent ∈ heap.allocated) (hkinds : (heap.data parent).holds (heap.data child) = true)
    (hperm : children.Perm (child :: heap.children parent))
    (h : heap'.shape = heap.shape.link parent child children) : heap'.Sound := by
  have hparent : heap'.parent = Function.update heap.parent child (some parent) := congrArg Shape.parent h
  have hchildren := children_of_link h
  have hdata : heap'.data = heap.data := data_of_link h
  have hkept : heap'.allocated = heap.allocated := congrArg Shape.allocated h
  refine ⟨sound.toWellFormed.link hnone hallocated hback hperm h, ?_, ?_, ?_, ?_⟩
  · rw [shadowHost_of_shape (data_of_link h), shadowRoot_of_shape (data_of_link h)]
    exact sound.rootLinks
  · intro id hid
    rw [hkept] at hid
    have hne : id ≠ parent := fun hsame => hid (hsame ▸ hparentAllocated)
    rw [hchildren, hdata, Function.update_of_ne hne]
    exact sound.fresh id hid
  · rw [hkept, h]
    exact sound.serials
  · intro node other hlink
    rw [hparent] at hlink
    rw [hdata]
    rcases Walk.next_of_update hlink with hold | ⟨rfl, rfl⟩
    · exact sound.kinds node other hold
    · exact hkinds

/-! ## New nodes -/

/-- What the allocator gives out next was not created yet. -/
theorem not_allocated (sound : heap.Sound) (document : Nat) :
    (⟨document, (heap.identity document).nextLocal⟩ : NodeId) ∉ heap.allocated := by
  intro hmem
  exact absurd (sound.serials _ hmem) (lt_irrefl _)

/-- No link is between nodes that were not created yet. -/
theorem ne_of_parent (sound : heap.Sound) (hfresh : node ∉ heap.allocated) (h : heap.parent child = some parent) :
    child ≠ node ∧ parent ≠ node := by
  have hup := shadowIncludingParent_of_parent h
  constructor
  · rintro rfl
    rw [sound.next_none hfresh] at hup
    cases hup
  · rintro rfl
    exact sound.not_next hfresh child hup

/-- One more node was created; the others are where they were. -/
structure Grown (heap heap' : Heap) (id : NodeId) : Prop where
  fresh : id ∉ heap.allocated
  serial : id.serial = heap.shape.nextLocal id.document
  parent : heap'.parent = heap.parent
  children : heap'.children = heap.children
  allocated : heap'.allocated = id :: heap.allocated
  nextLocal : heap'.shape.nextLocal = Function.update heap.shape.nextLocal id.document (id.serial + 1)

theorem Grown.serials (grown : Grown heap heap' node) (sound : heap.Sound) :
    ∀ id ∈ heap'.allocated, id.serial < heap'.shape.nextLocal id.document := by
  intro id hid
  rw [grown.allocated, List.mem_cons] at hid
  rw [grown.nextLocal, Function.update_apply]
  rcases hid with rfl | hold
  · simp
  · have hbefore := sound.serials id hold
    split
    next hsame =>
      rw [grown.serial, ← hsame]
      exact hbefore.trans (Nat.lt_succ_self _)
    next => exact hbefore

theorem hosts_of_create (sound : heap.Sound) (grown : Grown heap heap' node) {data : NodeData}
    (hplain : data.isPlain = true) (hdata : heap'.data = Function.update heap.data node data) :
    heap'.shadowHost = heap.shadowHost := by
  funext id
  rw [shadowHost, shadowHost, hdata]
  by_cases hsame : id = node
  · rw [hsame, Function.update_self, (sound.fresh node grown.fresh).2]
    cases data <;> simp [NodeData.isPlain] at hplain ⊢
  · rw [Function.update_of_ne hsame]

/-- A node that is no part of a shadow link is created. -/
theorem create (sound : heap.Sound) (grown : Grown heap heap' node) {data : NodeData} (hplain : data.isPlain = true)
    (hdata : heap'.data = Function.update heap.data node data) : heap'.Sound := by
  obtain ⟨hnochildren, holdData⟩ := sound.fresh node grown.fresh
  have hhost := sound.hosts_of_create grown hplain hdata
  have hroot : heap'.shadowRoot = heap.shadowRoot := by
    funext id
    rw [shadowRoot, shadowRoot, Heap.element, Heap.element, hdata]
    by_cases hsame : id = node
    · rw [hsame, Function.update_self, holdData]
      cases data <;> simp [NodeData.isPlain] at hplain ⊢
      exact hplain
    · rw [Function.update_of_ne hsame]
  have hkept (id : NodeId) (hid : id ∈ heap.allocated) : id ∈ heap'.allocated := by
    rw [grown.allocated]
    exact List.mem_cons_of_mem _ hid
  refine ⟨sound.toWellFormed.of_links grown.parent grown.children hhost hroot hkept, ?_, ?_, grown.serials sound, ?_⟩
  · rw [hhost, hroot]
    exact sound.rootLinks
  · intro id hid
    rw [grown.allocated, List.mem_cons, not_or] at hid
    rw [grown.children, hdata, Function.update_of_ne hid.1]
    exact sound.fresh id hid.2
  · intro child parent hlink
    rw [grown.parent] at hlink
    obtain ⟨hchild, hparent⟩ := sound.ne_of_parent grown.fresh hlink
    rw [hdata, Function.update_of_ne hchild, Function.update_of_ne hparent]
    exact sound.kinds child parent hlink

/-- What is written where an element without a shadow root gets a new one. -/
structure Hosted (heap heap' : Heap) (host root : NodeId) : Prop extends Grown heap heap' root where
  element : ∃ element shadow, heap.data host = .element element ∧ element.shadowRoot = none ∧ shadow.host = host ∧
    heap'.data = Function.update (Function.update heap.data root (.shadowRoot shadow)) host
      (.element { element with shadowRoot := some root })

theorem hosts_of_attach (sound : heap.Sound) (hosted : Hosted heap heap' host root) :
    heap'.shadowHost = Function.update heap.shadowHost root (some host) := by
  obtain ⟨element, shadow, helement, -, hhost, hdata⟩ := hosted.element
  have hallocated := sound.allocated_of_element (by rw [element_of_data helement, Option.isSome_some])
  have hne : root ≠ host := fun hsame => hosted.fresh (hsame ▸ hallocated)
  funext id
  rw [shadowHost, hdata]
  by_cases hroot : id = root
  · rw [hroot, Function.update_of_ne hne, Function.update_self, Function.update_self]
    exact congrArg some hhost
  · rw [Function.update_of_ne hroot, shadowHost]
    by_cases hsame : id = host
    · rw [hsame, Function.update_self, helement]
    · rw [Function.update_of_ne hsame, Function.update_of_ne hroot]

theorem up_of_attach (sound : heap.Sound) (hosted : Hosted heap heap' host root) :
    heap'.shadowIncludingParent = Function.update heap.shadowIncludingParent root (some host) := by
  funext id
  rw [shadowIncludingParent, hosted.parent, sound.hosts_of_attach hosted]
  by_cases hroot : id = root
  · rw [hroot, Function.update_self, Function.update_self,
      (Option.or_eq_none_iff.mp (sound.next_none hosted.fresh)).1]
    rfl
  · rw [Function.update_of_ne hroot, Function.update_of_ne hroot]
    rfl

theorem attach (sound : heap.Sound) (hosted : Hosted heap heap' host root) : heap'.Sound := by
  have grown := hosted.toGrown
  have hhosts := sound.hosts_of_attach hosted
  have hup := sound.up_of_attach hosted
  obtain ⟨element, shadow, helement, hnone, hhost, hdata⟩ := hosted.element
  obtain ⟨hnochildren, holdData⟩ := sound.fresh root grown.fresh
  have hallocated : host ∈ heap.allocated :=
    sound.allocated_of_element (by rw [element_of_data helement, Option.isSome_some])
  have hne : root ≠ host := fun hsame => grown.fresh (hsame ▸ hallocated)
  have hdataRoot : heap'.data root = .shadowRoot shadow := by
    rw [hdata, Function.update_of_ne hne, Function.update_self]
  have hdataHost : heap'.data host = .element { element with shadowRoot := some root } := by
    rw [hdata, Function.update_self]
  have hdataElse (id : NodeId) (hroot : id ≠ root) (hhost : id ≠ host) : heap'.data id = heap.data id := by
    rw [hdata, Function.update_of_ne hhost, Function.update_of_ne hroot]
  have hroots : heap'.shadowRoot = Function.update heap.shadowRoot host (some root) := by
    funext id
    by_cases hsame : id = host
    · rw [hsame, Function.update_self, shadowRoot, element_of_data hdataHost]
      rfl
    · rw [Function.update_of_ne hsame, shadowRoot, shadowRoot, Heap.element, Heap.element]
      by_cases hroot : id = root
      · rw [hroot, hdataRoot, holdData]
      · rw [hdataElse id hroot hsame]
  have holdRoot : heap.shadowRoot root = none := by
    rw [shadowRoot, Heap.element, holdData]
    rfl
  have holdHost : heap.shadowHost root = none := by
    rw [shadowHost, holdData]
  refine { childLinks := ?_, childrenNodup := ?_, hostLinks := ?_, rootParent := ?_, acyclic := ?_, allocated := ?_,
           rootLinks := ?_, fresh := ?_, serials := grown.serials sound, kinds := ?_ }
  · rw [grown.parent, grown.children]
    exact sound.childLinks
  · rw [grown.children]
    exact sound.childrenNodup
  · intro other found hlink
    rw [hroots, Function.update_apply] at hlink
    rw [hhosts, Function.update_apply]
    split at hlink
    next hsame => rw [if_pos (Option.some.inj hlink).symm, hsame]
    next =>
      have hold := sound.hostLinks other found hlink
      rw [if_neg fun hsame => by rw [hsame, holdHost] at hold; cases hold]
      exact hold
  · intro found other hlink
    rw [hhosts, Function.update_apply] at hlink
    rw [grown.parent]
    split at hlink
    next hsame =>
      rw [hsame]
      exact (Option.or_eq_none_iff.mp (sound.next_none grown.fresh)).1
    next => exact sound.rootParent found other hlink
  · rw [hup]
    exact sound.acyclic.link (sound.not_reaches grown.fresh hne.symm)
  · intro id next hnext
    rw [hup] at hnext
    rw [grown.allocated, List.mem_cons]
    rcases Walk.next_of_update hnext with hold | ⟨rfl, -⟩
    · exact .inr (sound.allocated id next hold)
    · exact .inl rfl
  · intro found other hlink
    rw [hhosts, Function.update_apply] at hlink
    rw [hroots, Function.update_apply]
    split at hlink
    next hsame => rw [if_pos (Option.some.inj hlink).symm, hsame]
    next =>
      have hold := sound.rootLinks found other hlink
      have hother : other ≠ host := by
        rintro rfl
        rw [shadowRoot, element_of_data helement, Option.bind_some, hnone] at hold
        cases hold
      rw [if_neg hother]
      exact hold
  · intro id hid
    rw [grown.allocated, List.mem_cons, not_or] at hid
    have hother : id ≠ host := fun hsame => hid.2 (hsame ▸ hallocated)
    rw [grown.children, hdataElse id hid.1 hother]
    exact sound.fresh id hid.2
  · intro child parent hlink
    rw [grown.parent] at hlink
    obtain ⟨hchild, hparent⟩ := sound.ne_of_parent grown.fresh hlink
    have hkind (id : NodeId) (hid : id ≠ root) : (heap.data id).SameKind (heap'.data id) := by
      by_cases hsame : id = host
      · rw [hsame, hdataHost, helement]
        exact ⟨rfl, rfl, rfl, rfl⟩
      · rw [hdataElse id hid hsame]
        exact ⟨rfl, rfl, rfl, rfl⟩
    rw [NodeData.holds_of_sameKind (hkind parent hparent) (hkind child hchild)]
    exact sound.kinds child parent hlink

/-- Other contents of a node that is the same kind of node, with the same shadow links. -/
theorem rewrite (sound : heap.Sound) {data : NodeData} (hallocated : node ∈ heap.allocated)
    (h : heap'.shape = { heap.shape with data := Function.update heap.shape.data node data })
    (hhost : heap'.shadowHost node = heap.shadowHost node) (hroot : heap'.shadowRoot node = heap.shadowRoot node)
    (hkind : (heap.data node).SameKind data) : heap'.Sound := by
  have hparent : heap'.parent = heap.parent := congrArg Shape.parent h
  have hchildren : heap'.children = heap.children := congrArg Shape.children h
  have hdata : heap'.data = Function.update heap.data node data := congrArg Shape.data h
  have hkept : heap'.allocated = heap.allocated := congrArg Shape.allocated h
  have hhosts : heap'.shadowHost = heap.shadowHost := by
    funext id
    by_cases hsame : id = node
    · rw [hsame, hhost]
    · rw [shadowHost, shadowHost, hdata, Function.update_of_ne hsame]
  have hroots : heap'.shadowRoot = heap.shadowRoot := by
    funext id
    by_cases hsame : id = node
    · rw [hsame, hroot]
    · rw [shadowRoot, shadowRoot, Heap.element, Heap.element, hdata, Function.update_of_ne hsame]
  have hmem (id : NodeId) (hid : id ∈ heap.allocated) : id ∈ heap'.allocated := by
    rwa [hkept]
  refine ⟨sound.toWellFormed.of_links hparent hchildren hhosts hroots hmem, ?_, ?_, ?_, ?_⟩
  · rw [hhosts, hroots]
    exact sound.rootLinks
  · intro id hid
    rw [hkept] at hid
    have hne : id ≠ node := fun hsame => hid (hsame ▸ hallocated)
    rw [hchildren, hdata, Function.update_of_ne hne]
    exact sound.fresh id hid
  · rw [hkept, h]
    exact sound.serials
  · intro child parent hlink
    rw [hparent] at hlink
    have hkinds (id : NodeId) : (heap.data id).SameKind (heap'.data id) := by
      rw [hdata, Function.update_apply]
      split
      next hsame => exact hsame ▸ hkind
      next => exact ⟨rfl, rfl, rfl, rfl⟩
    rw [NodeData.holds_of_sameKind (hkinds parent) (hkinds child)]
    exact sound.kinds child parent hlink

end Sound

end Heap

end BetterWebBrowser.Dom
