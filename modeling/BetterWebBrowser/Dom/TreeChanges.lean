import BetterWebBrowser.Dom.FocusFlags

/-!
# Tree changes

Nodes leave their parent, a node gets a parent, nodes are created: what a mutation does to the links and to
the focus flags at once. Each of these changes keeps the trees sound and the flags right.
-/

namespace BetterWebBrowser.Dom

open Framework

namespace Page

variable {page page' : Page} {node parent child host root target : NodeId}

/-! ## Children that leave -/

structure Detached (nodes : List NodeId) (parent : NodeId) (page page' : Page) : Prop where
  mem : ∀ node ∈ nodes, node ∈ page.children parent
  shape : page'.shape = page.shape.cut parent nodes
  focused : page'.focused = page.focused
  focusedNode : page'.focusedNode = page.focusedNode
  within : ∀ id, page'.focusWithin id = true ↔ page.focusWithin id = true ∧
    ¬((∃ node ∈ nodes, page.hasFocusWithin node = true) ∧
      Walk.Reaches page.shadowIncludingParent parent id ∧ (page.element id).isSome = true)

namespace Detached

variable {nodes : List NodeId}

theorem sound (h : Detached nodes parent page page') (sound : page.Sound) : page'.Sound := sound.cut h.mem h.shape

theorem up (h : Detached nodes parent page page') (sound : page.Sound) :
    page'.shadowIncludingParent = Walk.cut nodes page.shadowIncludingParent :=
  sound.shadowIncludingParent_cut h.mem h.shape

theorem element (h : Detached nodes parent page page') : page'.element = page.element :=
  Heap.element_of_shape (Heap.data_of_cut h.shape)

/-- What leaves has left the ancestors of its parent. -/
theorem reaches (h : Detached nodes parent page page') (sound : page.Sound) {id focused : NodeId} :
    Walk.Reaches page'.shadowIncludingParent focused id ↔ Walk.Reaches page.shadowIncludingParent focused id ∧
      ¬((∃ node ∈ nodes, Walk.Reaches page.shadowIncludingParent focused node) ∧
        Walk.Reaches page.shadowIncludingParent parent id) := by
  have hlink (node : NodeId) (hnode : node ∈ nodes) : page.shadowIncludingParent node = some parent :=
    Heap.shadowIncludingParent_of_parent (sound.parent_of_mem (h.mem node hnode))
  rw [h.up sound, Walk.reaches_cut sound.acyclic]
  refine and_congr_right fun _ => ?_
  constructor
  · rintro hbefore ⟨⟨node, hnode, hto⟩, hup⟩
    exact hbefore node hnode hto ((Walk.transGen_iff (hlink node hnode)).mpr hup)
  · intro hnot node hnode hto hpath
    exact hnot ⟨⟨node, hnode, hto⟩, (Walk.transGen_iff (hlink node hnode)).mp hpath⟩

theorem focus (h : Detached nodes parent page page') (sound : page.Sound) (focus : page.Focus) : page'.Focus where
  target := by
    rw [h.focused, h.focusedNode]
    exact focus.target
  isElement := by
    rw [h.focusedNode, h.element]
    exact focus.isElement
  within := by
    intro id helement
    rw [h.element] at helement
    rw [h.within, focus.within id helement, h.focusedNode]
    -- a child that holds the focus is an element, and its flag says so
    have hflag (focused : NodeId) (hfocused : page.focusedNode = some focused) :
        (∃ node ∈ nodes, page.hasFocusWithin node = true) ↔
          ∃ node ∈ nodes, Walk.Reaches page.shadowIncludingParent focused node := by
      constructor
      · rintro ⟨node, hnode, hflag⟩
        obtain ⟨-, other, hother, hreach⟩ := focus.hasFocusWithin.mp hflag
        rw [hfocused] at hother
        exact ⟨node, hnode, Option.some.inj hother ▸ hreach⟩
      · rintro ⟨node, hnode, hreach⟩
        have hparent := sound.parent_of_mem (h.mem node hnode)
        have hinsertable := NodeData.insertable_of_holds (sound.kinds node parent hparent)
        exact ⟨node, hnode, focus.hasFocusWithin.mpr
          ⟨focus.element_of_reaches sound hfocused hreach hinsertable, focused, hfocused, hreach⟩⟩
    constructor
    · rintro ⟨⟨focused, hfocused, hreach⟩, hnot⟩
      refine ⟨focused, hfocused, (h.reaches sound).mpr ⟨hreach, fun hboth => hnot ?_⟩⟩
      exact ⟨(hflag focused hfocused).mpr hboth.1, hboth.2, helement⟩
    · rintro ⟨focused, hfocused, hreach⟩
      obtain ⟨hold, hnot⟩ := (h.reaches sound).mp hreach
      refine ⟨⟨focused, hfocused, hold⟩, fun hboth => hnot ?_⟩
      exact ⟨(hflag focused hfocused).mp hboth.1, hboth.2.1⟩

end Detached

/-! ## A child that comes -/

structure Attached (children : List NodeId) (parent child : NodeId) (page page' : Page) : Prop where
  shape : page'.shape = page.shape.link parent child children
  focused : page'.focused = page.focused
  focusedNode : page'.focusedNode = page.focusedNode
  within : ∀ id, page'.focusWithin id = true ↔ page.focusWithin id = true ∨
    page.hasFocusWithin child = true ∧ Walk.Reaches page.shadowIncludingParent parent id ∧
      (page.element id).isSome = true

/-- A node that can become a child of a parent: it is in no tree, and does not include the parent. -/
structure Attachable (page : Page) (parent child : NodeId) : Prop where
  none : page.shadowIncludingParent child = none
  back : ¬Walk.Reaches page.shadowIncludingParent parent child
  childAllocated : child ∈ page.allocated
  parentAllocated : parent ∈ page.allocated
  kinds : (page.data parent).holds (page.data child) = true

namespace Attached

variable {children : List NodeId}

theorem sound (h : Attached children parent child page page') (sound : page.Sound)
    (attachable : page.Attachable parent child) (hperm : children.Perm (child :: page.children parent)) :
    page'.Sound :=
  sound.link attachable.none attachable.back attachable.childAllocated attachable.parentAllocated attachable.kinds
    hperm h.shape

theorem up (h : Attached children parent child page page') :
    page'.shadowIncludingParent = Function.update page.shadowIncludingParent child (some parent) :=
  Heap.shadowIncludingParent_link h.shape

theorem element (h : Attached children parent child page page') : page'.element = page.element :=
  Heap.element_of_shape (Heap.data_of_link h.shape)

theorem focus (h : Attached children parent child page page') (sound : page.Sound) (focus : page.Focus)
    (attachable : page.Attachable parent child) : page'.Focus where
  target := by
    rw [h.focused, h.focusedNode]
    exact focus.target
  isElement := by
    rw [h.focusedNode, h.element]
    exact focus.isElement
  within := by
    intro id helement
    rw [h.element] at helement
    rw [h.within, focus.within id helement, h.focusedNode, h.up]
    have hreaches (focused : NodeId) := Walk.reaches_update (a := focused) (b := id) attachable.none attachable.back
    constructor
    · rintro (⟨focused, hfocused, hreach⟩ | ⟨hflag, hup, -⟩)
      · exact ⟨focused, hfocused, (hreaches focused).mpr (.inl hreach)⟩
      · obtain ⟨-, focused, hfocused, hto⟩ := focus.hasFocusWithin.mp hflag
        exact ⟨focused, hfocused, (hreaches focused).mpr (.inr ⟨hto, hup⟩)⟩
    · rintro ⟨focused, hfocused, hreach⟩
      rcases (hreaches focused).mp hreach with hold | ⟨hto, hup⟩
      · exact .inl ⟨focused, hfocused, hold⟩
      · have hchild := focus.element_of_reaches sound hfocused hto (NodeData.insertable_of_holds attachable.kinds)
        exact .inr ⟨focus.hasFocusWithin.mpr ⟨hchild, focused, hfocused, hto⟩, hup, helement⟩

end Attached

/-! ## What the operations do -/

theorem parentAndIndex_of_none (h : page.parent target = none) : page.parentAndIndex target = none := by
  rw [Heap.parentAndIndex, h]
  rfl

theorem parentAndIndex_of_parent (sound : page.Sound) (h : page.parent target = some parent) :
    page.parentAndIndex target = some (parent, (page.children parent).idxOf target) := by
  have hfound : (page.children parent).findIdx? (fun child => child == target) =
      some ((page.children parent).findIdx fun child => child == target) :=
    List.findIdx?_eq_some_of_exists ⟨target, sound.mem_children h, by simp⟩
  rw [Heap.parentAndIndex, h, Option.bind_eq_bind, Option.bind_some, hfound]
  rfl

theorem removeFromParent_of_none (h : page.parent target = none) : page.removeFromParent target = page := by
  rw [removeFromParent, parentAndIndex_of_none h]

/-- Without a child at its index, a list of different nodes is without the child. -/
theorem eraseIdx_idxOf_eq_filter {nodes : List NodeId} (hnodup : nodes.Nodup) (node : NodeId) :
    nodes.eraseIdx (nodes.idxOf node) = nodes.filter fun other => other ∉ [node] := by
  rw [List.eraseIdx_idxOf_eq_erase, hnodup.erase_eq_filter]
  refine List.filter_congr fun other _ => ?_
  by_cases hsame : other = node <;> simp [hsame]

theorem detached_removeFromParent (sound : page.Sound) (h : page.parent target = some parent) :
    Detached [target] parent page (page.removeFromParent target) := by
  have hpath := flagged_path sound false parent
  rw [removeFromParent, parentAndIndex_of_parent sound h]
  -- the flags of the ancestors are cleared first, and no link changes with it
  have hcleared : ∀ cleared : Page, SameTree page cleared →
      (∀ id, cleared.focusWithin id = true ↔ page.focusWithin id = true ∧ ¬(page.hasFocusWithin target = true ∧
        Walk.Reaches page.shadowIncludingParent parent id ∧ (page.element id).isSome = true)) →
      Detached [target] parent page (cleared.onHeap fun heap =>
        ((heap.setChildren parent ((heap.children parent).eraseIdx ((page.children parent).idxOf target))).setParent
          target none).markChildrenMutated parent) := by
    intro cleared hsame hwithin
    have hchildren : cleared.children = page.children := Heap.children_of_shape hsame.shape
    refine ⟨?_, ?_, hsame.focused, hsame.focusedNode, ?_⟩
    · simpa using sound.mem_children h
    · simp only [onHeap, Heap.shape_markChildrenMutated, Heap.shape_setParent, Heap.shape_setChildren, hsame.shape,
        hchildren, eraseIdx_idxOf_eq_filter (sound.childrenNodup parent)]
      rw [Shape.cut, Walk.cut_singleton]
      rfl
    · intro id
      rw [onHeap, hwithin]
      simp
  by_cases hfocus : page.hasFocusWithin target = true
  · simp only [hfocus, if_true]
    refine hcleared _ hpath.toSameTree fun id => ?_
    rw [hpath.within id]
    simp [hfocus]
  · simp only [hfocus]
    exact hcleared page (.refl page) fun id => by simp [hfocus]

theorem shape_foldl_setParent (heap : Heap) (nodes : List NodeId) :
    (nodes.foldl (fun heap child => heap.setParent child none) heap).shape =
      { heap.shape with parent := Walk.cut nodes heap.shape.parent } := by
  induction nodes generalizing heap with
  | nil =>
    rw [List.foldl_nil, Walk.cut_nil]
  | cons node nodes ih =>
    rw [List.foldl_cons, ih, Heap.shape_setParent, Walk.cut_cons]

theorem detached_clearChildren (sound : page.Sound) (node : NodeId) :
    Detached (page.children node) node page (page.clearChildren node) := by
  have hshape : (page.onHeap fun heap => (page.children node).foldl (fun heap child => heap.setParent child none)
      (heap.setChildren node [])).shape = page.shape.cut node (page.children node) := by
    have hnil : (page.children node).filter (fun child => child ∉ page.children node) = [] := by simp
    have hchildren : page.shape.children = page.children := rfl
    rw [onHeap, shape_foldl_setParent, Heap.shape_setChildren, Shape.cut, hchildren, hnil]
  generalize hemptied : (page.onHeap fun heap => (page.children node).foldl (fun heap child => heap.setParent child none)
      (heap.setChildren node [])) = emptied at hshape
  have hfocused : emptied.focused = page.focused := by rw [← hemptied]; rfl
  have hfocusedNode : emptied.focusedNode = page.focusedNode := by rw [← hemptied]; rfl
  have hwithin : emptied.focusWithin = page.focusWithin := by rw [← hemptied]; rfl
  have hsound : emptied.Sound := sound.cut (fun _ h => h) hshape
  have helement : emptied.element = page.element := Heap.element_of_shape (Heap.data_of_cut hshape)
  -- the node does not include itself, so that its way up is as before
  have hup (id : NodeId) : Walk.Reaches emptied.shadowIncludingParent node id ↔
      Walk.Reaches page.shadowIncludingParent node id := by
    rw [sound.shadowIncludingParent_cut (fun _ h => h) hshape, Walk.reaches_cut sound.acyclic]
    refine and_iff_left_of_imp fun _ child hchild hto => ?_
    have hlink := Heap.shadowIncludingParent_of_parent (sound.parent_of_mem hchild)
    exact absurd ((Walk.transGen_iff hlink).mpr hto) (sound.acyclic child)
  have hpath := flagged_path hsound false node
  rw [clearChildren, hemptied]
  split
  next hnil =>
    exact ⟨fun _ h => h, hshape, hfocused, hfocusedNode, fun id => by rw [hwithin, hnil]; simp⟩
  next =>
    split
    next hany =>
      refine ⟨fun _ h => h, ?_, ?_, ?_, fun id => ?_⟩
      · rw [onHeap, Heap.shape_markChildrenMutated, hpath.shape, hshape]
      · exact hpath.focused.trans hfocused
      · exact hpath.focusedNode.trans hfocusedNode
      · have hsome : ∃ child ∈ page.children node, page.hasFocusWithin child = true := by simpa using hany
        rw [onHeap, hpath.within id, hwithin, helement, hup]
        simp [hsome]
    next hany =>
      refine ⟨fun _ h => h, ?_, hfocused, hfocusedNode, fun id => ?_⟩
      · rw [onHeap, Heap.shape_markChildrenMutated, hshape]
      · have hnone : ¬∃ child ∈ page.children node, page.hasFocusWithin child = true := by simpa using hany
        rw [onHeap, hwithin]
        simp [hnone]

theorem shape_linked (page : Page) (parent child : NodeId) (index : Nat) :
    (page.onHeap fun heap => (heap.setParent child (some parent)).setChildren parent
      ((heap.children parent).insertIdx index child)).shape =
        page.shape.link parent child ((page.children parent).insertIdx index child) := by
  rw [onHeap, Heap.shape_setChildren, Heap.shape_setParent]
  rfl

/-- The links after an insertion, wherever they lead. -/
theorem shape_insertAt (page : Page) (parent child : NodeId) (index : Nat) :
    (page.insertAt parent child index).shape =
      page.shape.link parent child ((page.children parent).insertIdx index child) := by
  rw [insertAt, ← shape_linked page parent child index]
  split
  next =>
    have hflags := flagged_foldl (page.onHeap fun heap => (heap.setParent child (some parent)).setChildren parent
      ((heap.children parent).insertIdx index child)) true
    rw [onHeap, Heap.shape_markChildrenMutated, setFocusWithinPath, (hflags _).shape]
  next => rw [onHeap, Heap.shape_markChildrenMutated]

theorem attached_insertAt (sound : page.Sound) (attachable : page.Attachable parent child) {index : Nat}
    (hindex : index ≤ (page.children parent).length) :
    Attached ((page.children parent).insertIdx index child) parent child page (page.insertAt parent child index) := by
  have hshape := shape_linked page parent child index
  generalize hlinked : (page.onHeap fun heap => (heap.setParent child (some parent)).setChildren parent
      ((heap.children parent).insertIdx index child)) = linked at hshape
  have hfocused : linked.focused = page.focused := by rw [← hlinked]; rfl
  have hfocusedNode : linked.focusedNode = page.focusedNode := by rw [← hlinked]; rfl
  have hwithin : linked.focusWithin = page.focusWithin := by rw [← hlinked]; rfl
  have hsound : linked.Sound :=
    sound.link attachable.none attachable.back attachable.childAllocated attachable.parentAllocated
      attachable.kinds (List.perm_insertIdx child _ hindex) hshape
  have helement : linked.element = page.element := Heap.element_of_shape (Heap.data_of_link hshape)
  have hflag : linked.hasFocusWithin child = page.hasFocusWithin child := by
    rw [hasFocusWithin, hasFocusWithin, hwithin, helement]
  have hup (id : NodeId) : Walk.Reaches linked.shadowIncludingParent parent id ↔
      Walk.Reaches page.shadowIncludingParent parent id := by
    rw [Heap.shadowIncludingParent_link hshape, Walk.reaches_update attachable.none attachable.back]
    exact or_iff_left_of_imp fun hboth => absurd hboth.1 attachable.back
  have hpath := flagged_path hsound true parent
  rw [insertAt, hlinked, hflag]
  split
  next hfocus =>
    refine ⟨?_, hpath.focused.trans hfocused, hpath.focusedNode.trans hfocusedNode, fun id => ?_⟩
    · rw [onHeap, Heap.shape_markChildrenMutated, hpath.shape, hshape]
    · rw [onHeap, hpath.within id, hwithin, helement, hup]
      simp [hfocus]
  next hfocus =>
    refine ⟨?_, hfocused, hfocusedNode, fun id => ?_⟩
    · rw [onHeap, Heap.shape_markChildrenMutated, hshape]
    · rw [onHeap, hwithin]
      simp [hfocus]

end Page

end BetterWebBrowser.Dom
