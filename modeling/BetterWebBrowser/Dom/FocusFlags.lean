import BetterWebBrowser.Dom.ComposedTree
import BetterWebBrowser.Dom.SoundTrees

/-!
# Focus flags

The elements that the focused one is in carry the flag that `:focus-within` matches. The mutations set and
clear it along the ancestors of the parent alone; the flags are right afterwards if they were right before.
-/

namespace BetterWebBrowser.Dom

open Framework

namespace Page

variable {page page' : Page} {node parent child host root : NodeId}

/-- The shape of the tree and what has the focus are the same. -/
structure SameTree (page page' : Page) : Prop where
  shape : page'.shape = page.shape
  focused : page'.focused = page.focused
  focusedNode : page'.focusedNode = page.focusedNode

theorem SameTree.refl (page : Page) : SameTree page page := ⟨rfl, rfl, rfl⟩

theorem SameTree.trans {page'' : Page} (h : SameTree page page') (h' : SameTree page' page'') : SameTree page page'' :=
  ⟨h'.shape.trans h.shape, h'.focused.trans h.focused, h'.focusedNode.trans h.focusedNode⟩

theorem SameTree.element (h : SameTree page page') : page'.element = page.element :=
  Heap.element_of_shape (congrArg Shape.data h.shape)

theorem SameTree.up (h : SameTree page page') : page'.shadowIncludingParent = page.shadowIncludingParent :=
  Heap.shadowIncludingParent_of_shape h.shape

/-! ## Paths -/

/-- What the flags are after they were set or cleared at some elements. -/
structure Flagged (value : Bool) (nodes : NodeId → Prop) (page page' : Page) : Prop extends SameTree page page' where
  within : ∀ id, page'.focusWithin id = true ↔
    if value = true then page.focusWithin id = true ∨ nodes id ∧ (page.element id).isSome = true
    else page.focusWithin id = true ∧ ¬(nodes id ∧ (page.element id).isSome = true)

theorem flagged_setFocusWithin (page : Page) (value : Bool) (current : NodeId) :
    Flagged value (fun id => id = current) page (setFocusWithin value page current) := by
  rw [setFocusWithin]
  split
  next h =>
    refine ⟨⟨Heap.shape_markMutated current, rfl, rfl⟩, fun id => ?_⟩
    have hflag : (Page.markMutated { page with focusWithin := Function.update page.focusWithin current value }
        current).focusWithin = Function.update page.focusWithin current value := rfl
    rw [hflag]
    by_cases hsame : id = current
    · cases value <;> simp [hsame, h.1]
    · cases value <;> simp [hsame]
  next h =>
    refine ⟨.refl page, fun id => ?_⟩
    by_cases hsame : id = current
    · cases value
      · by_cases helement : (page.element current).isSome = true
        · simp_all
        · simp [hsame, helement]
      · by_cases helement : (page.element current).isSome = true
        · simp_all
        · simp [hsame, helement]
    · cases value <;> simp [hsame]

theorem flagged_foldl (page : Page) (value : Bool) (nodes : List NodeId) :
    Flagged value (fun id => id ∈ nodes) page (nodes.foldl (setFocusWithin value) page) := by
  induction nodes generalizing page with
  | nil => exact ⟨.refl page, fun id => by cases value <;> simp⟩
  | cons node nodes ih =>
    have hfirst := flagged_setFocusWithin page value node
    have hrest := ih (setFocusWithin value page node)
    refine ⟨hfirst.toSameTree.trans hrest.toSameTree, fun id => ?_⟩
    rw [List.foldl_cons, hrest.within, hfirst.within, hfirst.toSameTree.element]
    cases value
    · simp only [Bool.false_eq_true, if_false, List.mem_cons]
      tauto
    · simp only [if_true, List.mem_cons]
      tauto

theorem mem_shadowAncestors (sound : page.Sound) {id : NodeId} : id ∈ page.inclusiveShadowAncestors node ↔
    Walk.Reaches page.shadowIncludingParent node id :=
  (sound.ends node).mem_iff

/-- `set_focus_within_path` writes the flag of a node and of everything that it is in. -/
theorem flagged_path (sound : page.Sound) (value : Bool) (node : NodeId) :
    Flagged value (fun id => Walk.Reaches page.shadowIncludingParent node id) page
      (page.setFocusWithinPath node value) := by
  have hall := flagged_foldl page value (page.inclusiveShadowAncestors node)
  refine ⟨hall.toSameTree, fun id => ?_⟩
  have hid := hall.within id
  rwa [mem_shadowAncestors sound] at hid

/-! ## Right flags -/

structure Focus (page : Page) : Prop where
  target : ∀ id, page.focused id = true ↔ page.focusedNode = some id
  isElement : ∀ id, page.focusedNode = some id → (page.element id).isSome = true
  within : ∀ id, (page.element id).isSome = true → (page.focusWithin id = true ↔
    ∃ focused, page.focusedNode = some focused ∧ Walk.Reaches page.shadowIncludingParent focused id)

namespace Focus

theorem hasFocusWithin (focus : page.Focus) {id : NodeId} : page.hasFocusWithin id = true ↔
    (page.element id).isSome = true ∧
      ∃ focused, page.focusedNode = some focused ∧ Walk.Reaches page.shadowIncludingParent focused id := by
  rw [Page.hasFocusWithin, Bool.and_eq_true]
  constructor
  · rintro ⟨helement, hflag⟩
    exact ⟨helement, (focus.within id helement).mp hflag⟩
  · rintro ⟨helement, hfocused⟩
    exact ⟨helement, (focus.within id helement).mpr hfocused⟩

/-- A child that the focused element is in is an element: a doctype has texts in it only. -/
theorem element_of_reaches (focus : page.Focus) (sound : page.Sound) {focused : NodeId}
    (hfocused : page.focusedNode = some focused) (hreach : Walk.Reaches page.shadowIncludingParent focused child)
    (hinsertable : (page.data child).isInsertable = true) : (page.element child).isSome = true := by
  -- where nothing but texts can be below, the way up cannot have come
  have hlast (id : NodeId) (hid : page.shadowIncludingParent id = some child) :
      (page.element child).isSome = true ∨ (page.data child).isDoctype = true ∧ (page.data id).isText = true := by
    rcases Option.or_eq_some_iff.mp hid with hparent | ⟨-, hhost⟩
    · have hkinds := sound.kinds id child hparent
      rw [Heap.element]
      revert hkinds hinsertable
      cases page.data child <;> simp [NodeData.holds, NodeData.isContainer, NodeData.isInsertable, NodeData.isDoctype]
    · obtain ⟨element, helement, -⟩ := Heap.shadowRoot_eq_some.mp (sound.rootLinks id child hhost)
      rw [Heap.element_of_data helement]
      exact .inl rfl
  have htext (id next : NodeId) (hid : page.shadowIncludingParent id = some next) : (page.data next).isText = false := by
    rcases Option.or_eq_some_iff.mp hid with hparent | ⟨-, hhost⟩
    · have hkinds := sound.kinds id next hparent
      revert hkinds
      cases page.data next <;> simp [NodeData.holds, NodeData.isContainer, NodeData.isText, NodeData.isDoctype]
    · obtain ⟨element, helement, -⟩ := Heap.shadowRoot_eq_some.mp (sound.rootLinks id next hhost)
      rw [helement]
      rfl
  rcases Relation.ReflTransGen.cases_tail hreach with rfl | ⟨last, hto, hlink⟩
  · exact focus.isElement _ hfocused
  · rcases hlast last hlink with helement | ⟨-, hlastText⟩
    · exact helement
    · rcases Relation.ReflTransGen.cases_tail hto with rfl | ⟨before, -, hbefore⟩
      · have helement := focus.isElement _ hfocused
        rw [Heap.element] at helement
        revert helement hlastText
        cases page.data last <;> simp [NodeData.isText]
      · rw [htext before last hbefore] at hlastText
        cases hlastText

/-- The ways up and the elements are the same. -/
theorem of_up (focus : page.Focus) (hup : page'.shadowIncludingParent = page.shadowIncludingParent)
    (helements : ∀ id, (page'.element id).isSome = (page.element id).isSome) (hfocused : page'.focused = page.focused)
    (hfocusedNode : page'.focusedNode = page.focusedNode) (hwithin : page'.focusWithin = page.focusWithin) :
    page'.Focus where
  target := by
    rw [hfocused, hfocusedNode]
    exact focus.target
  isElement := by
    intro id hid
    rw [hfocusedNode] at hid
    rw [helements]
    exact focus.isElement id hid
  within := by
    intro id helement
    rw [helements] at helement
    rw [hwithin, hfocusedNode, hup]
    exact focus.within id helement

end Focus

end Page

end BetterWebBrowser.Dom
