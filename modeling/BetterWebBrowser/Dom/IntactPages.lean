import BetterWebBrowser.Dom.TreeChanges
import BetterWebBrowser.Framework.Splice

/-!
# Intact pages

The trees of a page are sound and its focus flags are right. Every operation keeps that, the insertions as
long as a node is not inserted into its own shadow-including tree.
-/

namespace BetterWebBrowser.Dom

open Framework

namespace Page

variable {page page' : Page} {node parent child other host root target : NodeId}

structure Intact (page : Page) : Prop where
  sound : page.Sound
  focus : page.Focus

/-- A node that may be inserted into a parent, wherever it is. -/
structure Insertable (page : Page) (parent child : NodeId) : Prop where
  back : ¬Walk.Reaches page.shadowIncludingParent parent child
  childAllocated : child ∈ page.allocated
  parentAllocated : parent ∈ page.allocated
  kinds : (page.data parent).holds (page.data child) = true

/-! ## Removal -/

theorem intact_detached {nodes : List NodeId} (intact : page.Intact) (h : Detached nodes parent page page') :
    page'.Intact :=
  ⟨h.sound intact.sound, h.focus intact.sound intact.focus⟩

theorem intact_removeFromParent (intact : page.Intact) (target : NodeId) : (page.removeFromParent target).Intact := by
  cases hparent : page.parent target with
  | none =>
    rw [removeFromParent_of_none hparent]
    exact intact
  | some parent => exact intact_detached intact (detached_removeFromParent intact.sound hparent)

/-- The way up without the step from a removed node. -/
theorem up_removeFromParent (sound : page.Sound) (hhost : page.shadowHost target = none) :
    (page.removeFromParent target).shadowIncludingParent = Walk.cut [target] page.shadowIncludingParent := by
  cases hparent : page.parent target with
  | none =>
    rw [removeFromParent_of_none hparent]
    have hnone : page.shadowIncludingParent target = none := by
      rw [Heap.shadowIncludingParent, hparent, hhost]
      rfl
    rw [Walk.cut_singleton, ← hnone, Function.update_eq_self]
  | some parent => exact (detached_removeFromParent sound hparent).up sound

theorem data_removeFromParent (sound : page.Sound) (target : NodeId) :
    (page.removeFromParent target).data = page.data ∧ (page.removeFromParent target).allocated = page.allocated := by
  cases hparent : page.parent target with
  | none =>
    rw [removeFromParent_of_none hparent]
    exact ⟨rfl, rfl⟩
  | some parent =>
    have hshape := (detached_removeFromParent sound hparent).shape
    exact ⟨Heap.data_of_cut hshape, congrArg Shape.allocated hshape⟩

theorem children_removeFromParent (sound : page.Sound) (target id : NodeId) :
    (page.removeFromParent target).children id = (page.children id).erase target := by
  cases hparent : page.parent target with
  | none =>
    have hnot : target ∉ page.children id := by
      rw [sound.childLinks, hparent]
      exact Option.some_ne_none id ∘ Eq.symm
    rw [removeFromParent_of_none hparent, List.erase_of_not_mem hnot]
  | some parent =>
    rw [Heap.children_of_cut (detached_removeFromParent sound hparent).shape]
    by_cases hsame : id = parent
    · have hfilter := eraseIdx_idxOf_eq_filter (sound.childrenNodup parent) target
      rw [List.eraseIdx_idxOf_eq_erase] at hfilter
      rw [hsame, Function.update_self, hfilter]
    · have hnot : target ∉ page.children id := by
        rw [sound.childLinks, hparent]
        exact fun h => hsame (Option.some.inj h).symm
      rw [Function.update_of_ne hsame, List.erase_of_not_mem hnot]

theorem intact_removeChild (intact : page.Intact) (parent child : NodeId) :
    (page.removeChild parent child).1.Intact := by
  rw [removeChild]
  split
  next => exact intact
  next =>
    split
    next => exact intact
    next => exact intact_removeFromParent intact child

theorem intact_clearChildren (intact : page.Intact) (node : NodeId) : (page.clearChildren node).Intact :=
  intact_detached intact (detached_clearChildren intact.sound node)

/-! ## Insertion -/

namespace Insertable

theorem shadowHost (h : page.Insertable parent child) : page.shadowHost child = none := by
  have hdata := NodeData.insertable_of_holds h.kinds
  rw [Heap.shadowHost]
  revert hdata
  cases page.data child <;> simp [NodeData.isInsertable]

theorem of_removed (sound : page.Sound) (h : page.Insertable parent other) (hhost : page.shadowHost child = none) :
    (page.removeFromParent child).Insertable parent other := by
  obtain ⟨hdata, hallocated⟩ := data_removeFromParent sound child
  refine ⟨fun hreach => h.back ?_, ?_, ?_, ?_⟩
  · rw [up_removeFromParent sound hhost] at hreach
    exact ((Walk.reaches_cut sound.acyclic).mp hreach).1
  · rw [hallocated]
    exact h.childAllocated
  · rw [hallocated]
    exact h.parentAllocated
  · rw [hdata]
    exact h.kinds

theorem attachable (sound : page.Sound) (h : page.Insertable parent child) :
    (page.removeFromParent child).Attachable parent child := by
  have hremoved := h.of_removed sound h.shadowHost
  refine ⟨?_, hremoved.back, hremoved.childAllocated, hremoved.parentAllocated, hremoved.kinds⟩
  rw [up_removeFromParent sound h.shadowHost, Walk.cut, if_pos (List.mem_singleton_self child)]

/-- Another node may still be inserted after one was. -/
theorem of_attached {children : List NodeId} (h : page.Insertable parent other)
    (attachable : page.Attachable parent child) (hattached : Attached children parent child page page') :
    page'.Insertable parent other := by
  have hdata : page'.data = page.data := Heap.data_of_link hattached.shape
  have hallocated : page'.allocated = page.allocated := congrArg Shape.allocated hattached.shape
  refine ⟨fun hreach => ?_, ?_, ?_, ?_⟩
  · rw [hattached.up, Walk.reaches_update attachable.none attachable.back] at hreach
    rcases hreach with hold | ⟨hback, -⟩
    · exact h.back hold
    · exact attachable.back hback
  · rw [hallocated]
    exact h.childAllocated
  · rw [hallocated]
    exact h.parentAllocated
  · rw [hdata]
    exact h.kinds

end Insertable

/-- What an insertion into a parent leaves: other nodes may be inserted after it as before. -/
structure Inserts (parent : NodeId) (page page' : Page) : Prop where
  intact : page'.Intact
  insertable : ∀ other, page.Insertable parent other → page'.Insertable parent other
  data : page'.data = page.data
  allocated : page'.allocated = page.allocated

theorem Inserts.refl (intact : page.Intact) : Inserts parent page page := ⟨intact, fun _ h => h, rfl, rfl⟩

theorem Inserts.trans {page'' : Page} (h : Inserts parent page page') (h' : Inserts parent page' page'') :
    Inserts parent page page'' :=
  ⟨h'.intact, fun other hother => h'.insertable other (h.insertable other hother), h'.data.trans h.data,
    h'.allocated.trans h.allocated⟩

/-- A node was taken from where it was and inserted at an index. -/
theorem inserts_reinsert (intact : page.Intact) (h : page.Insertable parent child) {index : Nat}
    (hindex : index ≤ ((page.removeFromParent child).children parent).length) :
    Inserts parent page ((page.removeFromParent child).insertAt parent child index) := by
  have hremoved := intact_removeFromParent intact child
  have hattachable := h.attachable intact.sound
  have hattached := attached_insertAt hremoved.sound hattachable hindex
  obtain ⟨hdata, hallocated⟩ := data_removeFromParent intact.sound child
  refine ⟨⟨hattached.sound hremoved.sound hattachable (List.perm_insertIdx child _ hindex),
    hattached.focus hremoved.sound hremoved.focus hattachable⟩, fun other hother => ?_, ?_, ?_⟩
  · exact (hother.of_removed intact.sound h.shadowHost).of_attached hattachable hattached
  · exact (Heap.data_of_link hattached.shape).trans hdata
  · exact (congrArg Shape.allocated hattached.shape).trans hallocated

theorem appendChild_eq (page : Page) (parent child : NodeId) : page.appendChild parent child = (page, false) ∨
    page.refusesInsertion parent child = false ∧ page.appendChild parent child =
      ((page.removeFromParent child).insertAt parent child ((page.removeFromParent child).children parent).length, true) := by
  rw [appendChild]
  split
  next => exact .inl rfl
  next h => exact .inr ⟨Bool.eq_false_iff.mpr h, rfl⟩

/-- The index of the reference once the child is taken away. -/
theorem shiftedIndex_eq (sound : page.Sound) {reference : NodeId} (hne : child ≠ reference) :
    page.shiftedIndex parent child ((page.children parent).idxOf reference) =
      ((page.children parent).erase child).idxOf reference := by
  rw [shiftedIndex]
  cases hparent : page.parent child with
  | none =>
    have hnot : child ∉ page.children parent := by
      rw [sound.childLinks, hparent]
      exact Option.some_ne_none parent ∘ Eq.symm
    rw [parentAndIndex_of_none hparent, List.erase_of_not_mem hnot]
  | some oldParent =>
    rw [parentAndIndex_of_parent sound hparent]
    by_cases hsame : oldParent = parent
    · simp only [hsame, true_and]
      rw [idxOf_erase hne]
    · have hnot : child ∉ page.children parent := by
        rw [sound.childLinks, hparent]
        exact fun h => hsame (Option.some.inj h)
      simp only [hsame, false_and, if_false]
      rw [List.erase_of_not_mem hnot]

theorem insertBefore_eq (sound : page.Sound) (parent child reference : NodeId) :
    page.insertBefore parent child reference = (page, false) ∨
      page.parent reference = some parent ∧ page.refusesInsertion parent child = false ∧
        page.insertBefore parent child reference = ((page.removeFromParent child).insertAt parent child
          (if child = reference then (page.children parent).idxOf reference
           else ((page.removeFromParent child).children parent).idxOf reference), true) := by
  cases hreference : page.parent reference with
  | none =>
    rw [insertBefore, parentAndIndex_of_none hreference]
    exact .inl rfl
  | some referenceParent =>
    rw [insertBefore, parentAndIndex_of_parent sound hreference]
    by_cases hrefused : parent ≠ referenceParent ∨ page.refusesInsertion parent child = true
    · exact .inl (if_pos hrefused)
    · obtain ⟨hparent, haccepted⟩ := not_or.mp hrefused
      obtain rfl : parent = referenceParent := not_not.mp hparent
      refine .inr ⟨rfl, Bool.eq_false_iff.mpr haccepted, ?_⟩
      simp only [if_neg hrefused, children_removeFromParent sound]
      by_cases hsame : child = reference
      · subst hsame
        rw [shiftedIndex, parentAndIndex_of_parent sound hreference]
        simp
      · rw [shiftedIndex_eq sound hsame, if_neg hsame]

/-- The index where `insert_before` inserts is one of the parent. -/
theorem index_le (sound : page.Sound) {reference : NodeId} (hreference : page.parent reference = some parent) :
    (if child = reference then (page.children parent).idxOf reference
      else ((page.removeFromParent child).children parent).idxOf reference) ≤
      ((page.removeFromParent child).children parent).length := by
  split
  next hsame =>
    rw [children_removeFromParent sound, hsame]
    exact idxOf_le_length_erase (sound.mem_children hreference)
  next => exact List.idxOf_le_length

theorem inserts_appendChild (intact : page.Intact) (h : page.Insertable parent child) :
    Inserts parent page (page.appendChild parent child).1 := by
  rcases appendChild_eq page parent child with hrefused | ⟨-, hdone⟩
  · rw [hrefused]
    exact .refl intact
  · rw [hdone]
    exact inserts_reinsert intact h le_rfl

theorem inserts_insertBefore (intact : page.Intact) (h : page.Insertable parent child) (reference : NodeId) :
    Inserts parent page (page.insertBefore parent child reference).1 := by
  rcases insertBefore_eq intact.sound parent child reference with hrefused | ⟨hreference, -, hdone⟩
  · rw [hrefused]
    exact .refl intact
  · rw [hdone]
    exact inserts_reinsert intact h (index_le intact.sound hreference)

theorem intact_appendAll (intact : page.Intact) {nodes : List NodeId}
    (h : ∀ node ∈ nodes, page.Insertable target node) : (page.appendAll target nodes).Intact := by
  induction nodes generalizing page with
  | nil => exact intact
  | cons node nodes ih =>
    have hinserts := inserts_appendChild intact (h node List.mem_cons_self)
    exact ih hinserts.intact fun other hother => hinserts.insertable other (h other (List.mem_cons_of_mem _ hother))

/-! ## New nodes -/

theorem grown_newIn (sound : page.Sound) (document : Nat) (data : NodeData) :
    Heap.Sound.Grown page.toHeap (page.newIn document data).1.toHeap (page.newIn document data).2 := by
  have hfresh := sound.not_allocated document
  have hparent := (Option.or_eq_none_iff.mp (sound.next_none hfresh)).1
  have hchildren := (sound.fresh _ hfresh).1
  refine ⟨hfresh, rfl, ?_, ?_, rfl, ?_⟩
  · funext id
    by_cases hsame : id = ⟨document, (page.identity document).nextLocal⟩
    · rw [hsame, hparent]
      simp [newIn, Heap.parent, Node.isolated]
    · simp [newIn, Heap.parent, Function.update_of_ne hsame]
  · funext id
    by_cases hsame : id = ⟨document, (page.identity document).nextLocal⟩
    · rw [hsame, hchildren]
      simp [newIn, Heap.children, Node.isolated]
    · simp [newIn, Heap.children, Function.update_of_ne hsame]
  · funext other
    by_cases hsame : other = document <;> simp [newIn, Heap.shape, hsame]

theorem data_newIn (page : Page) (document : Nat) (data : NodeData) :
    (page.newIn document data).1.data = Function.update page.data (page.newIn document data).2 data := by
  funext id
  by_cases hsame : id = (page.newIn document data).2
  · rw [hsame, Function.update_self]
    simp [newIn, Heap.data, Node.isolated]
  · rw [Function.update_of_ne hsame]
    simp only [newIn] at hsame
    simp [newIn, Heap.data, Function.update_of_ne hsame]

/-- What was not created yet has no flag. -/
theorem Focus.not_focused (focus : page.Focus) (sound : page.Sound) (hfresh : node ∉ page.allocated) :
    page.focusedNode ≠ some node := by
  intro hfocused
  exact hfresh (sound.allocated_of_element (focus.isElement node hfocused))

/-- The flags after a node was created that leads to none, or to one that is in the tree. -/
theorem focus_of_grown (intact : page.Intact) (hfresh : node ∉ page.allocated)
    (hup : ∀ id, id ≠ node → page'.shadowIncludingParent id = page.shadowIncludingParent id)
    (helements : ∀ id, id ≠ node → (page'.element id).isSome = (page.element id).isSome)
    (hfocused : page'.focused = Function.update page.focused node false)
    (hwithin : page'.focusWithin = Function.update page.focusWithin node false)
    (hfocusedNode : page'.focusedNode = page.focusedNode) : page'.Focus := by
  have hnot := intact.focus.not_focused intact.sound hfresh
  have hreaches (focused id : NodeId) (hne : focused ≠ node) :
      Walk.Reaches page'.shadowIncludingParent focused id ↔ Walk.Reaches page.shadowIncludingParent focused id := by
    refine Walk.reaches_congr fun other hother => hup other ?_
    rintro rfl
    exact intact.sound.not_reaches hfresh hne hother
  refine ⟨fun id => ?_, fun id hid => ?_, fun id helement => ?_⟩
  · rw [hfocused, hfocusedNode]
    by_cases hsame : id = node
    · simp [hsame, hnot]
    · rw [Function.update_of_ne hsame]
      exact intact.focus.target id
  · rw [hfocusedNode] at hid
    have hne : id ≠ node := fun hsame => hnot (hsame ▸ hid)
    rw [helements id hne]
    exact intact.focus.isElement id hid
  · rw [hwithin, hfocusedNode]
    by_cases hsame : id = node
    · subst hsame
      rw [Function.update_self]
      refine iff_of_false Bool.false_ne_true ?_
      rintro ⟨focused, hfocused, hreach⟩
      have hne : focused ≠ id := fun hsame => hnot (hsame ▸ hfocused)
      exact intact.sound.not_reaches hfresh hne ((hreaches focused id hne).mp hreach)
    · rw [helements id hsame] at helement
      rw [Function.update_of_ne hsame, intact.focus.within id helement]
      refine exists_congr fun focused => and_congr_right fun hfocused => ?_
      exact (hreaches focused id fun hsame => hnot (hsame ▸ hfocused)).symm

theorem intact_newIn (intact : page.Intact) (document : Nat) {data : NodeData} (hplain : data.isPlain = true) :
    (page.newIn document data).1.Intact := by
  have hgrown := grown_newIn intact.sound document data
  have hdata := data_newIn page document data
  refine ⟨intact.sound.create hgrown hplain hdata,
    focus_of_grown intact hgrown.fresh (fun id _ => ?_) (fun id hne => ?_) rfl rfl rfl⟩
  · rw [Heap.shadowIncludingParent_congr hgrown.parent (intact.sound.hosts_of_create hgrown hplain hdata)]
  · rw [Heap.element, Heap.element, hdata, Function.update_of_ne hne]

/-- A new node may be inserted at once. -/
theorem insertable_newIn (intact : page.Intact) (document : Nat) {data : NodeData} (hplain : data.isPlain = true)
    (hallocated : parent ∈ page.allocated) (hkinds : (page.data parent).holds data = true) :
    (page.newIn document data).1.Insertable parent (page.newIn document data).2 := by
  have hgrown := grown_newIn intact.sound document data
  have hdata := data_newIn page document data
  have hne : parent ≠ (page.newIn document data).2 := fun hsame => hgrown.fresh (hsame ▸ hallocated)
  refine ⟨?_, ?_, ?_, ?_⟩
  · rw [Heap.shadowIncludingParent_congr hgrown.parent (intact.sound.hosts_of_create hgrown hplain hdata)]
    exact intact.sound.not_reaches hgrown.fresh hne
  · rw [hgrown.allocated]
    exact List.mem_cons_self
  · rw [hgrown.allocated]
    exact List.mem_cons_of_mem _ hallocated
  · rw [hdata, Function.update_of_ne hne, Function.update_self]
    exact hkinds

/-! ## Contents -/

theorem intact_of_shape (intact : page.Intact) (hshape : page'.shape = page.shape) (hfocused : page'.focused = page.focused)
    (hfocusedNode : page'.focusedNode = page.focusedNode) (hwithin : page'.focusWithin = page.focusWithin) :
    page'.Intact := by
  have helement : page'.element = page.element := Heap.element_of_shape (congrArg Shape.data hshape)
  exact ⟨intact.sound.of_shape hshape, intact.focus.of_up (Heap.shadowIncludingParent_of_shape hshape)
    (fun id => by rw [helement]) hfocused hfocusedNode hwithin⟩

theorem intact_markMutated (intact : page.Intact) (id : NodeId) : (page.markMutated id).Intact :=
  intact_of_shape intact (Heap.shape_markMutated id) rfl rfl rfl

/-- Contents of the same kind are written, with the same shadow links. -/
theorem intact_setData (intact : page.Intact) {data : NodeData} (hallocated : node ∈ page.allocated)
    (hkind : (page.data node).SameKind data)
    (hhost : (page.setData node data).shadowHost node = page.shadowHost node)
    (hroot : (page.setData node data).shadowRoot node = page.shadowRoot node)
    (helement : ((page.setData node data).element node).isSome = (page.element node).isSome) :
    (page.onHeap fun heap => heap.setData node data).Intact := by
  have hshape : (page.setData node data).shape = _ := Heap.shape_setData node data
  have hdata : (page.setData node data).data = Function.update page.data node data := Heap.data_setData node data
  have hhosts : (page.setData node data).shadowHost = page.shadowHost := by
    funext id
    by_cases hsame : id = node
    · rw [hsame, hhost]
    · rw [Heap.shadowHost, Heap.shadowHost, hdata, Function.update_of_ne hsame]
  refine ⟨intact.sound.rewrite hallocated hshape hhost hroot hkind,
    intact.focus.of_up (Heap.shadowIncludingParent_congr (congrArg Shape.parent hshape) hhosts) (fun id => ?_) rfl rfl rfl⟩
  by_cases hsame : id = node
  · rw [hsame]
    exact helement
  · have helse : (page.setData node data).element id = page.element id := by
      rw [Heap.element, Heap.element, hdata, Function.update_of_ne hsame]
    exact congrArg Option.isSome helse

/-- Character data is written. -/
theorem intact_setCharacters (intact : page.Intact) {data : NodeData} (hallocated : node ∈ page.allocated)
    (hkind : (page.data node).SameKind data) (hold : (page.data node).isContainer = false) :
    ((page.onHeap fun heap => heap.setData node data).markMutated node).Intact := by
  have hnew : (page.setData node data).data node = data := by
    rw [Heap.data_setData, Function.update_self]
  have hcontainer : data.isContainer = false := hkind.container.trans hold
  refine intact_markMutated (intact_setData intact hallocated hkind ?_ ?_ ?_) node
  all_goals
    simp only [Heap.shadowHost, Heap.shadowRoot, Heap.element, hnew]
    revert hold hcontainer
    cases page.data node <;> cases data <;> simp [NodeData.isContainer]

theorem data_clearChildren (sound : page.Sound) (node : NodeId) :
    (page.clearChildren node).data = page.data ∧ (page.clearChildren node).allocated = page.allocated := by
  have hshape := (detached_clearChildren sound node).shape
  exact ⟨Heap.data_of_cut hshape, congrArg Shape.allocated hshape⟩

/-- What is no character data takes a text as its contents. -/
theorem holds_text {contents : Str} (htext : ∀ old, page.data node ≠ .text old) (hcdata : ∀ old, page.data node ≠ .cdata old)
    (hcomment : ∀ old, page.data node ≠ .comment old)
    (hinstruction : ∀ name old, page.data node ≠ .processingInstruction name old) :
    (page.data node).holds (.text contents) = true := by
  cases hnode : page.data node with
  | text old => exact absurd hnode (htext old)
  | cdata old => exact absurd hnode (hcdata old)
  | comment old => exact absurd hnode (hcomment old)
  | processingInstruction name old => exact absurd hnode (hinstruction name old)
  | _ => rfl

theorem intact_setTextContent (intact : page.Intact) (hallocated : node ∈ page.allocated) (contents : Str) :
    (page.setTextContent node contents).Intact := by
  have hcleared := intact_clearChildren intact node
  obtain ⟨hdata, hkept⟩ := data_clearChildren intact.sound node
  -- nodes that have children get a text in their place
  have hreplaced (hholds : (page.data node).holds (.text contents) = true) :
      (if contents = [] then page.clearChildren node
        else ((page.clearChildren node).createTextFor node contents).1.appendChild node
          ((page.clearChildren node).createTextFor node contents).2 |>.1).Intact := by
    split
    next => exact hcleared
    next =>
      refine (inserts_appendChild (intact_newIn hcleared node.document rfl)
        (insertable_newIn hcleared node.document rfl ?_ ?_)).intact
      · rwa [hkept]
      · rwa [hdata]
  rw [setTextContent]
  split
  next hnode => exact intact_setCharacters intact hallocated (hnode ▸ ⟨rfl, rfl, rfl, rfl⟩) (hnode ▸ rfl)
  next hnode => exact intact_setCharacters intact hallocated (hnode ▸ ⟨rfl, rfl, rfl, rfl⟩) (hnode ▸ rfl)
  next hnode => exact intact_setCharacters intact hallocated (hnode ▸ ⟨rfl, rfl, rfl, rfl⟩) (hnode ▸ rfl)
  next hnode => exact intact_setCharacters intact hallocated (hnode ▸ ⟨rfl, rfl, rfl, rfl⟩) (hnode ▸ rfl)
  next htext hcdata hcomment hinstruction =>
    exact hreplaced (holds_text htext hcdata hcomment hinstruction)

theorem Insertable.of_detached {nodes : List NodeId} (sound : page.Sound) (h : page.Insertable target other)
    (hdetached : Detached nodes parent page page') : page'.Insertable target other := by
  have hdata : page'.data = page.data := Heap.data_of_cut hdetached.shape
  have hallocated : page'.allocated = page.allocated := congrArg Shape.allocated hdetached.shape
  refine ⟨fun hreach => h.back ((hdetached.reaches sound).mp hreach).1, ?_, ?_, ?_⟩
  · rw [hallocated]
    exact h.childAllocated
  · rw [hallocated]
    exact h.parentAllocated
  · rw [hdata]
    exact h.kinds

/-- What `replace_inner_html` fills with the nodes that were parsed. -/
def innerTarget (page : Page) (node : NodeId) : NodeId :=
  if (page.shadowHost node).isSome then node
  else ((page.element node).bind fun context => context.templateContents).getD node

theorem replaceInnerHtml_eq (page : Page) (node : NodeId) (parsed : List NodeId) :
    page.replaceInnerHtml node parsed = page.clearChildren node ∨
      page.replaceInnerHtml node parsed =
        (page.clearChildren (page.innerTarget node)).appendAll (page.innerTarget node) parsed := by
  rw [replaceInnerHtml]
  split
  next => exact .inl rfl
  next context hcontext =>
    have htarget : (if (page.shadowHost node).isSome = true then node else context.templateContents.getD node) =
        page.innerTarget node := by
      rw [innerTarget]
      split
      next => rfl
      next hnone =>
        rw [Option.not_isSome_iff_eq_none] at hnone
        rw [hnone, Option.getD_none] at hcontext
        rw [hcontext, Option.bind_some]
    refine .inr ?_
    simp only [htarget]

theorem intact_replaceInnerHtml (intact : page.Intact) {parsed : List NodeId}
    (h : ∀ found ∈ parsed, page.Insertable (page.innerTarget node) found) :
    (page.replaceInnerHtml node parsed).Intact := by
  rcases replaceInnerHtml_eq page node parsed with hcleared | hfilled
  · rw [hcleared]
    exact intact_clearChildren intact node
  · rw [hfilled]
    exact intact_appendAll (intact_clearChildren intact _) fun found hfound =>
      (h found hfound).of_detached intact.sound (detached_clearChildren intact.sound _)

/-! ## Shadow trees -/

theorem data_removeChild (sound : page.Sound) (parent child : NodeId) :
    (page.removeChild parent child).1.data = page.data ∧
      (page.removeChild parent child).1.allocated = page.allocated := by
  rw [removeChild]
  split
  next => exact ⟨rfl, rfl⟩
  next =>
    split
    next => exact ⟨rfl, rfl⟩
    next => exact data_removeFromParent sound child

theorem foldl_removeChild (intact : page.Intact) (root : NodeId) (nodes : List NodeId) :
    (nodes.foldl (fun page child => (page.removeChild root child).1) page).Intact ∧
      (nodes.foldl (fun page child => (page.removeChild root child).1) page).data = page.data ∧
      (nodes.foldl (fun page child => (page.removeChild root child).1) page).allocated = page.allocated := by
  induction nodes generalizing page with
  | nil => exact ⟨intact, rfl, rfl⟩
  | cons node nodes ih =>
    obtain ⟨hdata, hallocated⟩ := data_removeChild intact.sound root node
    obtain ⟨hintact, hrestData, hrestAllocated⟩ := ih (intact_removeChild intact root node)
    exact ⟨hintact, hrestData.trans hdata, hrestAllocated.trans hallocated⟩

theorem intact_reuseShadow (intact : page.Intact) {shadow : ShadowRootData} (hroot : page.data root = .shadowRoot shadow) :
    (page.reuseShadow root shadow).Intact := by
  obtain ⟨hintact, hdata, hkept⟩ := foldl_removeChild intact root (page.children root)
  rw [reuseShadow]
  generalize ((page.children root).foldl (fun page child => (page.removeChild root child).1) page) = emptied at *
  have hold : emptied.data root = .shadowRoot shadow := by rw [hdata, hroot]
  have hnew : (emptied.setData root (.shadowRoot { shadow with declarative := false })).data root =
      .shadowRoot { shadow with declarative := false } := by
    rw [Heap.data_setData, Function.update_self]
  have hallocated : root ∈ emptied.allocated := by
    by_contra hfresh
    rw [(hintact.sound.fresh root hfresh).2] at hold
    cases hold
  refine intact_setData hintact hallocated (hold ▸ ⟨rfl, rfl, rfl, rfl⟩) ?_ ?_ ?_
  · rw [Heap.shadowHost, Heap.shadowHost, hnew, hold]
  · rw [Heap.shadowRoot, Heap.shadowRoot, Heap.element, Heap.element, hnew, hold]
  · rw [Heap.element, Heap.element, hnew, hold]

/-- What attaching a new root writes. -/
theorem hosted_attach (sound : page.Sound) {element : ElementData} (helement : page.element host = some element)
    (hnone : element.shadowRoot = none) (options : ShadowOptions) :
    Heap.Sound.Hosted page.toHeap ((page.newIn host.document (.shadowRoot (options.rootData host))).1.setData host
      (.element { element with shadowRoot := some (page.newIn host.document (.shadowRoot (options.rootData host))).2 }))
      host (page.newIn host.document (.shadowRoot (options.rootData host))).2 := by
  have hgrown := grown_newIn sound host.document (.shadowRoot (options.rootData host))
  have hdata := data_newIn page host.document (.shadowRoot (options.rootData host))
  generalize page.newIn host.document (.shadowRoot (options.rootData host)) = created at *
  have hshape : (created.1.setData host (.element { element with shadowRoot := some created.2 })).shape = _ :=
    Heap.shape_setData host _
  refine ⟨⟨hgrown.fresh, hgrown.serial, ?_, ?_, ?_, ?_⟩, element, options.rootData host,
    Heap.data_of_element helement, hnone, rfl, ?_⟩
  · exact (congrArg Shape.parent hshape).trans hgrown.parent
  · exact (congrArg Shape.children hshape).trans hgrown.children
  · exact (congrArg Shape.allocated hshape).trans hgrown.allocated
  · exact (congrArg Shape.nextLocal hshape).trans hgrown.nextLocal
  · rw [Heap.data_setData, hdata]

theorem intact_hosted (intact : page.Intact) (hosted : Heap.Sound.Hosted page.toHeap page'.toHeap host root)
    (hfocused : page'.focused = Function.update page.focused root false)
    (hwithin : page'.focusWithin = Function.update page.focusWithin root false)
    (hfocusedNode : page'.focusedNode = page.focusedNode) : page'.Intact := by
  refine ⟨intact.sound.attach hosted, focus_of_grown intact hosted.fresh (fun id hne => ?_) (fun id hne => ?_)
    hfocused hwithin hfocusedNode⟩
  · rw [intact.sound.up_of_attach hosted, Function.update_of_ne hne]
  · obtain ⟨element, shadow, helement, -, -, hdata⟩ := hosted.element
    rw [Heap.element, Heap.element, hdata]
    by_cases hsame : id = host
    · rw [hsame, Function.update_self, helement]
      rfl
    · rw [Function.update_of_ne hsame, Function.update_of_ne hne]

theorem intact_attachShadow (intact : page.Intact) (host : NodeId) (options : ShadowOptions) :
    (page.attachShadow host options).1.Intact := by
  rw [attachShadow]
  split
  next => exact intact
  next element helement =>
    split
    next root hroot =>
      split
      next shadow hshadow =>
        split
        next => exact intact
        next => exact intact_reuseShadow intact hshadow
      next => exact intact
    next hnone =>
      have hosted := hosted_attach intact.sound helement hnone options
      have hfocused : (page.newIn host.document (.shadowRoot (options.rootData host))).1.focused =
          Function.update page.focused (page.newIn host.document (.shadowRoot (options.rootData host))).2 false := rfl
      have hwithin : (page.newIn host.document (.shadowRoot (options.rootData host))).1.focusWithin =
          Function.update page.focusWithin (page.newIn host.document (.shadowRoot (options.rootData host))).2 false := rfl
      have hfocusedNode : (page.newIn host.document (.shadowRoot (options.rootData host))).1.focusedNode =
          page.focusedNode := rfl
      generalize page.newIn host.document (.shadowRoot (options.rootData host)) = created at *
      have hintact : (created.1.onHeap fun heap => heap.setData host
          (.element { element with shadowRoot := some created.2 })).Intact :=
        intact_hosted intact hosted hfocused hwithin hfocusedNode
      exact intact_markMutated hintact host

/-! ## The focus -/

theorem setFocused_eq (page : Page) (id : NodeId) (value : Bool) : SameTree { page with focused := (page.setFocused id value).focused }
      (page.setFocused id value) ∧ (page.setFocused id value).focusWithin = page.focusWithin ∧
    ∀ other, (page.setFocused id value).focused other =
      if other = id ∧ (page.element id).isSome = true then value else page.focused other := by
  rw [setFocused]
  split
  next h =>
    refine ⟨⟨Heap.shape_markMutated id, rfl, rfl⟩, rfl, fun other => ?_⟩
    have hflag : (Page.markMutated { page with focused := Function.update page.focused id value } id).focused =
        Function.update page.focused id value := rfl
    rw [hflag, Function.update_apply]
    simp [h.1]
  next h =>
    refine ⟨.refl page, rfl, fun other => ?_⟩
    split
    next hsame =>
      have hequal := not_and.mp h hsame.2
      rw [hsame.1]
      exact not_not.mp hequal
    next => rfl

/-- No element has the focus, and no flag is set. -/
structure Unfocused (page page' : Page) : Prop where
  shape : page'.shape = page.shape
  focused : ∀ id, page'.focused id = false
  within : ∀ id, (page.element id).isSome = true → page'.focusWithin id = false

private theorem unfocused_clear (intact : page.Intact) {previous : NodeId} (hprevious : page.focusedNode = some previous) :
    Unfocused page ((page.setFocused previous false).setFocusWithinPath previous false) := by
  obtain ⟨hsame, hwithin, hfocused⟩ := setFocused_eq page previous false
  have hintact : (page.setFocused previous false).Sound := intact.sound.of_shape hsame.shape
  have hpath := flagged_path hintact false previous
  have helement : (page.setFocused previous false).element = page.element :=
    Heap.element_of_shape (congrArg Shape.data hsame.shape)
  refine ⟨hpath.shape.trans hsame.shape, fun id => ?_, fun id hid => ?_⟩
  · rw [hpath.focused, hfocused]
    split
    next => rfl
    next hother =>
      refine Bool.eq_false_iff.mpr fun hflag => ?_
      have hid := (intact.focus.target id).mp hflag
      rw [hprevious] at hid
      obtain rfl := Option.some.inj hid
      exact hother ⟨rfl, intact.focus.isElement _ hprevious⟩
  · refine Bool.eq_false_iff.mpr fun hflag => ?_
    obtain ⟨hold, hnot⟩ := (hpath.within id).mp hflag
    rw [hwithin] at hold
    obtain ⟨focused, hid, hreach⟩ := (intact.focus.within id hid).mp hold
    rw [hprevious] at hid
    obtain rfl := Option.some.inj hid
    rw [helement, Heap.shadowIncludingParent_of_shape hsame.shape] at hnot
    exact hnot ⟨hreach, by assumption⟩

theorem unfocused_of_none (intact : page.Intact) (hnone : page.focusedNode = none) : Unfocused page page := by
  refine ⟨rfl, fun id => Bool.eq_false_iff.mpr fun hflag => ?_, fun id hid => Bool.eq_false_iff.mpr fun hflag => ?_⟩
  · have hid := (intact.focus.target id).mp hflag
    rw [hnone] at hid
    cases hid
  · obtain ⟨focused, hfocused, -⟩ := (intact.focus.within id hid).mp hflag
    rw [hnone] at hfocused
    cases hfocused

theorem unfocused_clearFocusTarget (intact : page.Intact) :
    Unfocused page (page.clearFocusTarget page.focusedNode) := by
  cases hprevious : page.focusedNode with
  | none => exact unfocused_of_none intact hprevious
  | some previous => exact unfocused_clear intact hprevious

theorem intact_unfocused (intact : page.Intact) (h : Unfocused page page') (hnone : page'.focusedNode = none) :
    page'.Intact := by
  have helement : page'.element = page.element := Heap.element_of_shape (congrArg Shape.data h.shape)
  refine ⟨intact.sound.of_shape h.shape, fun id => ?_, fun id hid => ?_, fun id hid => ?_⟩
  · rw [h.focused, hnone]
    simp
  · rw [hnone] at hid
    cases hid
  · rw [helement] at hid
    rw [h.within id hid, hnone]
    simp

theorem intact_focused (intact : page.Intact) (h : Unfocused page page') {next : NodeId}
    (hnext : (page.element next).isSome = true) :
    ({ (page'.setFocused next true).setFocusWithinPath next true with focusedNode := some next } : Page).Intact := by
  obtain ⟨hsame, hwithin, hfocused⟩ := setFocused_eq page' next true
  have helement : page'.element = page.element := Heap.element_of_shape (congrArg Shape.data h.shape)
  have hshape : (page'.setFocused next true).shape = page.shape := hsame.shape.trans h.shape
  have hsound : (page'.setFocused next true).Sound := intact.sound.of_shape hshape
  have hpath := flagged_path hsound true next
  have helements : (page'.setFocused next true).element = page.element :=
    Heap.element_of_shape (congrArg Shape.data hshape)
  have hafter : ((page'.setFocused next true).setFocusWithinPath next true).element = page.element :=
    hpath.element.trans helements
  refine ⟨hsound.of_shape hpath.shape, fun id => ?_, fun id hid => ?_, fun id hid => ?_⟩
  · have hflag : ((page'.setFocused next true).setFocusWithinPath next true).focused id = true ↔ id = next := by
      rw [hpath.focused, hfocused, helement, h.focused]
      simp [hnext]
    exact hflag.trans (by rw [Option.some.injEq, eq_comm])
  · obtain rfl : next = id := Option.some.inj hid
    rw [← hafter] at hnext
    exact hnext
  · have hold : (page.element id).isSome = true := by
      rw [← hafter]
      exact hid
    have hflag := hpath.within id
    rw [hwithin, h.within id hold, helements, Heap.shadowIncludingParent_of_shape hshape] at hflag
    refine hflag.trans ?_
    rw [hpath.up, Heap.shadowIncludingParent_of_shape hshape]
    simp [hold]

theorem intact_setFocusTarget (intact : page.Intact) {next : Option NodeId}
    (hnext : ∀ id, next = some id → (page.element id).isSome = true) : (page.setFocusTarget next).Intact := by
  have hcleared := unfocused_clearFocusTarget intact
  rw [setFocusTarget]
  split
  next => exact intact
  next =>
    cases next with
    | none => exact intact_unfocused intact ⟨hcleared.shape, hcleared.focused, hcleared.within⟩ rfl
    | some next => exact intact_focused intact hcleared (hnext next rfl)

theorem intact_setFocus (intact : page.Intact) (next : Option NodeId) : (page.setFocus next).Intact := by
  refine intact_setFocusTarget intact fun id hid => ?_
  exact (Option.filter_eq_some_iff.mp hid).2

theorem shape_setFocus (intact : page.Intact) (next : Option NodeId) : (page.setFocus next).shape = page.shape := by
  have hcleared := (unfocused_clearFocusTarget intact).shape
  rw [setFocus, setFocusTarget]
  split
  next => rfl
  next =>
    cases next.filter fun node => (page.element node).isSome with
    | none => exact hcleared
    | some next =>
      have hfocused := (setFocused_eq (page.clearFocusTarget page.focusedNode) next true).1.shape
      exact (flagged_foldl _ true _).shape.trans (hfocused.trans hcleared)

end Page

end BetterWebBrowser.Dom
