import BetterWebBrowser.Dom.Node

/-!
# Node trees and shadow trees

In a DOM the links between parents and children agree, a shadow root is the root of its tree
and refers to its host, and no node includes itself.
-/

namespace BetterWebBrowser.Dom

open Framework Relation

structure Heap.WellFormed (heap : Heap) : Prop where
  childLinks : ∀ parent child, child ∈ heap.children parent ↔ heap.parent child = some parent
  childrenNodup : ∀ parent, (heap.children parent).Nodup
  hostLinks : ∀ host root, heap.shadowRoot host = some root → heap.shadowHost root = some host
  rootParent : ∀ root host, heap.shadowHost root = some host → heap.parent root = none
  acyclic : Walk.Acyclic (Walk.Next heap.shadowIncludingParent)
  allocated : ∀ node next, heap.shadowIncludingParent node = some next → node ∈ heap.allocated

namespace Heap

variable {heap : Heap} {node parent root host : NodeId}

theorem shadowIncludingParent_of_parent (h : heap.parent node = some parent) :
    heap.shadowIncludingParent node = some parent := by
  rw [shadowIncludingParent, h]
  rfl

/-- Walking up to a parent stays in the shadow-including tree. -/
theorem reaches_shadowIncluding (h : Walk.Reaches heap.parent node root) :
    Walk.Reaches heap.shadowIncludingParent node root := by
  have hmono : ∀ a b, Walk.Next heap.parent a b → Walk.Next heap.shadowIncludingParent a b :=
    fun _ _ hlink => shadowIncludingParent_of_parent hlink
  exact ReflTransGen.mono hmono _ _ h

/-- An element has a shadow root, and no host. -/
theorem shadowHost_of_shadowRoot (h : heap.shadowRoot node = some root) : heap.shadowHost node = none := by
  rw [shadowRoot, element] at h
  rw [shadowHost]
  cases hdata : heap.data node with
  | shadowRoot data =>
    rw [hdata] at h
    cases h
  | _ => rfl

theorem shadowHost_of_isSlot {name : Str} (h : heap.tagName node = some name) : heap.shadowHost node = none := by
  rw [tagName, element] at h
  rw [shadowHost]
  cases hdata : heap.data node with
  | shadowRoot data =>
    rw [hdata] at h
    cases h
  | _ => rfl

namespace WellFormed

theorem shadowHost_of_parent (wf : heap.WellFormed) (h : heap.parent node = some parent) :
    heap.shadowHost node = none := by
  cases hhost : heap.shadowHost node with
  | none => rfl
  | some host =>
    rw [wf.rootParent node host hhost] at h
    cases h

theorem parent_acyclic (wf : heap.WellFormed) : Walk.Acyclic (Walk.Next heap.parent) :=
  wf.acyclic.mono fun _ _ hlink => shadowIncludingParent_of_parent hlink

theorem ends_parent (wf : heap.WellFormed) (node : NodeId) :
    Walk.Ends heap.parent heap.allocated.length node :=
  Walk.ends_of_acyclic wf.parent_acyclic
    (fun _ _ hlink => wf.allocated _ _ (shadowIncludingParent_of_parent hlink)) le_rfl node

theorem treeRoot_eq (wf : heap.WellFormed) (hreach : Walk.Reaches heap.parent node root)
    (hroot : heap.parent root = none) : heap.treeRoot node = root := by
  have hlast := (wf.ends_parent node).getLast? hreach hroot
  rw [treeRoot, inclusiveAncestors, List.getLastD_eq_getLast?, hlast]
  rfl

theorem reaches_descendants (wf : heap.WellFormed) {depth : Nat} {found : NodeId}
    (h : found ∈ heap.descendantsTo depth node) : Walk.Reaches heap.parent found node := by
  induction depth generalizing node with
  | zero =>
    rw [descendantsTo, List.mem_singleton] at h
    rw [h]
    exact .refl
  | succ depth ih =>
    rw [descendantsTo, List.mem_cons, List.mem_flatMap] at h
    rcases h with rfl | ⟨child, hchild, hfound⟩
    · exact .refl
    · exact (ih hfound).tail ((wf.childLinks _ _).mp hchild)

end WellFormed

/-- The same without the shadow trees: parents and children agree and no node includes itself. -/
structure NodeTrees (heap : Heap) : Prop where
  childLinks : ∀ parent child, child ∈ heap.children parent ↔ heap.parent child = some parent
  childrenNodup : ∀ parent, (heap.children parent).Nodup
  acyclic : Walk.Acyclic (Walk.Next heap.parent)
  allocated : ∀ node parent, heap.parent node = some parent → node ∈ heap.allocated

namespace NodeTrees

theorem ends_parent (trees : heap.NodeTrees) (node : NodeId) :
    Walk.Ends heap.parent heap.allocated.length node :=
  Walk.ends_of_acyclic trees.acyclic (fun _ _ hlink => trees.allocated _ _ hlink) le_rfl node

/-- The ancestors of a node are what its parent reaches. -/
theorem mem_ancestors (trees : heap.NodeTrees) {ancestor : NodeId} :
    ancestor ∈ heap.ancestors node ↔ ∃ parent, heap.parent node = some parent ∧ Walk.Reaches heap.parent parent ancestor := by
  rw [ancestors]
  cases heap.parent node with
  | none => simp
  | some parent =>
    have hmem := (trees.ends_parent parent).mem_iff (b := ancestor)
    simpa [inclusiveAncestors] using hmem

/-- A node has the root of what it is in. -/
theorem treeRoot_of_reaches (trees : heap.NodeTrees) (h : Walk.Reaches heap.parent node root) :
    heap.treeRoot node = heap.treeRoot root := by
  obtain ⟨last, hlast, hnone⟩ := trees.ends_parent root
  have hroot := Walk.reaches_of_mem (List.mem_of_getLast? hlast)
  have hnode := (trees.ends_parent node).getLast? (h.trans hroot) hnone
  rw [treeRoot, treeRoot, inclusiveAncestors, inclusiveAncestors, List.getLastD_eq_getLast?,
    List.getLastD_eq_getLast?, hlast, hnode]
  rfl

end NodeTrees

theorem reaches_treeRoot (heap : Heap) (node : NodeId) : Walk.Reaches heap.parent node (heap.treeRoot node) := by
  rw [treeRoot, inclusiveAncestors, List.getLastD_eq_getLast?]
  cases hlast : (Walk.successors heap.parent heap.allocated.length node).getLast? with
  | none => exact .refl
  | some last => exact Walk.reaches_of_mem (List.mem_of_getLast? hlast)

end Heap

end BetterWebBrowser.Dom
