import BetterWebBrowser.Framework.Transition
import BetterWebBrowser.Rendering.PendingInvalidation

/-!
# Coverage

A recorded mutation has a scope: a subtree, a child list or a bounded change of one element. The
scopes that a realm recorded are covered by the invalidation that it hands out, and merging two
invalidations keeps what either of them covers.
-/

namespace BetterWebBrowser.Rendering

open Framework Dom

/-- The links lead to a document, and back to no node. -/
structure DocumentTree (heap : Heap) (document : NodeId) : Prop where
  acyclic : Walk.Acyclic (Walk.Next heap.shadowIncludingParent)
  allocated : ∀ node parent, heap.shadowIncludingParent node = some parent → node ∈ heap.allocated
  isDocument : heap.data document = .document
  isRoot : heap.shadowIncludingParent document = none

/-- `node` lies in the shadow-including subtree of `root`. -/
def Below (heap : Heap) (node root : NodeId) : Prop := Walk.Reaches heap.shadowIncludingParent node root

/-- What one mutation may change on the screen. -/
inductive Scope
  | full (node : NodeId)
  | childList (parent : NodeId)
  | bounded (target : NodeId) (tokens names : List Str)
deriving DecidableEq

namespace Scope

def node : Scope → NodeId
  | full node => node
  | childList parent => parent
  | bounded target _ _ => target

variable (heap : Heap) (document : NodeId)

/-- Where the element of a bounded change is restyled from if its change is not listed. -/
def parentOrDocument (target : NodeId) : NodeId := (heap.shadowIncludingParent target).getD document

/-- One of the roots covers the node. -/
def Under (roots : List NodeId) (node : NodeId) : Prop := ∃ root ∈ roots, Below heap node root

def Listed (changes : List AttributeChange) (target : NodeId) (tokens names : List Str) : Prop :=
  ∃ change ∈ changes, change.node = target ∧ tokens ⊆ change.tokens ∧ names ⊆ change.attributes

/-- An invalidation covers a scope. -/
def Covered (invalidation : RenderInvalidation) : Scope → Prop
  | full node => Under heap invalidation.fullRoots node
  | childList parent =>
    Under heap invalidation.fullRoots parent ∨
      parent ∈ invalidation.roots ∧ parent ∈ invalidation.childListRoots
  | bounded target tokens names =>
    Listed invalidation.attributeChanges target tokens names ∨
      Under heap invalidation.fullRoots (parentOrDocument heap document target)

end Scope

/-! ## The tree -/

namespace DocumentTree

variable {heap : Heap} {document node root parent : NodeId}

theorem ends (tree : DocumentTree heap document) (node : NodeId) :
    Walk.Ends heap.shadowIncludingParent heap.allocated.length node :=
  Walk.ends_of_acyclic tree.acyclic tree.allocated le_rfl node

theorem isDescendantOf_iff (tree : DocumentTree heap document) :
    isDescendantOf heap node root = true ↔ Below heap node root := by
  rw [isDescendantOf, List.any_eq_true, Below, ← (tree.ends node).mem_iff]
  constructor
  · rintro ⟨found, hmem, heq⟩
    rw [← eq_of_beq heq]
    exact hmem
  · intro hmem
    exact ⟨root, hmem, beq_self_eq_true root⟩

theorem coveredBy_iff (tree : DocumentTree heap document) {roots : List NodeId} :
    coveredBy heap roots node = true ↔ Scope.Under heap roots node := by
  simp only [coveredBy, List.any_eq_true, Scope.Under, tree.isDescendantOf_iff]

theorem isConnected (tree : DocumentTree heap document) (h : Below heap node document) :
    isConnected heap node = true := by
  have hlast := (tree.ends node).getLast? h tree.isRoot
  rw [Rendering.isConnected, Heap.shadowIncludingRoot, Heap.inclusiveShadowAncestors,
    List.getLastD_eq_getLast?, hlast, Option.getD_some, tree.isDocument]
  rfl

theorem below_parent (tree : DocumentTree heap document) (h : Below heap node document)
    (hparent : heap.shadowIncludingParent node = some parent) : Below heap parent document :=
  Walk.reaches_of_reaches (.single hparent) h tree.isRoot

theorem below_parentOrDocument (tree : DocumentTree heap document) (h : Below heap node document) :
    Below heap (Scope.parentOrDocument heap document node) document := by
  rw [Scope.parentOrDocument]
  cases hparent : heap.shadowIncludingParent node with
  | none => exact .refl
  | some parent => exact tree.below_parent h hparent

end DocumentTree

/-! ## Merged attribute changes -/

theorem listed_mergeAttributeChange {changes : List AttributeChange} (change : AttributeChange)
    {target : NodeId} {tokens names : List Str} (h : Scope.Listed changes target tokens names) :
    Scope.Listed (mergeAttributeChange changes change) target tokens names := by
  obtain ⟨listed, hmem, hnode, htokens, hnames⟩ := h
  induction changes with
  | nil => cases hmem
  | cons existing changes ih =>
    rw [mergeAttributeChange]
    split
    · rcases List.mem_cons.mp hmem with rfl | hmem
      · refine ⟨listed.extend change, List.mem_cons_self, hnode, ?_, ?_⟩
        · intro token htoken
          rw [AttributeChange.extend, mem_sortDedup, List.mem_append]
          exact .inl (htokens htoken)
        · intro name hname
          rw [AttributeChange.extend, mem_sortDedup, List.mem_append]
          exact .inl (hnames hname)
      · exact ⟨listed, List.mem_cons_of_mem _ hmem, hnode, htokens, hnames⟩
    · rcases List.mem_cons.mp hmem with rfl | hmem
      · exact ⟨listed, List.mem_cons_self, hnode, htokens, hnames⟩
      · obtain ⟨found, hfound, hrest⟩ := ih hmem
        exact ⟨found, List.mem_cons_of_mem _ hfound, hrest⟩

theorem listed_self_mergeAttributeChange (changes : List AttributeChange) (change : AttributeChange) :
    Scope.Listed (mergeAttributeChange changes change) change.node change.tokens change.attributes := by
  induction changes with
  | nil => exact ⟨change, List.mem_singleton_self change, rfl, List.Subset.refl _, List.Subset.refl _⟩
  | cons existing changes ih =>
    rw [mergeAttributeChange]
    split
    · rename_i hnode
      refine ⟨existing.extend change, List.mem_cons_self, hnode, ?_, ?_⟩
      · intro token htoken
        rw [AttributeChange.extend, mem_sortDedup, List.mem_append]
        exact .inr htoken
      · intro name hname
        rw [AttributeChange.extend, mem_sortDedup, List.mem_append]
        exact .inr hname
    · obtain ⟨found, hfound, hrest⟩ := ih
      exact ⟨found, List.mem_cons_of_mem _ hfound, hrest⟩

theorem listed_foldl {changes : List AttributeChange} (others : List AttributeChange) {target : NodeId}
    {tokens names : List Str}
    (h : Scope.Listed changes target tokens names ∨ Scope.Listed others target tokens names) :
    Scope.Listed (others.foldl mergeAttributeChange changes) target tokens names := by
  induction others generalizing changes with
  | nil =>
    rcases h with h | ⟨change, hmem, -⟩
    · exact h
    · cases hmem
  | cons other others ih =>
    rw [List.foldl_cons]
    apply ih
    rcases h with h | ⟨change, hmem, hnode, htokens, hnames⟩
    · exact .inl (listed_mergeAttributeChange other h)
    · rcases List.mem_cons.mp hmem with rfl | hmem
      · obtain ⟨found, hfound, heq, hfoundTokens, hfoundNames⟩ :=
          listed_self_mergeAttributeChange changes change
        exact .inl ⟨found, hfound, heq.trans hnode, List.Subset.trans htokens hfoundTokens,
          List.Subset.trans hnames hfoundNames⟩
      · exact .inr ⟨change, hmem, hnode, htokens, hnames⟩

/-! ## Merging -/

namespace RenderInvalidation

variable {heap : Heap} {document root : NodeId} {self other : RenderInvalidation} {scope : Scope}

theorem mem_fullRoots :
    root ∈ self.fullRoots ↔ root ∈ self.roots ∧ root ∉ self.childListRoots ∧ root ∉ self.elementRoots := by
  simp [fullRoots, List.mem_filter]

/-- What is a full root on one side is one after the merge. -/
theorem mem_fullRoots_mergeRoots (h : root ∈ self.fullRoots ∨ root ∈ other.fullRoots) :
    root ∈ (self.mergeRoots other).fullRoots := by
  have hfull : (self.fullRoots ++ other.fullRoots).contains root = true := by
    rw [List.contains_iff_mem, List.mem_append]
    exact h
  rw [mem_fullRoots]
  refine ⟨?_, ?_, ?_⟩
  · rw [mergeRoots, mem_sortDedup, List.mem_append]
    exact h.imp (fun h => (mem_fullRoots.mp h).1) fun h => (mem_fullRoots.mp h).1
  · rw [mergeRoots, mem_sortDedup, List.mem_filter, hfull]
    simp
  · rw [mergeRoots, mem_sortDedup, List.mem_filter, hfull]
    simp

/-- What is a child-list root on one side is one after the merge, or a full root. -/
theorem mem_childListRoots_mergeRoots
    (h : root ∈ self.roots ∧ root ∈ self.childListRoots ∨ root ∈ other.roots ∧ root ∈ other.childListRoots) :
    root ∈ (self.mergeRoots other).fullRoots ∨
      root ∈ (self.mergeRoots other).roots ∧ root ∈ (self.mergeRoots other).childListRoots := by
  by_cases hfull : root ∈ self.fullRoots ∨ root ∈ other.fullRoots
  · exact .inl (mem_fullRoots_mergeRoots hfull)
  · right
    constructor
    · rw [mergeRoots, mem_sortDedup, List.mem_append]
      exact h.imp And.left And.left
    · rw [mergeRoots, mem_sortDedup, List.mem_filter, List.mem_append]
      refine ⟨h.imp And.right And.right, ?_⟩
      rw [Bool.not_eq_true', ← Bool.not_eq_true, List.contains_iff_mem, List.mem_append]
      exact hfull

theorem under_mergeRoots {node : NodeId}
    (h : Scope.Under heap self.fullRoots node ∨ Scope.Under heap other.fullRoots node) :
    Scope.Under heap (self.mergeRoots other).fullRoots node := by
  rcases h with ⟨root, hmem, hbelow⟩ | ⟨root, hmem, hbelow⟩
  · exact ⟨root, mem_fullRoots_mergeRoots (.inl hmem), hbelow⟩
  · exact ⟨root, mem_fullRoots_mergeRoots (.inr hmem), hbelow⟩

theorem covered_mergeRoots
    (h : Scope.Covered heap document self scope ∨ Scope.Covered heap document other scope) :
    Scope.Covered heap document (self.mergeRoots other) scope := by
  cases scope with
  | full node => exact under_mergeRoots h
  | childList parent =>
    have hcases : (Scope.Under heap self.fullRoots parent ∨ Scope.Under heap other.fullRoots parent) ∨
        (parent ∈ self.roots ∧ parent ∈ self.childListRoots ∨
          parent ∈ other.roots ∧ parent ∈ other.childListRoots) := by
      rcases h with (h | h) | (h | h)
      · exact .inl (.inl h)
      · exact .inr (.inl h)
      · exact .inl (.inr h)
      · exact .inr (.inr h)
    rcases hcases with hunder | hroot
    · exact .inl (under_mergeRoots hunder)
    · rcases mem_childListRoots_mergeRoots hroot with hfull | hroot
      · exact .inl ⟨parent, hfull, .refl⟩
      · exact .inr hroot
  | bounded target tokens names =>
    rcases h with (h | h) | (h | h)
    · exact .inl (listed_foldl _ (.inl h))
    · exact .inr (under_mergeRoots (.inl h))
    · exact .inl (listed_foldl _ (.inr h))
    · exact .inr (under_mergeRoots (.inr h))

/-- The document covers every scope in its tree. -/
theorem covered_document (tree : DocumentTree heap document) (hfull : document ∈ self.fullRoots)
    (hbelow : Below heap scope.node document) : Scope.Covered heap document self scope := by
  cases scope with
  | full node => exact ⟨document, hfull, hbelow⟩
  | childList parent => exact .inl ⟨document, hfull, hbelow⟩
  | bounded target tokens names => exact .inr ⟨document, hfull, tree.below_parentOrDocument hbelow⟩

theorem covered_limitRoots (tree : DocumentTree heap document) (limit : Nat)
    (hbelow : Below heap scope.node document) (h : Scope.Covered heap document self scope) :
    Scope.Covered heap document (self.limitRoots document limit) scope := by
  rw [limitRoots]
  split
  · apply covered_document tree _ hbelow
    simp [mem_fullRoots]
  · exact h

theorem not_covered_of_isEmpty (hempty : self.isEmpty = true) : ¬ Scope.Covered heap document self scope := by
  rw [isEmpty, Bool.and_eq_true, List.isEmpty_iff, List.isEmpty_iff] at hempty
  cases scope <;> simp [Scope.Covered, Scope.Under, Scope.Listed, mem_fullRoots, hempty.1, hempty.2]

/-- Merging keeps what either side covers. -/
theorem covered_merge (tree : DocumentTree heap document) (limit : Nat)
    (hbelow : Below heap scope.node document)
    (h : Scope.Covered heap document self scope ∨ Scope.Covered heap document other scope) :
    Scope.Covered heap document (self.mergeWithRootLimit other document limit) scope := by
  rw [mergeWithRootLimit]
  split
  · rename_i hempty
    exact h.resolve_right (not_covered_of_isEmpty hempty)
  · split
    · rename_i hempty
      exact h.resolve_left (not_covered_of_isEmpty hempty)
    · have hlimit := covered_limitRoots tree limit hbelow (covered_mergeRoots h)
      cases scope <;> exact hlimit

end RenderInvalidation

end BetterWebBrowser.Rendering
