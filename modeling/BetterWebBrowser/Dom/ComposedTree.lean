import BetterWebBrowser.Dom.ManualSlots
import Mathlib.Data.Bool.Basic
import Mathlib.Data.List.Lex

/-!
# The composed tree

A node of the composed tree comes before its composed children in the order that takes a
shadow tree before the light children of its host: slots stand in the shadow tree and what
they show among the light children. So composed parents lead back to no node.
-/

namespace BetterWebBrowser.Dom

open Framework Relation

namespace Heap

/-- The turns from the root down to a node: into a shadow tree first, to a child later. -/
def treePath (heap : Heap) (id : NodeId) : List Bool :=
  ((heap.inclusiveShadowAncestors id).map fun node => (heap.shadowHost node).isNone).reverse

variable {heap : Heap} {node parent root host slot : NodeId}

namespace WellFormed

theorem ends (wf : heap.WellFormed) (node : NodeId) :
    Walk.Ends heap.shadowIncludingParent heap.allocated.length node :=
  Walk.ends_of_acyclic wf.acyclic wf.allocated le_rfl node

theorem treePath_next (wf : heap.WellFormed) (h : heap.shadowIncludingParent node = some parent) :
    heap.treePath node = heap.treePath parent ++ [(heap.shadowHost node).isNone] := by
  rw [treePath, inclusiveShadowAncestors, (wf.ends node).successors_eq h, List.map_cons, List.reverse_cons]
  rfl

/-- The path to a node goes on from the path to what includes it. -/
theorem treePath_reaches (wf : heap.WellFormed) (h : Walk.Reaches heap.shadowIncludingParent node root) :
    ∃ turns, heap.treePath node = heap.treePath root ++ turns := by
  induction h using ReflTransGen.head_induction_on with
  | refl => exact ⟨[], (List.append_nil _).symm⟩
  | head hfirst _ ih =>
    obtain ⟨turns, hturns⟩ := ih
    exact ⟨turns ++ _, by rw [wf.treePath_next hfirst, hturns, List.append_assoc]⟩

theorem treePath_lt (wf : heap.WellFormed) (h : heap.shadowIncludingParent node = some parent) :
    heap.treePath parent < heap.treePath node := by
  have hlt : ([] : List Bool) < [(heap.shadowHost node).isNone] := List.nil_lt_cons _ _
  rw [wf.treePath_next h]
  simpa using List.append_left_lt hlt

theorem shadowIncludingParent_of_host (wf : heap.WellFormed) (h : heap.shadowHost node = some host) :
    heap.shadowIncludingParent node = some host := by
  rw [shadowIncludingParent, wf.rootParent _ _ h, h]
  rfl

/-- A shadow tree comes before the light children of its host. -/
theorem treePath_shadow_lt (wf : heap.WellFormed) (hparent : heap.parent node = some host)
    (hroot : heap.shadowRoot host = some root) (hslot : Walk.Reaches heap.parent slot root) :
    heap.treePath slot < heap.treePath node := by
  have hhost := wf.hostLinks _ _ hroot
  obtain ⟨turns, hturns⟩ := wf.treePath_reaches (reaches_shadowIncluding hslot)
  have hnode := wf.treePath_next (shadowIncludingParent_of_parent hparent)
  rw [wf.treePath_next (wf.shadowIncludingParent_of_host hhost), hhost] at hturns
  rw [hnode, hturns, wf.shadowHost_of_parent hparent, List.append_assoc]
  apply List.append_left_lt
  show false :: turns < [true]
  exact List.Lex.rel (by decide)

end WellFormed

end Heap

namespace SlotHeap

variable {dom : SlotHeap} {node child parent root : NodeId}

/-! ## Composed parents -/

theorem assignedSlot_of_shadowRoot_none (hparent : dom.parent node = some parent)
    (hshadow : dom.shadowRoot parent = none) : dom.assignedSlot node = none := by
  simp [assignedSlot, hparent, hshadow]

/-- The composed parent comes first. -/
theorem composedParent_lt (wf : dom.WellFormed) (h : dom.composedParent node = some parent) :
    dom.treePath parent < dom.treePath node := by
  rw [composedParent] at h
  split at h
  · rename_i slot hslot
    obtain rfl := Option.some.inj h
    obtain ⟨host, shadow, hhost, hshadow, -, hroot, -⟩ := assignedSlot_cases wf hslot
    exact wf.treePath_shadow_lt hhost hshadow (hroot ▸ dom.reaches_treeRoot slot)
  · split at h
    · rename_i host hhost
      obtain rfl := Option.some.inj h
      exact wf.treePath_lt (wf.shadowIncludingParent_of_host hhost)
    · obtain ⟨direct, hdirect, h⟩ := Option.bind_eq_some_iff.mp h
      have hlt := wf.treePath_lt (Heap.shadowIncludingParent_of_parent hdirect)
      cases hhost : dom.shadowHost direct with
      | none =>
        rw [hhost] at h
        obtain rfl := Option.some.inj h
        exact hlt
      | some host =>
        rw [hhost] at h
        obtain rfl := Option.some.inj h
        exact (wf.treePath_lt (wf.shadowIncludingParent_of_host hhost)).trans hlt

theorem composedParent_acyclic (wf : dom.WellFormed) : Walk.Acyclic (Walk.Next dom.composedParent) :=
  .of_rank dom.treePath fun _ _ h => composedParent_lt wf h

theorem allocated_of_composedParent (wf : dom.WellFormed) (h : dom.composedParent node = some parent) :
    node ∈ dom.allocated := by
  rw [composedParent] at h
  split at h
  · rename_i slot hslot
    obtain ⟨host, -, hhost, -⟩ := assignedSlot_cases wf hslot
    exact wf.allocated _ _ (Heap.shadowIncludingParent_of_parent hhost)
  · split at h
    · rename_i host hhost
      exact wf.allocated _ _ (wf.shadowIncludingParent_of_host hhost)
    · obtain ⟨direct, hdirect, -⟩ := Option.bind_eq_some_iff.mp h
      exact wf.allocated _ _ (Heap.shadowIncludingParent_of_parent hdirect)

/-! ## Composed children -/

/-- The three ways to be a composed child. -/
theorem composedChildren_cases (h : child ∈ dom.composedChildren node) :
    (∃ shadow, dom.shadowRoot node = some shadow ∧ child ∈ dom.children shadow) ∨
      (dom.shadowRoot node = none ∧
        (child ∈ dom.assignedNodes node ∨ child ∈ dom.children node)) := by
  rw [composedChildren] at h
  split at h
  · rename_i shadow hshadow
    exact Or.inl ⟨shadow, hshadow, h⟩
  · rename_i hshadow
    refine Or.inr ⟨hshadow, ?_⟩
    split at h
    · dsimp only at h
      split at h
      · exact Or.inr h
      · exact Or.inl h
    · exact Or.inr h

theorem parent_of_composedChildren (wf : dom.WellFormed) (h : child ∈ dom.composedChildren node) :
    ∃ direct, dom.parent child = some direct := by
  rcases composedChildren_cases h with ⟨shadow, -, hchild⟩ | ⟨-, hchild | hchild⟩
  · exact ⟨shadow, (wf.childLinks _ _).mp hchild⟩
  · obtain ⟨host, -, hhost, -⟩ := assignedSlot_cases wf (assignedSlot_of_mem hchild)
    exact ⟨host, hhost⟩
  · exact ⟨node, (wf.childLinks _ _).mp hchild⟩

/-- Of a node that is not a shadow root, the composed children have it as composed parent. -/
theorem composedParent_of_mem (wf : dom.WellFormed) (hnode : dom.shadowHost node = none)
    (h : child ∈ dom.composedChildren node) : dom.composedParent child = some node := by
  rw [composedParent]
  rcases composedChildren_cases h with ⟨shadow, hshadow, hchild⟩ | ⟨hshadow, hchild | hchild⟩
  · have hparent := (wf.childLinks _ _).mp hchild
    have hhost := wf.hostLinks _ _ hshadow
    have hplain : dom.shadowRoot shadow = none := by
      cases hroot : dom.shadowRoot shadow with
      | none => rfl
      | some inner =>
        rw [Heap.shadowHost_of_shadowRoot hroot] at hhost
        cases hhost
    simp [assignedSlot_of_shadowRoot_none hparent hplain, wf.shadowHost_of_parent hparent, hparent, hhost]
  · rw [assignedSlot_of_mem hchild]
  · have hparent := (wf.childLinks _ _).mp hchild
    simp [assignedSlot_of_shadowRoot_none hparent hshadow, wf.shadowHost_of_parent hparent, hparent, hnode]

theorem assignedNodes_nodup (wf : dom.WellFormed) (hlinks : dom.ManualLinks) (slot : NodeId) :
    (dom.assignedNodes slot).Nodup := by
  have hupgrade : ∀ a b found, found ∈ dom.upgrade a → found ∈ dom.upgrade b → a = b := by
    intro a b found ha hb
    exact (upgrade_eq_some.mp ha).2.symm.trans (upgrade_eq_some.mp hb).2
  rw [assignedNodes]
  split
  · split
    · exact List.nodup_nil
    · rw [directlyAssigned]
      split
      · exact ((hlinks.nodup slot).filterMap hupgrade).filter _
      · exact (wf.childrenNodup _).filter _
  · exact List.nodup_nil

theorem composedChildren_nodup (wf : dom.WellFormed) (hlinks : dom.ManualLinks) (node : NodeId) :
    (dom.composedChildren node).Nodup := by
  rw [composedChildren]
  split
  · exact wf.childrenNodup _
  · split
    · dsimp only
      split
      · exact wf.childrenNodup node
      · exact assignedNodes_nodup wf hlinks node
    · exact wf.childrenNodup node

theorem composedPush_eq (dom : SlotHeap) : dom.composedPush = dom.composedChildren := by
  funext node
  rw [composedPush]
  split
  · rfl
  · rename_i hplain
    simp only [Bool.or_eq_true, not_or, Bool.not_eq_true, Option.isSome_eq_false_iff,
      Option.isNone_iff_eq_none] at hplain
    rw [composedChildren, hplain.1]
    simp [isShadowSlot, hplain.2]

/-! ## Descendants -/

/-- A shadow root shows its children itself, and its host shows them too. -/
theorem composedChildren_of_host {host : NodeId} (hhost : dom.shadowHost node = some host) :
    dom.composedChildren node = dom.children node := by
  have hshadow : dom.shadowRoot node = none := by
    cases hroot : dom.shadowRoot node with
    | none => rfl
    | some inner =>
      rw [Heap.shadowHost_of_shadowRoot hroot] at hhost
      cases hhost
  have hslot : dom.isSlot node = false := by
    cases hslot : dom.isSlot node with
    | false => rfl
    | true =>
      rw [Heap.shadowHost_of_isSlot (eq_of_beq hslot)] at hhost
      cases hhost
  rw [composedChildren, hshadow]
  simp [isShadowSlot, hslot]

theorem composedChildren_lt (wf : dom.WellFormed) (h : child ∈ dom.composedChildren node) :
    dom.treePath node < dom.treePath child := by
  cases hhost : dom.shadowHost node with
  | none => exact composedParent_lt wf (composedParent_of_mem wf hhost h)
  | some host =>
    rw [composedChildren_of_host hhost] at h
    exact wf.treePath_lt (Heap.shadowIncludingParent_of_parent ((wf.childLinks _ _).mp h))

theorem treePath_le_of_below (wf : dom.WellFormed) (h : StackWalk.Below dom.composedChildren root node) :
    dom.treePath root ≤ dom.treePath node := by
  induction h with
  | refl => exact le_refl _
  | tail _ hlast ih => exact ih.trans (composedChildren_lt wf hlast).le

/-- Only the root of a walk can be a shadow root. -/
theorem below_cases (wf : dom.WellFormed) (h : StackWalk.Below dom.composedChildren root node) :
    node = root ∨ dom.shadowHost node = none := by
  rcases ReflTransGen.cases_tail h with rfl | ⟨above, -, hchild⟩
  · exact Or.inl rfl
  · obtain ⟨direct, hdirect⟩ := parent_of_composedChildren wf hchild
    exact Or.inr (wf.shadowHost_of_parent hdirect)

/-- A shadow root and a node below it have no composed child in common. -/
theorem not_shared_with_root (wf : dom.WellFormed) {host : NodeId} (hhost : dom.shadowHost root = some host)
    (hnode : dom.shadowHost node = none) (hbelow : StackWalk.Below dom.composedChildren root node)
    (hroot : child ∈ dom.composedChildren root) : child ∉ dom.composedChildren node := by
  intro hchild
  have hown := composedParent_of_mem wf hnode hchild
  rw [composedChildren_of_host hhost] at hroot
  have hparent := (wf.childLinks _ _).mp hroot
  have hplain : dom.shadowRoot root = none := by
    cases hshadow : dom.shadowRoot root with
    | none => rfl
    | some inner =>
      rw [Heap.shadowHost_of_shadowRoot hshadow] at hhost
      cases hhost
  have hothers : dom.composedParent child = some host := by
    rw [composedParent]
    simp [assignedSlot_of_shadowRoot_none hparent hplain, wf.shadowHost_of_parent hparent, hparent, hhost]
  obtain rfl : node = host := Option.some.inj (hown.symm.trans hothers)
  have hup := wf.treePath_lt (wf.shadowIncludingParent_of_host hhost)
  exact absurd (treePath_le_of_below wf hbelow) (not_le.mpr hup)

theorem composedForest (wf : dom.WellFormed) (hlinks : dom.ManualLinks) (root : NodeId) :
    StackWalk.Forest dom.composedChildren root where
  nodup := fun node _ => composedChildren_nodup wf hlinks node
  acyclic := .of_rank (OrderDual.toDual ∘ dom.treePath) fun _ _ h => composedChildren_lt wf h
  unique := by
    intro p q c hp hq hcp hcq
    cases hroot : dom.shadowHost root with
    | none =>
      have hplain : ∀ node, StackWalk.Below dom.composedChildren root node → dom.shadowHost node = none := by
        intro node hnode
        rcases below_cases wf hnode with rfl | hnone
        · exact hroot
        · exact hnone
      have hown := composedParent_of_mem wf (hplain p hp) hcp
      rw [composedParent_of_mem wf (hplain q hq) hcq] at hown
      exact (Option.some.inj hown).symm
    | some host =>
      rcases below_cases wf hp with rfl | hpnone
      · rcases below_cases wf hq with rfl | hqnone
        · rfl
        · exact absurd hcq (not_shared_with_root wf hroot hqnone hq hcp)
      · rcases below_cases wf hq with rfl | hqnone
        · exact absurd hcp (not_shared_with_root wf hroot hpnone hp hcq)
        · have hown := composedParent_of_mem wf hpnone hcp
          rw [composedParent_of_mem wf hqnone hcq] at hown
          exact (Option.some.inj hown).symm

theorem mem_allocated_of_below (wf : dom.WellFormed) (h : StackWalk.Below dom.composedChildren root node) :
    node ∈ root :: dom.allocated := by
  rcases ReflTransGen.cases_tail h with rfl | ⟨above, -, hchild⟩
  · exact List.mem_cons_self
  · obtain ⟨direct, hdirect⟩ := parent_of_composedChildren wf hchild
    exact List.mem_cons_of_mem _ (wf.allocated _ _ (Heap.shadowIncludingParent_of_parent hdirect))

theorem composedDescendants_ends (wf : dom.WellFormed) (hlinks : dom.ManualLinks) {calls : Nat}
    (hcalls : dom.allocated.length < calls) (root : NodeId) :
    (dom.composedDescendantsIn calls root).2 = [] ∧ (dom.composedDescendantsIn calls root).1.Nodup ∧
      ∀ node, node ∈ (dom.composedDescendantsIn calls root).1 ↔
        StackWalk.Below dom.composedChildren root node := by
  have hforest := composedForest wf hlinks root
  have hend : (dom.composedDescendantsIn calls root).2 = [] := by
    rw [composedDescendantsIn, composedPush_eq]
    exact StackWalk.walk_ends hforest (fun _ h => mem_allocated_of_below wf h) hcalls
  refine ⟨hend, ?_, ?_⟩
  · rw [composedDescendantsIn, composedPush_eq]
    exact StackWalk.walk_nodup hforest
  · rw [composedDescendantsIn, composedPush_eq] at hend ⊢
    exact StackWalk.mem_walk hforest hend

/-! ## Being in the tree -/

theorem isInComposedTree_answers {steps : Nat} (h : Walk.Ends dom.composedParent steps node) :
    ∃ answer, dom.isInComposedTreeIn (steps + 1) node = some answer := by
  induction steps generalizing node with
  | zero =>
    obtain ⟨last, hlast, hnone⟩ := h
    obtain rfl : node = last := Option.some.inj hlast
    rw [isInComposedTreeIn, hnone]
    split
    · exact ⟨true, rfl⟩
    · exact ⟨false, rfl⟩
  | succ steps ih =>
    rw [isInComposedTreeIn]
    split
    · exact ⟨true, rfl⟩
    · cases hnext : dom.composedParent node with
      | none => exact ⟨false, rfl⟩
      | some parent =>
        dsimp only
        split
        · obtain ⟨last, hlast, hnone⟩ := h
          rw [Walk.getLast?_successors_next hnext] at hlast
          exact ih ⟨last, hlast, hnone⟩
        · exact ⟨false, rfl⟩

theorem below_of_isInComposedTree {steps : Nat} (h : dom.isInComposedTreeIn steps node = some true) :
    ∃ document, (dom.data document).isDocument = true ∧ StackWalk.Below dom.composedChildren document node := by
  induction steps generalizing node with
  | zero => cases h
  | succ steps ih =>
    rw [isInComposedTreeIn] at h
    split at h
    · rename_i hdocument
      exact ⟨node, hdocument, .refl⟩
    · split at h
      · cases h
      · split at h
        · rename_i hchild
          obtain ⟨document, hdocument, hbelow⟩ := ih h
          exact ⟨document, hdocument, hbelow.tail hchild⟩
        · cases h

theorem isInComposedTree_of_below (wf : dom.WellFormed) {document : NodeId}
    (hdocument : (dom.data document).isDocument = true)
    (hbelow : StackWalk.Below dom.composedChildren document node) {steps : Nat} {answer : Bool}
    (h : dom.isInComposedTreeIn steps node = some answer) : answer = true := by
  induction hbelow generalizing steps with
  | refl =>
    cases steps with
    | zero => cases h
    | succ steps =>
      rw [isInComposedTreeIn, if_pos hdocument] at h
      exact (Option.some.inj h).symm
  | @tail above node habove hchild ih =>
    cases steps with
    | zero => cases h
    | succ steps =>
      rw [isInComposedTreeIn] at h
      split at h
      · exact (Option.some.inj h).symm
      · have hplain : dom.shadowHost above = none := by
          rcases below_cases wf habove with rfl | hnone
          · rw [Heap.shadowHost]
            cases hdata : dom.data above with
            | shadowRoot data =>
              rw [hdata] at hdocument
              cases hdocument
            | _ => rfl
          · exact hnone
        rw [composedParent_of_mem wf hplain hchild] at h
        dsimp only at h
        have hmem : node ∈ dom.composedChildren above := hchild
        rw [if_pos hmem] at h
        exact ih h

/-- Composed parents and composed children agree, but for shadow roots: these show their own
children, whose composed parent is the host. Walking down visits each node once and comes to
its end, and so does walking up, which finds a document exactly from what it shows. -/
theorem composed_tree (hreach : dom.Reachable) (wf : dom.WellFormed) {steps : Nat}
    (hsteps : dom.allocated.length < steps) :
    (∀ p c, dom.shadowHost p = none → c ∈ dom.composedChildren p → dom.composedParent c = some p) ∧
      (∀ p, (dom.composedChildren p).Nodup) ∧
      (∀ p q c, dom.shadowHost p = none → dom.shadowHost q = none → c ∈ dom.composedChildren p →
        c ∈ dom.composedChildren q → p = q) ∧
      (∀ root, (dom.composedDescendantsIn steps root).2 = [] ∧ (dom.composedDescendantsIn steps root).1.Nodup) ∧
      ∀ n, ∃ answer, dom.isInComposedTreeIn steps n = some answer ∧
        (answer = true ↔ ∃ document, (dom.data document).isDocument = true ∧
          n ∈ (dom.composedDescendantsIn steps document).1) := by
  have hlinks := hreach.links
  refine ⟨fun p c hp h => composedParent_of_mem wf hp h, composedChildren_nodup wf hlinks, ?_, ?_, ?_⟩
  · intro p q c hp hq hcp hcq
    have hown := composedParent_of_mem wf hp hcp
    rw [composedParent_of_mem wf hq hcq] at hown
    exact (Option.some.inj hown).symm
  · intro root
    obtain ⟨hend, hnodup, -⟩ := composedDescendants_ends wf hlinks hsteps root
    exact ⟨hend, hnodup⟩
  · intro n
    obtain ⟨fuel, rfl⟩ : ∃ fuel, steps = fuel + 1 := ⟨steps - 1, by omega⟩
    have hends : Walk.Ends dom.composedParent fuel n :=
      Walk.ends_of_acyclic (composedParent_acyclic wf) (fun _ _ h => allocated_of_composedParent wf h)
        (Nat.le_of_lt_succ hsteps) n
    obtain ⟨answer, hanswer⟩ := isInComposedTree_answers hends
    refine ⟨answer, hanswer, ?_⟩
    constructor
    · rintro rfl
      obtain ⟨document, hdocument, hbelow⟩ := below_of_isInComposedTree hanswer
      exact ⟨document, hdocument, ((composedDescendants_ends wf hlinks hsteps document).2.2 n).mpr hbelow⟩
    · rintro ⟨document, hdocument, hmem⟩
      have hbelow := ((composedDescendants_ends wf hlinks hsteps document).2.2 n).mp hmem
      exact isInComposedTree_of_below wf hdocument hbelow hanswer

/-! A document with a host, which has a paragraph and a shadow tree of one slot. -/

private def plainElement (shadowRoot : Option NodeId) (tag : String) : NodeData :=
  .element ⟨⟨none, "http://www.w3.org/1999/xhtml".toList, tag.toList⟩, [], none, shadowRoot, false⟩

private def namedRoot : NodeData :=
  .shadowRoot ⟨⟨1, 1⟩, .opened, false, true, false, false, false, false, false, false⟩

private def hostedNode (id : NodeId) : Node :=
  if id = ⟨1, 0⟩ then ⟨none, [⟨1, 1⟩], .document, 0, 0⟩
  else if id = ⟨1, 1⟩ then ⟨some ⟨1, 0⟩, [⟨1, 4⟩], plainElement (some ⟨1, 2⟩) "div", 0, 0⟩
  else if id = ⟨1, 2⟩ then ⟨none, [⟨1, 3⟩], namedRoot, 0, 0⟩
  else if id = ⟨1, 3⟩ then ⟨some ⟨1, 2⟩, [], plainElement none "slot", 0, 0⟩
  else if id = ⟨1, 4⟩ then ⟨some ⟨1, 1⟩, [], plainElement none "p", 0, 0⟩
  else .isolated .document

private def hosted : SlotHeap :=
  initial ⟨[⟨1, 0⟩, ⟨1, 1⟩, ⟨1, 2⟩, ⟨1, 3⟩, ⟨1, 4⟩], hostedNode, fun _ => ⟨5, 0⟩⟩

private def hostedLinks : List (NodeId × NodeId) :=
  [(⟨1, 1⟩, ⟨1, 0⟩), (⟨1, 3⟩, ⟨1, 2⟩), (⟨1, 4⟩, ⟨1, 1⟩)]

private theorem hosted_parent (id parent : NodeId) :
    hosted.parent id = some parent ↔ (id, parent) ∈ hostedLinks := by
  simp only [hostedLinks, Heap.parent, hosted, initial, hostedNode]
  split_ifs <;> simp_all [Node.isolated, eq_comm]

private theorem hosted_children (id parent : NodeId) :
    id ∈ hosted.children parent ↔ (id, parent) ∈ hostedLinks := by
  simp only [hostedLinks, Heap.children, hosted, initial, hostedNode]
  split_ifs <;> simp_all [Node.isolated, eq_comm]

private theorem hosted_shadowHost (id host : NodeId) : hosted.shadowHost id = some host ↔ id = ⟨1, 2⟩ ∧ host = ⟨1, 1⟩ := by
  simp only [Heap.shadowHost, Heap.data, hosted, initial, hostedNode]
  split_ifs <;> simp_all [Node.isolated, plainElement, namedRoot, eq_comm]

private theorem hosted_shadowRoot (id root : NodeId) : hosted.shadowRoot id = some root ↔ id = ⟨1, 1⟩ ∧ root = ⟨1, 2⟩ := by
  simp only [Heap.shadowRoot, Heap.element, Heap.data, hosted, initial, hostedNode]
  split_ifs <;> simp_all [Node.isolated, plainElement, namedRoot, eq_comm]

private theorem hosted_shadowIncludingParent {id next : NodeId}
    (h : hosted.shadowIncludingParent id = some next) :
    (id, next) ∈ hostedLinks ∨ id = ⟨1, 2⟩ ∧ next = ⟨1, 1⟩ := by
  rw [Heap.shadowIncludingParent] at h
  cases hparent : hosted.parent id with
  | some parent =>
    rw [hparent] at h
    obtain rfl := Option.some.inj h
    exact Or.inl ((hosted_parent id parent).mp hparent)
  | none =>
    rw [hparent] at h
    exact Or.inr ((hosted_shadowHost id next).mp h)

private theorem hosted_wellFormed : hosted.WellFormed where
  childLinks := fun parent child => (hosted_children child parent).trans (hosted_parent child parent).symm
  childrenNodup := by
    intro parent
    simp only [Heap.children, hosted, initial, hostedNode]
    split_ifs <;> simp [Node.isolated]
  hostLinks := by
    intro host root h
    obtain ⟨rfl, rfl⟩ := (hosted_shadowRoot _ _).mp h
    rfl
  rootParent := by
    intro root host h
    obtain ⟨rfl, rfl⟩ := (hosted_shadowHost _ _).mp h
    rfl
  acyclic := by
    apply Walk.Acyclic.of_rank NodeId.serial
    intro id next h
    rcases hosted_shadowIncludingParent h with h | ⟨rfl, rfl⟩
    · simp only [hostedLinks, List.mem_cons, Prod.mk.injEq, List.not_mem_nil, or_false] at h
      rcases h with ⟨rfl, rfl⟩ | ⟨rfl, rfl⟩ | ⟨rfl, rfl⟩ <;> decide
    · decide
  allocated := by
    intro id next h
    rcases hosted_shadowIncludingParent h with h | ⟨rfl, rfl⟩
    · simp only [hostedLinks, List.mem_cons, Prod.mk.injEq, List.not_mem_nil, or_false] at h
      rcases h with ⟨rfl, rfl⟩ | ⟨rfl, rfl⟩ | ⟨rfl, rfl⟩ <;> decide
    · decide

theorem composed_tree_sample :
    hosted.composedParent ⟨1, 4⟩ = some ⟨1, 3⟩ ∧ (hosted.composedDescendantsIn 6 ⟨1, 0⟩).2 = [] ∧
      ∃ answer, hosted.isInComposedTreeIn 6 ⟨1, 4⟩ = some answer ∧
        (answer = true ↔ ∃ document, (hosted.data document).isDocument = true ∧
          ⟨1, 4⟩ ∈ (hosted.composedDescendantsIn 6 document).1) := by
  have hreach : hosted.Reachable := ⟨hosted.toHeap, .refl⟩
  have hsteps : hosted.allocated.length < 6 := by decide
  obtain ⟨hparents, -, -, hends, hanswers⟩ := composed_tree hreach hosted_wellFormed hsteps
  exact ⟨hparents ⟨1, 3⟩ ⟨1, 4⟩ (by decide) (by decide), (hends ⟨1, 0⟩).1, hanswers ⟨1, 4⟩⟩

/-- The child of a shadow root is its composed child, but has the host as composed parent. -/
theorem shadow_root_shows_children :
    hosted.WellFormed ∧ ⟨1, 3⟩ ∈ hosted.composedChildren ⟨1, 2⟩ ∧
      hosted.composedParent ⟨1, 3⟩ = some ⟨1, 1⟩ ∧ ⟨1, 3⟩ ∈ hosted.composedChildren ⟨1, 1⟩ :=
  ⟨hosted_wellFormed, by decide, by decide, by decide⟩

end SlotHeap

end BetterWebBrowser.Dom
