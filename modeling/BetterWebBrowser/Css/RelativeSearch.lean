import BetterWebBrowser.Css.SelectorMatch
import BetterWebBrowser.Dom.Trees

/-!
# What the combinators lead to

A chain of combinators goes from an element to an anchor. Where the element is as seen from the
anchor follows from the kinds of the combinators, and so does the search that visits it.
-/

namespace BetterWebBrowser.Css

open Framework Dom Relation

variable {heap : Heap} {node anchor element parent sibling : NodeId}

/-! ## Siblings -/

theorem idxOf?_around {before after : List NodeId} (h : node ∉ before) :
    (before ++ node :: after).idxOf? node = some before.length := by
  induction before with
  | nil => simp [List.idxOf?_cons]
  | cons first before ih =>
    rw [List.mem_cons, not_or] at h
    have hne : (first == node) = false := by simpa using Ne.symm h.1
    rw [List.cons_append, List.idxOf?_cons, hne, ih h.2]
    rfl

section Split

variable {before after : List NodeId}

theorem not_mem_before (trees : heap.NodeTrees) (hsplit : heap.children parent = before ++ node :: after) :
    node ∉ before := by
  intro hmem
  have hnodup := trees.childrenNodup parent
  rw [hsplit] at hnodup
  exact (List.nodup_append.mp hnodup).2.2 node hmem node (by simp) rfl

theorem parent_of_split (trees : heap.NodeTrees) (hsplit : heap.children parent = before ++ node :: after) :
    heap.parent node = some parent := by
  apply (trees.childLinks parent node).mp
  rw [hsplit]
  simp

theorem following_of_split (trees : heap.NodeTrees) (hsplit : heap.children parent = before ++ node :: after) :
    following heap node = after.filter (isElement heap) := by
  have hindex : (before ++ node :: after).idxOf? node = _ := idxOf?_around (not_mem_before trees hsplit)
  simp [following, parent_of_split trees hsplit, hsplit, hindex]

theorem previous_of_split (trees : heap.NodeTrees) (hsplit : heap.children parent = before ++ node :: after) :
    previousElementSiblings heap node = before.reverse.filter (isElement heap) := by
  have hindex : (before ++ node :: after).idxOf? node = _ := idxOf?_around (not_mem_before trees hsplit)
  simp [previousElementSiblings, parent_of_split trees hsplit, hsplit, hindex]

end Split

theorem exists_split (trees : heap.NodeTrees) (h : heap.parent node = some parent) :
    ∃ before after, heap.children parent = before ++ node :: after := by
  obtain ⟨before, after, hsplit, -⟩ := List.eq_append_cons_of_mem ((trees.childLinks parent node).mpr h)
  exact ⟨before, after, hsplit⟩

theorem parent_of_mem_following (trees : heap.NodeTrees) (h : sibling ∈ following heap node) :
    ∃ parent, heap.parent node = some parent ∧ heap.parent sibling = some parent := by
  cases hparent : heap.parent node with
  | none =>
    rw [following, hparent] at h
    cases h
  | some parent =>
    obtain ⟨before, after, hsplit⟩ := exists_split trees hparent
    rw [following_of_split trees hsplit] at h
    have hmem : sibling ∈ heap.children parent := by
      rw [hsplit]
      simp [List.mem_of_mem_filter h]
    exact ⟨parent, rfl, (trees.childLinks parent sibling).mp hmem⟩

theorem following_trans (trees : heap.NodeTrees) (h : sibling ∈ following heap node)
    (hnext : element ∈ following heap sibling) : element ∈ following heap node := by
  obtain ⟨parent, hparent, -⟩ := parent_of_mem_following trees h
  obtain ⟨before, after, hsplit⟩ := exists_split trees hparent
  rw [following_of_split trees hsplit] at h ⊢
  obtain ⟨between, later, rfl⟩ := List.append_of_mem (List.mem_of_mem_filter h)
  have hsibling : heap.children parent = (before ++ node :: between) ++ sibling :: later := by simpa using hsplit
  rw [following_of_split trees hsibling, List.mem_filter] at hnext
  simp [hnext]

theorem following_nodup (trees : heap.NodeTrees) (node : NodeId) : (following heap node).Nodup := by
  cases hparent : heap.parent node with
  | none =>
    rw [following, hparent]
    exact List.nodup_nil
  | some parent =>
    obtain ⟨before, after, hsplit⟩ := exists_split trees hparent
    have hnodup := trees.childrenNodup parent
    rw [hsplit] at hnodup
    rw [following_of_split trees hsplit]
    exact (List.nodup_cons.mp hnodup.of_append_right).2.filter _

/-- What follows a sibling before an element: those between them, the element and what follows it. -/
theorem following_of_previous (trees : heap.NodeTrees) (helement : isElement heap node = true)
    {nearer farther : List NodeId} (h : previousElementSiblings heap node = nearer ++ sibling :: farther) :
    following heap sibling = nearer.reverse ++ node :: following heap node := by
  cases hparent : heap.parent node with
  | none =>
    rw [previousElementSiblings, hparent] at h
    simp at h
  | some parent =>
    obtain ⟨before, after, hsplit⟩ := exists_split trees hparent
    rw [previous_of_split trees hsplit, List.filter_reverse, List.reverse_eq_iff, List.reverse_append,
      List.reverse_cons, List.append_assoc, List.singleton_append] at h
    obtain ⟨left, right, rfl, -, hright⟩ := List.filter_eq_append_iff.mp h
    obtain ⟨skipped, between, rfl, hskipped, -, hbetween⟩ := List.filter_eq_cons_iff.mp hright
    have hsibling : heap.children parent = (left ++ skipped) ++ sibling :: (between ++ node :: after) := by
      simpa using hsplit
    rw [following_of_split trees hsibling, following_of_split trees hsplit, List.filter_append,
      List.filter_cons_of_pos helement, hbetween]

/-- The siblings of an element that a combinator leads to. -/
def Combinator.isSibling : Combinator → Bool
  | .AdjacentSibling => true
  | .GeneralSibling => true
  | _ => false

/-- A sibling combinator goes back over some elements, and an adjacent one over one. -/
theorem following_of_leftward (trees : heap.NodeTrees) (helement : isElement heap node = true)
    {combinator : Combinator} (hkind : combinator.isSibling = true) (h : sibling ∈ leftward heap node combinator) :
    ∃ between, following heap sibling = between ++ node :: following heap node ∧
      (combinator = .AdjacentSibling → between = []) := by
  cases combinator with
  | Child => cases hkind
  | Descendant => cases hkind
  | GeneralSibling =>
    obtain ⟨nearer, farther, hsplit⟩ := List.append_of_mem h
    exact ⟨nearer.reverse, following_of_previous trees helement hsplit, nofun⟩
  | AdjacentSibling =>
    cases hprevious : previousElementSiblings heap node with
    | nil =>
      rw [leftward, hprevious] at h
      cases h
    | cons nearest farther =>
      rw [leftward, hprevious, List.take_succ_cons, List.take_zero, List.mem_singleton] at h
      subst h
      have hnone : previousElementSiblings heap node = [] ++ sibling :: farther := hprevious
      exact ⟨[], following_of_previous trees helement hnone, fun _ => rfl⟩

/-! ## Chains -/

/-- The combinators, the last one first, lead from an element to an anchor over elements. -/
def Leads (heap : Heap) : List Combinator → NodeId → NodeId → Prop
  | [], element, anchor => element = anchor
  | combinator :: combinators, element, anchor =>
    ∃ next ∈ leftward heap element combinator, isElement heap next = true ∧ Leads heap combinators next anchor

theorem leads_append {combinators later : List Combinator} :
    Leads heap (later ++ combinators) element anchor ↔
      ∃ node, Leads heap later element node ∧ Leads heap combinators node anchor := by
  induction later generalizing element with
  | nil => simp [Leads]
  | cons combinator later ih =>
    rw [List.cons_append, Leads]
    simp only [ih, Leads]
    constructor
    · rintro ⟨next, hnext, helement, node, hlater, hrest⟩
      exact ⟨node, ⟨next, hnext, helement, hlater⟩, hrest⟩
    · rintro ⟨node, ⟨next, hnext, helement, hlater⟩, hrest⟩
      exact ⟨next, hnext, helement, node, hlater, hrest⟩

theorem isElement_of_matchesAt {tests : List Test} {combinators : List Combinator} {scope : Option NodeId}
    (hTests : ∀ test ∈ tests, ∀ node scope, test node scope = true → isElement heap node = true)
    (h : matchesAt heap tests combinators element scope = true) : isElement heap element = true := by
  cases tests with
  | nil => cases h
  | cons test tests =>
    apply hTests test (by simp) element scope
    cases tests with
    | nil => exact h
    | cons previous tests =>
      cases combinators with
      | nil => cases h
      | cons combinator combinators =>
        rw [matchesAt, Bool.and_eq_true] at h
        exact h.1

theorem isElement_of_leads {combinators : List Combinator} (helement : isElement heap element = true)
    (h : Leads heap combinators element anchor) : isElement heap anchor = true := by
  induction combinators generalizing element with
  | nil =>
    rw [Leads] at h
    rwa [← h]
  | cons combinator combinators ih =>
    obtain ⟨next, -, hnext, hrest⟩ := h
    exact ih hnext hrest

/-- A selector matches where its combinators lead to a match of its first compound. -/
theorem leads_of_matchesAt {tests : List Test} {combinators : List Combinator} {scope : Option NodeId}
    (hlength : tests.length = combinators.length + 1)
    (hTests : ∀ test ∈ tests, ∀ node scope, test node scope = true → isElement heap node = true)
    (h : matchesAt heap tests combinators element scope = true) :
    ∃ anchor, Leads heap combinators element anchor ∧
      ∃ test, tests.getLast? = some test ∧ test anchor scope = true := by
  induction combinators generalizing tests element with
  | nil =>
    obtain ⟨test, rfl⟩ := List.length_eq_one_iff.mp hlength
    exact ⟨element, rfl, test, rfl, h⟩
  | cons combinator combinators ih =>
    obtain ⟨test, tests, rfl⟩ := List.exists_cons_of_length_eq_add_one hlength
    obtain ⟨previous, tests, rfl⟩ := List.exists_cons_of_length_eq_add_one (Nat.succ.inj hlength)
    rw [matchesAt, Bool.and_eq_true, List.any_eq_true] at h
    obtain ⟨-, next, hnext, hmatches⟩ := h
    have hrest : ∀ test ∈ previous :: tests, ∀ node scope, test node scope = true → isElement heap node = true :=
      fun test hmem => hTests test (List.mem_cons_of_mem _ hmem)
    obtain ⟨anchor, hleads, first, hfirst, hanchor⟩ := ih (Nat.succ.inj hlength) hrest hmatches
    refine ⟨anchor, ⟨next, hnext, isElement_of_matchesAt hrest hmatches, hleads⟩, first, ?_, hanchor⟩
    rw [List.getLast?_cons_cons]
    exact hfirst

/-- Sibling combinators lead to a sibling so many elements before, or more. -/
theorem siblings_of_leads (trees : heap.NodeTrees) {combinators : List Combinator}
    (hkinds : ∀ combinator ∈ combinators, combinator.isSibling = true) (helement : isElement heap element = true)
    (h : Leads heap combinators element anchor) :
    ∃ between, anchor :: following heap anchor = between ++ element :: following heap element ∧
      combinators.length ≤ between.length ∧
      ((∀ combinator ∈ combinators, combinator = .AdjacentSibling) → between.length = combinators.length) := by
  induction combinators generalizing element with
  | nil =>
    rw [Leads] at h
    exact ⟨[], by rw [h]; rfl, le_rfl, fun _ => rfl⟩
  | cons combinator combinators ih =>
    obtain ⟨next, hnext, hnextElement, hrest⟩ := h
    obtain ⟨between, hbetween, hlength, hadjacent⟩ :=
      ih (fun other hmem => hkinds other (List.mem_cons_of_mem _ hmem)) hnextElement hrest
    obtain ⟨skipped, hskipped, hone⟩ :=
      following_of_leftward trees helement (hkinds combinator (by simp)) hnext
    refine ⟨between ++ next :: skipped, ?_, ?_, ?_⟩
    · rw [hbetween, hskipped]
      simp
    · simp only [List.length_append, List.length_cons]
      omega
    · intro hall
      rw [hone (hall combinator (by simp)), List.length_append,
        hadjacent fun other hmem => hall other (List.mem_cons_of_mem _ hmem)]
      rfl

/-- What a chain starts from is at or below the node that it leads to, or one of those after it. -/
theorem below_of_leads (trees : heap.NodeTrees) {combinators : List Combinator} (helement : isElement heap element = true)
    (h : Leads heap combinators element anchor) :
    ∃ sibling ∈ anchor :: following heap anchor, Walk.Reaches heap.parent element sibling := by
  induction combinators generalizing element with
  | nil =>
    rw [Leads] at h
    exact ⟨anchor, by simp, by rw [h]; exact .refl⟩
  | cons combinator combinators ih =>
    obtain ⟨next, hnext, hnextElement, hrest⟩ := h
    obtain ⟨sibling, hsibling, hreach⟩ := ih hnextElement hrest
    cases hkind : combinator.isSibling with
    | false =>
      have hup : Walk.Reaches heap.parent element next := by
        cases combinator with
        | Child =>
          have hparent : heap.parent element = some next := by simpa [leftward] using hnext
          exact .single hparent
        | Descendant =>
          obtain ⟨parent, hparent, hreach⟩ := trees.mem_ancestors.mp hnext
          exact .head hparent hreach
        | AdjacentSibling => cases hkind
        | GeneralSibling => cases hkind
      exact ⟨sibling, hsibling, hup.trans hreach⟩
    | true =>
      obtain ⟨skipped, hskipped, -⟩ := following_of_leftward trees helement hkind hnext
      have hmem : element ∈ following heap next := by
        rw [hskipped]
        simp
      rcases ReflTransGen.cases_head hreach with rfl | ⟨parent, hparent, hreach⟩
      · refine ⟨element, ?_, .refl⟩
        rcases List.mem_cons.mp hsibling with rfl | hsibling
        · exact List.mem_cons_of_mem _ hmem
        · exact List.mem_cons_of_mem _ (following_trans trees hsibling hmem)
      · obtain ⟨same, hsame, helementParent⟩ := parent_of_mem_following trees hmem
        rw [Option.some.inj (hsame.symm.trans hparent)] at helementParent
        exact ⟨sibling, hsibling, .head helementParent hreach⟩

/-! ## Searches -/

/-- Children are the parent links turned round. -/
theorem child_eq (trees : heap.NodeTrees) :
    StackWalk.Child (fun node => (heap.children node).reverse) = Function.swap (Walk.Next heap.parent) := by
  funext parent child
  rw [StackWalk.Child, List.mem_reverse, trees.childLinks]
  rfl

theorem below_iff (trees : heap.NodeTrees) {found : NodeId} :
    StackWalk.Below (fun node => (heap.children node).reverse) node found ↔ Walk.Reaches heap.parent found node := by
  rw [StackWalk.Below, child_eq trees, reflTransGen_swap]
  rfl

theorem forest (trees : heap.NodeTrees) (root : NodeId) :
    StackWalk.Forest (fun node => (heap.children node).reverse) root where
  nodup := fun parent _ => List.nodup_reverse.mpr (trees.childrenNodup parent)
  unique := by
    intro p q c _ _ hp hq
    rw [List.mem_reverse, trees.childLinks] at hp hq
    exact Option.some.inj (hp.symm.trans hq)
  acyclic := by
    intro node hcycle
    rw [child_eq trees, transGen_swap] at hcycle
    exact trees.acyclic node hcycle

/-- Every node below a root but itself was allocated. -/
theorem mem_allocated (trees : heap.NodeTrees) {found : NodeId}
    (h : StackWalk.Below (fun node => (heap.children node).reverse) node found) : found ∈ node :: heap.allocated := by
  rcases ReflTransGen.cases_head ((below_iff trees).mp h) with rfl | ⟨parent, hparent, -⟩
  · simp
  · exact List.mem_cons_of_mem _ (trees.allocated _ _ hparent)

theorem mem_searched (trees : heap.NodeTrees) {found : NodeId} :
    found ∈ searched heap [anchor] ↔ Walk.Reaches heap.parent found anchor := by
  have hend := StackWalk.walk_ends (forest trees anchor) (fun _ => mem_allocated trees)
    (le_refl (heap.allocated.length + 1))
  rw [searched, StackWalk.mem_walk (forest trees anchor) hend, below_iff trees]

theorem mem_searched_following (trees : heap.NodeTrees) {found : NodeId} :
    found ∈ searched heap (following heap anchor).reverse ↔
      ∃ sibling ∈ following heap anchor, Walk.Reaches heap.parent found sibling := by
  cases hparent : heap.parent anchor with
  | none =>
    have hnone : following heap anchor = [] := by rw [following, hparent]
    simp [hnone, searched, StackWalk.walk]
  | some parent =>
    have hsub : ∀ sibling ∈ (following heap anchor).reverse, sibling ∈ (heap.children parent).reverse := by
      intro sibling hmem
      obtain ⟨same, hsame, hsibling⟩ := parent_of_mem_following trees (List.mem_reverse.mp hmem)
      rw [List.mem_reverse, trees.childLinks, hsibling, ← hsame, hparent]
    have hfuel : (parent :: heap.allocated).length ≤ heap.allocated.length + 1 + 1 := by simp
    have hmem := StackWalk.mem_walk_part (forest trees parent) hsub
      (List.nodup_reverse.mpr (following_nodup trees anchor)) (fun _ => mem_allocated trees) hfuel found
    rw [searched, hmem]
    simp only [List.mem_reverse, below_iff trees]

/-- A chain whose first combinator goes to a sibling stays at or below what follows the anchor. -/
theorem after_of_leads (trees : heap.NodeTrees) {combinator : Combinator} {combinators : List Combinator}
    (hkind : combinator.isSibling = true) (helement : isElement heap element = true)
    (h : Leads heap (combinator :: combinators).reverse element anchor) :
    ∃ sibling ∈ following heap anchor, Walk.Reaches heap.parent element sibling := by
  rw [List.reverse_cons] at h
  obtain ⟨node, hlater, next, hnext, -, hanchor⟩ := leads_append.mp h
  rw [Leads] at hanchor
  subst hanchor
  have hnode := isElement_of_leads helement hlater
  obtain ⟨sibling, hsibling, hreach⟩ := below_of_leads trees helement hlater
  obtain ⟨skipped, hskipped, -⟩ := following_of_leftward trees hnode hkind hnext
  refine ⟨sibling, ?_, hreach⟩
  rw [hskipped]
  exact List.mem_append_right _ hsibling

/-- A chain whose first combinator goes up stays below the anchor. -/
theorem below_of_leads_up (trees : heap.NodeTrees) {combinator : Combinator} {combinators : List Combinator}
    (hkind : combinator.isSibling = false) (helement : isElement heap element = true)
    (h : Leads heap (combinator :: combinators).reverse element anchor) : Walk.Reaches heap.parent element anchor := by
  rw [List.reverse_cons] at h
  obtain ⟨node, hlater, next, hnext, -, hanchor⟩ := leads_append.mp h
  rw [Leads] at hanchor
  subst hanchor
  obtain ⟨sibling, hsibling, hreach⟩ := below_of_leads trees helement hlater
  obtain ⟨parent, hparent, hup⟩ : ∃ parent, heap.parent node = some parent ∧ Walk.Reaches heap.parent parent next := by
    cases combinator with
    | Child => exact ⟨next, by simpa [leftward] using hnext, .refl⟩
    | Descendant => exact trees.mem_ancestors.mp hnext
    | AdjacentSibling => cases hkind
    | GeneralSibling => cases hkind
  have hsame : heap.parent sibling = some parent := by
    rcases List.mem_cons.mp hsibling with rfl | hsibling
    · exact hparent
    · obtain ⟨same, hsame, hsibling⟩ := parent_of_mem_following trees hsibling
      rw [hsibling, ← hsame, hparent]
  exact hreach.trans (.head hsame hup)

/-- A search visits whatever the combinators, in the order in which they are written, can reach. -/
def RelativeSearch.Covers (combinators : List Combinator) : RelativeSearch → Prop
  | .Descendants => ∃ first ∈ combinators.head?, first.isSibling = false
  | .Children => combinators = [.Child]
  | .FollowingSiblings => ∃ first ∈ combinators.head?, first.isSibling = true
  | .SiblingAt offset =>
    combinators ≠ [] ∧ offset = combinators.length ∧ ∀ combinator ∈ combinators, combinator = .AdjacentSibling
  | .LaterSiblings => combinators ≠ [] ∧ ∀ combinator ∈ combinators, combinator.isSibling = true

theorem mem_candidates (trees : heap.NodeTrees) {combinators : List Combinator} {search : RelativeSearch}
    (hcovers : search.Covers combinators) (helement : isElement heap element = true)
    (h : Leads heap combinators.reverse element anchor) : element ∈ candidates heap anchor search := by
  cases search with
  | Descendants =>
    obtain ⟨first, hfirst, hkind⟩ := hcovers
    obtain ⟨later, rfl⟩ := List.head?_eq_some_iff.mp hfirst
    exact (mem_searched trees).mpr (below_of_leads_up trees hkind helement h)
  | Children =>
    obtain rfl : combinators = [.Child] := hcovers
    obtain ⟨parent, hparent, -, rfl⟩ := h
    rw [candidates, trees.childLinks]
    simpa [leftward] using hparent
  | FollowingSiblings =>
    obtain ⟨first, hfirst, hkind⟩ := hcovers
    obtain ⟨later, rfl⟩ := List.head?_eq_some_iff.mp hfirst
    exact (mem_searched_following trees).mpr (after_of_leads trees hkind helement h)
  | SiblingAt offset =>
    obtain ⟨hne, rfl, hadjacent⟩ := hcovers
    have hkinds : ∀ combinator ∈ combinators.reverse, combinator.isSibling = true := by
      intro combinator hmem
      rw [hadjacent combinator (List.mem_reverse.mp hmem)]
      rfl
    obtain ⟨between, hbetween, -, hlength⟩ := siblings_of_leads trees hkinds helement h
    have hcount := hlength fun combinator hmem => hadjacent combinator (List.mem_reverse.mp hmem)
    rw [List.length_reverse] at hcount
    cases between with
    | nil => exact absurd (List.length_eq_zero_iff.mp hcount.symm) hne
    | cons first between =>
      rw [List.cons_append, List.cons.injEq] at hbetween
      rw [candidates, hbetween.2, ← hcount]
      simp
  | LaterSiblings =>
    obtain ⟨hne, hkinds⟩ := hcovers
    obtain ⟨between, hbetween, hlength, -⟩ :=
      siblings_of_leads trees (fun combinator hmem => hkinds combinator (List.mem_reverse.mp hmem)) helement h
    rw [List.length_reverse] at hlength
    cases between with
    | nil => exact absurd (List.length_eq_zero_iff.mp (Nat.le_zero.mp hlength)) hne
    | cons first between =>
      rw [List.cons_append, List.cons.injEq] at hbetween
      rw [candidates, hbetween.2]
      simp

/-- Nothing is both below a node and below a sibling of it. -/
theorem not_reaches_of_following (trees : heap.NodeTrees) (h : sibling ∈ following heap anchor)
    (hsibling : Walk.Reaches heap.parent element sibling) : ¬ Walk.Reaches heap.parent element anchor := by
  intro hanchor
  obtain ⟨parent, hanchorParent, hsiblingParent⟩ := parent_of_mem_following trees h
  have hne : sibling ≠ anchor := by
    rintro rfl
    obtain ⟨before, after, hsplit⟩ := exists_split trees hanchorParent
    have hnodup := trees.childrenNodup parent
    rw [hsplit] at hnodup
    rw [following_of_split trees hsplit] at h
    exact (List.nodup_cons.mp hnodup.of_append_right).1 (List.mem_of_mem_filter h)
  have hup : ∀ low high, heap.parent low = some parent → heap.parent high = some parent → low ≠ high →
      ¬ Walk.Reaches heap.parent low high := by
    intro low high hlow hhigh hdifferent hreach
    have hrest := Walk.reaches_next hreach hlow hdifferent
    exact trees.acyclic parent (TransGen.tail' hrest hhigh)
  have hunique : Relator.RightUnique (Walk.Next heap.parent) := by
    intro a b c hb hc
    exact Option.some.inj (hb.symm.trans hc)
  rcases ReflTransGen.total_of_right_unique hunique hsibling hanchor with hreach | hreach
  · exact hup sibling anchor hsiblingParent hanchorParent hne hreach
  · exact hup anchor sibling hanchorParent hsiblingParent hne.symm hreach

/-- No search leaves the tree of its anchor. -/
theorem treeRoot_of_mem_candidates (trees : heap.NodeTrees) {search : RelativeSearch}
    (h : element ∈ candidates heap anchor search) : heap.treeRoot element = heap.treeRoot anchor := by
  have hsibling : ∀ sibling ∈ following heap anchor, heap.treeRoot sibling = heap.treeRoot anchor := by
    intro sibling hmem
    obtain ⟨parent, hanchor, hsame⟩ := parent_of_mem_following trees hmem
    rw [trees.treeRoot_of_reaches (.single hanchor), trees.treeRoot_of_reaches (.single hsame)]
  cases search with
  | Descendants => exact trees.treeRoot_of_reaches ((mem_searched trees).mp h)
  | Children => exact trees.treeRoot_of_reaches (.single ((trees.childLinks _ _).mp h))
  | FollowingSiblings =>
    obtain ⟨sibling, hmem, hreach⟩ := (mem_searched_following trees).mp h
    rw [trees.treeRoot_of_reaches hreach, hsibling sibling hmem]
  | SiblingAt offset => exact hsibling element (List.mem_of_getElem? (Option.mem_toList.mp h))
  | LaterSiblings => exact hsibling element h

end BetterWebBrowser.Css
