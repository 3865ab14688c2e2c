import BetterWebBrowser.Rendering.Coverage

/-!
# Recording

What a realm records between two checkpoints is covered by the invalidation that it takes, as far
as it lies in the document's tree.
-/

namespace BetterWebBrowser.Rendering

open Framework Dom

namespace PendingInvalidation

section Progress

variable (heap : Heap) (document : NodeId)

/-- No root covers a parent whose child list changed. -/
def Separate (self : PendingInvalidation) : Prop :=
  ∀ parent ∈ self.childLists, ¬ Scope.Under heap self.roots parent

/-- What was recorded in the document's tree stays recorded, as strong or stronger. -/
structure Extends (earlier later : PendingInvalidation) : Prop where
  roots : ∀ node, Below heap node document →
    Scope.Under heap earlier.roots node → Scope.Under heap later.roots node
  childLists : ∀ parent ∈ earlier.childLists, Below heap parent document →
    Scope.Under heap later.roots parent ∨ parent ∈ later.childLists
  targets : ∀ target ∈ earlier.attributeTargets, ∀ parent, Below heap parent document →
    heap.shadowIncludingParent target = some parent →
      target ∈ later.attributeTargets ∨ Scope.Under heap later.roots parent
  changes : ∀ target tokens names, Scope.Listed earlier.attributeChanges target tokens names →
    Scope.Listed later.attributeChanges target tokens names
  separate : Separate heap earlier → Separate heap later

/-- A pending invalidation accounts for a scope. -/
def Tracks (self : PendingInvalidation) : Scope → Prop
  | .full node =>
    Scope.Under heap self.roots node ∨
      ∃ target ∈ self.attributeTargets, heap.shadowIncludingParent target = some node
  | .childList parent => Scope.Under heap self.roots parent ∨ parent ∈ self.childLists
  | .bounded target tokens names =>
    Scope.Listed self.attributeChanges target tokens names ∨
      Scope.Under heap self.roots (Scope.parentOrDocument heap document target)

end Progress

variable {heap : Heap} {document target : NodeId} {self other third : PendingInvalidation}

namespace Extends

theorem refl (self : PendingInvalidation) : Extends heap document self self where
  roots := fun _ _ h => h
  childLists := fun _ h _ => .inr h
  targets := fun _ h _ _ _ => .inl h
  changes := fun _ _ _ h => h
  separate := id

theorem trans (h : Extends heap document self other) (h' : Extends heap document other third) :
    Extends heap document self third where
  roots := fun node hbelow hunder => h'.roots node hbelow (h.roots node hbelow hunder)
  childLists := by
    intro parent hmem hbelow
    rcases h.childLists parent hmem hbelow with hunder | hmem
    · exact .inl (h'.roots parent hbelow hunder)
    · exact h'.childLists parent hmem hbelow
  targets := by
    intro target hmem parent hbelow hparent
    rcases h.targets target hmem parent hbelow hparent with hmem | hunder
    · exact h'.targets target hmem parent hbelow hparent
    · exact .inr (h'.roots parent hbelow hunder)
  changes := fun target tokens names hlisted =>
    h'.changes target tokens names (h.changes target tokens names hlisted)
  separate := fun hseparate => h'.separate (h.separate hseparate)

theorem tracks (tree : DocumentTree heap document) (h : Extends heap document self other) {scope : Scope}
    (hbelow : Below heap scope.node document) (htracks : Tracks heap document self scope) :
    Tracks heap document other scope := by
  cases scope with
  | full node =>
    rcases htracks with hunder | ⟨target, hmem, hparent⟩
    · exact .inl (h.roots node hbelow hunder)
    · rcases h.targets target hmem node hbelow hparent with hmem | hunder
      · exact .inr ⟨target, hmem, hparent⟩
      · exact .inl hunder
  | childList parent =>
    rcases htracks with hunder | hmem
    · exact .inl (h.roots parent hbelow hunder)
    · exact h.childLists parent hmem hbelow
  | bounded target tokens names =>
    rcases htracks with hlisted | hunder
    · exact .inl (h.changes target tokens names hlisted)
    · exact .inr (h.roots _ (tree.below_parentOrDocument hbelow) hunder)

end Extends

/-! ## Roots -/

theorem under_addRoot_self : Scope.Under heap (self.addRoot heap target).roots target :=
  ⟨target, List.mem_append_right _ (List.mem_singleton_self target), .refl⟩

theorem not_isDescendantOf (tree : DocumentTree heap document) {node : NodeId} (h : ¬ Below heap node target) :
    (!isDescendantOf heap node target) = true := by
  rw [Bool.not_eq_true', ← Bool.not_eq_true, tree.isDescendantOf_iff]
  exact h

/-- A new root takes in the roots and the child lists below it. -/
theorem extends_addRoot (tree : DocumentTree heap document) (target : NodeId) :
    Extends heap document self (self.addRoot heap target) where
  roots := by
    rintro node - ⟨root, hmem, hbelow⟩
    by_cases hroot : Below heap root target
    · exact ⟨target, List.mem_append_right _ (List.mem_singleton_self target), hbelow.trans hroot⟩
    · exact ⟨root, List.mem_append_left _ (List.mem_filter.mpr ⟨hmem, not_isDescendantOf tree hroot⟩), hbelow⟩
  childLists := by
    intro parent hmem _
    by_cases hparent : Below heap parent target
    · exact .inl ⟨target, List.mem_append_right _ (List.mem_singleton_self target), hparent⟩
    · exact .inr (List.mem_filter.mpr ⟨hmem, not_isDescendantOf tree hparent⟩)
  targets := fun _ h _ _ _ => .inl h
  changes := fun _ _ _ h => h
  separate := by
    intro hseparate parent hmem ⟨root, hroot, hbelow⟩
    obtain ⟨hmem, hparent⟩ := List.mem_filter.mp hmem
    rw [Bool.not_eq_true', ← Bool.not_eq_true, tree.isDescendantOf_iff] at hparent
    rcases List.mem_append.mp hroot with hroot | hroot
    · exact hseparate parent hmem ⟨root, (List.mem_filter.mp hroot).1, hbelow⟩
    · rw [List.mem_singleton.mp hroot] at hbelow
      exact hparent hbelow

/-- The document stands for every scope in its tree. -/
theorem extends_limit : Extends heap document self (self.limit document) := by
  rw [limit]
  split
  · exact
      { roots := fun node hbelow _ => ⟨document, List.mem_singleton_self document, hbelow⟩
        childLists := fun parent _ hbelow => .inl ⟨document, List.mem_singleton_self document, hbelow⟩
        targets := fun _ _ parent hbelow _ => .inr ⟨document, List.mem_singleton_self document, hbelow⟩
        changes := fun _ _ _ h => h
        separate := fun _ parent hmem => by cases hmem }
  · exact .refl self

theorem extends_extendRoots (tree : DocumentTree heap document) (target : NodeId) :
    Extends heap document self (self.extendRoots heap target) := by
  rw [extendRoots]
  split
  · exact .refl self
  · exact extends_addRoot tree target

theorem under_extendRoots (tree : DocumentTree heap document) (target : NodeId) :
    Scope.Under heap (self.extendRoots heap target).roots target := by
  rw [extendRoots]
  split
  · rename_i hcovered
    exact tree.coveredBy_iff.mp hcovered
  · exact under_addRoot_self

theorem extends_extend (tree : DocumentTree heap document) (target : NodeId) :
    Extends heap document self (self.extend heap document target) := by
  rw [extend]
  split
  · exact .refl self
  · exact (extends_addRoot tree target).trans extends_limit

theorem under_extend (tree : DocumentTree heap document) (hbelow : Below heap target document) :
    Scope.Under heap (self.extend heap document target).roots target := by
  rw [extend]
  split
  · rename_i hcovered
    exact tree.coveredBy_iff.mp hcovered
  · exact extends_limit.roots target hbelow under_addRoot_self

/-! ## Child lists and attribute targets -/

private theorem extends_pushChildList (tree : DocumentTree heap document)
    (h : ¬ coveredBy heap self.roots target = true) :
    Extends heap document self { self with childLists := self.childLists ++ [target] } where
  roots := fun _ _ h => h
  childLists := fun _ h _ => .inr (List.mem_append_left _ h)
  targets := fun _ h _ _ _ => .inl h
  changes := fun _ _ _ h => h
  separate := by
    intro hseparate parent hmem hunder
    rcases List.mem_append.mp hmem with hmem | hmem
    · exact hseparate parent hmem hunder
    · rw [List.mem_singleton.mp hmem] at hunder
      exact h (tree.coveredBy_iff.mpr hunder)

theorem extends_extendChildList (tree : DocumentTree heap document) (parent : NodeId) :
    Extends heap document self (self.extendChildList heap document parent) := by
  rw [extendChildList]
  split
  · exact .refl self
  · rename_i hknown
    rw [Bool.or_eq_true, not_or] at hknown
    exact (extends_pushChildList tree hknown.1).trans extends_limit

theorem tracks_extendChildList (tree : DocumentTree heap document) (hbelow : Below heap target document) :
    Tracks heap document (self.extendChildList heap document target) (.childList target) := by
  rw [extendChildList]
  split
  · rename_i hknown
    rcases Bool.or_eq_true_iff.mp hknown with hcovered | hmem
    · exact .inl (tree.coveredBy_iff.mp hcovered)
    · exact .inr (List.contains_iff_mem.mp hmem)
  · exact extends_limit.childLists target (List.mem_append_right _ (List.mem_singleton_self target)) hbelow

theorem extends_pushTarget (target : NodeId) :
    Extends heap document self { self with attributeTargets := self.attributeTargets ++ [target] } where
  roots := fun _ _ h => h
  childLists := fun _ h _ => .inr h
  targets := fun _ h _ _ _ => .inl (List.mem_append_left _ h)
  changes := fun _ _ _ h => h
  separate := id

theorem extends_extendAttributeTarget (target : NodeId) :
    Extends heap document self (self.extendAttributeTarget heap document target) := by
  rw [extendAttributeTarget]
  split
  · exact .refl self
  · exact (extends_pushTarget target).trans extends_limit

theorem parentCovered_iff (tree : DocumentTree heap document) :
    self.parentCovered heap target = true ↔
      ∃ parent, heap.shadowIncludingParent target = some parent ∧ Scope.Under heap self.roots parent := by
  rw [parentCovered, Option.any_eq_true]
  simp only [tree.coveredBy_iff]

theorem tracks_extendAttributeTarget (tree : DocumentTree heap document) {parent : NodeId}
    (hparent : heap.shadowIncludingParent target = some parent) (hbelow : Below heap parent document) :
    Tracks heap document (self.extendAttributeTarget heap document target) (.full parent) := by
  rw [extendAttributeTarget]
  split
  · rename_i hknown
    rcases Bool.or_eq_true_iff.mp hknown with hcovered | hmem
    · obtain ⟨covered, hcovered, hunder⟩ := (parentCovered_iff tree).mp hcovered
      rw [Option.some.inj (hcovered.symm.trans hparent)] at hunder
      exact .inl hunder
    · exact .inr ⟨target, List.contains_iff_mem.mp hmem, hparent⟩
  · have hlimit : Extends heap document { self with attributeTargets := self.attributeTargets ++ [target] }
        ({ self with attributeTargets := self.attributeTargets ++ [target] }.limit document) := extends_limit
    have htargets := hlimit.targets target
      (List.mem_append_right _ (List.mem_singleton_self target)) parent hbelow hparent
    rcases htargets with hmem | hunder
    · exact .inr ⟨target, hmem, hparent⟩
    · exact .inl hunder

/-! ## Bounded changes -/

section Bounded

variable (change : AttributeChange)

/-- The record of one attribute change. -/
def recordChange (self : PendingInvalidation) (heap : Heap) (document : NodeId) (change : AttributeChange) :
    PendingInvalidation :=
  self.recordBoundedChange heap document change.node fun changes => mergeAttributeChange changes change

theorem extends_mergeChange :
    Extends heap document self
      { self with attributeChanges := mergeAttributeChange self.attributeChanges change } where
  roots := fun _ _ h => h
  childLists := fun _ h _ => .inr h
  targets := fun _ h _ _ _ => .inl h
  changes := fun _ _ _ h => listed_mergeAttributeChange change h
  separate := id

theorem extends_recordChange (tree : DocumentTree heap document) :
    Extends heap document self (self.recordChange heap document change) := by
  rw [recordChange, recordBoundedChange]
  split
  · exact .refl self
  · split
    · exact extends_extend tree _
    · exact extends_mergeChange change

theorem tracks_recordChange (tree : DocumentTree heap document) (hbelow : Below heap change.node document) :
    Tracks heap document (self.recordChange heap document change)
      (.bounded change.node change.tokens change.attributes) := by
  rw [recordChange, recordBoundedChange]
  split
  · rename_i hcovered
    obtain ⟨parent, hparent, hunder⟩ := (parentCovered_iff tree).mp hcovered
    right
    rw [Scope.parentOrDocument, hparent]
    exact hunder
  · split
    · exact .inr (under_extend tree (tree.below_parentOrDocument hbelow))
    · exact .inl (listed_self_mergeAttributeChange _ change)

end Bounded

/-! ## Validation dependents -/

theorem extends_extendAll (tree : DocumentTree heap document) (extras : List NodeId) :
    Extends heap document self (extras.foldl (fun self extra => self.extend heap document extra) self) := by
  induction extras generalizing self with
  | nil => exact .refl self
  | cons extra extras ih =>
    rw [List.foldl_cons]
    exact (extends_extend tree extra).trans ih

theorem under_extendAll (tree : DocumentTree heap document) {extras : List NodeId} (hmem : target ∈ extras)
    (hbelow : Below heap target document) :
    Scope.Under heap (extras.foldl (fun self extra => self.extend heap document extra) self).roots target := by
  induction extras generalizing self with
  | nil => cases hmem
  | cons extra extras ih =>
    rw [List.foldl_cons]
    rcases List.mem_cons.mp hmem with rfl | hmem
    · exact (extends_extendAll tree extras).roots target hbelow (under_extend tree hbelow)
    · exact ih hmem

theorem extends_extendValidationDependents (tree : DocumentTree heap document) (target : NodeId)
    (kind : MutationKind) :
    Extends heap document self (self.extendValidationDependents heap document target kind) := by
  rw [extendValidationDependents]
  split
  · exact extends_extendAll tree _
  · exact .refl self

/-- The scopes of a mutation that may flip validation selectors. -/
def validationScopes (heap : Heap) (target : NodeId) (kind : MutationKind) : List Scope :=
  if validationRelevant kind then (validationAggregationRoots heap target).map Scope.full else []

theorem tracks_extendValidationDependents (tree : DocumentTree heap document) {kind : MutationKind}
    {scope : Scope} (hscope : scope ∈ validationScopes heap target kind)
    (hbelow : Below heap scope.node document) :
    Tracks heap document (self.extendValidationDependents heap document target kind) scope := by
  rw [validationScopes] at hscope
  rw [extendValidationDependents]
  split at hscope
  · rename_i hrelevant
    obtain ⟨extra, hmem, rfl⟩ := List.mem_map.mp hscope
    rw [if_pos hrelevant]
    exact .inl (under_extendAll tree hmem hbelow)
  · cases hscope

/-- An attribute whose changes are bounded flips no validation selector. -/
theorem not_validation_of_bounded {name : Str} (h : isBoundedAttribute name = true) :
    validationRelevant (.attr name) = false := by
  rw [← Bool.not_eq_true]
  intro hrelevant
  rw [validationRelevant, isValidationAttribute, lowercaseMatches, List.any_eq_true] at hrelevant
  obtain ⟨known, hmem, hknown⟩ := hrelevant
  rw [isBoundedAttribute, selectorOnlyAttribute, Str.eqIgnoreAsciiCase, eq_of_beq hknown] at h
  clear hknown
  revert h
  revert hmem
  revert known
  decide

/-! ## Mutations -/

/-- The scope that the kind of a mutation gives it. -/
def targetScope (heap : Heap) (document target : NodeId) (kind : MutationKind)
    (selectorIndependentStyle : Bool) : Scope :=
  let parentOrTarget := (heap.shadowIncludingParent target).getD target
  match kind with
  | .styleOverlay | .stylesheet => .full target
  | .viewport => .full document
  | .pointerDesignation => .bounded target [] [HOVER_STATE]
  | .attr name =>
    if name == "style".toList && selectorIndependentStyle then .full target
    else if isBoundedAttribute name then .bounded target [] [Str.toAsciiLowercase name]
    else .full parentOrTarget
  | .characterData | .state => .full parentOrTarget
  | .textChildren =>
    if rebuildsStyleRules heap (some target) kind then .full target else .full parentOrTarget
  | .childList =>
    if rebuildsStyleRules heap (some target) kind then .full target else .childList target

section Target

variable (tree : DocumentTree heap document) {kind : MutationKind} {selectorIndependentStyle : Bool}
include tree

theorem extends_recordRoot (target : NodeId) (kind : MutationKind) (root : NodeId) :
    Extends heap document self (self.recordRoot heap document target kind root) :=
  (extends_extend tree root).trans (extends_extendValidationDependents tree target kind)

theorem tracks_recordRoot {root : NodeId} {scope : Scope}
    (hscope : scope ∈ Scope.full root :: validationScopes heap target kind)
    (hbelow : Below heap scope.node document) :
    Tracks heap document (self.recordRoot heap document target kind root) scope := by
  rcases List.mem_cons.mp hscope with rfl | hscope
  · exact (extends_extendValidationDependents tree target kind).tracks tree hbelow
      (.inl (under_extend tree hbelow))
  · exact tracks_extendValidationDependents tree hscope hbelow

/-- A mutation keeps what was recorded. -/
theorem extends_recordTarget :
    Extends heap document self (self.recordTarget heap document target kind selectorIndependentStyle) := by
  cases kind with
  | styleOverlay => exact extends_recordRoot tree _ _ _
  | attr name =>
    rw [recordTarget]
    split
    · exact extends_recordRoot tree _ _ _
    · split
      · exact extends_recordChange ⟨target, [], [Str.toAsciiLowercase name]⟩ tree
      · split
        · exact (extends_extendAttributeTarget target).trans (extends_extendValidationDependents tree _ _)
        · exact extends_recordRoot tree _ _ _
  | pointerDesignation => exact extends_recordChange ⟨target, [], [HOVER_STATE]⟩ tree
  | textChildren =>
    rw [recordTarget]
    split
    · exact extends_recordRoot tree _ _ _
    · exact extends_recordRoot tree _ _ _
  | characterData => exact extends_recordRoot tree _ _ _
  | state => exact extends_recordRoot tree _ _ _
  | childList =>
    rw [recordTarget]
    split
    · exact extends_recordRoot tree _ _ _
    · exact (extends_extendChildList tree target).trans (extends_extendValidationDependents tree _ _)
  | stylesheet => exact extends_recordRoot tree _ _ _
  | viewport => exact extends_recordRoot tree _ _ _

/-- A mutation records its scopes. -/
theorem tracks_recordTarget {scope : Scope}
    (hscope : scope ∈ targetScope heap document target kind selectorIndependentStyle ::
      validationScopes heap target kind)
    (hbelow : Below heap scope.node document) :
    Tracks heap document (self.recordTarget heap document target kind selectorIndependentStyle) scope := by
  cases kind with
  | styleOverlay => exact tracks_recordRoot tree hscope hbelow
  | attr name =>
    rw [targetScope] at hscope
    rw [recordTarget]
    split
    · rename_i hstyle
      rw [if_pos hstyle] at hscope
      exact tracks_recordRoot tree hscope hbelow
    · rename_i hstyle
      rw [if_neg hstyle] at hscope
      split
      · rename_i hbounded
        rw [if_pos hbounded, validationScopes, not_validation_of_bounded hbounded, if_neg Bool.false_ne_true,
          List.mem_singleton] at hscope
        subst hscope
        exact tracks_recordChange ⟨target, [], [Str.toAsciiLowercase name]⟩ tree hbelow
      · rename_i hbounded
        rw [if_neg hbounded] at hscope
        split
        · rename_i parent hparent
          rw [hparent] at hscope
          rcases List.mem_cons.mp hscope with rfl | hscope
          · exact (extends_extendValidationDependents tree _ _).tracks tree hbelow
              (tracks_extendAttributeTarget tree hparent hbelow)
          · exact tracks_extendValidationDependents tree hscope hbelow
        · rename_i hparent
          rw [hparent] at hscope
          exact tracks_recordRoot tree hscope hbelow
  | pointerDesignation =>
    obtain rfl := List.mem_singleton.mp hscope
    exact tracks_recordChange ⟨target, [], [HOVER_STATE]⟩ tree hbelow
  | textChildren =>
    rw [targetScope] at hscope
    rw [recordTarget]
    split
    · rename_i hrules
      rw [if_pos hrules] at hscope
      exact tracks_recordRoot tree hscope hbelow
    · rename_i hrules
      rw [if_neg hrules] at hscope
      exact tracks_recordRoot tree hscope hbelow
  | characterData => exact tracks_recordRoot tree hscope hbelow
  | state => exact tracks_recordRoot tree hscope hbelow
  | childList =>
    rw [targetScope] at hscope
    rw [recordTarget]
    split
    · rename_i hrules
      rw [if_pos hrules] at hscope
      exact tracks_recordRoot tree hscope hbelow
    · rename_i hrules
      rw [if_neg hrules] at hscope
      rcases List.mem_cons.mp hscope with rfl | hscope
      · exact (extends_extendValidationDependents tree _ _).tracks tree hbelow
          (tracks_extendChildList tree hbelow)
      · exact tracks_extendValidationDependents tree hscope hbelow
  | stylesheet => exact tracks_recordRoot tree hscope hbelow
  | viewport => exact tracks_recordRoot tree hscope hbelow

end Target

end PendingInvalidation

end BetterWebBrowser.Rendering
