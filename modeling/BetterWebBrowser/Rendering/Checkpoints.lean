import BetterWebBrowser.Rendering.Recording

/-!
# Checkpoints

A realm records mutations until a checkpoint takes its invalidation, and checkpoints that skip
their frame merge theirs. Nothing that was recorded in the document's tree is lost on the way.
-/

namespace BetterWebBrowser.Rendering

open Framework Dom

/-- What a realm tells its pending invalidation. -/
inductive Mutation
  | record (target : Option NodeId) (kind : MutationKind)
  | recordClassChange (target : NodeId) (tokens : List Str)
  | recordSelectorIndependentStyle (target : NodeId)
  | extend (target : NodeId)
  | recordRemovedSubtree (root : NodeId)
  | acknowledgePublishedGeometry
deriving DecidableEq

namespace PendingInvalidation

variable (heap : Heap) (document : NodeId)

def apply (self : PendingInvalidation) : Mutation → PendingInvalidation
  | .record target kind => self.record heap document target kind
  | .recordClassChange target tokens => self.recordClassChange heap document target tokens
  | .recordSelectorIndependentStyle target => self.recordSelectorIndependentStyle heap document target
  | .extend target => self.extend heap document target
  | .recordRemovedSubtree root => self.recordRemovedSubtree heap root
  | .acknowledgePublishedGeometry => self.acknowledgePublishedGeometry

/-- The pending invalidation after the mutations, from the last checkpoint on. -/
def after (mutations : List Mutation) : PendingInvalidation := mutations.foldl (apply heap document) empty

/-- The scopes that a mutation records. -/
def scopes : Mutation → List Scope
  | .record (some target) kind => targetScope heap document target kind false :: validationScopes heap target kind
  | .record none _ => []
  | .recordClassChange target tokens => [.bounded target tokens []]
  | .recordSelectorIndependentStyle target => [.full target]
  | .extend target => [.full target]
  | .recordRemovedSubtree _ => []
  | .acknowledgePublishedGeometry => []

variable {heap document} {self other : PendingInvalidation}

/-- Impacts and removals do not touch the scopes. -/
theorem extends_same (hroots : other.roots = self.roots) (hlists : other.childLists = self.childLists)
    (htargets : other.attributeTargets = self.attributeTargets)
    (hchanges : other.attributeChanges = self.attributeChanges) : Extends heap document self other where
  roots := fun _ _ h => hroots ▸ h
  childLists := fun _ h _ => .inr (hlists ▸ h)
  targets := fun _ h _ _ _ => .inl (htargets ▸ h)
  changes := fun _ _ _ h => hchanges ▸ h
  separate := by
    intro hseparate
    rw [Separate, hroots, hlists]
    exact hseparate

theorem extends_recordImpact (target : Option NodeId) (kind : MutationKind) :
    Extends heap document self (self.recordImpact heap target kind) :=
  extends_same rfl rfl rfl rfl

/-- A step keeps what was recorded. -/
theorem extends_apply (tree : DocumentTree heap document) (mutation : Mutation) :
    Extends heap document self (self.apply heap document mutation) := by
  cases mutation with
  | record target kind =>
    cases target with
    | none => exact extends_recordImpact none kind
    | some target => exact (extends_recordImpact _ kind).trans (extends_recordTarget tree)
  | recordClassChange target tokens =>
    have himpact : Extends heap document self
        { self with impact := self.impact.union (MutationKind.attr "class".toList).impact } :=
      extends_same rfl rfl rfl rfl
    exact himpact.trans (extends_recordChange ⟨target, tokens, []⟩ tree)
  | recordSelectorIndependentStyle target =>
    change Extends heap document self ((self.recordImpact heap (some target) (.attr "style".toList)).recordTarget
      heap document target (.attr "style".toList) true)
    exact (extends_recordImpact _ _).trans (extends_recordTarget tree)
  | extend target => exact extends_extend tree target
  | recordRemovedSubtree root => exact extends_same rfl rfl rfl rfl
  | acknowledgePublishedGeometry => exact extends_same rfl rfl rfl rfl

/-- A step records its scopes. -/
theorem tracks_apply (tree : DocumentTree heap document) {mutation : Mutation} {scope : Scope}
    (hscope : scope ∈ scopes heap document mutation) (hbelow : Below heap scope.node document) :
    Tracks heap document (self.apply heap document mutation) scope := by
  cases mutation with
  | record target kind =>
    cases target with
    | none => cases hscope
    | some target => exact tracks_recordTarget tree hscope hbelow
  | recordClassChange target tokens =>
    obtain rfl := List.mem_singleton.mp hscope
    exact tracks_recordChange ⟨target, tokens, []⟩ tree hbelow
  | recordSelectorIndependentStyle target =>
    have hstyle : targetScope heap document target (.attr "style".toList) true = .full target := rfl
    refine tracks_recordTarget tree (List.mem_cons.mpr (.inl ?_)) hbelow
    rw [hstyle]
    exact List.mem_singleton.mp hscope
  | extend target =>
    obtain rfl := List.mem_singleton.mp hscope
    exact .inl (under_extend tree hbelow)
  | recordRemovedSubtree root => cases hscope
  | acknowledgePublishedGeometry => cases hscope

/-- After a run every scope in the tree is accounted for, and the roots are apart. -/
theorem tracks_after (tree : DocumentTree heap document) (mutations : List Mutation) :
    Separate heap (after heap document mutations) ∧
      ∀ mutation ∈ mutations, ∀ scope ∈ scopes heap document mutation, Below heap scope.node document →
        Tracks heap document (after heap document mutations) scope := by
  refine (Run.foldl (apply heap document) empty mutations).historyInvariant
    (fun labels self => Separate heap self ∧ ∀ mutation ∈ labels, ∀ scope ∈ scopes heap document mutation,
      Below heap scope.node document → Tracks heap document self scope) ?_ ?_
  · exact ⟨fun _ hmem => absurd hmem List.not_mem_nil, fun _ hmem => absurd hmem List.not_mem_nil⟩
  · rintro labels self mutation _ ⟨hseparate, htracks⟩ rfl
    have hstep : Extends heap document self (self.apply heap document mutation) := extends_apply tree mutation
    refine ⟨hstep.separate hseparate, fun recorded hmem scope hscope hbelow => ?_⟩
    rcases List.mem_append.mp hmem with hmem | hmem
    · exact hstep.tracks tree hbelow (htracks recorded hmem scope hscope hbelow)
    · obtain rfl := List.mem_singleton.mp hmem
      exact tracks_apply tree hscope hbelow

/-! ## Snapshots -/

private def resolveTarget (heap : Heap) (self : PendingInvalidation) (target : NodeId) : PendingInvalidation :=
  match heap.shadowIncludingParent target with
  | some parent => self.extendRoots heap parent
  | none => self

private theorem extends_resolveAll (tree : DocumentTree heap document) (targets : List NodeId) :
    Extends heap document self (targets.foldl (resolveTarget heap) self) := by
  induction targets generalizing self with
  | nil => exact .refl self
  | cons target targets ih =>
    rw [List.foldl_cons]
    refine Extends.trans ?_ ih
    rw [resolveTarget]
    split
    · exact extends_extendRoots tree _
    · exact .refl self

private theorem under_resolveAll (tree : DocumentTree heap document) {targets : List NodeId}
    {target parent : NodeId} (hmem : target ∈ targets)
    (hparent : heap.shadowIncludingParent target = some parent) (hbelow : Below heap parent document) :
    Scope.Under heap (targets.foldl (resolveTarget heap) self).roots parent := by
  induction targets generalizing self with
  | nil => cases hmem
  | cons first targets ih =>
    rw [List.foldl_cons]
    rcases List.mem_cons.mp hmem with rfl | hmem
    · refine (extends_resolveAll tree targets).roots parent hbelow ?_
      rw [resolveTarget, hparent]
      exact under_extendRoots tree parent
    · exact ih hmem

private theorem extends_resolveTargets (tree : DocumentTree heap document) :
    Extends heap document self (self.resolveTargets heap) :=
  extends_resolveAll tree _

theorem under_snapshot (hseparate : Separate heap (self.resolveTargets heap)) {count : Nat} {node : NodeId}
    (h : Scope.Under heap (self.resolveTargets heap).roots node) :
    Scope.Under heap (self.snapshot heap count).fullRoots node := by
  obtain ⟨root, hmem, hbelow⟩ := h
  refine ⟨root, RenderInvalidation.mem_fullRoots.mpr ⟨List.mem_append_left _ hmem, ?_, List.not_mem_nil⟩, hbelow⟩
  intro hlist
  exact hseparate root hlist ⟨root, hmem, .refl⟩

/-- A snapshot covers what is accounted for. -/
theorem covered_snapshot (tree : DocumentTree heap document) (hseparate : Separate heap self) (count : Nat)
    {scope : Scope} (hbelow : Below heap scope.node document) (h : Tracks heap document self scope) :
    Scope.Covered heap document (self.snapshot heap count) scope := by
  have hresolved := (extends_resolveTargets tree).separate hseparate
  cases scope with
  | full node =>
    rcases h with hunder | ⟨target, hmem, hparent⟩
    · exact under_snapshot hresolved ((extends_resolveTargets tree).roots node hbelow hunder)
    · -- a target below a node of the tree is still connected
      have hconnected := tree.isConnected (.head hparent hbelow)
      exact under_snapshot hresolved
        (under_resolveAll tree (List.mem_filter.mpr ⟨hmem, hconnected⟩) hparent hbelow)
  | childList parent =>
    rcases (extends_resolveTargets tree).tracks tree hbelow h with hunder | hmem
    · exact .inl (under_snapshot hresolved hunder)
    · exact .inr ⟨List.mem_append_right _ hmem, hmem⟩
  | bounded target tokens names =>
    rcases h with hlisted | hunder
    · exact .inl hlisted
    · exact .inr (under_snapshot hresolved
        ((extends_resolveTargets tree).roots _ (tree.below_parentOrDocument hbelow) hunder))

end PendingInvalidation

/-! ## Merging -/

/-- A merged invalidation has the effects of both sides, and no proof that a side with work lacks. -/
structure RenderInvalidation.MergedFrom (self other merged : RenderInvalidation) : Prop where
  style : merged.impact.affectsStyle = (self.impact.affectsStyle || other.impact.affectsStyle)
  layout : merged.impact.affectsLayout = (self.impact.affectsLayout || other.impact.affectsLayout)
  intrinsicSize :
    merged.impact.affectsIntrinsicSize = (self.impact.affectsIntrinsicSize || other.impact.affectsIntrinsicSize)
  paint : merged.impact.affectsPaint = (self.impact.affectsPaint || other.impact.affectsPaint)
  rules : merged.rebuildStyleRules = (self.rebuildStyleRules || other.rebuildStyleRules)
  removed : ∀ node, node ∈ merged.removedNodes ↔ node ∈ self.removedNodes ∨ node ∈ other.removedNodes
  removalsAreLocal : merged.removalsAreLocal = true →
    (self.removedNodes ≠ [] → self.removalsAreLocal = true) ∧
      (other.removedNodes ≠ [] → other.removalsAreLocal = true)
  proofs : ∀ proof ∈ [InvalidationImpact.isStyleOnly, InvalidationImpact.isTextOnly,
      InvalidationImpact.isLocalContentOnly, InvalidationImpact.isResourceAttributeOnly],
    proof merged.impact = true →
      (self.impact ≠ .default → proof self.impact = true) ∧ (other.impact ≠ .default → proof other.impact = true)

theorem RenderInvalidation.mergedFrom {self other : RenderInvalidation} (hself : self.isEmpty = false)
    (hother : other.isEmpty = false) (document : NodeId) (limit : Nat) :
    MergedFrom self other (self.mergeWithRootLimit other document limit) := by
  rw [mergeWithRootLimit, if_neg (by rw [hother]; exact Bool.false_ne_true),
    if_neg (by rw [hself]; exact Bool.false_ne_true)]
  exact
    { style := InvalidationImpact.affectsStyle_union
      layout := InvalidationImpact.affectsLayout_union
      intrinsicSize := InvalidationImpact.affectsIntrinsicSize_union
      paint := InvalidationImpact.affectsPaint_union
      rules := rfl
      removed := by simp
      removalsAreLocal := by
        intro hlocal
        cases hremoved : other.removedNodes <;> cases hremoved' : self.removedNodes <;> simp_all
      proofs := by
        intro proof hmem hproof
        simp only [List.mem_cons, List.not_mem_nil, or_false] at hmem
        apply InvalidationImpact.proof_of_unionProof
        rcases hmem with rfl | rfl | rfl | rfl
        · exact InvalidationImpact.isStyleOnly_union.symm.trans hproof
        · exact InvalidationImpact.isTextOnly_union.symm.trans hproof
        · exact InvalidationImpact.isLocalContentOnly_union.symm.trans hproof
        · exact InvalidationImpact.isResourceAttributeOnly_union.symm.trans hproof }

/-- Render invalidation is conservative. In a snapshot every scope that was recorded in the
document's tree is covered; a merge keeps what either side covers, and where both sides have
roots or attribute changes it has the effects of both. -/
theorem render_invalidation_conservative {heap : Heap} {document : NodeId} (tree : DocumentTree heap document) :
    (∀ (mutations : List Mutation) (count : Nat), ∀ mutation ∈ mutations,
      ∀ scope ∈ PendingInvalidation.scopes heap document mutation, Below heap scope.node document →
        Scope.Covered heap document ((PendingInvalidation.after heap document mutations).snapshot heap count) scope) ∧
    (∀ (self other : RenderInvalidation) (limit : Nat),
      (∀ scope : Scope, Below heap scope.node document →
        Scope.Covered heap document self scope ∨ Scope.Covered heap document other scope →
          Scope.Covered heap document (self.mergeWithRootLimit other document limit) scope) ∧
      (self.isEmpty = false → other.isEmpty = false →
        RenderInvalidation.MergedFrom self other (self.mergeWithRootLimit other document limit))) := by
  constructor
  · intro mutations count mutation hmem scope hscope hbelow
    obtain ⟨hseparate, htracks⟩ := PendingInvalidation.tracks_after tree mutations
    exact PendingInvalidation.covered_snapshot tree hseparate count hbelow
      (htracks mutation hmem scope hscope hbelow)
  · intro self other limit
    exact ⟨fun scope hbelow h => RenderInvalidation.covered_merge tree limit hbelow h,
      fun hself hother => RenderInvalidation.mergedFrom hself hother document limit⟩

private def sampleParagraph : ElementData where
  name := ⟨none, "http://www.w3.org/1999/xhtml".toList, "p".toList⟩
  attrs := []
  templateContents := none
  shadowRoot := none
  fullscreen := false

/-- A document with an element and its child, and two elements apart from it. -/
private def samplePage : Heap where
  allocated := [⟨1, 1⟩, ⟨1, 2⟩, ⟨1, 3⟩, ⟨1, 4⟩, ⟨1, 5⟩]
  node id :=
    { Node.isolated (if id.serial = 1 then .document else .element sampleParagraph) with
      parent :=
        if id = ⟨1, 2⟩ then some ⟨1, 1⟩ else if id = ⟨1, 3⟩ then some ⟨1, 2⟩
        else if id = ⟨1, 5⟩ then some ⟨1, 4⟩ else none
      children :=
        if id = ⟨1, 1⟩ then [⟨1, 2⟩] else if id = ⟨1, 2⟩ then [⟨1, 3⟩]
        else if id = ⟨1, 4⟩ then [⟨1, 5⟩] else [] }
  identity _ := ⟨6, 0⟩

private theorem samplePage_parent (id : NodeId) :
    samplePage.shadowIncludingParent id =
      if id = ⟨1, 2⟩ then some ⟨1, 1⟩ else if id = ⟨1, 3⟩ then some ⟨1, 2⟩
      else if id = ⟨1, 5⟩ then some ⟨1, 4⟩ else none := by
  have hhost : samplePage.shadowHost id = none := by
    have hdata : samplePage.data id = if id.serial = 1 then NodeData.document else .element sampleParagraph := rfl
    rw [Heap.shadowHost, hdata]
    by_cases hserial : id.serial = 1
    · rw [if_pos hserial]
    · rw [if_neg hserial]
  rw [Heap.shadowIncludingParent, hhost, Option.or_none]
  rfl

private theorem samplePage_cases {id parent : NodeId} (h : samplePage.shadowIncludingParent id = some parent) :
    id ∈ samplePage.allocated ∧ parent.serial < id.serial := by
  rw [samplePage_parent] at h
  split_ifs at h with h2 h3 h5 <;> obtain rfl := Option.some.inj h
  · rw [h2]; decide
  · rw [h3]; decide
  · rw [h5]; decide

private theorem samplePage_tree : DocumentTree samplePage ⟨1, 1⟩ where
  acyclic := .of_rank NodeId.serial fun _ _ h => (samplePage_cases h).2
  allocated := fun _ _ h => (samplePage_cases h).1
  isDocument := rfl
  isRoot := by decide

/-- The child's state changes: its parent is covered by a full root of the snapshot. -/
theorem render_invalidation_conservative_sample :
    Scope.Covered samplePage ⟨1, 1⟩
      ((PendingInvalidation.after samplePage ⟨1, 1⟩ [.record (some ⟨1, 3⟩) .state]).snapshot samplePage 1)
      (.full ⟨1, 2⟩) :=
  (render_invalidation_conservative samplePage_tree).1 [.record (some ⟨1, 3⟩) .state] 1 _
    (List.mem_singleton_self _) (.full ⟨1, 2⟩) (by decide) (.single rfl)

/-- An attribute write apart from the document leaves no root, and a rule change without a target
is lost in a merge. -/
theorem detached_scope_and_rules_lost :
    (Scope.full ⟨1, 4⟩ ∈ PendingInvalidation.scopes samplePage ⟨1, 1⟩
        (.record (some ⟨1, 5⟩) (.attr "title".toList)) ∧
      ¬ Scope.Covered samplePage ⟨1, 1⟩
        ((PendingInvalidation.after samplePage ⟨1, 1⟩ [.record (some ⟨1, 5⟩) (.attr "title".toList)]).snapshot
          samplePage 1) (.full ⟨1, 4⟩)) ∧
    ((PendingInvalidation.after samplePage ⟨1, 1⟩ [.record none .stylesheet]).snapshot
        samplePage 1).rebuildStyleRules = true ∧
      (((PendingInvalidation.after samplePage ⟨1, 1⟩ [.record (some ⟨1, 3⟩) .state]).snapshot
          samplePage 1).mergeConservatively
        ((PendingInvalidation.after samplePage ⟨1, 1⟩ [.record none .stylesheet]).snapshot samplePage 1)
        ⟨1, 1⟩).rebuildStyleRules = false := by
  refine ⟨⟨by decide, ?_⟩, by decide, by decide⟩
  rintro ⟨root, hmem, -⟩
  revert hmem
  have hnone : ((PendingInvalidation.after samplePage ⟨1, 1⟩
      [.record (some ⟨1, 5⟩) (.attr "title".toList)]).snapshot samplePage 1).fullRoots = [] := by decide
  rw [hnone]
  exact List.not_mem_nil

end BetterWebBrowser.Rendering
