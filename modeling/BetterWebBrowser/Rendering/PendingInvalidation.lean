import BetterWebBrowser.Rendering.Invalidation

/-!
# Pending invalidation

One realm collects its mutations until the next checkpoint: full roots, parents whose child lists
changed, single elements whose attributes changed, and targets of attribute writes, whose parents
become roots only if they are still connected at the checkpoint.
-/

namespace BetterWebBrowser.Rendering

open Framework Dom

structure PendingInvalidation where
  roots : List NodeId
  impact : InvalidationImpact
  rebuildStyleRules : Bool
  removedNodes : List NodeId
  removedGlobalDependency : Bool
  attributeChanges : List AttributeChange
  childLists : List NodeId
  attributeTargets : List NodeId
deriving DecidableEq, Repr

/-! ## Queries on the tree -/

section Tree

variable (heap : Heap)

def isDescendantOf (node ancestor : NodeId) : Bool :=
  (heap.inclusiveShadowAncestors node).any fun node => node == ancestor

def isConnected (node : NodeId) : Bool := heap.data (heap.shadowIncludingRoot node) == .document

def isInStyleElement (node : NodeId) : Bool :=
  (heap.inclusiveShadowAncestors node).any fun current => heap.tagName current == some "style".toList

/-- The attributes that matter to a style sheet's owner. -/
def isSheetAttribute (name : Str) : Bool :=
  ["href", "rel", "media", "type", "disabled", "title"].any fun known => name == known.toList

def rebuildsStyleRules (target : Option NodeId) (kind : MutationKind) : Bool :=
  match kind with
  | .stylesheet => true
  | .attr name =>
    isSheetAttribute name && target.any fun node =>
      heap.tagName node == some "style".toList || heap.tagName node == some "link".toList
  | .characterData | .childList | .textChildren => target.any fun node => isInStyleElement heap node
  | _ => false

/-- Whether one of the roots covers the node. -/
def coveredBy (roots : List NodeId) (node : NodeId) : Bool :=
  roots.any fun root => isDescendantOf heap node root

end Tree

namespace PendingInvalidation

variable (heap : Heap) (document : NodeId)

/-- `PendingInvalidation::default()`. -/
def empty : PendingInvalidation where
  roots := []
  impact := .default
  rebuildStyleRules := false
  removedNodes := []
  removedGlobalDependency := false
  attributeChanges := []
  childLists := []
  attributeTargets := []

/-! ## Roots -/

/-- `extend_roots` for a target that no root covers. -/
def addRoot (self : PendingInvalidation) (target : NodeId) : PendingInvalidation :=
  { self with
    roots := (self.roots.filter fun root => !isDescendantOf heap root target) ++ [target]
    childLists := self.childLists.filter fun parent => !isDescendantOf heap parent target }

/-- Add a full root unless one already covers it. -/
def extendRoots (self : PendingInvalidation) (target : NodeId) : PendingInvalidation :=
  if coveredBy heap self.roots target then self else self.addRoot heap target

/-- Too many roots become the document. -/
def limit (self : PendingInvalidation) : PendingInvalidation :=
  if MAX_INVALIDATION_ROOTS < self.roots.length + self.childLists.length + self.attributeTargets.length then
    { self with roots := [document], childLists := [], attributeTargets := [] }
  else self

def extend (self : PendingInvalidation) (target : NodeId) : PendingInvalidation :=
  if coveredBy heap self.roots target then self else (self.addRoot heap target).limit document

def extendChildList (self : PendingInvalidation) (parent : NodeId) : PendingInvalidation :=
  if coveredBy heap self.roots parent || self.childLists.contains parent then self
  else ({ self with childLists := self.childLists ++ [parent] } : PendingInvalidation).limit document

/-- Whether a root covers the parent of the target. -/
def parentCovered (self : PendingInvalidation) (target : NodeId) : Bool :=
  (heap.shadowIncludingParent target).any fun parent => coveredBy heap self.roots parent

def extendAttributeTarget (self : PendingInvalidation) (target : NodeId) : PendingInvalidation :=
  if self.parentCovered heap target || self.attributeTargets.contains target then self
  else ({ self with attributeTargets := self.attributeTargets ++ [target] } : PendingInvalidation).limit document

/-! ## Records -/

/-- An attribute change that the cascade bounds, with the parent as a root if there are too many. -/
def recordBoundedChange (self : PendingInvalidation) (target : NodeId)
    (record : List AttributeChange → List AttributeChange) : PendingInvalidation :=
  if self.parentCovered heap target then self
  else if MAX_INVALIDATION_ROOTS ≤ self.attributeChanges.length then
    self.extend heap document ((heap.shadowIncludingParent target).getD document)
  else { self with attributeChanges := record self.attributeChanges }

def recordClassChange (self : PendingInvalidation) (target : NodeId) (tokens : List Str) : PendingInvalidation :=
  ({ self with impact := self.impact.union (MutationKind.attr "class".toList).impact }
    : PendingInvalidation).recordBoundedChange heap document target
      fun changes => Rendering.recordClassChange changes target tokens

/-- Whether the mutation can flip validation selectors. -/
def validationRelevant : MutationKind → Bool
  | .state | .childList | .textChildren => true
  | .attr name => isValidationAttribute name
  | _ => false

def extendValidationDependents (self : PendingInvalidation) (target : NodeId) (kind : MutationKind) :
    PendingInvalidation :=
  if validationRelevant kind then
    (validationAggregationRoots heap target).foldl (fun self extra => self.extend heap document extra) self
  else self

/-- The impact of a mutation and whether it changes the style rules. -/
def recordImpact (self : PendingInvalidation) (target : Option NodeId) (kind : MutationKind) :
    PendingInvalidation :=
  let rebuildRules := rebuildsStyleRules heap target kind
  let impact := self.impact.union kind.impact
  { self with
    impact := if rebuildRules then impact.union MutationKind.stylesheet.impact else impact
    rebuildStyleRules := self.rebuildStyleRules || rebuildRules }

/-- Whether an attribute change is recorded for the cascade to bound. -/
def isBoundedAttribute (name : Str) : Bool :=
  selectorOnlyAttribute name || Str.eqIgnoreAsciiCase name "hidden".toList

/-- A full root and what depends on the target's validation state. -/
def recordRoot (self : PendingInvalidation) (target : NodeId) (kind : MutationKind) (root : NodeId) :
    PendingInvalidation :=
  (self.extend heap document root).extendValidationDependents heap document target kind

/-- The scope of a mutation of one target. -/
def recordTarget (self : PendingInvalidation) (target : NodeId) (kind : MutationKind)
    (selectorIndependentStyle : Bool) : PendingInvalidation :=
  let rebuildRules := rebuildsStyleRules heap (some target) kind
  match kind with
  | .styleOverlay => self.recordRoot heap document target kind target
  | .attr name =>
    if name == "style".toList && selectorIndependentStyle then self.recordRoot heap document target kind target
    else if isBoundedAttribute name then
      self.recordBoundedChange heap document target fun changes => recordAttributeChange changes target name
    else
      match heap.shadowIncludingParent target with
      | some _ =>
        (self.extendAttributeTarget heap document target).extendValidationDependents heap document target kind
      | none => self.recordRoot heap document target kind target
  | .pointerDesignation =>
    self.recordBoundedChange heap document target fun changes => recordAttributeChange changes target HOVER_STATE
  | .textChildren =>
    if rebuildRules then self.recordRoot heap document target kind target
    else self.recordRoot heap document target kind ((heap.shadowIncludingParent target).getD target)
  | .characterData | .state =>
    self.recordRoot heap document target kind ((heap.shadowIncludingParent target).getD target)
  | .childList =>
    if rebuildRules then self.recordRoot heap document target kind target
    else (self.extendChildList heap document target).extendValidationDependents heap document target kind
  | .stylesheet => self.recordRoot heap document target kind target
  | .viewport => self.recordRoot heap document target kind document

def recordWithStyleScope (self : PendingInvalidation) (target : Option NodeId) (kind : MutationKind)
    (selectorIndependentStyle : Bool) : PendingInvalidation :=
  match target with
  | none => self.recordImpact heap target kind
  | some target =>
    (self.recordImpact heap (some target) kind).recordTarget heap document target kind selectorIndependentStyle

def record (self : PendingInvalidation) (target : Option NodeId) (kind : MutationKind) : PendingInvalidation :=
  self.recordWithStyleScope heap document target kind false

def recordSelectorIndependentStyle (self : PendingInvalidation) (target : NodeId) : PendingInvalidation :=
  self.recordWithStyleScope heap document (some target) (.attr "style".toList) true

/-! ## Removals and checkpoints -/

/-- A removed node whose rendering may reach outside its subtree. -/
def isGlobalDependency (node : NodeId) : Bool :=
  heap.isFullscreen node ||
    (heap.tagName node == some "base".toList || heap.tagName node == some "slot".toList) ||
    (heap.namespaceUri node).any fun ns => ns != "http://www.w3.org/1999/xhtml".toList

def recordRemovedSubtree (self : PendingInvalidation) (root : NodeId) : PendingInvalidation :=
  let removed := heap.shadowIncludingDescendants root
  { self with
    removedNodes := sortDedup (· ≤ ·) (self.removedNodes ++ removed)
    removedGlobalDependency := self.removedGlobalDependency || removed.any fun node => isGlobalDependency heap node }

def acknowledgePublishedGeometry (self : PendingInvalidation) : PendingInvalidation :=
  { self with impact := self.impact.withoutIntrinsicSize }

/-- The parents of the attribute targets that are still connected become full roots. -/
def resolveTargets (self : PendingInvalidation) : PendingInvalidation :=
  (self.attributeTargets.filter fun target => isConnected heap target).foldl
    (fun self target =>
      match heap.shadowIncludingParent target with
      | some parent => self.extendRoots heap parent
      | none => self)
    self

def snapshot (self : PendingInvalidation) (mutationCount : Nat) : RenderInvalidation :=
  let resolved := self.resolveTargets heap
  { roots := resolved.roots ++ resolved.childLists
    impact := self.impact
    mutationCount := mutationCount
    rebuildStyleRules := self.rebuildStyleRules
    removedNodes := self.removedNodes
    removalsAreLocal := !self.removedNodes.isEmpty && !self.removedGlobalDependency
    attributeChanges := self.attributeChanges
    childListRoots := resolved.childLists
    elementRoots := [] }

def take (self : PendingInvalidation) (mutationCount : Nat) : RenderInvalidation × PendingInvalidation :=
  (self.snapshot heap mutationCount, empty)

end PendingInvalidation

end BetterWebBrowser.Rendering
