import Mathlib.Data.List.Sort
import Mathlib.Data.List.Dedup
import BetterWebBrowser.Dom.Node

/-!
# Rendering invalidation

What changed since the last rendering: roots of subtrees, attribute changes of single elements,
and which stages of rendering they affect.
-/

namespace BetterWebBrowser.Rendering

open Framework Dom

/-! ## Impacts -/

structure InvalidationImpact where
  bits : BitVec 8
deriving DecidableEq, Repr

namespace InvalidationImpact

def STYLE : InvalidationImpact := ⟨1#8 <<< 0⟩

def LAYOUT : InvalidationImpact := ⟨1#8 <<< 1⟩

def INTRINSIC_SIZE : InvalidationImpact := ⟨1#8 <<< 2⟩

def PAINT : InvalidationImpact := ⟨1#8 <<< 3⟩

def STYLE_ONLY : BitVec 8 := 1#8 <<< 4

def TEXT_ONLY : BitVec 8 := 1#8 <<< 5

def LOCAL_CONTENT_ONLY : BitVec 8 := 1#8 <<< 6

def RESOURCE_ATTRIBUTE_ONLY : BitVec 8 := 1#8 <<< 7

/-- The impact of nothing. -/
def default : InvalidationImpact := ⟨0#8⟩

variable (self other : InvalidationImpact)

def isStyleOnly : Bool := self.bits &&& STYLE_ONLY != 0#8

def isTextOnly : Bool := self.bits &&& TEXT_ONLY != 0#8

def isLocalContentOnly : Bool := self.bits &&& LOCAL_CONTENT_ONLY != 0#8

def isResourceAttributeOnly : Bool := self.bits &&& RESOURCE_ATTRIBUTE_ONLY != 0#8

def affectsStyle : Bool := self.bits &&& STYLE.bits != 0#8

def affectsLayout : Bool := self.bits &&& (LAYOUT.bits ||| INTRINSIC_SIZE.bits) != 0#8

def affectsIntrinsicSize : Bool := self.bits &&& INTRINSIC_SIZE.bits != 0#8

def affectsPaint : Bool := self.bits &&& PAINT.bits != 0#8

def withoutIntrinsicSize : InvalidationImpact := ⟨self.bits &&& ~~~INTRINSIC_SIZE.bits⟩

/-- A proof survives if one side has it and the other one has it or is empty. -/
def unionProof (proof : InvalidationImpact → Bool) : Bool :=
  (proof self || proof other) && (self.bits == 0#8 || proof self) && (other.bits == 0#8 || proof other)

def union : InvalidationImpact where
  bits :=
    ((self.bits ||| other.bits) &&&
        ~~~(STYLE_ONLY ||| TEXT_ONLY ||| LOCAL_CONTENT_ONLY ||| RESOURCE_ATTRIBUTE_ONLY)) |||
      (if unionProof self other isStyleOnly then STYLE_ONLY else 0#8) |||
      (if unionProof self other isTextOnly then TEXT_ONLY else 0#8) |||
      (if unionProof self other isLocalContentOnly then LOCAL_CONTENT_ONLY else 0#8) |||
      (if unionProof self other isResourceAttributeOnly then RESOURCE_ATTRIBUTE_ONLY else 0#8)

/-! ### What a union keeps -/

section Union

variable {self other} {bits bits' mask keep : BitVec 8} {proof : InvalidationImpact → Bool}

/-- One of the bits of the mask is set. -/
private def test (bits mask : BitVec 8) : Bool := bits &&& mask != 0#8

private theorem test_or : test (bits ||| bits') mask = (test bits mask || test bits' mask) := by
  have hdistrib : (bits ||| bits') &&& mask = bits &&& mask ||| bits' &&& mask := by
    ext i
    simp [Bool.and_or_distrib_right]
  rw [test, test, test, hdistrib, Bool.eq_iff_iff]
  simp only [bne_iff_ne, ne_eq, Bool.or_eq_true, BitVec.or_eq_zero_iff]
  exact not_and_or

private theorem test_keep (h : keep &&& mask = mask) : test (bits &&& keep) mask = test bits mask := by
  rw [test, test, BitVec.and_assoc, h]

private theorem test_clear (h : keep &&& mask = 0#8) : test (bits &&& keep) mask = false := by
  rw [test, BitVec.and_assoc, h, BitVec.and_zero]
  rfl

private theorem test_flag {given : Bool} (h : keep &&& mask = 0#8) :
    test (if given then keep else 0#8) mask = false := by
  cases given
  · simp [test]
  · simp [test, h]

private theorem test_own_flag {given : Bool} (h : keep &&& keep ≠ 0#8) :
    test (if given then keep else 0#8) keep = given := by
  cases given
  · simp [test]
  · rw [if_pos rfl, test, bne_iff_ne]
    exact h

/-- An effect of either side is one of the union. -/
private theorem test_union_effect
    (h : ~~~(STYLE_ONLY ||| TEXT_ONLY ||| LOCAL_CONTENT_ONLY ||| RESOURCE_ATTRIBUTE_ONLY) &&& mask = mask)
    (hstyle : STYLE_ONLY &&& mask = 0#8) (htext : TEXT_ONLY &&& mask = 0#8)
    (hlocal : LOCAL_CONTENT_ONLY &&& mask = 0#8) (hresource : RESOURCE_ATTRIBUTE_ONLY &&& mask = 0#8) :
    test (self.union other).bits mask = (test self.bits mask || test other.bits mask) := by
  rw [union, test_or, test_or, test_or, test_or, test_keep h, test_flag hstyle, test_flag htext,
    test_flag hlocal, test_flag hresource, test_or]
  simp only [Bool.or_false]

@[simp] theorem affectsStyle_union :
    (self.union other).affectsStyle = (self.affectsStyle || other.affectsStyle) := by
  exact test_union_effect (by decide) (by decide) (by decide) (by decide) (by decide)

@[simp] theorem affectsLayout_union :
    (self.union other).affectsLayout = (self.affectsLayout || other.affectsLayout) := by
  exact test_union_effect (by decide) (by decide) (by decide) (by decide) (by decide)

@[simp] theorem affectsIntrinsicSize_union :
    (self.union other).affectsIntrinsicSize = (self.affectsIntrinsicSize || other.affectsIntrinsicSize) := by
  exact test_union_effect (by decide) (by decide) (by decide) (by decide) (by decide)

@[simp] theorem affectsPaint_union :
    (self.union other).affectsPaint = (self.affectsPaint || other.affectsPaint) := by
  exact test_union_effect (by decide) (by decide) (by decide) (by decide) (by decide)

@[simp] theorem isStyleOnly_union :
    (self.union other).isStyleOnly = unionProof self other isStyleOnly := by
  change test (self.union other).bits STYLE_ONLY = _
  rw [union, test_or, test_or, test_or, test_or, test_clear (by decide), test_own_flag (by decide),
    test_flag (by decide), test_flag (by decide), test_flag (by decide)]
  simp only [Bool.or_false, Bool.false_or]

@[simp] theorem isTextOnly_union :
    (self.union other).isTextOnly = unionProof self other isTextOnly := by
  change test (self.union other).bits TEXT_ONLY = _
  rw [union, test_or, test_or, test_or, test_or, test_clear (by decide), test_flag (by decide),
    test_own_flag (by decide), test_flag (by decide), test_flag (by decide)]
  simp only [Bool.or_false, Bool.false_or]

@[simp] theorem isLocalContentOnly_union :
    (self.union other).isLocalContentOnly = unionProof self other isLocalContentOnly := by
  change test (self.union other).bits LOCAL_CONTENT_ONLY = _
  rw [union, test_or, test_or, test_or, test_or, test_clear (by decide), test_flag (by decide),
    test_flag (by decide), test_own_flag (by decide), test_flag (by decide)]
  simp only [Bool.or_false, Bool.false_or]

@[simp] theorem isResourceAttributeOnly_union :
    (self.union other).isResourceAttributeOnly = unionProof self other isResourceAttributeOnly := by
  change test (self.union other).bits RESOURCE_ATTRIBUTE_ONLY = _
  rw [union, test_or, test_or, test_or, test_or, test_clear (by decide), test_flag (by decide),
    test_flag (by decide), test_flag (by decide), test_own_flag (by decide)]
  simp only [Bool.or_false, Bool.false_or]

/-- A proof of the union is one of each side that has an impact. -/
theorem proof_of_unionProof (h : unionProof self other proof = true) :
    (self ≠ default → proof self = true) ∧ (other ≠ default → proof other = true) := by
  simp only [unionProof, Bool.and_eq_true, Bool.or_eq_true, beq_iff_eq] at h
  obtain ⟨⟨-, hself⟩, hother⟩ := h
  refine ⟨fun hne => hself.resolve_left fun hbits => hne ?_, fun hne => hother.resolve_left fun hbits => hne ?_⟩
  · rw [default, ← hbits]
  · rw [default, ← hbits]

end Union

end InvalidationImpact

/-! ## Mutations -/

/-- The kind of a recorded mutation; `attr` is the source's `Attribute`. -/
inductive MutationKind
  | attr (name : Str)
  | characterData
  | childList
  | textChildren
  | stylesheet
  | viewport
  | state
  | pointerDesignation
  | styleOverlay
deriving DecidableEq, Repr

/-- `matches!(name.to_ascii_lowercase().as_str(), …)`. -/
def lowercaseMatches (known : List String) (name : Str) : Bool :=
  known.any fun known => Str.toAsciiLowercase name == known.toList

def isLocalGraphicsAttribute (name : Str) : Bool :=
  ["d", "points", "x", "y", "x1", "x2", "y1", "y2", "cx", "cy", "r", "rx", "ry", "transform"].any
    fun known => Str.eqIgnoreAsciiCase name known.toList

def isResourceAttribute (name : Str) : Bool :=
  lowercaseMatches ["src", "srcset", "sizes", "width", "height"] name

def isValidationAttribute (name : Str) : Bool :=
  lowercaseMatches ["value", "checked", "selected", "required", "readonly", "disabled", "type", "min", "max",
    "step", "pattern", "minlength", "maxlength", "multiple", "form", "name"] name

open InvalidationImpact in
def MutationKind.impact : MutationKind → InvalidationImpact
  | .pointerDesignation => STYLE
  | .styleOverlay =>
    ⟨STYLE.bits ||| LAYOUT.bits ||| PAINT.bits ||| STYLE_ONLY ||| LOCAL_CONTENT_ONLY⟩
  | .attr name =>
    let base := (STYLE.union LAYOUT).union PAINT
    let base := if isLocalGraphicsAttribute name then ⟨base.bits ||| LOCAL_CONTENT_ONLY⟩ else base
    if Str.eqIgnoreAsciiCase name "style".toList then ⟨base.bits ||| STYLE_ONLY ||| LOCAL_CONTENT_ONLY⟩
    else if isResourceAttribute name then ⟨(base.union INTRINSIC_SIZE).bits ||| RESOURCE_ATTRIBUTE_ONLY⟩
    else if Str.eqIgnoreAsciiCase name "value".toList then base.union INTRINSIC_SIZE
    else base
  | .characterData => (LAYOUT.union INTRINSIC_SIZE).union PAINT
  | .textChildren =>
    ⟨STYLE.bits ||| LAYOUT.bits ||| INTRINSIC_SIZE.bits ||| PAINT.bits ||| TEXT_ONLY ||| LOCAL_CONTENT_ONLY⟩
  | .childList | .stylesheet => ((STYLE.union LAYOUT).union INTRINSIC_SIZE).union PAINT
  | .viewport | .state => (STYLE.union LAYOUT).union PAINT

/-! ## Attribute changes -/

/-- Class tokens and attribute names whose changes the cascade bounds on one element. -/
structure AttributeChange where
  node : NodeId
  tokens : List Str
  attributes : List Str
deriving DecidableEq, Repr

/-- `sort_unstable` and `dedup`. -/
def sortDedup {α : Type} [DecidableEq α] (le : α → α → Prop) [DecidableRel le] (values : List α) : List α :=
  (values.insertionSort le).dedup

@[simp] theorem mem_sortDedup {α : Type} [DecidableEq α] (le : α → α → Prop) [DecidableRel le]
    {values : List α} {value : α} : value ∈ sortDedup le values ↔ value ∈ values := by
  rw [sortDedup, List.mem_dedup]
  exact List.mem_insertionSort le

def HOVER_STATE : Str := ":hover".toList

def selectorOnlyAttribute (name : Str) : Bool :=
  let name := Str.toAsciiLowercase name
  Str.startsWith name "data-".toList || Str.startsWith name "aria-".toList || name == "role".toList

def AttributeChange.extend (existing change : AttributeChange) : AttributeChange :=
  { existing with
    tokens := sortDedup (· ≤ ·) (existing.tokens ++ change.tokens)
    attributes := sortDedup (· ≤ ·) (existing.attributes ++ change.attributes) }

/-- The first change of the same element takes the new one in; without one it is added. -/
def mergeAttributeChange : List AttributeChange → AttributeChange → List AttributeChange
  | [], change => [change]
  | existing :: changes, change =>
    if existing.node = change.node then existing.extend change :: changes
    else existing :: mergeAttributeChange changes change

def recordClassChange (changes : List AttributeChange) (node : NodeId) (tokens : List Str) :
    List AttributeChange :=
  mergeAttributeChange changes { node := node, tokens := tokens, attributes := [] }

def recordAttributeChange (changes : List AttributeChange) (node : NodeId) (name : Str) :
    List AttributeChange :=
  mergeAttributeChange changes
    { node := node, tokens := [], attributes := [Str.toAsciiLowercase name] }

/-! ## Invalidations -/

def MAX_INVALIDATION_ROOTS : Nat := 256

def MAX_DEFERRED_INVALIDATION_ROOTS : Nat := 16 * MAX_INVALIDATION_ROOTS

structure RenderInvalidation where
  roots : List NodeId
  impact : InvalidationImpact
  mutationCount : Nat
  rebuildStyleRules : Bool
  removedNodes : List NodeId
  removalsAreLocal : Bool
  attributeChanges : List AttributeChange
  childListRoots : List NodeId
  elementRoots : List NodeId
deriving DecidableEq, Repr

namespace RenderInvalidation

def viewport (root : NodeId) : RenderInvalidation where
  roots := [root]
  impact := MutationKind.viewport.impact
  mutationCount := 1
  rebuildStyleRules := true
  removedNodes := []
  removalsAreLocal := false
  attributeChanges := []
  childListRoots := []
  elementRoots := []

def full (root : NodeId) : RenderInvalidation :=
  { viewport root with impact := MutationKind.stylesheet.impact }

def isEmpty (self : RenderInvalidation) : Bool :=
  self.roots.isEmpty && self.attributeChanges.isEmpty

/-- Roots whose whole subtree may have changed. -/
def fullRoots (self : RenderInvalidation) : List NodeId :=
  self.roots.filter fun root => !self.childListRoots.contains root && !self.elementRoots.contains root

/-- `usize::MAX`, where `saturating_add` stops. -/
def USIZE_MAX : Nat := 2 ^ 64 - 1

/-- The roots of two invalidations, each as strong as the stronger one had it. -/
def mergeRoots (self other : RenderInvalidation) : RenderInvalidation :=
  let full := self.fullRoots ++ other.fullRoots
  let childListRoots :=
    sortDedup (· ≤ ·) ((self.childListRoots ++ other.childListRoots).filter fun root => !full.contains root)
  { self with
    childListRoots := childListRoots
    elementRoots := sortDedup (· ≤ ·) ((self.elementRoots ++ other.elementRoots).filter fun root =>
      !full.contains root && !childListRoots.contains root)
    roots := sortDedup (· ≤ ·) (self.roots ++ other.roots)
    attributeChanges := other.attributeChanges.foldl mergeAttributeChange self.attributeChanges }

/-- Too many roots become the document. -/
def limitRoots (self : RenderInvalidation) (documentRoot : NodeId) (limit : Nat) : RenderInvalidation :=
  if self.roots.contains documentRoot || decide (limit < self.roots.length) ||
      decide (limit < self.attributeChanges.length) then
    { self with roots := [documentRoot], attributeChanges := [], childListRoots := [], elementRoots := [] }
  else self

def mergeWithRootLimit (self other : RenderInvalidation) (documentRoot : NodeId) (limit : Nat) :
    RenderInvalidation :=
  if other.isEmpty then self
  else if self.isEmpty then other
  else
    { (self.mergeRoots other).limitRoots documentRoot limit with
      impact := self.impact.union other.impact
      mutationCount := min (self.mutationCount + other.mutationCount) USIZE_MAX
      rebuildStyleRules := self.rebuildStyleRules || other.rebuildStyleRules
      removalsAreLocal :=
        if other.removedNodes.isEmpty then self.removalsAreLocal
        else (self.removedNodes.isEmpty || self.removalsAreLocal) && other.removalsAreLocal
      removedNodes := sortDedup (· ≤ ·) (self.removedNodes ++ other.removedNodes) }

def mergeConservatively (self other : RenderInvalidation) (documentRoot : NodeId) : RenderInvalidation :=
  self.mergeWithRootLimit other documentRoot MAX_INVALIDATION_ROOTS

end RenderInvalidation

/-! ## Validation dependents -/

/-- Form owner and fieldsets whose selectors a control's validation state can flip. -/
def validationAggregationRoots (heap : Heap) (control : NodeId) : List NodeId :=
  let own :=
    if heap.tagName control == some "form".toList || heap.tagName control == some "fieldset".toList then
      [control]
    else []
  let owner :=
    match heap.formOwner control with
    | some owner =>
      if owner = control then []
      else ((heap.descendants (heap.treeRoot control)).find? fun node => node == owner).toList
    | none => []
  own ++ owner ++ (heap.ancestors control).filter fun node => heap.tagName node == some "fieldset".toList

end BetterWebBrowser.Rendering
