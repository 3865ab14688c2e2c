import BetterWebBrowser.Css.Selectors
import BetterWebBrowser.Dom.Slots

/-!
# Selector matching

A compound is tested on a node with `:scope` bound to another one or to none. The compounds of a
complex selector are tested from the last one on, each at the nodes that its combinator leads to.
-/

namespace BetterWebBrowser.Css

open Framework Dom

/-- What a node and the one that `:scope` is bound to have to satisfy. -/
abbrev Test := NodeId → Option NodeId → Bool

/-- What is known of an element besides its tree and its attributes. -/
structure ElementFacts where
  matchesAsVisited : NodeId → Bool
  readWrite : NodeId → Bool
  hovered : NodeId → Bool
  focused : NodeId → Bool
  focusWithin : NodeId → Bool
  checked : NodeId → Bool
  indeterminate : NodeId → Bool
  valid : NodeId → Bool
  invalid : NodeId → Bool
  required : NodeId → Bool
  optional : NodeId → Bool
  inRange : NodeId → Bool
  outOfRange : NodeId → Bool
  popoverOpen : NodeId → Bool
  hasSlotted : NodeId → Bool
  direction : NodeId → TextDirection

/-- An element in no particular state. -/
def plainFacts : ElementFacts where
  matchesAsVisited := fun _ => false
  readWrite := fun _ => false
  hovered := fun _ => false
  focused := fun _ => false
  focusWithin := fun _ => false
  checked := fun _ => false
  indeterminate := fun _ => false
  valid := fun _ => true
  invalid := fun _ => false
  required := fun _ => false
  optional := fun _ => true
  inRange := fun _ => false
  outOfRange := fun _ => false
  popoverOpen := fun _ => false
  hasSlotted := fun _ => false
  direction := fun _ => .Ltr

def htmlNamespace : Str := "http://www.w3.org/1999/xhtml".toList

section Tests

variable (heap : Heap) (facts : ElementFacts)

def isElement (node : NodeId) : Bool := (heap.element node).isSome

def hasClass (node : NodeId) (wanted : Str) : Bool :=
  ((heap.attr node "class".toList).map Str.splitAsciiWhitespace).getD [] |>.contains wanted

/-! ## Attributes -/

/-- Attributes whose values are compared without case in HTML. -/
def htmlCaseInsensitiveAttributes : List String :=
  ["accept", "accept-charset", "align", "alink", "axis", "bgcolor", "charset", "checked", "clear", "codetype",
    "color", "compact", "declare", "defer", "dir", "direction", "disabled", "enctype", "face", "frame", "hreflang",
    "http-equiv", "lang", "language", "link", "media", "method", "multiple", "nohref", "noresize", "noshade",
    "nowrap", "readonly", "rel", "rev", "rules", "scope", "scrolling", "selected", "shape", "target", "text",
    "type", "valign", "valuetype", "vlink"]

def AttributeSelector.caseInsensitive (selector : AttributeSelector) (node : NodeId) : Bool :=
  match selector.caseSensitivity with
  | .AsciiInsensitive => true
  | .Sensitive => false
  | .Default =>
    heap.namespaceUri node == some htmlNamespace &&
      htmlCaseInsensitiveAttributes.any fun name => decide (name.toList = selector.name)

def AttributeOperator.holds (operator : AttributeOperator) (actual expected : Str) : Bool :=
  match operator with
  | .Exists => true
  | .Equals => decide (actual = expected)
  | .Includes => (Str.splitAsciiWhitespace actual).contains expected
  | .DashMatch =>
    decide (actual = expected) || (Str.stripPrefix actual expected).any fun suffix => suffix.head? == some '-'
  | .Prefix => Str.startsWith actual expected
  | .Suffix => expected.isSuffixOf actual
  | .Substring => actual.tails.any fun tail => Str.startsWith tail expected

def attributeMatches (selector : AttributeSelector) (node : NodeId) : Bool :=
  match heap.attr node selector.name with
  | none => false
  | some actual =>
    if selector.operator = .Exists then true
    else if selector.value = [] ∧ selector.operator ≠ .Equals then false
    else if selector.caseInsensitive heap node then
      selector.operator.holds (Str.toAsciiLowercase actual) (Str.toAsciiLowercase selector.value)
    else selector.operator.holds actual selector.value

/-! ## Language and direction -/

def inheritedLanguage (node : NodeId) : Option Str :=
  (heap.inclusiveShadowAncestors node).findSome? fun current =>
    (heap.attr current "lang".toList).or (heap.attr current "xml:lang".toList)

def splitOn (delimiter : Char) : Str → List Str
  | [] => [[]]
  | c :: s =>
    if c = delimiter then [] :: splitOn delimiter s
    else
      match splitOn delimiter s with
      | [] => [[c]]
      | part :: parts => (c :: part) :: parts

def validFirstSubtag (part : Str) : Bool :=
  !part.isEmpty && decide (part.length ≤ 8) && part.all Str.isAsciiAlphabetic

def validSubtag (part : Str) : Bool :=
  !part.isEmpty && decide (part.length ≤ 8) && part.all Str.isAsciiAlphanumeric

def validLanguageRange (range : Str) : Bool :=
  match splitOn '-' range with
  | [] => false
  | first :: parts =>
    (decide (first = ['*']) || validFirstSubtag first) &&
      parts.all fun part => decide (part = ['*']) || validSubtag part

def validLanguageTag (tag : Str) : Bool :=
  match splitOn '-' tag with
  | [] => false
  | first :: parts => validFirstSubtag first && parts.all validSubtag

/-- The subtags of a tag hold those of a range in its order, and no singleton is skipped. -/
def subtagsMatch : List Str → List Str → Bool
  | [], _ => true
  | wanted :: range, tags =>
    if wanted = ['*'] then subtagsMatch range tags
    else
      match tags with
      | [] => false
      | actual :: tags =>
        if Str.eqIgnoreAsciiCase wanted actual then subtagsMatch range tags
        else if Str.byteLen actual = 1 then false
        else subtagsMatch (wanted :: range) tags
termination_by range tags => range.length + tags.length

def languageRangeMatches (range : Str) (language : Option Str) : Bool :=
  let language := language.getD []
  if range.isEmpty then language.isEmpty
  else if !validLanguageRange range || !validLanguageTag language then false
  else
    match splitOn '-' range, splitOn '-' language with
    | first :: range, tag :: tags =>
      (decide (first = ['*']) || Str.eqIgnoreAsciiCase first tag) && subtagsMatch range tags
    | _, _ => false

def matchesLanguages (ranges : List Str) (node : NodeId) : Bool :=
  ranges.any fun range => languageRangeMatches range (inheritedLanguage heap node)

/-! ## Element states -/

def isDisableable (node : NodeId) : Bool :=
  (heap.tagName node).any fun tag =>
    ["button", "fieldset", "input", "optgroup", "option", "select", "textarea"].any fun name =>
      decide (name.toList = tag)

/-- A disabled fieldset disables what is outside of its first legend. -/
def fieldsetDisables (node fieldset : NodeId) : Bool :=
  heap.tagName fieldset == some "fieldset".toList && (heap.attr fieldset "disabled".toList).isSome &&
    !((heap.children fieldset).find? fun child => heap.tagName child == some "legend".toList).any fun legend =>
      (heap.ancestors node).contains legend

def isDisabled (node : NodeId) : Bool :=
  if (heap.attr node "disabled".toList).isSome then true
  else if heap.tagName node = some "option".toList then
    (heap.parent node).any fun parent =>
      heap.tagName parent == some "optgroup".toList && (heap.attr parent "disabled".toList).isSome
  else if heap.tagName node = some "optgroup".toList then false
  else (heap.ancestors node).any (fieldsetDisables heap node)

def isLink (node : NodeId) : Bool :=
  heap.tagName node == some "a".toList && (heap.attr node "href".toList).isSome

def linkMatches (requires : List Requirement) (node : NodeId) : Bool :=
  isLink heap node &&
    match requires.contains .Visited, requires.contains .Unvisited with
    | true, true => false
    | true, false => facts.matchesAsVisited node
    | false, true => !facts.matchesAsVisited node
    | false, false => true

def isRoot (node : NodeId) : Bool := (heap.parent node).any fun parent => (heap.data parent).isDocument

def matchesScope (node : NodeId) (scope : Option NodeId) : Bool :=
  match scope with
  | none => isRoot heap node
  | some scope => scope == node

/-! ## Structure -/

def matchesEmpty (node : NodeId) : Bool :=
  (heap.children node).all fun child =>
    match heap.data child with
    | .element _ => false
    | .text contents => contents.isEmpty
    | .cdata contents => contents.isEmpty
    | _ => true

/-- The element siblings of a node and the node; none for a root. -/
def siblingElements (node : NodeId) : List NodeId :=
  ((heap.parent node).map heap.children).getD [] |>.filter (isElement heap)

def sameType (node child : NodeId) : Bool :=
  heap.tagName child == heap.tagName node && heap.namespaceUri child == heap.namespaceUri node

/-- The position of the node among its siblings of a kind, from 1 on, and their number. -/
def position (node : NodeId) (included : NodeId → Bool) : Option (Nat × Nat) :=
  let (position, count) := ((siblingElements heap node).filter included).foldl
    (fun (position, count) child => (if child = node then some (count + 1) else position, count + 1)) (none, 0)
  position.map fun position => (position, count)

def isFirst (node : NodeId) : Bool := (siblingElements heap node).head? == some node

def isLast (node : NodeId) : Bool := (siblingElements heap node).getLast? == some node

def ofType (node : NodeId) (holds : Nat → Nat → Bool) : Bool :=
  (position heap node (sameType heap node)).any fun (index, count) => holds index count

/-- The division rounds towards zero, as the remainder does. -/
def matchesAnPlusB (index : Nat) (a b : Int) : Bool :=
  let delta := (index : Int) - b
  if a = 0 then delta == 0 else delta.tmod a == 0 && decide (0 ≤ delta.tdiv a)

def nthMatches (a b : Int) (fromEnd : Bool) (included : NodeId → Bool) (node : NodeId) : Bool :=
  (position heap node included).any fun (index, count) =>
    matchesAnPlusB (if fromEnd then count + 1 - index else index) a b

/-- One of the flags; `requires` has all of them. -/
def requirementMatches (requires : List Requirement) (node : NodeId) (scope : Option NodeId) : Requirement → Bool
  | .Link => linkMatches heap facts requires node
  | .Unvisited => true
  | .Visited => true
  | .FirstChild => isFirst heap node
  | .FirstOfType => ofType heap node fun index _ => index == 1
  | .LastChild => isLast heap node
  | .LastOfType => ofType heap node fun index count => index == count
  | .OnlyChild => isFirst heap node && isLast heap node
  | .OnlyOfType => ofType heap node fun _ count => count == 1
  | .Empty => matchesEmpty heap node
  | .HasSlotted => facts.hasSlotted node
  | .Root => isRoot heap node
  | .Scope => matchesScope heap node scope
  | .Enabled => isDisableable heap node && !isDisabled heap node
  | .Disabled => isDisableable heap node && isDisabled heap node
  | .ReadWrite => facts.readWrite node
  | .ReadOnly => !facts.readWrite node
  | .Fullscreen => heap.isFullscreen node
  | .PopoverOpen =>
    facts.popoverOpen node && (heap.attr node "popover".toList).isSome && heap.namespaceUri node == some htmlNamespace
  | .Hover => facts.hovered node
  | .Focus => facts.focused node
  | .FocusWithin => facts.focusWithin node
  | .Checked => facts.checked node
  | .Indeterminate => facts.indeterminate node
  | .Valid => facts.valid node
  | .Invalid => facts.invalid node
  | .Required => facts.required node
  | .Optional => facts.optional node
  | .InRange => facts.inRange node
  | .OutOfRange => facts.outOfRange node

/-! ## Complex selectors -/

/-- The children before the node, the nearest first. -/
def previousElementSiblings (node : NodeId) : List NodeId :=
  let siblings := ((heap.parent node).map heap.children).getD []
  (siblings.take ((siblings.idxOf? node).getD 0)).reverse.filter (isElement heap)

/-- Where the compound before a combinator has to match. -/
def leftward (node : NodeId) : Combinator → List NodeId
  | .Child => (heap.parent node).toList
  | .Descendant => heap.ancestors node
  | .AdjacentSibling => (previousElementSiblings heap node).take 1
  | .GeneralSibling => previousElementSiblings heap node

/-- `matches_at`: the compounds and the combinators, the last ones first. -/
def matchesAt : List Test → List Combinator → Test
  | [], _, _, _ => false
  | [test], _, node, scope => test node scope
  | _ :: _ :: _, [], _, _ => false
  | test :: previous :: tests, combinator :: combinators, node, scope =>
    test node scope &&
      (leftward heap node combinator).any fun candidate => matchesAt (previous :: tests) combinators candidate scope

/-! ## Relative selectors -/

/-- The element siblings after the anchor. -/
def following (anchor : NodeId) : List NodeId :=
  match heap.parent anchor with
  | none => []
  | some parent =>
    match (heap.children parent).idxOf? anchor with
    | none => []
    | some index => ((heap.children parent).drop (index + 1)).filter (isElement heap)

/-- The nodes that are taken from the work list, which has the last child on top. -/
def searched (stack : List NodeId) : List NodeId :=
  (StackWalk.walk (fun node => (heap.children node).reverse) (heap.allocated.length + 1) stack).1

/-- The nodes that a search looks at. -/
def candidates (anchor : NodeId) : RelativeSearch → List NodeId
  | .Descendants => searched heap [anchor]
  | .Children => heap.children anchor
  | .FollowingSiblings => searched heap (following heap anchor).reverse
  | .SiblingAt offset => (following heap anchor)[offset - 1]?.toList
  | .LaterSiblings => following heap anchor

def relativeSelectorMatches (test : Test) (search : RelativeSearch) (anchor : NodeId) : Bool :=
  (candidates heap anchor search).any fun candidate => isElement heap candidate && test candidate (some anchor)

/-! ## Compounds -/

def functionMatches (kind : FunctionalSelectorKind) (tests : List Test) : Test := fun node scope =>
  let found := tests.any fun test => test node scope
  match kind with
  | .Is => found
  | .Where => found
  | .Not => !found

mutual

def selectorMatchesWithScope (selector : Selector) : Test :=
  match selector with
  | ⟨compounds, combinators, _⟩ => matchesAt heap (compoundTests compounds).reverse combinators.reverse
termination_by structural selector

def compoundTests (compounds : List CompoundSelector) : List Test :=
  match compounds with
  | [] => []
  | compound :: compounds => compoundMatches compound :: compoundTests compounds
termination_by structural compounds

def compoundMatches (compound : CompoundSelector) : Test :=
  match compound with
  | ⟨tag, id, classes, attributes, functional, has, nth, languages, directions, requires, neverMatches⟩ =>
    fun node scope =>
      !neverMatches && isElement heap node &&
        tag.all (fun tag => heap.tagName node == some tag) &&
        id.all (fun id => heap.attr node "id".toList == some id) &&
        classes.all (hasClass heap node) &&
        attributes.all (fun selector => attributeMatches heap selector node) &&
        requires.all (requirementMatches heap facts requires node scope) &&
        (nthTests nth).all (fun test => test node scope) &&
        languages.all (fun ranges => matchesLanguages heap ranges node) &&
        directions.all (fun direction => direction == facts.direction node) &&
        (hasTests has).all (fun test => test node) &&
        (functionalTests functional).all (fun test => test node scope)
termination_by structural compound

def nthTests (nth : List NthSelector) : List Test :=
  match nth with
  | [] => []
  | one :: nth => nthTest one :: nthTests nth
termination_by structural nth

def nthTest (nth : NthSelector) : Test :=
  match nth with
  | ⟨a, b, fromEnd, ofType, filter⟩ => fun node scope =>
    let filterTests := selectorTests filter
    let included := fun child =>
      if ofType then sameType heap node child else filterTests.isEmpty || filterTests.any fun test => test child scope
    nthMatches heap a b fromEnd included node
termination_by structural nth

def hasTests (has : List (List RelativeSelector)) : List (NodeId → Bool) :=
  match has with
  | [] => []
  | alternatives :: has => (fun node => (relativeTests alternatives).any fun test => test node) :: hasTests has
termination_by structural has

def relativeTests (relatives : List RelativeSelector) : List (NodeId → Bool) :=
  match relatives with
  | [] => []
  | relative :: relatives => relativeTest relative :: relativeTests relatives
termination_by structural relatives

def relativeTest (relative : RelativeSelector) : NodeId → Bool :=
  match relative with
  | ⟨selector, search⟩ => relativeSelectorMatches heap (selectorMatchesWithScope selector) search
termination_by structural relative

def functionalTests (functional : List FunctionalSelector) : List Test :=
  match functional with
  | [] => []
  | function :: functional => functionalTest function :: functionalTests functional
termination_by structural functional

def functionalTest (function : FunctionalSelector) : Test :=
  match function with
  | ⟨kind, selectors⟩ => functionMatches kind (selectorTests selectors)
termination_by structural function

def selectorTests (selectors : List Selector) : List Test :=
  match selectors with
  | [] => []
  | selector :: selectors => selectorMatchesWithScope selector :: selectorTests selectors
termination_by structural selectors

end

end Tests

end BetterWebBrowser.Css
