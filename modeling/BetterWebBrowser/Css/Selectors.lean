import BetterWebBrowser.Css.Scanning
import Mathlib.Data.Prod.Lex

/-!
# Selectors

Compound selectors joined by combinators, with selectors again in their functional
pseudo-classes. Specificities are three counters of sixteen bits.
-/

namespace BetterWebBrowser.Css

open Framework

/-! ## Specificity -/

structure Specificity where
  ids : UInt16 := 0
  classes : UInt16 := 0
  tags : UInt16 := 0
deriving DecidableEq, Repr

def saturatingAdd (a b : UInt16) : UInt16 := if a.toNat + b.toNat < 65536 then a + b else 65535

def saturatingSub (a b : UInt16) : UInt16 := if b ≤ a then a - b else 0

namespace Specificity

/-- The order: ids first, then classes, then tags. -/
def key (s : Specificity) : Nat ×ₗ Nat ×ₗ Nat := toLex (s.ids.toNat, toLex (s.classes.toNat, s.tags.toNat))

/-- `+=` on the counters: it wraps where overflow is not checked, and panics where it is. -/
def plus (s t : Specificity) : Specificity := ⟨s.ids + t.ids, s.classes + t.classes, s.tags + t.tags⟩

/-- `add_specificity` -/
def saturating (s t : Specificity) : Specificity :=
  ⟨saturatingAdd s.ids t.ids, saturatingAdd s.classes t.classes, saturatingAdd s.tags t.tags⟩

def max (s t : Specificity) : Specificity := if s.key ≤ t.key then t else s

/-- `max().unwrap_or_default()` -/
def maximum (specificities : List Specificity) : Specificity := specificities.foldl max {}

end Specificity

/-! ## The representation -/

inductive AttributeOperator
  | Exists
  | Equals
  | Includes
  | DashMatch
  | Prefix
  | Suffix
  | Substring
deriving DecidableEq, Repr

inductive AttributeCaseSensitivity
  | Default
  | AsciiInsensitive
  | Sensitive
deriving DecidableEq, Repr

structure AttributeSelector where
  name : Str
  operator : AttributeOperator
  value : Str
  caseSensitivity : AttributeCaseSensitivity
deriving DecidableEq, Repr

inductive TextDirection
  | Ltr
  | Rtl
deriving DecidableEq, Repr

inductive FunctionalSelectorKind
  | Is
  | Where
  | Not
deriving DecidableEq, Repr

inductive RelativeSearch
  | Descendants
  | Children
  | FollowingSiblings
  | SiblingAt (offset : Nat)
  | LaterSiblings
deriving DecidableEq, Repr

/-- The `requires_` flags of a compound. -/
inductive Requirement
  | Link
  | Unvisited
  | Visited
  | FirstChild
  | FirstOfType
  | LastChild
  | LastOfType
  | OnlyChild
  | OnlyOfType
  | Empty
  | HasSlotted
  | Root
  | Scope
  | Enabled
  | Disabled
  | ReadWrite
  | ReadOnly
  | Fullscreen
  | PopoverOpen
  | Hover
  | Focus
  | FocusWithin
  | Checked
  | Indeterminate
  | Valid
  | Invalid
  | Required
  | Optional
  | InRange
  | OutOfRange
deriving DecidableEq, Repr

mutual

structure Selector where
  compounds : List CompoundSelector
  combinators : List Combinator
  specificity : Specificity

/-- `requires` has the flags that are set. -/
structure CompoundSelector where
  tag : Option Str := none
  id : Option Str := none
  classes : List Str := []
  attributes : List AttributeSelector := []
  functional : List FunctionalSelector := []
  has : List (List RelativeSelector) := []
  nth : List NthSelector := []
  languages : List (List Str) := []
  directions : List TextDirection := []
  requires : List Requirement := []
  neverMatches : Bool := false

structure FunctionalSelector where
  kind : FunctionalSelectorKind
  selectors : List Selector

structure RelativeSelector where
  selector : Selector
  search : RelativeSearch

structure NthSelector where
  a : Int
  b : Int
  fromEnd : Bool
  ofType : Bool
  filter : List Selector

end

/-! ## Support -/

mutual

def selectorIsSupported (selector : Selector) : Bool :=
  match selector with
  | ⟨compounds, _, _⟩ => compoundsAreSupported compounds
termination_by structural selector

def compoundsAreSupported (compounds : List CompoundSelector) : Bool :=
  match compounds with
  | [] => true
  | compound :: compounds => compoundIsSupported compound && compoundsAreSupported compounds
termination_by structural compounds

def compoundIsSupported (compound : CompoundSelector) : Bool :=
  match compound with
  | ⟨_, _, _, _, functional, has, nth, _, _, _, neverMatches⟩ =>
    !neverMatches && hasIsSupported has && nthIsSupported nth && functionalIsSupported functional
termination_by structural compound

def hasIsSupported (has : List (List RelativeSelector)) : Bool :=
  match has with
  | [] => true
  | alternatives :: has => relativesAreSupported alternatives && hasIsSupported has
termination_by structural has

def relativesAreSupported (relatives : List RelativeSelector) : Bool :=
  match relatives with
  | [] => true
  | relative :: relatives => relativeIsSupported relative && relativesAreSupported relatives
termination_by structural relatives

def relativeIsSupported (relative : RelativeSelector) : Bool :=
  match relative with
  | ⟨selector, _⟩ => selectorIsSupported selector
termination_by structural relative

def nthIsSupported (nth : List NthSelector) : Bool :=
  match nth with
  | [] => true
  | one :: nth => filterIsSupported one && nthIsSupported nth
termination_by structural nth

def filterIsSupported (nth : NthSelector) : Bool :=
  match nth with
  | ⟨_, _, _, _, filter⟩ => selectorsAreSupported filter
termination_by structural nth

def functionalIsSupported (functional : List FunctionalSelector) : Bool :=
  match functional with
  | [] => true
  | function :: functional => functionIsSupported function && functionalIsSupported functional
termination_by structural functional

def functionIsSupported (function : FunctionalSelector) : Bool :=
  match function with
  | ⟨_, selectors⟩ => selectorsAreSupported selectors
termination_by structural function

def selectorsAreSupported (selectors : List Selector) : Bool :=
  match selectors with
  | [] => true
  | selector :: selectors => selectorIsSupported selector && selectorsAreSupported selectors
termination_by structural selectors

end

/-! ## Simple selectors -/

/-- A simple selector of a compound, with what the text in it parsed to. -/
inductive SimpleSelector
  | Tag (tag : Str)
  | Nesting (parent : Option (List Selector)) (parentSpecificity : Option Specificity)
  | Id (id : Str)
  | Class (name : Str)
  | Attribute (selector : AttributeSelector)
  | PseudoClass (requires : List Requirement)
  | NeverMatching
  | SelectorList (kind : FunctionalSelectorKind) (selectors : List Selector)
  | Has (relatives : List RelativeSelector) (specificity : Specificity)
  | Languages (ranges : List Str)
  | Direction (direction : TextDirection)
  | Nth (nth : NthSelector) (filterSpecificity : Specificity)

/-- What the parser writes into the compound for a simple selector. -/
def CompoundSelector.add (compound : CompoundSelector) : SimpleSelector → CompoundSelector
  | .Tag tag => { compound with tag := some tag }
  | .Nesting none _ => { compound with requires := compound.requires ++ [.Scope] }
  | .Nesting (some []) _ => { compound with neverMatches := true }
  | .Nesting (some (first :: parent)) _ =>
    { compound with functional := compound.functional ++ [⟨.Is, first :: parent⟩] }
  | .Id id => { compound with id := some id }
  | .Class name => { compound with classes := compound.classes ++ [name] }
  | .Attribute selector => { compound with attributes := compound.attributes ++ [selector] }
  | .PseudoClass requires => { compound with requires := compound.requires ++ requires }
  | .NeverMatching => { compound with neverMatches := true }
  | .SelectorList _ [] => { compound with neverMatches := true }
  | .SelectorList kind (first :: selectors) =>
    { compound with functional := compound.functional ++ [⟨kind, first :: selectors⟩] }
  | .Has relatives _ => { compound with has := compound.has ++ [relatives] }
  | .Languages ranges => { compound with languages := compound.languages ++ [ranges] }
  | .Direction direction => { compound with directions := compound.directions ++ [direction] }
  | .Nth nth _ => { compound with nth := compound.nth ++ [nth] }

/-- What it adds to the specificity. -/
def Specificity.add (specificity : Specificity) : SimpleSelector → Specificity
  | .Tag _ => specificity.plus { tags := 1 }
  | .Nesting none _ => specificity
  | .Nesting (some []) _ => specificity
  | .Nesting (some (first :: parent)) parentSpecificity =>
    specificity.saturating (parentSpecificity.getD (maximum ((first :: parent).map Selector.specificity)))
  | .Id _ => specificity.plus { ids := 1 }
  | .Class _ => specificity.plus { classes := 1 }
  | .Attribute _ => specificity.plus { classes := 1 }
  | .PseudoClass _ => specificity.plus { classes := 1 }
  | .NeverMatching => specificity.plus { classes := 1 }
  | .SelectorList _ [] => specificity
  | .SelectorList kind (first :: selectors) =>
    if kind = .Where then specificity
    else specificity.saturating (maximum ((first :: selectors).map Selector.specificity))
  | .Has _ argument => specificity.saturating argument
  | .Languages _ => specificity.saturating { classes := 1 }
  | .Direction _ => specificity.saturating { classes := 1 }
  | .Nth _ filterSpecificity => (specificity.saturating { classes := 1 }).saturating filterSpecificity

end BetterWebBrowser.Css
