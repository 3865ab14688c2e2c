import BetterWebBrowser.Css.CompoundText
import BetterWebBrowser.Css.SelectorMatch
import BetterWebBrowser.Css.Totals

/-!
# Compounds as conjunctions

A compound has one field for an id and lists for everything else that may be written several
times. An element matches it when it matches the last id and each of the other simple selectors.
-/

namespace BetterWebBrowser.Css

open Framework Dom

/-! ## Simple selectors -/

namespace SimpleSelector

/-- What it adds to the specificity. -/
def part : SimpleSelector → Specificity.Part
  | .Tag _ => ⟨{ tags := 1 }, true⟩
  | .Nesting none _ => ⟨{}, false⟩
  | .Nesting (some []) _ => ⟨{}, false⟩
  | .Nesting (some (first :: parent)) parentSpecificity =>
    ⟨parentSpecificity.getD (Specificity.maximum ((first :: parent).map Selector.specificity)), false⟩
  | .Id _ => ⟨{ ids := 1 }, true⟩
  | .Class _ => ⟨{ classes := 1 }, true⟩
  | .Attribute _ => ⟨{ classes := 1 }, true⟩
  | .PseudoClass _ => ⟨{ classes := 1 }, true⟩
  | .NeverMatching => ⟨{ classes := 1 }, true⟩
  | .SelectorList _ [] => ⟨{}, false⟩
  | .SelectorList kind (first :: selectors) =>
    ⟨if kind = .Where then {} else Specificity.maximum ((first :: selectors).map Selector.specificity), false⟩
  | .Has _ argument => ⟨argument, false⟩
  | .Languages _ => ⟨{ classes := 1 }, false⟩
  | .Direction _ => ⟨{ classes := 1 }, false⟩
  | .Nth _ filterSpecificity => ⟨Specificity.saturating { classes := 1 } filterSpecificity, false⟩

theorem saturating_zero (s : Specificity) : s.saturating {} = s := by
  have hzero : ∀ a : UInt16, saturatingAdd a 0 = a := by
    intro a
    have hlt := a.toNat_lt
    have hzero : (0 : UInt16).toNat = 0 := rfl
    rw [saturatingAdd, if_pos (by omega), UInt16.add_zero]
  simp [Specificity.saturating, hzero]

theorem add_eq_addTo (s : Specificity) (simple : SimpleSelector) : s.add simple = simple.part.addTo s := by
  rw [Specificity.add.eq_def, part.eq_def]
  split
  · rfl
  · exact (saturating_zero s).symm
  · exact (saturating_zero s).symm
  · rfl
  · rfl
  · rfl
  · rfl
  · rfl
  · rfl
  · exact (saturating_zero s).symm
  · dsimp only [Specificity.Part.addTo]
    split
    · exact (saturating_zero s).symm
    · rfl
  · rfl
  · rfl
  · rfl
  · exact Specificity.saturating_assoc _ _ _

theorem foldl_add (simples : List SimpleSelector) :
    simples.foldl Specificity.add {} = Specificity.running (simples.map part) := by
  rw [Specificity.running, List.foldl_map]
  congr 1
  funext s simple
  exact add_eq_addTo s simple

/-- An element matches a simple selector when it matches the compound of it alone. -/
def holds (heap : Heap) (facts : ElementFacts) (simple : SimpleSelector) : Test :=
  compoundMatches heap facts (CompoundSelector.add {} simple)

def idOf : SimpleSelector → Option Str
  | .Id id => some id
  | _ => none

theorem eq_id {simple : SimpleSelector} {id : Str} (h : simple.idOf = some id) : simple = .Id id := by
  cases simple <;> first | cases h; rfl | cases h

/-- The flags of `:link` and `:visited` come with the one of `:any-link`. -/
def Linked (requires : List Requirement) : Prop :=
  ∀ requirement ∈ requires, requirement = .Visited ∨ requirement = .Unvisited → Requirement.Link ∈ requires

end SimpleSelector

open SimpleSelector

def ids (simples : List SimpleSelector) : List Str := simples.filterMap idOf

section Core

variable {heap : Heap} {facts : ElementFacts} {node : NodeId} {scope : Option NodeId} {compound : CompoundSelector}

/-- One flag by itself. -/
def flagHolds (heap : Heap) (facts : ElementFacts) (node : NodeId) (scope : Option NodeId) (flag : Requirement) : Prop :=
  match flag with
  | .Link => isLink heap node = true
  | .Visited => isLink heap node = true ∧ facts.matchesAsVisited node = true
  | .Unvisited => isLink heap node = true ∧ facts.matchesAsVisited node = false
  | other => requirementMatches heap facts [] node scope other = true

theorem linkMatches_iff (requires : List Requirement) : linkMatches heap facts requires node = true ↔
    isLink heap node = true ∧ (Requirement.Visited ∈ requires → facts.matchesAsVisited node = true) ∧
      (Requirement.Unvisited ∈ requires → facts.matchesAsVisited node = false) := by
  rw [linkMatches, Bool.and_eq_true]
  cases hvisited : requires.contains .Visited <;> cases hunvisited : requires.contains .Unvisited <;>
    cases facts.matchesAsVisited node <;> simp_all

/-- The flags are tested together, but each for itself. -/
theorem requires_iff {requires : List Requirement} (hlinked : Linked requires) :
    requires.all (requirementMatches heap facts requires node scope) = true ↔
      ∀ flag ∈ requires, flagHolds heap facts node scope flag := by
  rw [List.all_eq_true]
  constructor
  · intro h flag hflag
    have hlink : Requirement.Link ∈ requires → linkMatches heap facts requires node = true := fun hmem => h .Link hmem
    cases flag with
    | Link => exact ((linkMatches_iff requires).mp (hlink hflag)).1
    | Visited =>
      have hboth := (linkMatches_iff requires).mp (hlink (hlinked _ hflag (Or.inl rfl)))
      exact ⟨hboth.1, hboth.2.1 hflag⟩
    | Unvisited =>
      have hboth := (linkMatches_iff requires).mp (hlink (hlinked _ hflag (Or.inr rfl)))
      exact ⟨hboth.1, hboth.2.2 hflag⟩
    | _ => exact h _ hflag
  · intro h flag hflag
    cases flag with
    | Link => exact (linkMatches_iff requires).mpr ⟨h .Link hflag, fun hv => (h _ hv).2, fun hu => (h _ hu).2⟩
    | Visited => rfl
    | Unvisited => rfl
    | _ => exact h _ hflag

/-- Everything that a compound asks for but the id. -/
structure Core (heap : Heap) (facts : ElementFacts) (compound : CompoundSelector) (node : NodeId)
    (scope : Option NodeId) : Prop where
  never : compound.neverMatches = false
  element : isElement heap node = true
  tag : ∀ tag ∈ compound.tag, heap.tagName node = some tag
  classes : ∀ name ∈ compound.classes, hasClass heap node name = true
  attributes : ∀ selector ∈ compound.attributes, attributeMatches heap selector node = true
  requires : ∀ flag ∈ compound.requires, flagHolds heap facts node scope flag
  nth : ∀ nth ∈ compound.nth, nthTest heap facts nth node scope = true
  languages : ∀ ranges ∈ compound.languages, matchesLanguages heap ranges node = true
  directions : ∀ direction ∈ compound.directions, direction = facts.direction node
  has : ∀ alternatives ∈ compound.has, ∃ relative ∈ alternatives, relativeTest heap facts relative node = true
  functional : ∀ function ∈ compound.functional, functionalTest heap facts function node scope = true

theorem nthTests_eq (nth : List NthSelector) : nthTests heap facts nth = nth.map (nthTest heap facts) := by
  induction nth with
  | nil => rfl
  | cons one nth ih => exact congrArg _ ih

theorem functionalTests_eq (functional : List FunctionalSelector) :
    functionalTests heap facts functional = functional.map (functionalTest heap facts) := by
  induction functional with
  | nil => rfl
  | cons function functional ih => exact congrArg _ ih

theorem relativeTests_eq (relatives : List RelativeSelector) :
    relativeTests heap facts relatives = relatives.map (relativeTest heap facts) := by
  induction relatives with
  | nil => rfl
  | cons relative relatives ih => exact congrArg _ ih

theorem hasTests_eq (has : List (List RelativeSelector)) :
    hasTests heap facts has = has.map fun alternatives node =>
      alternatives.any fun relative => relativeTest heap facts relative node := by
  induction has with
  | nil => rfl
  | cons alternatives has ih =>
    show _ :: hasTests heap facts has = _
    rw [ih, List.map_cons, relativeTests_eq]
    congr 1
    funext node
    rw [List.any_map]
    rfl

theorem compoundMatches_iff (hlinked : Linked compound.requires) :
    compoundMatches heap facts compound node scope = true ↔
      Core heap facts compound node scope ∧ ∀ id ∈ compound.id, heap.attr node "id".toList = some id := by
  obtain ⟨tag, id, classes, attributes, functional, has, nth, languages, directions, requires, neverMatches⟩ := compound
  have hall : ∀ (α : Type) (o : Option α) (p : α → Bool), o.all p = true ↔ ∀ a ∈ o, p a = true := by
    intro α o p
    cases o <;> simp
  simp only [compoundMatches, Bool.and_eq_true, Bool.not_eq_true', requires_iff hlinked, nthTests_eq, functionalTests_eq,
    hasTests_eq, List.all_eq_true, List.mem_map, forall_exists_index, and_imp, forall_apply_eq_imp_iff₂, hall,
    List.any_eq_true, beq_iff_eq]
  constructor
  · rintro ⟨⟨⟨⟨⟨⟨⟨⟨⟨⟨⟨hnever, helement⟩, htag⟩, hid⟩, hclasses⟩, hattributes⟩, hrequires⟩, hnth⟩, hlanguages⟩, hdirections⟩,
      hhas⟩, hfunctional⟩
    exact ⟨⟨hnever, helement, htag, hclasses, hattributes, hrequires, hnth, hlanguages, hdirections, hhas, hfunctional⟩, hid⟩
  · rintro ⟨⟨hnever, helement, htag, hclasses, hattributes, hrequires, hnth, hlanguages, hdirections, hhas, hfunctional⟩, hid⟩
    exact ⟨⟨⟨⟨⟨⟨⟨⟨⟨⟨⟨hnever, helement⟩, htag⟩, hid⟩, hclasses⟩, hattributes⟩, hrequires⟩, hnth⟩, hlanguages⟩, hdirections⟩,
      hhas⟩, hfunctional⟩

/-- The flags of a simple selector are linked. -/
def SimpleSelector.FlagsLinked : SimpleSelector → Prop
  | .PseudoClass requires => Linked requires
  | _ => True

theorem linked_append {first second : List Requirement} (hfirst : Linked first) (hsecond : Linked second) :
    Linked (first ++ second) := by
  intro flag hflag hkind
  rcases List.mem_append.mp hflag with hmem | hmem
  · exact List.mem_append_left _ (hfirst flag hmem hkind)
  · exact List.mem_append_right _ (hsecond flag hmem hkind)

theorem linked_add {simple : SimpleSelector} (hcompound : Linked compound.requires) (hsimple : simple.FlagsLinked) :
    Linked (compound.add simple).requires := by
  rw [CompoundSelector.add.eq_def]
  have hscope : Linked [.Scope] := by simp [Linked]
  split
  · exact hcompound
  · exact linked_append hcompound hscope
  · exact hcompound
  · exact hcompound
  · exact hcompound
  · exact hcompound
  · exact hcompound
  · exact linked_append hcompound hsimple
  · exact hcompound
  · exact hcompound
  · exact hcompound
  · exact hcompound
  · exact hcompound
  · exact hcompound
  · exact hcompound

theorem core_empty : Core heap facts {} node scope ↔ isElement heap node = true := by
  constructor
  · exact Core.element
  · intro h
    constructor <;> simp [h]

/-- Another simple selector is another condition, unless it replaces a tag. -/
theorem core_add {simple : SimpleSelector} (hid : simple.idOf = none)
    (htag : compound.tag = none ∨ ∀ tag, simple ≠ .Tag tag) :
    Core heap facts (compound.add simple) node scope ↔
      Core heap facts compound node scope ∧ Core heap facts (CompoundSelector.add {} simple) node scope := by
  have hsplit : ∀ compound : CompoundSelector, Core heap facts compound node scope ↔
      compound.neverMatches = false ∧ isElement heap node = true ∧ (∀ tag ∈ compound.tag, heap.tagName node = some tag) ∧
        (∀ name ∈ compound.classes, hasClass heap node name = true) ∧
        (∀ selector ∈ compound.attributes, attributeMatches heap selector node = true) ∧
        (∀ flag ∈ compound.requires, flagHolds heap facts node scope flag) ∧
        (∀ nth ∈ compound.nth, nthTest heap facts nth node scope = true) ∧
        (∀ ranges ∈ compound.languages, matchesLanguages heap ranges node = true) ∧
        (∀ direction ∈ compound.directions, direction = facts.direction node) ∧
        (∀ alternatives ∈ compound.has, ∃ relative ∈ alternatives, relativeTest heap facts relative node = true) ∧
        (∀ function ∈ compound.functional, functionalTest heap facts function node scope = true) := by
    intro compound
    constructor
    · rintro ⟨h1, h2, h3, h4, h5, h6, h7, h8, h9, h10, h11⟩
      exact ⟨h1, h2, h3, h4, h5, h6, h7, h8, h9, h10, h11⟩
    · rintro ⟨h1, h2, h3, h4, h5, h6, h7, h8, h9, h10, h11⟩
      exact ⟨h1, h2, h3, h4, h5, h6, h7, h8, h9, h10, h11⟩
  rw [hsplit, hsplit, hsplit, CompoundSelector.add.eq_def, CompoundSelector.add.eq_def]
  cases simple with
  | Id id => cases hid
  | Tag tag =>
    rcases htag with htag | htag
    · simp [htag]
      tauto
    · exact absurd rfl (htag tag)
  | Nesting parent parentSpecificity =>
    rcases parent with _ | _ | ⟨first, parent⟩ <;> simp [or_imp, forall_and] <;> tauto
  | SelectorList kind selectors =>
    rcases selectors with _ | ⟨first, selectors⟩
    · simp
    · simp [or_imp, forall_and]
      tauto
  | NeverMatching => simp
  | _ =>
    simp [or_imp, forall_and]
    tauto

theorem id_add (simple : SimpleSelector) : (compound.add simple).id = simple.idOf.or compound.id := by
  rw [CompoundSelector.add.eq_def]
  split <;> rfl

theorem core_add_id (id : Str) :
    Core heap facts (compound.add (.Id id)) node scope ↔ Core heap facts compound node scope := by
  constructor
  · rintro ⟨h1, h2, h3, h4, h5, h6, h7, h8, h9, h10, h11⟩
    exact ⟨h1, h2, h3, h4, h5, h6, h7, h8, h9, h10, h11⟩
  · rintro ⟨h1, h2, h3, h4, h5, h6, h7, h8, h9, h10, h11⟩
    exact ⟨h1, h2, h3, h4, h5, h6, h7, h8, h9, h10, h11⟩

/-- A type selector comes in front of everything else, if there is one. -/
def TagInFront (simples : List SimpleSelector) : Prop :=
  ∀ front simple rest, simples = front ++ simple :: rest → front ≠ [] → ∀ tag, simple ≠ .Tag tag

theorem TagInFront.tail {simple : SimpleSelector} {simples : List SimpleSelector} (h : TagInFront (simple :: simples)) :
    ∀ other ∈ simples, ∀ tag, other ≠ .Tag tag := by
  intro other hmem
  obtain ⟨front, rest, rfl⟩ := List.append_of_mem hmem
  exact h (simple :: front) other rest rfl (List.cons_ne_nil _ _)

/-- What a compound of several simple selectors asks for, but for the ids. -/
theorem core_foldl {simples : List SimpleSelector} (htag : ∀ simple ∈ simples, ∀ tag, simple ≠ .Tag tag) :
    Core heap facts (simples.foldl CompoundSelector.add compound) node scope ↔
      Core heap facts compound node scope ∧
        ∀ simple ∈ simples, simple.idOf = none → Core heap facts (CompoundSelector.add {} simple) node scope := by
  induction simples generalizing compound with
  | nil => simp
  | cons simple simples ih =>
    rw [List.foldl_cons, ih fun other hmem => htag other (List.mem_cons_of_mem _ hmem), List.forall_mem_cons]
    cases hid : simple.idOf with
    | none =>
      rw [core_add hid (Or.inr (htag simple (by simp)))]
      simp only [forall_const, and_assoc]
    | some id =>
      rw [eq_id hid, core_add_id]
      simp

theorem core_parsed {simples : List SimpleSelector} (htag : TagInFront simples) :
    Core heap facts (simples.foldl CompoundSelector.add {}) node scope ↔
      isElement heap node = true ∧
        ∀ simple ∈ simples, simple.idOf = none → Core heap facts (CompoundSelector.add {} simple) node scope := by
  cases simples with
  | nil => simp [core_empty]
  | cons simple simples =>
    rw [List.foldl_cons, core_foldl htag.tail, List.forall_mem_cons]
    cases hid : simple.idOf with
    | none =>
      constructor
      · rintro ⟨hsimple, hrest⟩
        exact ⟨hsimple.element, fun _ => hsimple, hrest⟩
      · rintro ⟨-, hsimple, hrest⟩
        exact ⟨hsimple rfl, hrest⟩
    | some id =>
      rw [eq_id hid, core_add_id, core_empty]
      simp

theorem id_foldl (simples : List SimpleSelector) :
    (simples.foldl CompoundSelector.add compound).id = (ids simples).getLast?.or compound.id := by
  induction simples generalizing compound with
  | nil => simp [ids]
  | cons simple simples ih =>
    rw [List.foldl_cons, ih, id_add, ids, ids]
    cases hid : simple.idOf with
    | none => simp [hid]
    | some id =>
      rw [List.filterMap_cons, hid, List.getLast?_cons]
      cases (simples.filterMap idOf).getLast? <;> rfl

theorem linked_foldl {simples : List SimpleSelector} (hcompound : Linked compound.requires)
    (hsimples : ∀ simple ∈ simples, simple.FlagsLinked) :
    Linked (simples.foldl CompoundSelector.add compound).requires := by
  induction simples generalizing compound with
  | nil => exact hcompound
  | cons simple simples ih =>
    exact ih (linked_add hcompound (hsimples simple (by simp)))
      fun other hmem => hsimples other (List.mem_cons_of_mem _ hmem)

/-- What the parser reads: linked flags, and a type selector in front only. -/
structure Parsed (simples : List SimpleSelector) : Prop where
  linked : ∀ simple ∈ simples, simple.FlagsLinked
  tag : TagInFront simples

theorem linked_empty : Linked ({} : CompoundSelector).requires := by
  simp [Linked]

/-- An element matches a compound when it matches the last id and all that is no id. -/
theorem compoundMatches_parsed {simples : List SimpleSelector} (h : Parsed simples) :
    compoundMatches heap facts (simples.foldl CompoundSelector.add {}) node scope = true ↔
      isElement heap node = true ∧
        (∀ simple ∈ simples, simple.idOf = none → simple.holds heap facts node scope = true) ∧
        ∀ id ∈ (ids simples).getLast?, heap.attr node "id".toList = some id := by
  rw [compoundMatches_iff (linked_foldl linked_empty h.linked), core_parsed h.tag, id_foldl]
  have hsimple : ∀ simple ∈ simples, simple.idOf = none →
      (Core heap facts (CompoundSelector.add {} simple) node scope ↔ simple.holds heap facts node scope = true) := by
    intro simple hmem hid
    rw [SimpleSelector.holds, compoundMatches_iff (linked_add linked_empty (h.linked simple hmem)), id_add, hid]
    simp
  have hnone : (ids simples).getLast?.or ({} : CompoundSelector).id = (ids simples).getLast? := by
    cases (ids simples).getLast? <;> rfl
  rw [hnone]
  constructor
  · rintro ⟨⟨helement, hall⟩, hid⟩
    exact ⟨helement, fun simple hmem hnot => (hsimple simple hmem hnot).mp (hall simple hmem hnot), hid⟩
  · rintro ⟨helement, hall, hid⟩
    exact ⟨⟨helement, fun simple hmem hnot => (hsimple simple hmem hnot).mpr (hall simple hmem hnot)⟩, hid⟩

theorem holds_id (id : Str) : SimpleSelector.holds heap facts (.Id id) node scope = true ↔
    isElement heap node = true ∧ heap.attr node "id".toList = some id := by
  have hlinked : Linked (({} : CompoundSelector).add (.Id id)).requires := linked_empty
  rw [SimpleSelector.holds, compoundMatches_iff hlinked, core_add_id, core_empty]
  simp [CompoundSelector.add]

end Core

/-! ## What the parser reads -/

theorem linked_pseudoClass {name : Str} {simple : SimpleSelector} (h : pseudoClass name = some simple) :
    simple.FlagsLinked ∧ ∀ tag, simple ≠ .Tag tag := by
  rw [pseudoClass] at h
  split at h
  · cases h
    exact ⟨trivial, nofun⟩
  · obtain ⟨entry, hentry, rfl⟩ := Option.map_eq_some_iff.mp h
    have hall : ∀ entry ∈ pseudoClasses, ∀ flag ∈ entry.2,
        flag = .Visited ∨ flag = .Unvisited → Requirement.Link ∈ entry.2 := by decide
    exact ⟨hall entry (List.mem_of_find?_eq_some hentry), nofun⟩

section Parser

variable {parser : CssParser} {nested : ParseContext → Str → Option Selector} {context : ParseContext} {s : Str}

theorem linked_functional {name argument : Str} {simple : SimpleSelector}
    (h : parseFunctionalPseudo parser nested context name argument = some simple) :
    simple.FlagsLinked ∧ ∀ tag, simple ≠ .Tag tag := by
  have hlist : ∀ kind, parseSelectorListPseudo nested context kind argument = some simple →
      simple.FlagsLinked ∧ ∀ tag, simple ≠ .Tag tag := by
    intro kind h
    rw [parseSelectorListPseudo] at h
    split at h
    · cases h
    · cases h
      exact ⟨trivial, nofun⟩
  rw [parseFunctionalPseudo] at h
  split at h
  · exact hlist _ h
  · split at h
    · exact hlist _ h
    · split at h
      · exact hlist _ h
      · split at h
        · rw [parseHas] at h
          split at h
          · cases h
          · obtain ⟨relatives, -, h⟩ := Option.bind_eq_some_iff.mp h
            split at h
            · cases h
            · cases h
              exact ⟨trivial, nofun⟩
        · split at h
          · obtain ⟨ranges, -, h⟩ := Option.bind_eq_some_iff.mp h
            split at h
            · cases h
            · cases h
              exact ⟨trivial, nofun⟩
          · split at h
            · obtain ⟨direction, -, rfl⟩ := Option.map_eq_some_iff.mp h
              exact ⟨trivial, nofun⟩
            · split at h
              · obtain ⟨nth, -, h⟩ := Option.bind_eq_some_iff.mp h
                obtain ⟨filter, -, h⟩ := Option.bind_eq_some_iff.mp h
                cases h
                exact ⟨trivial, nofun⟩
              · cases h

theorem linked_readSimple {found : SimpleSelector × Str} (h : readSimple parser nested context s = some found) :
    found.1.FlagsLinked ∧ ∀ tag, found.1 ≠ .Tag tag := by
  cases s with
  | nil => cases h
  | cons c s =>
    rw [readSimple] at h
    split at h
    · cases h
      exact ⟨trivial, fun _ htag => by cases htag⟩
    · split at h
      · obtain ⟨inner, -, rfl⟩ := Option.map_eq_some_iff.mp h
        exact ⟨trivial, fun _ htag => by cases htag⟩
      · split at h
        · obtain ⟨inner, -, rfl⟩ := Option.map_eq_some_iff.mp h
          exact ⟨trivial, fun _ htag => by cases htag⟩
        · split at h
          · rw [readPseudoClass] at h
            split at h
            · cases h
            · obtain ⟨⟨name, rest⟩, -, h⟩ := Option.bind_eq_some_iff.mp h
              dsimp only at h
              split at h
              · obtain ⟨⟨argument, after⟩, -, h⟩ := Option.bind_eq_some_iff.mp h
                obtain ⟨simple, hsimple, h⟩ := Option.bind_eq_some_iff.mp h
                cases h
                exact linked_functional hsimple
              · obtain ⟨simple, hsimple, h⟩ := Option.bind_eq_some_iff.mp h
                cases h
                exact linked_pseudoClass hsimple
          · split at h
            · obtain ⟨⟨text, rest⟩, -, h⟩ := Option.bind_eq_some_iff.mp h
              obtain ⟨selector, -, h⟩ := Option.bind_eq_some_iff.mp h
              cases h
              exact ⟨trivial, fun _ htag => by cases htag⟩
            · cases h

theorem linked_readSimples {simples : List SimpleSelector} (h : readSimples parser nested context s = some simples) :
    ∀ simple ∈ simples, simple.FlagsLinked ∧ ∀ tag, simple ≠ .Tag tag := by
  generalize hn : s.length = n
  induction n using Nat.strongRecOn generalizing s simples with
  | ind n ih =>
    by_cases hne : s = []
    · subst hne
      rw [readSimples_nil] at h
      cases h
      simp
    · obtain ⟨simple, rest, later, hread, hlater, rfl⟩ := exists_of_readSimples h hne
      have hlt := length_readSimple parser nested context hread
      rw [hn] at hlt
      rw [List.forall_mem_cons]
      exact ⟨linked_readSimple hread, ih rest.length hlt hlater rfl⟩

theorem readType_cases (s : Str) : (readType s).1 = [] ∨ ∃ tag, (readType s).1 = [.Tag tag] := by
  rw [readType.eq_def]
  split
  · exact Or.inl rfl
  · split
    · exact Or.inl rfl
    · split
      · exact Or.inr ⟨_, rfl⟩
      · exact Or.inl rfl

theorem parsed_of_simpleSelectors {simples : List SimpleSelector}
    (h : simpleSelectors parser nested context s = some simples) : Parsed simples := by
  obtain ⟨read, hread, rfl⟩ := Option.map_eq_some_iff.mp h
  have hall := linked_readSimples hread
  rcases readType_cases s with htype | ⟨tag, htype⟩
  · rw [htype, List.nil_append]
    refine ⟨fun simple hmem => (hall simple hmem).1, ?_⟩
    rintro front simple rest rfl -
    exact (hall simple (by simp)).2
  · rw [htype, List.singleton_append]
    constructor
    · rw [List.forall_mem_cons]
      exact ⟨trivial, fun simple hmem => (hall simple hmem).1⟩
    · intro front simple rest hsplit hfront
      obtain ⟨first, front, rfl⟩ := List.exists_cons_of_ne_nil hfront
      obtain ⟨-, rfl⟩ := List.cons.inj hsplit
      exact (hall simple (by simp)).2

end Parser

/-! ## The contract of compounds -/

/-- All ids of the compound are written alike. -/
def IdsAgree (simples : List SimpleSelector) : Prop := ∀ a ∈ ids simples, ∀ b ∈ ids simples, a = b

section Contract

variable (heap : Heap) (facts : ElementFacts) (node : NodeId) (scope : Option NodeId)

/-- The node fails the last id or a simple selector that is no id. -/
def FailsAnother (simples : List SimpleSelector) : Prop :=
  (∃ simple ∈ simples, simple.idOf = none ∧ simple.holds heap facts node scope = false) ∨
    ∃ id ∈ (ids simples).getLast?, heap.attr node "id".toList ≠ some id

variable (parse : Str → Option (CompoundSelector × Specificity))

/-- Whichever way the text is cut before a simple selector. -/
def ForParts (text : Str) (P : CompoundSelector × Specificity → CompoundSelector × Specificity → Prop) : Prop :=
  ∀ front back, text = front ++ back → StartsSimple back →
    ∀ first second, parse front = some first → parse back = some second → P first second

structure CompoundContract (text : Str) (simples : List SimpleSelector) (compound : CompoundSelector)
    (specificity : Specificity) : Prop where
  conjunction : compoundMatches heap facts compound node scope = true ↔
    ∀ simple ∈ simples, simple.holds heap facts node scope = true
  parts : ForParts parse text fun first second =>
    (compoundMatches heap facts compound node scope = true ↔
      compoundMatches heap facts first.1 node scope = true ∧ compoundMatches heap facts second.1 node scope = true)
  sum : specificity = Specificity.total (simples.map part)
  noOverflow : Specificity.AllFit Specificity.running (simples.map part)
  monotone : ForParts parse text fun first _ => first.2.key ≤ specificity.key

structure CompoundCondition (simples : List SimpleSelector) : Prop where
  ids : IdsAgree simples ∨ FailsAnother heap facts node scope simples
  sums : Specificity.AllFit Specificity.total (simples.map part)

end Contract

section Conjunction

variable {heap : Heap} {facts : ElementFacts} {node : NodeId} {scope : Option NodeId}

theorem getLast?_mem {simples : List SimpleSelector} {id : Str} (h : id ∈ (ids simples).getLast?) :
    SimpleSelector.Id id ∈ simples := by
  obtain ⟨simple, hmem, hid⟩ := List.mem_filterMap.mp (List.mem_of_getLast? h)
  rwa [eq_id hid] at hmem

theorem not_matches_of_fails {simples : List SimpleSelector} (h : Parsed simples)
    (hfails : FailsAnother heap facts node scope simples) :
    ¬ compoundMatches heap facts (simples.foldl CompoundSelector.add {}) node scope = true := by
  intro hmatch
  obtain ⟨-, hall, hlast⟩ := (compoundMatches_parsed h).mp hmatch
  rcases hfails with ⟨simple, hmem, hid, hfalse⟩ | ⟨id, hid, hne⟩
  · rw [hall simple hmem hid] at hfalse
    cases hfalse
  · exact hne (hlast id hid)

/-- The conjunction of all simple selectors is met exactly if the ids agree or another one fails. -/
theorem conjunction_iff {simples : List SimpleSelector} (h : Parsed simples) (helement : isElement heap node = true) :
    (compoundMatches heap facts (simples.foldl CompoundSelector.add {}) node scope = true ↔
        ∀ simple ∈ simples, simple.holds heap facts node scope = true) ↔
      IdsAgree simples ∨ FailsAnother heap facts node scope simples := by
  have hmatches : compoundMatches heap facts (simples.foldl CompoundSelector.add {}) node scope = true ↔ _ :=
    compoundMatches_parsed h
  constructor
  · intro hiff
    by_contra hnot
    rw [not_or] at hnot
    obtain ⟨hagree, hfails⟩ := hnot
    have hall : ∀ simple ∈ simples, simple.idOf = none → simple.holds heap facts node scope = true := by
      intro simple hmem hid
      by_contra hfalse
      exact hfails (Or.inl ⟨simple, hmem, hid, Bool.eq_false_of_not_eq_true hfalse⟩)
    have hlast : ∀ id ∈ (ids simples).getLast?, heap.attr node "id".toList = some id := by
      intro id hid
      by_contra hne
      exact hfails (Or.inr ⟨id, hid, hne⟩)
    have hholds := hiff.mp (hmatches.mpr ⟨helement, hall, hlast⟩)
    apply hagree
    have hattr : ∀ id ∈ ids simples, heap.attr node "id".toList = some id := by
      intro id hid
      obtain ⟨simple, hmem, hsome⟩ := List.mem_filterMap.mp hid
      rw [eq_id hsome] at hmem
      exact ((holds_id id).mp (hholds _ hmem)).2
    intro a ha b hb
    exact Option.some.inj ((hattr a ha).symm.trans (hattr b hb))
  · intro hcondition
    constructor
    · intro hmatch simple hmem
      obtain ⟨-, hall, hlast⟩ := hmatches.mp hmatch
      cases hid : simple.idOf with
      | none => exact hall simple hmem hid
      | some id =>
        rw [eq_id hid, holds_id]
        refine ⟨helement, ?_⟩
        rcases hcondition with hagree | hfails
        · have hids : id ∈ ids simples := List.mem_filterMap.mpr ⟨simple, hmem, hid⟩
          obtain ⟨last, hgetLast⟩ := Option.isSome_iff_exists.mp (List.getLast?_isSome.mpr (List.ne_nil_of_mem hids))
          rw [hlast last hgetLast, hagree last (List.mem_of_getLast? hgetLast) id hids]
        · exact absurd hmatch (not_matches_of_fails h hfails)
    · intro hall
      refine hmatches.mpr ⟨helement, fun simple hmem _ => hall simple hmem, fun id hid => ?_⟩
      exact ((holds_id id).mp (hall _ (getLast?_mem hid))).2

/-- The same for the simple selectors of two parts. -/
theorem parts_iff {front back : List SimpleSelector} (h : Parsed (front ++ back)) (hfront : Parsed front)
    (hback : Parsed back)
    (hcondition : IdsAgree (front ++ back) ∨ FailsAnother heap facts node scope (front ++ back)) :
    compoundMatches heap facts ((front ++ back).foldl CompoundSelector.add {}) node scope = true ↔
      compoundMatches heap facts (front.foldl CompoundSelector.add {}) node scope = true ∧
        compoundMatches heap facts (back.foldl CompoundSelector.add {}) node scope = true := by
  have hids : ids (front ++ back) = ids front ++ ids back := List.filterMap_append ..
  constructor
  · intro hmatch
    have hagree : IdsAgree (front ++ back) := hcondition.resolve_right fun hfails => not_matches_of_fails h hfails hmatch
    obtain ⟨helement, hall, hlast⟩ := (compoundMatches_parsed h).mp hmatch
    have hattr : ∀ id ∈ ids (front ++ back), heap.attr node "id".toList = some id := by
      intro id hid
      obtain ⟨last, hgetLast⟩ := Option.isSome_iff_exists.mp (List.getLast?_isSome.mpr (List.ne_nil_of_mem hid))
      rw [hlast last hgetLast, hagree last (List.mem_of_getLast? hgetLast) id hid]
    rw [hids] at hattr
    constructor
    · exact (compoundMatches_parsed hfront).mpr ⟨helement, fun simple hmem => hall simple (List.mem_append_left _ hmem),
        fun id hid => hattr id (List.mem_append_left _ (List.mem_of_getLast? hid))⟩
    · exact (compoundMatches_parsed hback).mpr ⟨helement, fun simple hmem => hall simple (List.mem_append_right _ hmem),
        fun id hid => hattr id (List.mem_append_right _ (List.mem_of_getLast? hid))⟩
  · rintro ⟨hmatchFront, hmatchBack⟩
    obtain ⟨helement, hallFront, hlastFront⟩ := (compoundMatches_parsed hfront).mp hmatchFront
    obtain ⟨-, hallBack, hlastBack⟩ := (compoundMatches_parsed hback).mp hmatchBack
    refine (compoundMatches_parsed h).mpr ⟨helement, fun simple hmem => ?_, fun id hid => ?_⟩
    · rcases List.mem_append.mp hmem with hmem | hmem
      · exact hallFront simple hmem
      · exact hallBack simple hmem
    · rw [hids, List.getLast?_append] at hid
      cases hlast : (ids back).getLast? with
      | some last =>
        rw [hlast] at hid
        cases hid
        exact hlastBack _ hlast
      | none =>
        rw [hlast] at hid
        exact hlastFront id hid

end Conjunction

section Theorem

variable {parser : CssParser} {nested : ParseContext → Str → Option Selector} {context : ParseContext}

theorem simples_of_parse {text : Str} {found : CompoundSelector × Specificity}
    (h : parseCompoundSelector parser nested context text = some found) :
    ∃ simples, simpleSelectors parser nested context text = some simples ∧
      found = (simples.foldl CompoundSelector.add {}, Specificity.running (simples.map part)) := by
  obtain ⟨simples, hsimples, rfl⟩ := Option.map_eq_some_iff.mp h
  exact ⟨simples, hsimples, by rw [foldl_add]⟩

theorem compound_contract_iff {text : Str} {compound : CompoundSelector} {specificity : Specificity}
    {simples : List SimpleSelector}
    (h : parseCompoundSelector parser nested context text = some (compound, specificity))
    (hsimples : simpleSelectors parser nested context text = some simples) (heap : Heap) (facts : ElementFacts)
    (node : NodeId) (scope : Option NodeId) (helement : isElement heap node = true) :
    CompoundContract heap facts node scope (parseCompoundSelector parser nested context) text simples compound specificity ↔
      CompoundCondition heap facts node scope simples := by
  obtain ⟨same, hsame, hfound⟩ := simples_of_parse h
  rw [hsimples] at hsame
  cases hsame
  obtain ⟨rfl, rfl⟩ := Prod.mk.inj hfound
  have hparsed := parsed_of_simpleSelectors hsimples
  have hparts : ∀ {front back : Str} {first second : CompoundSelector × Specificity}, text = front ++ back →
      StartsSimple back → parseCompoundSelector parser nested context front = some first →
      parseCompoundSelector parser nested context back = some second →
      ∃ left right, simples = left ++ right ∧ Parsed left ∧ Parsed right ∧
        first = (left.foldl CompoundSelector.add {}, Specificity.running (left.map part)) ∧
        second = (right.foldl CompoundSelector.add {}, Specificity.running (right.map part)) := by
    intro front back first second htext hstarts hfirst hsecond
    obtain ⟨left, hleft, hfirst⟩ := simples_of_parse hfirst
    obtain ⟨right, hright, hsecond⟩ := simples_of_parse hsecond
    rw [htext, simpleSelectors_append hstarts hleft hright] at hsimples
    exact ⟨left, right, (Option.some.inj hsimples).symm, parsed_of_simpleSelectors hleft,
      parsed_of_simpleSelectors hright, hfirst, hsecond⟩
  constructor
  · intro hcontract
    exact ⟨(conjunction_iff hparsed helement).mp hcontract.conjunction,
      Specificity.allFit_running_iff.mp hcontract.noOverflow⟩
  · intro hcondition
    refine ⟨(conjunction_iff hparsed helement).mpr hcondition.ids, ?_, Specificity.running_eq_total hcondition.sums,
      Specificity.allFit_running_iff.mpr hcondition.sums, ?_⟩
    · intro front back htext hstarts first second hfirst hsecond
      obtain ⟨left, right, rfl, hleft, hright, rfl, rfl⟩ := hparts htext hstarts hfirst hsecond
      exact parts_iff hparsed hleft hright hcondition.ids
    · intro front back htext hstarts first second hfirst hsecond
      obtain ⟨left, right, rfl, -, -, rfl, -⟩ := hparts htext hstarts hfirst hsecond
      have hsums := hcondition.sums
      rw [List.map_append] at hsums ⊢
      rw [Specificity.running_eq_total hsums, Specificity.running_eq_total hsums.front]
      exact (Specificity.below_total_append _ _).key_le

end Theorem

/-! ## Complex selectors -/

/-- The specificities of the compounds among some tokens. -/
def compoundParts (parse : Str → Option (CompoundSelector × Specificity)) (tokens : List SelectorToken) :
    List Specificity.Part :=
  tokens.filterMap fun token =>
    match token with
    | .Compound text => (parse text).map fun found => ⟨found.2, true⟩
    | .Combinator _ => none

theorem specificity_of_run {parse : Str → Option (CompoundSelector × Specificity)} {tokens : List SelectorToken}
    {parsing parsing' : Parsing} (h : tokens.foldlM (Parsing.next parse) parsing = some parsing') :
    parsing'.specificity = (compoundParts parse tokens).foldl (fun s part => part.addTo s) parsing.specificity := by
  induction tokens generalizing parsing with
  | nil =>
    cases h
    rfl
  | cons token tokens ih =>
    rw [List.foldlM_cons] at h
    obtain ⟨middle, hnext, hrest⟩ := Option.bind_eq_some_iff.mp h
    rw [ih hrest]
    cases token with
    | Compound text =>
      obtain ⟨⟨compound, amount⟩, hparse, rfl⟩ := Option.map_eq_some_iff.mp hnext
      simp [compoundParts, hparse, Specificity.Part.addTo]
    | Combinator combinator =>
      have hkept : middle.specificity = parsing.specificity := by
        rw [Parsing.next] at hnext
        split at hnext
        · cases hnext
        · split at hnext <;> cases hnext <;> rfl
      rw [hkept]
      rfl

theorem specificity_of_parse {parser : CssParser} {levels : Nat} {context : ParseContext} {text : Str}
    {selector : Selector} (h : parseSelectorWithDepth parser (levels + 1) context text = some selector) :
    selector.specificity = Specificity.running
      (compoundParts (parseCompoundSelector parser (parseSelectorWithDepth parser levels) context) (selectorTokens text)) := by
  rw [parseSelectorWithDepth] at h
  split at h
  · cases h
  · split at h
    · cases h
    · obtain ⟨parsing, hrun, h⟩ := Option.bind_eq_some_iff.mp h
      split at h
      · cases h
      · cases h
        exact specificity_of_run hrun

/-- The sum of the parts of a specificity is the saturating one if no sum of its first parts is too large. -/
theorem sum_iff (parts : List Specificity.Part) :
    (Specificity.running parts = Specificity.total parts ∧ Specificity.AllFit Specificity.running parts) ↔
      Specificity.AllFit Specificity.total parts := by
  constructor
  · rintro ⟨-, hfit⟩
    exact Specificity.allFit_running_iff.mp hfit
  · intro hfit
    exact ⟨Specificity.running_eq_total hfit, Specificity.allFit_running_iff.mpr hfit⟩

/-- Compounds are conjunctions as long as their ids agree, and specificities are sums as long as these fit. -/
theorem compound_selectors_iff (parser : CssParser) (levels : Nat) (context : ParseContext) :
    (∀ text compound specificity,
      parseCompoundSelector parser (parseSelectorWithDepth parser levels) context text = some (compound, specificity) →
        ∃ simples, simpleSelectors parser (parseSelectorWithDepth parser levels) context text = some simples ∧
          ∀ heap facts node scope, isElement heap node = true →
            (CompoundContract heap facts node scope
                (parseCompoundSelector parser (parseSelectorWithDepth parser levels) context) text simples compound
                specificity ↔
              CompoundCondition heap facts node scope simples)) ∧
    ∀ text selector, parseSelectorWithDepth parser (levels + 1) context text = some selector →
      ((selector.specificity = Specificity.total (compoundParts
            (parseCompoundSelector parser (parseSelectorWithDepth parser levels) context) (selectorTokens text)) ∧
          Specificity.AllFit Specificity.running (compoundParts
            (parseCompoundSelector parser (parseSelectorWithDepth parser levels) context) (selectorTokens text))) ↔
        Specificity.AllFit Specificity.total (compoundParts
          (parseCompoundSelector parser (parseSelectorWithDepth parser levels) context) (selectorTokens text))) := by
  constructor
  · intro text compound specificity h
    obtain ⟨simples, hsimples, -⟩ := simples_of_parse h
    exact ⟨simples, hsimples, fun heap facts node scope => compound_contract_iff h hsimples heap facts node scope⟩
  · intro text selector h
    rw [specificity_of_parse h]
    exact sum_iff _

/-- An element with the id `b` matches `#a#b`, whose first id it does not have. -/
def idHeap : Heap where
  allocated := [⟨0, 0⟩]
  node := fun _ => Node.isolated (.element ⟨⟨none, htmlNamespace, "p".toList⟩,
    [⟨⟨none, [], "id".toList⟩, "b".toList⟩], none, none, false⟩)
  identity := fun _ => ⟨1, 0⟩

theorem repeated_id_matches : ∃ first second both,
    parseCompoundSelector plainParser (parseSelectorWithDepth plainParser 8) {} "#a".toList = some first ∧
      parseCompoundSelector plainParser (parseSelectorWithDepth plainParser 8) {} "#b".toList = some second ∧
      parseCompoundSelector plainParser (parseSelectorWithDepth plainParser 8) {} "#a#b".toList = some both ∧
      compoundMatches idHeap plainFacts both.1 ⟨0, 0⟩ none = true ∧
      ¬ (compoundMatches idHeap plainFacts first.1 ⟨0, 0⟩ none = true ∧
        compoundMatches idHeap plainFacts second.1 ⟨0, 0⟩ none = true) := by
  let parse := parseCompoundSelector plainParser (parseSelectorWithDepth plainParser 8) {}
  have hfirst : (parse "#a".toList).any (fun found => !compoundMatches idHeap plainFacts found.1 ⟨0, 0⟩ none) = true := by
    decide +kernel
  have hsecond : (parse "#b".toList).isSome = true := by
    decide +kernel
  have hboth : (parse "#a#b".toList).any (fun found => compoundMatches idHeap plainFacts found.1 ⟨0, 0⟩ none) = true := by
    decide +kernel
  obtain ⟨first, hfirst, hfails⟩ := (Option.any_eq_true _ _).mp hfirst
  obtain ⟨second, hsecond⟩ := Option.isSome_iff_exists.mp hsecond
  obtain ⟨both, hboth, hmatches⟩ := (Option.any_eq_true _ _).mp hboth
  refine ⟨first, second, both, hfirst, hsecond, hboth, hmatches, fun h => ?_⟩
  rw [h.1] at hfails
  cases hfails

end BetterWebBrowser.Css
