import BetterWebBrowser.Css.RelativeSearch
import BetterWebBrowser.Css.RelativeText

/-!
# The searches of relative selectors

The search for a relative selector is chosen by the first character after its anchor. It visits
every match, unless that character belongs to the anchor's own compound.
-/

namespace BetterWebBrowser.Css

open Framework Dom

/-! ## Compounds and combinators of a parsed selector -/

namespace Parsing

variable {parseCompound : Str → Option (CompoundSelector × Specificity)} {parsing parsing' : Parsing}

/-- A combinator stands between two compounds. -/
def Aligned (parsing : Parsing) : Prop :=
  parsing.combinators.length + (if parsing.expectCompound then 0 else 1) = parsing.compounds.length

/-- What was parsed stays. -/
structure Extends (parsing parsing' : Parsing) : Prop where
  aligned : parsing'.Aligned
  compounds : parsing.compounds <+: parsing'.compounds
  combinators : parsing.combinators <+: parsing'.combinators

theorem next_extends (h : parsing.Aligned) {token : SelectorToken}
    (hnext : parsing.next parseCompound token = some parsing') : parsing.Extends parsing' := by
  obtain ⟨compounds, combinators, specificity, expectCompound⟩ := parsing
  cases token with
  | Compound text =>
    obtain ⟨⟨compound, amount⟩, -, rfl⟩ := Option.map_eq_some_iff.mp hnext
    cases expectCompound with
    | true => exact ⟨by simpa [Aligned] using h, List.prefix_append _ _, List.prefix_rfl⟩
    | false => exact ⟨by simpa [Aligned] using h, List.prefix_append _ _, List.prefix_append _ _⟩
  | Combinator combinator =>
    cases expectCompound with
    | true => cases hnext
    | false =>
      have hlt : combinators.length < compounds.length := by
        have hlength : combinators.length + 1 = compounds.length := h
        omega
      rw [next, if_neg (by simp), if_pos hlt] at hnext
      cases hnext
      exact ⟨by simpa [Aligned] using h, List.prefix_rfl, List.prefix_append _ _⟩

theorem run_extends (h : parsing.Aligned) {tokens : List SelectorToken}
    (hrun : tokens.foldlM (next parseCompound) parsing = some parsing') : parsing.Extends parsing' := by
  induction tokens generalizing parsing with
  | nil =>
    cases hrun
    exact ⟨h, List.prefix_rfl, List.prefix_rfl⟩
  | cons token tokens ih =>
    rw [List.foldlM_cons] at hrun
    obtain ⟨middle, hnext, hrest⟩ := Option.bind_eq_some_iff.mp hrun
    have hfirst := next_extends h hnext
    have hlater := ih hfirst.aligned hrest
    exact ⟨hlater.aligned, hfirst.compounds.trans hlater.compounds, hfirst.combinators.trans hlater.combinators⟩

end Parsing

/-- The combinator that a token after the first compound stands for. -/
def SelectorToken.combinator : SelectorToken → Css.Combinator
  | .Compound _ => .Descendant
  | .Combinator combinator => combinator

/-- How a selector's tokens start decides its first compound and its first combinator. -/
structure StartsWith (parser : CssParser) (levels : Nat) (context : ParseContext) (tokens : List SelectorToken)
    (selector : Selector) : Prop where
  length : selector.combinators.length + 1 = selector.compounds.length
  compound : ∃ text later compound specificity, tokens = .Compound text :: later ∧
    parseCompoundSelector parser (parseSelectorWithDepth parser levels) context text = some (compound, specificity) ∧
    selector.compounds.head? = some compound
  combinator : ∀ text second later, tokens = .Compound text :: second :: later →
    selector.combinators.head? = some second.combinator
  single : ∀ text, tokens = [.Compound text] → selector.compounds.length = 1

theorem startsWith_of_parse {parser : CssParser} {levels : Nat} {context : ParseContext} {s : Str} {selector : Selector}
    (h : parseSelectorWithDepth parser (levels + 1) context s = some selector) :
    StartsWith parser levels context (selectorTokens s) selector := by
  rw [parseSelectorWithDepth] at h
  split at h
  · cases h
  · split at h
    · cases h
    · obtain ⟨parsing, hrun, h⟩ := Option.bind_eq_some_iff.mp h
      split at h
      · cases h
      · rename_i hdone
        cases h
        simp only [Bool.or_eq_true, not_or, Bool.not_eq_true, bne_eq_false_iff_eq] at hdone
        cases htokens : selectorTokens s with
        | nil =>
          rw [htokens] at hrun
          cases hrun
          simp at hdone
        | cons token later =>
          rw [htokens, List.foldlM_cons] at hrun
          obtain ⟨first, hfirst, hrest⟩ := Option.bind_eq_some_iff.mp hrun
          cases token with
          | Combinator combinator => cases hfirst
          | Compound text =>
            obtain ⟨⟨compound, specificity⟩, hcompound, rfl⟩ := Option.map_eq_some_iff.mp hfirst
            have hextends := Parsing.run_extends (by rfl) hrest
            obtain ⟨compounds, hcompounds⟩ := hextends.compounds
            constructor
            · exact hdone.2
            · exact ⟨text, later, compound, specificity, rfl, hcompound, by rw [← hcompounds]; rfl⟩
            · intro text' second later' hsecond
              cases hsecond
              rw [List.foldlM_cons] at hrest
              obtain ⟨two, htwo, hrest⟩ := Option.bind_eq_some_iff.mp hrest
              have hnext := Parsing.next_extends (by rfl) htwo
              obtain ⟨combinators, hcombinators⟩ := (Parsing.run_extends hnext.aligned hrest).combinators
              dsimp only
              rw [← hcombinators]
              cases second with
              | Compound text =>
                obtain ⟨-, -, rfl⟩ := Option.map_eq_some_iff.mp htwo
                rfl
              | Combinator combinator =>
                cases htwo
                rfl
            · intro text' hsingle
              cases hsingle
              cases hrest
              rfl

/-! ## The anchor's compound -/

theorem requires_add (compound : CompoundSelector) (simple : SimpleSelector) :
    compound.requires <+: (compound.add simple).requires := by
  rw [CompoundSelector.add.eq_def]
  split <;> first | exact List.prefix_rfl | exact List.prefix_append _ _

theorem requires_foldl (compound : CompoundSelector) (simples : List SimpleSelector) :
    compound.requires <+: (simples.foldl CompoundSelector.add compound).requires := by
  induction simples generalizing compound with
  | nil => exact List.prefix_rfl
  | cons simple simples ih => exact (requires_add compound simple).trans (ih _)

/-- `scope` is a name of its own before what can go on a compound. -/
theorem parseIdentifier_scope {c : Char} (hc : c ∈ [':', '.', '#', '[']) (s : Str) :
    parseIdentifier ("scope".toList ++ c :: s) = some ("scope".toList, c :: s) := by
  have htext : "scope".toList = ['s', 'c', 'o', 'p', 'e'] := by decide
  have hstop : nameCharacters (c :: s) = some ([], c :: s) := by
    simp only [List.mem_cons, List.not_mem_nil, or_false] at hc
    rcases hc with rfl | rfl | rfl | rfl <;> rw [nameCharacters, if_neg (by decide), if_neg (by decide)]
  have hname : ∀ (d : Char) (found rest t : Str), d ≠ '\\' → isNameCharacter d = true →
      nameCharacters t = some (found, rest) → nameCharacters (d :: t) = some (d :: found, rest) := by
    intro d found rest t hd hcharacter ht
    rw [nameCharacters, if_neg hd, if_pos hcharacter, ht]
    rfl
  have hall : nameCharacters ('s' :: 'c' :: 'o' :: 'p' :: 'e' :: c :: s) = some (['s', 'c', 'o', 'p', 'e'], c :: s) := by
    apply hname _ _ _ _ (by decide) (by decide)
    apply hname _ _ _ _ (by decide) (by decide)
    apply hname _ _ _ _ (by decide) (by decide)
    apply hname _ _ _ _ (by decide) (by decide)
    exact hname _ _ _ _ (by decide) (by decide) hstop
  rw [htext]
  simp only [List.cons_append, List.nil_append]
  rw [parseIdentifier.eq_def]
  dsimp only
  rw [if_neg (by decide), if_neg (by decide), hall]
  rfl

theorem pseudoClass_scope : pseudoClass "scope".toList = some (.PseudoClass [.Scope]) := by
  rfl

theorem readSimple_scope (parser : CssParser) (nested : ParseContext → Str → Option Selector) (context : ParseContext)
    {s rest : Str} (h : parseIdentifier s = some ("scope".toList, rest)) (hhead : s.head? ≠ some ':')
    (hrest : rest.head? ≠ some '(') :
    readSimple parser nested context (':' :: s) = some (.PseudoClass [.Scope], rest) := by
  have hlower : Str.toAsciiLowercase "scope".toList = "scope".toList := by decide
  rw [readSimple, if_neg (by decide), if_neg (by decide), if_neg (by decide), if_pos rfl, readPseudoClass,
    if_neg hhead, h]
  dsimp only [Option.bind_eq_bind, Option.bind_some]
  rw [if_neg hrest, hlower, pseudoClass_scope]
  rfl

/-- The compound of the anchor requires `:scope`. -/
theorem scope_of_parse {parser : CssParser} {nested : ParseContext → Str → Option Selector} {context : ParseContext}
    {text : Str} {compound : CompoundSelector} {specificity : Specificity}
    (htext : text = Scan.scopeText ∨ ∃ c ∈ [':', '.', '#', '['], ∃ rest, text = Scan.scopeText ++ c :: rest)
    (h : parseCompoundSelector parser nested context text = some (compound, specificity)) :
    Requirement.Scope ∈ compound.requires := by
  obtain ⟨after, hafter, hhead, hrest⟩ : ∃ after, text = ':' :: ("scope".toList ++ after) ∧
      parseIdentifier ("scope".toList ++ after) = some ("scope".toList, after) ∧ after.head? ≠ some '(' := by
    rcases htext with rfl | ⟨c, hc, rest, rfl⟩
    · exact ⟨[], rfl, by decide +kernel, by simp⟩
    · refine ⟨c :: rest, rfl, parseIdentifier_scope hc rest, ?_⟩
      simp only [List.mem_cons, List.not_mem_nil, or_false] at hc
      rcases hc with rfl | rfl | rfl | rfl <;> simp
  subst hafter
  obtain ⟨simples, hsimples, heq⟩ := Option.map_eq_some_iff.mp h
  obtain ⟨read, hread, rfl⟩ := Option.map_eq_some_iff.mp hsimples
  have htype : readType (':' :: ("scope".toList ++ after)) = ([], ':' :: ("scope".toList ++ after)) := by
    rw [readType.eq_def]
    dsimp only
    rw [if_neg (by decide), parseIdentifier.eq_def]
    rfl
  rw [htype] at hread heq
  rw [readSimples.eq_def, if_neg (by simp)] at hread
  have hcolon : ("scope".toList ++ after).head? ≠ some ':' := by
    rw [show "scope".toList = 's' :: "cope".toList from rfl]
    simp
  have hsimple := readSimple_scope parser nested context hhead hcolon hrest
  split at hread
  · cases hread
  · rename_i simple rest hfirst
    rw [hsimple] at hfirst
    cases hfirst
    obtain ⟨later, -, rfl⟩ := Option.map_eq_some_iff.mp hread
    obtain ⟨rfl, -⟩ := Prod.mk.inj heq
    obtain ⟨added, hadded⟩ := requires_foldl (CompoundSelector.add {} (.PseudoClass [.Scope])) later
    rw [List.nil_append, List.foldl_cons, ← hadded]
    simp [CompoundSelector.add]

/-! ## The search for a relative selector -/

theorem head_of_trim {c : Char} {s : Str} (h : Str.trim (c :: s) = c :: s) : Str.isWhitespace c = false := by
  cases hc : Str.isWhitespace c with
  | false => rfl
  | true =>
    have hle : (Str.trim (c :: s)).length ≤ s.length := by
      rw [Str.trim, Str.trimMatches, List.length_reverse, List.dropWhile_cons_of_pos hc]
      have hreverse := (List.dropWhile_sublist Str.isWhitespace (l := (s.dropWhile Str.isWhitespace).reverse)).length_le
      have hdrop := (List.dropWhile_sublist Str.isWhitespace (l := s)).length_le
      rw [List.length_reverse] at hreverse
      exact hreverse.trans hdrop
    rw [h, List.length_cons] at hle
    omega

/-- Trimmed text does not end in white space. -/
theorem exists_of_trim {front tail : Str} (h : Str.trim (front ++ tail) = front ++ tail) (hne : tail ≠ []) :
    ∃ c ∈ tail, Str.isWhitespace c = false := by
  have hdrop : ((front ++ tail).dropWhile Str.isWhitespace).reverse.dropWhile Str.isWhitespace = (front ++ tail).reverse := by
    rw [Str.trim, Str.trimMatches, List.reverse_eq_iff] at h
    exact h
  have hhead := List.head?_dropWhile_not Str.isWhitespace ((front ++ tail).dropWhile Str.isWhitespace).reverse
  rw [hdrop, List.head?_reverse, List.getLast?_append_of_ne_nil _ hne] at hhead
  cases hlast : tail.getLast? with
  | none => exact absurd (List.getLast?_eq_none_iff.mp hlast) hne
  | some c =>
    rw [hlast] at hhead
    exact ⟨c, List.mem_of_getLast? hlast, hhead⟩

theorem tokens_of_ne {s : Str} (h : selectorTokens s ≠ []) :
    ∃ final, Scan.run {} s = some final ∧ final.finish = selectorTokens s := by
  rw [selectorTokens] at h ⊢
  cases hrun : Scan.run {} s with
  | none => simp [hrun] at h
  | some final => exact ⟨final, rfl, rfl⟩

theorem explicitScope_eq {part tail : Str} (h : explicitScope part = some tail) :
    part = Scan.scopeText ++ tail ∧ ∀ c rest, tail = c :: rest →
      Str.isWhitespace c = true ∨ (Scan.combinatorOf c).isSome = true ∨ c ∈ [':', '.', '#', '['] := by
  obtain ⟨hstrip, hfilter⟩ := Option.filter_eq_some_iff.mp h
  constructor
  · rw [Str.stripPrefix] at hstrip
    split at hstrip
    · rename_i hstarts
      obtain ⟨rest, rfl⟩ := List.isPrefixOf_iff_prefix.mp hstarts
      rw [List.drop_left] at hstrip
      rw [Option.some.inj hstrip]
      rfl
    · cases hstrip
  · rintro c rest rfl
    have hc : Str.isWhitespace c = true ∨ c = '>' ∨ c = '+' ∨ c = '~' ∨ c = ':' ∨ c = '.' ∨ c = '#' ∨ c = '[' := by
      simpa using hfilter
    rcases hc with hc | rfl | rfl | rfl | rfl | rfl | rfl | rfl
    · exact Or.inl hc
    all_goals exact Or.inr (by decide)

/-- After the anchor the text goes on with the combinator, or with what is below the anchor. -/
def Anchored (c : Char) (tokens : List SelectorToken) : Prop :=
  (∃ combinator, Scan.combinatorOf c = some combinator ∧
      [.Compound Scan.scopeText, .Combinator combinator] <+: tokens) ∨
    Scan.combinatorOf c = none ∧ Scan.Descends Scan.scopeText tokens

theorem Anchored.first {c : Char} {tokens : List SelectorToken} (h : Anchored c tokens) :
    ∃ second later, tokens = .Compound Scan.scopeText :: second :: later ∧
      (Scan.combinatorOf c).getD .Descendant = second.combinator := by
  rcases h with ⟨combinator, hc, later, rfl⟩ | ⟨hc, later, rfl | ⟨other, rfl⟩⟩
  · exact ⟨.Combinator combinator, later, rfl, by rw [hc]; rfl⟩
  · exact ⟨.Combinator .Descendant, later, rfl, by rw [hc]; rfl⟩
  · exact ⟨.Compound other, later, rfl, by rw [hc]; rfl⟩

theorem anchored_of_run {c : Char} {s : Str} {final : Scan} (hspace : Str.isWhitespace c = false)
    (h : Scan.run Scan.afterAnchor (c :: s) = some final) (hne : final.finish ≠ []) : Anchored c final.finish := by
  cases hc : Scan.combinatorOf c with
  | none => exact Or.inr ⟨hc, Scan.anchor_descends hspace hc h hne⟩
  | some combinator => exact Or.inl ⟨combinator, hc, Scan.anchor_combinator hc h hne⟩

theorem siblings_of_all {combinators : List Combinator}
    (h : (combinators.all fun combinator =>
      decide (combinator = .AdjacentSibling ∨ combinator = .GeneralSibling)) = true) :
    ∀ combinator ∈ combinators, combinator.isSibling = true := by
  intro combinator hmem
  have hkind : combinator = .AdjacentSibling ∨ combinator = .GeneralSibling := by
    simpa using List.all_eq_true.mp h combinator hmem
  rcases hkind with rfl | rfl <;> rfl

/-- The first character after the anchor chooses a search that visits every match. -/
theorem relativeSearch_covers {c : Char} {s : Str} {selector : Selector}
    (hlength : selector.combinators.length + 1 = selector.compounds.length)
    (hfirst : selector.combinators.head? = some ((Scan.combinatorOf c).getD .Descendant)) :
    (relativeSearch (c :: s) selector).Covers selector.combinators := by
  obtain ⟨later, hcombinators⟩ := List.head?_eq_some_iff.mp hfirst
  have hne : selector.combinators ≠ [] := by
    rw [hcombinators]
    simp
  rw [relativeSearch]
  dsimp only [List.head?_cons]
  split
  · rename_i hc
    subst hc
    split
    · rename_i hsimple
      have htwo : selector.compounds.length = 2 := by simpa using hsimple
      rw [hcombinators, List.length_cons] at hlength
      have hlater : later = [] := List.length_eq_zero_iff.mp (by omega)
      rw [hcombinators, hlater]
      rfl
    · exact ⟨_, hfirst, rfl⟩
  · split
    · rename_i hc
      subst hc
      split
      · rename_i hadjacent
        exact ⟨hne, rfl, by simpa using hadjacent⟩
      · split
        · rename_i hsiblings
          exact ⟨hne, siblings_of_all hsiblings⟩
        · exact ⟨_, hfirst, rfl⟩
    · split
      · rename_i hc
        subst hc
        split
        · rename_i hsiblings
          exact ⟨hne, siblings_of_all hsiblings⟩
        · exact ⟨_, hfirst, rfl⟩
      · rename_i hchild hadjacent hgeneral
        have hnone : Scan.combinatorOf c = none := by
          rw [Scan.combinatorOf, if_neg hchild, if_neg hadjacent, if_neg hgeneral]
        rw [hnone] at hfirst
        exact ⟨_, hfirst, rfl⟩

theorem relativeSearch_other {c : Char} (s : Str) (selector : Selector) (h : Scan.combinatorOf c = none) :
    relativeSearch (c :: s) selector = .Descendants := by
  have hne : c ≠ '>' ∧ c ≠ '+' ∧ c ≠ '~' := by
    refine ⟨?_, ?_, ?_⟩ <;> rintro rfl <;> cases h
  rw [relativeSearch]
  dsimp only [List.head?_cons]
  rw [if_neg hne.1, if_neg hne.2.1, if_neg hne.2.2]

/-- Another simple selector is written right after `:scope`. -/
def ContinuesScope (part : Str) : Prop := ∃ c ∈ [':', '.', '#', '['], ∃ rest, part = Scan.scopeText ++ c :: rest

/-- The anchor comes first and the search covers the combinators, but for an anchor with more in its compound. -/
structure Searchable (part : Str) (relative : RelativeSelector) : Prop where
  length : relative.selector.combinators.length + 1 = relative.selector.compounds.length
  anchor : ∃ first, relative.selector.compounds.head? = some first ∧ Requirement.Scope ∈ first.requires
  covers : relative.search.Covers relative.selector.combinators ∨
    ContinuesScope part ∧ relative.search = .Descendants ∧
      ∃ first ∈ relative.selector.combinators.head?, first.isSibling = true

theorem searchable_of_anchored {parser : CssParser} {levels : Nat} {context : ParseContext} {c : Char} {s part : Str}
    {tokens : List SelectorToken} {selector : Selector} (hstarts : StartsWith parser levels context tokens selector)
    (hanchored : Anchored c tokens) : Searchable part ⟨selector, relativeSearch (c :: s) selector⟩ := by
  obtain ⟨second, later, htokens, hsecond⟩ := hanchored.first
  constructor
  · exact hstarts.length
  · obtain ⟨text, rest, compound, specificity, hrest, hcompound, hhead⟩ := hstarts.compound
    rw [htokens] at hrest
    cases hrest
    exact ⟨compound, hhead, scope_of_parse (Or.inl rfl) hcompound⟩
  · have hfirst : selector.combinators.head? = some ((Scan.combinatorOf c).getD .Descendant) := by
      rw [hstarts.combinator _ _ _ htokens, hsecond]
    have hcovers : (relativeSearch (c :: s) selector).Covers selector.combinators :=
      relativeSearch_covers hstarts.length hfirst
    exact Or.inl hcovers

theorem relativeText_explicit {part tail : Str} (h : explicitScope part = some tail) :
    relativeText part = trimStart tail ∧ relativeSource part = part := by
  rw [relativeText, relativeSource, h]
  exact ⟨rfl, rfl⟩

theorem relativeText_implied {part : Str} (h : explicitScope part = none) :
    relativeText part = trimStart part ∧ relativeSource part = Scan.scopeText ++ ' ' :: part := by
  rw [relativeText, relativeSource, h]
  refine ⟨rfl, ?_⟩
  rw [if_neg (by simp), show ":scope ".toList = Scan.scopeText ++ [' '] by decide, List.append_assoc,
    List.singleton_append]

theorem trimStart_cons {c : Char} (hc : Str.isWhitespace c = false) (s : Str) : trimStart (c :: s) = c :: s := by
  rw [trimStart, List.dropWhile_cons_of_neg (by simp [hc])]

theorem searchable_of_parse {parser : CssParser} {levels : Nat} {context : ParseContext} {part : Str}
    {relative : RelativeSelector} {specificity : Specificity} (htrim : Str.trim part = part) (hne : part ≠ [])
    (h : parseRelative (parseSelectorWithDepth parser levels) context part = some (relative, specificity))
    (hcompounds : 2 ≤ relative.selector.compounds.length) : Searchable part relative := by
  cases levels with
  | zero => cases h
  | succ levels =>
    obtain ⟨selector, hselector, h⟩ := Option.bind_eq_some_iff.mp h
    split at h
    · cases h
      have hstarts := startsWith_of_parse hselector
      have htokens : selectorTokens (relativeSource part) ≠ [] := by
        obtain ⟨text, later, -, -, hcons, -⟩ := hstarts.compound
        rw [hcons]
        exact List.cons_ne_nil _ _
      obtain ⟨final, hrun, hfinish⟩ := tokens_of_ne htokens
      rw [← hfinish] at hstarts htokens
      cases hscope : explicitScope part with
      | none =>
        obtain ⟨htext, hsource⟩ := relativeText_implied hscope
        cases part with
        | nil => exact absurd rfl hne
        | cons c s =>
          have hc := head_of_trim htrim
          rw [hsource, Scan.run_scope, Scan.run_scope_space (by decide)] at hrun
          rw [htext, trimStart_cons hc]
          exact searchable_of_anchored hstarts (anchored_of_run hc hrun htokens)
      | some tail =>
        obtain ⟨htext, hsource⟩ := relativeText_explicit hscope
        obtain ⟨rfl, hnext⟩ := explicitScope_eq hscope
        rw [hsource, Scan.run_scope] at hrun
        cases tail with
        | nil =>
          rw [Scan.run_nil] at hrun
          cases hrun
          have hsingle : Scan.afterScope.finish = [.Compound Scan.scopeText] := by decide +kernel
          have hone := hstarts.single _ hsingle
          dsimp only at hcompounds
          omega
        | cons c s =>
          rw [htext]
          rcases hnext c s rfl with hspace | hcombinator | hmore
          · -- white space: the rest is read as after an implied anchor
            rw [Scan.run_scope_space hspace, ← List.takeWhile_append_dropWhile (p := Str.isWhitespace) (l := s),
              Scan.run_spaces (fun d hd => List.mem_takeWhile_imp hd)] at hrun
            rw [trimStart, List.dropWhile_cons_of_pos hspace]
            cases hrest : s.dropWhile Str.isWhitespace with
            | nil =>
              obtain ⟨d, hd, hfalse⟩ := exists_of_trim htrim (List.cons_ne_nil c s)
              have hall : ∀ e ∈ c :: s, Str.isWhitespace e = true := by
                rw [List.dropWhile_eq_nil_iff] at hrest
                simpa [hspace] using hrest
              rw [hall d hd] at hfalse
              cases hfalse
            | cons d rest =>
              rw [hrest] at hrun
              have hd : Str.isWhitespace d = false := by
                have hhead := List.head?_dropWhile_not Str.isWhitespace s
                rw [hrest] at hhead
                exact hhead
              exact searchable_of_anchored hstarts (anchored_of_run hd hrun htokens)
          · obtain ⟨combinator, hc⟩ := Option.isSome_iff_exists.mp hcombinator
            have hspace : Str.isWhitespace c = false := by
              rcases Scan.combinatorOf_eq hc with ⟨rfl, -⟩ | ⟨rfl, -⟩ | ⟨rfl, -⟩ <;> decide
            rw [trimStart_cons hspace]
            exact searchable_of_anchored hstarts (Or.inl ⟨combinator, hc, Scan.scope_combinator hc hrun htokens⟩)
          · obtain ⟨hspace, hnone⟩ : Str.isWhitespace c = false ∧ Scan.combinatorOf c = none := by
              simp only [List.mem_cons, List.not_mem_nil, or_false] at hmore
              rcases hmore with rfl | rfl | rfl | rfl <;> decide
            obtain ⟨rest, later, hbegun⟩ := Scan.scope_begun hmore hrun htokens
            rw [trimStart_cons hspace, relativeSearch_other _ _ hnone]
            constructor
            · exact hstarts.length
            · obtain ⟨text, others, compound, specificity, hcons, hcompound, hhead⟩ := hstarts.compound
              rw [hbegun] at hcons
              cases hcons
              exact ⟨compound, hhead, scope_of_parse (Or.inr ⟨c, hmore, rest, rfl⟩) hcompound⟩
            · have hlength := hstarts.length
              dsimp only at hcompounds ⊢
              cases hcombinators : selector.combinators with
              | nil =>
                rw [hcombinators, List.length_nil] at hlength
                omega
              | cons first combinators =>
                cases hkind : first.isSibling with
                | false => exact Or.inl ⟨first, rfl, hkind⟩
                | true => exact Or.inr ⟨⟨c, hmore, s, rfl⟩, rfl, first, rfl, hkind⟩
    · cases h

theorem search_of_continues {nested : ParseContext → Str → Option Selector} {context : ParseContext} {part : Str}
    {relative : RelativeSelector} {specificity : Specificity} (hpart : ContinuesScope part)
    (h : parseRelative nested context part = some (relative, specificity)) : relative.search = .Descendants := by
  obtain ⟨c, hc, rest, rfl⟩ := hpart
  obtain ⟨hspace, hnone, hcontains⟩ : Str.isWhitespace c = false ∧ Scan.combinatorOf c = none ∧
      ['>', '+', '~', ':', '.', '#', '['].contains c = true := by
    simp only [List.mem_cons, List.not_mem_nil, or_false] at hc
    rcases hc with rfl | rfl | rfl | rfl <;> decide
  have hscope : explicitScope (Scan.scopeText ++ c :: rest) = some (c :: rest) := by
    have hstrip : Str.stripPrefix (Scan.scopeText ++ c :: rest) ":scope".toList = some (c :: rest) := rfl
    rw [explicitScope, hstrip, Option.filter_some_pos]
    exact (Bool.or_eq_true _ _).mpr (Or.inr hcontains)
  obtain ⟨selector, -, h⟩ := Option.bind_eq_some_iff.mp h
  split at h
  · cases h
    rw [(relativeText_explicit hscope).1, trimStart_cons hspace]
    exact relativeSearch_other rest selector hnone
  · cases h

theorem mem_of_mapM {α β : Type*} {f : α → Option β} {parts : List α} {found : List β} (h : parts.mapM f = some found)
    {b : β} (hb : b ∈ found) : ∃ a ∈ parts, f a = some b := by
  induction parts generalizing found with
  | nil =>
    cases h
    cases hb
  | cons a parts ih =>
    rw [List.mapM_cons] at h
    obtain ⟨first, hfirst, h⟩ := Option.bind_eq_some_iff.mp h
    obtain ⟨rest, hrest, h⟩ := Option.bind_eq_some_iff.mp h
    cases h
    rcases List.mem_cons.mp hb with rfl | hb
    · exact ⟨a, by simp, hfirst⟩
    · obtain ⟨a', ha', hfound⟩ := ih hrest hb
      exact ⟨a', List.mem_cons_of_mem _ ha', hfound⟩

theorem part_of_parseHas {nested : ParseContext → Str → Option Selector} {context : ParseContext} {argument : Str}
    {relatives : List RelativeSelector} {amount : Specificity}
    (h : parseHas nested context argument = some (.Has relatives amount)) {relative : RelativeSelector}
    (hmem : relative ∈ relatives) :
    ∃ part ∈ topLevelParts argument, ∃ specificity, part ≠ [] ∧ Str.trim part = part ∧
      parseRelative nested context part = some (relative, specificity) := by
  rw [parseHas] at h
  split at h
  · cases h
  · rename_i hempty
    obtain ⟨found, hfound, h⟩ := Option.bind_eq_some_iff.mp h
    split at h
    · cases h
    · cases h
      obtain ⟨⟨relative, specificity⟩, hpair, rfl⟩ := List.mem_map.mp hmem
      obtain ⟨part, hpart, hparse⟩ := mem_of_mapM hfound hpair
      refine ⟨part, hpart, specificity, ?_, ?_, hparse⟩
      · rintro rfl
        exact hempty (List.any_eq_true.mpr ⟨[], hpart, rfl⟩)
      · obtain ⟨text, -, rfl⟩ := List.mem_map.mp hpart
        exact Str.trimMatches_trimMatches _ _

/-! ## Matches -/

section Matches

variable {heap : Heap} {facts : ElementFacts}

theorem compoundTests_eq (compounds : List CompoundSelector) :
    compoundTests heap facts compounds = compounds.map (compoundMatches heap facts) := by
  induction compounds with
  | nil => rfl
  | cons compound compounds ih => exact congrArg _ ih

theorem isElement_of_compoundMatches {compound : CompoundSelector} {node : NodeId} {scope : Option NodeId}
    (h : compoundMatches heap facts compound node scope = true) : isElement heap node = true := by
  cases compound
  simp only [compoundMatches, Bool.and_eq_true] at h
  tauto

theorem scope_of_compoundMatches {compound : CompoundSelector} {node anchor : NodeId}
    (hscope : Requirement.Scope ∈ compound.requires)
    (h : compoundMatches heap facts compound node (some anchor) = true) : anchor = node := by
  obtain ⟨tag, id, classes, attributes, functional, has, nth, languages, directions, requires, neverMatches⟩ := compound
  simp only [compoundMatches, Bool.and_eq_true, List.all_eq_true] at h
  obtain ⟨⟨⟨⟨⟨⟨-, hrequires⟩, -⟩, -⟩, -⟩, -⟩, -⟩ := h
  simpa [requirementMatches, matchesScope] using hrequires .Scope hscope

/-- Where the selector matches with its anchor, its combinators lead there. -/
theorem leads_of_selectorMatches {selector : Selector} {first : CompoundSelector} {element anchor : NodeId}
    (hlength : selector.combinators.length + 1 = selector.compounds.length)
    (hfirst : selector.compounds.head? = some first) (hscope : Requirement.Scope ∈ first.requires)
    (h : selectorMatchesWithScope heap facts selector element (some anchor) = true) :
    isElement heap element = true ∧ Leads heap selector.combinators.reverse element anchor := by
  obtain ⟨compounds, combinators, specificity⟩ := selector
  have hmatches : matchesAt heap (compounds.map (compoundMatches heap facts)).reverse combinators.reverse element
      (some anchor) = true := by
    rw [← compoundTests_eq]
    exact h
  have hTests : ∀ test ∈ (compounds.map (compoundMatches heap facts)).reverse, ∀ node scope,
      test node scope = true → isElement heap node = true := by
    intro test hmem node scope htest
    obtain ⟨compound, -, rfl⟩ := List.mem_map.mp (List.mem_reverse.mp hmem)
    exact isElement_of_compoundMatches htest
  have hlengths : ((compounds.map (compoundMatches heap facts)).reverse).length = combinators.reverse.length + 1 := by
    simpa using hlength.symm
  obtain ⟨node, hleads, test, htest, hanchor⟩ := leads_of_matchesAt hlengths hTests hmatches
  rw [List.getLast?_reverse, List.head?_map, hfirst] at htest
  cases htest
  rw [scope_of_compoundMatches hscope hanchor]
  exact ⟨isElement_of_matchesAt hTests hmatches, hleads⟩

/-- An element of the anchor's tree that the relative selector matches. -/
structure MatchesInTree (heap : Heap) (facts : ElementFacts) (relative : RelativeSelector)
    (anchor element : NodeId) : Prop where
  isElement : isElement heap element = true
  tree : heap.treeRoot element = heap.treeRoot anchor
  selector : selectorMatchesWithScope heap facts relative.selector element (some anchor) = true

theorem relativeTest_iff {relative : RelativeSelector} {anchor : NodeId} :
    relativeTest heap facts relative anchor = true ↔ ∃ element ∈ candidates heap anchor relative.search,
      isElement heap element = true ∧ selectorMatchesWithScope heap facts relative.selector element (some anchor) = true := by
  obtain ⟨selector, search⟩ := relative
  show relativeSelectorMatches heap _ search anchor = true ↔ _
  simp only [relativeSelectorMatches, List.any_eq_true, Bool.and_eq_true]

/-- What a search finds is a match. -/
theorem exists_of_relativeTest (trees : heap.NodeTrees) {relative : RelativeSelector} {anchor : NodeId}
    (h : relativeTest heap facts relative anchor = true) : ∃ element, MatchesInTree heap facts relative anchor element := by
  obtain ⟨element, hmem, helement, hmatches⟩ := relativeTest_iff.mp h
  exact ⟨element, helement, treeRoot_of_mem_candidates trees hmem, hmatches⟩

/-- The search goes down from an anchor whose compound was continued, while its matches come after it. -/
def Misread (part : Str) (relative : RelativeSelector) : Prop :=
  ContinuesScope part ∧ ∃ first ∈ relative.selector.combinators.head?, first.isSibling = true

/-- No match for a sibling of the anchor is at or below the anchor. -/
theorem not_relativeTest (trees : heap.NodeTrees) {part : Str} {relative : RelativeSelector} {anchor : NodeId}
    (hsearchable : Searchable part relative) (hsearch : relative.search = .Descendants)
    (hfirst : ∃ first ∈ relative.selector.combinators.head?, first.isSibling = true) :
    relativeTest heap facts relative anchor = false := by
  by_contra hne
  obtain ⟨element, hmem, -, hmatches⟩ := relativeTest_iff.mp (Bool.eq_true_of_not_eq_false hne)
  obtain ⟨compound, hcompound, hscope⟩ := hsearchable.anchor
  obtain ⟨helement, hleads⟩ := leads_of_selectorMatches hsearchable.length hcompound hscope hmatches
  obtain ⟨first, hhead, hkind⟩ := hfirst
  obtain ⟨later, hcombinators⟩ := List.head?_eq_some_iff.mp hhead
  rw [hcombinators] at hleads
  obtain ⟨sibling, hsibling, hreach⟩ := after_of_leads trees hkind helement hleads
  rw [hsearch] at hmem
  exact not_reaches_of_following trees hsibling hreach ((mem_searched trees).mp hmem)

/-- Any other search finds a match if there is one. -/
theorem relativeTest_of_match (trees : heap.NodeTrees) {part : Str} {relative : RelativeSelector}
    {anchor element : NodeId} (hsearchable : Searchable part relative)
    (hcovers : relative.search.Covers relative.selector.combinators)
    (h : MatchesInTree heap facts relative anchor element) : relativeTest heap facts relative anchor = true := by
  obtain ⟨compound, hcompound, hscope⟩ := hsearchable.anchor
  obtain ⟨helement, hleads⟩ := leads_of_selectorMatches hsearchable.length hcompound hscope h.selector
  exact relativeTest_iff.mpr ⟨element, mem_candidates trees hcovers helement hleads, helement, h.selector⟩

theorem has_search_exact (trees : heap.NodeTrees) {parser : CssParser} {levels : Nat} {context : ParseContext}
    {argument : Str} {relatives : List RelativeSelector} {amount : Specificity}
    (hhas : parseHas (parseSelectorWithDepth parser levels) context argument = some (.Has relatives amount))
    {relative : RelativeSelector} (hmem : relative ∈ relatives) (hcompounds : 2 ≤ relative.selector.compounds.length)
    (anchor : NodeId) :
    ∃ part ∈ topLevelParts argument,
      (∃ specificity, parseRelative (parseSelectorWithDepth parser levels) context part = some (relative, specificity)) ∧
      ((relativeTest heap facts relative anchor = true ↔ ∃ element, MatchesInTree heap facts relative anchor element) ↔
        ¬ Misread part relative ∨ ∀ element, ¬ MatchesInTree heap facts relative anchor element) := by
  obtain ⟨part, hpart, specificity, hne, htrim, hparse⟩ := part_of_parseHas hhas hmem
  have hsearchable := searchable_of_parse htrim hne hparse hcompounds
  refine ⟨part, hpart, ⟨specificity, hparse⟩, ?_⟩
  constructor
  · intro hexact
    by_contra hnot
    rw [not_or, not_not, not_forall_not] at hnot
    obtain ⟨⟨hcontinues, hfirst⟩, hmatch⟩ := hnot
    rw [not_relativeTest trees hsearchable (search_of_continues hcontinues hparse) hfirst] at hexact
    exact absurd (hexact.mpr hmatch) (by simp)
  · intro h
    refine ⟨exists_of_relativeTest trees, fun hmatch => ?_⟩
    obtain ⟨element, hmatch⟩ := hmatch
    rcases h with hread | hnone
    · rcases hsearchable.covers with hcovers | ⟨hcontinues, -, hfirst⟩
      · exact relativeTest_of_match trees hsearchable hcovers hmatch
      · exact absurd ⟨hcontinues, hfirst⟩ hread
    · exact absurd hmatch (hnone element)

end Matches

/-! ## An anchor that goes on -/

/-- A document with an element of the class `foo` and an `a` after it. -/
def siblingHeap : Heap where
  allocated := [⟨0, 0⟩, ⟨0, 1⟩, ⟨0, 2⟩]
  node := fun id =>
    if id = ⟨0, 0⟩ then { Node.isolated .document with children := [⟨0, 1⟩, ⟨0, 2⟩] }
    else if id = ⟨0, 1⟩ then
      { Node.isolated (.element ⟨⟨none, htmlNamespace, "p".toList⟩,
          [⟨⟨none, [], "class".toList⟩, "foo".toList⟩], none, none, false⟩) with parent := some ⟨0, 0⟩ }
    else if id = ⟨0, 2⟩ then
      { Node.isolated (.element ⟨⟨none, htmlNamespace, "a".toList⟩, [], none, none, false⟩) with
        parent := some ⟨0, 0⟩ }
    else Node.isolated .document
  identity := fun _ => ⟨3, 0⟩

theorem siblingHeap_parent {child parent : NodeId} :
    siblingHeap.parent child = some parent ↔ (child = ⟨0, 1⟩ ∨ child = ⟨0, 2⟩) ∧ parent = ⟨0, 0⟩ := by
  simp only [Heap.parent, siblingHeap, Node.isolated]
  split_ifs <;> simp_all [eq_comm]

theorem siblingHeap_trees : siblingHeap.NodeTrees where
  childLinks := by
    intro parent child
    rw [siblingHeap_parent]
    simp only [Heap.children, siblingHeap, Node.isolated]
    split_ifs <;> simp_all
  childrenNodup := by
    intro parent
    simp only [Heap.children, siblingHeap, Node.isolated]
    split_ifs <;> decide
  acyclic := by
    apply Walk.Acyclic.of_rank fun id : NodeId => id.serial
    intro child parent hlink
    obtain ⟨rfl | rfl, rfl⟩ := siblingHeap_parent.mp hlink <;> decide
  allocated := by
    intro child parent hlink
    obtain ⟨rfl | rfl, rfl⟩ := siblingHeap_parent.mp hlink <;> decide

def plainHas (argument : String) : Option (List RelativeSelector) :=
  match parseHas (parseSelectorWithDepth plainParser 8) {} argument.toList with
  | some (.Has relatives _) => some relatives
  | _ => none

theorem plainHas_eq {argument : String} {relatives : List RelativeSelector} (h : plainHas argument = some relatives) :
    ∃ amount, parseHas (parseSelectorWithDepth plainParser 8) {} argument.toList = some (.Has relatives amount) := by
  rw [plainHas] at h
  split at h
  · cases h
    exact ⟨_, by assumption⟩
  · cases h

/-- The `a` after the anchor matches `:scope.foo + a` and is not found. -/
theorem continued_scope_misses : ∃ relatives amount,
    parseHas (parseSelectorWithDepth plainParser 8) {} ":scope.foo + a".toList = some (.Has relatives amount) ∧
      ∃ relative ∈ relatives, 2 ≤ relative.selector.compounds.length ∧ siblingHeap.NodeTrees ∧
        relativeTest siblingHeap plainFacts relative ⟨0, 1⟩ = false ∧
        MatchesInTree siblingHeap plainFacts relative ⟨0, 1⟩ ⟨0, 2⟩ := by
  have hfound : (plainHas ":scope.foo + a").any (fun relatives => relatives.any fun relative =>
      decide (2 ≤ relative.selector.compounds.length) && !relativeTest siblingHeap plainFacts relative ⟨0, 1⟩ &&
        selectorMatchesWithScope siblingHeap plainFacts relative.selector ⟨0, 2⟩ (some ⟨0, 1⟩)) = true := by
    decide +kernel
  obtain ⟨relatives, hrelatives, hany⟩ := (Option.any_eq_true _ _).mp hfound
  obtain ⟨relative, hmem, hchecks⟩ := List.any_eq_true.mp hany
  simp only [Bool.and_eq_true, decide_eq_true_eq, Bool.not_eq_true'] at hchecks
  obtain ⟨amount, hparse⟩ := plainHas_eq hrelatives
  exact ⟨relatives, amount, hparse, relative, hmem, hchecks.1.1, siblingHeap_trees, hchecks.1.2,
    ⟨by decide, by decide, hchecks.2⟩⟩

theorem has_search_exact_sample : ∃ relatives amount,
    parseHas (parseSelectorWithDepth plainParser 8) {} "+ a".toList = some (.Has relatives amount) ∧
      ∃ relative ∈ relatives, ∃ part ∈ topLevelParts "+ a".toList,
        (∃ specificity, parseRelative (parseSelectorWithDepth plainParser 8) {} part = some (relative, specificity)) ∧
        ((relativeTest siblingHeap plainFacts relative ⟨0, 1⟩ = true ↔
            ∃ element, MatchesInTree siblingHeap plainFacts relative ⟨0, 1⟩ element) ↔
          ¬ Misread part relative ∨ ∀ element, ¬ MatchesInTree siblingHeap plainFacts relative ⟨0, 1⟩ element) := by
  have hfound : (plainHas "+ a").any (fun relatives => relatives.any fun relative =>
      decide (2 ≤ relative.selector.compounds.length)) = true := by
    decide +kernel
  obtain ⟨relatives, hrelatives, hany⟩ := (Option.any_eq_true _ _).mp hfound
  obtain ⟨relative, hmem, hcompounds⟩ := List.any_eq_true.mp hany
  obtain ⟨amount, hparse⟩ := plainHas_eq hrelatives
  exact ⟨relatives, amount, hparse, relative, hmem,
    has_search_exact siblingHeap_trees hparse hmem (of_decide_eq_true hcompounds) ⟨0, 1⟩⟩

end BetterWebBrowser.Css
