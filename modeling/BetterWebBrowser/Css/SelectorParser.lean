import BetterWebBrowser.Css.Selectors

/-!
# The selector parser

The arguments of functional pseudo-classes are selectors again, at most eight levels deep. The
tokens of `cssparser` are read with its parser, which is a parameter.
-/

namespace BetterWebBrowser.Css

open Framework

/-- A token of `cssparser`, of the kinds that the parser looks for. -/
inductive CssToken
  | Ident (value : Str)
  | QuotedString (value : Str)
  | IncludeMatch
  | DashMatch
  | PrefixMatch
  | SuffixMatch
  | SubstringMatch
  | Delim (c : Char)
  | Other
deriving DecidableEq, Repr

/-- `cssparser`: the next token after white space and comments, and `parse_nth`, with what is left. -/
structure CssParser where
  next : Str → Option (CssToken × Str)
  parseNth : Str → Option ((Int × Int) × Str)

/-- Nothing is read with `cssparser`. -/
def plainParser : CssParser := ⟨fun _ => none, fun _ => none⟩

namespace CssParser

variable (parser : CssParser)

def isExhausted (s : Str) : Bool := (parser.next s).isNone

def expectIdent (s : Str) : Option (Str × Str) :=
  match parser.next s with
  | some (.Ident value, rest) => some (value, rest)
  | _ => none

def expectIdentOrString (s : Str) : Option (Str × Str) :=
  match parser.next s with
  | some (.Ident value, rest) => some (value, rest)
  | some (.QuotedString value, rest) => some (value, rest)
  | _ => none

def attributeOperator : CssToken → Option AttributeOperator
  | .IncludeMatch => some .Includes
  | .DashMatch => some .DashMatch
  | .PrefixMatch => some .Prefix
  | .SuffixMatch => some .Suffix
  | .SubstringMatch => some .Substring
  | .Delim c => if c = '=' then some .Equals else none
  | _ => none

def caseSensitivity (s : Str) : Option (AttributeCaseSensitivity × Str) :=
  if parser.isExhausted s then some (.Default, s)
  else
    (parser.expectIdent s).bind fun (modifier, rest) =>
      if Str.eqIgnoreAsciiCase modifier "i".toList then some (.AsciiInsensitive, rest)
      else if Str.eqIgnoreAsciiCase modifier "s".toList then some (.Sensitive, rest)
      else none

def parseAttributeSelector (s : Str) : Option AttributeSelector := do
  let (name, rest) ← parser.expectIdent s
  let name := Str.toAsciiLowercase name
  if parser.isExhausted rest then return ⟨name, .Exists, [], .Default⟩
  else
    let (token, rest) ← parser.next rest
    let operator ← attributeOperator token
    let (value, rest) ← parser.expectIdentOrString rest
    let (sensitivity, rest) ← parser.caseSensitivity rest
    if parser.isExhausted rest then return ⟨name, operator, value, sensitivity⟩ else none

def parseLanguageRange (s : Str) : Option Str := do
  let (value, rest) ← parser.expectIdentOrString s
  if parser.isExhausted rest then return value else none

end CssParser

/-- The nested rule's parent, and whether the selector is in an argument of `:has()`. -/
structure ParseContext where
  parent : Option (List Selector) := none
  parentSpecificity : Option Specificity := none
  insideHas : Bool := false

/-! ## Functional pseudo-classes -/

section Functional

-- `nested` parses a selector one level deeper.
variable (parser : CssParser) (nested : ParseContext → Str → Option Selector) (context : ParseContext)

def topLevelParts (argument : Str) : List Str := (splitCssTopLevel argument ',').map Str.trim

def parseSelectorListPseudo (kind : FunctionalSelectorKind) (argument : Str) : Option SimpleSelector :=
  let parts := topLevelParts argument
  let selectors := (parts.filter fun part => !part.isEmpty).map fun part =>
    (nested context part).filter selectorIsSupported
  let forgiving := decide (kind ≠ .Not)
  if !forgiving && (parts.isEmpty || parts.any List.isEmpty || selectors.any Option.isNone) then none
  else some (.SelectorList kind selectors.reduceOption)

/-- The text after a written `:scope`. -/
def explicitScope (part : Str) : Option Str :=
  (Str.stripPrefix part ":scope".toList).filter fun tail =>
    match tail with
    | [] => true
    | c :: _ => Str.isWhitespace c || ['>', '+', '~', ':', '.', '#', '['].contains c

def relativeText (part : Str) : Str := trimStart ((explicitScope part).getD part)

def relativeSource (part : Str) : Str := if (explicitScope part).isSome then part else ":scope ".toList ++ part

def relativeSearch (relative : Str) (selector : Selector) : RelativeSearch :=
  let simple := selector.compounds.length == 2
  let adjacentOnly := selector.combinators.all fun combinator => decide (combinator = .AdjacentSibling)
  let siblingsOnly := selector.combinators.all fun combinator =>
    decide (combinator = .AdjacentSibling ∨ combinator = .GeneralSibling)
  match relative.head? with
  | some c =>
    if c = '>' then if simple then .Children else .Descendants
    else if c = '+' then
      if adjacentOnly then .SiblingAt selector.combinators.length
      else if siblingsOnly then .LaterSiblings
      else .FollowingSiblings
    else if c = '~' then if siblingsOnly then .LaterSiblings else .FollowingSiblings
    else .Descendants
  | none => .Descendants

def parseRelative (part : Str) : Option (RelativeSelector × Specificity) := do
  let selector ← nested { context with insideHas := true } (relativeSource part)
  if selectorIsSupported selector then
    let specificity := selector.specificity
    let specificity := if (explicitScope part).isSome then specificity
      else { specificity with classes := saturatingSub specificity.classes 1 }
    return (⟨selector, relativeSearch (relativeText part) selector⟩, specificity)
  else none

def parseHas (argument : Str) : Option SimpleSelector :=
  let parts := topLevelParts argument
  if parts.any List.isEmpty then none
  else do
    let relatives ← parts.mapM (parseRelative nested context)
    if relatives.isEmpty then none
    else return .Has (relatives.map Prod.fst) (Specificity.maximum (relatives.map Prod.snd))

def parseDirection (argument : Str) : Option TextDirection :=
  if Str.toAsciiLowercase argument = "ltr".toList then some .Ltr
  else if Str.toAsciiLowercase argument = "rtl".toList then some .Rtl
  else none

def parseFilterMember (member : Str) : Option Selector :=
  if Str.trim member = [] then none else (nested context (Str.trim member)).filter selectorIsSupported

def parseFilter (ofType : Bool) (rest : Str) : Option (List Selector) :=
  if parser.isExhausted rest then some []
  else if ofType then none
  else
    match parser.next rest with
    | some (.Ident name, rest) =>
      if Str.eqIgnoreAsciiCase name "of".toList then
        if Str.trim rest = [] then none
        else (splitCssTopLevel (Str.trim rest) ',').mapM (parseFilterMember nested context)
      else none
    | _ => none

def parseNthSelector (name argument : Str) : Option SimpleSelector := do
  let ofType := name = "nth-of-type".toList ∨ name = "nth-last-of-type".toList
  let fromEnd := name = "nth-last-child".toList ∨ name = "nth-last-of-type".toList
  let ((a, b), rest) ← parser.parseNth argument
  let filter ← parseFilter parser nested context ofType rest
  return .Nth ⟨a, b, fromEnd, ofType, filter⟩ (Specificity.maximum (filter.map Selector.specificity))

def parseFunctionalPseudo (name argument : Str) : Option SimpleSelector :=
  if name = "is".toList then parseSelectorListPseudo nested context .Is argument
  else if name = "where".toList then parseSelectorListPseudo nested context .Where argument
  else if name = "not".toList then parseSelectorListPseudo nested context .Not argument
  else if name = "has".toList ∧ ¬ context.insideHas then parseHas nested context argument
  else if name = "lang".toList then
    ((splitCssTopLevel argument ',').mapM parser.parseLanguageRange).bind fun ranges =>
      if ranges.isEmpty then none else some (.Languages ranges)
  else if name = "dir".toList then (parseDirection argument).map .Direction
  else if ["nth-child".toList, "nth-last-child".toList, "nth-of-type".toList, "nth-last-of-type".toList].contains name then
    parseNthSelector parser nested context name argument
  else none

end Functional

/-! ## Compounds -/

/-- The pseudo-classes without arguments and the flags that they set. -/
def pseudoClasses : List (String × List Requirement) :=
  [("any-link", [.Link]), ("link", [.Link, .Unvisited]), ("visited", [.Link, .Visited]),
    ("first-child", [.FirstChild]), ("first-of-type", [.FirstOfType]), ("last-child", [.LastChild]),
    ("last-of-type", [.LastOfType]), ("only-child", [.OnlyChild]), ("only-of-type", [.OnlyOfType]),
    ("empty", [.Empty]), ("has-slotted", [.HasSlotted]), ("root", [.Root]), ("scope", [.Scope]),
    ("enabled", [.Enabled]), ("disabled", [.Disabled]), ("read-write", [.ReadWrite]), ("read-only", [.ReadOnly]),
    ("fullscreen", [.Fullscreen]), ("popover-open", [.PopoverOpen]), ("hover", [.Hover]), ("focus", [.Focus]),
    ("focus-within", [.FocusWithin]), ("checked", [.Checked]), ("indeterminate", [.Indeterminate]),
    ("valid", [.Valid]), ("invalid", [.Invalid]), ("required", [.Required]), ("optional", [.Optional]),
    ("in-range", [.InRange]), ("out-of-range", [.OutOfRange])]

def pseudoClass (name : Str) : Option SimpleSelector :=
  if name = "active".toList ∨ name = "focus-visible".toList then some .NeverMatching
  else (pseudoClasses.find? fun entry => decide (entry.1.toList = name)).map fun entry => .PseudoClass entry.2

section Compound

variable (parser : CssParser) (nested : ParseContext → Str → Option Selector) (context : ParseContext)

/-- A pseudo-class, the cursor being after its colon. -/
def readPseudoClass (s : Str) : Option (SimpleSelector × Str) :=
  if s.head? = some ':' then none
  else do
    let (name, rest) ← parseIdentifier s
    let name := Str.toAsciiLowercase name
    if rest.head? = some '(' then
      let (argument, rest) ← findMatchingParenthesis rest
      let simple ← parseFunctionalPseudo parser nested context name (Str.trim argument)
      return (simple, rest)
    else
      let simple ← pseudoClass name
      return (simple, rest)

/-- One round of the loop over a compound. -/
def readSimple : Str → Option (SimpleSelector × Str)
  | [] => none
  | c :: s =>
    if c = '&' then some (.Nesting context.parent context.parentSpecificity, s)
    else if c = '#' then (parseIdentifier s).map fun (id, rest) => (.Id id, rest)
    else if c = '.' then (parseIdentifier s).map fun (name, rest) => (.Class name, rest)
    else if c = ':' then readPseudoClass parser nested context s
    else if c = '[' then do
      let (text, rest) ← findAttributeEnd none s
      let selector ← parser.parseAttributeSelector text
      return (.Attribute selector, rest)
    else none

theorem length_nameCharacters {s : Str} {found : Str × Str} (h : nameCharacters s = some found) :
    found.2.length ≤ s.length := by
  induction s using nameCharacters.induct generalizing found with
  | case1 =>
    rw [nameCharacters] at h
    cases h
    simp
  | case2 s hescape =>
    rw [nameCharacters, if_pos rfl] at h
    split at h
    · cases h
    · rename_i hsome
      rw [hescape] at hsome
      cases hsome
  | case3 s escaped rest hescape ih =>
    rw [nameCharacters, if_pos rfl] at h
    split at h
    · cases h
    · rename_i hsome
      rw [hescape] at hsome
      cases hsome
      obtain ⟨inner, hinner, rfl⟩ := Option.map_eq_some_iff.mp h
      exact (ih hinner).trans (length_consumeEscape hescape).le
  | case4 c s hc hname ih =>
    rw [nameCharacters, if_neg hc, if_pos hname] at h
    obtain ⟨inner, hinner, rfl⟩ := Option.map_eq_some_iff.mp h
    exact (ih hinner).trans (by simp)
  | case5 c s hc hname =>
    rw [nameCharacters, if_neg hc, if_neg hname] at h
    cases h
    simp

theorem length_parseIdentifier {s : Str} {found : Str × Str} (h : parseIdentifier s = some found) :
    found.2.length ≤ s.length := by
  rw [parseIdentifier.eq_def] at h
  have h := (Option.filter_eq_some_iff.mp h).1
  cases s with
  | nil => cases h
  | cons first s =>
    dsimp only at h
    split at h
    · cases s with
      | nil => cases h
      | cons following s =>
        dsimp only at h
        split at h
        · obtain ⟨inner, hinner, rfl⟩ := Option.map_eq_some_iff.mp h
          have hle := length_nameCharacters hinner
          simp only [List.length_cons]
          omega
        · split at h
          · cases h
          · obtain ⟨inner, hinner, rfl⟩ := Option.map_eq_some_iff.mp h
            exact (length_nameCharacters hinner).trans (by simp)
    · split at h
      · cases h
      · exact length_nameCharacters h

theorem length_closeParenthesis {depth : Nat} {quote : Option Char} {escaped : Bool} {s : Str} {found : Str × Str}
    (h : closeParenthesis depth quote escaped s = some found) : found.2.length < s.length := by
  induction s generalizing depth quote escaped found with
  | nil => cases h
  | cons c s ih =>
    have hcontinued : ∀ {depth quote escaped},
        (closeParenthesis depth quote escaped s).map (fun found => (c :: found.1, found.2)) = some found →
          found.2.length < (c :: s).length := by
      intro depth quote escaped h
      obtain ⟨inner, hinner, rfl⟩ := Option.map_eq_some_iff.mp h
      exact (ih hinner).trans (by simp)
    rw [closeParenthesis.eq_def] at h
    dsimp only at h
    split at h
    · exact hcontinued h
    · split at h
      · exact hcontinued h
      · split at h
        · exact hcontinued h
        · split at h
          · exact hcontinued h
          · split at h
            · exact hcontinued h
            · split at h
              · split at h
                · cases h
                  simp
                · exact hcontinued h
              · exact hcontinued h

theorem length_findAttributeEnd {quote : Option Char} {s : Str} {found : Str × Str}
    (h : findAttributeEnd quote s = some found) : found.2.length < s.length := by
  generalize hn : s.length = n
  induction n using Nat.strongRecOn generalizing quote s found with
  | ind n ih =>
    cases s with
    | nil =>
      rw [findAttributeEnd] at h
      cases h
    | cons c s =>
      have hcontinued : ∀ {quote}, (findAttributeEnd quote s).map (fun found => (c :: found.1, found.2)) = some found →
          found.2.length < n := by
        intro quote h
        obtain ⟨inner, hinner, rfl⟩ := Option.map_eq_some_iff.mp h
        rw [List.length_cons] at hn
        have hlt := ih s.length (by omega) hinner rfl
        dsimp only
        omega
      rw [findAttributeEnd] at h
      split at h
      · split at h
        · cases h
        · rename_i rest hescape
          obtain ⟨inner, hinner, rfl⟩ := Option.map_eq_some_iff.mp h
          have hlt := length_consumeEscape hescape
          rw [hn] at hlt
          have hrest := ih rest.length hlt hinner rfl
          dsimp only
          omega
      · dsimp only at h
        split at h
        · exact hcontinued h
        · split at h
          · exact hcontinued h
          · split at h
            · cases h
              rw [← hn]
              simp
            · exact hcontinued h

theorem length_readPseudoClass {s : Str} {found : SimpleSelector × Str}
    (h : readPseudoClass parser nested context s = some found) : found.2.length ≤ s.length := by
  rw [readPseudoClass] at h
  split at h
  · cases h
  · obtain ⟨⟨name, rest⟩, hname, h⟩ := Option.bind_eq_some_iff.mp h
    have hle := length_parseIdentifier hname
    dsimp only at h hle
    split at h
    · obtain ⟨⟨argument, after⟩, hargument, h⟩ := Option.bind_eq_some_iff.mp h
      obtain ⟨simple, -, h⟩ := Option.bind_eq_some_iff.mp h
      cases h
      rw [findMatchingParenthesis.eq_def] at hargument
      split at hargument
      · have hlt := length_closeParenthesis hargument
        simp only [List.length_cons] at hle
        dsimp only at hlt ⊢
        omega
      · cases hargument
    · obtain ⟨simple, -, h⟩ := Option.bind_eq_some_iff.mp h
      cases h
      exact hle

theorem length_readSimple {s : Str} {found : SimpleSelector × Str}
    (h : readSimple parser nested context s = some found) : found.2.length < s.length := by
  cases s with
  | nil => cases h
  | cons c s =>
    rw [List.length_cons]
    apply Nat.lt_succ_of_le
    rw [readSimple] at h
    split at h
    · cases h
      exact le_rfl
    · split at h
      · obtain ⟨inner, hinner, rfl⟩ := Option.map_eq_some_iff.mp h
        exact length_parseIdentifier hinner
      · split at h
        · obtain ⟨inner, hinner, rfl⟩ := Option.map_eq_some_iff.mp h
          exact length_parseIdentifier hinner
        · split at h
          · exact length_readPseudoClass parser nested context h
          · split at h
            · obtain ⟨⟨text, rest⟩, hfind, h⟩ := Option.bind_eq_some_iff.mp h
              obtain ⟨selector, -, h⟩ := Option.bind_eq_some_iff.mp h
              cases h
              exact (length_findAttributeEnd hfind).le
            · cases h

/-- The simple selectors up to the end of the text. -/
def readSimples (s : Str) : Option (List SimpleSelector) :=
  if s.isEmpty then some []
  else
    match _h : readSimple parser nested context s with
    | none => none
    | some (simple, rest) => (readSimples rest).map fun simples => simple :: simples
termination_by s.length
decreasing_by exact length_readSimple parser nested context _h

/-- The type selector in front. -/
def readType (s : Str) : List SimpleSelector × Str :=
  match s with
  | [] => ([], [])
  | c :: rest =>
    if c = '*' then ([], rest)
    else
      match parseIdentifier (c :: rest) with
      | some (tag, rest) => ([.Tag (Str.toAsciiLowercase tag)], rest)
      | none => ([], c :: rest)

/-- The simple selectors written in a compound. -/
def simpleSelectors (s : Str) : Option (List SimpleSelector) :=
  (readSimples parser nested context (readType s).2).map fun simples => (readType s).1 ++ simples

def parseCompoundSelector (s : Str) : Option (CompoundSelector × Specificity) :=
  (simpleSelectors parser nested context s).map fun simples =>
    (simples.foldl CompoundSelector.add {}, simples.foldl Specificity.add {})

end Compound

/-! ## Complex selectors -/

/-- The loop over the tokens of a complex selector. -/
structure Parsing where
  compounds : List CompoundSelector := []
  combinators : List Combinator := []
  specificity : Specificity := {}
  expectCompound : Bool := true

def Parsing.next (parseCompound : Str → Option (CompoundSelector × Specificity)) (parsing : Parsing) :
    SelectorToken → Option Parsing
  | .Compound text =>
    (parseCompound text).map fun (compound, specificity) =>
      { compounds := parsing.compounds ++ [compound]
        combinators := if parsing.expectCompound then parsing.combinators else parsing.combinators ++ [.Descendant]
        specificity := parsing.specificity.plus specificity
        expectCompound := false }
  | .Combinator combinator =>
    if parsing.expectCompound then none
    else if parsing.combinators.length < parsing.compounds.length then
      some { parsing with combinators := parsing.combinators ++ [combinator], expectCompound := true }
    else some { parsing with combinators := parsing.combinators.dropLast ++ [combinator], expectCompound := true }

/-- A parser that may go so many levels deep. -/
def parseSelectorWithDepth (parser : CssParser) : Nat → ParseContext → Str → Option Selector
  | 0, _, _ => none
  | levels + 1, context, s =>
    if s.isEmpty then none
    else if (selectorTokens s).isEmpty then none
    else do
      let parsing ← (selectorTokens s).foldlM
        (Parsing.next (parseCompoundSelector parser (parseSelectorWithDepth parser levels) context)) {}
      if parsing.compounds.isEmpty || parsing.expectCompound ||
          parsing.combinators.length + 1 != parsing.compounds.length then none
      else return ⟨parsing.compounds, parsing.combinators, parsing.specificity⟩

/-- Depths from 0 to 8. -/
def MAX_LEVELS : Nat := 9

def parseSelector (parser : CssParser) (s : Str) : Option Selector := parseSelectorWithDepth parser MAX_LEVELS {} s

end BetterWebBrowser.Css
