import BetterWebBrowser.Framework.Str

/-!
# Scanning selector text

Escapes and identifiers, matching parentheses and brackets, and the compounds and combinators
of a complex selector. A scanner takes the text from its cursor on and returns what is left.
-/

namespace BetterWebBrowser.Css

open Framework

/-! ## Identifiers -/

def isNameStart (c : Char) : Bool := Str.isAsciiAlphabetic c || c == '_' || !Str.isAscii c

def isNameCharacter (c : Char) : Bool := isNameStart c || Str.isAsciiDigit c || c == '-'

/-- `to_digit(16)` -/
def hexDigit (c : Char) : Option Nat :=
  if '0' ≤ c ∧ c ≤ '9' then some (c.toNat - '0'.toNat)
  else if 'a' ≤ c ∧ c ≤ 'f' then some (c.toNat - 'a'.toNat + 10)
  else if 'A' ≤ c ∧ c ≤ 'F' then some (c.toNat - 'A'.toNat + 10)
  else none

/-- The value of at most so many hexadecimal digits. -/
def hexDigits : Nat → Nat → Str → Nat × Str
  | count + 1, codePoint, c :: s =>
    match hexDigit c with
    | some digit => hexDigits count (16 * codePoint + digit) s
    | none => (codePoint, c :: s)
  | _, codePoint, s => (codePoint, s)

/-- One white space, with the line feed after a carriage return. -/
def skipOneWhitespace : Str → Str
  | '\r' :: '\n' :: s => s
  | c :: s => if Str.isWhitespace c then s else c :: s
  | [] => []

def decodeEscape (codePoint : Nat) : Char :=
  if codePoint.isValidChar ∧ codePoint ≠ 0 then Char.ofNat codePoint else Char.ofNat 0xfffd

def consumeEscape : Str → Option (Char × Str)
  | '\\' :: first :: s =>
    if first = '\n' ∨ first = '\r' ∨ first = Char.ofNat 0x0c then none
    else if (hexDigit first).isNone then some (first, s)
    else
      let (codePoint, s) := hexDigits 6 0 (first :: s)
      some (decodeEscape codePoint, skipOneWhitespace s)
  | _ => none

theorem length_hexDigits (count codePoint : Nat) (s : Str) : (hexDigits count codePoint s).2.length ≤ s.length := by
  induction count generalizing codePoint s with
  | zero => simp [hexDigits]
  | succ count ih =>
    cases s with
    | nil => simp [hexDigits]
    | cons c s =>
      rw [hexDigits]
      cases hexDigit c with
      | none => simp
      | some digit => exact (ih _ s).trans (by simp)

theorem length_skipOneWhitespace (s : Str) : (skipOneWhitespace s).length ≤ s.length := by
  rw [skipOneWhitespace.eq_def]
  split
  · simp only [List.length_cons]
    omega
  · split
    · simp
    · simp
  · simp

theorem length_consumeEscape {s rest : Str} {c : Char} (h : consumeEscape s = some (c, rest)) :
    rest.length < s.length := by
  rw [consumeEscape.eq_def] at h
  split at h
  · rename_i first s
    split at h
    · cases h
    · split at h
      · cases h
        simp only [List.length_cons]
        omega
      · have hdigits := length_hexDigits 6 0 (first :: s)
        generalize hexDigits 6 0 (first :: s) = digits at h hdigits
        have hskip := length_skipOneWhitespace digits.2
        obtain ⟨-, rfl⟩ := Prod.mk.inj (Option.some.inj h)
        rw [List.length_cons]
        exact Nat.lt_succ_of_le (hskip.trans hdigits)
  · cases h

/-- The characters of a name, decoded, and what is left. -/
def nameCharacters (s : Str) : Option (Str × Str) :=
  match s with
  | [] => some ([], [])
  | c :: s =>
    if c = '\\' then
      match _h : consumeEscape (c :: s) with
      | none => none
      | some (escaped, rest) => (nameCharacters rest).map fun found => (escaped :: found.1, found.2)
    else if isNameCharacter c then (nameCharacters s).map fun found => (c :: found.1, found.2)
    else some ([], c :: s)
termination_by s.length
decreasing_by
  · exact length_consumeEscape _h
  · simp

def parseIdentifier (s : Str) : Option (Str × Str) :=
  let found : Option (Str × Str) :=
    match s with
    | [] => none
    | first :: s =>
      if first = '-' then
        match s with
        | [] => none
        | following :: s =>
          if following = '-' then (nameCharacters s).map fun found => ('-' :: '-' :: found.1, found.2)
          else if !isNameStart following && following != '\\' then none
          else (nameCharacters (following :: s)).map fun found => ('-' :: found.1, found.2)
      else if !isNameStart first && first != '\\' then none
      else nameCharacters (first :: s)
  found.filter fun found => !found.1.isEmpty

/-! ## Matching delimiters -/

/-- The text up to the parenthesis that closes the given number of open ones, and what is after it. -/
def closeParenthesis (depth : Nat) (quote : Option Char) (escaped : Bool) : Str → Option (Str × Str)
  | [] => none
  | c :: s =>
    let continued := fun depth quote escaped =>
      (closeParenthesis depth quote escaped s).map fun found => (c :: found.1, found.2)
    if escaped then continued depth quote false
    else if c = '\\' then continued depth quote true
    else
      match quote with
      | some active => continued depth (if c = active then none else some active) false
      | none =>
        if c = '\'' ∨ c = '"' then continued depth (some c) false
        else if c = '(' then continued (depth + 1) none false
        else if c = ')' then if depth = 1 then some ([], s) else continued (depth - 1) none false
        else continued depth none false

/-- The text between the parenthesis at the cursor and the one that matches it. -/
def findMatchingParenthesis : Str → Option (Str × Str)
  | '(' :: s => closeParenthesis 1 none false s
  | _ => none

/-- The text up to the bracket that ends an attribute selector. -/
def findAttributeEnd (quote : Option Char) (s : Str) : Option (Str × Str) :=
  match s with
  | [] => none
  | c :: s =>
    if c = '\\' then
      match _h : consumeEscape (c :: s) with
      | none => none
      | some (_, rest) =>
        (findAttributeEnd quote rest).map fun found =>
          ((c :: s).take ((c :: s).length - rest.length) ++ found.1, found.2)
    else
      let continued := fun quote => (findAttributeEnd quote s).map fun found => (c :: found.1, found.2)
      match quote with
      | some active => continued (if c = active then none else some active)
      | none => if c = '\'' ∨ c = '"' then continued (some c) else if c = ']' then some ([], s) else continued none
termination_by s.length
decreasing_by
  · exact length_consumeEscape _h
  · simp

/-- What is open at a position of the text. -/
structure Nesting where
  parentheses : Nat := 0
  brackets : Nat := 0
  braces : Nat := 0
  quote : Option Char := none
  escaped : Bool := false

def Nesting.next (nesting : Nesting) (c : Char) : Nesting :=
  if nesting.escaped then { nesting with escaped := false }
  else if c = '\\' then { nesting with escaped := true }
  else
    match nesting.quote with
    | some active => if c = active then { nesting with quote := none } else nesting
    | none =>
      if c = '\'' ∨ c = '"' then { nesting with quote := some c }
      else if c = '(' then { nesting with parentheses := nesting.parentheses + 1 }
      else if c = ')' then { nesting with parentheses := nesting.parentheses - 1 }
      else if c = '[' then { nesting with brackets := nesting.brackets + 1 }
      else if c = ']' then { nesting with brackets := nesting.brackets - 1 }
      else if c = '{' then { nesting with braces := nesting.braces + 1 }
      else if c = '}' then { nesting with braces := nesting.braces - 1 }
      else nesting

def Nesting.atDelimiter (nesting : Nesting) (delimiter c : Char) : Bool :=
  !nesting.escaped && nesting.quote.isNone && c == delimiter && nesting.parentheses == 0 &&
    nesting.brackets == 0 && nesting.braces == 0

/-- The parts between the delimiters; `part` is what the current one has so far. -/
def splitTopLevelFrom (delimiter : Char) (nesting : Nesting) (part : Str) : Str → List Str
  | [] => [part]
  | c :: s =>
    if nesting.atDelimiter delimiter c then part :: splitTopLevelFrom delimiter nesting [] s
    else splitTopLevelFrom delimiter (nesting.next c) (part ++ [c]) s

def splitCssTopLevel (s : Str) (delimiter : Char) : List Str := splitTopLevelFrom delimiter {} [] s

/-! ## Tokens of a complex selector -/

inductive Combinator
  | Descendant
  | Child
  | AdjacentSibling
  | GeneralSibling
deriving DecidableEq, Repr

inductive SelectorToken
  | Compound (text : Str)
  | Combinator (combinator : Combinator)
deriving DecidableEq, Repr

def trimStart (s : Str) : Str := s.dropWhile Str.isWhitespace

def trimEnd (s : Str) : Str := (s.reverse.dropWhile Str.isWhitespace).reverse

/-- Without the white space around, except for a trailing one that is escaped. -/
def trimSelector (s : Str) : Str :=
  let start := trimStart s
  let trimmed := trimEnd start
  let backslashes := (trimmed.reverse.takeWhile fun c => c == '\\').length
  match start.drop trimmed.length with
  | escaped :: _ => if backslashes % 2 = 1 then trimmed ++ [escaped] else trimmed
  | [] => trimmed

def appendCompound (tokens : List SelectorToken) (text : Str) : List SelectorToken :=
  if trimSelector text = [] then tokens else tokens ++ [.Compound (trimSelector text)]

/-- The tokens found so far and the text since the last of them. -/
structure Scan where
  tokens : List SelectorToken := []
  current : Str := []
  parentheses : Nat := 0
  brackets : Nat := 0
  quote : Option Char := none
  pendingSpace : Bool := false

namespace Scan

def endsInCombinator (tokens : List SelectorToken) : Bool :=
  match tokens.getLast? with
  | some (.Combinator _) => true
  | _ => false

/-- A white space before a compound is a combinator unless there is one. -/
def flushSpace (scan : Scan) : Scan :=
  { scan with
    tokens := if scan.pendingSpace && !endsInCombinator scan.tokens then scan.tokens ++ [.Combinator .Descendant]
      else scan.tokens
    pendingSpace := false }

def combinatorOf (c : Char) : Option Combinator :=
  if c = '>' then some .Child
  else if c = '+' then some .AdjacentSibling
  else if c = '~' then some .GeneralSibling
  else none

def isTop (scan : Scan) : Bool := scan.parentheses == 0 && scan.brackets == 0

/-- A character outside of strings that is no escape. -/
def nextUnquoted (scan : Scan) (c : Char) : Scan :=
  if c = '\'' ∨ c = '"' then { scan with quote := some c, current := scan.current ++ [c] }
  else if c = '(' then { scan with parentheses := scan.parentheses + 1, current := scan.current ++ [c] }
  else if c = ')' then { scan with parentheses := scan.parentheses - 1, current := scan.current ++ [c] }
  else if c = '[' then { scan with brackets := scan.brackets + 1, current := scan.current ++ [c] }
  else if c = ']' then { scan with brackets := scan.brackets - 1, current := scan.current ++ [c] }
  else
    match if scan.isTop then combinatorOf c else none with
    | some combinator =>
      { scan with
        tokens := appendCompound scan.tokens scan.current ++ [.Combinator combinator]
        current := []
        pendingSpace := false }
    | none =>
      if Str.isWhitespace c && scan.isTop then
        { scan with tokens := appendCompound scan.tokens scan.current, current := [], pendingSpace := true }
      else if scan.pendingSpace then { scan.flushSpace with current := scan.current ++ [c] }
      else { scan with current := scan.current ++ [c] }

def next (scan : Scan) (c : Char) : Scan :=
  match scan.quote with
  | some active =>
    { scan with quote := if c = active then none else some active, current := scan.current ++ [c] }
  | none => scan.nextUnquoted c

def run (scan : Scan) (s : Str) : Option Scan :=
  match s with
  | [] => some scan
  | c :: s =>
    if c = '\\' then
      match _h : consumeEscape (c :: s) with
      | none => none
      | some (_, rest) =>
        run { scan.flushSpace with current := scan.current ++ (c :: s).take ((c :: s).length - rest.length) } rest
    else run (scan.next c) s
termination_by s.length
decreasing_by
  · exact length_consumeEscape _h
  · simp

def finish (scan : Scan) : List SelectorToken :=
  if scan.quote.isSome || scan.parentheses != 0 || scan.brackets != 0 then []
  else appendCompound scan.tokens scan.current

end Scan

def selectorTokens (s : Str) : List SelectorToken := ((Scan.run {} s).map Scan.finish).getD []

example : selectorTokens "a > .b c".toList =
    [.Compound "a".toList, .Combinator .Child, .Compound ".b".toList, .Combinator .Descendant,
      .Compound "c".toList] := by decide +kernel

end BetterWebBrowser.Css
