import BetterWebBrowser.Css.SelectorParser

/-!
# Compounds written one after the other

A simple selector reads no further than the start of the next one, so that the simple selectors
of two compounds in a row are those of the first and those of the second.
-/

namespace BetterWebBrowser.Css

open Framework

/-- The text starts as an id, a class, an attribute selector or a pseudo-class does. -/
def StartsSimple (t : Str) : Prop := ∃ c ∈ ['#', '.', '[', ':'], ∃ rest, t = c :: rest

variable {s t : Str}

theorem StartsSimple.stops (h : StartsSimple t) :
    ∃ c rest, t = c :: rest ∧ isNameCharacter c = false ∧ c ≠ '\\' ∧ hexDigit c = none ∧ Str.isWhitespace c = false ∧
      c ≠ '(' ∧ c ≠ '*' ∧ c ≠ '-' ∧ c ≠ '\n' := by
  obtain ⟨c, hc, rest, rfl⟩ := h
  simp only [List.mem_cons, List.not_mem_nil, or_false] at hc
  refine ⟨c, rest, rfl, ?_⟩
  rcases hc with rfl | rfl | rfl | rfl <;> decide

theorem hexDigits_append (h : StartsSimple t) (count codePoint : Nat) (s : Str) :
    hexDigits count codePoint (s ++ t) = ((hexDigits count codePoint s).1, (hexDigits count codePoint s).2 ++ t) := by
  induction count generalizing codePoint s with
  | zero => simp [hexDigits]
  | succ count ih =>
    cases s with
    | nil =>
      obtain ⟨c, rest, rfl, -, -, hhex, -⟩ := h.stops
      simp [hexDigits, hhex]
    | cons c s =>
      rw [List.cons_append, hexDigits, hexDigits]
      cases hexDigit c with
      | none => rfl
      | some digit => exact ih _ s

theorem skipOneWhitespace_cons {c : Char} (h : ¬ (c = '\r' ∧ s.head? = some '\n')) :
    skipOneWhitespace (c :: s) = if Str.isWhitespace c then s else c :: s := by
  rw [skipOneWhitespace.eq_def]
  split
  · rename_i heq
    cases heq
    exact absurd ⟨rfl, rfl⟩ h
  · rename_i heq
    cases heq
    rfl
  · rename_i heq
    cases heq

theorem skipOneWhitespace_append (h : StartsSimple t) (s : Str) :
    skipOneWhitespace (s ++ t) = skipOneWhitespace s ++ t := by
  obtain ⟨d, rest, rfl, -, -, -, hspace, -, -, -, hfeed⟩ := h.stops
  cases s with
  | nil =>
    rw [List.nil_append, skipOneWhitespace_cons, hspace]
    · rfl
    · rintro ⟨rfl, -⟩
      exact absurd hspace (by decide)
  | cons c s =>
    by_cases hreturn : c = '\r' ∧ s.head? = some '\n'
    · obtain ⟨rfl, hhead⟩ := hreturn
      obtain ⟨later, rfl⟩ := List.head?_eq_some_iff.mp hhead
      rfl
    · have hmore : ¬ (c = '\r' ∧ (s ++ d :: rest).head? = some '\n') := by
        rintro ⟨hc, hhead⟩
        cases s with
        | nil => exact hfeed (Option.some.inj hhead)
        | cons e s => exact hreturn ⟨hc, hhead⟩
      rw [List.cons_append, skipOneWhitespace_cons hmore, skipOneWhitespace_cons hreturn]
      split <;> rfl

theorem consumeEscape_append (h : StartsSimple t) {c : Char} {rest : Str} (hs : consumeEscape s = some (c, rest)) :
    consumeEscape (s ++ t) = some (c, rest ++ t) := by
  rw [consumeEscape.eq_def] at hs
  split at hs
  · rename_i first s
    rw [List.cons_append, List.cons_append, consumeEscape]
    split at hs
    · cases hs
    · rename_i hline
      rw [if_neg hline]
      split at hs
      · rename_i hhex
        cases hs
        rw [if_pos hhex]
      · rename_i hhex
        have hdigits := hexDigits_append h 6 0 (first :: s)
        rw [List.cons_append] at hdigits
        generalize hexDigits 6 0 (first :: s) = digits at hs hdigits
        cases hs
        rw [if_neg hhex, hdigits]
        dsimp only
        rw [skipOneWhitespace_append h]
  · cases hs

theorem nameCharacters_append (h : StartsSimple t) {found : Str × Str} (hs : nameCharacters s = some found) :
    nameCharacters (s ++ t) = some (found.1, found.2 ++ t) := by
  induction s using nameCharacters.induct generalizing found with
  | case1 =>
    rw [nameCharacters] at hs
    cases hs
    obtain ⟨c, rest, rfl, hname, hslash, -⟩ := h.stops
    rw [List.nil_append, nameCharacters, if_neg hslash, if_neg (by simp [hname])]
  | case2 s hescape =>
    rw [nameCharacters, if_pos rfl] at hs
    split at hs
    · cases hs
    · rename_i hsome
      rw [hescape] at hsome
      cases hsome
  | case3 s escaped rest hescape ih =>
    rw [nameCharacters, if_pos rfl] at hs
    split at hs
    · cases hs
    · rename_i hsome
      rw [hescape] at hsome
      cases hsome
      obtain ⟨inner, hinner, rfl⟩ := Option.map_eq_some_iff.mp hs
      have hmore := consumeEscape_append h hescape
      rw [List.cons_append] at hmore ⊢
      rw [nameCharacters, if_pos rfl]
      split
      · rename_i hnone
        rw [hmore] at hnone
        cases hnone
      · rename_i hsome
        rw [hmore] at hsome
        cases hsome
        rw [ih hinner]
        rfl
  | case4 c s hc hname ih =>
    rw [nameCharacters, if_neg hc, if_pos hname] at hs
    obtain ⟨inner, hinner, rfl⟩ := Option.map_eq_some_iff.mp hs
    rw [List.cons_append, nameCharacters, if_neg hc, if_pos hname, ih hinner]
    rfl
  | case5 c s hc hname =>
    rw [nameCharacters, if_neg hc, if_neg hname] at hs
    cases hs
    rw [List.cons_append, nameCharacters, if_neg hc, if_neg hname]

theorem parseIdentifier_append (h : StartsSimple t) {found : Str × Str} (hs : parseIdentifier s = some found) :
    parseIdentifier (s ++ t) = some (found.1, found.2 ++ t) := by
  rw [parseIdentifier.eq_def] at hs ⊢
  obtain ⟨hs, hne⟩ := Option.filter_eq_some_iff.mp hs
  apply Option.filter_eq_some_iff.mpr
  refine ⟨?_, hne⟩
  cases s with
  | nil => cases hs
  | cons first s =>
    rw [List.cons_append]
    dsimp only at hs ⊢
    split at hs
    · rename_i hdash
      rw [if_pos hdash]
      cases s with
      | nil => cases hs
      | cons following s =>
        rw [List.cons_append]
        dsimp only at hs ⊢
        split at hs
        · rename_i hsecond
          obtain ⟨inner, hinner, rfl⟩ := Option.map_eq_some_iff.mp hs
          rw [if_pos hsecond, nameCharacters_append h hinner]
          rfl
        · rename_i hsecond
          split at hs
          · cases hs
          · rename_i hstart
            obtain ⟨inner, hinner, rfl⟩ := Option.map_eq_some_iff.mp hs
            rw [if_neg hsecond, if_neg hstart, ← List.cons_append, nameCharacters_append h hinner]
            rfl
    · rename_i hdash
      rw [if_neg hdash]
      split at hs
      · cases hs
      · rename_i hstart
        rw [if_neg hstart, ← List.cons_append, nameCharacters_append h hs]

theorem closeParenthesis_append {depth : Nat} {quote : Option Char} {escaped : Bool} {found : Str × Str}
    (h : closeParenthesis depth quote escaped s = some found) (t : Str) :
    closeParenthesis depth quote escaped (s ++ t) = some (found.1, found.2 ++ t) := by
  induction s generalizing depth quote escaped found with
  | nil => cases h
  | cons c s ih =>
    have hcontinued : ∀ {depth quote escaped},
        (closeParenthesis depth quote escaped s).map (fun found => (c :: found.1, found.2)) = some found →
          (closeParenthesis depth quote escaped (s ++ t)).map (fun found => (c :: found.1, found.2)) =
            some (found.1, found.2 ++ t) := by
      intro depth quote escaped h
      obtain ⟨inner, hinner, rfl⟩ := Option.map_eq_some_iff.mp h
      rw [ih hinner]
      rfl
    rw [List.cons_append]
    rw [closeParenthesis.eq_def] at h ⊢
    dsimp only at h ⊢
    cases quote with
    | some active =>
      dsimp only at h ⊢
      split_ifs at h ⊢ <;> exact hcontinued h
    | none =>
      dsimp only at h ⊢
      split_ifs at h ⊢
      · exact hcontinued h
      · exact hcontinued h
      · exact hcontinued h
      · exact hcontinued h
      · cases h
        rfl
      · exact hcontinued h
      · exact hcontinued h

theorem findAttributeEnd_append (h : StartsSimple t) {quote : Option Char} {found : Str × Str}
    (hs : findAttributeEnd quote s = some found) :
    findAttributeEnd quote (s ++ t) = some (found.1, found.2 ++ t) := by
  generalize hn : s.length = n
  induction n using Nat.strongRecOn generalizing quote s found with
  | ind n ih =>
    cases s with
    | nil =>
      rw [findAttributeEnd] at hs
      cases hs
    | cons c s =>
      rw [List.length_cons] at hn
      have hcontinued : ∀ {quote}, (findAttributeEnd quote s).map (fun found => (c :: found.1, found.2)) = some found →
          (findAttributeEnd quote (s ++ t)).map (fun found => (c :: found.1, found.2)) = some (found.1, found.2 ++ t) := by
        intro quote hs
        obtain ⟨inner, hinner, rfl⟩ := Option.map_eq_some_iff.mp hs
        rw [ih s.length (by omega) hinner rfl]
        rfl
      rw [findAttributeEnd] at hs
      rw [List.cons_append, findAttributeEnd]
      split at hs
      · rename_i hslash
        rw [if_pos hslash]
        split at hs
        · cases hs
        · rename_i escaped rest hescape
          obtain ⟨inner, hinner, rfl⟩ := Option.map_eq_some_iff.mp hs
          have hlt := length_consumeEscape hescape
          rw [List.length_cons] at hlt
          have hmore := consumeEscape_append h hescape
          rw [List.cons_append] at hmore
          split
          · rename_i hnone
            rw [hmore] at hnone
            cases hnone
          · rename_i hsome
            rw [hmore] at hsome
            cases hsome
            have htaken : (c :: (s ++ t)).length - (rest ++ t).length = (c :: s).length - rest.length := by
              simp only [List.length_cons, List.length_append]
              omega
            rw [ih rest.length (by omega) hinner rfl, htaken, ← List.cons_append,
              List.take_append_of_le_length (Nat.sub_le _ _)]
            rfl
      · rename_i hslash
        rw [if_neg hslash]
        dsimp only at hs ⊢
        cases quote with
        | some active => exact hcontinued hs
        | none =>
          dsimp only at hs ⊢
          split_ifs at hs ⊢
          · exact hcontinued hs
          · cases hs
            rfl
          · exact hcontinued hs

/-! ## Simple selectors -/

section Simple

variable {parser : CssParser} {nested : ParseContext → Str → Option Selector} {context : ParseContext}

theorem readPseudoClass_append (h : StartsSimple t) {found : SimpleSelector × Str}
    (hs : readPseudoClass parser nested context s = some found) :
    readPseudoClass parser nested context (s ++ t) = some (found.1, found.2 ++ t) := by
  rw [readPseudoClass] at hs ⊢
  split at hs
  · cases hs
  · rename_i hcolon
    obtain ⟨⟨name, rest⟩, hname, hs⟩ := Option.bind_eq_some_iff.mp hs
    have hhead : (s ++ t).head? ≠ some ':' := by
      cases s with
      | nil =>
        have hnone : parseIdentifier [] = none := rfl
        rw [hnone] at hname
        cases hname
      | cons c s => exact hcolon
    rw [if_neg hhead, parseIdentifier_append h hname]
    dsimp only [Option.bind_eq_bind, Option.bind_some] at hs ⊢
    cases rest with
    | nil =>
      obtain ⟨c, later, rfl, -, -, -, -, hopen, -⟩ := h.stops
      rw [if_neg (by simp)] at hs
      rw [List.nil_append, if_neg (by simpa using hopen)]
      obtain ⟨simple, hsimple, hs⟩ := Option.bind_eq_some_iff.mp hs
      cases hs
      rw [hsimple]
      rfl
    | cons c rest =>
      rw [List.cons_append, List.head?_cons] at *
      split at hs
      · rename_i hopen
        rw [if_pos hopen]
        obtain ⟨⟨argument, after⟩, hargument, hs⟩ := Option.bind_eq_some_iff.mp hs
        obtain ⟨simple, hsimple, hs⟩ := Option.bind_eq_some_iff.mp hs
        cases hs
        cases hopen
        have hmore : findMatchingParenthesis ('(' :: (rest ++ t)) = some (argument, after ++ t) :=
          closeParenthesis_append hargument t
        rw [hmore]
        dsimp only [Option.bind_some]
        rw [hsimple]
        rfl
      · rename_i hopen
        rw [if_neg hopen]
        obtain ⟨simple, hsimple, hs⟩ := Option.bind_eq_some_iff.mp hs
        cases hs
        rw [hsimple]
        rfl

theorem readSimple_append (h : StartsSimple t) {found : SimpleSelector × Str}
    (hs : readSimple parser nested context s = some found) :
    readSimple parser nested context (s ++ t) = some (found.1, found.2 ++ t) := by
  cases s with
  | nil => cases hs
  | cons c s =>
    rw [List.cons_append]
    rw [readSimple] at hs ⊢
    split at hs
    · rename_i hnesting
      cases hs
      rw [if_pos hnesting]
    · rename_i hnesting
      rw [if_neg hnesting]
      split at hs
      · rename_i hid
        obtain ⟨inner, hinner, rfl⟩ := Option.map_eq_some_iff.mp hs
        rw [if_pos hid, parseIdentifier_append h hinner]
        rfl
      · rename_i hid
        rw [if_neg hid]
        split at hs
        · rename_i hclass
          obtain ⟨inner, hinner, rfl⟩ := Option.map_eq_some_iff.mp hs
          rw [if_pos hclass, parseIdentifier_append h hinner]
          rfl
        · rename_i hclass
          rw [if_neg hclass]
          split at hs
          · rename_i hpseudo
            rw [if_pos hpseudo]
            exact readPseudoClass_append h hs
          · rename_i hpseudo
            rw [if_neg hpseudo]
            split at hs
            · rename_i hbracket
              rw [if_pos hbracket]
              obtain ⟨⟨text, rest⟩, hfind, hs⟩ := Option.bind_eq_some_iff.mp hs
              obtain ⟨selector, hselector, hs⟩ := Option.bind_eq_some_iff.mp hs
              cases hs
              rw [findAttributeEnd_append h hfind]
              dsimp only [Option.bind_eq_bind, Option.bind_some]
              rw [hselector]
              rfl
            · cases hs

theorem readSimples_nil : readSimples parser nested context [] = some [] := by
  rw [readSimples.eq_def]
  rfl

theorem readSimples_cons {simple : SimpleSelector} {rest : Str}
    (h : readSimple parser nested context s = some (simple, rest)) :
    readSimples parser nested context s = (readSimples parser nested context rest).map fun simples => simple :: simples := by
  have hne : s.isEmpty = false := by
    cases s with
    | nil => cases h
    | cons c s => rfl
  rw [readSimples.eq_def, hne, if_neg (by simp)]
  split
  · rename_i hnone
    rw [h] at hnone
    cases hnone
  · rename_i hsome
    rw [h] at hsome
    cases hsome
    rfl

/-- The first simple selector that is read from a text, and the rest of them. -/
theorem exists_of_readSimples {simples : List SimpleSelector} (h : readSimples parser nested context s = some simples)
    (hne : s ≠ []) :
    ∃ simple rest later, readSimple parser nested context s = some (simple, rest) ∧
      readSimples parser nested context rest = some later ∧ simples = simple :: later := by
  cases hread : readSimple parser nested context s with
  | none =>
    have hempty : s.isEmpty = false := by simpa using hne
    rw [readSimples.eq_def, hempty, if_neg (by simp)] at h
    split at h
    · cases h
    · rename_i hsome
      rw [hread] at hsome
      cases hsome
  | some found =>
    obtain ⟨simple, rest⟩ := found
    rw [readSimples_cons hread] at h
    obtain ⟨later, hlater, rfl⟩ := Option.map_eq_some_iff.mp h
    exact ⟨simple, rest, later, rfl, hlater, rfl⟩

theorem readSimples_append (h : StartsSimple t) {simples later : List SimpleSelector}
    (hs : readSimples parser nested context s = some simples) (ht : readSimples parser nested context t = some later) :
    readSimples parser nested context (s ++ t) = some (simples ++ later) := by
  generalize hn : s.length = n
  induction n using Nat.strongRecOn generalizing s simples with
  | ind n ih =>
    by_cases hne : s = []
    · subst hne
      rw [readSimples_nil] at hs
      cases hs
      exact ht
    · obtain ⟨simple, rest, others, hread, hrest, rfl⟩ := exists_of_readSimples hs hne
      have hlt := length_readSimple parser nested context hread
      rw [hn] at hlt
      rw [readSimples_cons (readSimple_append h hread), ih rest.length hlt hrest rfl]
      rfl

/-- No type selector is in front of what starts as another simple selector. -/
theorem readType_of_starts (h : StartsSimple t) : readType t = ([], t) := by
  obtain ⟨c, rest, rfl, hname, hslash, -, -, -, hstar, hdash, -⟩ := h.stops
  have hstart : isNameStart c = false := by
    simp only [isNameCharacter, Bool.or_eq_false_iff] at hname
    exact hname.1.1
  have hnone : parseIdentifier (c :: rest) = none := by
    rw [parseIdentifier.eq_def]
    dsimp only
    rw [if_neg hdash, if_pos (by simp [hstart, hslash])]
    rfl
  rw [readType.eq_def]
  dsimp only
  rw [if_neg hstar, hnone]

/-- What a compound without a type selector starts with. -/
theorem head_of_readSimple {c : Char} {found : SimpleSelector × Str}
    (h : readSimple parser nested context (c :: s) = some found) :
    c = '&' ∨ c = '#' ∨ c = '.' ∨ c = ':' ∨ c = '[' := by
  rw [readSimple] at h
  split_ifs at h <;> simp_all

theorem readType_append (h : StartsSimple t) {simples : List SimpleSelector}
    (hs : readSimples parser nested context (readType s).2 = some simples) :
    readType (s ++ t) = ((readType s).1, (readType s).2 ++ t) := by
  cases s with
  | nil => exact readType_of_starts h
  | cons c s =>
    rw [readType.eq_def] at hs
    rw [List.cons_append, readType.eq_def, readType.eq_def]
    dsimp only at hs ⊢
    split at hs
    · rename_i hstar
      rw [if_pos hstar, if_pos hstar]
    · rename_i hstar
      rw [if_neg hstar, if_neg hstar]
      cases hname : parseIdentifier (c :: s) with
      | some found =>
        have hmore := parseIdentifier_append h hname
        rw [List.cons_append] at hmore
        rw [hmore]
      | none =>
        rw [hname] at hs
        obtain ⟨simple, rest, -, hread, -⟩ := exists_of_readSimples hs (List.cons_ne_nil c s)
        have hnone : parseIdentifier (c :: (s ++ t)) = none := by
          rcases head_of_readSimple hread with rfl | rfl | rfl | rfl | rfl <;> rfl
        rw [hnone]
        rfl

/-- The simple selectors of two compounds in a row. -/
theorem simpleSelectors_append (h : StartsSimple t) {simples later : List SimpleSelector}
    (hs : simpleSelectors parser nested context s = some simples)
    (ht : simpleSelectors parser nested context t = some later) :
    simpleSelectors parser nested context (s ++ t) = some (simples ++ later) := by
  obtain ⟨read, hread, rfl⟩ := Option.map_eq_some_iff.mp hs
  obtain ⟨others, hothers, rfl⟩ := Option.map_eq_some_iff.mp ht
  rw [readType_of_starts h] at hothers ⊢
  rw [simpleSelectors, readType_append h hread, readSimples_append h hread hothers]
  simp

end Simple

end BetterWebBrowser.Css
