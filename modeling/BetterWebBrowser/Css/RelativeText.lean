import BetterWebBrowser.Css.SelectorParser

/-!
# How relative selectors are scanned

The first two tokens of a relative selector decide its anchor and its first combinator. They
follow from what comes after the written or the implied `:scope`.
-/

namespace BetterWebBrowser.Css

open Framework

/-! ## Trimming -/

/-- Text that starts and ends in no white space stays when more text after it is trimmed. -/
theorem trimSelector_append {c d : Char} {text : Str} (hc : Str.isWhitespace c = false)
    (hd : Str.isWhitespace d = false) (htext : (c :: text).getLast? = some d) (s : Str) :
    ∃ rest, trimSelector (c :: text ++ s) = c :: text ++ rest := by
  have hstart : trimStart (c :: text ++ s) = c :: text ++ s := by
    rw [trimStart, List.cons_append, List.dropWhile_cons_of_neg (by simp [hc])]
  have hend : ∃ rest, trimEnd (c :: text ++ s) = c :: text ++ rest := by
    obtain ⟨before, hbefore⟩ := List.getLast?_eq_some_iff.mp htext
    rw [trimEnd, List.reverse_append, List.dropWhile_append]
    split
    · have hkeep : (c :: text).reverse.dropWhile Str.isWhitespace = (c :: text).reverse := by
        rw [hbefore, List.reverse_append, List.reverse_singleton, List.singleton_append,
          List.dropWhile_cons_of_neg (by simp [hd])]
      exact ⟨[], by rw [hkeep]; simp⟩
    · exact ⟨(s.reverse.dropWhile Str.isWhitespace).reverse, by simp⟩
  obtain ⟨rest, hrest⟩ := hend
  rw [trimSelector]
  rw [hstart, hrest]
  split
  · split
    · exact ⟨rest ++ [_], by simp; rfl⟩
    · exact ⟨rest, rfl⟩
  · exact ⟨rest, rfl⟩

theorem appendCompound_of_ne {c : Char} {text : Str} (hc : Str.isWhitespace c = false) (tokens : List SelectorToken) :
    ∃ trimmed, appendCompound tokens (c :: text) = tokens ++ [.Compound (c :: trimmed)] := by
  have hlast : [c].getLast? = some c := rfl
  obtain ⟨rest, hrest⟩ := trimSelector_append hc hc hlast text
  rw [List.singleton_append, List.singleton_append] at hrest
  exact ⟨rest, by rw [appendCompound, hrest, if_neg (by simp)]⟩

/-! ## One character -/

namespace Scan

variable {scan : Scan} {s : Str}

@[simp] theorem run_nil (scan : Scan) : run scan [] = some scan := by rw [run]

theorem run_cons {c : Char} (hc : c ≠ '\\') (scan : Scan) (s : Str) : run scan (c :: s) = run (scan.next c) s := by
  rw [run, if_neg hc]

/-- A character goes to the current compound, ends it, or separates two of them. -/
theorem next_cases (scan : Scan) (c : Char) :
    ((scan.next c).current = scan.current ++ [c] ∧ (scan.next c).tokens = scan.tokens ∧
        (scan.next c).pendingSpace = scan.pendingSpace) ∨
      ((scan.next c).current = scan.current ++ [c] ∧ (scan.next c).tokens = scan.flushSpace.tokens ∧
        (scan.next c).pendingSpace = false) ∨
      (∃ combinator, combinatorOf c = some combinator ∧ (scan.next c).current = [] ∧
        (scan.next c).tokens = appendCompound scan.tokens scan.current ++ [.Combinator combinator] ∧
        (scan.next c).pendingSpace = false) ∨
      (Str.isWhitespace c = true ∧ (scan.next c).current = [] ∧
        (scan.next c).tokens = appendCompound scan.tokens scan.current ∧ (scan.next c).pendingSpace = true) := by
  rw [next]
  split
  · exact Or.inl ⟨rfl, rfl, rfl⟩
  · rw [nextUnquoted]
    split
    · exact Or.inl ⟨rfl, rfl, rfl⟩
    · split
      · exact Or.inl ⟨rfl, rfl, rfl⟩
      · split
        · exact Or.inl ⟨rfl, rfl, rfl⟩
        · split
          · exact Or.inl ⟨rfl, rfl, rfl⟩
          · split
            · exact Or.inl ⟨rfl, rfl, rfl⟩
            · split
              · rename_i combinator hcombinator
                split at hcombinator
                · exact Or.inr (Or.inr (Or.inl ⟨combinator, hcombinator, rfl, rfl, rfl⟩))
                · cases hcombinator
              · split
                · rename_i hspace
                  rw [Bool.and_eq_true] at hspace
                  exact Or.inr (Or.inr (Or.inr ⟨hspace.1, rfl, rfl, rfl⟩))
                · split
                  · exact Or.inr (Or.inl ⟨rfl, rfl, rfl⟩)
                  · exact Or.inl ⟨rfl, rfl, rfl⟩

/-- What every character and every escape keeps holds to the end of the scan. -/
theorem run_preserves {P : Scan → Prop} (hnext : ∀ scan c, P scan → P (scan.next c))
    (hescape : ∀ scan text, P scan → P { scan.flushSpace with current := scan.current ++ '\\' :: text })
    (hstart : P scan) {final : Scan} (h : run scan s = some final) : P final := by
  induction scan, s using run.induct with
  | case1 scan =>
    rw [run_nil] at h
    cases h
    exact hstart
  | case2 scan s hnone =>
    rw [run, if_pos rfl] at h
    split at h
    · cases h
    · rename_i hsome
      rw [hnone] at hsome
      cases hsome
  | case3 scan s escaped rest hsome ih =>
    rw [run, if_pos rfl] at h
    split at h
    · cases h
    · rename_i hsome'
      rw [hsome] at hsome'
      cases hsome'
      have htake : ∃ text, ('\\' :: s).take (('\\' :: s).length - rest.length) = '\\' :: text := by
        have hlt := length_consumeEscape hsome
        obtain ⟨taken, htaken⟩ : ∃ taken, ('\\' :: s).length - rest.length = taken + 1 :=
          ⟨('\\' :: s).length - rest.length - 1, by omega⟩
        rw [htaken]
        exact ⟨s.take taken, rfl⟩
      obtain ⟨text, htext⟩ := htake
      rw [htext] at h ih
      exact ih (hescape scan text hstart) h
  | case4 scan c s hc ih =>
    rw [run_cons hc] at h
    exact ih (hnext scan c hstart) h

/-! ## The tokens in front -/

theorem appendCompound_keeps (tokens : List SelectorToken) (text : Str) : tokens <+: appendCompound tokens text := by
  rw [appendCompound]
  split
  · exact List.prefix_rfl
  · exact List.prefix_append _ _

theorem flushSpace_tokens (scan : Scan) :
    scan.flushSpace.tokens = scan.tokens ∨ scan.flushSpace.tokens = scan.tokens ++ [.Combinator .Descendant] := by
  rw [flushSpace]
  dsimp only
  split
  · exact Or.inr rfl
  · exact Or.inl rfl

theorem flushSpace_keeps (scan : Scan) : scan.tokens <+: scan.flushSpace.tokens := by
  rcases flushSpace_tokens scan with h | h
  · exact h.symm ▸ List.prefix_rfl
  · rw [h]
    exact List.prefix_append _ _

theorem next_keeps (scan : Scan) (c : Char) : scan.tokens <+: (scan.next c).tokens := by
  rcases next_cases scan c with ⟨-, htokens, -⟩ | ⟨-, htokens, -⟩ | ⟨_, -, -, htokens, -⟩ | ⟨-, -, htokens, -⟩
  · exact htokens.symm ▸ List.prefix_rfl
  · rw [htokens]
    exact flushSpace_keeps scan
  · rw [htokens]
    exact (appendCompound_keeps _ _).trans (List.prefix_append _ _)
  · rw [htokens]
    exact appendCompound_keeps _ _

/-- Found tokens stay. -/
theorem run_keeps {final : Scan} (h : run scan s = some final) : scan.tokens <+: final.tokens :=
  run_preserves (P := fun other => scan.tokens <+: other.tokens)
    (fun other c hother => hother.trans (next_keeps other c))
    (fun other _ hother => hother.trans (flushSpace_keeps other)) List.prefix_rfl h

theorem finish_keeps (h : scan.finish ≠ []) : scan.tokens <+: scan.finish := by
  rw [finish] at h ⊢
  split at h
  · exact absurd rfl h
  · rename_i hopen
    rw [if_neg hopen]
    exact appendCompound_keeps _ _

/-- A compound that a descendant combinator or another compound comes after. -/
def Descends (text : Str) (tokens : List SelectorToken) : Prop :=
  ∃ rest, tokens = .Compound text :: .Combinator .Descendant :: rest ∨
    ∃ other, tokens = .Compound text :: .Compound other :: rest

theorem Descends.keeps {text : Str} {tokens tokens' : List SelectorToken} (h : Descends text tokens)
    (hkeeps : tokens <+: tokens') : Descends text tokens' := by
  obtain ⟨added, rfl⟩ := hkeeps
  obtain ⟨rest, rfl | ⟨other, rfl⟩⟩ := h
  · exact ⟨rest ++ added, Or.inl rfl⟩
  · exact ⟨rest ++ added, Or.inr ⟨other, rfl⟩⟩

/-- The second compound has begun. -/
def Descending (text : Str) (scan : Scan) : Prop :=
  Descends text scan.tokens ∨
    scan.tokens = [.Compound text] ∧ ∃ c rest, scan.current = c :: rest ∧ Str.isWhitespace c = false

theorem Descending.appendCompound {text : Str} (h : Descending text scan) :
    Descends text (appendCompound scan.tokens scan.current) := by
  rcases h with h | ⟨htokens, c, rest, hcurrent, hc⟩
  · exact h.keeps (appendCompound_keeps _ _)
  · obtain ⟨trimmed, htrimmed⟩ : ∃ trimmed, Css.appendCompound scan.tokens (c :: rest) = _ :=
      appendCompound_of_ne hc scan.tokens
    rw [hcurrent, htrimmed, htokens]
    exact ⟨[], Or.inr ⟨c :: trimmed, rfl⟩⟩

/-- More text after the white space was seen to. -/
theorem Descending.extend {text : Str} (h : Descending text scan) {scan' : Scan} {added : Str}
    (htokens : scan'.tokens = scan.flushSpace.tokens) (hcurrent : scan'.current = scan.current ++ added) :
    Descending text scan' := by
  rcases h with h | ⟨hfirst, c, rest, hc, hspace⟩
  · exact Or.inl (by rw [htokens]; exact h.keeps (flushSpace_keeps scan))
  · rcases flushSpace_tokens scan with hflush | hflush
    · exact Or.inr ⟨by rw [htokens, hflush, hfirst], c, rest ++ added, by rw [hcurrent, hc]; rfl, hspace⟩
    · exact Or.inl ⟨[], Or.inl (by rw [htokens, hflush, hfirst]; rfl)⟩

theorem Descending.next {text : Str} (h : Descending text scan) (c : Char) : Descending text (scan.next c) := by
  rcases next_cases scan c with ⟨hcurrent, htokens, -⟩ | ⟨hcurrent, htokens, -⟩ | ⟨_, -, -, htokens, -⟩ | ⟨-, -, htokens, -⟩
  · rcases h with h | ⟨hfirst, d, rest, hd, hspace⟩
    · exact Or.inl (h.keeps (next_keeps scan c))
    · exact Or.inr ⟨htokens.trans hfirst, d, rest ++ [c], by rw [hcurrent, hd]; rfl, hspace⟩
  · exact h.extend htokens hcurrent
  · exact Or.inl (by rw [htokens]; exact h.appendCompound.keeps (List.prefix_append _ _))
  · exact Or.inl (by rw [htokens]; exact h.appendCompound)

theorem Descending.run {text : Str} (h : Descending text scan) {final : Scan} (hrun : run scan s = some final)
    (hne : final.finish ≠ []) : Descends text final.finish := by
  have hfinal : Descending text final :=
    run_preserves (fun _ c hother => hother.next c) (fun _ _ hother => hother.extend rfl rfl) h hrun
  rw [finish] at hne ⊢
  split at hne
  · exact absurd rfl hne
  · rename_i hopen
    rw [if_neg hopen]
    exact hfinal.appendCompound

/-- The first compound has begun with a text, or is ended. -/
def Begun (text : Str) (scan : Scan) : Prop :=
  (∃ rest, scan.tokens = [] ∧ scan.pendingSpace = false ∧ scan.current = text ++ rest) ∨
    ∃ rest later, scan.tokens = .Compound (text ++ rest) :: later

theorem Begun.keeps {text : Str} {scan' : Scan} (h : ∃ rest later, scan.tokens = .Compound (text ++ rest) :: later)
    (hkeeps : scan.tokens <+: scan'.tokens) : Begun text scan' := by
  obtain ⟨rest, later, htokens⟩ := h
  obtain ⟨added, hadded⟩ := hkeeps
  exact Or.inr ⟨rest, later ++ added, by rw [← hadded, htokens]; rfl⟩

section Text

variable {c d : Char} {text : Str}

theorem Begun.appendCompound (hc : Str.isWhitespace c = false) (hd : Str.isWhitespace d = false)
    (htext : (c :: text).getLast? = some d) (h : Begun (c :: text) scan) :
    ∃ rest later, appendCompound scan.tokens scan.current = .Compound (c :: text ++ rest) :: later := by
  rcases h with ⟨rest, htokens, -, hcurrent⟩ | ⟨rest, later, htokens⟩
  · obtain ⟨trimmed, htrimmed⟩ := trimSelector_append hc hd htext rest
    refine ⟨trimmed, [], ?_⟩
    rw [Css.appendCompound, hcurrent, htrimmed, htokens, if_neg (by simp)]
    rfl
  · obtain ⟨added, hadded⟩ := appendCompound_keeps scan.tokens scan.current
    exact ⟨rest, later ++ added, by rw [← hadded, htokens]; rfl⟩

theorem Begun.next (hc : Str.isWhitespace c = false) (hd : Str.isWhitespace d = false)
    (htext : (c :: text).getLast? = some d) (h : Begun (c :: text) scan) (e : Char) : Begun (c :: text) (scan.next e) := by
  rcases next_cases scan e with ⟨hcurrent, htokens, hpending⟩ | ⟨hcurrent, htokens, hpending⟩ | ⟨_, -, -, htokens, -⟩ |
    ⟨-, -, htokens, -⟩
  · rcases h with ⟨rest, hfirst, hspace, hrest⟩ | h
    · exact Or.inl ⟨rest ++ [e], htokens.trans hfirst, hpending.trans hspace, by rw [hcurrent, hrest]; simp⟩
    · exact Begun.keeps h (next_keeps scan e)
  · rcases h with ⟨rest, hfirst, hspace, hrest⟩ | h
    · have hflush : scan.flushSpace.tokens = [] := by
        rw [flushSpace, hspace, hfirst]
        rfl
      exact Or.inl ⟨rest ++ [e], htokens.trans hflush, hpending, by rw [hcurrent, hrest]; simp⟩
    · exact Begun.keeps h (next_keeps scan e)
  · obtain ⟨rest, later, happend⟩ := h.appendCompound hc hd htext
    exact Or.inr ⟨rest, later ++ [.Combinator _], by rw [htokens, happend]; rfl⟩
  · obtain ⟨rest, later, happend⟩ := h.appendCompound hc hd htext
    exact Or.inr ⟨rest, later, by rw [htokens, happend]⟩

theorem Begun.run (hc : Str.isWhitespace c = false) (hd : Str.isWhitespace d = false)
    (htext : (c :: text).getLast? = some d) (h : Begun (c :: text) scan) {final : Scan}
    (hrun : run scan s = some final) (hne : final.finish ≠ []) :
    ∃ rest later, final.finish = .Compound (c :: text ++ rest) :: later := by
  have hescape : ∀ (scan : Scan) (added : Str), Begun (c :: text) scan →
      Begun (c :: text) { scan.flushSpace with current := scan.current ++ '\\' :: added } := by
    intro scan added h
    rcases h with ⟨rest, hfirst, hspace, hrest⟩ | h
    · refine Or.inl ⟨rest ++ '\\' :: added, ?_, rfl, by rw [hrest]; simp⟩
      rw [flushSpace, hspace, hfirst]
      rfl
    · exact Begun.keeps h (flushSpace_keeps scan)
  have hfinal := run_preserves (fun _ e hother => hother.next hc hd htext e) hescape h hrun
  rw [finish] at hne ⊢
  split at hne
  · exact absurd rfl hne
  · rename_i hopen
    rw [if_neg hopen]
    exact hfinal.appendCompound hc hd htext

end Text

/-! ## After the anchor -/

def scopeText : Str := ":scope".toList

/-- Right after a written `:scope`. -/
def afterScope : Scan := { current := scopeText }

/-- After the anchor and white space. -/
def afterAnchor : Scan := { tokens := [.Compound scopeText], pendingSpace := true }

theorem run_scope (s : Str) : run {} (scopeText ++ s) = run afterScope s := by
  have htext : scopeText = [':', 's', 'c', 'o', 'p', 'e'] := by decide
  rw [htext]
  simp only [List.cons_append, List.nil_append]
  rw [run_cons (by decide), run_cons (by decide), run_cons (by decide), run_cons (by decide), run_cons (by decide),
    run_cons (by decide)]
  rfl

theorem next_space {c : Char} (hc : Str.isWhitespace c = true) (hquote : scan.quote = none)
    (htop : scan.isTop = true) :
    scan.next c =
      { scan with tokens := appendCompound scan.tokens scan.current, current := [], pendingSpace := true } := by
  have hne : ∀ d : Char, Str.isWhitespace d = false → c ≠ d := by
    rintro d hd rfl
    rw [hc] at hd
    cases hd
  have hcombinator : combinatorOf c = none := by
    rw [combinatorOf, if_neg (hne _ (by decide)), if_neg (hne _ (by decide)), if_neg (hne _ (by decide))]
  obtain ⟨tokens, current, parentheses, brackets, quote, pendingSpace⟩ := scan
  obtain rfl : quote = none := hquote
  rw [next]
  dsimp only
  rw [nextUnquoted, if_neg (not_or.mpr ⟨hne _ (by decide), hne _ (by decide)⟩), if_neg (hne _ (by decide)),
    if_neg (hne _ (by decide)), if_neg (hne _ (by decide)), if_neg (hne _ (by decide)), htop, hcombinator, hc]
  rfl

theorem run_spaces {spaces : Str} (h : ∀ c ∈ spaces, Str.isWhitespace c = true) (s : Str) :
    run afterAnchor (spaces ++ s) = run afterAnchor s := by
  induction spaces with
  | nil => rfl
  | cons c spaces ih =>
    have hc := h c (by simp)
    have hslash : c ≠ '\\' := by
      rintro rfl
      exact absurd hc (by decide)
    rw [List.cons_append, run_cons hslash, next_space hc rfl rfl]
    exact ih fun d hd => h d (by simp [hd])

theorem run_scope_space {c : Char} (hc : Str.isWhitespace c = true) (s : Str) :
    run afterScope (c :: s) = run afterAnchor s := by
  have hslash : c ≠ '\\' := by
    rintro rfl
    exact absurd hc (by decide)
  rw [run_cons hslash, next_space hc rfl rfl]
  rfl

theorem combinatorOf_eq {c : Char} {combinator : Combinator} (h : combinatorOf c = some combinator) :
    (c = '>' ∧ combinator = .Child) ∨ (c = '+' ∧ combinator = .AdjacentSibling) ∨
      (c = '~' ∧ combinator = .GeneralSibling) := by
  rw [combinatorOf] at h
  grind

section Anchored

variable {c : Char} {final : Scan}

/-- A combinator after the anchor is the first one. -/
theorem anchor_combinator {combinator : Combinator} (hc : combinatorOf c = some combinator)
    (h : run afterAnchor (c :: s) = some final) (hne : final.finish ≠ []) :
    [.Compound scopeText, .Combinator combinator] <+: final.finish := by
  have hslash : c ≠ '\\' := by
    rintro rfl
    cases hc
  rw [run_cons hslash] at h
  have htokens : (afterAnchor.next c).tokens = [.Compound scopeText, .Combinator combinator] := by
    rcases combinatorOf_eq hc with ⟨rfl, rfl⟩ | ⟨rfl, rfl⟩ | ⟨rfl, rfl⟩ <;> rfl
  rw [← htokens]
  exact (run_keeps h).trans (finish_keeps hne)

/-- So is one right after a written `:scope`. -/
theorem scope_combinator {combinator : Combinator} (hc : combinatorOf c = some combinator)
    (h : run afterScope (c :: s) = some final) (hne : final.finish ≠ []) :
    [.Compound scopeText, .Combinator combinator] <+: final.finish := by
  have hslash : c ≠ '\\' := by
    rintro rfl
    cases hc
  rw [run_cons hslash] at h
  have htokens : (afterScope.next c).tokens = [.Compound scopeText, .Combinator combinator] := by
    rcases combinatorOf_eq hc with ⟨rfl, rfl⟩ | ⟨rfl, rfl⟩ | ⟨rfl, rfl⟩ <;> decide +kernel
  rw [← htokens]
  exact (run_keeps h).trans (finish_keeps hne)

/-- Anything else begins the next compound. -/
theorem anchor_descends (hspace : Str.isWhitespace c = false) (hc : combinatorOf c = none)
    (h : run afterAnchor (c :: s) = some final) (hne : final.finish ≠ []) : Descends scopeText final.finish := by
  have hflush : Descends scopeText afterAnchor.flushSpace.tokens := ⟨[], Or.inl rfl⟩
  by_cases hslash : c = '\\'
  · subst hslash
    rw [run, if_pos rfl] at h
    split at h
    · cases h
    · apply Descending.run _ h hne
      exact Or.inl hflush
  · rw [run_cons hslash] at h
    apply Descending.run _ h hne
    rcases next_cases afterAnchor c with ⟨hcurrent, htokens, -⟩ | ⟨-, htokens, -⟩ | ⟨_, hsome, -, -, -⟩ | ⟨htrue, -, -, -⟩
    · exact Or.inr ⟨htokens, c, [], hcurrent, hspace⟩
    · exact Or.inl (by rw [htokens]; exact hflush)
    · rw [hc] at hsome
      cases hsome
    · rw [hspace] at htrue
      cases htrue

/-- Another simple selector right after `:scope` belongs to the same compound. -/
theorem scope_begun (hc : c ∈ [':', '.', '#', '[']) (h : run afterScope (c :: s) = some final)
    (hne : final.finish ≠ []) : ∃ rest later, final.finish = .Compound (scopeText ++ c :: rest) :: later := by
  have hspace : Str.isWhitespace c = false ∧ c ≠ '\\' ∧ (afterScope.next c).tokens = [] ∧
      (afterScope.next c).pendingSpace = false ∧ (afterScope.next c).current = scopeText ++ [c] := by
    simp only [List.mem_cons, List.not_mem_nil, or_false] at hc
    rcases hc with rfl | rfl | rfl | rfl <;> decide +kernel
  obtain ⟨hspace, hslash, htokens, hpending, hcurrent⟩ := hspace
  rw [run_cons hslash] at h
  have hbegun : Begun (':' :: ("scope".toList ++ [c])) (afterScope.next c) :=
    Or.inl ⟨[], htokens, hpending, by rw [hcurrent]; simp [scopeText]⟩
  have hlast : (':' :: ("scope".toList ++ [c])).getLast? = some c := by simp
  obtain ⟨rest, later, hfinish⟩ := hbegun.run (by decide) hspace hlast h hne
  exact ⟨rest, later, by rw [hfinish]; simp [scopeText]⟩

end Anchored

end Scan

end BetterWebBrowser.Css
