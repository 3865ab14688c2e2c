import Mathlib.Data.List.Basic

/-!
# Cursors

A cursor asks for one entry after another: each request names the position of the entry that
the last one returned.
-/

namespace BetterWebBrowser.Framework.Cursor

variable {Error Entry Answer Position : Type}

section Requests

variable (position : Answer → Position)

/-- Request answers until there is none; `fuel` bounds the number of requests. -/
def visit (request : Option Position → Except Error (Option Answer)) :
    Nat → Option Position → Except Error (Option (List Answer))
  | 0, _ => .ok none
  | fuel + 1, after => do
    match ← request after with
    | none => pure (some [])
    | some answer =>
      let rest ← visit request fuel (some (position answer))
      pure (rest.map (answer :: ·))

/-- The answer to the last one of `count + 1` requests. -/
def advance (request : Option Position → Except Error (Option Answer)) :
    Nat → Option Position → Except Error (Option Answer)
  | 0, after => request after
  | count + 1, after => do
    match ← request after with
    | none => pure none
    | some answer => advance request count (some (position answer))


/-- A cursor visits the selected entries in order, each once, and may skip some of them. -/
structure Complete (answerOf : Entry → Answer) (before : Entry → Entry → Prop)
    (selected : Entry → Prop) (request : Option Position → Nat → Except Error (Option Answer)) : Prop where
  visits : ∃ visited : List Entry, visited.Pairwise before ∧ (∀ entry, entry ∈ visited ↔ selected entry) ∧
    ∀ fuel, visited.length < fuel →
      visit position (fun after => request after 0) fuel none = .ok (some (visited.map answerOf))
  skips : ∀ after skip, request after skip = advance position (fun after => request after 0) skip after

end Requests

/-- Entries in an order that positions cut into what is behind and what is ahead. -/
structure Ordered (position : Entry → Position) (isAhead : Position → Entry → Bool)
    (entries : List Entry) : Prop where
  ahead : entries.Pairwise fun entry next => isAhead (position entry) next = true
  behind : entries.Pairwise fun entry next => isAhead (position next) entry = false
  here : ∀ entry ∈ entries, isAhead (position entry) entry = false
  onward : ∀ after, entries.Pairwise fun entry next => isAhead after entry = true → isAhead after next = true

/-- The entries that a request has to choose from. -/
def rest (isAhead : Position → Entry → Bool) (entries : List Entry) (after : Option Position) :
    List Entry :=
  entries.filter fun entry => after.all fun after => isAhead after entry

section Ordered

variable {position : Entry → Position} {isAhead : Position → Entry → Bool} {entries : List Entry}

theorem rest_none : rest isAhead entries none = entries := by
  rw [rest]
  exact List.filter_eq_self.mpr fun _ _ => rfl

/-- After the first entry of what is left, the others are left. -/
theorem Ordered.rest_tail (h : Ordered position isAhead entries) {after : Option Position}
    {entry : Entry} {tail : List Entry} (hrest : rest isAhead entries after = entry :: tail) :
    rest isAhead entries (some (position entry)) = tail := by
  have honward : entries.Pairwise fun entry next =>
      (after.all fun after => isAhead after entry) = true → (after.all fun after => isAhead after next) = true := by
    cases after with
    | none => exact List.pairwise_of_forall fun _ _ _ => rfl
    | some after => exact h.onward after
  obtain ⟨front, back, rfl, hfront, hentry, rfl⟩ := List.filter_eq_cons_iff.mp hrest
  have hback : back.filter (fun entry => after.all fun after => isAhead after entry) = back := by
    have hpairs := (List.pairwise_append.mp honward).2.1
    exact List.filter_eq_self.mpr fun next hnext => (List.pairwise_cons.mp hpairs).1 next hnext hentry
  rw [hback, rest, List.filter_append, List.filter_cons]
  have hbehind : front.filter (fun other => (some (position entry)).all fun after => isAhead after other) = [] := by
    apply List.filter_eq_nil_iff.mpr
    intro other hother
    have hpairs := (List.pairwise_append.mp h.behind).2.2 other hother entry List.mem_cons_self
    simp [hpairs]
  have hahead : back.filter (fun other => (some (position entry)).all fun after => isAhead after other) = back := by
    have hpairs := (List.pairwise_append.mp h.ahead).2.1
    exact List.filter_eq_self.mpr fun next hnext => (List.pairwise_cons.mp hpairs).1 next hnext
  rw [hbehind, hahead]
  simp [h.here entry (by simp)]

variable {answerOf : Entry → Answer} {place : Answer → Position}
  {check : Option Position → Except Error Unit}

/-- Answers with one of the entries left, if the position passes a check. -/
def answers (check : Option Position → Except Error Unit) (answerOf : Entry → Answer)
    (isAhead : Position → Entry → Bool) (entries : List Entry) (after : Option Position) (skip : Nat) :
    Except Error (Option Answer) := do
  check after
  pure ((rest isAhead entries after)[skip]?.map answerOf)

theorem answers_ok {after : Option Position} (hcheck : check after = .ok ()) (skip : Nat) :
    answers check answerOf isAhead entries after skip =
      .ok ((rest isAhead entries after)[skip]?.map answerOf) := by
  rw [answers, hcheck]
  rfl

theorem mem_of_rest_cons {after : Option Position} {entry : Entry} {tail : List Entry}
    (hrest : rest isAhead entries after = entry :: tail) : entry ∈ entries := by
  apply List.mem_of_mem_filter (p := fun entry => after.all fun after => isAhead after entry)
  rw [rest] at hrest
  rw [hrest]
  exact List.mem_cons_self

variable (h : Ordered position isAhead entries)
  (hplace : ∀ entry ∈ entries, place (answerOf entry) = position entry)
  (hcheck : ∀ entry ∈ entries, check (some (position entry)) = .ok ())

include h hplace hcheck

/-- A visit finds all entries that are left. -/
theorem Ordered.visit_rest {left : List Entry} {after : Option Position} (hafter : check after = .ok ())
    (hrest : rest isAhead entries after = left) {fuel : Nat} (hfuel : left.length < fuel) :
    visit place (fun after => answers check answerOf isAhead entries after 0) fuel after =
      .ok (some (left.map answerOf)) := by
  induction left generalizing after fuel with
  | nil =>
    cases fuel with
    | zero => exact absurd hfuel (Nat.not_lt_zero _)
    | succ fuel =>
      rw [visit, answers_ok hafter, hrest]
      rfl
  | cons entry left ih =>
    cases fuel with
    | zero => exact absurd hfuel (Nat.not_lt_zero _)
    | succ fuel =>
      have hmem := mem_of_rest_cons hrest
      have hvisit := ih (hcheck entry hmem) (h.rest_tail hrest) (Nat.lt_of_succ_lt_succ hfuel)
      rw [visit, answers_ok hafter, hrest]
      change (visit place _ fuel (some (place (answerOf entry))) >>= _) = _
      rw [hplace entry hmem, hvisit]
      rfl

/-- Skipping entries is requesting them one after another. -/
theorem Ordered.advance_skip (after : Option Position) (skip : Nat) :
    advance place (fun after => answers check answerOf isAhead entries after 0) skip after =
      answers check answerOf isAhead entries after skip := by
  induction skip generalizing after with
  | zero => rfl
  | succ skip ih =>
    rw [advance]
    cases hafter : check after with
    | error error =>
      rw [answers, answers, hafter]
      rfl
    | ok =>
      rw [answers_ok hafter, answers_ok hafter]
      cases hrest : rest isAhead entries after with
      | nil => rfl
      | cons entry left =>
        have hmem := mem_of_rest_cons hrest
        change advance place _ skip (some (place (answerOf entry))) = _
        rw [hplace entry hmem, ih, answers_ok (hcheck entry hmem), h.rest_tail hrest]
        rfl

theorem Ordered.complete (hnone : check none = .ok ()) {before : Entry → Entry → Prop}
    (hsorted : entries.Pairwise before) {selected : Entry → Prop} (hmem : ∀ entry, entry ∈ entries ↔ selected entry) :
    Complete place answerOf before selected (answers check answerOf isAhead entries) where
  visits := ⟨entries, hsorted, hmem, fun _ hfuel => h.visit_rest hplace hcheck hnone rest_none hfuel⟩
  skips := fun after skip => (h.advance_skip hplace hcheck after skip).symm

end Ordered

end BetterWebBrowser.Framework.Cursor
