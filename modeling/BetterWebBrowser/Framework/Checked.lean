import Mathlib.Data.Nat.Basic
import Mathlib.Data.List.Basic
import Mathlib.Algebra.Ring.Int.Defs
import Mathlib.Data.Nat.Cast.Basic

/-!
# Checked arithmetic

Unsigned machine arithmetic on natural numbers: `none` stands for the panic of a plain
operator and for the `None` of a checked one. Functions that can fail in another way too
tell their panics apart from the errors they return.
-/

namespace BetterWebBrowser.Framework

/-- `a - b`, which fails below zero. -/
def checkedSub (a b : Nat) : Option Nat := if b ≤ a then some (a - b) else none

/-- `a.checked_add(b)` on words of this width. -/
def checkedAdd (bits a b : Nat) : Option Nat := if a + b < 2 ^ bits then some (a + b) else none

/-- What ends a function early: an error that it returns, or a panic. -/
inductive Fault (E : Type)
  | Returned (error : E)
  | Panicked

/-- `&items[start..stop]` -/
def slice {E A : Type} (items : List A) (start stop : Nat) : Except (Fault E) (List A) :=
  if start ≤ stop ∧ stop ≤ items.length then .ok ((items.take stop).drop start)
  else .error .Panicked

/-- The part between what is before and what is after it. -/
theorem slice_append {E A : Type} (before part rest : List A) :
    slice (before ++ part ++ rest) before.length (before.length + part.length) =
      (.ok part : Except (Fault E) (List A)) := by
  have hfits : before.length ≤ before.length + part.length ∧
      before.length + part.length ≤ (before ++ part ++ rest).length := by
    rw [List.length_append, List.length_append]
    omega
  rw [slice, if_pos hfits, ← List.length_append, List.take_left, List.drop_left]

theorem checkedSub_of_le {a b : Nat} (h : b ≤ a) : checkedSub a b = some (a - b) := if_pos h

theorem checkedAdd_of_lt {bits a b : Nat} (h : a + b < 2 ^ bits) : checkedAdd bits a b = some (a + b) := if_pos h

theorem checkedAdd_eq_some {bits a b sum : Nat} :
    checkedAdd bits a b = some sum ↔ a + b = sum ∧ sum < 2 ^ bits := by
  rw [checkedAdd]
  split
  next hfits =>
    rw [Option.some.injEq]
    constructor
    · intro hsum
      exact ⟨hsum, hsum ▸ hfits⟩
    · exact And.left
  next hover =>
    constructor
    · intro hnone
      cases hnone
    · rintro ⟨rfl, hfits⟩
      exact absurd hfits hover

end BetterWebBrowser.Framework
