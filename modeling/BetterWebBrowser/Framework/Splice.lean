import Mathlib.Data.List.Basic
import Mathlib.Data.List.InsertIdx

/-!
# Moves in a list

An item is taken from a list and inserted before another one. The index of the other item is shifted where
the item stood before it.
-/

namespace BetterWebBrowser.Framework

variable {α : Type*} [DecidableEq α] {items : List α} {item other : α}

/-- The index of an item after another one was taken away. -/
theorem idxOf_erase (hne : item ≠ other) (items : List α) : (items.erase item).idxOf other =
    if items.idxOf item < items.idxOf other then items.idxOf other - 1 else items.idxOf other := by
  induction items with
  | nil => rfl
  | cons head items ih =>
    by_cases hitem : head = item
    · have hother : head ≠ other := hitem ▸ hne
      simp [hitem, List.idxOf_cons_ne _ hne]
    · rw [List.erase_cons_tail (by simpa using hitem)]
      by_cases hother : head = other
      · simp [hother]
      · simp only [List.idxOf_cons_ne _ hitem, List.idxOf_cons_ne _ hother, ih]
        split <;> split <;> omega

/-- Inserted at the index of another item, an item stands before it. -/
theorem insertIdx_idxOf (h : other ∈ items) (item : α) :
    ∃ before after, items = before ++ other :: after ∧
      items.insertIdx (items.idxOf other) item = before ++ item :: other :: after := by
  induction items with
  | nil => cases h
  | cons head items ih =>
    by_cases hhead : head = other
    · subst hhead
      exact ⟨[], items, rfl, by simp⟩
    · obtain ⟨before, after, hitems, hinserted⟩ := ih (List.mem_of_ne_of_mem (Ne.symm hhead) h)
      refine ⟨head :: before, after, by rw [hitems, List.cons_append], ?_⟩
      rw [List.idxOf_cons_ne _ hhead, List.insertIdx_succ_cons, hinserted, List.cons_append]

/-- An item that goes back to its index is where it was. -/
theorem insertIdx_erase (h : item ∈ items) : (items.erase item).insertIdx (items.idxOf item) item = items := by
  induction items with
  | nil => cases h
  | cons head items ih =>
    by_cases hhead : head = item
    · simp [hhead]
    · rw [List.erase_cons_tail (by simpa using hhead), List.idxOf_cons_ne _ hhead, List.insertIdx_succ_cons,
        ih (List.mem_of_ne_of_mem (Ne.symm hhead) h)]

theorem idxOf_le_length_erase (h : item ∈ items) : items.idxOf item ≤ (items.erase item).length := by
  have hlt := List.idxOf_lt_length_of_mem h
  have hlength := List.length_erase_of_mem h
  omega

end BetterWebBrowser.Framework
