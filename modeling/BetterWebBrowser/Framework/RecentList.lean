import Mathlib.Data.List.Basic

/-!
# Lists of recent entries

A bounded list that keeps the entry used last at its end. What an entry says is never changed: a
lookup returns an entry that was put in, and an insertion adds no other one.
-/

namespace BetterWebBrowser.Framework.Recent

variable {A : Type}

/-- The first entry found goes to the end. -/
def touch (found : A → Bool) (entries : List A) : Option A × List A :=
  match entries.find? found with
  | none => (none, entries)
  | some entry => (some entry, entries.eraseP found ++ [entry])

/-- The oldest entry leaves a full list. -/
def push (capacity : Nat) (entry : A) (entries : List A) : List A :=
  (if entries.length = capacity then entries.drop 1 else entries) ++ [entry]

theorem touch_eq_some {found : A → Bool} {entries after : List A} {entry : A}
    (h : touch found entries = (some entry, after)) :
    entry ∈ entries ∧ found entry = true ∧ ∀ other ∈ after, other ∈ entries := by
  rw [touch] at h
  cases hfind : entries.find? found with
  | none =>
    rw [hfind] at h
    cases h
  | some first =>
    rw [hfind] at h
    cases h
    have hmem := List.mem_of_find?_eq_some hfind
    refine ⟨hmem, List.find?_some hfind, fun other hother => ?_⟩
    obtain hother | hother := List.mem_append.mp hother
    · exact List.mem_of_mem_eraseP hother
    · rwa [List.mem_singleton.mp hother]

theorem mem_push {capacity : Nat} {entry other : A} {entries : List A}
    (h : other ∈ push capacity entry entries) : other ∈ entries ∨ other = entry := by
  rw [push] at h
  obtain h | h := List.mem_append.mp h
  · left
    split at h
    · exact List.mem_of_mem_drop h
    · exact h
  · exact .inr (List.mem_singleton.mp h)

end BetterWebBrowser.Framework.Recent
