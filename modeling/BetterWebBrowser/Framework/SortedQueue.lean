import Mathlib.Data.List.Sort
import Mathlib.Data.List.TakeWhile
import Mathlib.Algebra.Ring.Int.Defs
import Mathlib.Data.Nat.Cast.Basic

/-!
# Queues sorted by a key

A list of entries from the least key up. A new entry is put in its place, and the entries are
taken from the front, so that the front is always least.
-/

namespace BetterWebBrowser.Framework

structure SortedQueue {α κ : Type*} [LinearOrder κ] (key : α → κ) where
  entries : List α
  sorted : entries.Pairwise fun a b => key a ≤ key b

namespace SortedQueue

variable {α κ : Type*} [LinearOrder κ] {key : α → κ}

def empty : SortedQueue key := ⟨[], List.Pairwise.nil⟩

def push (q : SortedQueue key) (a : α) : SortedQueue key :=
  ⟨q.entries.orderedInsert (fun a b => key a ≤ key b) a,
    haveI : Std.Total fun a b : α => key a ≤ key b := ⟨fun a b => le_total (key a) (key b)⟩
    haveI : IsTrans α fun a b => key a ≤ key b := ⟨fun _ _ _ hab hbc => hab.trans hbc⟩
    q.sorted.orderedInsert a q.entries⟩

/-- The front and what is behind it. -/
def pop (q : SortedQueue key) : Option (α × SortedQueue key) :=
  match q with
  | ⟨[], _⟩ => none
  | ⟨a :: entries, h⟩ => some (a, ⟨entries, (List.pairwise_cons.mp h).2⟩)

def peek (q : SortedQueue key) : Option α := q.entries.head?

/-- Takes entries from the front as long as they pass a test. -/
def dropFront (p : α → Bool) (q : SortedQueue key) : SortedQueue key :=
  ⟨q.entries.dropWhile p, q.sorted.sublist (List.dropWhile_sublist p)⟩

theorem perm_push (q : SortedQueue key) (a : α) : (q.push a).entries.Perm (a :: q.entries) :=
  List.perm_orderedInsert _ a q.entries

@[simp] theorem mem_push {q : SortedQueue key} {a b : α} : b ∈ (q.push a).entries ↔ b = a ∨ b ∈ q.entries :=
  List.mem_orderedInsert _

theorem pop_eq_none {q : SortedQueue key} : q.pop = none ↔ q.entries = [] := by
  obtain ⟨entries, h⟩ := q
  cases entries with
  | nil => simp [pop]
  | cons a entries => simp [pop]

theorem pop_eq_some {q rest : SortedQueue key} {a : α} : q.pop = some (a, rest) ↔ q.entries = a :: rest.entries := by
  obtain ⟨entries, h⟩ := q
  obtain ⟨others, h'⟩ := rest
  cases entries with
  | nil => simp [pop]
  | cons b entries => simp [pop]

/-- The front is least. -/
theorem front_le {q rest : SortedQueue key} {a b : α} (h : q.pop = some (a, rest)) (hb : b ∈ rest.entries) :
    key a ≤ key b := by
  have hsorted := q.sorted
  rw [pop_eq_some.mp h] at hsorted
  exact (List.pairwise_cons.mp hsorted).1 b hb

theorem dropFront_sublist (p : α → Bool) (q : SortedQueue key) : (q.dropFront p).entries.Sublist q.entries :=
  List.dropWhile_sublist p

/-- What fails the test stays. -/
theorem mem_dropFront {p : α → Bool} {q : SortedQueue key} {a : α} (h : p a = false) :
    a ∈ (q.dropFront p).entries ↔ a ∈ q.entries := by
  constructor
  · intro hmem
    exact (q.dropFront_sublist p).mem hmem
  · intro hmem
    rw [← List.takeWhile_append_dropWhile (p := p) (l := q.entries), List.mem_append] at hmem
    rcases hmem with hmem | hmem
    · rw [List.mem_takeWhile_imp hmem] at h
      cases h
    · exact hmem

/-- The front after the entries were taken fails the test. -/
theorem dropFront_pop {p : α → Bool} {q rest : SortedQueue key} {a : α}
    (h : (q.dropFront p).pop = some (a, rest)) : p a = false := by
  have hentries : q.entries.dropWhile p = a :: rest.entries := pop_eq_some.mp h
  have hhead := List.head_dropWhile_not p (l := q.entries) (by rw [hentries]; exact List.cons_ne_nil _ _)
  simpa [hentries] using hhead

end SortedQueue

end BetterWebBrowser.Framework
