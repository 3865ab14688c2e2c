import Mathlib.Data.List.Basic
import Mathlib.Data.Option.Basic

/-!
# Operations in transactions

`step` may refuse an operation. A transaction runs a list of operations or, when one of
them is refused, leaves the state and reports every operation as refused. Cutting a list
into transactions is invisible exactly as long as nothing is refused.
-/

namespace BetterWebBrowser.Framework

variable {State Op Report : Type*} (step : State → Op → Option (State × Report))

/-- Run the operations one after the other; nothing if one is refused. -/
def runAll : State → List Op → Option (State × List Report)
  | s, [] => some (s, [])
  | s, op :: ops =>
    (step s op).bind fun first =>
      (runAll first.1 ops).map fun rest => (rest.1, first.2 :: rest.2)

theorem runAll_append (s : State) (first second : List Op) :
    runAll step s (first ++ second) =
      (runAll step s first).bind fun head =>
        (runAll step head.1 second).map fun tail => (tail.1, head.2 ++ tail.2) := by
  induction first generalizing s with
  | nil => simp [runAll]
  | cons op first ih =>
    simp only [List.cons_append, runAll]
    cases step s op with
    | none => rfl
    | some result =>
      simp only [Option.bind_some, ih]
      cases runAll step result.1 first with
      | none => rfl
      | some head => simp [Function.comp_def]

/-- All operations or none. -/
def transaction (refused : Op → Report) (s : State) (ops : List Op) : State × List Report :=
  (runAll step s ops).getD (s, ops.map refused)

/-- One transaction after the other, with all their reports. -/
def transactions (refused : Op → Report) : State → List (List Op) → State × List Report
  | s, [] => (s, [])
  | s, ops :: batches =>
    let head := transaction step refused s ops
    let tail := transactions refused head.1 batches
    (tail.1, head.2 ++ tail.2)

/-- No transaction meets a refusal. -/
def Committed : State → List (List Op) → Prop
  | _, [] => True
  | s, ops :: batches => ∃ t reports, runAll step s ops = some (t, reports) ∧ Committed t batches

/-- Whether anything is refused does not depend on the cut. -/
theorem committed_iff {s : State} {batches : List (List Op)} :
    Committed step s batches ↔ (runAll step s batches.flatten).isSome := by
  induction batches generalizing s with
  | nil => simp [Committed, runAll]
  | cons ops batches ih =>
    rw [List.flatten_cons, runAll_append]
    cases hrun : runAll step s ops with
    | none => simp [Committed, hrun]
    | some head =>
      obtain ⟨t, reports⟩ := head
      simp [Committed, hrun, ih]

/-- Transactions that all commit are the run of their operations. -/
theorem Committed.runAll_flatten {refused : Op → Report} {s : State} {batches : List (List Op)}
    (h : Committed step s batches) :
    runAll step s batches.flatten = some (transactions step refused s batches) := by
  induction batches generalizing s with
  | nil => rfl
  | cons ops batches ih =>
    obtain ⟨t, reports, hrun, hrest⟩ := h
    simp [runAll_append, hrun, transactions, transaction, ih hrest]

/-- Two cuts of the same operations agree as soon as one of them commits throughout. -/
theorem Committed.transactions_eq {refused : Op → Report} {s : State}
    {batches others : List (List Op)} (h : Committed step s batches)
    (hflatten : batches.flatten = others.flatten) :
    Committed step s others ∧
      transactions step refused s batches = transactions step refused s others := by
  have hothers : Committed step s others := by
    rw [committed_iff] at h ⊢
    rwa [← hflatten]
  refine ⟨hothers, Option.some.inj ?_⟩
  rw [← h.runAll_flatten, ← hothers.runAll_flatten, hflatten]

end BetterWebBrowser.Framework
