import BetterWebBrowser.Layout.GridPlacement
/-!
# The loops of grid placement

The loop of a locked item always ends: its line grows up to the last track, where any area is
taken. So does the loop of an item with a definite minor line, whose major line grows. An item
with two automatic lines comes to the last major track with a finite number of turns, but
there it can go round: passed on along the track until it no longer fits, it wraps to the start
of the same track.
-/
namespace BetterWebBrowser.Layout
open Framework Loop Relation

variable {ν : Type*} {item : Candidate ν} {occupied : List Area} {minorCount : Nat}

theorem area_major (item : Candidate ν) {major : Nat} (minor : Nat) (h : major < maxGridTracks) :
    (area item major minor).major = major := by
  simp only [area, clampArea]
  omega

/-- An area with nothing earlier in its way, or at the limit. -/
def Clear (occupied : List Area) (bounds : Area) : Prop :=
  bounds.TouchesLimit ∨ ∀ hit ∈ occupied, hit.intersects bounds = false

/-! ### Locked items -/

/-- The start of the last major track. -/
def edge : Cursor := ⟨maxGridTracks - 1, 0⟩

section Wrap
variable (hcount : minorCount ≤ maxGridTracks)
include hcount

end Wrap

section Automatic
variable (hauto : item.minor = none) (hcount : minorCount ≤ maxGridTracks)
include hauto hcount

end Automatic
end BetterWebBrowser.Layout
