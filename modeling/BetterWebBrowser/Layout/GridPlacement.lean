import BetterWebBrowser.Framework.Loop
/-!
# Grid placement

Items with both lines definite are placed first. Items with a definite major line are then
locked to their track and pushed along it, and the rest are placed at a cursor that runs over
the grid in the direction of the flow. The grid has at most `maxGridTracks` tracks in each
direction, so both loops work against a limit that a single large line number reaches.
-/
namespace BetterWebBrowser.Layout
open Framework

def maxGridTracks : Nat := 10000

/-- The `saturating_add` of a 64-bit `usize`. -/
def saturatingAdd (a b : Nat) : Nat := min (a + b) (2 ^ 64 - 1)

/-- The start and the end of an area on the tracks of a bounded grid. -/
def clampArea (start finish : Nat) : Nat × Nat :=
  let start := min start (maxGridTracks - 1)
  (start, max (min finish maxGridTracks) (start + 1))

theorem clampArea_lt (start finish : Nat) :
    (clampArea start finish).1 < (clampArea start finish).2 := by
  simp only [clampArea]
  omega

theorem clampArea_le (start finish : Nat) : (clampArea start finish).2 ≤ maxGridTracks := by
  simp only [clampArea, maxGridTracks]
  omega

/-- An area of the grid, never empty and never beyond the limit on the tracks. -/
structure Area where
  major : Nat
  majorEnd : Nat
  minor : Nat
  minorEnd : Nat
  major_lt : major < majorEnd
  majorEnd_le : majorEnd ≤ maxGridTracks
  minor_lt : minor < minorEnd
  minorEnd_le : minorEnd ≤ maxGridTracks
deriving DecidableEq, Repr

namespace Area

def intersects (self other : Area) : Bool :=
  self.major < other.majorEnd && other.major < self.majorEnd &&
    (self.minor < other.minorEnd && other.minor < self.minorEnd)

/-- The area reaches the last track in one of the directions. -/
def TouchesLimit (self : Area) : Prop :=
  self.majorEnd = maxGridTracks ∨ self.minorEnd = maxGridTracks

/-- The order of the starts of two areas, along the flow. -/
def NotAfter (self other : Area) : Prop :=
  self.major < other.major ∨ self.major = other.major ∧ self.minor ≤ other.minor

end Area

/-- A child of the container with the lines and the spans of its style. -/
structure GridChild (ν : Type*) where
  node : ν
  column : Option Nat
  columnSpan : Nat
  row : Option Nat
  rowSpan : Nat
  columnSpan_pos : 0 < columnSpan
  rowSpan_pos : 0 < rowSpan

/-- What the placement reads: the children and the style of the container. -/
structure GridContainer (ν : Type*) where
  children : List (GridChild ν)
  columns : Nat
  rows : Nat
  column : Bool
  dense : Bool

structure Candidate (ν : Type*) where
  node : ν
  major : Option Nat
  minor : Option Nat
  majorSpan : Nat
  minorSpan : Nat
  major_lt : ∀ line ∈ major, line < maxGridTracks
  minor_lt : ∀ line ∈ minor, line < maxGridTracks
  majorSpan_pos : 0 < majorSpan
  minorSpan_pos : 0 < minorSpan

structure GridItemPlacement (ν : Type*) where
  node : ν
  column : Nat
  columnEnd : Nat
  row : Nat
  rowEnd : Nat
deriving DecidableEq, Repr

variable {ν : Type*}

/-- A definite line, kept on the grid. -/
def clampLine (line : Option Nat) : Option Nat := line.map fun v => min v (maxGridTracks - 1)

theorem clampLine_lt (line : Option Nat) : ∀ v ∈ clampLine line, v < maxGridTracks := by
  intro v hv
  obtain ⟨w, -, rfl⟩ := Option.map_eq_some_iff.mp hv
  simp only [maxGridTracks]
  omega

/-- The child in the directions of the flow: the columns are the major tracks of a column flow. -/
def candidate (columnFlow : Bool) (child : GridChild ν) : Candidate ν :=
  if columnFlow then
    { node := child.node
      major := clampLine child.column
      minor := clampLine child.row
      majorSpan := child.columnSpan
      minorSpan := child.rowSpan
      major_lt := clampLine_lt _
      minor_lt := clampLine_lt _
      majorSpan_pos := child.columnSpan_pos
      minorSpan_pos := child.rowSpan_pos }
  else
    { node := child.node
      major := clampLine child.row
      minor := clampLine child.column
      majorSpan := child.rowSpan
      minorSpan := child.columnSpan
      major_lt := clampLine_lt _
      minor_lt := clampLine_lt _
      majorSpan_pos := child.rowSpan_pos
      minorSpan_pos := child.columnSpan_pos }

def GridContainer.candidates (grid : GridContainer ν) : List (Candidate ν) :=
  grid.children.map (candidate grid.column)

/-- The number of minor tracks before any item is placed. -/
def GridContainer.minorCount (grid : GridContainer ν) : Nat :=
  grid.candidates.foldl
    (fun count item =>
      min (max count
        (item.minor.elim item.minorSpan fun start => saturatingAdd start item.minorSpan))
        maxGridTracks)
    (max (if grid.column then grid.rows else grid.columns) 1)

/-- The area of an item that starts at the given lines. -/
def area (item : Candidate ν) (major minor : Nat) : Area where
  major := (clampArea major (saturatingAdd major item.majorSpan)).1
  majorEnd := (clampArea major (saturatingAdd major item.majorSpan)).2
  minor := (clampArea minor (saturatingAdd minor item.minorSpan)).1
  minorEnd := (clampArea minor (saturatingAdd minor item.minorSpan)).2
  major_lt := clampArea_lt _ _
  majorEnd_le := clampArea_le _ _
  minor_lt := clampArea_lt _ _
  minorEnd_le := clampArea_le _ _

/-- A candidate with its slot of `placed`. -/
abbrev Entry (ν : Type*) := Candidate ν × Option Area

/-- The first pass: an item is placed at once where both its lines are definite. -/
def placeExplicit (item : Candidate ν) : Entry ν :=
  match item.major, item.minor with
  | some major, some minor => (item, some (area item major minor))
  | _, _ => (item, none)

/-! ### Items locked to a major track -/

/-- The state of the second pass. -/
structure Locked where
  minorCount : Nat
  cursors : Nat → Option Nat
  occupied : List Area

def Locked.place (state : Locked) (major : Nat) (bounds : Area) : Locked where
  minorCount := max state.minorCount bounds.minorEnd
  cursors := fun track => if track = major then some bounds.minorEnd else state.cursors track
  occupied := state.occupied ++ [bounds]

/-- One turn of the loop of a locked item, at the minor line `minor`. -/
def lockedStep (item : Candidate ν) (major : Nat) (occupied : List Area) (minor : Nat) :
    Area ⊕ Nat :=
  let bounds := area item major minor
  match occupied.find? (·.intersects bounds) with
  | some hit =>
    if minor < maxGridTracks - 1 then
      .inr (max (min hit.minorEnd (maxGridTracks - 1)) (minor + 1))
    else .inl bounds
  | none => .inl bounds

/-- The minor line at which the loop of a locked item begins. -/
def lockedStart (dense : Bool) (state : Locked) (major : Nat) : Nat :=
  if dense then 0 else (state.cursors major).getD 0

/-- The second pass, with `fuel` turns for each of its loops. -/
def placeLocked (fuel : Nat) (dense : Bool) : List (Entry ν) → Locked → Option (List (Entry ν) × Locked)
  | [], state => some ([], state)
  | (item, some bounds) :: rest, state =>
    (placeLocked fuel dense rest state).map fun (entries, last) =>
      ((item, some bounds) :: entries, last)
  | (item, none) :: rest, state =>
    match item.major with
    | none =>
      (placeLocked fuel dense rest state).map fun (entries, last) => ((item, none) :: entries, last)
    | some major =>
      (Loop.run (lockedStep item major state.occupied) fuel (lockedStart dense state major)).bind
        fun bounds =>
          (placeLocked fuel dense rest (state.place major bounds)).map fun (entries, last) =>
            ((item, some bounds) :: entries, last)

/-! ### Items placed at the cursor -/

structure Cursor where
  major : Nat
  minor : Nat
deriving DecidableEq, Repr

/-- The next major track, as far as the grid has one. -/
def nextTrack (major : Nat) : Nat := min (saturatingAdd major 1) (maxGridTracks - 1)

/-- The state of the third pass. -/
structure Free where
  occupied : List Area
  cursor : Cursor

/-- Where the loop of an item begins. -/
def enter (dense : Bool) (item : Candidate ν) (cursor : Cursor) : Cursor :=
  let cursor := if dense then ⟨0, 0⟩ else cursor
  match item.minor with
  | some minor => ⟨if minor < cursor.minor then nextTrack cursor.major else cursor.major, minor⟩
  | none => cursor

/-- An item with an automatic minor line that does not fit behind the cursor goes to the start
of the next major track. -/
def wrap (item : Candidate ν) (minorCount : Nat) (cursor : Cursor) : Cursor :=
  if item.minor = none ∧ minorCount < saturatingAdd cursor.minor item.minorSpan then
    ⟨nextTrack cursor.major, 0⟩
  else cursor

/-- One turn of the loop of an item without a definite major line. -/
def freeStep (item : Candidate ν) (minorCount : Nat) (occupied : List Area) (start : Cursor) :
    (Area × Cursor) ⊕ Cursor :=
  let cursor := wrap item minorCount start
  let bounds := area item cursor.major cursor.minor
  match occupied.find? (·.intersects bounds) with
  | none => .inl (bounds, cursor)
  | some hit =>
    -- The bounded grid cannot grow another major track: the area at the edge is kept.
    if cursor.major = maxGridTracks - 1 ∧ (item.minor.isSome ∨ minorCount ≤ hit.minorEnd) then
      .inl (bounds, cursor)
    else if item.minor.isSome ∧ cursor.major < maxGridTracks - 1 then
      .inr ⟨max (min hit.majorEnd (maxGridTracks - 1)) (cursor.major + 1), cursor.minor⟩
    else if item.minor = none ∧
        (cursor.major < maxGridTracks - 1 ∨ cursor.minor < minorCount - 1) then
      if hit.minor = 0 ∧ minorCount ≤ hit.minorEnd then
        .inr ⟨max (min hit.majorEnd (maxGridTracks - 1))
          (min (cursor.major + 1) (maxGridTracks - 1)), 0⟩
      else .inr ⟨cursor.major, max hit.minorEnd (cursor.minor + 1)⟩
    else .inl (bounds, cursor)

/-- The third pass, with `fuel` turns for each of its loops. -/
def placeFree (fuel : Nat) (dense : Bool) (minorCount : Nat) :
    List (Entry ν) → Free → Option (List (Candidate ν × Area) × Free)
  | [], state => some ([], state)
  | (item, some bounds) :: rest, state =>
    (placeFree fuel dense minorCount rest state).map fun (placed, last) =>
      ((item, bounds) :: placed, last)
  | (item, none) :: rest, state =>
    (Loop.run (freeStep item minorCount state.occupied) fuel (enter dense item state.cursor)).bind
      fun (bounds, cursor) =>
        (placeFree fuel dense minorCount rest ⟨state.occupied ++ [bounds], cursor⟩).map
          fun (placed, last) => ((item, bounds) :: placed, last)

/-! ### The three passes together -/

def GridContainer.explicit (grid : GridContainer ν) : List (Entry ν) :=
  grid.candidates.map placeExplicit

def GridContainer.beforeLocked (grid : GridContainer ν) : Locked where
  minorCount := grid.minorCount
  cursors := fun _ => none
  occupied := grid.explicit.filterMap Prod.snd

/-- The area in the directions of the page. -/
def placement (columnFlow : Bool) (item : Candidate ν) (bounds : Area) : GridItemPlacement ν :=
  if columnFlow then
    ⟨item.node, bounds.major, bounds.majorEnd, bounds.minor, bounds.minorEnd⟩
  else
    ⟨item.node, bounds.minor, bounds.minorEnd, bounds.major, bounds.majorEnd⟩

/-- The items with their areas, in the order of the children. -/
def GridContainer.placed (grid : GridContainer ν) (fuel : Nat) :
    Option (List (Candidate ν × Area)) :=
  (placeLocked fuel grid.dense grid.explicit grid.beforeLocked).bind fun (entries, locked) =>
    (placeFree fuel grid.dense locked.minorCount entries ⟨locked.occupied, ⟨0, 0⟩⟩).map Prod.fst

end BetterWebBrowser.Layout
