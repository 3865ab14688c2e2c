import BetterWebBrowser.Layout.GridLoops
/-!
# The areas of a grid

The passes place the items one after the other, each clear of the areas before it unless it is
at the limit. The pass over the free items keeps its cursor moving forward when it is sparse.
Every loop ends but those of items with two automatic lines that the last major track passes
on all the way.
-/
namespace BetterWebBrowser.Layout
open Framework Loop

variable {ν : Type*}

namespace Candidate

def isExplicit (item : Candidate ν) : Bool := item.major.isSome && item.minor.isSome

def isLocked (item : Candidate ν) : Bool := item.major.isSome && item.minor.isNone

def isFree (item : Candidate ν) : Bool := item.major.isNone

/-- Both lines are automatic. -/
def isAutomatic (item : Candidate ν) : Bool := item.major.isNone && item.minor.isNone

end Candidate

/-- The area starts at the definite lines of the item. -/
structure AtLines (item : Candidate ν) (bounds : Area) : Prop where
  major : ∀ line ∈ item.major, bounds.major = line
  minor : ∀ line ∈ item.minor, bounds.minor = line

/-- The later of two placed items does not overlap the earlier one by accident. -/
def ClearOf (earlier later : Candidate ν × Area) : Prop :=
  later.1.isExplicit = false →
    later.2.TouchesLimit ∨ earlier.2.intersects later.2 = false

/-- The later of two items is not before the earlier one along the flow, below the limit. -/
def InOrder (earlier later : Candidate ν × Area) : Prop :=
  ¬later.2.TouchesLimit → earlier.2.NotAfter later.2

/-- The order in which the three passes place the items. -/
def placementOrder (placed : List (Candidate ν × Area)) : List (Candidate ν × Area) :=
  placed.filter (·.1.isExplicit) ++ placed.filter (·.1.isLocked) ++ placed.filter (·.1.isFree)

/-- The settled areas of one kind of item. -/
def settled (kind : Candidate ν → Bool) (entries : List (Entry ν)) : List (Candidate ν × Area) :=
  entries.filterMap fun entry => if kind entry.1 then entry.2.map (entry.1, ·) else none

/-! ### The first pass -/

theorem clear_append {occupied : List Area} {earlier bounds : Area} :
    Clear (occupied ++ [earlier]) bounds ↔
      Clear occupied bounds ∧ (bounds.TouchesLimit ∨ earlier.intersects bounds = false) := by
  constructor
  · rintro (h | h)
    · exact ⟨.inl h, .inl h⟩
    · exact ⟨.inr fun hit hm => h hit (List.mem_append_left _ hm), .inr (h earlier (by simp))⟩
  · rintro ⟨h | h, h' | h'⟩
    · exact .inl h
    · exact .inl h
    · exact .inl h'
    · right
      intro hit hm
      rcases List.mem_append.mp hm with hm | hm
      · exact h hit hm
      · exact List.mem_singleton.mp hm ▸ h'

/-- What the second pass leaves of a slot. -/
structure SlotLocked (before after : Entry ν) : Prop where
  item : after.1 = before.1
  kept : ∀ bounds, before.2 = some bounds → after.2 = some bounds
  open_iff : before.2 = none → (after.2 = none ↔ after.1.major = none)
  atLines : ∀ bounds, before.2 = none → after.2 = some bounds →
    ∀ line ∈ after.1.major, bounds.major = line

/-- What a finished second pass has done. -/
structure LockedRun (entries : List (Entry ν)) (state : Locked) (entries' : List (Entry ν))
    (state' : Locked) : Prop where
  slots : List.Forall₂ SlotLocked entries entries'
  occupied : state'.occupied = state.occupied ++ (settled Candidate.isLocked entries').map Prod.snd
  clear : ∀ p ∈ settled Candidate.isLocked entries', Clear state.occupied p.2
  pairwise : (settled Candidate.isLocked entries').Pairwise ClearOf
  minorCount : state.minorCount ≤ maxGridTracks → state'.minorCount ≤ maxGridTracks

/-- An entry that the pass leaves alone adds nothing to the run. -/
theorem LockedRun.skip {entry entry' : Entry ν} {entries entries' : List (Entry ν)}
    {state state' : Locked} (h : LockedRun entries state entries' state')
    (hslot : SlotLocked entry entry')
    (hnone : entry'.1.isLocked = true → entry'.2 = none) :
    LockedRun (entry :: entries) state (entry' :: entries') state' := by
  have hsame : settled Candidate.isLocked (entry' :: entries') = settled Candidate.isLocked entries' := by
    by_cases hkind : entry'.1.isLocked = true
    · simp [settled, hkind, hnone hkind]
    · simp [settled, hkind]
  exact ⟨.cons hslot h.slots, hsame ▸ h.occupied, hsame ▸ h.clear, hsame ▸ h.pairwise, h.minorCount⟩

theorem LockedRun.place {item : Candidate ν} {major minor : Nat} {entries entries' : List (Entry ν)}
    {state state' : Locked} (hmajor : item.major = some major) (hlocked : item.isLocked = true)
    (hclear : Clear state.occupied (area item major minor))
    (h : LockedRun entries (state.place major (area item major minor)) entries' state') :
    LockedRun ((item, none) :: entries) state ((item, some (area item major minor)) :: entries')
      state' := by
  have hcons : settled Candidate.isLocked ((item, some (area item major minor)) :: entries') =
      (item, area item major minor) :: settled Candidate.isLocked entries' := by
    simp [settled, hlocked]
  have hrest : ∀ p ∈ settled Candidate.isLocked entries',
      Clear state.occupied p.2 ∧ ClearOf (item, area item major minor) p := by
    intro p hp
    obtain ⟨hbefore, hitem⟩ := clear_append.mp (h.clear p hp)
    exact ⟨hbefore, fun _ => hitem⟩
  have hslot : SlotLocked (item, none) (item, some (area item major minor)) := by
    refine ⟨rfl, by simp, by simp [hmajor], ?_⟩
    intro bounds _ hb line hline
    obtain rfl := Option.some.inj hb
    obtain rfl := Option.some.inj (hmajor.symm.trans hline)
    exact area_major item minor (item.major_lt _ hmajor)
  constructor
  · exact .cons hslot h.slots
  · rw [hcons, h.occupied]
    simp [Locked.place]
  · rw [hcons]
    intro p hp
    rcases List.mem_cons.mp hp with rfl | hp
    · exact hclear
    · exact (hrest p hp).1
  · rw [hcons]
    exact .cons (fun p hp => (hrest p hp).2) h.pairwise
  · intro hle
    exact h.minorCount (Nat.max_le.mpr ⟨hle, (area item major minor).minorEnd_le⟩)

namespace Cursor

/-- A cursor has not moved back, as long as it is not on the last major track. -/
structure Le (a b : Cursor) : Prop where
  track : a.major ≤ b.major
  line : b.major < maxGridTracks - 1 → a.major < b.major ∨ a.minor ≤ b.minor

theorem Le.refl (a : Cursor) : a.Le a := ⟨Nat.le_refl _, fun _ => .inr (Nat.le_refl _)⟩

theorem Le.trans {a b c : Cursor} (hab : a.Le b) (hbc : b.Le c) : a.Le c where
  track := Nat.le_trans hab.track hbc.track
  line := by
    intro hlast
    have hle := hbc.track
    have h₁ := hab.track
    have h₂ := hab.line (by omega)
    have h₃ := hbc.line hlast
    omega

end Cursor

variable {item : Candidate ν} {occupied : List Area} {minorCount : Nat}

end BetterWebBrowser.Layout
