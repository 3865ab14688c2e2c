import Mathlib.Data.Finset.Filter
import Mathlib.Data.Finset.Card
import Mathlib.Algebra.Ring.Int.Defs
import Mathlib.Data.Nat.Cast.Basic

/-!
# The tabs of a window

Tabs in order, the active one and the selected ones. Identities are given out once.
-/

namespace BetterWebBrowser.WindowsApp

abbrev TabId := Nat

def TabId.first : TabId := 1

def MAX_OPEN_TABS : Nat := 16

class IdentifiedTab (T : Type*) where
  tabId : T → TabId

export IdentifiedTab (tabId)

/-! ## The selection -/

structure TabSelection where
  selected : Finset TabId
  anchor : TabId

namespace TabSelection

def new (first : TabId) : TabSelection := ⟨{first}, first⟩

def isSelected (selection : TabSelection) (id : TabId) : Bool := decide (id ∈ selection.selected)

def selectOnly (_ : TabSelection) (id : TabId) : TabSelection := ⟨{id}, id⟩

def toggle (selection : TabSelection) (id : TabId) : TabSelection :=
  if id ∈ selection.selected ∧ 1 < selection.selected.card then ⟨selection.selected.erase id, id⟩
  else ⟨insert id selection.selected, id⟩

def selectRange (selection : TabSelection) (order : List TabId) (id : TabId) : TabSelection :=
  match order.idxOf? selection.anchor with
  | none => selection.selectOnly id
  | some anchor =>
    match order.idxOf? id with
    | none => selection
    | some target =>
      let start := min anchor target
      let last := max anchor target
      { selection with selected := ((order.drop start).take (last + 1 - start)).toFinset }

def replace (_ : TabSelection) (ids : Finset TabId) (anchor : TabId) : TabSelection := ⟨ids, anchor⟩

def retain (selection : TabSelection) (valid : Finset TabId) (fallback : TabId) : TabSelection :=
  let selected := selection.selected.filter (· ∈ valid)
  { selected := if selected = ∅ then insert fallback selected else selected
    anchor := if selection.anchor ∈ valid then selection.anchor else fallback }

end TabSelection

/-! ## The collection -/

/-- The active index is one of a tab in every collection, so that there is a tab. -/
structure TabCollection (T : Type*) where
  tabs : List T
  active : Nat
  selection : TabSelection
  active_lt : active < tabs.length

structure TabBatch (T : Type*) where
  tabs : List T
  active : TabId
  selected : Finset TabId

namespace TabCollection

variable {T : Type*} [IdentifiedTab T]

def new (first : T) : TabCollection T :=
  { tabs := [first], active := 0, selection := TabSelection.new (tabId first), active_lt := by simp }

def ids (collection : TabCollection T) : List TabId := collection.tabs.map tabId

/-- The place of a tab: `iter().position(|tab| tab.tab_id() == id)` -/
def position (collection : TabCollection T) (id : TabId) : Option Nat := collection.ids.idxOf? id

def activeTab (collection : TabCollection T) : T := collection.tabs.get ⟨collection.active, collection.active_lt⟩

def activeId (collection : TabCollection T) : TabId := tabId collection.activeTab

def contains (collection : TabCollection T) (id : TabId) : Bool := decide (id ∈ collection.ids)

def availableCapacity (collection : TabCollection T) : Nat := MAX_OPEN_TABS - collection.tabs.length

def isSelected (collection : TabCollection T) (id : TabId) : Bool := collection.selection.isSelected id

def selectedIds (collection : TabCollection T) : List TabId := collection.ids.filter collection.isSelected

theorem position_lt {collection : TabCollection T} {id : TabId} {index : Nat} (h : collection.position id = some index) :
    index < collection.tabs.length := by
  rw [position, List.idxOf?, List.findIdx?_eq_some_iff_getElem] at h
  obtain ⟨hlt, -⟩ := h
  rwa [ids, List.length_map] at hlt

/-- The first tab with an identity, or else another place. -/
def positionOr (tabs : List T) (id : TabId) (other : Nat) : Nat := ((tabs.map tabId).idxOf? id).getD other

theorem positionOr_lt {tabs : List T} {id : TabId} {other : Nat} (h : other < tabs.length) :
    positionOr tabs id other < tabs.length := by
  rw [positionOr]
  cases hindex : (tabs.map tabId).idxOf? id with
  | none => exact h
  | some index =>
    rw [List.idxOf?, List.findIdx?_eq_some_iff_getElem] at hindex
    obtain ⟨hlt, -⟩ := hindex
    rwa [List.length_map] at hlt

/-- `self.selection` after `retain_valid_selection` of tabs with an active one. -/
def retainValidSelection (collection : TabCollection T) : TabCollection T :=
  { collection with selection := collection.selection.retain collection.ids.toFinset collection.activeId }

/-- `TabLimitReached` is none. The identity is the one that was allocated. -/
def add (collection : TabCollection T) (activate : Bool) (id : TabId) (create : TabId → T) : Option (TabCollection T) :=
  if MAX_OPEN_TABS ≤ collection.tabs.length then none
  else
    let tabs := collection.tabs ++ [create id]
    if activate then
      some {
        tabs := tabs
        active := collection.tabs.length
        selection := collection.selection.selectOnly id
        active_lt := by simp [tabs] }
    else
      some { collection with
        tabs := tabs
        active_lt := by
          rw [List.length_append]
          exact collection.active_lt.trans_le (Nat.le_add_right _ _) }

def activate (collection : TabCollection T) (id : TabId) : TabCollection T :=
  match h : collection.position id with
  | none => collection
  | some index => { collection with active := index, active_lt := position_lt h }

def activateExclusive (collection : TabCollection T) (id : TabId) : TabCollection T :=
  let collection := collection.activate id
  if collection.contains id then { collection with selection := collection.selection.selectOnly id } else collection

def toggleSelection (collection : TabCollection T) (id : TabId) : TabCollection T :=
  let previous := collection.activeId
  if !collection.contains id then collection
  else
    let collection := { collection with selection := collection.selection.toggle id }
    if collection.isSelected id then collection.activate id
    else if previous = id then
      match collection.selectedIds.head? with
      | some next => collection.activate next
      | none => collection
    else collection

def selectRange (collection : TabCollection T) (id : TabId) : TabCollection T :=
  { collection with selection := collection.selection.selectRange collection.ids id }.activate id

/-- The tab at an index becomes active and the only selected one. -/
def activateIndex (collection : TabCollection T) (index : Nat) (h : index < collection.tabs.length) : TabCollection T :=
  let collection := { collection with active := index, active_lt := h }
  { collection with selection := collection.selection.selectOnly collection.activeId }

def activateRelative (collection : TabCollection T) (forward : Bool) : TabCollection T :=
  have hpos : 0 < collection.tabs.length := Nat.zero_lt_of_lt collection.active_lt
  if forward then
    collection.activateIndex ((collection.active + 1) % collection.tabs.length) (Nat.mod_lt _ hpos)
  else
    collection.activateIndex ((collection.active + collection.tabs.length - 1) % collection.tabs.length)
      (Nat.mod_lt _ hpos)

def activatePosition (collection : TabCollection T) (oneBased : Nat) : TabCollection T :=
  if h : 1 ≤ oneBased ∧ oneBased - 1 < collection.tabs.length then collection.activateIndex (oneBased - 1) h.2
  else collection

def activateLast (collection : TabCollection T) : TabCollection T :=
  collection.activateIndex (collection.tabs.length - 1) (Nat.sub_one_lt_of_lt collection.active_lt)

/-- The active index after the tab at `index` is gone. -/
def activeAfter (collection : TabCollection T) (index : Nat) : Nat :=
  if index < collection.active then collection.active - 1
  else if index = collection.active then min collection.active (collection.tabs.length - 1 - 1)
  else collection.active

omit [IdentifiedTab T] in
theorem activeAfter_lt {collection : TabCollection T} {index : Nat} (hlen : 1 < collection.tabs.length)
    (hindex : index < collection.tabs.length) :
    collection.activeAfter index < (collection.tabs.eraseIdx index).length := by
  have hactive := collection.active_lt
  rw [List.length_eraseIdx_of_lt hindex, activeAfter]
  split
  · omega
  · split
    · omega
    · omega

/-- The collection without the tab at `index`. -/
def removeAt (collection : TabCollection T) (index : Nat) (hlen : 1 < collection.tabs.length)
    (hindex : index < collection.tabs.length) : TabCollection T :=
  retainValidSelection {
    tabs := collection.tabs.eraseIdx index
    active := collection.activeAfter index
    selection := collection.selection
    active_lt := activeAfter_lt hlen hindex }

def removeActive (collection : TabCollection T) (h : 1 < collection.tabs.length) : T × TabCollection T :=
  (collection.activeTab, collection.removeAt collection.active h collection.active_lt)

def remove (collection : TabCollection T) (id : TabId) : Option (T × TabCollection T) :=
  if hlen : 1 < collection.tabs.length then
    match h : collection.position id with
    | none => none
    | some index =>
      some (collection.tabs.get ⟨index, position_lt h⟩, collection.removeAt index hlen (position_lt h))
  else none

/-- Whether a tab is selected. -/
def marks (collection : TabCollection T) (tab : T) : Bool := collection.isSelected (tabId tab)

def reorderSelected (collection : TabCollection T) (targetIndex : Nat) : TabCollection T :=
  if collection.selectedIds = [] then collection
  else
    let moved := collection.tabs.filter collection.marks
    let retained := collection.tabs.filter fun tab => !collection.marks tab
    let removedBefore := (collection.tabs.take targetIndex).countP collection.marks
    let insertion := min (targetIndex - removedBefore) retained.length
    let tabs := retained.take insertion ++ moved ++ retained.drop insertion
    { collection with
      tabs := tabs
      active := positionOr tabs collection.activeId 0
      active_lt := by
        refine positionOr_lt ?_
        have hpos := Nat.zero_lt_of_lt collection.active_lt
        have hsplit := List.length_eq_length_filter_add (l := collection.tabs) collection.marks
        simp only [tabs, moved, retained, List.length_append, List.length_take, List.length_drop]
        omega }

/-- Whether the tabs moved, and how they are then. -/
def moveSelected (collection : TabCollection T) (forward : Bool) : Bool × TabCollection T :=
  let indices := (List.range collection.tabs.length).filter fun index =>
    (collection.tabs[index]?).any collection.marks
  match indices.head?, indices.getLast? with
  | some first, some last =>
    if forward then
      if collection.tabs.length ≤ last + 1 then (false, collection) else (true, collection.reorderSelected (last + 2))
    else
      if first = 0 then (false, collection) else (true, collection.reorderSelected (first - 1))
  | _, _ => (false, collection)

def extractSelected (collection : TabCollection T) (fallback : T) : TabBatch T × TabCollection T :=
  let moved := collection.tabs.filter collection.marks
  let retained := collection.tabs.filter fun tab => !collection.marks tab
  let tabs := if retained = [] then [fallback] else retained
  (
    { tabs := moved, active := collection.activeId, selected := collection.selectedIds.toFinset },
    retainValidSelection {
      tabs := tabs
      active := min collection.active (tabs.length - 1)
      selection := collection.selection
      active_lt := by
        have hpos : 0 < tabs.length := by
          by_cases hretained : retained = []
          · simp [tabs, hretained]
          · simp only [tabs, if_neg hretained]
            exact List.length_pos_iff.mpr hretained
        omega })

def insertBatch (collection : TabCollection T) (index : Nat) (batch : TabBatch T) : TabCollection T :=
  let insertion := min index collection.tabs.length
  let tabs := collection.tabs.take insertion ++ batch.tabs ++ collection.tabs.drop insertion
  { tabs := tabs
    active := positionOr tabs batch.active (min insertion (tabs.length - 1))
    selection := collection.selection.replace batch.selected batch.active
    active_lt := by
      refine positionOr_lt ?_
      have hpos := Nat.zero_lt_of_lt collection.active_lt
      simp only [tabs, List.length_append, List.length_take, List.length_drop]
      omega }

end TabCollection

end BetterWebBrowser.WindowsApp
