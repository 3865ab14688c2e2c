import BetterWebBrowser.WindowsApp.TabCollection
import Mathlib.Data.List.Perm.Subperm

/-!
# Invariants of one window's tabs

What each operation does to the tabs, the active one and the selection. Only a removal can leave
the active tab outside of the selection.
-/

namespace BetterWebBrowser.WindowsApp.TabCollection

variable {T : Type*} [IdentifiedTab T] {collection : TabCollection T} {id : TabId}

/-- The selection is made of tabs that are there, the active one is in it, and the anchor is there. -/
structure Marked (collection : TabCollection T) : Prop where
  present : ∀ id ∈ collection.selection.selected, id ∈ collection.ids
  active : collection.activeId ∈ collection.selection.selected
  anchor : collection.selection.anchor ∈ collection.ids

/-! ## Places -/

theorem idxOf?_some {order : List TabId} {index : Nat} (h : order.idxOf? id = some index) : order[index]? = some id := by
  rw [List.idxOf?, List.findIdx?_eq_some_iff_getElem] at h
  obtain ⟨hlt, hid, -⟩ := h
  rw [List.getElem?_eq_getElem hlt, eq_of_beq hid]

theorem idxOf?_of_mem {order : List TabId} (h : id ∈ order) : ∃ index, order.idxOf? id = some index := by
  cases hindex : order.idxOf? id with
  | none =>
    rw [List.idxOf?_eq_none_iff] at hindex
    exact absurd h hindex
  | some index => exact ⟨index, rfl⟩

theorem ids_active : collection.ids[collection.active]? = some collection.activeId := by
  rw [ids, List.getElem?_map, List.getElem?_eq_getElem collection.active_lt]
  rfl

theorem activeId_of_ids (h : collection.ids[collection.active]? = some id) : collection.activeId = id := by
  rw [ids_active] at h
  exact Option.some.inj h

theorem activeId_mem : collection.activeId ∈ collection.ids := List.mem_of_getElem? ids_active

theorem positionOr_of_mem {tabs : List T} {other : Nat} (h : id ∈ tabs.map tabId) :
    (tabs.map tabId)[positionOr tabs id other]? = some id := by
  obtain ⟨index, hindex⟩ := idxOf?_of_mem h
  rw [positionOr, hindex]
  exact idxOf?_some hindex

/-! ## Activation -/

@[simp] theorem activate_tabs : (collection.activate id).tabs = collection.tabs := by
  rw [activate]
  split <;> rfl

@[simp] theorem activate_selection : (collection.activate id).selection = collection.selection := by
  rw [activate]
  split <;> rfl

@[simp] theorem activate_ids : (collection.activate id).ids = collection.ids := by
  rw [ids, activate_tabs, ids]

theorem activate_activeId (h : id ∈ collection.ids) : (collection.activate id).activeId = id := by
  rw [activate]
  split
  · rename_i hnone
    rw [position, List.idxOf?_eq_none_iff] at hnone
    exact absurd h hnone
  · rename_i index hindex
    exact activeId_of_ids (idxOf?_some hindex)

theorem activate_of_not_mem (h : id ∉ collection.ids) : collection.activate id = collection := by
  rw [activate]
  split
  · rfl
  · rename_i index hindex
    exact absurd (List.mem_of_getElem? (idxOf?_some hindex)) h

theorem Marked.activate (h : collection.Marked) (hid : id ∈ collection.selection.selected) :
    (collection.activate id).Marked where
  present := by simpa using h.present
  active := by
    rw [activate_activeId (h.present id hid), activate_selection]
    exact hid
  anchor := by simpa using h.anchor

/-- A tab that is there, active and alone selected. -/
theorem marked_selectOnly :
    Marked { collection with selection := collection.selection.selectOnly collection.activeId } where
  present := by
    intro id hid
    rw [Finset.mem_singleton.mp hid]
    exact activeId_mem
  active := Finset.mem_singleton_self _
  anchor := activeId_mem

theorem marked_new (first : T) : (TabCollection.new first).Marked where
  present := by simp [TabCollection.new, TabSelection.new, ids]
  active := by simp [TabCollection.new, TabSelection.new, activeId, activeTab]
  anchor := by simp [TabCollection.new, TabSelection.new, ids]

@[simp] theorem activateExclusive_tabs : (collection.activateExclusive id).tabs = collection.tabs := by
  rw [activateExclusive]
  split
  · exact activate_tabs
  · exact activate_tabs

theorem activateExclusive_of_mem (h : id ∈ collection.ids) :
    collection.activateExclusive id = { collection.activate id with
      selection := collection.selection.selectOnly (collection.activate id).activeId } := by
  rw [activateExclusive, activate_activeId h, if_pos]
  · rfl
  · simpa [contains] using h

theorem activateExclusive_of_not_mem (h : id ∉ collection.ids) : collection.activateExclusive id = collection := by
  rw [activateExclusive, activate_of_not_mem h, if_neg]
  simpa [contains] using h

theorem Marked.activateExclusive (h : collection.Marked) : (collection.activateExclusive id).Marked := by
  by_cases hid : id ∈ collection.ids
  · rw [activateExclusive_of_mem hid]
    exact marked_selectOnly
  · rw [activateExclusive_of_not_mem hid]
    exact h

@[simp] theorem activateIndex_tabs {index : Nat} {h : index < collection.tabs.length} :
    (collection.activateIndex index h).tabs = collection.tabs := rfl

theorem marked_activateIndex {index : Nat} {h : index < collection.tabs.length} :
    (collection.activateIndex index h).Marked := by
  rw [activateIndex]
  exact marked_selectOnly

/-! ## Adding -/

/-- A tab is added at the end; it is active and alone selected, or everything else stays. -/
theorem add_some {added : TabCollection T} {activate : Bool} {create : TabId → T} (hcreate : tabId (create id) = id)
    (h : collection.add activate id create = some added) :
    added.tabs = collection.tabs ++ [create id] ∧ collection.tabs.length < MAX_OPEN_TABS ∧
      (collection.Marked → added.Marked) := by
  rw [add] at h
  split at h
  · cases h
  · rename_i hroom
    dsimp only at h
    split at h
    · cases h
      refine ⟨rfl, Nat.lt_of_not_le hroom, fun _ => ?_⟩
      let last : TabCollection T :=
        { tabs := collection.tabs ++ [create id], active := collection.tabs.length, selection := collection.selection,
          active_lt := by simp }
      have hactive : last.activeId = id := by
        rw [activeId, activeTab, ← hcreate]
        simp [last, hcreate]
      have hmarked : Marked { last with selection := last.selection.selectOnly last.activeId } := marked_selectOnly
      rw [hactive] at hmarked
      exact hmarked
    · cases h
      refine ⟨rfl, Nat.lt_of_not_le hroom, fun hmarked => ?_⟩
      have hids : ∀ other ∈ collection.ids, other ∈ (collection.tabs ++ [create id]).map tabId := by
        intro other hother
        rw [List.map_append]
        exact List.mem_append_left _ hother
      refine ⟨fun other hother => hids other (hmarked.present other hother), ?_, hids _ hmarked.anchor⟩
      have hactive : ∀ hlt, activeId { collection with tabs := collection.tabs ++ [create id], active_lt := hlt } =
          collection.activeId := by
        intro hlt
        apply activeId_of_ids
        show ((collection.tabs ++ [create id]).map tabId)[collection.active]? = _
        rw [List.map_append, List.getElem?_append_left (by simpa using collection.active_lt)]
        exact ids_active
      rw [hactive]
      exact hmarked.active

/-! ## Selecting several tabs -/

theorem mem_selectedIds : id ∈ collection.selectedIds ↔ id ∈ collection.ids ∧ id ∈ collection.selection.selected := by
  simp [selectedIds, isSelected, TabSelection.isSelected]

@[simp] theorem toggleSelection_tabs : (collection.toggleSelection id).tabs = collection.tabs := by
  rw [toggleSelection]
  dsimp only
  split
  · rfl
  · split
    · exact activate_tabs
    · split
      · split
        · exact activate_tabs
        · rfl
      · rfl

theorem toggle_nonempty (selection : TabSelection) : (selection.toggle id).selected.Nonempty := by
  rw [TabSelection.toggle]
  split
  · rename_i hselected
    exact (Finset.erase_nonempty hselected.1).mpr (Finset.one_lt_card_iff_nontrivial.mp hselected.2)
  · exact Finset.insert_nonempty _ _

theorem toggle_subset (selection : TabSelection) {other : TabId} (h : other ∈ (selection.toggle id).selected) :
    other = id ∨ other ∈ selection.selected := by
  rw [TabSelection.toggle] at h
  split at h
  · exact .inr (Finset.mem_of_mem_erase h)
  · exact Finset.mem_insert.mp h

theorem toggle_other (selection : TabSelection) {other : TabId} (hne : other ≠ id) (h : other ∈ selection.selected) :
    other ∈ (selection.toggle id).selected := by
  rw [TabSelection.toggle]
  split
  · exact Finset.mem_erase_of_ne_of_mem hne h
  · exact Finset.mem_insert_of_mem h

@[simp] theorem toggle_anchor (selection : TabSelection) : (selection.toggle id).anchor = id := by
  rw [TabSelection.toggle]
  split <;> rfl

/-- The selection after a toggle: it is not empty, and made of tabs that are there if it was before. -/
theorem toggleSelection_selection :
    (collection.toggleSelection id).selection =
      if id ∈ collection.ids then collection.selection.toggle id else collection.selection := by
  rw [toggleSelection]
  dsimp only
  by_cases hid : id ∈ collection.ids
  · rw [if_neg (by simpa [contains] using hid), if_pos hid]
    split
    · exact activate_selection
    · split
      · split
        · exact activate_selection
        · rfl
      · rfl
  · rw [if_pos (by simpa [contains] using hid), if_neg hid]

theorem Marked.toggleSelection (h : collection.Marked) : (collection.toggleSelection id).Marked := by
  by_cases hid : id ∈ collection.ids
  · have hpresent : ∀ other ∈ (collection.selection.toggle id).selected, other ∈ collection.ids := by
      intro other hother
      rcases toggle_subset _ hother with rfl | hother
      · exact hid
      · exact h.present other hother
    refine ⟨?_, ?_, ?_⟩
    · rw [toggleSelection_selection, if_pos hid, ids, toggleSelection_tabs]
      exact hpresent
    · rw [toggleSelection_selection, if_pos hid]
      let toggled := { collection with selection := collection.selection.toggle id }
      have hactive : ∀ {other}, other ∈ toggled.ids → (toggled.activate other).activeId = other := activate_activeId
      rw [TabCollection.toggleSelection, if_neg (by simpa [contains] using hid)]
      dsimp only
      split
      · rename_i hselected
        show (toggled.activate id).activeId ∈ _
        rw [hactive hid]
        simpa [isSelected, TabSelection.isSelected] using hselected
      · split
        · split
          · rename_i next hnext
            obtain ⟨hmem, hselected⟩ := mem_selectedIds.mp (List.mem_of_mem_head? hnext)
            show (toggled.activate next).activeId ∈ _
            rw [hactive hmem]
            exact hselected
          · -- some selected tab is left
            rename_i hnone
            have hnonempty : (collection.selection.toggle id).selected.Nonempty := toggle_nonempty _
            obtain ⟨other, hother⟩ := hnonempty
            have hmem : other ∈ toggled.selectedIds := mem_selectedIds.mpr ⟨hpresent other hother, hother⟩
            rw [List.head?_eq_none_iff.mp hnone] at hmem
            cases hmem
        · rename_i hne
          exact toggle_other _ hne h.active
    · rw [toggleSelection_selection, if_pos hid, toggle_anchor, ids, toggleSelection_tabs]
      exact hid
  · have hsame : collection.toggleSelection id = collection := by
      rw [TabCollection.toggleSelection, if_pos (by simpa [contains] using hid)]
    rw [hsame]
    exact h

@[simp] theorem selectRange_tabs : (collection.selectRange id).tabs = collection.tabs := activate_tabs

/-- A range has both of its ends and only tabs that are there. -/
theorem range_mem {order : List TabId} {first last : Nat} (hlast : last < order.length) :
    let range := ((order.drop (min first last)).take (max first last + 1 - min first last)).toFinset
    (∀ other ∈ range, other ∈ order) ∧ order[last] ∈ range := by
  refine ⟨fun other hother => ?_, ?_⟩
  · exact List.mem_of_mem_drop (List.mem_of_mem_take (List.mem_toFinset.mp hother))
  · rw [List.mem_toFinset, List.mem_iff_getElem?]
    refine ⟨last - min first last, ?_⟩
    rw [List.getElem?_take_of_lt (by omega), List.getElem?_drop, Nat.add_sub_cancel' (Nat.min_le_right _ _)]
    exact List.getElem?_eq_getElem hlast

theorem Marked.selectRange (h : collection.Marked) : (collection.selectRange id).Marked := by
  obtain ⟨first, hfirst⟩ := idxOf?_of_mem h.anchor
  by_cases hid : id ∈ collection.ids
  · obtain ⟨last, hlast⟩ := idxOf?_of_mem hid
    obtain ⟨hlastLt, hlastId⟩ := List.getElem?_eq_some_iff.mp (idxOf?_some hlast)
    have hmem : collection.ids[last] ∈
        ((collection.ids.drop (min first last)).take (max first last + 1 - min first last)).toFinset :=
      (range_mem hlastLt).2
    rw [hlastId] at hmem
    have hselection : collection.selection.selectRange collection.ids id = { collection.selection with
        selected := ((collection.ids.drop (min first last)).take (max first last + 1 - min first last)).toFinset } := by
      rw [TabSelection.selectRange, hfirst]
      dsimp only
      rw [hlast]
    refine ⟨?_, ?_, ?_⟩
    · rw [TabCollection.selectRange, activate_selection, activate_ids, hselection]
      exact (range_mem hlastLt).1
    · let ranged := { collection with selection := collection.selection.selectRange collection.ids id }
      have hactive : (ranged.activate id).activeId = id := activate_activeId hid
      rw [TabCollection.selectRange, activate_selection]
      show (ranged.activate id).activeId ∈ (collection.selection.selectRange collection.ids id).selected
      rw [hactive, hselection]
      exact hmem
    · rw [TabCollection.selectRange, activate_selection, activate_ids, hselection]
      exact h.anchor
  · have hselection : collection.selection.selectRange collection.ids id = collection.selection := by
      rw [TabSelection.selectRange, hfirst]
      dsimp only
      rw [List.idxOf?_eq_none_iff.mpr hid]
    rw [TabCollection.selectRange, hselection, activate_of_not_mem hid]
    exact h

/-! ## Removing -/

/-- What is selected of tabs that are left goes on being so; the active tab takes its place if there is none. -/
theorem marked_retainValidSelection (h : collection.activeId ∈ collection.selection.selected ∨
    ∀ id ∈ collection.selection.selected, id ∉ collection.ids) : collection.retainValidSelection.Marked := by
  have hmem : collection.activeId ∈ collection.ids := activeId_mem
  refine ⟨?_, ?_, ?_⟩
  · intro id hid
    rw [retainValidSelection, TabSelection.retain] at hid
    dsimp only at hid
    split at hid
    · rcases Finset.mem_insert.mp hid with rfl | hid
      · exact hmem
      · exact List.mem_toFinset.mp (Finset.mem_filter.mp hid).2
    · exact List.mem_toFinset.mp (Finset.mem_filter.mp hid).2
  · rw [retainValidSelection, TabSelection.retain]
    dsimp only
    split
    · exact Finset.mem_insert_self _ _
    · rename_i hne
      rcases h with h | h
      · exact Finset.mem_filter.mpr ⟨h, List.mem_toFinset.mpr hmem⟩
      · refine absurd (Finset.filter_eq_empty_iff.mpr fun {id} hid => ?_) hne
        rw [List.mem_toFinset]
        exact h id hid
  · show (if collection.selection.anchor ∈ collection.ids.toFinset then collection.selection.anchor
      else collection.activeId) ∈ collection.ids
    split
    · rename_i hanchor
      exact List.mem_toFinset.mp hanchor
    · exact hmem

section Removing

variable {index : Nat} {hlen : 1 < collection.tabs.length} {hindex : index < collection.tabs.length}

@[simp] theorem removeAt_tabs : (collection.removeAt index hlen hindex).tabs = collection.tabs.eraseIdx index := rfl

theorem removeAt_ids : (collection.removeAt index hlen hindex).ids = collection.ids.eraseIdx index := by
  rw [ids, removeAt_tabs, ids, List.eraseIdx_map]

/-- The active tab stays unless it is removed. -/
theorem removeAt_activeId (hne : index ≠ collection.active) :
    (collection.removeAt index hlen hindex).activeId = collection.activeId := by
  apply activeId_of_ids
  rw [removeAt_ids]
  show (collection.ids.eraseIdx index)[collection.activeAfter index]? = _
  rw [← ids_active, activeAfter, List.getElem?_eraseIdx]
  by_cases hbefore : index < collection.active
  · rw [if_pos hbefore, if_neg (by omega), Nat.sub_add_cancel (by omega)]
  · rw [if_neg hbefore, if_neg hne, if_pos (by omega)]

/-- The tab that becomes active after the active one is removed. -/
def nextActive (collection : TabCollection T) : Option TabId :=
  (collection.ids.eraseIdx collection.active)[min collection.active (collection.ids.length - 2)]?

/-- A tab that may be removed: it is not active, no other tab is selected or the next active tab is selected. -/
def Removable (collection : TabCollection T) (index : Nat) : Prop :=
  index = collection.active → (∀ id ∈ collection.selection.selected, id = collection.activeId) ∨
    ∃ next ∈ collection.nextActive, next ∈ collection.selection.selected

theorem Marked.removeAt (h : collection.Marked) (hnodup : collection.ids.Nodup) (hremovable : collection.Removable index) :
    (collection.removeAt index hlen hindex).Marked := by
  apply marked_retainValidSelection
  by_cases hactive : index = collection.active
  · rcases hremovable hactive with halone | ⟨next, hnext, hselected⟩
    · refine .inr fun id hid hmem => ?_
      -- the active identity is at no other place
      have hleft : id ∈ (collection.tabs.eraseIdx index).map tabId := hmem
      rw [halone id hid, ← List.eraseIdx_map, List.mem_eraseIdx_iff_getElem?] at hleft
      obtain ⟨other, hne, hother⟩ := hleft
      have hlt : collection.active < collection.ids.length := by
        rw [ids, List.length_map]
        exact collection.active_lt
      refine hne (hactive.trans ?_).symm
      rw [← List.getElem?_inj hlt hnodup, ids_active]
      exact hother.symm
    · refine .inl ?_
      show (collection.removeAt index hlen hindex).activeId ∈ collection.selection.selected
      have hid : (collection.removeAt index hlen hindex).activeId = next := by
        apply activeId_of_ids
        rw [removeAt_ids]
        show (collection.ids.eraseIdx index)[collection.activeAfter index]? = _
        rw [activeAfter, if_neg (by omega), if_pos hactive, hactive, Nat.sub_sub]
        rw [nextActive, ids, List.length_map] at hnext
        exact hnext
      rw [hid]
      exact hselected
  · refine .inl ?_
    show (collection.removeAt index hlen hindex).activeId ∈ collection.selection.selected
    rw [removeAt_activeId hactive]
    exact h.active

end Removing

/-- Exactly one tab is gone, and the active tab stays active unless it is this one. -/
structure Removes (collection : TabCollection T) (removed : T) (left : TabCollection T) : Prop where
  tabs : ∃ before after, collection.tabs = before ++ removed :: after ∧ left.tabs = before ++ after
  active : tabId removed ≠ collection.activeId → left.activeId = collection.activeId

theorem removes_removeAt {index : Nat} (hlen : 1 < collection.tabs.length) (hindex : index < collection.tabs.length) :
    Removes collection collection.tabs[index] (collection.removeAt index hlen hindex) where
  tabs := by
    refine ⟨collection.tabs.take index, collection.tabs.drop (index + 1), ?_, ?_⟩
    · rw [List.cons_getElem_drop_succ, List.take_append_drop]
    · exact List.eraseIdx_eq_take_drop_succ _ _
  active := by
    intro hne
    refine removeAt_activeId fun hactive => hne ?_
    subst hactive
    rfl

/-- What `remove` does when the tab is there and not the last one. -/
theorem remove_some {removed : T} {left : TabCollection T} (h : collection.remove id = some (removed, left)) :
    ∃ (index : Nat) (hlen : 1 < collection.tabs.length) (hindex : index < collection.tabs.length),
      collection.ids.idxOf? id = some index ∧ tabId removed = id ∧ removed = collection.tabs[index] ∧
        left = collection.removeAt index hlen hindex := by
  rw [remove] at h
  split at h
  · rename_i hlen
    split at h
    · cases h
    · rename_i index hposition
      cases h
      have hid := idxOf?_some hposition
      rw [ids, List.getElem?_map, List.getElem?_eq_getElem (position_lt hposition)] at hid
      exact ⟨index, hlen, position_lt hposition, hposition, Option.some.inj hid, rfl, rfl⟩
  · cases h

theorem remove_isSome : (collection.remove id).isSome ↔ 1 < collection.tabs.length ∧ id ∈ collection.ids := by
  rw [remove]
  split
  · rename_i hlen
    split
    · rename_i hnone
      have hid : id ∉ collection.ids := List.idxOf?_eq_none_iff.mp hnone
      simp [hid]
    · rename_i index hposition
      have hid : id ∈ collection.ids := List.mem_of_getElem? (idxOf?_some hposition)
      simp [hid, hlen]
  · rename_i hlen
    simp [hlen]

/-! ## Moving the selected tabs -/

/-- The tabs are the same ones; those that are selected stand together, and the order is kept on both sides. -/
structure Regroups (collection moved : TabCollection T) : Prop where
  perm : moved.tabs.Perm collection.tabs
  selected : moved.tabs.filter collection.marks = collection.tabs.filter collection.marks
  others : (moved.tabs.filter fun tab => !collection.marks tab) = collection.tabs.filter fun tab => !collection.marks tab
  together : collection.tabs.filter collection.marks <:+: moved.tabs
  active : moved.activeId = collection.activeId
  selection : moved.selection = collection.selection

theorem marks_iff {tab : T} : collection.marks tab = true ↔ tabId tab ∈ collection.selection.selected := by
  simp [marks, isSelected, TabSelection.isSelected]

theorem filter_marks_of_selectedIds (h : collection.selectedIds = []) : collection.tabs.filter collection.marks = [] := by
  rw [selectedIds, ids, List.filter_map, List.map_eq_nil_iff] at h
  exact h

theorem regroups_refl (h : collection.tabs.filter collection.marks = []) : Regroups collection collection where
  perm := .refl _
  selected := rfl
  others := rfl
  together := by
    rw [h]
    exact List.nil_infix
  active := rfl
  selection := rfl

omit [IdentifiedTab T] in
theorem perm_inserted {tabs inserted : List T} {place : Nat} :
    (tabs.take place ++ inserted ++ tabs.drop place).Perm (inserted ++ tabs) := by
  have hswap : (tabs.take place ++ inserted).Perm (inserted ++ tabs.take place) := List.perm_append_comm
  have hall := hswap.append_right (tabs.drop place)
  rw [List.append_assoc inserted, List.take_append_drop] at hall
  exact hall

omit [IdentifiedTab T] in
/-- Marked tabs between the other ones are still the marked tabs, and the others the others. -/
theorem filter_regrouped (marks : T → Bool) (tabs : List T) (place : Nat) :
    let others := tabs.filter fun tab => !marks tab
    let moved := others.take place ++ tabs.filter marks ++ others.drop place
    moved.filter marks = tabs.filter marks ∧ (moved.filter fun tab => !marks tab) = others := by
  intro others moved
  have hothers : ∀ tab ∈ others, (!marks tab) = true := fun tab htab => (List.mem_filter.mp htab).2
  have htake : ∀ tab ∈ others.take place, (!marks tab) = true := fun tab htab => hothers tab (List.mem_of_mem_take htab)
  have hdrop : ∀ tab ∈ others.drop place, (!marks tab) = true := fun tab htab => hothers tab (List.mem_of_mem_drop htab)
  constructor
  · have hbefore : (others.take place).filter marks = [] :=
      List.filter_eq_nil_iff.mpr fun tab htab => by simpa using htake tab htab
    have hafter : (others.drop place).filter marks = [] :=
      List.filter_eq_nil_iff.mpr fun tab htab => by simpa using hdrop tab htab
    rw [List.filter_append, List.filter_append, List.filter_filter, hbefore, hafter]
    simp
  · rw [List.filter_append, List.filter_append, List.filter_eq_self.mpr htake, List.filter_eq_self.mpr hdrop,
      List.filter_eq_nil_iff.mpr, List.append_nil, List.take_append_drop]
    intro tab htab
    simpa using (List.mem_filter.mp htab).2

theorem regroups_reorderSelected (targetIndex : Nat) : Regroups collection (collection.reorderSelected targetIndex) := by
  rw [reorderSelected]
  split
  · rename_i hnone
    exact regroups_refl (filter_marks_of_selectedIds hnone)
  · have hperm : ∀ place, ((collection.tabs.filter fun tab => !collection.marks tab).take place ++
        collection.tabs.filter collection.marks ++
        (collection.tabs.filter fun tab => !collection.marks tab).drop place).Perm collection.tabs := by
      intro place
      exact perm_inserted.trans (List.filter_append_perm _ _)
    constructor
    · exact hperm _
    · exact (filter_regrouped _ _ _).1
    · exact (filter_regrouped _ _ _).2
    · exact ⟨_, _, rfl⟩
    · apply activeId_of_ids
      refine positionOr_of_mem ?_
      exact ((hperm _).map tabId).mem_iff.mpr activeId_mem
    · rfl

theorem Regroups.ids_mem {moved : TabCollection T} (h : Regroups collection moved) :
    id ∈ moved.ids ↔ id ∈ collection.ids :=
  (h.perm.map tabId).mem_iff

theorem Regroups.marked {moved : TabCollection T} (h : Regroups collection moved) (hmarked : collection.Marked) :
    moved.Marked where
  present := by
    intro id hid
    rw [h.ids_mem]
    exact hmarked.present id (h.selection ▸ hid)
  active := by
    rw [h.active, h.selection]
    exact hmarked.active
  anchor := by
    rw [h.ids_mem, h.selection]
    exact hmarked.anchor

/-- The tab at an end of the strip. -/
def edge (collection : TabCollection T) (forward : Bool) : Option T :=
  if forward then collection.tabs.getLast? else collection.tabs.head?

omit [IdentifiedTab T] in
theorem places_eq_nil (marks : T → Bool) (tabs : List T)
    (h : ((List.range tabs.length).filter fun index => (tabs[index]?).any marks) = []) : tabs.filter marks = [] := by
  rw [List.filter_eq_nil_iff] at h ⊢
  intro tab htab
  obtain ⟨index, hlt, rfl⟩ := List.getElem_of_mem htab
  have hnone := h index (List.mem_range.mpr hlt)
  rwa [List.getElem?_eq_getElem hlt, Option.any_some] at hnone

omit [IdentifiedTab T] in
theorem mem_places {marks : T → Bool} {tabs : List T} {index : Nat}
    (h : index ∈ (List.range tabs.length).filter fun index => (tabs[index]?).any marks) :
    index < tabs.length ∧ (tabs[index]?).any marks = true := by
  rw [List.mem_filter, List.mem_range] at h
  exact h

/-- The selected tabs move unless they are at the edge already, and then nothing changes. -/
theorem moveSelected_cases (forward : Bool) :
    ((collection.moveSelected forward).1 = true ∧ Regroups collection (collection.moveSelected forward).2) ∨
      collection.moveSelected forward = (false, collection) ∧
        (collection.tabs.filter collection.marks = [] ∨ (collection.edge forward).any collection.marks = true) := by
  rw [moveSelected]
  split
  · rename_i first last hfirst hlast
    split
    · rename_i hforward
      split
      · rename_i hedge
        refine .inr ⟨rfl, .inr ?_⟩
        obtain ⟨hlt, hmarked⟩ := mem_places (List.mem_of_getLast? hlast)
        have hend : collection.tabs.length - 1 = last := by omega
        rw [edge, if_pos hforward, List.getLast?_eq_getElem?, hend]
        exact hmarked
      · exact .inl ⟨rfl, regroups_reorderSelected _⟩
    · rename_i hbackward
      split
      · rename_i hedge
        refine .inr ⟨rfl, .inr ?_⟩
        obtain ⟨-, hmarked⟩ := mem_places (List.mem_of_mem_head? hfirst)
        rw [edge, if_neg hbackward, List.head?_eq_getElem?, ← hedge]
        exact hmarked
      · exact .inl ⟨rfl, regroups_reorderSelected _⟩
  · rename_i hnone
    refine .inr ⟨rfl, .inl (places_eq_nil _ _ ?_)⟩
    cases hplaces : (List.range collection.tabs.length).filter fun index => (collection.tabs[index]?).any collection.marks with
    | nil => rfl
    | cons first rest =>
      rw [hplaces] at hnone
      exact absurd (List.getLast?_eq_some_getLast (List.cons_ne_nil first rest)) (hnone first _ rfl)

/-! ## Moving tabs to another window -/

section Transfer

variable {fallback : T}

/-- Every tab is in the batch or stays, and the fallback is added if none would stay. -/
theorem extractSelected_perm :
    ((collection.extractSelected fallback).1.tabs ++ (collection.extractSelected fallback).2.tabs).Perm
      (collection.tabs ++ if collection.tabs.all collection.marks then [fallback] else []) := by
  have hsplit := List.filter_append_perm collection.marks collection.tabs
  by_cases hall : collection.tabs.all collection.marks = true
  · have hnone : (collection.tabs.filter fun tab => !collection.marks tab) = [] := by
      rw [List.filter_eq_nil_iff]
      intro tab htab
      simpa using List.all_eq_true.mp hall tab htab
    rw [hnone, List.append_nil] at hsplit
    rw [if_pos hall]
    show (collection.tabs.filter collection.marks ++ if _ then [fallback] else _).Perm _
    rw [if_pos hnone]
    exact hsplit.append_right _
  · have hsome : (collection.tabs.filter fun tab => !collection.marks tab) ≠ [] := by
      intro hnone
      refine hall (List.all_eq_true.mpr fun tab htab => ?_)
      simpa using List.filter_eq_nil_iff.mp hnone tab htab
    rw [if_neg hall, List.append_nil]
    show (collection.tabs.filter collection.marks ++ if _ then [fallback] else _).Perm _
    rw [if_neg hsome]
    exact hsplit

theorem extractSelected_length_le : (collection.extractSelected fallback).2.tabs.length ≤ collection.tabs.length := by
  show (if _ then [fallback] else _).length ≤ _
  split
  · exact Nat.zero_lt_of_lt collection.active_lt
  · exact List.length_filter_le _ _

/-- A batch with the active tab of its window and the selected ones. -/
structure Dragged (batch : TabBatch T) : Prop where
  active : batch.active ∈ batch.selected
  selected : ∀ id, id ∈ batch.selected ↔ id ∈ batch.tabs.map tabId

theorem Marked.dragged (h : collection.Marked) : Dragged (collection.extractSelected fallback).1 where
  active := by
    show collection.activeId ∈ collection.selectedIds.toFinset
    rw [List.mem_toFinset, mem_selectedIds]
    exact ⟨activeId_mem, h.active⟩
  selected := by
    intro id
    show id ∈ collection.selectedIds.toFinset ↔ id ∈ (collection.tabs.filter collection.marks).map tabId
    rw [List.mem_toFinset, selectedIds, ids, List.filter_map]
    rfl

/-- None of the tabs that stay is selected, so that the tab which becomes active is. -/
theorem Marked.extractSelected (h : collection.Marked) (hfresh : tabId fallback ∉ collection.ids) :
    (collection.extractSelected fallback).2.Marked := by
  refine marked_retainValidSelection (.inr fun id hid hmem => ?_)
  have hmem : id ∈ (if (collection.tabs.filter fun tab => !collection.marks tab) = [] then [fallback]
      else collection.tabs.filter fun tab => !collection.marks tab).map tabId := hmem
  split at hmem
  · rw [List.map_singleton, List.mem_singleton] at hmem
    exact hfresh (hmem ▸ h.present id hid)
  · obtain ⟨tab, htab, rfl⟩ := List.mem_map.mp hmem
    have hnot := (List.mem_filter.mp htab).2
    have hmarked : collection.marks tab = true := marks_iff.mpr hid
    rw [hmarked] at hnot
    cases hnot

variable {index : Nat} {batch : TabBatch T}

theorem insertBatch_perm : (collection.insertBatch index batch).tabs.Perm (batch.tabs ++ collection.tabs) := perm_inserted

/-- The dragged active tab is active again. -/
theorem insertBatch_activeId (h : batch.active ∈ batch.tabs.map tabId) :
    (collection.insertBatch index batch).activeId = batch.active := by
  apply activeId_of_ids
  refine positionOr_of_mem ?_
  rw [(insertBatch_perm.map tabId).mem_iff, List.map_append]
  exact List.mem_append_left _ h

theorem Dragged.insertBatch (h : Dragged batch) : (collection.insertBatch index batch).Marked := by
  have hids : ∀ id ∈ batch.tabs.map tabId, id ∈ (collection.insertBatch index batch).ids := by
    intro id hid
    rw [ids, (insertBatch_perm.map tabId).mem_iff, List.map_append]
    exact List.mem_append_left _ hid
  have hactive := (h.selected _).mp h.active
  refine ⟨fun id hid => hids id ((h.selected id).mp hid), ?_, hids _ hactive⟩
  rw [insertBatch_activeId hactive]
  exact h.active

end Transfer

end BetterWebBrowser.WindowsApp.TabCollection
