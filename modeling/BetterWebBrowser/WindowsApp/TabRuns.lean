import BetterWebBrowser.WindowsApp.TabInvariants

/-!
# Runs of the tab strips

Windows open, tabs are added, activated, selected, moved and removed, and selected tabs go from one
window to another. Identities stay unique over all windows.
-/

namespace BetterWebBrowser.WindowsApp

/-- A way to make a tab for an identity. -/
abbrev TabMaker (T : Type) [IdentifiedTab T] := { create : TabId → T // ∀ id, tabId (create id) = id }

/-- The counter after `allocate` gave out what it was at; the last value panics. -/
def TabId.allocate (next : TabId) : Option TabId := if next = 2 ^ 64 - 1 then none else some (next + 1)

/-- The windows, and the counter of identities. -/
structure Windows (T : Type) where
  collections : List (TabCollection T)
  nextTabId : TabId

inductive Action (T : Type) [IdentifiedTab T]
  | new (maker : TabMaker T)
  | add (window : Nat) (activate : Bool) (maker : TabMaker T)
  | activateExclusive (window : Nat) (id : TabId)
  | toggleSelection (window : Nat) (id : TabId)
  | selectRange (window : Nat) (id : TabId)
  | activateRelative (window : Nat) (forward : Bool)
  | activatePosition (window oneBased : Nat)
  | activateLast (window : Nat)
  | removeActive (window : Nat)
  | remove (window : Nat) (id : TabId)
  | reorderSelected (window targetIndex : Nat)
  | moveSelected (window : Nat) (forward : Bool)
  | transfer (source target index : Nat) (maker : TabMaker T)

namespace Windows

variable {T : Type} [IdentifiedTab T]

/-- The first window. -/
def start (maker : TabMaker T) : Windows T := ⟨[TabCollection.new (maker.1 TabId.first)], 2⟩

def allTabs (windows : Windows T) : List T := windows.collections.flatMap TabCollection.tabs

def update (windows : Windows T) (window : Nat) (change : TabCollection T → Option (TabCollection T)) :
    Option (Windows T) := do
  let collection ← windows.collections[window]?
  let changed ← change collection
  return { windows with collections := windows.collections.set window changed }

/-- One operation, if it applies: a window has to be there, an active tab is only removed if it is
not the last tab, and a batch goes into a window that has the capacity. -/
def step (windows : Windows T) : Action T → Option (Windows T)
  | .new maker => do
    let next ← TabId.allocate windows.nextTabId
    return ⟨windows.collections ++ [TabCollection.new (maker.1 windows.nextTabId)], next⟩
  | .add window activate maker => do
    let collection ← windows.collections[window]?
    match collection.add activate windows.nextTabId maker.1 with
    | none => return windows
    | some added => do
      let next ← TabId.allocate windows.nextTabId
      return ⟨windows.collections.set window added, next⟩
  | .activateExclusive window id => windows.update window fun collection => some (collection.activateExclusive id)
  | .toggleSelection window id => windows.update window fun collection => some (collection.toggleSelection id)
  | .selectRange window id => windows.update window fun collection => some (collection.selectRange id)
  | .activateRelative window forward => windows.update window fun collection => some (collection.activateRelative forward)
  | .activatePosition window oneBased =>
    windows.update window fun collection => some (collection.activatePosition oneBased)
  | .activateLast window => windows.update window fun collection => some collection.activateLast
  | .removeActive window =>
    windows.update window fun collection =>
      if h : 1 < collection.tabs.length then some (collection.removeActive h).2 else none
  | .remove window id =>
    windows.update window fun collection => some ((collection.remove id).elim collection Prod.snd)
  | .reorderSelected window targetIndex =>
    windows.update window fun collection => some (collection.reorderSelected targetIndex)
  | .moveSelected window forward => windows.update window fun collection => some (collection.moveSelected forward).2
  | .transfer source target index maker => do
    let collection ← windows.collections[source]?
    let next ← TabId.allocate windows.nextTabId
    let (batch, left) := collection.extractSelected (maker.1 windows.nextTabId)
    let collections := windows.collections.set source left
    let receiver ← collections[target]?
    if batch.tabs.length ≤ receiver.availableCapacity then
      return ⟨collections.set target (receiver.insertBatch index batch), next⟩
    else none

def run : Windows T → List (Action T) → Option (Windows T)
  | windows, [] => some windows
  | windows, action :: actions => do (← windows.step action).run actions

/-- Where the operation removes the active tab, no other tab is selected or the next active one is. -/
def KeepsActive (windows : Windows T) : Action T → Prop
  | .removeActive window => ∀ collection ∈ windows.collections[window]?, collection.Removable collection.active
  | .remove window id => ∀ collection ∈ windows.collections[window]?, 1 < collection.tabs.length →
      ∀ index ∈ collection.position id, collection.Removable index
  | _ => True

/-- All operations of a run do so. -/
def AllKeepActive : Windows T → List (Action T) → Prop
  | _, [] => True
  | windows, action :: actions =>
    windows.KeepsActive action ∧ ∀ windows' ∈ windows.step action, windows'.AllKeepActive actions

/-! ## Steps -/

variable {windows windows' : Windows T} {action : Action T}

/-- A change of one collection that adds no tab. -/
structure Kept (collection changed : TabCollection T) (keeps : Prop) : Prop where
  tabs : changed.tabs.Subperm collection.tabs
  marked : keeps → collection.ids.Nodup → collection.Marked → changed.Marked

theorem kept_of_tabs {collection changed : TabCollection T} {keeps : Prop} (htabs : changed.tabs = collection.tabs)
    (hmarked : collection.Marked → changed.Marked) : Kept collection changed keeps :=
  ⟨htabs ▸ List.Subperm.refl _, fun _ _ => hmarked⟩

theorem kept_removeAt {collection : TabCollection T} {index : Nat} {keeps : Prop} (hlen : 1 < collection.tabs.length)
    (hindex : index < collection.tabs.length) (h : keeps → collection.Removable index) :
    Kept collection (collection.removeAt index hlen hindex) keeps where
  tabs := (List.eraseIdx_sublist _ _).subperm
  marked := fun hkeeps hnodup hmarked => hmarked.removeAt hnodup (h hkeeps)

omit [IdentifiedTab T] in
theorem update_cases {window : Nat} {change : TabCollection T → Option (TabCollection T)}
    (h : windows.update window change = some windows') :
    ∃ collection changed, windows.collections[window]? = some collection ∧ change collection = some changed ∧
      windows' = { windows with collections := windows.collections.set window changed } := by
  rw [update] at h
  obtain ⟨collection, hcollection, h⟩ := Option.bind_eq_some_iff.mp h
  obtain ⟨changed, hchanged, h⟩ := Option.bind_eq_some_iff.mp h
  exact ⟨collection, changed, hcollection, hchanged, (Option.some.inj h).symm⟩

/-- What a step does, but for moving tabs between windows. -/
theorem step_cases (h : windows.step action = some windows') :
    windows' = windows ∨
      (∃ (maker : TabMaker T) (next : TabId), TabId.allocate windows.nextTabId = some next ∧
        windows' = ⟨windows.collections ++ [TabCollection.new (maker.1 windows.nextTabId)], next⟩) ∨
      (∃ window collection changed, windows.collections[window]? = some collection ∧
        Kept collection changed (windows.KeepsActive action) ∧
        windows' = { windows with collections := windows.collections.set window changed }) ∨
      (∃ (window : Nat) (collection added : TabCollection T) (activate : Bool) (maker : TabMaker T) (next : TabId),
        windows.collections[window]? = some collection ∧
        collection.add activate windows.nextTabId maker.1 = some added ∧ TabId.allocate windows.nextTabId = some next ∧
        windows' = ⟨windows.collections.set window added, next⟩) ∨
      ∃ source target index maker, action = .transfer source target index maker := by
  have hupdate : ∀ {window change}, windows.update window change = some windows' →
      (∀ collection changed, windows.collections[window]? = some collection → change collection = some changed →
        Kept collection changed (windows.KeepsActive action)) →
      ∃ window collection changed, windows.collections[window]? = some collection ∧
        Kept collection changed (windows.KeepsActive action) ∧
        windows' = { windows with collections := windows.collections.set window changed } := by
    intro window change hupdate hkept
    obtain ⟨collection, changed, hcollection, hchange, hwindows⟩ := update_cases hupdate
    exact ⟨window, collection, changed, hcollection, hkept _ _ hcollection hchange, hwindows⟩
  cases action with
  | new maker =>
    obtain ⟨next, hnext, h⟩ := Option.bind_eq_some_iff.mp h
    exact .inr (.inl ⟨maker, next, hnext, (Option.some.inj h).symm⟩)
  | add window activate maker =>
    obtain ⟨collection, hcollection, h⟩ := Option.bind_eq_some_iff.mp h
    split at h
    · exact .inl (Option.some.inj h).symm
    · rename_i added hadded
      obtain ⟨next, hnext, h⟩ := Option.bind_eq_some_iff.mp h
      exact .inr (.inr (.inr (.inl
        ⟨window, collection, added, activate, maker, next, hcollection, hadded, hnext, (Option.some.inj h).symm⟩)))
  | activateExclusive window id =>
    refine .inr (.inr (.inl (hupdate h ?_)))
    intro collection changed _ hchanged
    cases hchanged
    exact kept_of_tabs TabCollection.activateExclusive_tabs TabCollection.Marked.activateExclusive
  | toggleSelection window id =>
    refine .inr (.inr (.inl (hupdate h ?_)))
    intro collection changed _ hchanged
    cases hchanged
    exact kept_of_tabs TabCollection.toggleSelection_tabs TabCollection.Marked.toggleSelection
  | selectRange window id =>
    refine .inr (.inr (.inl (hupdate h ?_)))
    intro collection changed _ hchanged
    cases hchanged
    exact kept_of_tabs TabCollection.selectRange_tabs TabCollection.Marked.selectRange
  | activateRelative window forward =>
    refine .inr (.inr (.inl (hupdate h ?_)))
    intro collection changed _ hchanged
    cases hchanged
    rw [TabCollection.activateRelative]
    split
    · exact kept_of_tabs rfl fun _ => TabCollection.marked_activateIndex
    · exact kept_of_tabs rfl fun _ => TabCollection.marked_activateIndex
  | activatePosition window oneBased =>
    refine .inr (.inr (.inl (hupdate h ?_)))
    intro collection changed _ hchanged
    cases hchanged
    rw [TabCollection.activatePosition]
    split
    · exact kept_of_tabs rfl fun _ => TabCollection.marked_activateIndex
    · exact kept_of_tabs rfl id
  | activateLast window =>
    refine .inr (.inr (.inl (hupdate h ?_)))
    intro collection changed _ hchanged
    cases hchanged
    exact kept_of_tabs rfl fun _ => TabCollection.marked_activateIndex
  | removeActive window =>
    refine .inr (.inr (.inl (hupdate h ?_)))
    intro collection changed hcollection hchanged
    split at hchanged
    · rename_i hlen
      cases hchanged
      exact kept_removeAt hlen collection.active_lt fun hkeeps => hkeeps collection hcollection
    · cases hchanged
  | remove window id =>
    refine .inr (.inr (.inl (hupdate h ?_)))
    intro collection changed hcollection hchanged
    cases hremove : collection.remove id with
    | none =>
      rw [hremove] at hchanged
      cases hchanged
      exact kept_of_tabs rfl fun hmarked => hmarked
    | some result =>
      rw [hremove] at hchanged
      cases hchanged
      obtain ⟨index, hlen, hindex, hposition, -, -, hleft⟩ := TabCollection.remove_some hremove
      show Kept collection result.2 _
      rw [hleft]
      exact kept_removeAt hlen hindex fun hkeeps => hkeeps collection hcollection hlen index hposition
  | reorderSelected window targetIndex =>
    refine .inr (.inr (.inl (hupdate h ?_)))
    intro collection changed _ hchanged
    cases hchanged
    have hregroups : TabCollection.Regroups collection (collection.reorderSelected targetIndex) :=
      TabCollection.regroups_reorderSelected targetIndex
    exact ⟨hregroups.perm.subperm, fun _ _ => hregroups.marked⟩
  | moveSelected window forward =>
    refine .inr (.inr (.inl (hupdate h ?_)))
    intro collection changed _ hchanged
    cases hchanged
    have hcases : (collection.moveSelected forward).1 = true ∧ _ ∨ _ := TabCollection.moveSelected_cases forward
    rcases hcases with ⟨-, hregroups⟩ | ⟨hsame, -⟩
    · exact ⟨hregroups.perm.subperm, fun _ _ => hregroups.marked⟩
    · rw [hsame]
      exact kept_of_tabs rfl fun hmarked => hmarked
  | transfer source target index maker =>
    exact .inr (.inr (.inr (.inr ⟨source, target, index, maker, rfl⟩)))

/-! ## Identities -/

/-- The identities of tabs in windows and of tabs on their way are different ones that were given out. -/
structure Sound (collections : List (TabCollection T)) (moving : List TabId) (next : TabId) : Prop where
  unique : (moving ++ collections.flatMap TabCollection.ids).Nodup
  allocated : ∀ id ∈ moving ++ collections.flatMap TabCollection.ids, id < next
  bounded : ∀ collection ∈ collections, collection.tabs.length ≤ MAX_OPEN_TABS

variable {collections : List (TabCollection T)} {collection changed : TabCollection T} {window : Nat}
  {moving moving' fresh : List TabId} {next next' : TabId}

omit [IdentifiedTab T] in
/-- A list of what all collections have is that of one of them and a rest which does not change with it. -/
theorem flatMap_set {A : Type} (content : TabCollection T → List A) (h : collections[window]? = some collection) :
    ∃ rest, (collections.flatMap content).Perm (content collection ++ rest) ∧
      ∀ changed, ((collections.set window changed).flatMap content).Perm (content changed ++ rest) := by
  induction collections generalizing window with
  | nil => cases h
  | cons first others ih =>
    cases window with
    | zero =>
      obtain rfl : first = collection := Option.some.inj h
      exact ⟨others.flatMap content, .refl _, fun changed => .refl _⟩
    | succ window =>
      obtain ⟨rest, hbefore, hafter⟩ := ih h
      refine ⟨content first ++ rest, ?_, fun changed => ?_⟩
      · exact (hbefore.append_left _).trans (List.perm_append_comm_assoc _ _ _)
      · exact ((hafter changed).append_left _).trans (List.perm_append_comm_assoc _ _ _)

theorem Sound.ids_nodup (h : Sound collections moving next) (hcollection : collection ∈ collections) :
    collection.ids.Nodup := by
  obtain ⟨before, after, rfl⟩ := List.append_of_mem hcollection
  have hunique := (List.nodup_append.mp h.unique).2.1
  rw [List.flatMap_append, List.flatMap_cons] at hunique
  exact (List.nodup_append.mp (List.nodup_append.mp hunique).2.1).1

/-- One collection changes: identities may go, be on their way or be new. -/
theorem Sound.set (h : Sound collections moving next) (hcollection : collections[window]? = some collection)
    (hids : (moving' ++ changed.ids).Subperm (fresh ++ (moving ++ collection.ids)))
    (hfresh : fresh.Nodup) (hnew : ∀ id ∈ fresh, next ≤ id ∧ id < next') (hnext : next ≤ next')
    (hbounded : changed.tabs.length ≤ MAX_OPEN_TABS) : Sound (collections.set window changed) moving' next' := by
  obtain ⟨rest, hbefore, hafter⟩ := flatMap_set TabCollection.ids hcollection
  have hold : (fresh ++ (moving ++ collections.flatMap TabCollection.ids)).Nodup := by
    refine List.nodup_append.mpr ⟨hfresh, h.unique, fun a ha b hb hab => ?_⟩
    subst hab
    exact absurd (h.allocated a hb) (Nat.not_lt.mpr (hnew a ha).1)
  have hsub : (moving' ++ (collections.set window changed).flatMap TabCollection.ids).Subperm
      (fresh ++ (moving ++ collections.flatMap TabCollection.ids)) := by
    have hleft := ((hafter changed).append_left moving').subperm
    rw [← List.append_assoc] at hleft
    have hright := ((hbefore.append_left moving).append_left fresh).symm.subperm
    rw [← List.append_assoc moving, ← List.append_assoc fresh] at hright
    exact hleft.trans ((hids.append (List.Subperm.refl rest)).trans hright)
  constructor
  · obtain ⟨part, hperm, hsublist⟩ := hsub
    exact hperm.nodup_iff.mp (hold.sublist hsublist)
  · intro id hid
    rcases List.mem_append.mp (hsub.subset hid) with hmem | hmem
    · exact (hnew id hmem).2
    · exact (h.allocated id hmem).trans_le hnext
  · intro other hother
    rcases List.mem_or_eq_of_mem_set hother with hmem | rfl
    · exact h.bounded other hmem
    · exact hbounded

theorem Sound.new (h : Sound collections [] next) (maker : TabMaker T) :
    Sound (collections ++ [TabCollection.new (maker.1 next)]) [] (next + 1) := by
  have hids : (TabCollection.new (maker.1 next)).ids = [next] := by
    rw [TabCollection.ids, TabCollection.new, List.map_singleton, maker.2]
  constructor
  · rw [List.nil_append, List.flatMap_append, List.flatMap_singleton, hids]
    refine List.nodup_append.mpr ⟨h.unique, List.nodup_singleton _, fun a ha b hb hab => ?_⟩
    rw [hab, List.mem_singleton.mp hb] at ha
    exact absurd (h.allocated next ha) (Nat.lt_irrefl next)
  · intro id hid
    rw [List.nil_append, List.flatMap_append, List.flatMap_singleton, hids] at hid
    rcases List.mem_append.mp hid with hmem | hmem
    · exact (h.allocated id hmem).trans (Nat.lt_succ_self _)
    · rw [List.mem_singleton.mp hmem]
      exact Nat.lt_succ_self _
  · intro other hother
    rcases List.mem_append.mp hother with hmem | hmem
    · exact h.bounded other hmem
    · rw [List.mem_singleton.mp hmem]
      show 1 ≤ MAX_OPEN_TABS
      decide

/-! ## Moving tabs to another window -/

/-- The two halves of a transfer. -/
theorem transfer_cases {source target index : Nat} {maker : TabMaker T}
    (h : windows.step (.transfer source target index maker) = some windows') :
    ∃ collection receiver next,
      let extracted := collection.extractSelected (maker.1 windows.nextTabId)
      windows.collections[source]? = some collection ∧ TabId.allocate windows.nextTabId = some next ∧
        (windows.collections.set source extracted.2)[target]? = some receiver ∧
        extracted.1.tabs.length ≤ receiver.availableCapacity ∧
        windows' = ⟨(windows.collections.set source extracted.2).set target (receiver.insertBatch index extracted.1), next⟩ := by
  obtain ⟨collection, hcollection, h⟩ := Option.bind_eq_some_iff.mp h
  obtain ⟨next, hnext, h⟩ := Option.bind_eq_some_iff.mp h
  obtain ⟨receiver, hreceiver, h⟩ := Option.bind_eq_some_iff.mp h
  refine ⟨collection, receiver, next, hcollection, hnext, hreceiver, ?_⟩
  split at h
  · rename_i hcapacity
    exact ⟨hcapacity, (Option.some.inj h).symm⟩
  · cases h

theorem allocate_some {next next' : TabId} (h : TabId.allocate next = some next') : next' = next + 1 := by
  rw [TabId.allocate] at h
  split at h
  · cases h
  · exact (Option.some.inj h).symm

/-- Extracted tabs are on their way, and the fallback has a new identity. -/
theorem Sound.extractSelected (h : Sound collections [] next) (hcollection : collections[window]? = some collection)
    (maker : TabMaker T) :
    let extracted := collection.extractSelected (maker.1 next)
    Sound (collections.set window extracted.2) (extracted.1.tabs.map tabId) (next + 1) := by
  intro extracted
  have hperm : (extracted.1.tabs ++ extracted.2.tabs).Perm
      (collection.tabs ++ if collection.tabs.all collection.marks then [maker.1 next] else []) :=
    TabCollection.extractSelected_perm
  have hlength : extracted.2.tabs.length ≤ collection.tabs.length := TabCollection.extractSelected_length_le
  have hbounded := h.bounded collection (List.mem_of_getElem? hcollection)
  have hids : (extracted.1.tabs.map tabId ++ extracted.2.ids).Subperm ([next] ++ ([] ++ collection.ids)) := by
    have hids := hperm.map tabId
    rw [List.map_append, List.map_append] at hids
    refine (hids.trans List.perm_append_comm).subperm.trans ?_
    refine List.Subperm.append ?_ (List.Subperm.refl _)
    split
    · rw [List.map_singleton, maker.2]
    · exact List.nil_subperm
  exact h.set hcollection hids (List.nodup_singleton _) (by simp) (Nat.le_succ _) (hlength.trans hbounded)

theorem Sound.insertBatch {batch : TabBatch T} (h : Sound collections (batch.tabs.map tabId) next)
    (hcollection : collections[window]? = some collection) (hcapacity : batch.tabs.length ≤ collection.availableCapacity)
    (index : Nat) : Sound (collections.set window (collection.insertBatch index batch)) [] next := by
  have hperm : (collection.insertBatch index batch).tabs.Perm (batch.tabs ++ collection.tabs) :=
    TabCollection.insertBatch_perm
  have hbounded := h.bounded collection (List.mem_of_getElem? hcollection)
  refine h.set hcollection ?_ List.nodup_nil (by simp) le_rfl ?_
  · have hids := (hperm.map tabId).subperm
    rw [List.map_append] at hids
    exact hids
  · rw [hperm.length_eq, List.length_append]
    rw [TabCollection.availableCapacity] at hcapacity
    omega

/-! ## Runs -/

theorem Sound.step (h : Sound windows.collections [] windows.nextTabId) (hstep : windows.step action = some windows') :
    Sound windows'.collections [] windows'.nextTabId := by
  rcases step_cases hstep with rfl | ⟨maker, next, hnext, rfl⟩ | ⟨window, collection, changed, hcollection, hkept, rfl⟩ |
    ⟨window, collection, added, activate, maker, next, hcollection, hadded, hnext, rfl⟩ |
    ⟨source, target, index, maker, rfl⟩
  · exact h
  · rw [allocate_some hnext]
    exact h.new maker
  · obtain ⟨part, hperm, hsublist⟩ := hkept.tabs
    have hbounded := h.bounded collection (List.mem_of_getElem? hcollection)
    have hsub : ([] ++ changed.ids).Subperm ([] ++ ([] ++ collection.ids)) :=
      ⟨part.map tabId, hperm.map tabId, hsublist.map tabId⟩
    exact h.set hcollection hsub List.nodup_nil (by simp) le_rfl (hkept.tabs.length_le.trans hbounded)
  · obtain ⟨htabs, hroom, -⟩ := TabCollection.add_some (maker.2 _) hadded
    have hids : ([] ++ added.ids).Subperm ([windows.nextTabId] ++ ([] ++ collection.ids)) := by
      rw [List.nil_append, TabCollection.ids, htabs, List.map_append, List.map_singleton, maker.2]
      exact List.perm_append_comm.subperm
    rw [allocate_some hnext]
    refine h.set hcollection hids (List.nodup_singleton _) (by simp) (Nat.le_succ _) ?_
    rw [htabs, List.length_append]
    exact hroom
  · obtain ⟨collection, receiver, next, hcollection, hnext, hreceiver, hcapacity, rfl⟩ := transfer_cases hstep
    rw [allocate_some hnext]
    exact (h.extractSelected hcollection maker).insertBatch hreceiver hcapacity index

theorem marked_step (h : Sound windows.collections [] windows.nextTabId)
    (hmarked : ∀ collection ∈ windows.collections, collection.Marked) (hkeeps : windows.KeepsActive action)
    (hstep : windows.step action = some windows') : ∀ collection ∈ windows'.collections, collection.Marked := by
  rcases step_cases hstep with rfl | ⟨maker, next, hnext, rfl⟩ | ⟨window, collection, changed, hcollection, hkept, rfl⟩ |
    ⟨window, collection, added, activate, maker, next, hcollection, hadded, hnext, rfl⟩ |
    ⟨source, target, index, maker, rfl⟩
  · exact hmarked
  · intro other hother
    rcases List.mem_append.mp hother with hmem | hmem
    · exact hmarked other hmem
    · rw [List.mem_singleton.mp hmem]
      exact TabCollection.marked_new _
  · intro other hother
    have hmem := List.mem_of_getElem? hcollection
    rcases List.mem_or_eq_of_mem_set hother with hsame | rfl
    · exact hmarked other hsame
    · exact hkept.marked hkeeps (h.ids_nodup hmem) (hmarked collection hmem)
  · intro other hother
    rcases List.mem_or_eq_of_mem_set hother with hsame | rfl
    · exact hmarked other hsame
    · exact (TabCollection.add_some (maker.2 _) hadded).2.2 (hmarked collection (List.mem_of_getElem? hcollection))
  · obtain ⟨collection, receiver, next, hcollection, hnext, hreceiver, hcapacity, rfl⟩ := transfer_cases hstep
    have hmem := List.mem_of_getElem? hcollection
    have hfresh : tabId (maker.1 windows.nextTabId) ∉ collection.ids := by
      intro hold
      rw [maker.2] at hold
      have hlt := h.allocated windows.nextTabId (List.mem_flatMap.mpr ⟨collection, hmem, hold⟩)
      exact Nat.lt_irrefl _ hlt
    intro other hother
    rcases List.mem_or_eq_of_mem_set hother with hsame | rfl
    · rcases List.mem_or_eq_of_mem_set hsame with hsame | rfl
      · exact hmarked other hsame
      · exact (hmarked collection hmem).extractSelected hfresh
    · exact (hmarked collection hmem).dragged.insertBatch

variable {actions : List (Action T)}

theorem sound_run (h : Sound windows.collections [] windows.nextTabId) (hrun : windows.run actions = some windows') :
    Sound windows'.collections [] windows'.nextTabId := by
  induction actions generalizing windows with
  | nil =>
    cases hrun
    exact h
  | cons action actions ih =>
    obtain ⟨between, hstep, hrun⟩ := Option.bind_eq_some_iff.mp hrun
    exact ih (h.step hstep) hrun

theorem marked_run (h : Sound windows.collections [] windows.nextTabId)
    (hmarked : ∀ collection ∈ windows.collections, collection.Marked) (hkeeps : windows.AllKeepActive actions)
    (hrun : windows.run actions = some windows') : ∀ collection ∈ windows'.collections, collection.Marked := by
  induction actions generalizing windows with
  | nil =>
    cases hrun
    exact hmarked
  | cons action actions ih =>
    obtain ⟨between, hstep, hrun⟩ := Option.bind_eq_some_iff.mp hrun
    exact ih (h.step hstep) (marked_step h hmarked hkeeps.1 hstep) (hkeeps.2 between hstep) hrun

theorem sound_start (maker : TabMaker T) : Sound (start maker).collections [] (start maker).nextTabId := by
  constructor
  · simp [start, TabCollection.new, TabCollection.ids]
  · intro id hid
    simp [start, TabCollection.new, TabCollection.ids, maker.2] at hid
    subst hid
    show (1 : Nat) < 2
    decide
  · intro collection hcollection
    rw [start, List.mem_singleton] at hcollection
    subst hcollection
    show 1 ≤ MAX_OPEN_TABS
    decide

/-- What moving selected tabs does to all tabs, and which one is active in the window that gets them. -/
theorem transfer_tabs {source target index : Nat} {maker : TabMaker T} (hcollection : windows.collections[source]? = some collection)
    (hstep : windows.step (.transfer source target index maker) = some windows') :
    windows'.allTabs.Perm (windows.allTabs ++
        if collection.tabs.all collection.marks then [maker.1 windows.nextTabId] else []) ∧
      (collection.Marked → ∃ receiver, windows'.collections[target]? = some receiver ∧
        receiver.activeId = collection.activeId) := by
  obtain ⟨same, receiver, next, hsame, hnext, hreceiver, hcapacity, rfl⟩ := transfer_cases hstep
  obtain rfl : same = collection := Option.some.inj (hsame.symm.trans hcollection)
  constructor
  · obtain ⟨rest, hbefore, hafter⟩ := flatMap_set TabCollection.tabs hsame
    obtain ⟨others, hleft, hend⟩ := flatMap_set TabCollection.tabs hreceiver
    let extracted := same.extractSelected (maker.1 windows.nextTabId)
    have hextracted : (extracted.1.tabs ++ extracted.2.tabs).Perm
        (same.tabs ++ if same.tabs.all same.marks then [maker.1 windows.nextTabId] else []) :=
      TabCollection.extractSelected_perm
    have hinserted : (receiver.insertBatch index extracted.1).tabs.Perm (extracted.1.tabs ++ receiver.tabs) :=
      TabCollection.insertBatch_perm
    -- the batch is taken from one window's tabs and added to the other's
    have hbatch : (extracted.1.tabs ++ (extracted.2.tabs ++ rest)).Perm
        (windows.allTabs ++ if same.tabs.all same.marks then [maker.1 windows.nextTabId] else []) := by
      rw [← List.append_assoc]
      refine (hextracted.append_right rest).trans ?_
      rw [List.append_assoc]
      refine (List.perm_append_comm.append_left _).trans ?_
      rw [← List.append_assoc]
      exact hbefore.symm.append_right _
    refine (hend _).trans ((hinserted.append_right others).trans ?_)
    rw [List.append_assoc]
    exact (hleft.symm.append_left _).trans (((hafter _).append_left _).trans hbatch)
  · intro hmarked
    have hlt := (List.getElem?_eq_some_iff.mp hreceiver).1
    refine ⟨_, List.getElem?_set_self hlt, ?_⟩
    have hdragged : TabCollection.Dragged (same.extractSelected (maker.1 windows.nextTabId)).1 := hmarked.dragged
    exact TabCollection.insertBatch_activeId ((hdragged.selected _).mp hdragged.active)

/-- The rules of the tab strips, in every state of a run. -/
theorem tab_strips (maker : TabMaker T) (hrun : (start maker).run actions = some windows) :
    (windows.collections.flatMap TabCollection.ids).Nodup ∧
      ((start maker).AllKeepActive actions → ∀ collection ∈ windows.collections, collection.Marked) ∧
      (∀ collection ∈ windows.collections,
        collection.active < collection.tabs.length ∧ collection.tabs.length ≤ MAX_OPEN_TABS ∧
        (∀ targetIndex, TabCollection.Regroups collection (collection.reorderSelected targetIndex)) ∧
        (∀ forward,
          ((collection.moveSelected forward).1 = true ∧
              TabCollection.Regroups collection (collection.moveSelected forward).2) ∨
            collection.moveSelected forward = (false, collection) ∧
              (collection.tabs.filter collection.marks = [] ∨
                (collection.edge forward).any collection.marks = true)) ∧
        ∀ id, ((collection.remove id).isSome ↔ 1 < collection.tabs.length ∧ id ∈ collection.ids) ∧
          ∀ removed left, collection.remove id = some (removed, left) →
            tabId removed = id ∧ TabCollection.Removes collection removed left) ∧
      ∀ source target index fallback windows' collection,
        windows.step (.transfer source target index fallback) = some windows' →
          windows.collections[source]? = some collection →
            windows'.allTabs.Perm (windows.allTabs ++
                if collection.tabs.all collection.marks then [fallback.1 windows.nextTabId] else []) ∧
              ((start maker).AllKeepActive actions → ∃ receiver, windows'.collections[target]? = some receiver ∧
                receiver.activeId = collection.activeId) := by
  have hsound := sound_run (sound_start maker) hrun
  have hstart : ∀ collection ∈ (start maker).collections, collection.Marked := by
    intro collection hcollection
    rw [List.mem_singleton.mp hcollection]
    exact TabCollection.marked_new _
  have hmarked : (start maker).AllKeepActive actions → ∀ collection ∈ windows.collections, collection.Marked :=
    fun hkeeps => marked_run (sound_start maker) hstart hkeeps hrun
  refine ⟨hsound.unique, hmarked, ?_, ?_⟩
  · intro collection hcollection
    refine ⟨collection.active_lt, hsound.bounded collection hcollection, TabCollection.regroups_reorderSelected,
      TabCollection.moveSelected_cases, fun id => ⟨TabCollection.remove_isSome, fun removed left hremove => ?_⟩⟩
    obtain ⟨index, hlen, hindex, -, hid, rfl, rfl⟩ := TabCollection.remove_some hremove
    exact ⟨hid, TabCollection.removes_removeAt hlen hindex⟩
  · intro source target index fallback windows' collection hstep hcollection
    obtain ⟨htabs, hactive⟩ := transfer_tabs hcollection hstep
    exact ⟨htabs, fun hkeeps => hactive (hmarked hkeeps collection (List.mem_of_getElem? hcollection))⟩

instance : IdentifiedTab Nat := ⟨id⟩

/-- Tabs that are only identities. -/
def bareTabs : TabMaker Nat := ⟨id, fun _ => rfl⟩

/-- Two added tabs, the last and the first of which are selected. -/
def selectEnds : List (Action Nat) := [.add 0 false bareTabs, .add 0 false bareTabs, .toggleSelection 0 3]

theorem tab_strips_select_ends : ∃ windows, (start bareTabs).run selectEnds = some windows ∧
    (windows.collections.flatMap TabCollection.ids).Nodup := by
  have hsome : ((start bareTabs).run selectEnds).isSome = true := by decide
  obtain ⟨windows, hrun⟩ := Option.isSome_iff_exists.mp hsome
  exact ⟨windows, hrun, (tab_strips bareTabs hrun).1⟩

/-- Removing the active one of them leaves an active tab that is not selected, and at the end of the
strip they are not brought together. -/
theorem selection_without_active :
    (∃ windows, (start bareTabs).run (selectEnds ++ [.removeActive 0]) = some windows ∧
      ∃ collection ∈ windows.collections, collection.activeId ∉ collection.selection.selected) ∧
    ∃ windows, (start bareTabs).run selectEnds = some windows ∧
      ∃ collection ∈ windows.collections, ¬collection.tabs.filter collection.marks <:+:
        (collection.moveSelected true).2.tabs := by
  have hremoved : ((start bareTabs).run (selectEnds ++ [.removeActive 0])).any (fun windows =>
      windows.collections.any fun collection => decide (collection.activeId ∉ collection.selection.selected)) = true := by
    decide
  have hapart : ((start bareTabs).run selectEnds).any (fun windows => windows.collections.any fun collection =>
      !decide (collection.tabs.filter collection.marks <:+: (collection.moveSelected true).2.tabs)) = true := by
    decide
  simp only [Option.any_eq_true, List.any_eq_true, decide_eq_true_eq, Bool.not_eq_true', decide_eq_false_iff_not] at hremoved hapart
  exact ⟨hremoved, hapart⟩

end Windows

end BetterWebBrowser.WindowsApp
