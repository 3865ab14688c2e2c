import BetterWebBrowser.Dom.Slots
import BetterWebBrowser.Dom.Trees

/-!
# Manual slot assignment

A slot and the nodes that are assigned to it refer to each other. Assigning nodes releases
the old ones, takes the new ones from the slots they were in and installs them: between these
loops the nodes that the slot will have stand in for its list.
-/

namespace BetterWebBrowser.Dom

open Framework Relation

@[simp] theorem Heap.data_markMutated (heap : Heap) (id : NodeId) :
    (heap.markMutated id).data = heap.data := by
  funext other
  simp only [Heap.data, Heap.markMutated]
  split <;> rfl

namespace SlotHeap

variable {dom : SlotHeap} {slot node : NodeId}

def Live (dom : SlotHeap) (id : NodeId) : Prop := id ∉ dom.dropped

instance (dom : SlotHeap) : DecidablePred dom.Live := fun id => inferInstanceAs (Decidable (id ∉ dom.dropped))

def slotOf (dom : SlotHeap) (id : NodeId) : Option NodeId := (dom.manualSlotState id).assignedSlot

def nodesOf (dom : SlotHeap) (id : NodeId) : List NodeId := (dom.manualSlotState id).assignedNodes

theorem upgrade_eq_some {id found : NodeId} : dom.upgrade id = some found ↔ dom.Live id ∧ found = id := by
  rw [upgrade, Live]
  split
  · simp_all
  · simp_all [eq_comm]

theorem upgrade_ne_none {id : NodeId} : dom.upgrade id ≠ none ↔ dom.Live id := by
  rw [upgrade, Live]
  split <;> simp_all

theorem mem_upgraded {nodes : List NodeId} : node ∈ nodes.filterMap dom.upgrade ↔ node ∈ nodes ∧ dom.Live node := by
  rw [List.mem_filterMap]
  constructor
  · rintro ⟨id, hid, hfound⟩
    obtain ⟨hlive, rfl⟩ := upgrade_eq_some.mp hfound
    exact ⟨hid, hlive⟩
  · rintro ⟨hmem, hlive⟩
    exact ⟨node, hmem, upgrade_eq_some.mpr ⟨hlive, rfl⟩⟩

theorem priorSlot_eq_some {prior : NodeId} :
    dom.priorSlot node = some prior ↔ dom.slotOf node = some prior ∧ dom.Live prior := by
  rw [priorSlot, ← slotOf]
  cases dom.slotOf node with
  | none => simp
  | some found =>
    rw [Option.bind_some, upgrade_eq_some]
    constructor
    · rintro ⟨hlive, rfl⟩
      exact ⟨rfl, hlive⟩
    · rintro ⟨hfound, hlive⟩
      obtain rfl := Option.some.inj hfound
      exact ⟨hlive, rfl⟩

/-! ## What each update changes -/

@[simp] theorem slotOf_setAssignedSlot (id : NodeId) (target : Option NodeId) :
    (dom.setAssignedSlot node target).slotOf id = if id = node then target else dom.slotOf id := by
  simp only [slotOf, setAssignedSlot]
  split <;> rfl

@[simp] theorem nodesOf_setAssignedSlot (id : NodeId) (target : Option NodeId) :
    (dom.setAssignedSlot node target).nodesOf id = dom.nodesOf id := by
  simp only [nodesOf, setAssignedSlot]
  split <;> rfl

@[simp] theorem slotOf_setAssignedNodes (id : NodeId) (nodes : List NodeId) :
    (dom.setAssignedNodes slot nodes).slotOf id = dom.slotOf id := by
  simp only [slotOf, setAssignedNodes]
  split <;> rfl

@[simp] theorem nodesOf_setAssignedNodes (id : NodeId) (nodes : List NodeId) :
    (dom.setAssignedNodes slot nodes).nodesOf id = if id = slot then nodes else dom.nodesOf id := by
  simp only [nodesOf, setAssignedNodes]
  split <;> rfl

/-- The nodes and the dropped ones of two states are the same. -/
structure SameNodes (dom dom' : SlotHeap) : Prop where
  data : dom'.data = dom.data
  dropped : dom'.dropped = dom.dropped

theorem SameNodes.refl : SameNodes dom dom := ⟨rfl, rfl⟩

theorem SameNodes.trans {dom' dom'' : SlotHeap} (h : SameNodes dom dom') (h' : SameNodes dom' dom'') :
    SameNodes dom dom'' := ⟨h'.data.trans h.data, h'.dropped.trans h.dropped⟩

theorem SameNodes.live {dom' : SlotHeap} (h : SameNodes dom dom') (id : NodeId) : dom'.Live id ↔ dom.Live id := by
  rw [Live, Live, h.dropped]

theorem sameNodes_setAssignedSlot (target : Option NodeId) : SameNodes dom (dom.setAssignedSlot node target) :=
  ⟨rfl, rfl⟩

theorem sameNodes_setAssignedNodes (nodes : List NodeId) : SameNodes dom (dom.setAssignedNodes slot nodes) :=
  ⟨rfl, rfl⟩

/-! ## Releasing the old nodes -/

theorem foldl_release (hlive : dom.Live slot) (nodes : List NodeId) :
    SameNodes dom (nodes.foldl (fun dom node => dom.release slot node) dom) ∧
      ∀ id, (nodes.foldl (fun dom node => dom.release slot node) dom).nodesOf id = dom.nodesOf id ∧
        (nodes.foldl (fun dom node => dom.release slot node) dom).slotOf id =
          if id ∈ nodes ∧ dom.slotOf id = some slot then none else dom.slotOf id := by
  induction nodes generalizing dom with
  | nil => exact ⟨SameNodes.refl, fun id => ⟨rfl, by simp⟩⟩
  | cons node nodes ih =>
    have hsame : SameNodes dom (dom.release slot node) := by
      rw [release]
      split
      · exact sameNodes_setAssignedSlot _
      · exact SameNodes.refl
    obtain ⟨hrest, heach⟩ := ih ((hsame.live slot).mpr hlive)
    refine ⟨hsame.trans hrest, fun id => ?_⟩
    obtain ⟨hnodes, hslot⟩ := heach id
    rw [List.foldl_cons]
    refine ⟨hnodes.trans ?_, hslot.trans ?_⟩
    · rw [release]
      split
      · exact nodesOf_setAssignedSlot _ _
      · rfl
    · by_cases hprior : dom.priorSlot node = some slot
      · have hold : dom.slotOf node = some slot := (priorSlot_eq_some.mp hprior).1
        rw [release, if_pos hprior]
        by_cases hid : id = node
        · simp [hid, hold]
        · simp [hid]
      · have hold : dom.slotOf node ≠ some slot := fun hold => hprior (priorSlot_eq_some.mpr ⟨hold, hlive⟩)
        rw [release, if_neg hprior]
        by_cases hid : id = node
        · simp [hid, hold]
        · simp [hid]

/-! ## Assigning the new ones -/

/-- Between the arguments: each list says which nodes refer to its slot, where the nodes
assigned so far are the list of the slot at work. -/
structure Assigned (start : SlotHeap) (slot : NodeId) (state : Assigning) : Prop where
  same : SameNodes start state.dom
  own : ∀ n, start.Live n → (n ∈ state.assigned ↔ state.dom.slotOf n = some slot)
  others : ∀ n s, start.Live n → start.Live s → s ≠ slot →
    (n ∈ state.dom.nodesOf s ↔ state.dom.slotOf n = some s)
  nodup : ∀ s, (state.dom.nodesOf s).Nodup
  assignedNodup : state.assigned.Nodup
  slotAffected : slot ∈ state.affected
  unchanged : ∀ s, s ∉ state.affected → state.dom.nodesOf s = start.nodesOf s

/-- The node joins the slot when no other live slot has it. -/
private theorem Assigned.join {start : SlotHeap} {state : Assigning} (h : Assigned start slot state)
    {moved : SlotHeap} {affected : List NodeId} (hfresh : node ∉ state.assigned) (hsame : SameNodes state.dom moved)
    (hslots : ∀ id, moved.slotOf id = state.dom.slotOf id)
    (hlists : ∀ n s, start.Live n → start.Live s → s ≠ slot →
      (n ∈ moved.nodesOf s ↔ state.dom.slotOf n = some s ∧ n ≠ node))
    (hnodup : ∀ s, (moved.nodesOf s).Nodup) (haffected : slot ∈ affected)
    (hunchanged : ∀ s, s ∉ affected → moved.nodesOf s = start.nodesOf s) :
    Assigned start slot ⟨moved.setAssignedSlot node (some slot), state.assigned ++ [node], affected⟩ where
  same := (h.same.trans hsame).trans (sameNodes_setAssignedSlot _)
  own := by
    intro n hn
    rw [slotOf_setAssignedSlot, hslots, List.mem_append, List.mem_singleton, h.own n hn]
    by_cases hid : n = node
    · simp [hid]
    · simp [hid]
  others := by
    intro n s hn hs hne
    rw [nodesOf_setAssignedSlot, slotOf_setAssignedSlot, hlists n s hn hs hne, hslots]
    by_cases hid : n = node
    · simp [hid, Ne.symm hne]
    · simp [hid]
  nodup := by
    intro s
    rw [nodesOf_setAssignedSlot]
    exact hnodup s
  assignedNodup := by
    rw [List.nodup_append]
    refine ⟨h.assignedNodup, List.nodup_singleton node, ?_⟩
    rintro a ha b hb rfl
    exact hfresh (List.mem_singleton.mp hb ▸ ha)
  slotAffected := haffected
  unchanged := by
    intro s hs
    rw [nodesOf_setAssignedSlot]
    exact hunchanged s hs

theorem Assigned.step {start : SlotHeap} {state : Assigning} (h : Assigned start slot state)
    (hnode : start.Live node) : Assigned start slot (assignNode slot state node) := by
  rw [assignNode]
  split
  · exact h
  · rename_i hskip
    simp only [Bool.or_eq_true, decide_eq_true_eq, not_or] at hskip
    have hfresh : node ∉ state.assigned := hskip.2
    have hother : state.dom.slotOf node ≠ some slot := fun hown => hfresh ((h.own node hnode).mpr hown)
    split
    · rename_i hprior
      -- The node is in no live slot.
      have hfree : ∀ s, start.Live s → state.dom.slotOf node ≠ some s := by
        intro s hs hown
        have hsome : state.dom.priorSlot node = some s :=
          priorSlot_eq_some.mpr ⟨hown, (h.same.live s).mpr hs⟩
        have hne : s ≠ slot := fun heq => hother (heq ▸ hown)
        rw [hsome, Option.filter_some, if_pos (by simpa using hne)] at hprior
        cases hprior
      refine h.join hfresh SameNodes.refl (fun _ => rfl) ?_ h.nodup h.slotAffected h.unchanged
      intro n s hn hs hne
      rw [h.others n s hn hs hne]
      constructor
      · intro hown
        exact ⟨hown, fun heq => hfree s hs (heq ▸ hown)⟩
      · exact fun hown => hown.1
    · rename_i prior hprior
      obtain ⟨hprior, hne⟩ := Option.filter_eq_some_iff.mp hprior
      obtain ⟨hown, hlive⟩ := priorSlot_eq_some.mp hprior
      have hlists : ∀ n s, start.Live n → start.Live s → s ≠ slot →
          (n ∈ (state.dom.setAssignedNodes prior ((state.dom.manualSlotState prior).assignedNodes.filter
            fun candidate => decide (state.dom.upgrade candidate ≠ none ∧ candidate ≠ node))).nodesOf s ↔
            state.dom.slotOf n = some s ∧ n ≠ node) := by
        intro n s hn hs hne
        have hkept : state.dom.upgrade n ≠ none := upgrade_ne_none.mpr ((h.same.live n).mpr hn)
        rw [nodesOf_setAssignedNodes]
        split
        · rename_i hs
          rw [hs, ← h.others n prior hn ((h.same.live prior).mp hlive) (by simpa using hs ▸ hne)]
          simp [hkept, nodesOf]
        · rename_i hs
          rw [h.others n s hn (by assumption) hne]
          constructor
          · intro hmem
            refine ⟨hmem, fun heq => hs ?_⟩
            rw [heq, hown] at hmem
            exact (Option.some.inj hmem).symm
          · exact fun hmem => hmem.1
      refine h.join hfresh (sameNodes_setAssignedNodes _) (fun _ => slotOf_setAssignedNodes _ _)
        hlists ?_ ?_ ?_
      · intro s
        rw [nodesOf_setAssignedNodes]
        split
        · exact (h.nodup prior).filter _
        · exact h.nodup s
      · split
        · exact h.slotAffected
        · exact List.mem_append_left _ h.slotAffected
      · intro s hs
        have hparts : s ∉ state.affected ∧ s ≠ prior := by
          split at hs
          · rename_i hmem
            exact ⟨hs, fun heq => hs (heq ▸ hmem)⟩
          · simpa using hs
        rw [nodesOf_setAssignedNodes, if_neg hparts.2]
        exact h.unchanged s hparts.1

theorem Assigned.run {start : SlotHeap} {nodes : List NodeId} {state : Assigning}
    (h : Assigned start slot state) (hnodes : ∀ node ∈ nodes, start.Live node) :
    Assigned start slot (nodes.foldl (assignNode slot) state) := by
  induction nodes generalizing state with
  | nil => exact h
  | cons node nodes ih =>
    exact ih (h.step (hnodes node (by simp))) fun other hother => hnodes other (by simp [hother])

/-- The slottable arguments in the order in which they occur first. -/
def distinctSlottables (dom : SlotHeap) (nodes : List NodeId) : List NodeId :=
  (nodes.filter fun node => (dom.data node).isSlottable).eraseDups

theorem assigned_assignNode (state : Assigning) (node : NodeId) :
    (assignNode slot state node).assigned =
      if (state.dom.data node).isSlottable ∧ node ∉ state.assigned then state.assigned ++ [node]
      else state.assigned := by
  rw [assignNode]
  split
  · rename_i hskip
    rw [if_neg]
    simpa [imp_iff_not_or] using hskip
  · rename_i hskip
    rw [if_pos (by simpa using hskip)]
    split <;> rfl

theorem data_assignNode (state : Assigning) (node : NodeId) :
    (assignNode slot state node).dom.data = state.dom.data := by
  rw [assignNode]
  split
  · rfl
  · split <;> rfl

theorem assigned_run (slot : NodeId) (nodes : List NodeId) {state : Assigning} (hdata : state.dom.data = dom.data) :
    (nodes.foldl (assignNode slot) state).assigned =
      state.assigned ++ dom.distinctSlottables (nodes.filter fun node => decide (node ∉ state.assigned)) := by
  induction nodes generalizing state with
  | nil => simp [distinctSlottables]
  | cons node nodes ih =>
    rw [List.foldl_cons, ih ((data_assignNode state node).trans hdata), assigned_assignNode, hdata]
    by_cases hslottable : (dom.data node).isSlottable
    · by_cases hseen : node ∈ state.assigned
      · simp [hslottable, hseen]
      · rw [if_pos ⟨hslottable, hseen⟩, List.filter_cons_of_pos (by simpa using hseen), List.append_assoc]
        have hfilter : (nodes.filter fun other => decide (other ∉ state.assigned ++ [node])).filter
              (fun other => (dom.data other).isSlottable) =
            ((nodes.filter fun other => decide (other ∉ state.assigned)).filter
              fun other => (dom.data other).isSlottable).filter fun other => !other == node := by
          simp only [List.filter_filter]
          congr 1
          funext other
          by_cases hother : other = node
          · simp [hother]
          · simp [hother]
        rw [distinctSlottables, distinctSlottables, hfilter, List.filter_cons, if_pos hslottable,
          List.eraseDups_cons, List.singleton_append]
    · rw [if_neg (by simp [hslottable])]
      by_cases hseen : node ∈ state.assigned
      · simp [hseen]
      · rw [List.filter_cons_of_pos (by simpa using hseen)]
        simp [distinctSlottables, hslottable]

/-! ## Runs -/

/-- The two sides of every assignment agree. -/
structure ManualLinks (dom : SlotHeap) : Prop where
  twoWay : ∀ n s, dom.Live n → dom.Live s → (n ∈ dom.nodesOf s ↔ dom.slotOf n = some s)
  nodup : ∀ s, (dom.nodesOf s).Nodup

theorem manualSlotState_foldl_markMutated (ids : List NodeId) (dom : SlotHeap) :
    (ids.foldl markMutated dom).manualSlotState = dom.manualSlotState ∧
      SameNodes dom (ids.foldl markMutated dom) := by
  induction ids generalizing dom with
  | nil => exact ⟨rfl, SameNodes.refl⟩
  | cons id ids ih =>
    obtain ⟨hstate, hsame⟩ := ih (dom.markMutated id)
    have hfirst : SameNodes dom (dom.markMutated id) := ⟨Heap.data_markMutated dom.toHeap id, rfl⟩
    exact ⟨hstate, hfirst.trans hsame⟩

/-- The assignment took effect: the slot is one of a manual shadow tree. -/
def Assignable (dom : SlotHeap) (slot : NodeId) : Prop :=
  dom.isSlot slot = true ∧ (dom.data (dom.treeRoot slot)).isManual = true

theorem assignManualNodes_unassignable {nodes : List NodeId} (h : ¬ dom.Assignable slot) :
    dom.assignManualNodes slot nodes = (dom, []) := by
  rw [assignManualNodes]
  split
  · rfl
  · split
    · rfl
    · simp_all [Assignable]

/-- What a call leaves: the links, the list of the slot, and the lists of the slots that it
does not return. -/
structure AfterAssign (dom : SlotHeap) (slot : NodeId) (nodes : List NodeId)
    (result : SlotHeap × List NodeId) : Prop where
  same : SameNodes dom result.1
  links : result.1.ManualLinks
  installed : result.1.nodesOf slot = dom.distinctSlottables nodes
  unaffected : ∀ s, s ∉ result.2 → result.1.nodesOf s = dom.nodesOf s

/-- After the first loop no live node refers to the slot. -/
theorem ManualLinks.released (h : dom.ManualLinks) (hslot : dom.Live slot) :
    Assigned dom slot ⟨((dom.manualSlotState slot).assignedNodes.filterMap dom.upgrade).foldl
      (fun dom node => dom.release slot node) (dom.setAssignedNodes slot []), [], [slot]⟩ := by
  have hcleared : (dom.setAssignedNodes slot []).Live slot := hslot
  obtain ⟨hsame, heach⟩ :=
    foldl_release hcleared ((dom.manualSlotState slot).assignedNodes.filterMap dom.upgrade)
  refine ⟨(sameNodes_setAssignedNodes _).trans hsame, ?_, ?_, ?_, List.nodup_nil, by simp, ?_⟩
  · intro n hn
    rw [(heach n).2, slotOf_setAssignedNodes]
    by_cases hown : dom.slotOf n = some slot
    · have hmem : n ∈ (dom.manualSlotState slot).assignedNodes.filterMap dom.upgrade :=
        mem_upgraded.mpr ⟨(h.twoWay n slot hn hslot).mpr hown, hn⟩
      simp [hown, hmem]
    · simp [hown]
  · intro n s hn hs hne
    rw [(heach s).1, (heach n).2, nodesOf_setAssignedNodes, slotOf_setAssignedNodes, if_neg hne,
      h.twoWay n s hn hs]
    by_cases hown : dom.slotOf n = some slot
    · split <;> simp [hown, Ne.symm hne]
    · simp [hown]
  · intro s
    rw [(heach s).1, nodesOf_setAssignedNodes]
    split
    · exact List.nodup_nil
    · exact h.nodup s
  · intro s hs
    rw [(heach s).1, nodesOf_setAssignedNodes, if_neg (by simpa using hs)]

theorem assignManualNodes_assignable {nodes : List NodeId} (h : dom.Assignable slot) :
    dom.assignManualNodes slot nodes =
      let final := nodes.foldl (assignNode slot)
        ⟨((dom.manualSlotState slot).assignedNodes.filterMap dom.upgrade).foldl
          (fun dom node => dom.release slot node) (dom.setAssignedNodes slot []), [], [slot]⟩
      (final.affected.foldl markMutated (final.dom.setAssignedNodes slot final.assigned), final.affected) := by
  rw [assignManualNodes, if_neg (by simp [h.1]), if_neg (by simp [h.2])]

theorem ManualLinks.assign {nodes : List NodeId} (h : dom.ManualLinks) (hassignable : dom.Assignable slot)
    (hslot : dom.Live slot) (hnodes : ∀ node ∈ nodes, dom.Live node) :
    AfterAssign dom slot nodes (dom.assignManualNodes slot nodes) := by
  have hstart := h.released hslot
  have hrun := hstart.run hnodes
  have hassigned := assigned_run slot nodes hstart.same.data
  rw [assignManualNodes_assignable hassignable]
  generalize nodes.foldl (assignNode slot) _ = final at hrun hassigned ⊢
  obtain ⟨hstate, hmarked⟩ :=
    manualSlotState_foldl_markMutated final.affected (final.dom.setAssignedNodes slot final.assigned)
  have hslots : ∀ id, (final.affected.foldl markMutated
      (final.dom.setAssignedNodes slot final.assigned)).slotOf id = final.dom.slotOf id := by
    intro id
    rw [slotOf, hstate, ← slotOf, slotOf_setAssignedNodes]
  have hlists : ∀ id, (final.affected.foldl markMutated
      (final.dom.setAssignedNodes slot final.assigned)).nodesOf id =
        if id = slot then final.assigned else final.dom.nodesOf id := by
    intro id
    rw [nodesOf, hstate, ← nodesOf, nodesOf_setAssignedNodes]
  have hsame := (hrun.same.trans (sameNodes_setAssignedNodes _)).trans hmarked
  refine ⟨hsame, ⟨?_, ?_⟩, ?_, ?_⟩
  · intro n s hn hs
    rw [hlists, hslots]
    split
    · rename_i heq
      rw [heq]
      exact hrun.own n ((hsame.live n).mp hn)
    · rename_i hne
      exact hrun.others n s ((hsame.live n).mp hn) ((hsame.live s).mp hs) hne
  · intro s
    rw [hlists]
    split
    · exact hrun.assignedNodup
    · exact hrun.nodup s
  · rw [hlists, if_pos rfl, hassigned]
    simp
  · intro s hs
    have hne : s ≠ slot := by
      rintro rfl
      exact hs hrun.slotAffected
    rw [hlists, if_neg hne]
    exact hrun.unchanged s hs

/-! ## Reachable states -/

/-- A call on a slot and nodes that are held, any other operation on the nodes, or nodes that
are dropped; identities are never given out twice. -/
inductive SlotStep : SlotHeap → SlotHeap → Prop
  | assign (dom : SlotHeap) (slot : NodeId) (nodes : List NodeId) (hslot : dom.Live slot)
      (hnodes : ∀ node ∈ nodes, dom.Live node) : SlotStep dom (dom.assignManualNodes slot nodes).1
  | mutate (dom : SlotHeap) (heap : Heap) : SlotStep dom { dom with toHeap := heap }
  | drop (dom : SlotHeap) (ids : List NodeId) : SlotStep dom { dom with dropped := dom.dropped ++ ids }

/-- Nodes without any assignments. -/
def initial (heap : Heap) : SlotHeap := ⟨heap, fun _ => .default, []⟩

def Reachable (dom : SlotHeap) : Prop := ∃ heap, ReflTransGen SlotStep (initial heap) dom

theorem ManualLinks.initial (heap : Heap) : (initial heap).ManualLinks where
  twoWay := by simp [SlotHeap.initial, nodesOf, slotOf, ManualSlotState.default]
  nodup := by simp [SlotHeap.initial, nodesOf, ManualSlotState.default]

theorem SlotStep.keeps {dom' : SlotHeap} (hstep : SlotStep dom dom') (h : dom.ManualLinks) :
    dom'.ManualLinks := by
  cases hstep with
  | assign slot nodes hslot hnodes =>
    by_cases hassignable : dom.Assignable slot
    · exact (h.assign hassignable hslot hnodes).links
    · rw [assignManualNodes_unassignable hassignable]
      exact h
  | mutate heap => exact ⟨h.twoWay, h.nodup⟩
  | drop ids =>
    refine ⟨?_, h.nodup⟩
    intro n s hn hs
    exact h.twoWay n s (fun hmem => hn (List.mem_append_left _ hmem))
      (fun hmem => hs (List.mem_append_left _ hmem))

theorem Reachable.links (h : dom.Reachable) : dom.ManualLinks := by
  obtain ⟨heap, hrun⟩ := h
  induction hrun with
  | refl => exact ManualLinks.initial heap
  | tail _ hlast ih => exact hlast.keeps ih

/-! ## What slots show -/

/-- A node's slot is one of the shadow tree of its parent. -/
theorem assignedSlot_cases {found : NodeId} (wf : dom.WellFormed) (h : dom.assignedSlot node = some found) :
    ∃ host shadow, dom.parent node = some host ∧ dom.shadowRoot host = some shadow ∧
      dom.isSlot found = true ∧ dom.treeRoot found = shadow ∧
      ((dom.data shadow).isManual = true → dom.priorSlot node = some found) := by
  simp only [assignedSlot, Option.bind_eq_bind, Option.bind_eq_some_iff] at h
  obtain ⟨host, hhost, shadow, hshadow, h⟩ := h
  refine ⟨host, shadow, hhost, hshadow, ?_⟩
  have hroot : dom.parent shadow = none := wf.rootParent _ _ (wf.hostLinks _ _ hshadow)
  split at h
  · obtain ⟨assigned, hassigned, h⟩ := Option.bind_eq_some_iff.mp h
    split at h
    · rename_i htests
      obtain rfl := Option.some.inj h
      simp only [Bool.and_eq_true, decide_eq_true_eq] at htests
      exact ⟨htests.1, htests.2, fun _ => hassigned⟩
    · cases h
  · rename_i hnamed
    have htests := List.find?_some h
    simp only [Bool.and_eq_true] at htests
    have hmem := List.mem_of_mem_tail (List.mem_of_find?_eq_some h)
    exact ⟨htests.1, wf.treeRoot_eq (wf.reaches_descendants hmem) hroot, fun hmanual => absurd hmanual hnamed⟩

theorem assignedSlot_of_mem (h : node ∈ dom.assignedNodes slot) : dom.assignedSlot node = some slot := by
  rw [assignedNodes] at h
  split at h
  · split at h
    · cases h
    · rw [directlyAssigned] at h
      split at h
      · simp only [List.mem_filter, Bool.and_eq_true, decide_eq_true_eq] at h
        exact h.2.2
      · simp only [List.mem_filter, Bool.and_eq_true, decide_eq_true_eq] at h
        exact h.2.2
  · cases h

/-- What a slot of a manual tree shows is what refers to it. -/
theorem mem_assignedNodes (wf : dom.WellFormed) (hlinks : dom.ManualLinks) (hnode : dom.Live node)
    (hslot : dom.Live slot) (hmanual : (dom.data (dom.treeRoot slot)).isManual = true) :
    node ∈ dom.assignedNodes slot ↔ dom.assignedSlot node = some slot := by
  refine ⟨assignedSlot_of_mem, fun hassigned => ?_⟩
  obtain ⟨host, shadow, hhost, hshadow, hisSlot, hroot, hprior⟩ := assignedSlot_cases wf hassigned
  have hback : dom.shadowHost (dom.treeRoot slot) = some host := by
    rw [hroot]
    exact wf.hostLinks _ _ hshadow
  have hrefers : dom.slotOf node = some slot := (priorSlot_eq_some.mp (hprior (hroot ▸ hmanual))).1
  have hlisted : node ∈ dom.nodesOf slot := (hlinks.twoWay node slot hnode hslot).mpr hrefers
  rw [assignedNodes, if_pos hisSlot, hback]
  show node ∈ dom.directlyAssigned slot (dom.treeRoot slot) host
  rw [directlyAssigned, if_pos hmanual, List.mem_filter, mem_upgraded]
  refine ⟨⟨hlisted, hnode⟩, ?_⟩
  simp [hhost, hassigned]

/-- In every reachable state a node is in the list of the slot that it refers to and in no
other one, and so for what slots show. A call leaves the slot with the distinct slottable
arguments, and returns every slot whose list it changed. -/
theorem manual_assignment (h : dom.Reachable) :
    (∀ n s, dom.Live n → dom.Live s → (n ∈ dom.nodesOf s ↔ dom.slotOf n = some s)) ∧
      (∀ s, (dom.nodesOf s).Nodup) ∧
      (dom.WellFormed → ∀ n s, dom.Live n → dom.Live s → (dom.data (dom.treeRoot s)).isManual = true →
        (n ∈ dom.assignedNodes s ↔ dom.assignedSlot n = some s)) ∧
      ∀ slot nodes, dom.Live slot → (∀ node ∈ nodes, dom.Live node) →
        (dom.Assignable slot →
          (dom.assignManualNodes slot nodes).1.nodesOf slot = dom.distinctSlottables nodes) ∧
        ∀ s, (dom.assignManualNodes slot nodes).1.nodesOf s ≠ dom.nodesOf s →
          s ∈ (dom.assignManualNodes slot nodes).2 := by
  have hlinks := h.links
  refine ⟨hlinks.twoWay, hlinks.nodup, ?_, ?_⟩
  · intro wf n s hn hs hmanual
    exact mem_assignedNodes wf hlinks hn hs hmanual
  · intro slot nodes hslot hnodes
    by_cases hassignable : dom.Assignable slot
    · have hafter := hlinks.assign hassignable hslot hnodes
      refine ⟨fun _ => hafter.installed, fun s hchanged => ?_⟩
      by_contra hnot
      exact hchanged (hafter.unaffected s hnot)
    · refine ⟨fun h => absurd h hassignable, fun s hchanged => ?_⟩
      rw [assignManualNodes_unassignable hassignable] at hchanged
      exact absurd rfl hchanged

/-! A host with two slots in its manual shadow tree; its child moves from one to the other. -/

private def slotElement (shadowRoot : Option NodeId) (tag : String) : NodeData :=
  .element ⟨⟨none, "http://www.w3.org/1999/xhtml".toList, tag.toList⟩, [], none, shadowRoot, false⟩

private def manualRoot : NodeData :=
  .shadowRoot ⟨⟨1, 0⟩, .opened, false, true, false, false, true, false, false, false⟩

private def manualNode (id : NodeId) : Node :=
  if id = ⟨1, 0⟩ then ⟨none, [⟨1, 4⟩], slotElement (some ⟨1, 1⟩) "div", 0, 0⟩
  else if id = ⟨1, 1⟩ then ⟨none, [⟨1, 2⟩, ⟨1, 3⟩], manualRoot, 0, 0⟩
  else if id = ⟨1, 2⟩ ∨ id = ⟨1, 3⟩ then ⟨some ⟨1, 1⟩, [], slotElement none "slot", 0, 0⟩
  else if id = ⟨1, 4⟩ then ⟨some ⟨1, 0⟩, [], slotElement none "p", 0, 0⟩
  else .isolated .document

private def manualHeap : Heap :=
  ⟨[⟨1, 0⟩, ⟨1, 1⟩, ⟨1, 2⟩, ⟨1, 3⟩, ⟨1, 4⟩], manualNode, fun _ => ⟨5, 0⟩⟩

private def movedOnce : SlotHeap := ((initial manualHeap).assignManualNodes ⟨1, 2⟩ [⟨1, 4⟩]).1

private theorem reachable_movedOnce : movedOnce.Reachable :=
  ⟨manualHeap, .single (.assign (initial manualHeap) ⟨1, 2⟩ [⟨1, 4⟩] (by decide) (by decide))⟩

theorem manual_assignment_sample :
    (⟨1, 4⟩ ∈ movedOnce.nodesOf ⟨1, 2⟩ ↔ movedOnce.slotOf ⟨1, 4⟩ = some ⟨1, 2⟩) ∧
      (movedOnce.assignManualNodes ⟨1, 3⟩ [⟨1, 4⟩, ⟨1, 4⟩]).1.nodesOf ⟨1, 3⟩ = [⟨1, 4⟩] ∧
      ⟨1, 2⟩ ∈ (movedOnce.assignManualNodes ⟨1, 3⟩ [⟨1, 4⟩, ⟨1, 4⟩]).2 := by
  obtain ⟨htwoWay, -, -, hcalls⟩ := manual_assignment reachable_movedOnce
  obtain ⟨hinstalled, haffected⟩ := hcalls ⟨1, 3⟩ [⟨1, 4⟩, ⟨1, 4⟩] (by decide) (by decide)
  exact ⟨htwoWay _ _ (by decide) (by decide), hinstalled ⟨by decide, by decide⟩, haffected _ (by decide)⟩

end SlotHeap

end BetterWebBrowser.Dom
