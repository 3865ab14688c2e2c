import BetterWebBrowser.RendererProtocol.Accessibility

/-!
# Accessibility deltas compose

A consumer keeps a tree by id. Merging two updates that it would take in turn gives one
update with the same effect, whose membership lists are relative to the tree the consumer
has. Everything is shown id by id: a lookup after a batch of insertions and removals only
depends on which lists the id is in.
-/

namespace BetterWebBrowser.RendererProtocol

open Framework

/-! ## What an update means -/

/-- The tree on the consumer's side. -/
structure ConsumerTree where
  nodes : OrdMap DocumentNodeId SemanticNode
  root : DocumentNodeId
  focus : DocumentNodeId
deriving DecidableEq

/-- Nodes as map entries. -/
def keyed (nodes : List SemanticNode) : List (DocumentNodeId × SemanticNode) :=
  nodes.map fun node => (node.id, node)

namespace ConsumerTree

/-- A delta that speaks about this tree. -/
structure DeltaApplicable (tree : ConsumerTree) (update : AccessibilityUpdate) : Prop where
  removed_present : ∀ id ∈ update.removed, tree.nodes.contains id = true
  added_iff : ∀ id, id ∈ update.added ↔ id ∈ update.nodeIds ∧ tree.nodes.contains id = false
  root_eq : update.root = tree.root

def Applicable (tree : ConsumerTree) (update : AccessibilityUpdate) : Prop :=
  update.full = true ∨ tree.DeltaApplicable update

def apply (tree : ConsumerTree) (update : AccessibilityUpdate) : ConsumerTree :=
  if update.full then ⟨OrdMap.ofList (keyed update.nodes), update.root, update.focus⟩
  else ⟨(tree.nodes.eraseAll update.removed).insertAll (keyed update.nodes), update.root, update.focus⟩

/-- Every update of a list is applicable to the tree the ones before it leave. -/
def Replayable : ConsumerTree → List AccessibilityUpdate → Prop
  | _, [] => True
  | tree, update :: updates => tree.Applicable update ∧ (tree.apply update).Replayable updates

end ConsumerTree

namespace AccessibilityUpdate

/-- What a check of an update says about ids; a merged update may exceed the budgets but
still has to satisfy these. -/
structure IdentityRules (update : AccessibilityUpdate) : Prop where
  nodeIds_nodup : update.nodeIds.Nodup
  added_nodup : update.added.Nodup
  added_mem : ∀ id ∈ update.added, id ∈ update.nodeIds
  removed_nodup : update.removed.Nodup
  removed_not_mem : ∀ id ∈ update.removed, id ∉ update.nodeIds
  removed_ne_root : ∀ id ∈ update.removed, id ≠ update.root
  full_lists : update.full = true → update.added = [] ∧ update.removed = []

private theorem validateNodes_ids {seen : List DocumentNodeId} {edges text : Nat}
    {nodes : List SemanticNode} {counts : Nat × Nat}
    (h : validateNodes seen edges text nodes = .ok counts) :
    (nodes.map SemanticNode.id).Nodup ∧ ∀ node ∈ nodes, node.id ∉ seen := by
  induction nodes generalizing seen edges text with
  | nil => simp
  | cons node nodes ih =>
    rw [validateNodes] at h
    cases hnode : node.validate (decide (node.id ∈ seen)) with
    | error error => rw [hnode] at h; cases h
    | ok _ =>
      rw [hnode] at h
      obtain ⟨hnodup, hfresh⟩ := ih h
      have hseen : node.id ∉ seen := by
        intro hmem
        simp only [SemanticNode.validate, hmem, decide_true, true_or, if_true] at hnode
        split_ifs at hnode
      refine ⟨List.nodup_cons.mpr ⟨?_, hnodup⟩, ?_⟩
      · intro hmem
        obtain ⟨other, hother, heq⟩ := List.mem_map.mp hmem
        exact hfresh other hother (by simp [heq])
      · intro other hother
        rcases List.mem_cons.mp hother with rfl | hother
        · exact hseen
        · exact fun hmem => hfresh other hother (List.mem_cons_of_mem _ hmem)

/-- An update that passes the check satisfies the identity rules. -/
theorem validateUpdate_identityRules {update : AccessibilityUpdate}
    (h : update.validateUpdate = .ok ()) : update.IdentityRules := by
  rw [validateUpdate] at h
  cases hnodes : validateNodes [] 0 0 update.nodes with
  | error error =>
    rw [hnodes] at h
    split_ifs at h
  | ok counts =>
    rw [hnodes] at h
    simp only at h
    split_ifs at h with hcounts hbudget hadded hremoved hfull
    simp only [not_or, not_not, not_exists, not_and] at hcounts hadded hremoved
    exact {
      nodeIds_nodup := (validateNodes_ids hnodes).1
      added_nodup := hadded.1
      added_mem := hadded.2
      removed_nodup := hremoved.1
      removed_not_mem := fun id hid => (hremoved.2 id hid).1
      removed_ne_root := fun id hid => (hremoved.2 id hid).2
      full_lists := hcounts.2.2.2 }

/-! ## Maps of nodes -/

/-- Every node is stored under its own id. -/
def Keyed (nodes : OrdMap DocumentNodeId SemanticNode) : Prop :=
  ∀ id node, nodes.get id = some node → node.id = id

private theorem Keyed.erase {nodes : OrdMap DocumentNodeId SemanticNode} (h : Keyed nodes)
    (id : DocumentNodeId) : Keyed (nodes.erase id) := by
  intro other node hget
  rw [OrdMap.get_erase] at hget
  split_ifs at hget
  exact h other node hget

private theorem Keyed.insert {nodes : OrdMap DocumentNodeId SemanticNode} (h : Keyed nodes)
    (node : SemanticNode) : Keyed (nodes.insert node.id node) := by
  intro other value hget
  rw [OrdMap.get_insert] at hget
  split_ifs at hget with heq
  · rw [heq, ← Option.some.inj hget]
  · exact h other value hget

private theorem Keyed.eraseAll {nodes : OrdMap DocumentNodeId SemanticNode} (h : Keyed nodes)
    (ids : List DocumentNodeId) : Keyed (nodes.eraseAll ids) := by
  induction ids generalizing nodes with
  | nil => exact h
  | cons id ids ih => exact ih (h.erase id)

private theorem Keyed.insertAll {nodes : OrdMap DocumentNodeId SemanticNode} (h : Keyed nodes)
    (list : List SemanticNode) : Keyed (nodes.insertAll (keyed list)) := by
  induction list generalizing nodes with
  | nil => exact h
  | cons node list ih => exact ih (h.insert node)

private theorem keyed_collect (list : List SemanticNode) : Keyed (collect list) := by
  have hempty : Keyed OrdMap.empty := by
    intro id node hget
    cases hget
  exact hempty.insertAll list

private theorem Keyed.entries_eq {nodes : OrdMap DocumentNodeId SemanticNode} (h : Keyed nodes) :
    keyed (values nodes) = nodes.entries := by
  rw [keyed, values, List.map_map]
  conv_rhs => rw [← List.map_id nodes.entries]
  apply List.map_congr_left
  intro entry hentry
  have hget := (nodes.mem_entries_iff_get entry.1 entry.2).mp hentry
  exact Prod.ext (h entry.1 entry.2 hget) rfl

private theorem Keyed.ids_eq {nodes : OrdMap DocumentNodeId SemanticNode} (h : Keyed nodes) :
    (values nodes).map SemanticNode.id = nodes.keys := by
  rw [OrdMap.keys, ← h.entries_eq, keyed, List.map_map]
  rfl

private theorem Keyed.nodup_ids {nodes : OrdMap DocumentNodeId SemanticNode} (h : Keyed nodes) :
    ((values nodes).map SemanticNode.id).Nodup := by
  rw [h.ids_eq]
  exact nodes.nodup_keys

private theorem keyed_ids (list : List SemanticNode) :
    (keyed list).map Prod.fst = list.map SemanticNode.id := by
  rw [keyed, List.map_map]
  rfl

private theorem contains_insertAll (nodes : OrdMap DocumentNodeId SemanticNode)
    (list : List SemanticNode) (id : DocumentNodeId) :
    (nodes.insertAll (keyed list)).contains id = true ↔
      id ∈ list.map SemanticNode.id ∨ nodes.contains id = true := by
  rw [← keyed_ids, ← OrdMap.contains_ofList, OrdMap.contains, OrdMap.get_insertAll]
  simp [OrdMap.contains]

private theorem contains_eraseAll (nodes : OrdMap DocumentNodeId SemanticNode)
    (ids : List DocumentNodeId) (id : DocumentNodeId) :
    (nodes.eraseAll ids).contains id = true ↔ id ∉ ids ∧ nodes.contains id = true := by
  rw [OrdMap.contains, OrdMap.get_eraseAll]
  by_cases h : id ∈ ids <;> simp [h, OrdMap.contains]

private theorem contains_collect (list : List SemanticNode) (id : DocumentNodeId) :
    (collect list).contains id = true ↔ id ∈ list.map SemanticNode.id := by
  rw [← keyed_ids, ← OrdMap.contains_ofList]
  rfl

private theorem contains_apply_delta (tree : ConsumerTree) {update : AccessibilityUpdate}
    (h : update.full = false) (id : DocumentNodeId) :
    (tree.apply update).nodes.contains id = true ↔
      id ∈ update.nodeIds ∨ id ∉ update.removed ∧ tree.nodes.contains id = true := by
  have happly : (tree.apply update).nodes =
      (tree.nodes.eraseAll update.removed).insertAll (keyed update.nodes) := by
    simp [ConsumerTree.apply, h]
  rw [happly, contains_insertAll, contains_eraseAll]
  rfl

/-! ## The loops of `coalesce` -/

private theorem removeFromFull_ok {nodes : OrdMap DocumentNodeId SemanticNode}
    {removed : List DocumentNodeId} (hnodup : removed.Nodup)
    (hpresent : ∀ id ∈ removed, nodes.contains id = true) :
    removeFromFull nodes removed = .ok (nodes.eraseAll removed) := by
  induction removed generalizing nodes with
  | nil => rfl
  | cons id removed ih =>
    obtain ⟨hnot, hnodup⟩ := List.nodup_cons.mp hnodup
    rw [removeFromFull, if_pos (hpresent id List.mem_cons_self)]
    apply ih hnodup
    intro other hother
    rw [OrdMap.contains_erase]
    exact ⟨fun heq => hnot (heq ▸ hother), hpresent other (List.mem_cons_of_mem _ hother)⟩

/-- After the removals of the later delta, an id it removes is neither kept nor new; it is
lost unless the earlier delta had introduced it. -/
private theorem remove_spec (net : Net) {removed : List DocumentNodeId} (hnodup : removed.Nodup) :
    (removed.foldl Net.remove net).nodes = net.nodes.eraseAll removed ∧
      ∀ id, ((removed.foldl Net.remove net).added.contains id = true ↔
          id ∉ removed ∧ net.added.contains id = true) ∧
        ((removed.foldl Net.remove net).removed.contains id = true ↔
          net.removed.contains id = true ∨ id ∈ removed ∧ net.added.contains id = false) := by
  induction removed generalizing net with
  | nil => exact ⟨rfl, fun id => by simp⟩
  | cons head removed ih =>
    obtain ⟨hnot, hnodup⟩ := List.nodup_cons.mp hnodup
    obtain ⟨hnodes, hlists⟩ := ih (net.remove head) hnodup
    rw [List.foldl_cons]
    refine ⟨?_, ?_⟩
    · rw [hnodes]
      by_cases hadded : net.added.contains head = true <;> simp [Net.remove, hadded, OrdMap.eraseAll]
    · intro id
      obtain ⟨haddedIff, hremovedIff⟩ := hlists id
      have hhead : id = head → id ∉ removed := fun heq => heq ▸ hnot
      by_cases hadded : net.added.contains head = true
      · have hremove : net.remove head =
            ⟨net.nodes.erase head, net.added.erase head, net.removed⟩ := by
          simp [Net.remove, hadded]
        have herase := net.added.contains_erase head id
        rw [hremove] at haddedIff hremovedIff
        rw [← Bool.not_eq_true] at hremovedIff ⊢
        grind
      · have hremove : net.remove head =
            ⟨net.nodes.erase head, net.added, net.removed.insert head ()⟩ := by
          simp [Net.remove, hadded]
        have hinsert := net.removed.contains_insert head id ()
        rw [hremove] at haddedIff hremovedIff
        rw [← Bool.not_eq_true] at hremovedIff ⊢
        grind

/-- The nodes of the later delta: one that was lost is now an update, any other one the
delta introduces is new. -/
private theorem insertAll_spec (net : Net) (nextAdded : OrdMap DocumentNodeId Unit)
    {nodes : List SemanticNode} (hnodup : (nodes.map SemanticNode.id).Nodup)
    (hreintroduced : ∀ id ∈ nodes.map SemanticNode.id, net.removed.contains id = true →
      nextAdded.contains id = true) :
    ∃ result, Net.insertAll nextAdded net nodes = .ok result ∧
      result.nodes = net.nodes.insertAll (keyed nodes) ∧
      ∀ id, (result.added.contains id = true ↔ net.added.contains id = true ∨
          id ∈ nodes.map SemanticNode.id ∧ nextAdded.contains id = true ∧
            net.removed.contains id = false) ∧
        (result.removed.contains id = true ↔
          net.removed.contains id = true ∧ id ∉ nodes.map SemanticNode.id) := by
  induction nodes generalizing net with
  | nil => exact ⟨net, rfl, rfl, fun id => by simp⟩
  | cons node nodes ih =>
    obtain ⟨hnot, hnodup⟩ := List.nodup_cons.mp hnodup
    have hhead := hreintroduced node.id (by simp)
    have hok : ¬ (net.removed.contains node.id = true ∧ ¬ nextAdded.contains node.id = true) :=
      fun h => h.2 (hhead h.1)
    have herase := net.removed.contains_erase node.id
    rw [Net.insertAll]
    simp only [hok, if_false]
    obtain ⟨result, hrun, hnodes, hlists⟩ := ih
      ⟨net.nodes.insert node.id node,
        if ¬ net.removed.contains node.id = true ∧ nextAdded.contains node.id = true then
          net.added.insert node.id () else net.added,
        net.removed.erase node.id⟩ hnodup (by
        intro id hid hremoved
        exact hreintroduced id (List.mem_cons_of_mem _ hid) ((herase id).mp hremoved).2)
    refine ⟨result, hrun, hnodes, ?_⟩
    intro id
    obtain ⟨haddedIff, hremovedIff⟩ := hlists id
    have hid : id = node.id → id ∉ nodes.map SemanticNode.id := fun heq => heq ▸ hnot
    have herase := herase id
    have hinsert := net.added.contains_insert node.id id ()
    simp only [List.map_cons, List.mem_cons]
    rw [← Bool.not_eq_true] at haddedIff ⊢
    refine ⟨?_, ?_⟩
    · rw [haddedIff]
      split_ifs with hnew <;> grind
    · rw [hremovedIff, herase]
      grind

/-! ## Two updates -/

private theorem coalesce_full {tree : ConsumerTree} {self next : AccessibilityUpdate}
    (hself : self.full = true) (hnextRules : next.IdentityRules) (hdelta : next.full = false)
    (hnext : (tree.apply self).DeltaApplicable next) :
    ∃ merged, self.coalesce next = .ok merged ∧ merged.IdentityRules ∧ tree.Applicable merged ∧
      tree.apply merged = (tree.apply self).apply next := by
  have htree : tree.apply self = ⟨collect self.nodes, self.root, self.focus⟩ := by
    simp only [ConsumerTree.apply, hself, if_true]
    rfl
  rw [htree] at hnext ⊢
  have hroot : self.root = next.root := hnext.root_eq.symm
  have hremove : removeFromFull (collect self.nodes) next.removed =
      .ok ((collect self.nodes).eraseAll next.removed) :=
    removeFromFull_ok hnextRules.removed_nodup hnext.removed_present
  let nodes := ((collect self.nodes).eraseAll next.removed).insertAll (keyed next.nodes)
  have hkeyed : Keyed nodes := ((keyed_collect self.nodes).eraseAll next.removed).insertAll next.nodes
  refine ⟨⟨true, next.root, next.focus, values nodes, [], []⟩, ?_, ?_, Or.inl rfl, ?_⟩
  · simp only [coalesce, hdelta, hself, hroot, hremove, ne_eq, not_true_eq_false, if_false, if_true,
      Bool.false_eq_true]
    rfl
  · exact {
      nodeIds_nodup := hkeyed.nodup_ids
      added_nodup := List.nodup_nil
      added_mem := by simp
      removed_nodup := List.nodup_nil
      removed_not_mem := by simp
      removed_ne_root := by simp
      full_lists := fun _ => ⟨rfl, rfl⟩ }
  · simp only [ConsumerTree.apply, hdelta, hkeyed.entries_eq, OrdMap.ofList_entries, if_true,
      Bool.false_eq_true, if_false]
    rfl

/-- What the loops of `coalesce` compute for two deltas, id by id. -/
private structure NetOf (earlier later : AccessibilityUpdate) (net : Net) : Prop where
  nodes_eq : net.nodes =
    ((collect earlier.nodes).eraseAll later.removed).insertAll (keyed later.nodes)
  added_iff : ∀ id, net.added.contains id = true ↔
    id ∈ earlier.added ∧ id ∉ later.removed ∨
      id ∈ later.nodeIds ∧ id ∈ later.added ∧
        ¬ (id ∈ earlier.removed ∨ id ∈ later.removed ∧ id ∉ earlier.added)
  removed_iff : ∀ id, net.removed.contains id = true ↔
    (id ∈ earlier.removed ∨ id ∈ later.removed ∧ id ∉ earlier.added) ∧ id ∉ later.nodeIds

private theorem netOf_run {tree : ConsumerTree} {self next : AccessibilityUpdate}
    (hself : self.full = false) (hselfRules : self.IdentityRules) (hnextRules : next.IdentityRules)
    (hnext : (tree.apply self).DeltaApplicable next) :
    ∃ net, Net.insertAll (OrdMap.setOf next.added)
        (next.removed.foldl Net.remove
          ⟨collect self.nodes, OrdMap.setOf self.added, OrdMap.setOf self.removed⟩)
        next.nodes = .ok net ∧ NetOf self next net := by
  let start : Net := ⟨collect self.nodes, OrdMap.setOf self.added, OrdMap.setOf self.removed⟩
  obtain ⟨hnodes, hlists⟩ := remove_spec start hnextRules.removed_nodup
  have hadded : ∀ id, start.added.contains id = true ↔ id ∈ self.added :=
    OrdMap.contains_setOf self.added
  have hremoved : ∀ id, start.removed.contains id = true ↔ id ∈ self.removed :=
    OrdMap.contains_setOf self.removed
  have hnextAdded := OrdMap.contains_setOf next.added
  -- A node of the later delta whose id is lost by now is absent from the middle tree.
  have hreintroduced : ∀ id ∈ next.nodes.map SemanticNode.id,
      (next.removed.foldl Net.remove start).removed.contains id = true →
        (OrdMap.setOf next.added).contains id = true := by
    intro id hid hlost
    have hpresent := contains_apply_delta tree hself id
    have hnew := hnext.added_iff id
    have hgone := hselfRules.removed_not_mem id
    have hnot := hnextRules.removed_not_mem id
    rw [hnextAdded, hnew]
    rw [(hlists id).2, hremoved] at hlost
    refine ⟨hid, ?_⟩
    rw [← Bool.not_eq_true, hpresent]
    rcases hlost with hlost | ⟨hlost, _⟩
    · exact fun h => h.elim (hgone hlost) fun h => h.1 hlost
    · exact absurd hid (hnot hlost)
  obtain ⟨net, hrun, hnetNodes, hnet⟩ := insertAll_spec (next.removed.foldl Net.remove start)
    (OrdMap.setOf next.added) hnextRules.nodeIds_nodup hreintroduced
  refine ⟨net, hrun, ?_⟩
  exact {
    nodes_eq := by rw [hnetNodes, hnodes]
    added_iff := by
      intro id
      rw [(hnet id).1, hnextAdded, ← Bool.not_eq_true, (hlists id).1, (hlists id).2,
        ← Bool.not_eq_true, hadded, hremoved]
      exact or_congr and_comm Iff.rfl
    removed_iff := by
      intro id
      rw [(hnet id).2, (hlists id).2, ← Bool.not_eq_true, hadded, hremoved]
      rfl }

private theorem coalesce_deltas {tree : ConsumerTree} {self next : AccessibilityUpdate}
    (hselfDelta : self.full = false) (hselfRules : self.IdentityRules)
    (hself : tree.DeltaApplicable self) (hnextDelta : next.full = false)
    (hnextRules : next.IdentityRules) (hnext : (tree.apply self).DeltaApplicable next) :
    ∃ merged, self.coalesce next = .ok merged ∧ merged.IdentityRules ∧ tree.Applicable merged ∧
      tree.apply merged = (tree.apply self).apply next := by
  obtain ⟨net, hrun, hnet⟩ := netOf_run hselfDelta hselfRules hnextRules hnext
  have hroot : self.root = next.root := by
    rw [hnext.root_eq]
    simp [ConsumerTree.apply, hselfDelta]
  have hkeyed : Keyed net.nodes :=
    hnet.nodes_eq ▸ ((keyed_collect self.nodes).eraseAll next.removed).insertAll next.nodes
  have hids : ∀ id, id ∈ (values net.nodes).map SemanticNode.id ↔
      id ∈ next.nodeIds ∨ id ∉ next.removed ∧ id ∈ self.nodeIds := by
    intro id
    rw [hkeyed.ids_eq, OrdMap.mem_keys, hnet.nodes_eq, contains_insertAll, contains_eraseAll,
      contains_collect]
    rfl
  let merged : AccessibilityUpdate :=
    ⟨false, next.root, next.focus, values net.nodes, net.added.keys, net.removed.keys⟩
  have hadded : ∀ id, id ∈ merged.added ↔ _ := fun id =>
    (OrdMap.mem_keys net.added id).trans (hnet.added_iff id)
  have hremoved : ∀ id, id ∈ merged.removed ↔ _ := fun id =>
    (OrdMap.mem_keys net.removed id).trans (hnet.removed_iff id)
  have hmiddle := contains_apply_delta tree hselfDelta
  refine ⟨merged, ?_, ?_, Or.inr ?_, ?_⟩
  · simp only [coalesce, hnextDelta, hselfDelta, hroot, ne_eq, not_true_eq_false, if_false,
      Bool.false_eq_true, hrun]
    rfl
  · exact {
      nodeIds_nodup := hkeyed.nodup_ids
      added_nodup := OrdMap.nodup_keys net.added
      added_mem := by
        intro id hid
        have := hselfRules.added_mem id
        rw [hadded] at hid
        change id ∈ (values net.nodes).map SemanticNode.id
        rw [hids]
        tauto
      removed_nodup := OrdMap.nodup_keys net.removed
      removed_not_mem := by
        intro id hid
        have := hselfRules.removed_not_mem id
        have := hself.added_iff id
        have := hnext.removed_present id
        have := hself.removed_present id
        change id ∉ (values net.nodes).map SemanticNode.id
        rw [hremoved] at hid
        rw [hids]
        tauto
      removed_ne_root := by
        intro id hid
        have hselfRoot := hselfRules.removed_ne_root id
        have hnextRoot := hnextRules.removed_ne_root id
        rw [hroot] at hselfRoot
        rw [hremoved] at hid
        rcases hid.1 with hid | hid
        · exact hselfRoot hid
        · exact hnextRoot hid.1
      full_lists := fun h => absurd h Bool.false_ne_true }
  · exact {
      removed_present := by
        intro id hid
        have hpresent := hself.removed_present id
        have hlater := hnext.removed_present id
        have hnew := hself.added_iff id
        rw [hmiddle] at hlater
        rw [← Bool.not_eq_true] at hnew
        rw [hremoved] at hid
        tauto
      added_iff := by
        intro id
        have hpresent := hself.removed_present id
        have hnew := hself.added_iff id
        have hlater := hnext.added_iff id
        have hnodes := hnextRules.removed_not_mem id
        have hgone := hselfRules.removed_not_mem id
        change _ ↔ id ∈ (values net.nodes).map SemanticNode.id ∧ _
        rw [← Bool.not_eq_true] at hnew hlater ⊢
        rw [hmiddle] at hlater
        rw [hadded, hids]
        tauto
      root_eq := hroot ▸ hself.root_eq }
  · have htarget : (tree.apply self).apply next =
        ⟨((((tree.nodes.eraseAll self.removed).insertAll (keyed self.nodes)).eraseAll
          next.removed).insertAll (keyed next.nodes)), next.root, next.focus⟩ := by
      simp [ConsumerTree.apply, hselfDelta, hnextDelta]
    have hmerged : tree.apply merged =
        ⟨(tree.nodes.eraseAll merged.removed).insertAll (keyed (values net.nodes)),
          next.root, next.focus⟩ := rfl
    rw [htarget, hmerged]
    congr 1
    apply OrdMap.ext_get
    intro id
    have hnew := hself.added_iff id
    have hlost := hremoved id
    rw [hkeyed.entries_eq, OrdMap.get_insertAll, OrdMap.ofList_entries, hnet.nodes_eq]
    simp only [OrdMap.get_insertAll, OrdMap.get_eraseAll]
    cases hlater : (OrdMap.ofList (keyed next.nodes)).get id with
    | some node => rfl
    | none =>
      have hnot : id ∉ next.nodeIds := by
        rw [nodeIds, ← keyed_ids, ← OrdMap.contains_ofList, OrdMap.contains, hlater]
        exact Bool.false_ne_true
      simp only [hnot, not_false_iff, and_true] at hlost
      by_cases hgone : id ∈ next.removed
      · by_cases hborn : id ∈ self.added
        · have habsent := (hnew.mp hborn).2
          rw [OrdMap.contains, Option.isSome_eq_false_iff, Option.isNone_iff_eq_none] at habsent
          simp [hgone, habsent]
        · simp [hgone, hborn, hlost]
      · simp only [hgone, false_and, or_false] at hlost
        by_cases hfirst : id ∈ self.removed <;> simp [hgone, hfirst, hlost, collect, keyed]

/-- Merging an update with the one a consumer would take after it. -/
theorem coalesce_ok {tree : ConsumerTree} {self next : AccessibilityUpdate}
    (hselfRules : self.IdentityRules) (hself : tree.Applicable self)
    (hnextRules : next.IdentityRules) (hnext : (tree.apply self).Applicable next) :
    ∃ merged, self.coalesce next = .ok merged ∧ merged.IdentityRules ∧ tree.Applicable merged ∧
      tree.apply merged = (tree.apply self).apply next := by
  by_cases hnextFull : next.full = true
  · refine ⟨next, ?_, hnextRules, Or.inl hnextFull, ?_⟩
    · simp [coalesce, hnextFull]
    · simp [ConsumerTree.apply, hnextFull]
  · have hnextDelta := hnext.resolve_left hnextFull
    rw [Bool.not_eq_true] at hnextFull
    by_cases hselfFull : self.full = true
    · exact coalesce_full hselfFull hnextRules hnextFull hnextDelta
    · have hselfDelta := hself.resolve_left hselfFull
      rw [Bool.not_eq_true] at hselfFull
      exact coalesce_deltas hselfFull hselfRules hselfDelta hnextFull hnextRules hnextDelta

/-! ## Any number of updates -/

/-- The membership lists of an applicable delta are what the tree gains and loses. -/
private theorem delta_membership {tree : ConsumerTree} {update : AccessibilityUpdate}
    (hdelta : update.full = false) (hrules : update.IdentityRules) (h : tree.Applicable update)
    (id : DocumentNodeId) :
    (id ∈ update.added ↔ (tree.apply update).nodes.contains id = true ∧
        tree.nodes.contains id = false) ∧
      (id ∈ update.removed ↔ tree.nodes.contains id = true ∧
        (tree.apply update).nodes.contains id = false) := by
  have happlicable := h.resolve_left (by simp [hdelta])
  have hafter := contains_apply_delta tree hdelta id
  have hadded := happlicable.added_iff id
  have hpresent := happlicable.removed_present id
  have hremoved := hrules.removed_not_mem id
  rw [← Bool.not_eq_true] at hadded
  rw [← Bool.not_eq_true, ← Bool.not_eq_true, hafter, hadded]
  refine ⟨?_, ?_⟩ <;> tauto

end AccessibilityUpdate

/-- One update that stands for a list of them, relative to what the consumer last saw. -/
structure ConsumerTree.Represents (tree : ConsumerTree) (updates : List AccessibilityUpdate)
    (merged : AccessibilityUpdate) : Prop where
  applicable : tree.Applicable merged
  apply_eq : tree.apply merged = updates.foldl ConsumerTree.apply tree
  gained : merged.full = false → ∀ id, id ∈ merged.added ↔
    (updates.foldl ConsumerTree.apply tree).nodes.contains id = true ∧
      tree.nodes.contains id = false
  lost : merged.full = false → ∀ id, id ∈ merged.removed ↔
    tree.nodes.contains id = true ∧
      (updates.foldl ConsumerTree.apply tree).nodes.contains id = false
  identityRules : merged.IdentityRules

namespace AccessibilityUpdate

private theorem represents_of_apply {tree : ConsumerTree} {updates : List AccessibilityUpdate}
    {merged : AccessibilityUpdate} (hrules : merged.IdentityRules)
    (happlicable : tree.Applicable merged)
    (happly : tree.apply merged = updates.foldl ConsumerTree.apply tree) :
    tree.Represents updates merged where
  applicable := happlicable
  apply_eq := happly
  gained := fun hdelta id => happly ▸ (delta_membership hdelta hrules happlicable id).1
  lost := fun hdelta id => happly ▸ (delta_membership hdelta hrules happlicable id).2
  identityRules := hrules

/-- The fold from any update that already satisfies the identity rules. -/
private theorem foldlM_coalesce {tree : ConsumerTree} {self : AccessibilityUpdate}
    {updates : List AccessibilityUpdate} (hselfRules : self.IdentityRules)
    (hself : tree.Applicable self) (hrules : ∀ update ∈ updates, update.IdentityRules)
    (hreplay : (tree.apply self).Replayable updates) :
    ∃ merged, updates.foldlM coalesce self = .ok merged ∧ merged.IdentityRules ∧
      tree.Applicable merged ∧
      tree.apply merged = updates.foldl ConsumerTree.apply (tree.apply self) := by
  induction updates generalizing self with
  | nil => exact ⟨self, rfl, hselfRules, hself, rfl⟩
  | cons next updates ih =>
    obtain ⟨hnext, hreplay⟩ := hreplay
    obtain ⟨middle, hcoalesce, hmiddleRules, hmiddle, happly⟩ :=
      coalesce_ok hselfRules hself (hrules next List.mem_cons_self) hnext
    rw [← happly] at hreplay
    obtain ⟨merged, hfold, hmergedRules, hmerged, heffect⟩ := ih hmiddleRules hmiddle
      (fun update hupdate => hrules update (List.mem_cons_of_mem _ hupdate)) hreplay
    refine ⟨merged, ?_, hmergedRules, hmerged, ?_⟩
    · rw [List.foldlM_cons, hcoalesce]
      exact hfold
    · rw [heffect, happly]
      rfl

/-- Two updates that a consumer can take in turn merge into one with the same effect, and so
does any left-to-right fold of a list of updates. -/
theorem coalesce_composes (tree : ConsumerTree) :
    (∀ self next : AccessibilityUpdate,
      self.validateUpdate = .ok () → next.validateUpdate = .ok () →
      tree.Applicable self → (tree.apply self).Applicable next →
        ∃ merged, self.coalesce next = .ok merged ∧ tree.Represents [self, next] merged) ∧
    (∀ (self : AccessibilityUpdate) (updates : List AccessibilityUpdate),
      (∀ update ∈ self :: updates, update.validateUpdate = .ok ()) →
      tree.Replayable (self :: updates) →
        ∃ merged, updates.foldlM coalesce self = .ok merged ∧
          tree.Represents (self :: updates) merged) := by
  refine ⟨?_, ?_⟩
  · intro self next hself hnext happlicable hnextApplicable
    obtain ⟨merged, hcoalesce, hrules, hmerged, happly⟩ :=
      coalesce_ok (validateUpdate_identityRules hself) happlicable
        (validateUpdate_identityRules hnext) hnextApplicable
    exact ⟨merged, hcoalesce, represents_of_apply hrules hmerged happly⟩
  · intro self updates hvalid hreplay
    obtain ⟨happlicable, hreplay⟩ := hreplay
    have hrules : ∀ update ∈ self :: updates, update.IdentityRules :=
      fun update hupdate => validateUpdate_identityRules (hvalid update hupdate)
    obtain ⟨merged, hfold, hmergedRules, hmerged, happly⟩ :=
      foldlM_coalesce (hrules self List.mem_cons_self) happlicable
        (fun update hupdate => hrules update (List.mem_cons_of_mem _ hupdate)) hreplay
    exact ⟨merged, hfold, represents_of_apply hmergedRules hmerged happly⟩

/-! A paragraph that appears and is hidden again before either delta is delivered. -/

private def sampleId (index : Fin 2) : DocumentNodeId :=
  ⟨2 ^ 64 + 1 + index, by omega, by omega, by omega⟩

private def sampleNode (index : Fin 2) (role : SemanticRole) (children : List DocumentNodeId) :
    SemanticNode :=
  { id := sampleId index, role := role, name := "text".toList, value := [], description := [],
    bounds := ⟨.Finite 0, .Finite 0, .Finite 10, .Finite 10⟩, children := children, level := none,
    disabled := false, readOnly := false, actions := ⟨false, false, false⟩, selection := none,
    checked := none }

private def sampleTree : ConsumerTree :=
  ⟨OrdMap.empty.insert (sampleId 0) (sampleNode 0 .RootWebArea []), sampleId 0, sampleId 0⟩

private def sampleShown : AccessibilityUpdate :=
  { full := false, root := sampleId 0, focus := sampleId 1,
    nodes := [sampleNode 0 .RootWebArea [sampleId 1], sampleNode 1 .Paragraph []],
    added := [sampleId 1], removed := [] }

private def sampleHidden : AccessibilityUpdate :=
  { full := false, root := sampleId 0, focus := sampleId 0,
    nodes := [sampleNode 0 .RootWebArea []], added := [], removed := [sampleId 1] }

private theorem sample_applicable :
    sampleTree.Applicable sampleShown ∧ (sampleTree.apply sampleShown).Applicable sampleHidden := by
  have hroot : sampleTree.nodes.contains (sampleId 0) = true := by decide
  have habsent : sampleTree.nodes.contains (sampleId 1) = false := by decide
  have hpresent : ∀ index, (sampleTree.apply sampleShown).nodes.contains (sampleId index) = true := by
    decide
  refine ⟨Or.inr ⟨by simp [sampleShown], ?_, rfl⟩, Or.inr ⟨?_, ?_, rfl⟩⟩
  · intro id
    have hids : sampleShown.nodeIds = [sampleId 0, sampleId 1] := rfl
    have hadded : sampleShown.added = [sampleId 1] := rfl
    rw [hids, hadded, List.mem_pair, List.mem_singleton]
    refine ⟨fun h => ⟨Or.inr h, h ▸ habsent⟩, ?_⟩
    rintro ⟨rfl | rfl, h⟩
    · rw [hroot] at h
      cases h
    · rfl
  · intro id hid
    rw [List.mem_singleton.mp hid]
    exact hpresent 1
  · intro id
    have hids : sampleHidden.nodeIds = [sampleId 0] := rfl
    have hadded : sampleHidden.added = [] := rfl
    rw [hids, hadded, List.mem_singleton]
    refine ⟨fun h => absurd h List.not_mem_nil, ?_⟩
    rintro ⟨rfl, h⟩
    rw [hpresent 0] at h
    cases h

theorem coalesce_composes_sample :
    (∃ merged, sampleShown.coalesce sampleHidden = .ok merged ∧
      sampleTree.Represents [sampleShown, sampleHidden] merged) ∧
    ∃ merged, [sampleHidden].foldlM coalesce sampleShown = .ok merged ∧
      sampleTree.Represents [sampleShown, sampleHidden] merged := by
  have hshown : sampleShown.validateUpdate = .ok () := by decide
  have hhidden : sampleHidden.validateUpdate = .ok () := by decide
  obtain ⟨happlicable, hnext⟩ := sample_applicable
  refine ⟨?_, ?_⟩
  · exact (coalesce_composes sampleTree).1 sampleShown sampleHidden hshown hhidden happlicable hnext
  · exact (coalesce_composes sampleTree).2 sampleShown [sampleHidden]
      (by simp [hshown, hhidden]) ⟨happlicable, hnext, trivial⟩

end AccessibilityUpdate

end BetterWebBrowser.RendererProtocol
