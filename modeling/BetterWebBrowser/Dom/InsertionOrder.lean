import BetterWebBrowser.Dom.ScriptRuns

/-!
# Insertion order

Where the nodes stand after a script inserted them: in their order right before the reference, or at the end
without one, and nowhere else. All other children keep their order.
-/

namespace BetterWebBrowser.Dom

open Framework

/-- In a list without duplicates the first item of the rest says where it was cut. -/
theorem append_inj_of_head? {α : Type*} {before after before' after' : List α}
    (hnodup : (before ++ after).Nodup) (heq : before ++ after = before' ++ after') (hhead : after.head? = after'.head?) :
    before = before' ∧ after = after' := by
  cases after with
  | nil =>
    have hnil : after' = [] := List.head?_eq_none_iff.mp hhead.symm
    rw [hnil, List.append_nil, List.append_nil] at heq
    exact ⟨heq, hnil.symm⟩
  | cons item rest =>
    obtain ⟨rest', rfl⟩ := List.head?_eq_some_iff.mp hhead.symm
    induction before generalizing before' with
    | nil =>
      cases before' with
      | nil => exact ⟨rfl, heq⟩
      | cons first before' =>
        obtain ⟨rfl, hrest⟩ := List.cons.inj heq
        rw [List.nil_append, List.nodup_cons, hrest] at hnodup
        exact absurd (List.mem_append_right _ List.mem_cons_self) hnodup.1
    | cons first before ih =>
      cases before' with
      | nil =>
        obtain ⟨rfl, hrest⟩ := List.cons.inj heq
        rw [List.cons_append, List.nodup_cons] at hnodup
        exact absurd (List.mem_append_right _ List.mem_cons_self) hnodup.1
      | cons first' before' =>
        obtain ⟨rfl, hrest⟩ := List.cons.inj heq
        obtain ⟨rfl, hafter⟩ := ih (List.nodup_cons.mp hnodup).2 hrest
        exact ⟨rfl, hafter⟩

namespace Page

variable {page page' page'' : Page} {this node : NodeId} {reference : Option NodeId} {nodes others : List NodeId}

/-- The nodes stand together before the reference, and nowhere else. -/
structure Placed (nodes : List NodeId) (reference : Option NodeId) (this : NodeId) (page page' : Page) : Prop where
  here : ∃ before after, ((page.children this).filter fun child => child ∉ nodes) = before ++ after ∧
    page'.children this = before ++ nodes ++ after ∧ after.head? = reference
  elsewhere : ∀ id, id ≠ this → page'.children id = (page.children id).filter fun child => child ∉ nodes

theorem filter_not_mem_append (children nodes others : List NodeId) :
    ((children.filter fun child => child ∉ nodes).filter fun child => child ∉ others) =
      children.filter fun child => child ∉ nodes ++ others := by
  rw [List.filter_filter]
  refine List.filter_congr fun child _ => ?_
  by_cases hchild : child ∈ nodes <;> simp [hchild]

theorem filter_not_mem_of_disjoint {children : List NodeId} (h : ∀ node ∈ nodes, node ∉ children) :
    (children.filter fun child => child ∉ nodes) = children :=
  List.filter_eq_self.mpr fun child hchild => by simpa using fun hnode => h child hnode hchild

/-- A placed reference is still there, and nothing else has come. -/
theorem Placed.mem (h : Placed nodes reference this page page') : (∀ id, reference = some id → id ∈ page'.children this) ∧
    ∀ id ∈ page'.children this, id ∈ nodes ∨ id ∈ page.children this := by
  obtain ⟨before, after, hkept, hplaced, hhead⟩ := h.here
  rw [hplaced]
  constructor
  · intro id hid
    exact List.mem_append_right _ (List.mem_of_head? (hhead.trans hid))
  · intro id hid
    have hold (hmem : id ∈ before ++ after) : id ∈ page.children this := by
      rw [← hkept] at hmem
      exact List.mem_of_mem_filter hmem
    rcases List.mem_append.mp hid with hfirst | hafter
    · rcases List.mem_append.mp hfirst with hbefore | hnode
      · exact .inr (hold (List.mem_append_left _ hbefore))
      · exact .inl hnode
    · exact .inr (hold (List.mem_append_right _ hafter))

theorem placed_nil (hreference : ∀ id, reference = some id → id ∈ page.children this) :
    Placed [] reference this page page := by
  have hsplit : ∃ before after, page.children this = before ++ after ∧ after.head? = reference := by
    cases reference with
    | none => exact ⟨page.children this, [], (List.append_nil _).symm, rfl⟩
    | some id =>
      obtain ⟨before, after, hsplit⟩ := List.append_of_mem (hreference id rfl)
      exact ⟨before, id :: after, hsplit, rfl⟩
  obtain ⟨before, after, hsplit, hhead⟩ := hsplit
  refine ⟨⟨before, after, ?_, ?_, hhead⟩, fun id _ => ?_⟩
  · simpa using hsplit
  · simpa using hsplit
  · simp

/-- More nodes, that were not there, are placed behind the first ones. -/
theorem Placed.trans (sound : page'.Sound) (h : Placed nodes reference this page page')
    (h' : Placed others reference this page' page'') (hothers : ∀ node ∈ others, node ∉ page'.children this) :
    Placed (nodes ++ others) reference this page page'' := by
  obtain ⟨before, after, hkept, hplaced, hhead⟩ := h.here
  obtain ⟨before', after', hkept', hplaced', hhead'⟩ := h'.here
  rw [filter_not_mem_of_disjoint hothers, hplaced] at hkept'
  have hnodup := sound.childrenNodup this
  rw [hplaced] at hnodup
  obtain ⟨rfl, rfl⟩ := append_inj_of_head? hnodup hkept' (hhead.trans hhead'.symm)
  refine ⟨⟨before, after, ?_, ?_, hhead⟩, fun id hid => ?_⟩
  · rw [← filter_not_mem_append, hkept]
    refine filter_not_mem_of_disjoint fun node hnode hmem => hothers node hnode ?_
    rw [hplaced]
    rcases List.mem_append.mp hmem with hbefore | hafter
    · exact List.mem_append_left _ (List.mem_append_left _ hbefore)
    · exact List.mem_append_right _ hafter
  · rw [hplaced', List.append_assoc before]
  · rw [h'.elsewhere id hid, h.elsewhere id hid, filter_not_mem_append]

theorem children_insertAt (page : Page) (parent child : NodeId) (index : Nat) :
    (page.insertAt parent child index).children =
      Function.update page.children parent ((page.children parent).insertIdx index child) :=
  Heap.children_of_link (shape_insertAt page parent child index)

theorem erase_eq_filter (sound : page.Sound) (id node : NodeId) :
    (page.children id).erase node = (page.children id).filter fun child => child ∉ [node] := by
  rw [← eraseIdx_idxOf_eq_filter (sound.childrenNodup id), List.eraseIdx_idxOf_eq_erase]

/-- One node, that the host took from its place and inserted at an index. -/
theorem placed_reinsert (sound : page.Sound) {index : Nat} {before after : List NodeId}
    (hsplit : (page.children this).erase node = before ++ after)
    (hinserted : ((page.children this).erase node).insertIdx index node = before ++ node :: after) :
    Placed [node] after.head? this page ((page.removeFromParent node).insertAt this node index) := by
  refine ⟨⟨before, after, ?_, ?_, rfl⟩, fun id hid => ?_⟩
  · rw [← erase_eq_filter sound, hsplit]
  · rw [children_insertAt, Function.update_self, children_removeFromParent sound, hinserted, List.append_assoc]
    rfl
  · rw [children_insertAt, Function.update_of_ne hid, children_removeFromParent sound, erase_eq_filter sound]

theorem placed_appendChild (sound : page.Sound) (h : (page.appendChild this node).2 = true) :
    Placed [node] none this page (page.appendChild this node).1 := by
  rcases appendChild_eq page this node with hrefused | ⟨-, hdone⟩
  · rw [hrefused] at h
    cases h
  · have hend : ((page.children this).erase node).insertIdx ((page.removeFromParent node).children this).length node =
        (page.children this).erase node ++ [node] := by
      rw [children_removeFromParent sound, List.insertIdx_length_self]
    rw [hdone]
    exact placed_reinsert sound (List.append_nil _).symm hend

theorem placed_insertBefore (sound : page.Sound) {reference : NodeId} (hne : node ≠ reference)
    (h : (page.insertBefore this node reference).2 = true) :
    Placed [node] (some reference) this page (page.insertBefore this node reference).1 := by
  rcases insertBefore_eq sound this node reference with hrefused | ⟨hparent, -, hdone⟩
  · rw [hrefused] at h
    cases h
  · have hmem : reference ∈ (page.children this).erase node :=
      (List.mem_erase_of_ne hne.symm).mpr (sound.mem_children hparent)
    obtain ⟨before, after, hsplit, hinserted⟩ := insertIdx_idxOf hmem node
    rw [hdone, if_neg hne, children_removeFromParent sound]
    exact placed_reinsert sound hsplit hinserted

/-- Before itself a node is where it was. -/
theorem children_insertBefore_self (sound : page.Sound) (this node : NodeId) :
    (page.insertBefore this node node).1.children = page.children := by
  rcases insertBefore_eq sound this node node with hrefused | ⟨hparent, -, hdone⟩
  · rw [hrefused]
  · have hmem := sound.mem_children hparent
    rw [hdone, if_pos rfl, children_insertAt, children_removeFromParent sound, insertIdx_erase hmem]
    funext id
    by_cases hid : id = this
    · rw [hid, Function.update_self]
    · have hnot : node ∉ page.children id := by
        rw [sound.childLinks, hparent]
        exact fun h => hid (Option.some.inj h).symm
      rw [Function.update_of_ne hid, children_removeFromParent sound, List.erase_of_not_mem hnot]

end Page

namespace Script

variable {isRoot : NodeId → Bool} {page page' : Page} {this child node : NodeId} {reference : Option NodeId}
  {nodes : List NodeId}

/-- One call of the host. -/
theorem ends_hostInsertBefore (intact : page.Intact) (h : page.Insertable this node) (hne : reference ≠ some node) :
    Method.Ends (hostInsertBefore this reference node) page
      (fun inserted after => (inserted = true → Page.Inserts this page after ∧
        Page.Placed [node] reference this page after) ∧ (inserted = false → after = page)) (fun _ => False) := by
  cases reference with
  | none =>
    refine ends_native.mpr ⟨fun hdone => ⟨Page.inserts_appendChild intact h, Page.placed_appendChild intact.sound hdone⟩,
      fun hrefused => ?_⟩
    rcases Page.appendChild_eq page this node with hsame | ⟨-, hdone⟩
    · rw [hsame]
    · rw [hdone] at hrefused
      cases hrefused
  | some reference =>
    have hself : node ≠ reference := fun hsame => hne (congrArg some hsame.symm)
    refine ends_native.mpr ⟨fun hdone => ⟨Page.inserts_insertBefore intact h reference,
      Page.placed_insertBefore intact.sound hself hdone⟩, fun hrefused => ?_⟩
    rcases Page.insertBefore_eq intact.sound this node reference with hsame | ⟨-, -, hdone⟩
    · rw [hsame]
    · rw [hdone] at hrefused
      cases hrefused

/-- The nodes up to the first one that is refused are placed, all of them if none is. -/
def PlacedUpTo (nodes : List NodeId) (reference : Option NodeId) (this : NodeId) (page : Page) (inserted : Bool)
    (after : Page) : Prop :=
  ∃ placed, placed <+: nodes ∧ (inserted = true → placed = nodes) ∧ Page.Placed placed reference this page after

/-- Nodes from elsewhere are inserted one after the other. -/
theorem ends_every_placed (intact : page.Intact) (h : ∀ node ∈ nodes, page.Insertable this node)
    (hne : ∀ node ∈ nodes, reference ≠ some node) (hnodup : nodes.Nodup)
    (hnew : ∀ node ∈ nodes, node ∉ page.children this) (hreference : ∀ id, reference = some id → id ∈ page.children this) :
    Method.Ends (every (hostInsertBefore this reference) nodes) page (PlacedUpTo nodes reference this page)
      (fun _ => False) := by
  induction nodes generalizing page with
  | nil => exact ⟨[], List.prefix_rfl, fun _ => rfl, Page.placed_nil hreference⟩
  | cons node nodes ih =>
    have hfirst := ends_hostInsertBefore intact (h node List.mem_cons_self) (hne node List.mem_cons_self)
    rw [every]
    refine Method.ends_bind.mpr (hfirst.mono (fun inserted after hafter => ?_) fun _ hfalse => hfalse)
    cases inserted with
    | false =>
      rw [hafter.2 rfl]
      exact ⟨[], List.nil_prefix, fun hfalse => (by cases hfalse), Page.placed_nil hreference⟩
    | true =>
      obtain ⟨hinserts, hplaced⟩ := hafter.1 rfl
      obtain ⟨hmoved, hcame⟩ := hplaced.mem
      -- the other nodes are still elsewhere
      have hrest (other : NodeId) (hother : other ∈ nodes) : other ∉ after.children this := by
        intro hmem
        rcases hcame other hmem with hsame | hold
        · rw [List.mem_singleton.mp hsame] at hother
          exact (List.nodup_cons.mp hnodup).1 hother
        · exact hnew other (List.mem_cons_of_mem _ hother) hold
      have hnext := ih hinserts.intact
        (fun other hother => hinserts.insertable other (h other (List.mem_cons_of_mem _ hother)))
        (fun other hother => hne other (List.mem_cons_of_mem _ hother)) (List.nodup_cons.mp hnodup).2 hrest hmoved
      refine hnext.mono (fun inserted last hlast => ?_) fun _ hfalse => hfalse
      obtain ⟨placed, hupTo, hall, hthere⟩ := hlast
      refine ⟨node :: placed, List.cons_prefix_cons.mpr ⟨rfl, hupTo⟩, fun hdone => by rw [hall hdone], ?_⟩
      exact hplaced.trans hinserts.intact.sound hthere fun other hother => hrest other (hupTo.subset hother)

theorem ends_every_singleton (intact : page.Intact) (h : page.Insertable this node) (hne : reference ≠ some node)
    (hreference : ∀ id, reference = some id → id ∈ page.children this) :
    Method.Ends (every (hostInsertBefore this reference) [node]) page (PlacedUpTo [node] reference this page)
      (fun _ => False) := by
  rw [every]
  refine Method.ends_bind.mpr ((ends_hostInsertBefore intact h hne).mono (fun inserted after hafter => ?_)
    fun _ hfalse => hfalse)
  cases inserted with
  | false =>
    rw [hafter.2 rfl]
    exact ⟨[], List.nil_prefix, fun hfalse => (by cases hfalse), Page.placed_nil hreference⟩
  | true => exact ⟨[node], List.prefix_rfl, fun _ => rfl, (hafter.1 rfl).2⟩

/-- All nodes that come with one are placed, if none is refused. -/
theorem ends_every_inserted (intact : page.Intact) (hne : reference ≠ some child)
    (h : ∀ node ∈ insertedNodes isRoot page child, page.Insertable this node)
    (hback : ¬Walk.Reaches page.shadowIncludingParent this child)
    (hreference : ∀ id, reference = some id → id ∈ page.children this) :
    Method.Ends (every (hostInsertBefore this reference) (insertedNodes isRoot page child)) page
      (PlacedUpTo (insertedNodes isRoot page child) reference this page) (fun _ => False) := by
  rw [insertedNodes] at h ⊢
  split
  next hfragment =>
    rw [if_pos hfragment] at h
    have hthis : this ≠ child := by
      rintro rfl
      exact hback .refl
    -- a node has one parent, so that the fragment shares no child with another parent
    have hnew (node : NodeId) (hnode : node ∈ page.children child) : node ∉ page.children this := by
      intro hmem
      have hlink := intact.sound.parent_of_mem hmem
      rw [intact.sound.parent_of_mem hnode] at hlink
      exact hthis (Option.some.inj hlink).symm
    refine ends_every_placed intact h (fun node hnode hsame => ?_) (intact.sound.childrenNodup child) hnew hreference
    exact hnew node hnode (hreference node hsame)
  next hsingle =>
    rw [if_neg hsingle] at h
    exact ends_every_singleton intact (h child (List.mem_singleton_self child)) hne hreference

/-- A child that is inserted before itself. -/
theorem ends_every_self (isRoot : NodeId → Bool) (intact : page.Intact) (hchild : page.parent child = some this) :
    Method.Ends (every (hostInsertBefore this (some child)) (insertedNodes isRoot page child)) page
      (fun _ after => after.children = page.children) (fun _ => False) := by
  have hinsertable := NodeData.insertable_of_holds (intact.sound.kinds child this hchild)
  have htype : page.nodeType isRoot child ≠ 11 := by
    revert hinsertable
    rw [Page.nodeType]
    cases page.data child <;> simp [NodeData.isInsertable]
  rw [insertedNodes, if_neg htype, every]
  refine Method.ends_bind.mpr (ends_native.mpr ?_)
  have hsame := Page.children_insertBefore_self intact.sound this child
  exact Method.ends_ite (fun _ => hsame) fun _ => hsame

/-- Where `insertBefore` and, without a reference, `appendChild` leave the nodes. -/
theorem ends_insertBefore_placed (held : Held [this, child] page) :
    Method.Ends (insertBefore isRoot this child reference) page
      (fun result after => Page.Valid isRoot page child this reference [] ∧
        (reference = some child → after.children = page.children) ∧ (reference ≠ some child →
          PlacedUpTo (insertedNodes isRoot page child) reference this page (decide (result = some child)) after))
      (fun after => after = page) := by
  rw [insertBefore]
  refine Method.ends_bind.mpr ((ends_ensure held.intact.sound).mono (fun _ after h => ?_) fun _ h => h)
  obtain ⟨rfl, valid⟩ := h
  by_cases hself : reference = some child
  · subst hself
    have hevery := ends_every_self isRoot held.intact (valid.referenced child rfl)
    exact Method.ends_get_bind.mpr (Method.ends_bind.mpr (hevery.mono
      (fun _ _ hsame => ⟨valid, fun _ => hsame, fun hne => absurd rfl hne⟩) fun _ hfalse => hfalse.elim))
  · have hevery := ends_every_inserted held.intact hself
      (fun found hfound =>
        valid.insertable held.intact.sound (held.known child (by simp)) (held.known this (by simp)) hfound)
      valid.back fun id hid => held.intact.sound.mem_children (valid.referenced id hid)
    refine Method.ends_get_bind.mpr (Method.ends_bind.mpr (hevery.mono (fun inserted after hplaced => ?_)
      fun _ hfalse => hfalse.elim))
    refine ⟨valid, fun hsame => absurd hsame hself, fun _ => ?_⟩
    cases inserted with
    | true => simpa using hplaced
    | false => simpa using hplaced

end Script

namespace ScriptCall

variable {isRoot : NodeId → Bool} {page page' : Page} {calls : List ScriptCall} {this child : NodeId}
  {reference : Option NodeId}

end ScriptCall

end BetterWebBrowser.Dom
