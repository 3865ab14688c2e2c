import BetterWebBrowser.Dom.InsertionOrder

/-!
# Document order

A document has at most one doctype and one element, the doctype first, and no text. The checks before an
insertion keep it so, whatever else is in the document, and wherever the nodes come from.
-/

namespace BetterWebBrowser.Dom

open Framework

namespace Page

variable {page page' : Page} {isRoot : NodeId → Bool} {this node : NodeId} {reference : Option NodeId}
  {placed before after : List NodeId}

/-- What may stand before what in a document. -/
def Precedes (isRoot : NodeId → Bool) (page : Page) (first second : NodeId) : Prop :=
  ¬(page.nodeType isRoot first = 1 ∧ page.nodeType isRoot second = 1) ∧
    ¬(page.nodeType isRoot first = 10 ∧ page.nodeType isRoot second = 10) ∧
    ¬(page.nodeType isRoot first = 1 ∧ page.nodeType isRoot second = 10)

structure Arranged (isRoot : NodeId → Bool) (page : Page) : Prop where
  noText : ∀ document child, page.nodeType isRoot document = 9 → child ∈ page.children document →
    page.nodeType isRoot child ≠ 3 ∧ page.nodeType isRoot child ≠ 4
  ordered : ∀ document, page.nodeType isRoot document = 9 → (page.children document).Pairwise (Precedes isRoot page)
  doctypes : ∀ parent child, child ∈ page.children parent → page.nodeType isRoot child = 10 →
    page.nodeType isRoot parent = 9

theorem nodeType_of_data (h : page'.data node = page.data node) : page'.nodeType isRoot node = page.nodeType isRoot node := by
  rw [nodeType, nodeType, h]

/-- Children that leave, and nodes that come into no tree, disturb nothing. -/
theorem Arranged.of_sublist (arranged : page.Arranged isRoot)
    (hchildren : ∀ id, (page'.children id).Sublist (page.children id))
    (htype : ∀ id child, child ∈ page.children id → page'.nodeType isRoot id = page.nodeType isRoot id ∧
      page'.nodeType isRoot child = page.nodeType isRoot child) : page'.Arranged isRoot where
  noText := by
    intro document child hdocument hchild
    have hmem := (hchildren document).subset hchild
    obtain ⟨hparent, hsame⟩ := htype document child hmem
    rw [hparent] at hdocument
    rw [hsame]
    exact arranged.noText document child hdocument hmem
  ordered := by
    intro document hdocument
    cases hall : page'.children document with
    | nil => exact List.Pairwise.nil
    | cons head tail =>
      rw [← hall]
      have hfirst : head ∈ page.children document := (hchildren document).subset (by rw [hall]; exact List.mem_cons_self)
      rw [(htype document head hfirst).1] at hdocument
      refine ((arranged.ordered document hdocument).sublist (hchildren document)).imp_of_mem fun ha hb h => ?_
      have hfirst := (htype document _ ((hchildren document).subset ha)).2
      have hsecond := (htype document _ ((hchildren document).subset hb)).2
      rwa [Precedes, hfirst, hsecond]
  doctypes := by
    intro parent child hchild htypes
    have hmem := (hchildren parent).subset hchild
    obtain ⟨hparent, hsame⟩ := htype parent child hmem
    rw [hsame] at htypes
    rw [hparent]
    exact arranged.doctypes parent child hmem htypes

/-- Nodes fit between others if they may stand behind the ones and before the others. -/
structure Fits (isRoot : NodeId → Bool) (page : Page) (placed before after : List NodeId) : Prop where
  noText : ∀ node ∈ placed, page.nodeType isRoot node ≠ 3 ∧ page.nodeType isRoot node ≠ 4
  ordered : placed.Pairwise (Precedes isRoot page)
  behind : ∀ node ∈ placed, ∀ other ∈ before, Precedes isRoot page other node
  ahead : ∀ node ∈ placed, ∀ other ∈ after, Precedes isRoot page node other

theorem Arranged.of_placed (arranged : page.Arranged isRoot) (hdata : page'.data = page.data)
    (hplaced : Placed placed reference this page page')
    (hfits : ∀ before after, ((page.children this).filter fun child => child ∉ placed) = before ++ after →
      after.head? = reference → page.nodeType isRoot this = 9 → Fits isRoot page placed before after)
    (hdoctype : page.nodeType isRoot this ≠ 9 → ∀ node ∈ placed, page.nodeType isRoot node ≠ 10) :
    page'.Arranged isRoot := by
  have htype (id : NodeId) : page'.nodeType isRoot id = page.nodeType isRoot id := nodeType_of_data (congrFun hdata id)
  have hprecedes (a b : NodeId) : Precedes isRoot page' a b ↔ Precedes isRoot page a b := by
    rw [Precedes, Precedes, htype, htype]
  obtain ⟨before, after, hkept, hthis, hhead⟩ := hplaced.here
  have hold (id : NodeId) (hid : id ∈ before ++ after) : id ∈ page.children this := by
    rw [← hkept] at hid
    exact List.mem_of_mem_filter hid
  have hcases (id child : NodeId) (hchild : child ∈ page'.children id) :
      child ∈ page.children id ∨ id = this ∧ child ∈ placed := by
    by_cases hid : id = this
    · rw [hid, hthis, List.append_assoc, List.mem_append, List.mem_append] at hchild
      rcases hchild with hbefore | hnode | hafter
      · exact .inl (hid ▸ hold child (List.mem_append_left _ hbefore))
      · exact .inr ⟨hid, hnode⟩
      · exact .inl (hid ▸ hold child (List.mem_append_right _ hafter))
    · rw [hplaced.elsewhere id hid] at hchild
      exact .inl (List.mem_of_mem_filter hchild)
  refine ⟨fun document child hdocument hchild => ?_, fun document hdocument => ?_, fun parent child hchild hten => ?_⟩
  · rw [htype] at hdocument
    rw [htype]
    rcases hcases document child hchild with hmem | ⟨rfl, hmem⟩
    · exact arranged.noText document child hdocument hmem
    · exact (hfits before after hkept hhead hdocument).noText child hmem
  · rw [htype] at hdocument
    have hpairs : (page'.children document).Pairwise (Precedes isRoot page) := by
      by_cases hid : document = this
      · subst hid
        have fits := hfits before after hkept hhead hdocument
        have hrest : (before ++ after).Pairwise (Precedes isRoot page) := by
          rw [← hkept]
          exact (arranged.ordered document hdocument).filter _
        obtain ⟨hbefore, hafter, hcross⟩ := List.pairwise_append.mp hrest
        rw [hthis, List.append_assoc]
        refine List.pairwise_append.mpr ⟨hbefore, List.pairwise_append.mpr ⟨fits.ordered, hafter, fits.ahead⟩, ?_⟩
        intro first hfirst second hsecond
        rcases List.mem_append.mp hsecond with hnode | hlast
        · exact fits.behind second hnode first hfirst
        · exact hcross first hfirst second hlast
      · rw [hplaced.elsewhere document hid]
        exact (arranged.ordered document hdocument).filter _
    exact hpairs.imp fun h => (hprecedes _ _).mpr h
  · rw [htype] at hten
    rw [htype]
    rcases hcases parent child hchild with hmem | ⟨rfl, hmem⟩
    · exact arranged.doctypes parent child hmem hten
    · by_contra hnot
      exact hdoctype hnot child hmem hten

/-! ## What the check of a document ensures -/

theorem idxOf_of_split {children : List NodeId} (hnodup : children.Nodup) {node : NodeId} {rest : List NodeId}
    (h : children = before ++ node :: rest) : children.idxOf node = before.length := by
  have hnot : node ∉ before := by
    rw [h, List.nodup_append] at hnodup
    exact fun hmem => hnodup.2.2 node hmem node List.mem_cons_self rfl
  rw [h, List.idxOf_append_of_notMem hnot, List.idxOf_cons_self, Nat.add_zero]

/-- A document that takes an element has none, and no doctype behind it. -/
theorem of_elementError (before after : List NodeId) (sound : page.Sound) (h : page.elementError isRoot this reference [] = none) :
    (∀ child ∈ page.children this, page.nodeType isRoot child ≠ 1) ∧
      (page.children this = before ++ after → after.head? = reference →
        ∀ child ∈ after, page.nodeType isRoot child ≠ 10) := by
  rw [elementError] at h
  split at h
  next => cases h
  next hnone =>
    obtain ⟨hremaining, hrest⟩ := not_or.mp hnone
    obtain ⟨hfollowing, hreference⟩ := not_or.mp hrest
    refine ⟨by simpa using hremaining, fun hsplit hhead child hchild => ?_⟩
    cases after with
    | nil => cases hchild
    | cons first rest =>
      obtain rfl : some first = reference := hhead
      have hindex := idxOf_of_split (sound.childrenNodup this) hsplit
      have hdrop : (page.children this).drop (before.length + 1) = rest := by
        rw [hsplit, ← List.drop_drop, List.drop_left]
        rfl
      rcases List.mem_cons.mp hchild with rfl | hrest
      · simpa using hreference
      · rw [Option.map_some, Option.getD_some, hindex, hdrop] at hfollowing
        have hall : ∀ other ∈ rest, page.nodeType isRoot other ≠ 10 := by simpa using hfollowing
        exact hall child hrest

/-- A document that takes a doctype has none, and no element in front of it. -/
theorem of_doctypeError (before after : List NodeId) (sound : page.Sound) (h : page.doctypeError isRoot this reference [] = none) :
    (∀ child ∈ page.children this, page.nodeType isRoot child ≠ 10) ∧
      (page.children this = before ++ after → after.head? = reference →
        ∀ child ∈ before, page.nodeType isRoot child ≠ 1) := by
  rw [doctypeError] at h
  split at h
  next => cases h
  next hnone =>
    obtain ⟨hremaining, hrest⟩ := not_or.mp hnone
    obtain ⟨hpreceding, hend⟩ := not_or.mp hrest
    refine ⟨by simpa using hremaining, fun hsplit hhead child hchild => ?_⟩
    cases after with
    | nil =>
      obtain rfl : none = reference := hhead
      rw [List.append_nil] at hsplit
      have hall : ∀ other ∈ page.children this, page.nodeType isRoot other ≠ 1 := by simpa using hend
      exact hall child (hsplit ▸ hchild)
    | cons first rest =>
      obtain rfl : some first = reference := hhead
      have hindex := idxOf_of_split (sound.childrenNodup this) hsplit
      have htake : (page.children this).take before.length = before := by rw [hsplit, List.take_left]
      rw [Option.map_some, Option.getD_some, hindex, htake] at hpreceding
      have hall : ∀ other ∈ before, page.nodeType isRoot other ≠ 1 := by simpa using hpreceding
      exact hall child hchild

/-- A node that is neither element nor doctype may stand anywhere. -/
theorem precedes_of_free {first second : NodeId} (h : page.nodeType isRoot first ≠ 1 ∧ page.nodeType isRoot first ≠ 10 ∨
    page.nodeType isRoot second ≠ 1 ∧ page.nodeType isRoot second ≠ 10) : Precedes isRoot page first second := by
  rw [Precedes]
  omega

theorem fits_of_free (h : ∀ node ∈ placed, page.nodeType isRoot node ∉ [1, 3, 4, 10]) : Fits isRoot page placed before after := by
  have hfree (node : NodeId) (hnode : node ∈ placed) :
      page.nodeType isRoot node ≠ 1 ∧ page.nodeType isRoot node ≠ 10 := by
    have hmem := h node hnode
    simp only [List.mem_cons, List.not_mem_nil, or_false, not_or] at hmem
    exact ⟨hmem.1, hmem.2.2.2⟩
  refine ⟨fun node hnode => ?_, ?_, fun node hnode other _ => precedes_of_free (.inr (hfree node hnode)),
    fun node hnode other _ => precedes_of_free (.inl (hfree node hnode))⟩
  · have hmem := h node hnode
    simp only [List.mem_cons, List.not_mem_nil, or_false, not_or] at hmem
    exact ⟨hmem.2.1, hmem.2.2.1⟩
  · exact (List.pairwise_of_forall_mem_list fun first hfirst second _ => precedes_of_free (.inl (hfree first hfirst)))

/-- At most one element among nodes that are no texts and no doctypes. -/
theorem fits_of_elements (hnoText : ∀ node ∈ placed, page.nodeType isRoot node ∉ [3, 4, 10])
    (hone : (placed.filter fun node => page.nodeType isRoot node = 1).length ≤ 1)
    (hbefore : ∀ other ∈ before, page.nodeType isRoot other ≠ 1)
    (hafter : ∀ other ∈ after, page.nodeType isRoot other ≠ 1 ∧ page.nodeType isRoot other ≠ 10) :
    Fits isRoot page placed before after := by
  have hnot (node : NodeId) (hnode : node ∈ placed) : page.nodeType isRoot node ≠ 3 ∧ page.nodeType isRoot node ≠ 4 ∧
      page.nodeType isRoot node ≠ 10 := by
    have hmem := hnoText node hnode
    simp only [List.mem_cons, List.not_mem_nil, or_false, not_or] at hmem
    exact hmem
  refine ⟨fun node hnode => ⟨(hnot node hnode).1, (hnot node hnode).2.1⟩, ?_, fun node hnode other hother => ?_,
    fun node hnode other hother => ?_⟩
  · have hpairs : (placed.filter fun node => page.nodeType isRoot node = 1).Pairwise fun _ _ => False := by
      cases hlist : placed.filter fun node => page.nodeType isRoot node = 1 with
      | nil => exact List.Pairwise.nil
      | cons first rest =>
        rw [hlist, List.length_cons] at hone
        have hrest : rest = [] := List.eq_nil_of_length_eq_zero (by omega)
        rw [hrest]
        exact List.pairwise_singleton _ _
    rw [List.pairwise_filter] at hpairs
    refine hpairs.imp_of_mem fun ha hb h => ?_
    have hfirst := (hnot _ ha).2.2
    have hsecond := (hnot _ hb).2.2
    simp only [decide_eq_true_iff] at h
    exact ⟨fun hboth => h hboth.1 hboth.2, fun hboth => hfirst hboth.1, fun hboth => hsecond hboth.2⟩
  · have hnode := (hnot node hnode).2.2
    have hother := hbefore other hother
    rw [Precedes]
    omega
  · have hnode := (hnot node hnode).2.2
    have hother := hafter other hother
    rw [Precedes]
    omega

/-- One doctype. -/
theorem fits_of_doctype (hten : ∀ node ∈ placed, page.nodeType isRoot node = 10) (hone : placed.length ≤ 1)
    (hbefore : ∀ other ∈ before, page.nodeType isRoot other ≠ 1 ∧ page.nodeType isRoot other ≠ 10)
    (hafter : ∀ other ∈ after, page.nodeType isRoot other ≠ 10) : Fits isRoot page placed before after := by
  refine ⟨fun node hnode => ?_, ?_, fun node hnode other hother => ?_, fun node hnode other hother => ?_⟩
  · rw [hten node hnode]
    decide
  · cases placed with
    | nil => exact List.Pairwise.nil
    | cons first rest =>
      have hrest : rest = [] := List.eq_nil_of_length_eq_zero (by simpa using hone)
      rw [hrest]
      exact List.pairwise_singleton _ _
  · exact precedes_of_free (.inl (hbefore other hother))
  · have hnode := hten node hnode
    have hother := hafter other hother
    rw [Precedes]
    omega

theorem kept_of_new {nodes : List NodeId} (hupTo : placed <+: nodes) (hnew : ∀ node ∈ nodes, node ∉ page.children this)
    (hkept : ((page.children this).filter fun child => child ∉ placed) = before ++ after) :
    page.children this = before ++ after := by
  rw [← hkept, filter_not_mem_of_disjoint fun node hnode => hnew node (hupTo.subset hnode)]

/-- What comes into a document after the checks fits where it comes. -/
theorem Valid.fits (valid : Valid isRoot page node this reference []) (sound : page.Sound)
    (arranged : page.Arranged isRoot) (hdocument : page.nodeType isRoot this = 9)
    (hupTo : placed <+: Script.insertedNodes isRoot page node)
    (hkept : ((page.children this).filter fun child => child ∉ placed) = before ++ after)
    (hhead : after.head? = reference) : Fits isRoot page placed before after := by
  have herror := valid.document hdocument
  rw [documentError] at herror
  rw [Script.insertedNodes] at hupTo
  by_cases hfragment : page.nodeType isRoot node = 11
  · -- the children of a fragment: at most one element, no text, no doctype
    rw [if_pos hfragment] at hupTo
    simp only [hfragment, Nat.reduceEqDiff, or_self, if_false, if_true] at herror
    obtain ⟨hchildren, helement⟩ := Option.or_eq_none_iff.mp herror
    have hthis : this ≠ node := by
      rintro rfl
      exact valid.back .refl
    have hnew (other : NodeId) (hother : other ∈ page.children node) : other ∉ page.children this := by
      intro hmem
      have hlink := sound.parent_of_mem hmem
      rw [sound.parent_of_mem hother] at hlink
      exact hthis (Option.some.inj hlink).symm
    rw [fragmentError] at hchildren
    split at hchildren
    next => cases hchildren
    next hfine =>
      obtain ⟨hcount, htexts⟩ := not_or.mp hfine
      have hnoText (other : NodeId) (hother : other ∈ placed) : page.nodeType isRoot other ∉ [3, 4, 10] := by
        have hmem := hupTo.subset hother
        have htext : ∀ child ∈ page.children node, page.nodeType isRoot child ≠ 3 ∧ page.nodeType isRoot child ≠ 4 := by
          simpa using htexts
        have hdoctype : page.nodeType isRoot other ≠ 10 := by
          intro hten
          have hnine := arranged.doctypes node other hmem hten
          rw [hfragment] at hnine
          cases hnine
        simpa using ⟨(htext other hmem).1, (htext other hmem).2, hdoctype⟩
      by_cases hany : ((page.children node).any fun candidate => page.nodeType isRoot candidate = 1) = true
      · rw [if_pos hany] at helement
        have hsplit := kept_of_new hupTo hnew hkept
        obtain ⟨hnone, hbehind⟩ := of_elementError before after sound helement
        refine fits_of_elements hnoText ?_ (fun other hother => hnone other ?_) fun other hother =>
          ⟨hnone other ?_, hbehind hsplit hhead other hother⟩
        · exact ((hupTo.sublist.filter _).length_le).trans (Nat.not_lt.mp hcount)
        · exact hsplit ▸ List.mem_append_left _ hother
        · exact hsplit ▸ List.mem_append_right _ hother
      · refine fits_of_free fun other hother => ?_
        have hothers : ∀ child ∈ page.children node, page.nodeType isRoot child ≠ 1 := by simpa using hany
        have hone := hothers other (hupTo.subset hother)
        have hmem := hnoText other hother
        simp only [List.mem_cons, List.not_mem_nil, or_false, not_or] at hmem ⊢
        exact ⟨hone, hmem⟩
  · rw [if_neg hfragment] at hupTo
    have honly (other : NodeId) (hother : other ∈ placed) : other = node := List.mem_singleton.mp (hupTo.subset hother)
    have hkinds : page.nodeType isRoot node ∈ [1, 3, 4, 7, 8, 10] := by
      have hinsertable := valid.kind.resolve_left hfragment
      revert hinsertable
      rw [nodeType]
      cases page.data node <;> simp [NodeData.isInsertable]
    -- a node whose type no child has comes from elsewhere
    have hnew (type : Nat) (hnode : page.nodeType isRoot node = type)
        (hnone : ∀ child ∈ page.children this, page.nodeType isRoot child ≠ type) :
        ∀ other ∈ [node], other ∉ page.children this := fun other hother hmem =>
      hnone other hmem (List.mem_singleton.mp hother ▸ hnode)
    by_cases htext : page.nodeType isRoot node = 3 ∨ page.nodeType isRoot node = 4
    · rw [if_pos htext] at herror
      cases herror
    · rw [if_neg htext] at herror
      by_cases hfree : page.nodeType isRoot node = 7 ∨ page.nodeType isRoot node = 8
      · refine fits_of_free fun other hother => ?_
        rw [honly other hother]
        rcases hfree with htype | htype <;> simp [htype]
      · rw [if_neg hfree, if_neg hfragment] at herror
        by_cases helement : page.nodeType isRoot node = 1
        · rw [if_pos helement] at herror
          obtain ⟨hnone, hbehind⟩ := of_elementError before after sound herror
          have hsplit := kept_of_new hupTo (hnew 1 helement hnone) hkept
          refine fits_of_elements (fun other hother => ?_) ?_ (fun other hother => hnone other ?_) fun other hother =>
            ⟨hnone other ?_, hbehind hsplit hhead other hother⟩
          · rw [honly other hother, helement]
            decide
          · exact (List.length_filter_le _ _).trans hupTo.length_le
          · exact hsplit ▸ List.mem_append_left _ hother
          · exact hsplit ▸ List.mem_append_right _ hother
        · rw [if_neg helement] at herror
          have hten : page.nodeType isRoot node = 10 := by
            simp only [List.mem_cons, List.not_mem_nil, or_false] at hkinds
            omega
          obtain ⟨hnone, hfront⟩ := of_doctypeError before after sound herror
          have hsplit := kept_of_new hupTo (hnew 10 hten hnone) hkept
          exact fits_of_doctype (fun other hother => honly other hother ▸ hten) hupTo.length_le
            (fun other hother => ⟨hfront hsplit hhead other hother, hnone other (hsplit ▸ List.mem_append_left _ hother)⟩)
            fun other hother => hnone other (hsplit ▸ List.mem_append_right _ hother)

/-! ## What the operations keep -/

theorem Arranged.of_children (arranged : page.Arranged isRoot) (hdata : page'.data = page.data)
    (hchildren : ∀ id, (page'.children id).Sublist (page.children id)) : page'.Arranged isRoot :=
  arranged.of_sublist hchildren fun id child _ =>
    ⟨nodeType_of_data (congrFun hdata id), nodeType_of_data (congrFun hdata child)⟩

theorem arranged_removeChild (sound : page.Sound) (arranged : page.Arranged isRoot) (parent child : NodeId) :
    (page.removeChild parent child).1.Arranged isRoot := by
  refine arranged.of_children (data_removeChild sound parent child).1 fun id => ?_
  rw [removeChild]
  split
  next => exact List.Sublist.refl _
  next =>
    split
    next => exact List.Sublist.refl _
    next =>
      rw [children_removeFromParent sound]
      exact List.erase_sublist

theorem arranged_clearChildren (sound : page.Sound) (arranged : page.Arranged isRoot) (node : NodeId) :
    (page.clearChildren node).Arranged isRoot := by
  refine arranged.of_children (data_clearChildren sound node).1 fun id => ?_
  rw [Heap.children_of_cut (detached_clearChildren sound node).shape]
  by_cases hsame : id = node
  · rw [hsame, Function.update_self]
    exact List.filter_sublist
  · rw [Function.update_of_ne hsame]

theorem arranged_appendChild (intact : page.Intact) (arranged : page.Arranged isRoot) (h : page.Insertable this node)
    (hdocument : page.nodeType isRoot this ≠ 9) (hdoctype : page.nodeType isRoot node ≠ 10) :
    (page.appendChild this node).1.Arranged isRoot := by
  cases haccepted : (page.appendChild this node).2 with
  | false =>
    rcases appendChild_eq page this node with hrefused | ⟨-, hdone⟩
    · rw [hrefused]
      exact arranged
    · rw [hdone] at haccepted
      cases haccepted
  | true =>
    refine arranged.of_placed (inserts_appendChild intact h).data (placed_appendChild intact.sound haccepted)
      (fun _ _ _ _ hnine => absurd hnine hdocument) fun _ other hother => ?_
    rw [List.mem_singleton.mp hother]
    exact hdoctype

theorem arranged_appendAll (intact : page.Intact) (arranged : page.Arranged isRoot) {nodes : List NodeId}
    (h : ∀ node ∈ nodes, page.Insertable this node ∧ page.nodeType isRoot node ≠ 10)
    (hdocument : page.nodeType isRoot this ≠ 9) : (page.appendAll this nodes).Arranged isRoot := by
  induction nodes generalizing page with
  | nil => exact arranged
  | cons node nodes ih =>
    obtain ⟨hinsertable, hdoctype⟩ := h node List.mem_cons_self
    have hinserts := inserts_appendChild intact hinsertable
    have htype (id : NodeId) : (page.appendChild this node).1.nodeType isRoot id = page.nodeType isRoot id :=
      nodeType_of_data (congrFun hinserts.data id)
    refine ih hinserts.intact (arranged_appendChild intact arranged hinsertable hdocument hdoctype)
      (fun other hother => ?_) ?_
    · rw [htype]
      exact ⟨hinserts.insertable other (h other (List.mem_cons_of_mem _ hother)).1,
        (h other (List.mem_cons_of_mem _ hother)).2⟩
    · rwa [htype]

/-- A node that was created is in no tree, and the others are what they were. -/
theorem Arranged.of_grown (arranged : page.Arranged isRoot) (sound : page.Sound)
    (grown : Heap.Sound.Grown page.toHeap page'.toHeap node)
    (htype : ∀ id, id ≠ node → page'.nodeType isRoot id = page.nodeType isRoot id) : page'.Arranged isRoot := by
  refine arranged.of_sublist (fun id => by rw [grown.children]) fun id child hchild => ?_
  obtain ⟨hne, hparent⟩ := sound.ne_of_parent grown.fresh (sound.parent_of_mem hchild)
  exact ⟨htype id hparent, htype child hne⟩

theorem arranged_newIn (sound : page.Sound) (arranged : page.Arranged isRoot) (document : Nat) (data : NodeData) :
    (page.newIn document data).1.Arranged isRoot := by
  refine arranged.of_grown sound (grown_newIn sound document data) fun id hne => nodeType_of_data ?_
  rw [data_newIn, Function.update_of_ne hne]

/-- Contents of a node are written that is the same kind of node afterwards. -/
theorem arranged_setData (arranged : page.Arranged isRoot) {data : NodeData}
    (hshape : page'.shape = (page.setData node data).shape)
    (hkind : ∀ after : Page, after.data node = data → after.nodeType isRoot node = page.nodeType isRoot node) :
    page'.Arranged isRoot := by
  rw [Heap.shape_setData] at hshape
  have hdata : page'.data = Function.update page.data node data := congrArg Shape.data hshape
  have hchildren : page'.children = page.children := congrArg Shape.children hshape
  have hsame (id : NodeId) : page'.nodeType isRoot id = page.nodeType isRoot id := by
    by_cases hid : id = node
    · rw [hid]
      exact hkind page' (by rw [hdata, Function.update_self])
    · exact nodeType_of_data (by rw [hdata, Function.update_of_ne hid])
  exact arranged.of_sublist (fun id => by rw [hchildren]) fun id child _ => ⟨hsame id, hsame child⟩

theorem arranged_setTextContent (intact : page.Intact) (arranged : page.Arranged isRoot) (hnode : node ∈ page.allocated)
    (hdocument : page.nodeType isRoot node ≠ 9) (contents : Str) : (page.setTextContent node contents).Arranged isRoot := by
  have hcharacters {data : NodeData} (hkind : ∀ after : Page, after.data node = data →
      after.nodeType isRoot node = page.nodeType isRoot node) :
      ((page.onHeap fun heap => heap.setData node data).markMutated node).Arranged isRoot :=
    arranged_setData arranged (Heap.shape_markMutated node) hkind
  have hintact := intact_clearChildren intact node
  have hcleared := arranged_clearChildren intact.sound arranged node
  obtain ⟨hdata, hallocated⟩ := data_clearChildren intact.sound node
  -- a text in the place of the children
  have hreplaced (hholds : (page.data node).holds (.text contents) = true) :
      (if contents = [] then page.clearChildren node
        else ((page.clearChildren node).createTextFor node contents).1.appendChild node
          ((page.clearChildren node).createTextFor node contents).2 |>.1).Arranged isRoot := by
    split
    next => exact hcleared
    next =>
      have hgrown := grown_newIn hintact.sound node.document (.text contents)
      have hcreated := data_newIn (page.clearChildren node) node.document (.text contents)
      have hne : node ≠ ((page.clearChildren node).newIn node.document (.text contents)).2 :=
        fun hsame => hgrown.fresh (by rwa [← hsame, hallocated])
      refine arranged_appendChild (intact_newIn hintact node.document rfl) (arranged_newIn hintact.sound hcleared _ _)
        (insertable_newIn hintact node.document rfl (by rwa [hallocated]) (by rwa [hdata])) ?_ ?_
      · have hsame : ((page.clearChildren node).newIn node.document (.text contents)).1.data node = page.data node := by
          rw [hcreated, Function.update_of_ne hne, hdata]
        rw [createTextFor, nodeType_of_data hsame]
        exact hdocument
      · rw [createTextFor, nodeType, hcreated, Function.update_self]
        exact Nat.ne_of_beq_eq_false rfl
  rw [setTextContent]
  split
  next hkind => exact hcharacters fun after hafter => by rw [nodeType, nodeType, hkind, hafter]
  next hkind => exact hcharacters fun after hafter => by rw [nodeType, nodeType, hkind, hafter]
  next hkind => exact hcharacters fun after hafter => by rw [nodeType, nodeType, hkind, hafter]
  next hkind => exact hcharacters fun after hafter => by rw [nodeType, nodeType, hkind, hafter]
  next htext hcdata hcomment hinstruction => exact hreplaced (holds_text htext hcdata hcomment hinstruction)

theorem arranged_replaceInnerHtml (intact : page.Intact) (arranged : page.Arranged isRoot) {parsed : List NodeId}
    (h : ∀ found ∈ parsed, page.Insertable (page.innerTarget node) found ∧ page.nodeType isRoot found ≠ 10)
    (hdocument : page.nodeType isRoot (page.innerTarget node) ≠ 9) : (page.replaceInnerHtml node parsed).Arranged isRoot := by
  rcases replaceInnerHtml_eq page node parsed with hcleared | hfilled
  · rw [hcleared]
    exact arranged_clearChildren intact.sound arranged node
  · have hdetached := detached_clearChildren intact.sound (page.innerTarget node)
    have hdata := (data_clearChildren intact.sound (page.innerTarget node)).1
    have htype (id : NodeId) : (page.clearChildren (page.innerTarget node)).nodeType isRoot id = page.nodeType isRoot id :=
      nodeType_of_data (congrFun hdata id)
    rw [hfilled]
    refine arranged_appendAll (intact_clearChildren intact _) (arranged_clearChildren intact.sound arranged _)
      (fun found hfound => ⟨(h found hfound).1.of_detached intact.sound hdetached, ?_⟩) ?_
    · rw [htype]
      exact (h found hfound).2
    · rwa [htype]

theorem arranged_reuseShadow (intact : page.Intact) (arranged : page.Arranged isRoot) {root : NodeId}
    {shadow : ShadowRootData} (hroot : page.data root = .shadowRoot shadow) :
    (page.reuseShadow root shadow).Arranged isRoot := by
  have hemptied (nodes : List NodeId) : ∀ page : Page, page.Intact → page.Arranged isRoot →
      (nodes.foldl (fun page child => (page.removeChild root child).1) page).Arranged isRoot := by
    induction nodes with
    | nil => exact fun _ _ harranged => harranged
    | cons child nodes ih =>
      intro page hpage harranged
      exact ih _ (intact_removeChild hpage root child) (arranged_removeChild hpage.sound harranged root child)
  have hdata := (foldl_removeChild intact root (page.children root)).2.1
  refine arranged_setData (hemptied (page.children root) page intact arranged) rfl fun after hafter => ?_
  rw [nodeType, nodeType, hafter, hdata, hroot]

theorem arranged_attachShadow (intact : page.Intact) (arranged : page.Arranged isRoot) (host : NodeId)
    (options : ShadowOptions) : (page.attachShadow host options).1.Arranged isRoot := by
  rw [attachShadow]
  split
  next => exact arranged
  next element helement =>
    split
    next root hroot =>
      split
      next shadow hshadow =>
        split
        next => exact arranged
        next => exact arranged_reuseShadow intact arranged hshadow
      next => exact arranged
    next hnone =>
      have hsound := intact.sound
      have hgrown := grown_newIn intact.sound host.document (.shadowRoot (options.rootData host))
      have hcreated := data_newIn page host.document (.shadowRoot (options.rootData host))
      have harranged := arranged_newIn intact.sound arranged host.document (.shadowRoot (options.rootData host))
      have hhost : host ∈ page.allocated := hsound.allocated_of_element (by rw [helement, Option.isSome_some])
      have hne : host ≠ (page.newIn host.document (.shadowRoot (options.rootData host))).2 :=
        fun hsame => hgrown.fresh (hsame ▸ hhost)
      generalize page.newIn host.document (.shadowRoot (options.rootData host)) = created at *
      refine arranged_setData harranged (Heap.shape_markMutated host) fun after hafter => ?_
      rw [nodeType, nodeType, hafter, hcreated, Function.update_of_ne hne, Heap.data_of_element helement]

theorem arranged_of_shape (arranged : page.Arranged isRoot) (hshape : page'.shape = page.shape) : page'.Arranged isRoot := by
  have hchildren : page'.children = page.children := congrArg Shape.children hshape
  exact arranged.of_children (congrArg Shape.data hshape) fun id => by rw [hchildren]

end Page

namespace Script

variable {isRoot : NodeId → Bool} {page : Page} {this child : NodeId}

/-- An insertion of a script keeps every document in order. -/
theorem keeps_arranged_insertBefore (isRoot : NodeId → Bool) (this child : NodeId) (reference : Option NodeId) :
    Method.Keeps (fun page => Held [this, child] page ∧ page.Arranged isRoot)
      (insertBefore isRoot this child reference) := by
  rintro page ⟨held, arranged⟩
  have hinserts := ends_insertBefore_inserts isRoot held List.mem_cons_self (List.mem_cons_of_mem _ List.mem_cons_self)
    reference
  refine ((ends_insertBefore_placed held).and hinserts).mono (fun result after h => ?_)
    fun after hsame => hsame.1 ▸ ⟨held, arranged⟩
  obtain ⟨⟨valid, hself, hplaced⟩, inserts⟩ := h
  refine ⟨held.inserts inserts, ?_⟩
  by_cases hreference : reference = some child
  · exact arranged.of_children inserts.data fun id => by rw [hself hreference]
  · obtain ⟨placed, hupTo, -, hthere⟩ := hplaced hreference
    refine arranged.of_placed inserts.data hthere (fun before after hkept hhead hdocument =>
      valid.fits held.intact.sound arranged hdocument hupTo hkept hhead) fun hdocument node hnode hten => ?_
    have hmem := hupTo.subset hnode
    rw [insertedNodes] at hmem
    split at hmem
    next hfragment =>
      have hnine := arranged.doctypes child node hmem hten
      rw [hfragment] at hnine
      cases hnine
    next =>
      rw [List.mem_singleton.mp hmem] at hten
      exact valid.doctype hdocument hten

end Script

namespace ScriptCall

variable {isRoot : NodeId → Bool} {page page' : Page} {calls : List ScriptCall} {call : ScriptCall}

/-- The contents of no document are replaced as a whole, and no doctype was parsed for an element. -/
def SparesDocuments (isRoot : NodeId → Bool) (page : Page) : ScriptCall → Prop
  | .setTextContent node _ => page.nodeType isRoot node ≠ 9
  | .setInnerHtml node parsed => page.nodeType isRoot (page.innerTarget node) ≠ 9 ∧
      ∀ found ∈ parsed, page.nodeType isRoot found ≠ 10
  | _ => True

theorem arranged_perform (intact : page.Intact) (arranged : page.Arranged isRoot) (allowed : call.Allowed page)
    (spares : call.SparesDocuments isRoot page) : (call.perform isRoot page).2.Arranged isRoot := by
  have hremove : ∀ page : Page, page.Intact ∧ page.Arranged isRoot → ∀ parent child,
      (page.removeChild parent child).1.Intact ∧ (page.removeChild parent child).1.Arranged isRoot :=
    fun page h parent child =>
      ⟨Page.intact_removeChild h.1 parent child, Page.arranged_removeChild h.1.sound h.2 parent child⟩
  have hheld (this child : NodeId) : ∀ page : Page, Script.Held [this, child] page ∧ page.Arranged isRoot →
      ∀ parent node, Script.Held [this, child] (page.removeChild parent node).1 ∧
        (page.removeChild parent node).1.Arranged isRoot :=
    fun page h parent node =>
      ⟨Script.held_removeChild h.1 parent node, Page.arranged_removeChild h.1.intact.sound h.2 parent node⟩
  have hinsert (this child : NodeId) (reference : Option NodeId) :=
    Script.keeps_arranged_insertBefore isRoot this child reference
  cases call with
  | createNode owner data => exact Page.arranged_newIn intact.sound arranged owner.document data
  | appendChild this child =>
    exact (((hinsert this child none).bind fun _ => Method.Keeps.pure ()).after
      ⟨held_of_allowed intact allowed, arranged⟩).2
  | insertBefore this child reference =>
    exact (((hinsert this child reference).bind fun _ => Method.Keeps.pure ()).after
      ⟨held_of_allowed intact allowed, arranged⟩).2
  | removeChild this child =>
    exact (((Script.keeps_removeChild hremove this child).bind fun _ => Method.Keeps.pure ()).after
      ⟨intact, arranged⟩).2
  | remove this => exact ((Script.keeps_remove hremove this).after ⟨intact, arranged⟩).2
  | replaceChild this child replaced =>
    exact (((Script.keeps_replaceChild (hheld this child) (hinsert this child) replaced).bind fun _ =>
      Method.Keeps.pure ()).after ⟨held_of_allowed intact allowed, arranged⟩).2
  | replaceChildren this replacement =>
    exact ((Script.keeps_replaceChildren (hheld this replacement) (hinsert this replacement)).after
      ⟨held_of_allowed intact allowed, arranged⟩).2
  | setTextContent node contents => exact Page.arranged_setTextContent intact arranged allowed spares contents
  | setInnerHtml node parsed =>
    exact Page.arranged_replaceInnerHtml intact arranged (fun found hfound => ⟨allowed found hfound, spares.2 found hfound⟩)
      spares.1
  | attachShadow host options => exact Page.arranged_attachShadow intact arranged host options
  | setFocus next => exact Page.arranged_of_shape arranged (Page.shape_setFocus intact next)

/-- A step of a script that spares documents. -/
def SparingStep (isRoot : NodeId → Bool) (page : Page) (call : ScriptCall) (page' : Page) : Prop :=
  (call.Allowed page ∧ call.SparesDocuments isRoot page) ∧ page' = (call.perform isRoot page).2

/-- Scripts that do not replace the contents of a document as a whole leave every document in order: no text,
at most one doctype and one element, the doctype first. -/
theorem documents_stay_arranged (run : Run (SparingStep isRoot) Page.empty calls page) : page.Arranged isRoot := by
  have hempty : Page.empty.Arranged isRoot :=
    ⟨fun _ _ _ h => absurd h List.not_mem_nil, fun _ _ => List.Pairwise.nil, fun _ _ h => absurd h List.not_mem_nil⟩
  refine (run.invariant (fun page => page.Intact ∧ page.Arranged isRoot) ⟨intact_empty, hempty⟩ ?_).2
  rintro before call after ⟨intact, arranged⟩ ⟨⟨allowed, spares⟩, rfl⟩
  exact ⟨intact_perform intact allowed, arranged_perform intact arranged allowed spares⟩

/-- A document takes its element, then its doctype before it, and refuses a second element. -/
def documentCalls : List ScriptCall :=
  [.createNode ⟨0, 0⟩ .document, .createNode ⟨0, 0⟩ (.doctype "html".toList [] []), .createNode ⟨0, 0⟩ divData,
   .createNode ⟨0, 0⟩ divData, .appendChild ⟨0, 1⟩ ⟨0, 3⟩, .insertBefore ⟨0, 1⟩ ⟨0, 2⟩ (some ⟨0, 3⟩),
   .appendChild ⟨0, 1⟩ ⟨0, 4⟩]

theorem documents_stay_arranged_document :
    (documentCalls.foldl (fun page call => (call.perform (fun id => id = ⟨0, 1⟩) page).2) Page.empty).children ⟨0, 1⟩ =
        [⟨0, 2⟩, ⟨0, 3⟩] ∧
      (documentCalls.foldl (fun page call => (call.perform (fun id => id = ⟨0, 1⟩) page).2) Page.empty).Arranged
        (fun id => id = ⟨0, 1⟩) := by
  have run : Run (SparingStep fun id => id = ⟨0, 1⟩) Page.empty documentCalls
      (documentCalls.foldl (fun page call => (call.perform (fun id => id = ⟨0, 1⟩) page).2) Page.empty) :=
    Run.guarded ⟨⟨rfl, trivial⟩, ⟨rfl, trivial⟩, ⟨rfl, trivial⟩, ⟨rfl, trivial⟩, ⟨⟨by decide, by decide⟩, trivial⟩,
      ⟨⟨by decide, by decide⟩, trivial⟩, ⟨⟨by decide, by decide⟩, trivial⟩, trivial⟩
  exact ⟨by decide, documents_stay_arranged run⟩

end ScriptCall

end BetterWebBrowser.Dom
