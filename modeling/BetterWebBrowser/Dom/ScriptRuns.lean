import BetterWebBrowser.Dom.IntactPages
import BetterWebBrowser.Dom.ScriptTree
import BetterWebBrowser.Framework.MethodRuns
import BetterWebBrowser.Framework.Transition

/-!
# Script runs

Scripts create, insert and remove nodes in any order, attach shadow trees and move the focus. Whatever they
do, the page stays intact: the check before an insertion refuses what the host would not refuse.
-/

namespace BetterWebBrowser.Dom

open Framework

namespace Page

variable {page page' : Page} {isRoot : NodeId → Bool} {node parent child : NodeId}

/-! ## What the check ensures -/

theorem nodeType_of_shadowHost {host : NodeId} (h : page.shadowHost node = some host) : page.nodeType isRoot node = 11 := by
  obtain ⟨shadow, hdata, -⟩ := Heap.shadowHost_eq_some.mp h
  rw [nodeType, hdata]

/-- The walk of the check goes the way of the shadow-including tree. -/
theorem hostIncludingParent_eq (page : Page) (isRoot : NodeId → Bool) :
    page.hostIncludingParent isRoot = page.shadowIncludingParent := by
  funext id
  rw [hostIncludingParent, Heap.shadowIncludingParent]
  cases page.parent id with
  | some parent => rfl
  | none =>
    cases hhost : page.shadowHost id with
    | none => exact ite_self none
    | some host => exact if_pos (nodeType_of_shadowHost hhost)

theorem isHostIncludingInclusiveAncestor_iff (sound : page.Sound) :
    page.isHostIncludingInclusiveAncestor isRoot parent node = true ↔
      Walk.Reaches page.shadowIncludingParent node parent := by
  rw [isHostIncludingInclusiveAncestor, hostIncludingParent_eq, decide_eq_true_iff]
  exact (sound.ends node).mem_iff

/-- What a node that passed the checks is. -/
structure Valid (isRoot : NodeId → Bool) (page : Page) (node parent : NodeId) (reference : Option NodeId)
    (excluded : List NodeId) : Prop where
  container : (page.data parent).isContainer = true
  back : ¬Walk.Reaches page.shadowIncludingParent parent node
  kind : page.nodeType isRoot node = 11 ∨ (page.data node).isInsertable = true
  referenced : ∀ id, reference = some id → page.parent id = some parent
  document : page.nodeType isRoot parent = 9 → page.documentError isRoot node parent reference excluded = none
  doctype : page.nodeType isRoot parent ≠ 9 → page.nodeType isRoot node ≠ 10

theorem valid_of_insertionError (sound : page.Sound) {reference : Option NodeId} {excluded : List NodeId}
    (h : page.insertionError isRoot node parent reference excluded = none) :
    Valid isRoot page node parent reference excluded := by
  rw [insertionError] at h
  split at h
  next => cases h
  next hparent =>
    split at h
    next => cases h
    next hback =>
      split at h
      next => cases h
      next hreference =>
        split at h
        next => cases h
        next htype =>
          refine ⟨?_, fun hreach => hback ((isHostIncludingInclusiveAncestor_iff sound).mpr hreach), ?_, ?_, ?_, ?_⟩
          · revert hparent
            rw [nodeType]
            cases page.data parent <;> simp [NodeData.isContainer]
          · revert htype
            rw [nodeType]
            cases page.data node <;> simp [NodeData.isInsertable]
            split <;> simp
          · rintro id rfl
            simpa using hreference
          · intro hdocument
            rwa [if_neg (not_not.mpr hdocument)] at h
          · intro hdocument hdoctype
            rw [if_pos hdocument, if_pos hdoctype] at h
            cases h

/-- Every node that comes with a valid one may be inserted. -/
theorem Valid.insertable {reference : Option NodeId} {excluded : List NodeId}
    (valid : Valid isRoot page node parent reference excluded) (sound : page.Sound) (hnode : node ∈ page.allocated)
    (hparent : parent ∈ page.allocated) {found : NodeId} (hfound : found ∈ Script.insertedNodes isRoot page node) :
    page.Insertable parent found := by
  rw [Script.insertedNodes] at hfound
  have hholds (data : NodeData) (hdata : data.isInsertable = true) : (page.data parent).holds data = true := by
    rw [NodeData.holds, hdata, valid.container]
    rfl
  split at hfound
  next =>
    have hlink := sound.parent_of_mem hfound
    have hup := Heap.shadowIncludingParent_of_parent hlink
    exact ⟨fun hreach => valid.back (hreach.tail hup), sound.allocated _ _ hup, hparent,
      hholds _ (NodeData.insertable_of_holds (sound.kinds found node hlink))⟩
  next htype =>
    obtain rfl := List.mem_singleton.mp hfound
    exact ⟨valid.back, hnode, hparent, hholds _ (valid.kind.resolve_left htype)⟩

end Page

/-! ## What the calls keep -/

namespace Script

variable {isRoot : NodeId → Bool} {page : Page} {this child : NodeId} {known : List NodeId}

/-- The page is intact, and the nodes that a script refers to exist. -/
structure Held (known : List NodeId) (page : Page) : Prop where
  intact : page.Intact
  known : ∀ id ∈ known, id ∈ page.allocated

theorem ends_native {A : Type} {operation : Page → Page × A} {Q : A → Page → Prop} {R : Page → Prop} :
    Method.Ends (native operation) page Q R ↔ Q (operation page).2 (operation page).1 := Iff.rfl

/-- The check changes nothing, and a node that passes it is valid. -/
theorem ends_ensure {node parent : NodeId} {reference : Option NodeId} {excluded : List NodeId} (sound : page.Sound) :
    Method.Ends (ensurePreInsertionValidity isRoot node parent reference excluded) page
      (fun _ after => after = page ∧ Page.Valid isRoot page node parent reference excluded)
      (fun after => after = page) := by
  refine Method.ends_read rfl fun value hvalue => ⟨rfl, ?_⟩
  cases herror : page.insertionError isRoot node parent reference excluded with
  | none => exact Page.valid_of_insertionError sound herror
  | some error =>
    rw [herror] at hvalue
    cases hvalue

theorem ends_every {insert : NodeId → Script Bool} (hinsert : ∀ page node, page.Intact → page.Insertable this node →
      Method.Ends (insert node) page (fun _ after => Page.Inserts this page after) (fun _ => False))
    {nodes : List NodeId} (intact : page.Intact) (h : ∀ node ∈ nodes, page.Insertable this node) :
    Method.Ends (every insert nodes) page (fun _ after => Page.Inserts this page after) (fun _ => False) := by
  induction nodes generalizing page with
  | nil => exact Page.Inserts.refl intact
  | cons node nodes ih =>
    rw [every]
    refine Method.ends_bind.mpr ((hinsert page node intact (h node List.mem_cons_self)).mono
      (fun inserted after hinserts => ?_) fun _ hfalse => hfalse)
    refine Method.ends_ite (fun _ => ?_) fun _ => hinserts
    have hrest := ih hinserts.intact fun other hother =>
      hinserts.insertable other (h other (List.mem_cons_of_mem _ hother))
    exact hrest.mono (fun _ _ hafter => hinserts.trans hafter) fun _ hfalse => hfalse

theorem Held.inserts (held : Held known page) {after : Page} (h : Page.Inserts this page after) : Held known after := by
  refine ⟨h.intact, fun id hid => ?_⟩
  rw [h.allocated]
  exact held.known id hid

theorem ends_hostInsertBefore_inserts {node : NodeId} (reference : Option NodeId) (intact : page.Intact)
    (h : page.Insertable this node) : Method.Ends (hostInsertBefore this reference node) page
      (fun _ after => Page.Inserts this page after) (fun _ => False) := by
  cases reference with
  | none => exact ends_native.mpr (Page.inserts_appendChild intact h)
  | some reference => exact ends_native.mpr (Page.inserts_insertBefore intact h reference)

theorem ends_insertBefore_inserts (isRoot : NodeId → Bool) (held : Held known page) (hthis : this ∈ known) (hchild : child ∈ known)
    (reference : Option NodeId) : Method.Ends (insertBefore isRoot this child reference) page
      (fun _ after => Page.Inserts this page after) (fun after => after = page) := by
  rw [insertBefore]
  refine Method.ends_bind.mpr ((ends_ensure held.intact.sound).mono (fun _ after h => ?_) fun _ h => h)
  obtain ⟨rfl, valid⟩ := h
  have hevery := ends_every (fun page node intact hnode => ends_hostInsertBefore_inserts reference intact hnode)
    held.intact fun found hfound =>
      valid.insertable held.intact.sound (held.known child hchild) (held.known this hthis) hfound
  exact Method.ends_get_bind.mpr (Method.ends_bind.mpr (hevery.mono (fun _ _ hinserts => hinserts)
    fun _ hfalse => hfalse.elim))

theorem keeps_insertBefore (isRoot : NodeId → Bool) (hthis : this ∈ known) (hchild : child ∈ known)
    (reference : Option NodeId) : Method.Keeps (Held known) (insertBefore isRoot this child reference) :=
  fun _ held => (ends_insertBefore_inserts isRoot held hthis hchild reference).mono (fun _ _ hinserts => held.inserts hinserts)
    fun _ hsame => hsame ▸ held

/-- Appending is inserting without a reference. -/
theorem appendChild_eq (isRoot : NodeId → Bool) (this child : NodeId) :
    appendChild isRoot this child = insertBefore isRoot this child none := rfl

theorem held_removeChild (held : Held known page) (parent child : NodeId) :
    Held known (page.removeChild parent child).1 := by
  refine ⟨Page.intact_removeChild held.intact parent child, fun id hid => ?_⟩
  rw [(Page.data_removeChild held.intact.sound parent child).2]
  exact held.known id hid

/-! The other calls insert and remove, and keep what that keeps. -/

section Composed

variable {I : Page → Prop} (hremove : ∀ page, I page → ∀ parent child, I (page.removeChild parent child).1)

include hremove

theorem keeps_removeChild (this child : NodeId) : Method.Keeps I (removeChild this child) := by
  refine Method.Keeps.bind (fun page hpage => hremove page hpage this child) fun removed => ?_
  exact Method.Keeps.bind (Method.Keeps.failIf _ _) fun _ => Method.Keeps.pure _

theorem keeps_removeEach (this : NodeId) (nodes : List NodeId) : Method.Keeps I (removeEach this nodes) := by
  induction nodes with
  | nil => exact Method.Keeps.pure ()
  | cons node nodes ih => exact Method.Keeps.bind (keeps_removeChild hremove this node) fun _ => ih

theorem keeps_remove (this : NodeId) : Method.Keeps I (remove this) := by
  refine Method.Keeps.get_bind fun page hpage => ?_
  cases page.parent this with
  | none => exact hpage
  | some parent =>
    exact Method.Keeps.bind (keeps_removeChild hremove parent this) (fun _ => Method.Keeps.pure ()) page hpage

variable (hinsert : ∀ reference, Method.Keeps I (insertBefore isRoot this child reference))

include hinsert

theorem keeps_replaceChild (replaced : NodeId) : Method.Keeps I (replaceChild isRoot this child replaced) := by
  refine Method.Keeps.get_bind fun page hpage => Method.ends_failIf_bind hpage fun _ => ?_
  refine Method.ends_ite (fun _ => hpage) fun _ => ?_
  refine Method.Keeps.bind (Method.Keeps.read _) (fun _ => ?_) page hpage
  refine Method.Keeps.bind (hinsert _) fun inserted => ?_
  exact Method.Keeps.bind (Method.Keeps.failIf _ _) fun _ =>
    Method.Keeps.bind (keeps_removeChild hremove this replaced) fun _ => Method.Keeps.pure _

theorem keeps_replaceChildren : Method.Keeps I (replaceChildren isRoot this child) := by
  refine Method.Keeps.get_bind fun page hpage => ?_
  refine Method.Keeps.bind (Method.Keeps.read _) (fun _ => ?_) page hpage
  refine Method.Keeps.bind (keeps_removeEach hremove this _) fun _ => ?_
  exact Method.Keeps.bind (hinsert none) fun _ => Method.Keeps.failIf _ _

end Composed

end Script

/-! ## Runs -/

namespace ScriptCall

variable {isRoot : NodeId → Bool} {page page' : Page} {calls : List ScriptCall} {call : ScriptCall}

/-- A script has the nodes that it names. What it creates has no shadow links yet, and what was parsed for a
node is none of those that the node is in. -/
def Allowed (page : Page) : ScriptCall → Prop
  | .createNode _ data => data.isPlain = true
  | .appendChild this child => this ∈ page.allocated ∧ child ∈ page.allocated
  | .insertBefore this child _ => this ∈ page.allocated ∧ child ∈ page.allocated
  | .replaceChild this child _ => this ∈ page.allocated ∧ child ∈ page.allocated
  | .replaceChildren this replacement => this ∈ page.allocated ∧ replacement ∈ page.allocated
  | .setTextContent node _ => node ∈ page.allocated
  | .setInnerHtml node parsed => ∀ found ∈ parsed, page.Insertable (page.innerTarget node) found
  | _ => True

/-- A step: a call, whether it returns or throws. -/
def Step (isRoot : NodeId → Bool) (page : Page) (call : ScriptCall) (page' : Page) : Prop :=
  call.Allowed page ∧ page' = (call.perform isRoot page).2

theorem intact_empty : Page.empty.Intact := by
  have hnone (id : NodeId) : Page.empty.shadowIncludingParent id = none := rfl
  refine ⟨?_, fun id => ?_, fun id hid => ?_, fun id hid => ?_⟩
  · refine { childLinks := fun parent child => ?_, childrenNodup := fun _ => List.nodup_nil, hostLinks := fun _ _ h => ?_,
             rootParent := fun _ _ _ => rfl, acyclic := fun id hcycle => ?_, allocated := fun _ _ h => ?_,
             rootLinks := fun _ _ h => ?_, fresh := fun _ _ => ⟨rfl, rfl⟩, serials := fun _ h => ?_,
             kinds := fun _ _ h => ?_ }
    · exact iff_of_false List.not_mem_nil fun h => by cases h
    · cases h
    · exact Walk.not_transGen_of_none (hnone id) hcycle
    · cases h
    · cases h
    · cases h
    · cases h
  · exact iff_of_false Bool.false_ne_true fun h => by cases h
  · cases hid
  · cases hid

theorem mem_known (this child : NodeId) : this ∈ [this, child] ∧ child ∈ [this, child] :=
  ⟨List.mem_cons_self, List.mem_cons_of_mem _ List.mem_cons_self⟩

theorem held_of_allowed (intact : page.Intact) {this child : NodeId} (h : this ∈ page.allocated ∧ child ∈ page.allocated) :
    Script.Held [this, child] page :=
  ⟨intact, fun _ hid => (List.mem_pair.mp hid).elim (fun hsame => hsame ▸ h.1) fun hsame => hsame ▸ h.2⟩

/-- A call keeps the page intact. -/
theorem intact_perform (intact : page.Intact) (allowed : call.Allowed page) : (call.perform isRoot page).2.Intact := by
  have hremove : ∀ page : Page, page.Intact → ∀ parent child, (page.removeChild parent child).1.Intact :=
    fun _ => Page.intact_removeChild
  have hinsert (this child : NodeId) := Script.keeps_insertBefore isRoot (mem_known this child).1 (mem_known this child).2
  have hheld : ∀ known, ∀ page, Script.Held known page → ∀ parent child,
      Script.Held known (page.removeChild parent child).1 := fun _ _ => Script.held_removeChild
  cases call with
  | createNode owner data => exact Page.intact_newIn intact owner.document allowed
  | appendChild this child =>
    exact (((hinsert this child none).bind fun _ => Method.Keeps.pure ()).after (held_of_allowed intact allowed)).intact
  | insertBefore this child reference =>
    exact (((hinsert this child reference).bind fun _ => Method.Keeps.pure ()).after
      (held_of_allowed intact allowed)).intact
  | removeChild this child =>
    exact ((Script.keeps_removeChild hremove this child).bind fun _ => Method.Keeps.pure ()).after intact
  | remove this => exact (Script.keeps_remove hremove this).after intact
  | replaceChild this child replaced =>
    exact (((Script.keeps_replaceChild (hheld _) (hinsert this child) replaced).bind fun _ =>
      Method.Keeps.pure ()).after (held_of_allowed intact allowed)).intact
  | replaceChildren this replacement =>
    exact ((Script.keeps_replaceChildren (hheld _) (hinsert this replacement)).after
      (held_of_allowed intact allowed)).intact
  | setTextContent node contents => exact Page.intact_setTextContent intact allowed contents
  | setInnerHtml node parsed => exact Page.intact_replaceInnerHtml intact allowed
  | attachShadow host options => exact Page.intact_attachShadow intact host options
  | setFocus next => exact Page.intact_setFocus intact next

theorem intact_run (run : Run (Step isRoot) Page.empty calls page) : page.Intact :=
  run.invariant Page.Intact intact_empty fun before _ _ intact hstep => by
    rw [hstep.2]
    exact intact_perform intact hstep.1

/-- The page that some calls lead to. -/
def after (calls : List ScriptCall) : Page :=
  calls.foldl (fun page call => (call.perform (fun _ => false) page).2) Page.empty

def divData : NodeData :=
  .element ⟨⟨none, "http://www.w3.org/1999/xhtml".toList, "div".toList⟩, [], none, none, false⟩

/-- A host with an empty shadow root; the host has the focus. -/
def hostCalls : List ScriptCall :=
  [.createNode ⟨0, 0⟩ divData, .attachShadow ⟨0, 1⟩ ⟨.opened, false, false, false, false⟩, .setFocus (some ⟨0, 1⟩)]

theorem host_run : Run (Step fun _ => false) Page.empty hostCalls (after hostCalls) :=
  Run.guarded ⟨rfl, trivial, trivial, trivial⟩

/-- Whatever scripts do, parents and children agree, no node includes itself, and every walk over parents
and hosts comes to its end. -/
theorem trees_stay_sound (run : Run (Step isRoot) Page.empty calls page) :
    page.WellFormed ∧ ∀ node, Walk.Ends page.shadowIncludingParent page.allocated.length node := by
  have intact := intact_run run
  exact ⟨intact.sound.toWellFormed, intact.sound.ends⟩

theorem trees_stay_sound_refused :
    (after (hostCalls ++ [.appendChild ⟨0, 2⟩ ⟨0, 1⟩])).children ⟨0, 2⟩ = [] ∧
      (after (hostCalls ++ [.appendChild ⟨0, 2⟩ ⟨0, 1⟩])).WellFormed := by
  have run : Run (Step fun _ => false) Page.empty (hostCalls ++ [.appendChild ⟨0, 2⟩ ⟨0, 1⟩])
      (after (hostCalls ++ [.appendChild ⟨0, 2⟩ ⟨0, 1⟩])) :=
    Run.guarded ⟨rfl, trivial, trivial, ⟨by decide, by decide⟩, trivial⟩
  exact ⟨by decide, (trees_stay_sound run).1⟩

/-- Whatever scripts do, `:focus-within` matches the elements that the focused one is in. -/
theorem focus_flags_stay_right (run : Run (Step isRoot) Page.empty calls page) (element : NodeId) :
    page.hasFocusWithin element = true ↔ (page.element element).isSome = true ∧
      ∃ focused, page.focusedNode = some focused ∧ Walk.Reaches page.shadowIncludingParent focused element :=
  (intact_run run).focus.hasFocusWithin

theorem focus_flags_stay_right_host : (after hostCalls).hasFocusWithin ⟨0, 1⟩ = true ∧
    ∃ focused, (after hostCalls).focusedNode = some focused ∧
      Walk.Reaches (after hostCalls).shadowIncludingParent focused ⟨0, 1⟩ :=
  ⟨by decide, ((focus_flags_stay_right host_run ⟨0, 1⟩).mp (by decide)).2⟩

/-! ## What the host would not refuse -/

end ScriptCall

end BetterWebBrowser.Dom
