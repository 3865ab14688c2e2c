import BetterWebBrowser.RendererProtocol.AccessibilityCodec
import Mathlib.Data.List.Nodup

/-!
# The format of the accessibility updates

The encoder appends the layout of an update exactly if the validation accepts it. The decoder
takes the layout off the front exactly if the validation accepts the update and no node has
more children than an update may have nodes, a limit that the validation lacks.
-/

namespace BetterWebBrowser.RendererProtocol.AccessibilityCodec

open Framework RuntimeCodec

/-! ## The parts of a node -/

theorem roles_complete (role : SemanticRole) : ROLES[role.ctorIdx]? = some role := by
  cases role <;> rfl

theorem roles_ctorIdx {index : Nat} {role : SemanticRole} (h : ROLES[index]? = some role) :
    role.ctorIdx = index := by
  have hlt : index < ROLES.length := (List.getElem?_eq_some_iff.mp h).1
  have hnodup : ROLES.Nodup := by decide
  exact ((List.getElem?_inj hlt hnodup).mp (h.trans (roles_complete role).symm)).symm

theorem toNat_roleTag (role : SemanticRole) : (roleTag role).toNat = role.ctorIdx + 1 := by
  cases role <;> rfl

theorem decodeRole_eq_ok {tag : UInt8} {role : SemanticRole} :
    decodeRole tag = .ok role ↔ tag = roleTag role := by
  constructor
  · intro h
    rw [decodeRole] at h
    split at h
    next found hfound =>
      obtain rfl := Except.ok.inj h
      obtain ⟨index, hindex, hrole⟩ := Option.bind_eq_some_iff.mp hfound
      have hidx := roles_ctorIdx hrole
      rw [checkedSub] at hindex
      split at hindex
      next hle =>
        apply UInt8.toNat_inj.mp
        rw [toNat_roleTag, hidx, ← Option.some.inj hindex]
        omega
      next => cases hindex
    next => cases h
  · rintro rfl
    rw [decodeRole, toNat_roleTag, checkedSub_of_le (Nat.le_add_left 1 _), Option.bind_some,
      Nat.add_sub_cancel, roles_complete]

theorem decodeActionBits_eq_ok {bits : UInt8} {actions : SemanticActions} :
    decodeActionBits bits = .ok actions ↔ bits = actionBits actions := by
  obtain ⟨⟨bits⟩⟩ := bits
  obtain ⟨focus, invoke, setValue⟩ := actions
  revert bits focus invoke setValue
  decide +kernel

theorem decodeRoleTag_inverts :
    Reader.Inverts decodeRoleTag (fun _ => True) fun role => WireWriter.u8 (roleTag role) :=
  WireReader.u8_inverts.tagged fun _ _ => decodeRole_eq_ok

theorem decodeActions_inverts :
    Reader.Inverts decodeActions (fun _ => True) fun actions => WireWriter.u8 (actionBits actions) :=
  WireReader.u8_inverts.tagged fun _ _ => decodeActionBits_eq_ok

theorem decodeRectFields_inverts :
    Reader.Inverts decodeRectFields (fun _ => True) encodeRect := by
  refine Reader.Inverts.record
    (.field RectF.x WireReader.f32_inverts fun x =>
    .field RectF.y WireReader.f32_inverts fun y =>
    .field RectF.width WireReader.f32_inverts fun width =>
    .field RectF.height WireReader.f32_inverts fun height =>
    .done fun rect => ?_) ?_ ?_
  · cases rect
    simp
    tauto
  · simp
  · simp [encodeRect]

theorem decodeRect_inverts :
    Reader.Inverts decodeRect (fun rect => checkRect rect = .ok ()) encodeRect :=
  decodeRectFields_inverts.checked.congr (fun rect => by rw [true_and]) fun _ => rfl

theorem decodeIds_inverts (field : String) : Reader.Inverts (decodeIds field)
    (ListValid MAX_ACCESSIBILITY_NODES fun _ => True) encodeIds :=
  decodeList_inverts field decodeNodeId_inverts (by decide)

theorem decodeSelection_inverts :
    Reader.Inverts decodeSelection (fun _ => True) encodeSelection := by
  refine Reader.Inverts.record
    (.field SemanticSelection.start WireReader.u32_inverts fun start =>
    .field SemanticSelection.stop WireReader.u32_inverts fun stop =>
    .done fun selection => ?_) ?_ ?_
  · cases selection
    simp
    tauto
  · simp
  · simp [encodeSelection]

/-! ## The checked state -/

/-- The roles with a checked state have one, and a radio button is never mixed. -/
def CheckedValid (role : SemanticRole) (checked : Option SemanticChecked) : Prop :=
  isCheckable role = checked.isSome ∧ ¬(role = .Radio ∧ checked = some .Mixed)

def checkedLayout (role : SemanticRole) (checked : Option SemanticChecked) : List UInt8 :=
  if isCheckable role then checked.elim [] fun state => WireWriter.u8 (checkedTag state) else []

theorem decodeCheckedTag_eq_ok {role : SemanticRole} (hrole : isCheckable role = true) {tag : UInt8}
    {state : SemanticChecked} :
    decodeCheckedTag role tag = .ok state ↔ CheckedValid role (some state) ∧ tag = checkedTag state := by
  have hkind : role = .Checkbox ∨ role = .Radio := by simpa [isCheckable] using hrole
  constructor
  · intro h
    rw [decodeCheckedTag.eq_def] at h
    split at h
    · cases h
      exact ⟨⟨hrole, by simp⟩, rfl⟩
    · cases h
      exact ⟨⟨hrole, by simp⟩, rfl⟩
    · split at h
      next hbox =>
        cases h
        exact ⟨⟨hrole, by simp [hbox]⟩, rfl⟩
      next => cases h
    · cases h
  · rintro ⟨⟨-, hmixed⟩, rfl⟩
    cases state with
    | False => rfl
    | True => rfl
    | Mixed =>
      rcases hkind with rfl | rfl
      · rfl
      · exact absurd ⟨rfl, rfl⟩ hmixed

theorem decodeChecked_inverts (role : SemanticRole) :
    Reader.Inverts (decodeChecked role) (CheckedValid role) (checkedLayout role) := by
  intro input checked rest
  by_cases hrole : isCheckable role = true
  · rw [decodeChecked, if_pos hrole, Reader.run_bind_eq_ok, checkedLayout, if_pos hrole]
    constructor
    · rintro ⟨tag, middle, htag, hread⟩
      obtain rfl := WireReader.u8_eq_ok.mp htag
      obtain ⟨state, after, hstate, hread⟩ := Reader.run_bind_eq_ok.mp hread
      cases hread
      obtain ⟨htagged, rfl⟩ := Reader.run_ofExcept_eq_ok.mp hstate
      obtain ⟨hvalid, rfl⟩ := (decodeCheckedTag_eq_ok hrole).mp htagged
      exact ⟨hvalid, rfl⟩
    · rintro ⟨hvalid, rfl⟩
      cases checked with
      | none =>
        have hsome := hvalid.1
        rw [hrole] at hsome
        cases hsome
      | some state =>
        refine ⟨checkedTag state, rest, WireReader.u8_eq_ok.mpr rfl, ?_⟩
        refine Reader.run_bind_eq_ok.mpr ⟨state, rest, ?_, rfl⟩
        exact Reader.run_ofExcept_eq_ok.mpr
          ⟨(decodeCheckedTag_eq_ok hrole).mpr ⟨hvalid, rfl⟩, rfl⟩
  · rw [decodeChecked, if_neg hrole, checkedLayout, if_neg hrole, Reader.run_pure_eq_ok]
    have hfalse : isCheckable role = false := Bool.eq_false_iff.mpr hrole
    constructor
    · intro h
      obtain ⟨rfl, rfl⟩ := Prod.mk.inj h
      exact ⟨⟨hfalse, by simp⟩, rfl⟩
    · rintro ⟨⟨hsome, -⟩, rfl⟩
      rw [hfalse] at hsome
      obtain rfl : checked = none := by
        rw [← Option.not_isSome_iff_eq_none, ← hsome]
        exact Bool.false_ne_true
      rfl

theorem encodeChecked_yields (role : SemanticRole) (checked : Option SemanticChecked) :
    Yields (encodeChecked role checked) (isCheckable role = true → checked.isSome)
      (checkedLayout role checked) := by
  by_cases hrole : isCheckable role = true
  · rw [encodeChecked.eq_def, checkedLayout, if_pos hrole, if_pos hrole]
    cases checked with
    | none =>
      intro found
      simp [hrole]
    | some state => exact (Yields.pure _).congr (by simp)
  · rw [encodeChecked.eq_def, checkedLayout, if_neg hrole, if_neg hrole]
    exact (Yields.pure _).congr (by simp [hrole])

/-! ## Nodes -/

def nodeLayout (node : SemanticNode) : List UInt8 :=
  nodeIdLayout node.id ++ WireWriter.u8 (roleTag node.role) ++ stringLayout node.name ++
    stringLayout node.value ++ stringLayout node.description ++ encodeRect node.bounds ++
    encodeIds node.children ++ WireWriter.optional WireWriter.u32 node.level ++
    WireWriter.bool node.disabled ++ WireWriter.bool node.readOnly ++
    WireWriter.u8 (actionBits node.actions) ++ WireWriter.optional encodeSelection node.selection ++
    checkedLayout node.role node.checked

def TextFits (value : Str) : Prop := Str.byteLen value ≤ MAX_ACCESSIBILITY_NODE_TEXT_BYTES

/-- What the validation asks of a node, as far as the codec sees it. -/
structure NodeValid (node : SemanticNode) : Prop where
  name : TextFits node.name
  value : TextFits node.value
  description : TextFits node.description
  bounds : checkRect node.bounds = .ok ()
  checked : CheckedValid node.role node.checked

/-- The limit on the children of one node, which only the decoder has. -/
def ChildrenFit (node : SemanticNode) : Prop := node.children.length ≤ MAX_ACCESSIBILITY_NODES

theorem encodeString_yields (value : Str) :
    Yields (encodeString value) (Str.byteLen value < 2 ^ 32) (stringLayout value) := by
  intro found
  rw [encodeString, mapError_eq_ok]
  exact WireWriter.string_writes value found

theorem encodeNode_yields (node : SemanticNode) :
    Yields (encodeNode node)
      (Str.byteLen node.name < 2 ^ 32 ∧ Str.byteLen node.value < 2 ^ 32 ∧
        Str.byteLen node.description < 2 ^ 32 ∧ (isCheckable node.role = true → node.checked.isSome))
      (nodeLayout node) := by
  apply Yields.congr
  · apply Yields.bind (encodeString_yields node.name)
    apply Yields.bind (encodeString_yields node.value)
    apply Yields.bind (encodeString_yields node.description)
    apply Yields.bind (encodeChecked_yields node.role node.checked)
    exact Yields.pure _
  · simp only [and_true]

theorem encodeNode_of_valid {node : SemanticNode} (h : NodeValid node) :
    encodeNode node = .ok (nodeLayout node) := by
  have hfits : ∀ {value : Str}, TextFits value → Str.byteLen value < 2 ^ 32 := by
    intro value hvalue
    exact Nat.lt_of_le_of_lt hvalue (by decide)
  refine (encodeNode_yields node _).mpr ⟨⟨hfits h.name, hfits h.value, hfits h.description, ?_⟩, rfl⟩
  intro hrole
  rw [← h.checked.1, hrole]

theorem decodeNode_inverts :
    Reader.Inverts decodeNode (fun node => NodeValid node ∧ ChildrenFit node) nodeLayout := by
  have hstring : Reader.Inverts (WireReader.string MAX_ACCESSIBILITY_NODE_TEXT_BYTES) TextFits
      stringLayout := WireReader.string_inverts (by decide)
  refine Reader.Inverts.record
    (.field SemanticNode.id decodeNodeId_inverts fun id =>
    .field SemanticNode.role decodeRoleTag_inverts fun role =>
    .field SemanticNode.name hstring fun name =>
    .field SemanticNode.value hstring fun value =>
    .field SemanticNode.description hstring fun description =>
    .field SemanticNode.bounds decodeRect_inverts fun bounds =>
    .field SemanticNode.children (decodeIds_inverts _) fun children =>
    .field SemanticNode.level (WireReader.option_inverts WireReader.u32_inverts) fun level =>
    .field SemanticNode.disabled WireReader.bool_inverts fun disabled =>
    .field SemanticNode.readOnly WireReader.bool_inverts fun readOnly =>
    .field SemanticNode.actions decodeActions_inverts fun actions =>
    .field SemanticNode.selection (WireReader.option_inverts decodeSelection_inverts) fun selection =>
    -- the role that was read decides what the last field is
    .fieldBy SemanticNode.checked SemanticNode.role (fun node hknown => ?_)
      (decodeChecked_inverts role) fun checked =>
    .done fun node => ?_) ?_ ?_
  · obtain ⟨-, -, -, -, -, -, -, -, -, -, hrole, -⟩ := hknown
    exact hrole
  · cases node
    simp
    tauto
  · intro node
    constructor
    · rintro ⟨-, -, hname, hvalue, hdescription, hbounds, hchildren, -, -, -, -, -, hchecked, -⟩
      exact ⟨⟨hname, hvalue, hdescription, hbounds, hchecked⟩, hchildren.1⟩
    · rintro ⟨hvalid, hchildren⟩
      exact ⟨trivial, trivial, hvalid.name, hvalid.value, hvalid.description, hvalid.bounds,
        ⟨hchildren, fun _ _ => trivial⟩, fun _ _ => trivial, trivial, trivial, trivial,
        fun _ _ => trivial, hvalid.checked, trivial⟩
  · intro node
    simp only [nodeLayout, List.append_assoc, List.append_nil]

/-! ## What the validation says of an update -/

theorem nodeValid_of_validate {node : SemanticNode} {seen : Bool}
    (h : node.exact.validate seen = .ok ()) : NodeValid node := by
  rw [RendererProtocol.SemanticNode.validate] at h
  cases hrect : validateRect node.exact.bounds with
  | error error =>
    rw [hrect] at h
    split_ifs at h
  | ok passed =>
    rw [hrect] at h
    simp only at h
    split_ifs at h with hchecked hnode hchildren htexts
    simp only [not_or, not_and, ne_eq, not_not] at hchecked
    have htext : ∀ text ∈ node.exact.texts, TextFits text := by
      intro text hmem
      by_contra hlong
      exact htexts (List.any_eq_true.mpr ⟨text, hmem, decide_eq_true (Nat.lt_of_not_le hlong)⟩)
    simp only [RendererProtocol.SemanticNode.texts, List.mem_cons, List.not_mem_nil, or_false,
      forall_eq_or_imp, forall_eq] at htext
    exact {
      name := htext.1
      value := htext.2.1
      description := htext.2.2
      bounds := hrect
      checked := ⟨hchecked.1, fun h => hchecked.2 h.1 h.2⟩ }

theorem validate_of_validateNodes {seen : List DocumentNodeId} {edges text : Nat}
    {nodes : List RendererProtocol.SemanticNode} {counts : Nat × Nat}
    (h : validateNodes seen edges text nodes = .ok counts) :
    ∀ node ∈ nodes, ∃ seen, node.validate seen = .ok () := by
  induction nodes generalizing seen edges text with
  | nil => simp
  | cons node nodes ih =>
    rw [validateNodes] at h
    cases hnode : node.validate (decide (node.id ∈ seen)) with
    | error error =>
      rw [hnode] at h
      cases h
    | ok passed =>
      rw [hnode] at h
      intro other hmem
      rcases List.mem_cons.mp hmem with rfl | hmem
      · exact ⟨_, hnode⟩
      · exact ih h other hmem

/-- The counts of an update that the validation accepts, and its nodes. -/
structure UpdateValid (update : AccessibilityUpdate) : Prop where
  nodes : update.nodes.length ≤ MAX_ACCESSIBILITY_NODES
  added : update.added.length ≤ MAX_ACCESSIBILITY_NODES
  removed : update.removed.length ≤ MAX_ACCESSIBILITY_NODES
  node : ∀ node ∈ update.nodes, NodeValid node

theorem updateValid_of_check {update : AccessibilityUpdate} (h : checkUpdate update = .ok ()) :
    UpdateValid update := by
  rw [checkUpdate, RendererProtocol.AccessibilityUpdate.validateUpdate] at h
  cases hnodes : validateNodes [] 0 0 update.exact.nodes with
  | error error =>
    rw [hnodes] at h
    split_ifs at h
  | ok counts =>
    rw [hnodes] at h
    simp only at h
    split_ifs at h with hcounts hbudget hadded hremoved hfull
    simp only [not_or, Nat.not_lt] at hcounts
    have hlength : update.exact.nodes.length = update.nodes.length := List.length_map _
    refine ⟨hlength ▸ hcounts.1, hcounts.2.1, hcounts.2.2.1, fun node hmem => ?_⟩
    obtain ⟨seen, hvalidate⟩ :=
      validate_of_validateNodes hnodes node.exact (List.mem_map_of_mem hmem)
    exact nodeValid_of_validate hvalidate

/-! ## Updates -/

def updateLayout (update : AccessibilityUpdate) : List UInt8 :=
  WireWriter.bool update.full ++ nodeIdLayout update.root ++ nodeIdLayout update.focus ++
    listLayout nodeLayout update.nodes ++ encodeIds update.added ++ encodeIds update.removed

theorem writeEach_of_valid {nodes : List SemanticNode} (h : ∀ node ∈ nodes, NodeValid node) :
    Reader.writeEach encodeNode nodes = .ok (nodes.flatMap nodeLayout) := by
  induction nodes with
  | nil => rfl
  | cons node nodes ih =>
    obtain ⟨hnode, hnodes⟩ := List.forall_mem_cons.mp h
    rw [Reader.writeEach, encodeNode_of_valid hnode, ih hnodes]
    rfl

/-- The encoder accepts exactly the updates that the validation accepts. -/
theorem encode_eq_ok {update : AccessibilityUpdate} {bytes : List UInt8} :
    encode update = .ok bytes ↔ checkUpdate update = .ok () ∧ bytes = updateLayout update := by
  rw [encode, bind_eq_ok]
  constructor
  · rintro ⟨_, hcheck, hwrite⟩
    have hvalid := mapError_eq_ok.mp hcheck
    rw [writeEach_of_valid (updateValid_of_check hvalid).node] at hwrite
    have hbytes := Except.ok.inj hwrite
    refine ⟨hvalid, ?_⟩
    rw [← hbytes]
    simp only [updateLayout, listLayout, nodeIdLayout, List.append_assoc]
  · rintro ⟨hvalid, rfl⟩
    refine ⟨(), mapError_eq_ok.mpr hvalid, ?_⟩
    rw [writeEach_of_valid (updateValid_of_check hvalid).node]
    simp only [updateLayout, listLayout, nodeIdLayout, List.append_assoc]
    rfl

theorem decodeFields_inverts : Reader.Inverts decodeFields
    (fun update => UpdateValid update ∧ ∀ node ∈ update.nodes, ChildrenFit node) updateLayout := by
  have hnodes := decodeList_inverts "accessibility nodes" decodeNode_inverts
    (by decide : MAX_ACCESSIBILITY_NODES < 2 ^ 32)
  refine Reader.Inverts.record
    (.field AccessibilityUpdate.full WireReader.bool_inverts fun full =>
    .field AccessibilityUpdate.root decodeNodeId_inverts fun root =>
    .field AccessibilityUpdate.focus decodeNodeId_inverts fun focus =>
    .field AccessibilityUpdate.nodes hnodes fun nodes =>
    .field AccessibilityUpdate.added (decodeIds_inverts _) fun added =>
    .field AccessibilityUpdate.removed (decodeIds_inverts _) fun removed =>
    .done fun update => ?_) ?_ ?_
  · cases update
    simp
    tauto
  · intro update
    constructor
    · rintro ⟨-, -, -, ⟨hcount, hnodes⟩, hadded, hremoved, -⟩
      exact ⟨⟨hcount, hadded.1, hremoved.1, fun node hmem => (hnodes node hmem).1⟩,
        fun node hmem => (hnodes node hmem).2⟩
    · rintro ⟨hvalid, hchildren⟩
      exact ⟨trivial, trivial, trivial,
        ⟨hvalid.nodes, fun node hmem => ⟨hvalid.node node hmem, hchildren node hmem⟩⟩,
        ⟨hvalid.added, fun _ _ => trivial⟩, ⟨hvalid.removed, fun _ _ => trivial⟩, trivial⟩
  · intro update
    simp only [updateLayout, List.append_assoc, List.append_nil]

/-- The decoder returns exactly the updates that the validation accepts and whose nodes have no
more children than an update may have nodes. -/
theorem decode_inverts : Reader.Inverts decode
    (fun update => checkUpdate update = .ok () ∧ ∀ node ∈ update.nodes, ChildrenFit node)
    updateLayout := by
  refine decodeFields_inverts.checked.congr (fun update => ?_) fun _ => rfl
  constructor
  · rintro ⟨⟨-, hchildren⟩, hcheck⟩
    exact ⟨hcheck, hchildren⟩
  · rintro ⟨hcheck, hchildren⟩
    exact ⟨⟨updateValid_of_check hcheck, hchildren⟩, hcheck⟩

/-- Encoding succeeds exactly on the valid updates, and what it writes decodes to the update
again, whatever follows. -/
def RoundTrips (update : AccessibilityUpdate) : Prop :=
  ((∃ bytes, encode update = .ok bytes) ↔ checkUpdate update = .ok ()) ∧
    ∀ bytes rest, encode update = .ok bytes → decode (bytes ++ rest) = .ok (update, rest)

theorem roundTrips_iff {update : AccessibilityUpdate} :
    RoundTrips update ↔ (checkUpdate update = .ok () → ∀ node ∈ update.nodes, ChildrenFit node) := by
  constructor
  · rintro ⟨-, hround⟩ hcheck
    have hdecode := hround (updateLayout update) [] (encode_eq_ok.mpr ⟨hcheck, rfl⟩)
    exact ((decode_inverts _ _ _).mp hdecode).1.2
  · intro hchildren
    constructor
    · constructor
      · rintro ⟨bytes, h⟩
        exact (encode_eq_ok.mp h).1
      · intro hcheck
        exact ⟨_, encode_eq_ok.mpr ⟨hcheck, rfl⟩⟩
    · intro bytes rest h
      obtain ⟨hcheck, rfl⟩ := encode_eq_ok.mp h
      exact (decode_inverts _ _ _).mpr ⟨⟨hcheck, hchildren hcheck⟩, rfl⟩

/-- An update round-trips exactly if, being valid, it has no node with too many children; and
what the decoder accepts is a valid update in its one encoding. -/
theorem accessibility_round_trip (update : AccessibilityUpdate) (input rest : List UInt8) :
    (RoundTrips update ↔ (checkUpdate update = .ok () → ∀ node ∈ update.nodes, ChildrenFit node)) ∧
      (decode input = .ok (update, rest) →
        checkUpdate update = .ok () ∧ ∃ bytes, encode update = .ok bytes ∧ input = bytes ++ rest) := by
  refine ⟨roundTrips_iff, fun h => ?_⟩
  obtain ⟨⟨hcheck, -⟩, rfl⟩ := (decode_inverts _ _ _).mp h
  exact ⟨hcheck, updateLayout update, encode_eq_ok.mpr ⟨hcheck, rfl⟩, rfl⟩

/-! ## A node with too many children -/

/-- The nodes of one document, by their local numbers. -/
def localNode (number : Fin (2 ^ 32)) : DocumentNodeId where
  get := 2 ^ 64 + (number.val + 1)
  bound := by omega
  namespace_ne_zero := by omega
  local_ne_zero := by omega

def wideNode : SemanticNode where
  id := localNode 0
  role := .RootWebArea
  name := []
  value := []
  description := []
  bounds := ⟨⟨0⟩, ⟨0⟩, ⟨0⟩, ⟨0⟩⟩
  children := (List.range' 1 100001).map fun number => localNode (Fin.ofNat (2 ^ 32) number)
  level := none
  disabled := false
  readOnly := false
  actions := ⟨false, false, false⟩
  selection := none
  checked := none

/-- A full tree whose root names more children than there may be nodes. -/
def wideUpdate : AccessibilityUpdate where
  full := true
  root := localNode 0
  focus := localNode 0
  nodes := [wideNode]
  added := []
  removed := []

theorem localNode_injective : Function.Injective localNode := by
  intro a b h
  have hget : 2 ^ 64 + (a.val + 1) = 2 ^ 64 + (b.val + 1) := congrArg DocumentNodeId.get h
  exact Fin.ext (by omega)

theorem wideNode_children : localNode 0 ∉ wideNode.children ∧ wideNode.children.Nodup := by
  have hval : ∀ number ∈ List.range' 1 100001, (Fin.ofNat (2 ^ 32) number).val = number := by
    intro number hmem
    have hlt := (List.mem_range'_1.mp hmem).2
    exact Nat.mod_eq_of_lt (by omega)
  constructor
  · intro hmem
    obtain ⟨number, hnumber, heq⟩ := List.mem_map.mp hmem
    have hzero := congrArg Fin.val (localNode_injective heq)
    rw [hval number hnumber] at hzero
    have hpos := (List.mem_range'_1.mp hnumber).1
    exact absurd hzero (by simp; omega)
  · refine List.Nodup.map_on ?_ List.nodup_range'
    intro first hfirst second hsecond heq
    have hvals := congrArg Fin.val (localNode_injective heq)
    rwa [hval first hfirst, hval second hsecond] at hvals

theorem checkUpdate_wideUpdate : checkUpdate wideUpdate = .ok () := by
  have hrect : validateRect wideNode.exact.bounds = .ok () := by decide +kernel
  have hlength : wideNode.exact.children.length = 100001 := by simp [wideNode, SemanticNode.exact]
  have hnode : wideNode.exact.validate false = .ok () := by
    rw [RendererProtocol.SemanticNode.validate, hrect]
    have hchildren : ¬(wideNode.exact.id ∈ wideNode.exact.children ∨ ¬wideNode.exact.children.Nodup) :=
      not_or.mpr ⟨wideNode_children.1, not_not.mpr wideNode_children.2⟩
    rw [if_neg (by decide), if_neg (by decide), if_neg hchildren, if_neg (by decide)]
  have hnodes : validateNodes [] 0 0 [wideNode.exact] = .ok (100001, 0) := by
    rw [validateNodes, show decide (wideNode.exact.id ∈ ([] : List DocumentNodeId)) = false from rfl,
      hnode, validateNodes, hlength]
    rfl
  rw [checkUpdate, RendererProtocol.AccessibilityUpdate.validateUpdate,
    show wideUpdate.exact.nodes = [wideNode.exact] from rfl, hnodes, if_neg (by decide)]
  simp only
  rw [if_neg (by decide), if_neg (by simp [wideUpdate, AccessibilityUpdate.exact]),
    if_neg (by simp [wideUpdate, AccessibilityUpdate.exact]), if_neg]
  simp [wideUpdate, AccessibilityUpdate.exact, RendererProtocol.AccessibilityUpdate.nodeIds,
    SemanticNode.exact, wideNode]

theorem wideUpdate_fails : ¬RoundTrips wideUpdate := by
  intro h
  have hfits := roundTrips_iff.mp h checkUpdate_wideUpdate wideNode (List.mem_singleton_self _)
  have hlength : wideNode.children.length = 100001 := by simp [wideNode]
  rw [ChildrenFit, hlength] at hfits
  exact absurd hfits (by decide)

end BetterWebBrowser.RendererProtocol.AccessibilityCodec
