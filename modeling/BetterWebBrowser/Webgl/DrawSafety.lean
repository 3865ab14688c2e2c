import BetterWebBrowser.Webgl.DrawAdmission

/-!
# Draws stay inside their buffers

What a draw call of the driver reads: the indices of a range of the element buffer, and for every
vertex and instance an element of each enabled slot that the program reads. Of an admitted draw
all of it lies in buffers.
-/

namespace BetterWebBrowser.Webgl

open Framework

namespace WebGl

variable {driver : Driver} {context : WebGl}

/-! ## What a draw reads -/

/-- The bytes of an index of this type. -/
def indexBytes (kind : Nat) : Nat :=
  if kind = gl.UNSIGNED_BYTE then 1 else if kind = gl.UNSIGNED_SHORT then 2 else if kind = gl.UNSIGNED_INT then 4 else 0

/-- A draw uses a vertex; WebGL 2 restarts a primitive at the largest index. -/
def Uses (context : WebGl) (call : NativeDraw) (draw : Draw) (vertex : Nat) : Prop :=
  match call.kind with
  | none => draw.start ≤ vertex ∧ vertex < draw.start + draw.count
  | some kind => ∃ buffer, context.objects.get context.element_buffer .Buffer = .ok buffer ∧
    ∃ position < draw.count, vertex = indexAt (buffer.contents.drop draw.start) (indexBytes kind) position ∧
      ¬(context.api = .Two ∧ vertex = restartMarker (indexBytes kind))

/-- An input of the current program takes the slot. -/
def ActiveSlot (driver : Driver) (context : WebGl) (index : Nat) : Prop :=
  ∃ program count position input, context.objects.get context.program .Program = .ok program ∧
    driver.active_attributes program.native = .ok count ∧ position < count.toNat ∧
    driver.active_attribute program.native position = .ok input ∧ 0 ≤ input.location ∧
    input.location ≤ index ∧ (index : Int) < input.location + AttributeReflection.columns input.kind * input.size

/-- The element of a slot for a vertex of an instance. -/
def element (slot : Attribute) (vertex copy : Nat) : Nat :=
  if slot.divisor = 0 then vertex else copy / slot.divisor

/-- Everything that the call reads lies in buffers. -/
structure Safe (driver : Driver) (context : WebGl) (call : NativeDraw) : Prop where
  attributes : ∀ draw ∈ call.draws, ∀ vertex, Uses context call draw vertex → ∀ copy < draw.instances,
    ∀ index slot, context.attributes[index]? = some slot → slot.enabled = true → ActiveSlot driver context index →
      ∃ buffer, context.objects.get slot.buffer .Buffer = .ok buffer ∧
        slot.offset + element slot vertex copy * packedStride slot + slot.size ≤ buffer.contents.length
  indices : ∀ kind, call.kind = some kind → ∀ draw ∈ call.draws, draw.count ≠ 0 → draw.instances ≠ 0 →
    ∃ buffer, context.objects.get context.element_buffer .Buffer = .ok buffer ∧
      draw.start + draw.count * indexBytes kind ≤ buffer.contents.length

/-! ## The mask of the slots -/

private theorem testBit_foldl (indices : List Nat) (mask index : Nat) :
    (indices.foldl (fun mask index => mask ||| 1 <<< index) mask).testBit index =
      (mask.testBit index || decide (index ∈ indices)) := by
  induction indices generalizing mask with
  | nil => simp
  | cons first rest ih =>
    rw [List.foldl_cons, ih, Nat.testBit_or, Nat.one_shiftLeft, Nat.testBit_two_pow, Bool.or_assoc]
    congr 1
    rw [Bool.eq_iff_iff]
    simp only [Bool.or_eq_true, decide_eq_true_eq, List.mem_cons]
    exact or_congr_left eq_comm

private theorem testBit_slots {location size : Int} {kind maximum mask index : Nat}
    (h : AttributeReflection.slots location kind size maximum = some mask) (hlocation : 0 ≤ location)
    (hfirst : location ≤ index) (hlast : (index : Int) < location + AttributeReflection.columns kind * size) :
    mask.testBit index = true := by
  rw [AttributeReflection.slots, if_neg (Int.not_lt.mpr hlocation)] at h
  by_cases hsize : size < 0
  · rw [if_pos hsize] at h
    cases h
  · rw [if_neg hsize] at h
    simp only at h
    split_ifs at h
    cases h
    have hnat : (AttributeReflection.columns kind * size.toNat : Nat) = (AttributeReflection.columns kind * size : Int) := by
      rw [Int.natCast_mul, Int.toNat_of_nonneg (Int.not_lt.mp hsize)]
    rw [testBit_foldl, Nat.zero_testBit, Bool.false_or, decide_eq_true_eq, List.mem_range'_1]
    omega

/-- A fold of masks has the bits of each. -/
private theorem testBit_foldlM {slots : Nat → Result Nat} {positions : List Nat} {before after : Nat}
    (h : positions.foldlM (fun active position => do
      let mask ← slots position
      .ok (active ||| mask)) before = (.ok after : Result Nat)) (index : Nat) :
    (before.testBit index = true → after.testBit index = true) ∧
      ∀ position ∈ positions, ∃ mask, slots position = .ok mask ∧
        (mask.testBit index = true → after.testBit index = true) := by
  induction positions generalizing before with
  | nil =>
    rw [List.foldlM_nil] at h
    cases h
    exact ⟨id, fun _ hmem => nomatch hmem⟩
  | cons first rest ih =>
    rw [List.foldlM_cons] at h
    obtain ⟨middle, hmiddle, hrest⟩ := bind_eq_ok.mp h
    obtain ⟨mask, hmask, hjoin⟩ := bind_eq_ok.mp hmiddle
    cases hjoin
    obtain ⟨hbefore, hpositions⟩ := ih hrest
    rw [Nat.testBit_or, Bool.or_eq_true] at hbefore
    refine ⟨fun hbit => hbefore (.inl hbit), ?_⟩
    rw [List.forall_mem_cons]
    exact ⟨⟨mask, hmask, fun hbit => hbefore (.inr hbit)⟩, hpositions⟩

theorem ActiveSlot.testBit {index active : Nat} (h : ActiveSlot driver context index)
    (hactive : ActiveMask driver context active) : active.testBit index = true := by
  obtain ⟨program, count, position, input, hprogram, hcount, hposition, hinput, hlocation, hfirst, hlast⟩ := h
  obtain ⟨found, hfound, hscan⟩ := hactive
  obtain rfl := Except.ok.inj (hprogram.symm.trans hfound)
  rw [AttributeReflection.scan, hcount] at hscan
  obtain ⟨-, hscan⟩ := failIf_bind_eq_ok.mp hscan
  obtain ⟨mask, hmask, hbits⟩ := (testBit_foldlM hscan index).2 position (List.mem_range.mpr hposition)
  rw [AttributeReflection.active_slots, hinput] at hmask
  obtain ⟨-, hmask⟩ := failIf_bind_eq_ok.mp hmask
  cases hslots : AttributeReflection.slots input.location input.kind input.size context.attributes.length with
  | none =>
    rw [hslots] at hmask
    cases hmask
  | some slots =>
    rw [hslots] at hmask
    cases hmask
    exact hbits (testBit_slots hslots hlocation hfirst hlast)

private theorem mem_consumed {active index : Nat} {slots : List Attribute} {slot : Attribute}
    (hslot : slots[index]? = some slot) (henabled : slot.enabled = true) (hbit : active.testBit index = true) :
    slot ∈ consumed active slots := by
  rw [consumed, List.mem_map]
  refine ⟨(slot, index), List.mem_filter.mpr ⟨List.mem_zipIdx_iff_getElem?.mpr hslot, ?_⟩, rfl⟩
  rw [henabled, hbit]
  rfl

/-! ## Attributes of an admitted draw -/

/-- An earlier element ends earlier. -/
private theorem element_le (slot : Attribute) {vertex maximum copy instances : Nat} (hvertex : vertex ≤ maximum)
    (hcopy : copy < instances) : element slot vertex copy ≤ lastElement slot maximum instances := by
  rw [element, lastElement]
  split
  · exact hvertex
  · exact Nat.div_le_div_right (Nat.le_sub_one_of_lt hcopy)

theorem get_of_settled {id : Nat} {kind : Kind} {object : Object}
    (h : (settled driver context).objects.get id kind = .ok object) :
    ∃ own, context.objects.get id kind = .ok own ∧ object.bytes = own.contents := by
  rw [get_settled] at h
  cases hget : context.objects.get id kind with
  | error error =>
    rw [hget] at h
    cases h
  | ok own =>
    rw [hget] at h
    cases h
    exact ⟨own, rfl, rfl⟩

theorem activeSlot_settled {index : Nat} (h : ActiveSlot driver context index) :
    ActiveSlot driver (settled driver context) index := by
  obtain ⟨program, count, position, input, hprogram, hmore⟩ := h
  refine ⟨context.settledObject driver context.program program, count, position, input, ?_, hmore⟩
  show (settled driver context).objects.get context.program .Program = _
  rw [get_settled, hprogram]
  rfl

/-- The elements of every vertex up to the largest one lie in buffers. -/
theorem AttributesAdmitted.reaches {maximum instances : Nat} {instanced : Bool}
    (h : AttributesAdmitted driver (settled driver context) maximum instances instanced) {vertex copy : Nat}
    (hvertex : vertex ≤ maximum) (hcopy : copy < instances) {index : Nat} {slot : Attribute}
    (hslot : context.attributes[index]? = some slot) (henabled : slot.enabled = true)
    (hactive : ActiveSlot driver context index) :
    ∃ buffer, context.objects.get slot.buffer .Buffer = .ok buffer ∧
      slot.offset + element slot vertex copy * packedStride slot + slot.size ≤ buffer.contents.length := by
  obtain ⟨active, hmask, hfits⟩ := h
  obtain ⟨-, hslots, -⟩ := attributes_fit_eq_ok.mp hfits
  have hbit := (activeSlot_settled hactive).testBit hmask
  obtain ⟨found, hfound, hend⟩ := hslots slot (mem_consumed hslot henabled hbit)
  obtain ⟨buffer, hbuffer, hbytes⟩ := get_of_settled hfound
  refine ⟨buffer, hbuffer, ?_⟩
  rw [hbytes, elementEnd] at hend
  have hstep := Nat.mul_le_mul_right (packedStride slot) (element_le slot hvertex hcopy)
  omega

/-! ## Indices of an admitted draw -/

/-- A position of a range, in the whole list. -/
private theorem indexAt_take {bytes : List UInt8} {size count position : Nat} (h : position < count) :
    indexAt (bytes.take (count * size)) size position = indexAt bytes size position := by
  have hroom : position * size + size ≤ count * size := by
    rw [← Nat.succ_mul]
    exact Nat.mul_le_mul_right size h
  rw [indexAt, indexAt, List.drop_take, List.take_take, Nat.min_eq_left (by omega)]

/-- The largest index bounds every index that is used. -/
private theorem le_maximum {indices : List UInt8} {size : Nat} {api : ApiVersion} {found : Option Nat}
    (h : maximum indices size api = .ok found) {position : Nat} (hposition : position < indices.length / size)
    (hused : api = .One ∨ indexAt indices size position ≠ restartMarker size) :
    ∃ value, found = some value ∧ indexAt indices size position ≤ value := by
  rw [maximum] at h
  by_cases hwidth : size = 1 ∨ size = 2 ∨ size = 4
  case neg =>
    rw [if_neg hwidth] at h
    cases h
  rw [if_pos hwidth] at h
  simp only at h
  split at h
  case isTrue =>
    cases h
  rw [← Except.ok.inj h]
  have hmem : indexAt indices size position ∈ ((List.range (indices.length / size)).map (indexAt indices size)).filter
      fun value => decide (api = .One ∨ value ≠ restartMarker size) :=
    List.mem_filter.mpr ⟨List.mem_map_of_mem (List.mem_range.mpr hposition), decide_eq_true hused⟩
  cases hmax : (((List.range (indices.length / size)).map (indexAt indices size)).filter
      fun value => decide (api = .One ∨ value ≠ restartMarker size)).max? with
  | none =>
    rw [List.max?_eq_none_iff.mp hmax] at hmem
    cases hmem
  | some value => exact ⟨value, rfl, (List.max?_eq_some_iff.mp hmax).2 _ hmem⟩

theorem indexBytes_of_index_size {kind size : Nat} (h : context.index_size kind = .ok size) :
    indexBytes kind = size := by
  obtain ⟨rfl, rfl⟩ | ⟨rfl, rfl⟩ | ⟨rfl, rfl⟩ := index_size_cases h
  · rfl
  · rfl
  · rfl

/-- The range of an admitted draw is in the element buffer, and bounds the vertices. -/
theorem IndexMaximum.bounds {count size offset : Nat} {found : Option Nat} (hsize : 0 < size)
    (h : IndexMaximum (settled driver context) count size offset found) :
    ∃ buffer, context.objects.get context.element_buffer .Buffer = .ok buffer ∧
      offset + count * size ≤ buffer.contents.length ∧
      ∀ position < count, ¬(context.api = .Two ∧
          indexAt (buffer.contents.drop offset) size position = restartMarker size) →
        ∃ value, found = some value ∧ indexAt (buffer.contents.drop offset) size position ≤ value := by
  obtain ⟨object, hobject, -, hrange, hmaximum⟩ := h.live
  obtain ⟨buffer, hbuffer, hbytes⟩ := get_of_settled hobject
  rw [hbytes] at hrange hmaximum
  refine ⟨buffer, hbuffer, hrange, fun position hposition hused => ?_⟩
  have hlength : ((buffer.contents.drop offset).take (count * size)).length / size = count := by
    rw [List.length_take, List.length_drop, Nat.min_eq_left (by omega), Nat.mul_div_cancel _ hsize]
  rw [← indexAt_take hposition] at hused ⊢
  refine le_maximum hmaximum (hlength.symm ▸ hposition) ?_
  cases hapi : context.api with
  | One => exact .inl hapi
  | Two => exact .inr fun hmarker => hused ⟨hapi, hmarker⟩

/-! ## Admitted draws are safe -/

/-- A call whose draws pass their checks reads inside buffers. -/
theorem safe_of_passes {call : NativeDraw} {size : Nat} {instanced : Bool}
    (hsize : ∀ kind, call.kind = some kind → indexBytes kind = size ∧ 0 < size)
    (h : ∀ draw ∈ call.draws, DrawPasses driver (settled driver context) call.kind.isSome size instanced draw) :
    Safe driver context call := by
  constructor
  · intro draw hdraw vertex huses copy hcopy index slot hslot henabled hactive
    rw [Uses] at huses
    have hpasses := (h draw hdraw).2
    cases hkind : call.kind with
    | none =>
      rw [hkind] at huses hpasses
      obtain ⟨hfirst, hlast⟩ := huses
      obtain ⟨maximum, hmaximum, hadmitted⟩ := hpasses (by omega)
      rw [DrawMaximum, Option.isSome_none, if_neg Bool.false_ne_true] at hmaximum
      obtain ⟨-, rfl⟩ := hmaximum
      exact (hadmitted _ rfl).reaches (by omega) hcopy hslot henabled hactive
    | some kind =>
      rw [hkind] at huses hpasses
      obtain ⟨hbytes, hpositive⟩ := hsize kind hkind
      obtain ⟨buffer, hbuffer, position, hposition, rfl, hused⟩ := huses
      obtain ⟨maximum, hmaximum, hadmitted⟩ := hpasses (by omega)
      rw [DrawMaximum, Option.isSome_some, if_pos rfl] at hmaximum
      rw [hbytes] at hused ⊢
      obtain ⟨found, hfound, -, hbound⟩ := hmaximum.bounds hpositive
      obtain rfl := Except.ok.inj (hbuffer.symm.trans hfound)
      obtain ⟨value, rfl, hvalue⟩ := hbound position hposition hused
      exact (hadmitted value rfl).reaches hvalue hcopy hslot henabled hactive
  · intro kind hkind draw hdraw hcount hinstances
    obtain ⟨hbytes, hpositive⟩ := hsize kind hkind
    obtain ⟨maximum, hmaximum, -⟩ := (h draw hdraw).2 (not_or.mpr ⟨hcount, hinstances⟩)
    rw [hkind, DrawMaximum, Option.isSome_some, if_pos rfl] at hmaximum
    obtain ⟨buffer, hbuffer, hrange, -⟩ := hmaximum.bounds hpositive
    exact ⟨buffer, hbuffer, by rw [hbytes]; exact hrange⟩

/-- The check of one draw without indices. -/
theorem drawPasses_arrays {view : WebGl} {size : Nat} {instanced : Bool} {draw : Draw} (hcount : draw.count ≠ 0)
    (hinstances : draw.instances ≠ 0) (hword : draw.start + (draw.count - 1) < 2 ^ 32) :
    DrawPasses driver view false size instanced draw ↔
      AttributesAdmitted driver view (draw.start + (draw.count - 1)) draw.instances instanced := by
  constructor
  · intro h
    obtain ⟨maximum, hmaximum, hadmitted⟩ := h.2 (not_or.mpr ⟨hcount, hinstances⟩)
    rw [DrawMaximum, if_neg Bool.false_ne_true] at hmaximum
    exact hadmitted _ hmaximum.2
  · intro h
    have hmaximum : DrawMaximum view false size draw (some (draw.start + (draw.count - 1))) := by
      rw [DrawMaximum, if_neg Bool.false_ne_true]
      exact ⟨hword, rfl⟩
    refine ⟨fun hindexed => absurd hindexed.1 Bool.false_ne_true, fun _ => ⟨_, hmaximum, ?_⟩⟩
    rintro _ ⟨⟩
    exact h

/-- The check of one indexed draw. -/
theorem drawPasses_elements {view : WebGl} {size : Nat} {instanced : Bool} {draw : Draw} (hcount : draw.count ≠ 0)
    (hinstances : draw.instances ≠ 0) :
    DrawPasses driver view true size instanced draw ↔ IndicesAdmitted driver view size draw instanced := by
  constructor
  · rintro ⟨haligned, hpasses⟩
    obtain ⟨maximum, hmaximum, hadmitted⟩ := hpasses (not_or.mpr ⟨hcount, hinstances⟩)
    rw [DrawMaximum, if_pos rfl] at hmaximum
    exact ⟨by_contra fun hnot => haligned ⟨rfl, hnot⟩, maximum, hmaximum, hadmitted⟩
  · rintro ⟨haligned, maximum, hmaximum, hadmitted⟩
    refine ⟨fun h => h.2 haligned, fun _ => ⟨maximum, ?_, hadmitted⟩⟩
    rw [DrawMaximum, if_pos rfl]
    exact hmaximum

end WebGl

end BetterWebBrowser.Webgl
