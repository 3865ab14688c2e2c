import BetterWebBrowser.Webgl.Mirrors
import BetterWebBrowser.Webgl.MultiDraw

/-!
# Copies of buffers over runs

Uploads, copies, reads of pixels, captures and draws in any order keep the copies of all buffers true. What
must not happen is that a command renews the copy of a buffer which the running capture writes to: such a
command goes through the target of captures, which no check refuses.
-/

namespace BetterWebBrowser.Webgl

open Framework
open targets

theorem length_overwrite {bytes data : List UInt8} {offset : Nat} (h : offset + data.length ≤ bytes.length) :
    (overwrite bytes offset data).length = bytes.length := by
  rw [overwrite, List.length_append, List.length_append, List.length_take, List.length_drop, Nat.min_eq_left (by omega)]
  omega

namespace WebGl

variable {driver : Driver} {context : WebGl} {c : Command} {bytes : Option (List UInt8)}

/-! ## Commands that renew a copy -/

/-- The command writes all of the buffer that is bound to the target of captures. -/
def Covers (context : WebGl) (c : Command) (bytes : Option (List UInt8)) (object : Object) : Prop :=
  (c.op = .bufferData ∧ c.u 0 = .ok TRANSFORM_FEEDBACK) ∨
    (c.op = .bufferSubData ∧ c.u 0 = .ok TRANSFORM_FEEDBACK ∧ c.u 1 = .ok 0 ∧
      ∃ data, bytes = some data ∧ data.length = object.bytes.length) ∨
    c.op = .copyBufferSubData ∧ c.u 1 = .ok TRANSFORM_FEEDBACK ∧ nonnegative c 3 = .ok 0 ∧
      nonnegative c 4 = .ok object.bytes.length ∧ ∃ read source found, c.u 0 = .ok read ∧
        context.bound_buffer read = .ok source ∧ context.objects.get source .Buffer = .ok found ∧
          found.buffer_mirror_valid = true

/-- The command renews the copy of a buffer that the running capture writes to. -/
def Overtakes (context : WebGl) (c : Command) (bytes : Option (List UInt8)) : Prop :=
  ∃ id object, context.CapturesInto id ∧ (context.core_buffer_bindings.get TRANSFORM_FEEDBACK).getD 0 = id ∧
    context.objects.get id .Buffer = .ok object ∧ context.Covers c bytes object

theorem check_data_eq_ok {id size : Nat} (h : check_data c bytes context = .ok (id, size)) :
    ∃ target object, c.u 0 = .ok target ∧ context.bound_buffer target = .ok id ∧
      context.validate_transform_buffer_use target id = .ok () ∧ context.objects.get id .Buffer = .ok object ∧
      size ≤ MAX_UPLOAD_BYTES ∧ (bytes.getD (List.replicate size 0)).length = size := by
  rw [check_data] at h
  obtain ⟨target, htarget, h⟩ := bind_eq_ok.mp h
  obtain ⟨found, hbound, h⟩ := bind_eq_ok.mp h
  obtain ⟨⟨⟩, huse, h⟩ := bind_eq_ok.mp h
  obtain ⟨length, -, h⟩ := bind_eq_ok.mp h
  obtain ⟨_, -, h⟩ := bind_eq_ok.mp h
  obtain ⟨-, h⟩ := failIf_bind_eq_ok.mp h
  obtain ⟨hsize, h⟩ := failIf_bind_eq_ok.mp h
  obtain ⟨_, -, h⟩ := bind_eq_ok.mp h
  obtain ⟨rfl, rfl⟩ := Except.ok.inj h
  obtain ⟨object, hget⟩ := (bound_buffer_eq_ok hbound).1
  refine ⟨target, object, htarget, hbound, huse, hget, Nat.not_lt.mp fun hlarge => hsize (.inl hlarge), ?_⟩
  cases hbytes : bytes with
  | none => exact List.length_replicate
  | some data => exact by_contra fun hne => hsize (.inr ⟨data, hbytes, hne⟩)

theorem check_sub_data_eq_ok {id offset : Nat} {data : List UInt8}
    (h : check_sub_data c bytes context = .ok (id, offset, data)) :
    ∃ target object, c.u 0 = .ok target ∧ context.bound_buffer target = .ok id ∧
      context.validate_transform_buffer_use target id = .ok () ∧ c.u 1 = .ok offset ∧ bytes = some data ∧
      context.objects.get id .Buffer = .ok object ∧ offset + data.length ≤ object.bytes.length := by
  rw [check_sub_data] at h
  obtain ⟨target, htarget, h⟩ := bind_eq_ok.mp h
  obtain ⟨found, hbound, h⟩ := bind_eq_ok.mp h
  obtain ⟨⟨⟩, huse, h⟩ := bind_eq_ok.mp h
  obtain ⟨start, hstart, h⟩ := bind_eq_ok.mp h
  obtain ⟨given, hgiven, h⟩ := bind_eq_ok.mp h
  obtain ⟨last, hlast, h⟩ := bind_eq_ok.mp h
  obtain ⟨object, hget, h⟩ := bind_eq_ok.mp h
  obtain ⟨hfits, h⟩ := failIf_bind_eq_ok.mp h
  obtain ⟨rfl, rfl, rfl⟩ := Except.ok.inj h
  obtain ⟨rfl, -⟩ := checkedAdd_eq_some.mp (orError_eq_ok.mp hlast)
  exact ⟨target, object, htarget, hbound, huse, hstart, orError_eq_ok.mp hgiven, hget, Nat.not_lt.mp hfits⟩

/-- A transfer whose checks have passed, with its buffers. -/
structure Transfers (context : WebGl) (c : Command) (transfer : Transfer) (read write : Nat) (original object : Object) :
    Prop where
  reads : c.u 0 = .ok read
  writes : c.u 1 = .ok write
  source : context.bound_buffer read = .ok transfer.source
  destination : context.bound_buffer write = .ok transfer.destination
  use : context.validate_transform_buffer_use write transfer.destination = .ok ()
  offset : nonnegative c 3 = .ok transfer.destination_offset
  size : nonnegative c 4 = .ok transfer.size
  source_live : context.objects.get transfer.source .Buffer = .ok original
  destination_live : context.objects.get transfer.destination .Buffer = .ok object
  within : transfer.source_offset + transfer.size ≤ original.bytes.length
  fits : transfer.destination_offset + transfer.size ≤ object.bytes.length

theorem check_transfer_eq_ok {transfer : Transfer} (h : check_transfer c context = .ok transfer) :
    ∃ read write original object, Transfers context c transfer read write original object := by
  rw [check_transfer] at h
  obtain ⟨-, h⟩ := failIf_bind_eq_ok.mp h
  obtain ⟨read, hread, h⟩ := bind_eq_ok.mp h
  obtain ⟨write, hwrite, h⟩ := bind_eq_ok.mp h
  obtain ⟨source, hsource, h⟩ := bind_eq_ok.mp h
  obtain ⟨destination, hdestination, h⟩ := bind_eq_ok.mp h
  obtain ⟨_, -, h⟩ := bind_eq_ok.mp h
  obtain ⟨⟨⟩, huse, h⟩ := bind_eq_ok.mp h
  obtain ⟨source_offset, -, h⟩ := bind_eq_ok.mp h
  obtain ⟨destination_offset, hoffset, h⟩ := bind_eq_ok.mp h
  obtain ⟨size, hsize, h⟩ := bind_eq_ok.mp h
  obtain ⟨original, horiginal, h⟩ := bind_eq_ok.mp h
  obtain ⟨source_end, hwithin, h⟩ := bind_eq_ok.mp h
  obtain ⟨object, hget, h⟩ := bind_eq_ok.mp h
  obtain ⟨destination_end, hfits, h⟩ := bind_eq_ok.mp h
  obtain ⟨-, h⟩ := failIf_bind_eq_ok.mp h
  obtain ⟨-, h⟩ := failIf_bind_eq_ok.mp h
  obtain ⟨_, -, h⟩ := bind_eq_ok.mp h
  obtain rfl := Except.ok.inj h
  exact ⟨read, write, original, object, hread, hwrite, hsource, hdestination, huse, hoffset, hsize, horiginal, hget,
    (range_end_eq_ok hwithin).2, (range_end_eq_ok hfits).2⟩

/-- The copied range has its length, whatever storage it is taken from. -/
theorem Transfers.copied {transfer : Transfer} {read write : Nat} {original object : Object}
    (h : Transfers context c transfer read write original object) {storage : List UInt8}
    (hlength : storage.length = original.bytes.length) :
    ((storage.drop transfer.source_offset).take transfer.size).length = transfer.size := by
  have hwithin := h.within
  rw [List.length_take, List.length_drop, Nat.min_eq_left (by omega)]

/-- A copy into a buffer leaves its length. -/
theorem Transfers.length {transfer : Transfer} {read write : Nat} {original object : Object}
    (h : Transfers context c transfer read write original object) {storage destination : List UInt8}
    (hstorage : storage.length = original.bytes.length) (hdestination : destination.length = object.bytes.length) :
    (overwrite destination transfer.destination_offset
      ((storage.drop transfer.source_offset).take transfer.size)).length = destination.length := by
  refine length_overwrite ?_
  rw [h.copied hstorage, hdestination]
  exact h.fits

/-- The buffer of a binding is in the table. -/
theorem Counting.bound_live (h : Counting context) {key : Nat} {record : Record} {binding : Binding}
    (hget : context.transform_feedback.records.get key = some record) (hbinding : binding ∈ record.bindings)
    (hid : binding.id ≠ 0) : ∃ object, context.objects.get binding.id .Buffer = .ok object := by
  have hmem : binding.id ∈ record.bindings.map fun binding => binding.id := List.mem_map.mpr ⟨binding, hbinding, rfl⟩
  have hweight := OrdMap.le_weight_of_get
    (fun (_ : Nat) (record : Record) => (record.bindings.map fun other => other.id).count binding.id) hget
  have hpositive := List.count_pos_iff.mpr hmem
  exact h.counted.live binding.id hid (by rw [places]; omega)

/-- A buffer that a capture writes to is in the table. -/
theorem Counting.captured_lt (h : Counting context) {id : Nat} (hcaptured : context.CapturesInto id) :
    id < context.objects.next_object := by
  obtain ⟨-, hid, record, hget, -, -, binding, hbinding, rfl⟩ := hcaptured
  obtain ⟨object, hobject⟩ := h.bound_live hget hbinding hid
  exact h.fresh.below _ object (Objects.get_eq_ok.mp hobject).1

/-- A new buffer is empty, and the others are as they were. -/
theorem created_cases {native id : Nat} {objects : Objects} (hinsert : context.objects.insert .Buffer native = .ok (id, objects))
    (other : Nat) (object : Object) (hget : objects.get other .Buffer = .ok object) :
    (other = id ∧ object.bytes = [] ∧ object.contents = []) ∨ other ≠ id ∧ context.objects.get other .Buffer = .ok object := by
  have hempty (object : Object) (hget : objects.entries.get id = some object) : object.bytes = [] ∧ object.contents = [] := by
    rw [Objects.insert] at hinsert
    split at hinsert
    next => cases hinsert
    next =>
      split at hinsert
      next => cases hinsert
      next =>
        obtain ⟨rfl, rfl⟩ := Except.ok.inj hinsert
        rw [OrdMap.get_insert_self] at hget
        obtain rfl := Option.some.inj hget
        exact ⟨rfl, rfl⟩
  obtain ⟨-, -, -, _, -, -, -, hentries⟩ := Objects.insert_eq_ok hinsert
  obtain ⟨hentry, hkind⟩ := Objects.get_eq_ok.mp hget
  by_cases hother : other = id
  · exact .inl ⟨hother, hempty object (hother ▸ hentry)⟩
  · rw [hentries, if_neg hother] at hentry
    exact .inr ⟨hother, Objects.get_eq_ok.mpr ⟨hentry, hkind⟩⟩

theorem Tracked.create (h : Tracked context) (hcounting : Counting context) {native id : Nat} {objects : Objects}
    (hinsert : context.objects.insert .Buffer native = .ok (id, objects)) : Tracked { context with objects := objects } := by
  obtain ⟨hid, hnext, -, -⟩ := Objects.insert_eq_ok hinsert
  have hcases := created_cases hinsert
  constructor
  · constructor
    · intro other object hget
      obtain ⟨-, hbytes, hcontents⟩ | ⟨-, hget⟩ := hcases other object hget
      · refine ⟨by rw [hbytes, hcontents], by rw [hbytes]; exact Nat.zero_le _, fun _ => hbytes.trans hcontents.symm⟩
      · exact h.mirrored.stored other object hget
    · intro entry hmem object hget
      obtain ⟨hsame, -⟩ | ⟨-, hget⟩ := hcases _ object hget
      · have howner := h.owners entry hmem
        omega
      · exact h.mirrored.ranges entry hmem object hget
  · intro object hget
    obtain ⟨hzero, -⟩ | ⟨-, hget⟩ := hcases 0 object hget
    · have hpos := hcounting.fresh.pos
      omega
    · exact h.zero object hget
  · intro other object hget
    show other < objects.next_object
    obtain ⟨hsame, -⟩ | ⟨-, hget⟩ := hcases other object hget
    · omega
    · have hlt := h.below other object hget
      omega
  · intro entry hmem
    show entry.key.owner < objects.next_object
    have howner := h.owners entry hmem
    omega
  · exact h.alone
  · intro other hcaptured object hget
    obtain ⟨hsame, -⟩ | ⟨-, hget⟩ := hcases other object hget
    · have hlt := hcounting.captured_lt hcaptured
      omega
    · exact h.overwritten other hcaptured object hget

end WebGl

/-! ## Whole runs -/

section

variable {driver : Driver} {before after context : WebGl} {event : Event} {api : ApiVersion} {core : Option CoreEntries}
  {extensions : Extensions} {slots uniforms captures names : Nat} {events : List Event}

/-- What happens elsewhere leaves the buffers. -/
theorem WebGl.Elsewhere.quiet (h : WebGl.Elsewhere before after) : WebGl.Quiet before after := by
  have hkept := h.kept
  refine (WebGl.Quiet.refl before).slots ⟨h.next, fun id object hget => ?_⟩ (by rw [hkept]) (by rw [hkept]) (by rw [hkept])
  obtain ⟨hentry, hkind⟩ := Objects.get_eq_ok.mp hget
  exact ⟨object, Objects.get_eq_ok.mpr ⟨(h.buffers id object hkind).mp hentry, hkind⟩, rfl, rfl, rfl⟩

theorem tracked_new : (WebGl.new api core extensions slots uniforms captures names).Tracked := by
  have hnone (id : Nat) (object : Object) :
      (WebGl.new api core extensions slots uniforms captures names).objects.get id .Buffer ≠ .ok object := by
    intro hget
    cases (Objects.get_eq_ok.mp hget).1
  have hidle (key : Nat) (record : Record)
      (hget : (WebGl.new api core extensions slots uniforms captures names).transform_feedback.records.get key = some record) :
      record.active = false := by
    have hget : (OrdMap.empty.insert 0 (Record.new captures)).get key = some record := hget
    rw [OrdMap.get_insert] at hget
    split at hget
    next => exact Option.some.inj hget ▸ rfl
    next => cases hget
  refine ⟨⟨fun id object hget => absurd hget (hnone id object), fun _ hmem => absurd hmem List.not_mem_nil⟩, hnone 0,
    fun id object hget => absurd hget (hnone id object), fun _ hmem => absurd hmem List.not_mem_nil,
    fun key record hget hactive _ => ?_, fun id _ object hget => absurd hget (hnone id object)⟩
  exact absurd ((hidle key record hget).symm.trans hactive) Bool.false_ne_true

end

end BetterWebBrowser.Webgl
