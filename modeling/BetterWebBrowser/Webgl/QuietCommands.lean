import BetterWebBrowser.Webgl.BufferRuns

/-!
# Commands that leave the storage

Most commands leave the bytes of all buffers and what the captures of the context did so far. They may
let buffers go, and they may end a capture, pause it or take buffers from it.
-/

namespace BetterWebBrowser.Webgl

open Framework

/-! ## The table -/

namespace Objects

/-- Buffers may go; those that stay keep their storage and the copy of it. -/
structure Still (before after : Objects) : Prop where
  next : before.next_object ≤ after.next_object
  kept : ∀ id object, after.get id .Buffer = .ok object → ∃ earlier, before.get id .Buffer = .ok earlier ∧
    object.bytes = earlier.bytes ∧ object.contents = earlier.contents ∧
      object.buffer_mirror_valid = earlier.buffer_mirror_valid

variable {objects after : Objects} {id : Nat}

theorem Still.refl (objects : Objects) : Still objects objects :=
  ⟨Nat.le_refl _, fun _ object h => ⟨object, h, rfl, rfl, rfl⟩⟩

theorem Still.trans {last : Objects} (h : Still objects after) (hnext : Still after last) : Still objects last := by
  refine ⟨Nat.le_trans h.next hnext.next, fun id object hget => ?_⟩
  obtain ⟨middle, hmiddle, hbytes, hcontents, hvalid⟩ := hnext.kept id object hget
  obtain ⟨earlier, hearlier, hbytes', hcontents', hvalid'⟩ := h.kept id middle hmiddle
  exact ⟨earlier, hearlier, hbytes.trans hbytes', hcontents.trans hcontents', hvalid.trans hvalid'⟩

/-- A write that leaves the storage and its copy. -/
structure Idle (write : Object → Object) : Prop where
  kind : ∀ object, (write object).kind = object.kind
  bytes : ∀ object, (write object).bytes = object.bytes
  contents : ∀ object, (write object).contents = object.contents
  valid : ∀ object, (write object).buffer_mirror_valid = object.buffer_mirror_valid

theorem still_update (objects : Objects) (id : Nat) {write : Object → Object} (h : Idle write) :
    Still objects (objects.update id write) := by
  refine ⟨Nat.le_of_eq (update_next ..).1.symm, fun other object hget => ?_⟩
  obtain ⟨hentry, hkind⟩ := get_eq_ok.mp hget
  rw [get_update] at hentry
  by_cases hsame : other = id
  · rw [if_pos hsame] at hentry
    obtain ⟨earlier, hearlier, rfl⟩ := Option.map_eq_some_iff.mp hentry
    exact ⟨earlier, get_eq_ok.mpr ⟨hsame ▸ hearlier, (h.kind earlier).symm.trans hkind⟩, h.bytes earlier,
      h.contents earlier, h.valid earlier⟩
  · rw [if_neg hsame] at hentry
    exact ⟨object, get_eq_ok.mpr ⟨hentry, hkind⟩, rfl, rfl, rfl⟩

/-- Entries may only go. -/
theorem still_of_subset (hnext : after.next_object = objects.next_object)
    (hentries : ∀ id object, after.entries.get id = some object → objects.entries.get id = some object) :
    Still objects after := by
  refine ⟨Nat.le_of_eq hnext.symm, fun id object hget => ?_⟩
  obtain ⟨hentry, hkind⟩ := get_eq_ok.mp hget
  exact ⟨object, get_eq_ok.mpr ⟨hentries id object hentry, hkind⟩, rfl, rfl, rfl⟩

theorem still_retire (objects : Objects) (id : Nat) : Still objects (objects.retire_unreferenced id) := by
  refine still_of_subset (retire_next ..).1 fun other object hentry => ?_
  rw [get_retire] at hentry
  by_cases hsame : other = id
  · rw [if_pos hsame] at hentry
    exact hsame ▸ (Option.filter_eq_some_iff.mp hentry).1
  · rwa [if_neg hsame] at hentry

theorem still_release (objects : Objects) (id : Nat) : Still objects (objects.release id) := by
  have hless : Still objects (objects.update id fun object => { object with references := object.references - 1 }) :=
    still_update objects id ⟨fun _ => rfl, fun _ => rfl, fun _ => rfl, fun _ => rfl⟩
  have hgone := hless.trans (still_retire _ id)
  exact ⟨hgone.next, hgone.kept⟩

theorem still_release_all (ids : List Nat) (objects : Objects) : Still objects (WebGl.release_all ids objects) := by
  induction ids generalizing objects with
  | nil => exact .refl objects
  | cons id ids ih =>
    rw [WebGl.release_all, List.foldl_cons]
    refine Still.trans ?_ (ih _)
    split
    next => exact .refl objects
    next => exact still_release objects id

theorem still_retain_new {new : Nat} (h : objects.retain_new new = .ok after) : Still objects after := by
  rw [retain_new] at h
  by_cases hnew : new = 0
  · rw [if_pos hnew] at h
    rw [← Except.ok.inj h]
    exact .refl objects
  · rw [if_neg hnew] at h
    obtain ⟨_, -, rfl⟩ := retain_buffer_eq_ok h
    exact still_update objects new ⟨fun _ => rfl, fun _ => rfl, fun _ => rfl, fun _ => rfl⟩

theorem still_switch_buffer {old new : Nat} (h : objects.switch_buffer old new = .ok after) : Still objects after := by
  rw [switch_buffer] at h
  by_cases hsame : old = new
  · rw [if_pos hsame] at h
    rw [← Except.ok.inj h]
    exact .refl objects
  · rw [if_neg hsame] at h
    obtain ⟨retained, hretain, hafter⟩ := bind_eq_ok.mp h
    rw [← Except.ok.inj hafter]
    by_cases hzero : old = 0
    · rw [if_pos hzero]
      exact still_retain_new hretain
    · rw [if_neg hzero]
      exact (still_retain_new hretain).trans (still_release retained old)

theorem still_erase (objects : Objects) (id : Nat) :
    Still objects { objects with entries := objects.entries.erase id } := by
  refine still_of_subset rfl fun other object hentry => ?_
  have hentry : (objects.entries.erase id).get other = some object := hentry
  rw [OrdMap.get_erase] at hentry
  split at hentry
  next => cases hentry
  next => exact hentry

theorem still_insert {kind : Kind} {native : Nat} (hkind : kind ≠ .Buffer)
    (h : objects.insert kind native = .ok (id, after)) : Still objects after := by
  obtain ⟨-, hnext, -, object, hobject, -, -, hentries⟩ := insert_eq_ok h
  refine ⟨hnext ▸ Nat.le_succ _, fun other found hget => ?_⟩
  obtain ⟨hentry, hbuffer⟩ := get_eq_ok.mp hget
  rw [hentries] at hentry
  by_cases hsame : other = id
  · rw [if_pos hsame] at hentry
    obtain rfl := Option.some.inj hentry
    exact absurd (hobject.symm.trans hbuffer) hkind
  · rw [if_neg hsame] at hentry
    exact ⟨found, get_eq_ok.mpr ⟨hentry, hbuffer⟩, rfl, rfl, rfl⟩

theorem still_delete {kind : Kind} (h : objects.delete id kind = .ok after) : Still objects after := by
  rw [delete] at h
  by_cases hzero : id = 0
  · rw [if_pos hzero] at h
    rw [← Except.ok.inj h]
    exact .refl objects
  · rw [if_neg hzero] at h
    obtain ⟨object, -, h⟩ := bind_eq_ok.mp h
    by_cases hcounted : kind.counted = true
    · rw [if_pos hcounted] at h
      by_cases hpending : object.pending_delete = true
      · rw [if_pos hpending] at h
        rw [← Except.ok.inj h]
        exact .refl objects
      · rw [if_neg hpending] at h
        rw [← Except.ok.inj h]
        refine (still_update objects id ⟨?_, ?_, ?_, ?_⟩).trans (still_retire _ id)
        all_goals exact fun _ => rfl
    · rw [if_neg hcounted] at h
      rw [← Except.ok.inj h]
      exact still_erase objects id

end Objects

/-! ## Captures -/

/-- A capture that goes on, perhaps paused and with fewer buffers. -/
structure Continues (record earlier : Record) : Prop where
  active : earlier.active = true
  ledger : record.ledger = earlier.ledger
  running : record.paused = false → earlier.paused = false
  bindings : ∀ (index : Nat) (binding : Binding), record.bindings[index]? = some binding →
    binding.id = 0 ∨ earlier.bindings[index]? = some binding

theorem Continues.trans {first middle last : Record} (h : Continues middle first) (hnext : Continues last middle) :
    Continues last first := by
  refine ⟨h.active, hnext.ledger.trans h.ledger, fun hpaused => h.running (hnext.running hpaused),
    fun index binding hget => ?_⟩
  obtain hzero | hmiddle := hnext.bindings index binding hget
  · exact .inl hzero
  · exact h.bindings index binding hmiddle

namespace WebGl

/-- The storage, the cached ranges and the captures are as they were, or there are fewer of them. -/
structure Quiet (start context : WebGl) : Prop where
  api : context.api = start.api
  ranges : context.index_cache = start.index_cache
  still : Objects.Still start.objects context.objects
  captures : ∀ key record, context.transform_feedback.records.get key = some record → record.active = true →
    ∃ earlier, start.transform_feedback.records.get key = some earlier ∧ Continues record earlier
  bound : ∀ record, start.transform_feedback.records.get start.transform_feedback.bound = some record →
    record.active = true → record.paused = false → context.transform_feedback.bound = start.transform_feedback.bound

variable {driver : Driver} {start context after : WebGl}

theorem Quiet.refl (context : WebGl) : Quiet context context := by
  refine ⟨rfl, rfl, .refl _, fun _ record hget hactive => ⟨record, hget, hactive, rfl, fun h => h, ?_⟩, fun _ _ _ _ => rfl⟩
  exact fun _ _ hbinding => .inr hbinding

/-- Only slots, bindings and counts change. -/
theorem Quiet.slots (h : Quiet start context) (hstill : Objects.Still context.objects after.objects)
    (hapi : after.api = context.api) (hranges : after.index_cache = context.index_cache)
    (hfeedback : after.transform_feedback = context.transform_feedback) : Quiet start after := by
  refine ⟨hapi.trans h.api, hranges.trans h.ranges, h.still.trans hstill, ?_, ?_⟩
  · rw [hfeedback]
    exact h.captures
  · rw [hfeedback]
    exact h.bound

/-- A record changes, but does not begin to capture or go on with a capture. -/
theorem Quiet.record (h : Quiet start context) {objects : Objects} (hstill : Objects.Still context.objects objects) {id : Nat}
    {record : Record} (hrecord : record.active = true →
      ∃ previous, context.transform_feedback.records.get id = some previous ∧ Continues record previous) :
    Quiet start { context with
      objects := objects
      transform_feedback := { context.transform_feedback with
        records := context.transform_feedback.records.insert id record } } := by
  refine ⟨h.api, h.ranges, h.still.trans hstill, fun key found hget hactive => ?_, h.bound⟩
  have hget : (context.transform_feedback.records.insert id record).get key = some found := hget
  rw [OrdMap.get_insert] at hget
  by_cases hkey : key = id
  · rw [if_pos hkey] at hget
    obtain rfl := Option.some.inj hget
    obtain ⟨previous, hprevious, hcontinues⟩ := hrecord hactive
    obtain ⟨earlier, hearlier, hbefore⟩ := h.captures id previous hprevious hcontinues.active
    exact ⟨earlier, hkey ▸ hearlier, hbefore.trans hcontinues⟩
  · rw [if_neg hkey] at hget
    exact h.captures key found hget hactive


/-! ## Slots -/

/-- A write to an object that leaves its storage. -/
theorem quiet_write_object (id : Nat) {write : Object → Object} (hwrite : Objects.Idle write) :
    Method.Keeps (Quiet start) (write_object id write) :=
  fun _ h => h.slots (Objects.still_update _ id hwrite) rfl rfl rfl

theorem quiet_switch_element (id : Nat) : Method.Keeps (Quiet start) (switch_element id) := by
  refine .get_bind fun context h => Method.ends_ofExcept_bind h fun objects hswitch => ?_
  exact h.slots (Objects.still_switch_buffer hswitch) rfl rfl rfl

theorem quiet_bind_target (target id : Nat) : Method.Keeps (Quiet start) (bind_target target id) := by
  refine .ite (.modify fun _ h => ?_) (.ite (quiet_switch_element id) (.modify fun _ h => ?_))
  · exact h.slots (.refl _) rfl rfl rfl
  · exact h.slots (.refl _) rfl rfl rfl

theorem quiet_bind_buffer (c : Command) : Method.Keeps (Quiet start) (bind_buffer c) := by
  refine (Method.Keeps.read _).bind fun (target, id, bound) => ?_
  refine Method.Keeps.bind (.onlyIf ?_) fun _ => quiet_bind_target target id
  exact quiet_write_object id ⟨fun _ => rfl, fun _ => rfl, fun _ => rfl, fun _ => rfl⟩

theorem quiet_vertex_pointer (c : Command) : Method.Keeps (Quiet start) (vertex_pointer c) := by
  refine (Method.Keeps.read _).bind fun (index, slot) => .get_bind fun context h => ?_
  refine Method.ends_ofExcept_bind h fun previous _ => Method.ends_ofExcept_bind h fun objects hswitch => ?_
  exact h.slots (Objects.still_switch_buffer hswitch) rfl rfl rfl

theorem quiet_enable_slot (c : Command) : Method.Keeps (Quiet start) (enable_slot c) := by
  refine .get_bind fun context h => Method.ends_ofExcept_bind h fun index _ => Method.ends_ofExcept_bind h fun slot _ => ?_
  exact h.slots (.refl _) rfl rfl rfl

theorem quiet_set_divisor (c : Command) : Method.Keeps (Quiet start) (set_divisor c) := by
  refine .get_bind fun context h => Method.ends_failIf_bind h fun _ => Method.ends_ofExcept_bind h fun index _ =>
    Method.ends_ofExcept_bind h fun divisor _ => Method.ends_ofExcept_bind h fun slot _ =>
    Method.ends_failIf_bind h fun _ => ?_
  exact h.slots (.refl _) rfl rfl rfl

/-! ## Vertex arrays -/

theorem quiet_rebuild : Method.Keeps (Quiet start) (rebuild_vertex_array driver) := by
  refine (Method.Keeps.read _).bind fun _ => .get_bind fun context h => ?_
  refine Method.ends_bind.mpr (Method.ends_onlyIf (fun _ => ?_) fun _ => h)
  exact h.slots (.refl _) rfl rfl rfl

theorem quiet_enable_vertex_arrays : Method.Keeps (Quiet start) (enable_vertex_arrays driver) := by
  refine .get_bind fun context h => Method.ends_ite (fun _ => h) fun _ => ?_
  exact quiet_rebuild.ends_bind h fun native after hafter => hafter.slots (.refl _) rfl rfl rfl

theorem quiet_create_vertex_array : Method.Keeps (Quiet start) (create_vertex_array driver) := by
  refine .get_bind fun context h => Method.ends_failIf_bind h fun _ => Method.ends_ofExcept_bind h fun created hcreated => ?_
  have hinsert : context.objects.insert .VertexArray (driver.generate context.objects) = .ok (created.1, created.2) := hcreated
  exact h.slots (Objects.still_insert (by decide) hinsert) rfl rfl rfl

theorem quiet_bind_vertex_array (id : Nat) : Method.Keeps (Quiet start) (bind_vertex_array id) := by
  refine .get_bind fun context h => Method.ends_ite (fun _ => h) fun _ => Method.ends_read_bind h fun next _ => ?_
  exact h.slots (.refl _) rfl rfl rfl

theorem quiet_delete_object (id : Nat) (kind : Kind) : Method.Keeps (Quiet start) (delete_object id kind) := by
  refine .get_bind fun context h => Method.ends_ofExcept_bind h fun objects hdelete => ?_
  exact h.slots (Objects.still_delete hdelete) rfl rfl rfl

theorem quiet_release_saved (id : Nat) : Method.Keeps (Quiet start) (release_saved id) := by
  refine .get_bind fun context h => ?_
  cases context.vertex_arrays.states.get id with
  | none => exact h
  | some state => exact h.slots (Objects.still_release_all _ _) rfl rfl rfl

theorem quiet_delete_vertex_array (id : Nat) : Method.Keeps (Quiet start) (delete_vertex_array id) := by
  refine .get_bind fun context h => Method.ends_ite (fun _ => h) fun _ => ?_
  refine Method.ends_get_bind.mpr ?_
  refine Method.Keeps.ends_bind (.onlyIf (quiet_bind_vertex_array 0)) h fun _ after hafter => ?_
  exact (quiet_release_saved id).ends_bind hafter fun _ last hlast => quiet_delete_object id .VertexArray last hlast

/-! ## Indexed bindings -/

/-- The end of a command that binds a buffer by an index. -/
theorem quiet_generic (target id : Nat) : Method.Keeps (Quiet start) (do
    classify_indexed id
    Method.modify fun context => { context with core_buffer_bindings := context.core_buffer_bindings.insert target id }) := by
  refine Method.Keeps.bind (.onlyIf ?_) fun _ => .modify fun _ h => h.slots (.refl _) rfl rfl rfl
  exact quiet_write_object id ⟨fun _ => rfl, fun _ => rfl, fun _ => rfl, fun _ => rfl⟩

theorem quiet_bind_uniform (c : Command) : Method.Keeps (Quiet start) (bind_uniform driver c) := by
  refine (Method.Keeps.read _).bind fun (index, previous, binding) => .get_bind fun context h => ?_
  refine Method.ends_ofExcept_bind h fun objects hswitch => Method.ends_modify_bind.mpr ?_
  exact quiet_generic targets.UNIFORM binding.id _ (h.slots (Objects.still_switch_buffer hswitch) rfl rfl rfl)

/-- Nothing is bound for a capture that is active. -/
theorem quiet_transform_buffer_command (c : Command) : Method.Keeps (Quiet start) (transform_buffer_command c) := by
  intro context h
  refine Method.ends_read_bind h fun (index, previous, binding) hcheck => ?_
  obtain ⟨record, hrecord, -, hactive⟩ := check_capture_binding_previous hcheck
  refine Method.ends_ofExcept_bind h fun objects hswitch => Method.ends_modify_bind.mpr (Method.ends_bind.mpr ?_)
  refine ends_write_record hrecord (quiet_generic targets.TRANSFORM_FEEDBACK binding.id _ ?_)
  refine h.record (Objects.still_switch_buffer hswitch) fun hstill => ?_
  exact absurd (hactive.symm.trans hstill) Bool.false_ne_true

theorem quiet_indexed_uniform_command (c : Command) : Method.Keeps (Quiet start) (indexed_uniform_command driver c) := by
  refine .get_bind fun context h => Method.ends_failIf_bind h fun _ => Method.ends_ofExcept_bind h fun target _ =>
    Method.ends_ofExcept_bind h fun _ _ => ?_
  refine Method.ends_ite (fun _ => quiet_transform_buffer_command c context h) fun _ => ?_
  exact Method.ends_ite (fun _ => quiet_bind_uniform c context h) fun _ => h

/-! ## Deletion of buffers -/

/-- A capture goes on without the buffers that it loses. -/
theorem continues_detached (record : Record) (hactive : record.active = true) (id : Nat) :
    Continues { record with bindings := detached id record.bindings } record := by
  refine ⟨hactive, rfl, fun hpaused => hpaused, fun index binding hget => ?_⟩
  have hget : (detached id record.bindings)[index]? = some binding := hget
  rw [detached, List.getElem?_map] at hget
  obtain ⟨found, hfound, rfl⟩ := Option.map_eq_some_iff.mp hget
  by_cases hid : found.id = id
  · rw [if_pos hid]
    exact .inl rfl
  · rw [if_neg hid]
    exact .inr hfound

theorem quiet_detach_transform_buffer (id : Nat) : Method.Keeps (Quiet start) (detach_transform_buffer id) := by
  refine .get_bind fun context h => Method.ends_ite (fun _ => h) fun _ => Method.ends_get_bind.mpr ?_
  refine Method.ends_ofExcept_bind h fun record hrecord => Method.ends_ofExcept_bind h fun _ _ =>
    Method.ends_failIf_bind h fun _ => Method.ends_modify_bind.mpr (Method.Keeps.read _ _ ?_)
  exact h.record (Objects.still_release_all _ _) fun hactive =>
    ⟨record, bound_record_eq_ok hrecord, continues_detached record hactive id⟩

theorem quiet_detach_indexed_uniform (id : Nat) : Method.Keeps (Quiet start) (detach_indexed_uniform id) := by
  refine .get_bind fun context h => Method.ends_ite (fun _ => h) fun _ => Method.ends_get_bind.mpr ?_
  refine Method.ends_ofExcept_bind h fun _ _ => Method.ends_modify_bind.mpr (Method.Keeps.read _ _ ?_)
  exact h.slots (Objects.still_release_all _ _) rfl rfl rfl

theorem quiet_replace_array : Method.Keeps (Quiet start) (replace_array driver) := by
  refine .get_bind fun context h => Method.ends_ofExcept_bind h fun _ _ => ?_
  refine quiet_rebuild.ends_bind h fun native after hafter => ?_
  refine Method.ends_ite (fun _ => hafter.slots (.refl _) rfl rfl rfl) fun _ => ?_
  refine Method.ends_ofExcept_bind hafter fun _ _ => quiet_write_object _ ⟨?_, ?_, ?_, ?_⟩ after hafter
  all_goals exact fun _ => rfl

theorem quiet_detach_everywhere (id : Nat) : Method.Keeps (Quiet start) (detach_everywhere driver id) := by
  refine .get_bind fun context h => ?_
  refine Method.Keeps.ends_bind (.onlyIf ?_) h fun _ _ h => ?_
  · exact quiet_write_object id ⟨fun _ => rfl, fun _ => rfl, fun _ => rfl, fun _ => rfl⟩
  refine (quiet_detach_transform_buffer id).ends_bind h fun _ _ h => Method.ends_modify_bind.mpr ?_
  refine (quiet_detach_indexed_uniform id).ends_bind (h.slots (.refl _) rfl rfl rfl) fun _ _ h =>
    Method.ends_modify_bind.mpr ?_
  refine Method.Keeps.ends_bind (.onlyIf (quiet_switch_element 0)) (h.slots (.refl _) rfl rfl rfl) fun _ _ h => ?_
  refine Method.ends_modify_bind.mpr ?_
  refine Method.Keeps.ends_bind (.onlyIf quiet_replace_array) (h.slots (Objects.still_release_all _ _) rfl rfl rfl) ?_
  exact fun _ after hafter => quiet_delete_object id .Buffer after hafter

theorem quiet_delete_buffer (c : Command) : Method.Keeps (Quiet start) (delete_buffer_command driver c) := by
  refine (Method.Keeps.ofExcept _).bind fun id => .get_bind fun context h => ?_
  refine Method.ends_ite (fun _ => h) fun _ => Method.ends_ofExcept_bind h fun object _ => ?_
  exact Method.ends_ite (fun _ => h) fun _ => quiet_detach_everywhere id context h

/-! ## Transform feedback -/

theorem quiet_create_transform_feedback : Method.Keeps (Quiet start) (create_transform_feedback driver) := by
  refine .get_bind fun context h => Method.ends_ofExcept_bind h fun _ _ => Method.ends_ofExcept_bind h fun created hcreated => ?_
  have hinsert : context.objects.insert .TransformFeedback (driver.generate context.objects) = .ok (created.1, created.2) :=
    hcreated
  exact h.record (Objects.still_insert (by decide) hinsert) fun hactive => absurd hactive Bool.false_ne_true

theorem quiet_end_transform_feedback : Method.Keeps (Quiet start) end_transform_feedback := by
  refine .get_bind fun context h => Method.ends_ofExcept_bind h fun record hrecord => Method.ends_failIf_bind h fun _ => ?_
  refine Method.ends_modify_bind.mpr (ends_write_record hrecord ?_)
  exact h.record (Objects.still_release _ _) fun hactive => absurd hactive Bool.false_ne_true

theorem quiet_pause_transform_feedback : Method.Keeps (Quiet start) pause_transform_feedback := by
  refine .get_bind fun context h => Method.ends_ofExcept_bind h fun record hrecord => Method.ends_failIf_bind h fun hrunning => ?_
  refine ends_write_record hrecord (h.record (.refl _) fun hactive => ⟨record, bound_record_eq_ok hrecord, hactive, rfl, ?_, ?_⟩)
  · exact fun _ => Bool.eq_false_iff.mpr fun hpaused => hrunning (.inr hpaused)
  · exact fun _ _ hget => .inr hget

/-- No other object is bound while a capture runs. -/
theorem quiet_bind_transform_feedback (c : Command) (context : WebGl) :
    Method.Ends (bind_transform_feedback c) context (fun _ => Quiet context) (Quiet context) := by
  refine Method.ends_read_bind (.refl context) fun (id, record) hcheck => ?_
  rw [check_transform_binding] at hcheck
  obtain ⟨_, -, hcheck⟩ := bind_eq_ok.mp hcheck
  obtain ⟨-, hcheck⟩ := failIf_bind_eq_ok.mp hcheck
  obtain ⟨_, -, hcheck⟩ := bind_eq_ok.mp hcheck
  obtain ⟨_, -, hcheck⟩ := bind_eq_ok.mp hcheck
  obtain ⟨bound, hbound, hcheck⟩ := bind_eq_ok.mp hcheck
  obtain ⟨hrunning, hcheck⟩ := failIf_bind_eq_ok.mp hcheck
  obtain ⟨_, -, hcheck⟩ := bind_eq_ok.mp hcheck
  obtain ⟨found, hfound, hcheck⟩ := bind_eq_ok.mp hcheck
  obtain ⟨rfl, rfl⟩ := Except.ok.inj hcheck
  have hseen : ({ record with seen := true } : Record).active = true →
      ∃ previous, context.transform_feedback.records.get id = some previous ∧ Continues { record with seen := true } previous :=
    fun hactive => ⟨record, orPanic_eq_ok.mp hfound, hactive, rfl, fun h => h, fun _ _ hget => .inr hget⟩
  have hwritten := (Quiet.refl context).record (.refl context.objects) hseen
  refine ⟨hwritten.api, hwritten.ranges, hwritten.still, hwritten.captures, fun earlier hearlier hactive hpaused => ?_⟩
  obtain rfl := Option.some.inj ((bound_record_eq_ok hbound).symm.trans hearlier)
  exact absurd ⟨hactive, hpaused⟩ hrunning

/-- The record of an active capture is not deleted. -/
theorem quiet_delete_transform_feedback (c : Command) (context : WebGl) :
    Method.Ends (delete_transform_feedback c) context (fun _ => Quiet context) (Quiet context) := by
  refine Method.ends_ofExcept_bind (.refl context) fun id _ => Method.ends_ite (fun _ => .refl context) fun _ => ?_
  refine Method.ends_read_bind (.refl context) fun _ hcheck => Method.ends_modify_bind.mpr ?_
  rw [check_transform_deletion] at hcheck
  obtain ⟨_, -, hcheck⟩ := bind_eq_ok.mp hcheck
  obtain ⟨record, hrecord, hcheck⟩ := bind_eq_ok.mp hcheck
  have hactive : record.active ≠ true := fun hactive => by
    rw [failIf, if_pos hactive] at hcheck
    cases hcheck
  have hunbound : Quiet context { context with transform_feedback := { context.transform_feedback with
      bound := if context.transform_feedback.bound = id then 0 else context.transform_feedback.bound } } := by
    have h := Quiet.refl context
    refine ⟨rfl, rfl, h.still, h.captures, fun earlier hearlier hrunning _ => if_neg fun hbound => ?_⟩
    rw [hbound] at hearlier
    obtain rfl := Option.some.inj ((orPanic_eq_ok.mp hrecord).symm.trans hearlier)
    exact hactive hrunning
  refine (quiet_delete_object id .TransformFeedback).ends_bind hunbound fun _ after hafter => ?_
  refine Method.ends_get_bind.mpr (Method.ends_ofExcept_bind hafter fun record _ => ?_)
  refine ⟨hafter.api, hafter.ranges, hafter.still.trans (Objects.still_release_all _ _), fun key found hget hactive => ?_,
    hafter.bound⟩
  have hget : (after.transform_feedback.records.erase id).get key = some found := hget
  rw [OrdMap.get_erase] at hget
  split at hget
  next => cases hget
  next => exact hafter.captures key found hget hactive

/-! ## Dispatch -/

/-- The command leaves the storage. -/
def leaves_storage : Op → Bool
  | .deleteBuffer | .bindBuffer | .createVertexArray | .createVertexArrayOES | .bindVertexArray | .bindVertexArrayOES
  | .deleteVertexArray | .deleteVertexArrayOES | .vertexAttribPointer | .vertexAttribIPointer
  | .enableVertexAttribArray | .disableVertexAttribArray | .vertexAttribDivisor | .vertexAttribDivisorANGLE
  | .bindBufferBase | .bindBufferRange | .createTransformFeedback | .bindTransformFeedback | .deleteTransformFeedback
  | .endTransformFeedback | .pauseTransformFeedback => true
  | _ => false

theorem ends_two_only {method : Gl Reply} {I : WebGl → Prop} (hcontext : I context)
    (h : Method.Ends method context (fun _ => I) I) : Method.Ends (two_only method) context (fun _ => I) I :=
  Method.ends_get_bind.mpr (Method.ends_ite (fun _ => hcontext) fun _ => h)

theorem quiet_dispatch (c : Command) (bytes : Option (List UInt8)) (context : WebGl) (h : leaves_storage c.op = true) :
    Method.Ends (dispatch driver c bytes) context (fun _ => Quiet context) (Quiet context) := by
  have hstart := Quiet.refl context
  have hbind : Method.Keeps (Quiet context) (with_arrays (null (bind_array_command c))) :=
    keeps_with_arrays (keeps_null ((Method.Keeps.ofExcept _).bind quiet_bind_vertex_array))
  have hdelete : Method.Keeps (Quiet context) (with_arrays (null (delete_array_command c))) :=
    keeps_with_arrays (keeps_null ((Method.Keeps.ofExcept _).bind quiet_delete_vertex_array))
  rw [dispatch]
  cases hop : c.op with
  | deleteBuffer => exact keeps_null (quiet_delete_buffer c) context hstart
  | bindBuffer => exact keeps_null (quiet_bind_buffer c) context hstart
  | createVertexArray => exact keeps_two_only (keeps_with_arrays (keeps_named quiet_create_vertex_array)) context hstart
  | createVertexArrayOES => exact keeps_with_arrays (keeps_named quiet_create_vertex_array) context hstart
  | bindVertexArray => exact keeps_two_only hbind context hstart
  | bindVertexArrayOES => exact hbind context hstart
  | deleteVertexArray => exact keeps_two_only hdelete context hstart
  | deleteVertexArrayOES => exact hdelete context hstart
  | vertexAttribPointer => exact keeps_null (quiet_vertex_pointer c) context hstart
  | vertexAttribIPointer => exact keeps_null (quiet_vertex_pointer c) context hstart
  | enableVertexAttribArray => exact keeps_null (quiet_enable_slot c) context hstart
  | disableVertexAttribArray => exact keeps_null (quiet_enable_slot c) context hstart
  | vertexAttribDivisor => exact keeps_two_only (keeps_null (quiet_set_divisor c)) context hstart
  | vertexAttribDivisorANGLE => exact keeps_null (quiet_set_divisor c) context hstart
  | bindBufferBase => exact keeps_null (quiet_indexed_uniform_command c) context hstart
  | bindBufferRange => exact keeps_null (quiet_indexed_uniform_command c) context hstart
  | createTransformFeedback => exact keeps_two_only (keeps_named quiet_create_transform_feedback) context hstart
  | bindTransformFeedback =>
    exact ends_two_only hstart (Method.ends_bind.mpr (quiet_bind_transform_feedback c context))
  | deleteTransformFeedback =>
    exact ends_two_only hstart (Method.ends_bind.mpr (quiet_delete_transform_feedback c context))
  | endTransformFeedback => exact keeps_two_only (keeps_null quiet_end_transform_feedback) context hstart
  | pauseTransformFeedback => exact keeps_two_only (keeps_null quiet_pause_transform_feedback) context hstart
  | _ =>
    rw [hop] at h
    cases h

end WebGl

end BetterWebBrowser.Webgl
