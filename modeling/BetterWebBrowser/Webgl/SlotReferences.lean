import BetterWebBrowser.Webgl.ReferenceSteps

/-!
# References of slots and bindings

What the commands on attribute slots, vertex arrays, indexed bindings and captures do to the places of
a context. Only the deletion of a buffer makes one go.
-/

namespace BetterWebBrowser.Webgl

open Framework
open Objects (Ages Counted Fresh Plain)

namespace WebGl

variable {driver : Driver} {start : Objects} {context : WebGl}

/-! ## Attribute slots -/

theorem keeps_set_slot (index : Nat) (slot : Attribute) : Method.Keeps (Aged start) (set_slot index slot) := by
  refine .get_bind fun context h => Method.ends_ofExcept_bind h fun previous hprevious =>
    Method.ends_ofExcept_bind h fun objects hswitch => ?_
  refine ⟨h.1.switched hswitch fun other => ?_, h.2.trans (Objects.ages_switch_buffer hswitch)⟩
  have hcount := count_map_set (fun slot : Attribute => slot.buffer) (orError_eq_ok.mp hprevious) slot other
  simp only [current_vertex_state, VertexState.slots, List.count_cons]
  omega

theorem keeps_vertex_pointer (c : Command) : Method.Keeps (Aged start) (vertex_pointer c) :=
  (Method.Keeps.read _).bind fun (index, slot) => keeps_set_slot index slot

/-- A slot that keeps its buffer. -/
theorem Aged.set_slot (h : Aged start context) {index : Nat} {previous slot : Attribute}
    (hprevious : context.attributes[index]? = some previous) (hbuffer : slot.buffer = previous.buffer) :
    Aged start { context with attributes := context.attributes.set index slot } := by
  refine ⟨h.1.same (.refl _) (h.1.counted.congr fun other _ => ?_), h.2⟩
  have hcount := count_map_set (fun slot : Attribute => slot.buffer) hprevious slot other
  rw [hbuffer] at hcount
  simp only [current_vertex_state, VertexState.slots, places, List.count_cons]
  omega

theorem keeps_enable_slot (c : Command) : Method.Keeps (Aged start) (enable_slot c) := by
  refine .get_bind fun context h => Method.ends_ofExcept_bind h fun index _ =>
    Method.ends_ofExcept_bind h fun slot hslot => ?_
  exact h.set_slot (orError_eq_ok.mp hslot) rfl

theorem keeps_set_divisor (c : Command) : Method.Keeps (Aged start) (set_divisor c) := by
  refine .get_bind fun context h => Method.ends_failIf_bind h fun _ => Method.ends_ofExcept_bind h fun index _ =>
    Method.ends_ofExcept_bind h fun divisor _ => Method.ends_ofExcept_bind h fun slot hslot =>
    Method.ends_failIf_bind h fun _ => ?_
  exact h.set_slot (orError_eq_ok.mp hslot) rfl

/-! ## Vertex arrays -/

/-- What a saved array says about the default one may be renewed. -/
theorem ends_rebuild (h : Aged start context) :
    Method.Ends (rebuild_vertex_array driver) context (fun native after => native ≠ 0 ∧ Aged start after) (Aged start) := by
  refine Method.ends_read_bind h fun _ _ => ?_
  rw [Method.ends_get_bind, Method.ends_bind]
  refine Method.ends_onlyIf (fun hnative => ⟨(driver.generate context.objects).property, ?_⟩)
    fun _ => ⟨(driver.generate context.objects).property, h⟩
  refine ⟨h.1.rearranged (.refl _) (h.1.counted.congr fun other _ => ?_) (fun key state hget => ?_) h.1.bound, h.2⟩
  · exact congrFun (places_save_bound context.current_vertex_state context.vertex_arrays context.indexed_uniforms
      context.transform_feedback.records (h.1.bound.1 hnative).symm context.current_vertex_state) other
  · rw [OrdMap.get_insert] at hget
    by_cases hkey : key = 0
    · exact .inr (hkey ▸ h.1.fresh.pos)
    · rw [if_neg hkey] at hget
      exact .inl ⟨state, hget⟩

/-- The default array has another name in the driver. -/
theorem Aged.default_native (h : Aged start context) {native : Nat} (hnative : native ≠ 0) :
    Aged start { context with vertex_arrays := { context.vertex_arrays with default_native := native } } :=
  ⟨h.1.rearranged (.refl _) h.1.counted (fun _ state hget => .inl ⟨state, hget⟩) 
    ⟨fun hzero => absurd hzero hnative, h.1.bound.2⟩, h.2⟩

theorem keeps_enable_vertex_arrays : Method.Keeps (Aged start) (enable_vertex_arrays driver) := by
  refine .get_bind fun context h => Method.ends_ite (fun _ => h) fun _ => Method.ends_bind.mpr ?_
  refine (ends_rebuild h).mono (fun native after hafter => ?_) fun _ hafter => hafter
  exact hafter.2.default_native hafter.1

theorem keeps_create_vertex_array : Method.Keeps (Aged start) (create_vertex_array driver) := by
  refine .get_bind fun context h => Method.ends_failIf_bind h fun _ => Method.ends_ofExcept_bind h fun created hcreated => ?_
  have hinsert : context.objects.insert .VertexArray (driver.generate context.objects) = .ok (created.1, created.2) := hcreated
  have hages := Objects.ages_insert h.1.fresh (by decide) hinsert
  obtain ⟨hid, hnext, -⟩ := Objects.insert_eq_ok hinsert
  have hnew : context.vertex_arrays.states.get created.1 = none := by
    rw [Option.eq_none_iff_forall_ne_some]
    intro state hstate
    have hlt := h.1.states _ state hstate
    omega
  refine ⟨h.1.rearranged hages ((h.1.counted.insert h.1.fresh hinsert).congr fun other hother => ?_) (fun key state hget => ?_)
    ⟨h.1.bound.1, Nat.lt_of_lt_of_le h.1.bound.2 hages.next⟩, h.2.trans hages⟩
  · refine places_save context.current_vertex_state context.vertex_arrays context.indexed_uniforms
      context.transform_feedback.records hnew ?_
    rw [VertexState.slots, List.map_replicate, List.count_cons_of_ne hother.symm, List.count_replicate]
    exact if_neg fun h => hother (beq_iff_eq.mp h).symm
  · have hget : (context.vertex_arrays.states.insert created.1 _).get key = some state := hget
    rw [OrdMap.get_insert] at hget
    by_cases hkey : key = created.1
    · refine .inr ?_
      show key < created.2.next_object
      omega
    · rw [if_neg hkey] at hget
      exact .inl ⟨state, hget⟩

/-- The array may be bound: vertex arrays are enabled, or it is the default one. -/
theorem ends_bind_vertex_array (h : Aged start context) {id : Nat} (hid : context.vertex_arrays.default_native = 0 → id = 0) :
    Method.Ends (bind_vertex_array id) context (fun _ after => Aged start after ∧ after.vertex_arrays.bound = id)
      (Aged start) := by
  rw [bind_vertex_array, Method.ends_get_bind]
  refine Method.ends_ite (fun hbound => ⟨h, hbound.symm⟩) fun hbound => Method.ends_read_bind h fun next hnext => ?_
  obtain ⟨_, -, hrest⟩ := bind_eq_ok.mp hnext
  obtain ⟨found, hfound, hrest⟩ := bind_eq_ok.mp hrest
  obtain ⟨_, -, hsame⟩ := bind_eq_ok.mp hrest
  obtain rfl := Except.ok.inj hsame
  have hstate := orError_eq_ok.mp hfound
  refine ⟨⟨h.1.rearranged (.refl _) (h.1.counted.congr fun other _ => ?_) (fun key state hget => ?_)
    ⟨hid, h.1.states id _ hstate⟩, h.2⟩, rfl⟩
  · exact congrFun (places_bind context.current_vertex_state context.vertex_arrays context.indexed_uniforms
      context.transform_feedback.records hstate hbound) other
  · rw [OrdMap.get_insert] at hget
    by_cases hkey : key = context.vertex_arrays.bound
    · exact .inr (hkey ▸ h.1.bound.2)
    · rw [if_neg hkey] at hget
      exact .inl ⟨state, hget⟩

/-- An object that is no buffer goes at once. -/
theorem keeps_delete_object (id : Nat) {kind : Kind} (hkind : kind.counted = false) :
    Method.Keeps (Aged start) (delete_object id kind) := by
  refine .get_bind fun context h => Method.ends_ofExcept_bind h fun objects hdelete => ?_
  rw [Objects.delete] at hdelete
  by_cases hzero : id = 0
  · rw [if_pos hzero] at hdelete
    obtain rfl := Except.ok.inj hdelete
    exact h
  · rw [if_neg hzero] at hdelete
    obtain ⟨object, hget, hdelete⟩ := bind_eq_ok.mp hdelete
    rw [if_neg (fun h => Bool.false_ne_true (hkind.symm.trans h))] at hdelete
    obtain rfl := Except.ok.inj hdelete
    obtain ⟨hentry, hobject⟩ := Objects.get_eq_ok.mp hget
    have hother (found : Object) (hfound : context.objects.entries.get id = some found) : found.kind ≠ .Buffer := by
      obtain rfl := Option.some.inj (hentry.symm.trans hfound)
      rintro hbuffer
      rw [← hobject, hbuffer] at hkind
      cases hkind
    have hages := Objects.ages_erase hother
    exact ⟨h.1.same hages (h.1.counted.erase hother), h.2.trans hages⟩

theorem ends_release_saved (h : Aged start context) {id : Nat} (hid : id ≠ context.vertex_arrays.bound) :
    Method.Ends (release_saved id) context (fun _ => Aged start) (Aged start) := by
  rw [release_saved, Method.ends_get_bind]
  cases hstate : context.vertex_arrays.states.get id with
  | none => exact h
  | some state =>
    have hages := Objects.ages_release_all state.slots context.objects
    refine ⟨h.1.rearranged hages (h.1.counted.released fun other _ => ?_) (fun key found hget => ?_)
      ⟨h.1.bound.1, Nat.lt_of_lt_of_le h.1.bound.2 hages.next⟩, h.2.trans hages⟩
    · exact places_unsave context.current_vertex_state context.vertex_arrays context.indexed_uniforms
        context.transform_feedback.records hstate hid other
    · rw [OrdMap.get_erase] at hget
      split at hget
      next => cases hget
      next => exact .inl ⟨found, hget⟩

theorem keeps_delete_known_array {id : Nat} (hid : id ≠ 0) : Method.Keeps (Aged start) (delete_known_array id) := by
  refine .get_bind fun context h => Method.ends_bind.mpr ?_
  have hunbound : Method.Ends (Method.onlyIf (context.vertex_arrays.bound = id) (bind_vertex_array 0)) context
      (fun _ after => Aged start after ∧ id ≠ after.vertex_arrays.bound) (Aged start) := by
    refine Method.ends_onlyIf (fun _ => ?_) fun hbound => ⟨h, fun hsame => hbound hsame.symm⟩
    refine (ends_bind_vertex_array h fun _ => rfl).mono (fun _ after hafter => ?_) fun _ hafter => hafter
    exact ⟨hafter.1, fun hsame => hid (hsame.trans hafter.2)⟩
  refine hunbound.mono (fun _ after hafter => Method.ends_bind.mpr ?_) fun _ hafter => hafter
  refine (ends_release_saved hafter.1 hafter.2).mono (fun _ last hlast => ?_) fun _ hlast => hlast
  exact keeps_delete_object id rfl last hlast

theorem keeps_delete_vertex_array (id : Nat) : Method.Keeps (Aged start) (delete_vertex_array id) := by
  refine .get_bind fun context h => Method.ends_ite (fun _ => h) fun hid => ?_
  exact keeps_delete_known_array (fun hzero => hid (.inl hzero)) context h

/-! ## Indexed bindings -/

/-- A binding of a list changes. -/
theorem count_bindings {bindings : List Binding} {index : Nat} {previous : Binding} (h : bindings[index]? = some previous)
    (binding : Binding) (id : Nat) :
    ((bindings.set index binding).map fun binding => binding.id).count id + (if id = previous.id then 1 else 0) =
      (bindings.map fun binding => binding.id).count id + if id = binding.id then 1 else 0 :=
  count_map_set (fun binding => binding.id) h binding id

theorem keeps_classify_indexed (id : Nat) : Method.Keeps (Aged start) (classify_indexed id) := by
  refine .onlyIf ?_
  exact keeps_write_object id ⟨fun _ => rfl, fun _ => rfl, fun _ => rfl⟩

/-- The end of a command that binds a buffer by an index. -/
theorem keeps_generic (target id : Nat) : Method.Keeps (Aged start) (do
    classify_indexed id
    Method.modify fun context => { context with core_buffer_bindings := context.core_buffer_bindings.insert target id }) :=
  (keeps_classify_indexed id).bind fun _ => .modify fun _ h => h

theorem check_uniform_previous {c : Command} {index : Nat} {previous binding : Binding}
    (h : check_uniform driver c context = .ok (index, previous, binding)) :
    context.indexed_uniforms[index]? = some previous := by
  rw [check_uniform] at h
  obtain ⟨found, -, h⟩ := bind_eq_ok.mp h
  obtain ⟨old, hold, h⟩ := bind_eq_ok.mp h
  obtain ⟨_, -, h⟩ := bind_eq_ok.mp h
  obtain ⟨_, -, h⟩ := bind_eq_ok.mp h
  obtain ⟨_, -, h⟩ := bind_eq_ok.mp h
  obtain ⟨_, -, h⟩ := bind_eq_ok.mp h
  obtain ⟨_, -, h⟩ := bind_eq_ok.mp h
  obtain ⟨rfl, rfl, -⟩ := Except.ok.inj h
  exact orError_eq_ok.mp hold

theorem keeps_bind_uniform (c : Command) : Method.Keeps (Aged start) (bind_uniform driver c) := by
  intro context h
  refine Method.ends_read_bind h fun (index, previous, binding) hcheck => ?_
  refine Method.ends_ofExcept_bind h fun objects hswitch => Method.ends_modify_bind.mpr ?_
  refine keeps_generic targets.UNIFORM binding.id _ ⟨h.1.switched hswitch fun other => ?_,
    h.2.trans (Objects.ages_switch_buffer hswitch)⟩
  have hcount := count_bindings (check_uniform_previous hcheck) binding other
  dsimp only [current_vertex_state]
  omega

/-- A write to the bound record. -/
theorem ends_write_record {write : Record → Record} {Q : Unit → WebGl → Prop} {R : WebGl → Prop} {record : Record}
    (hrecord : context.bound_record = .ok record)
    (h : Q () { context with transform_feedback := { context.transform_feedback with
      records := context.transform_feedback.records.insert context.transform_feedback.bound (write record) } }) :
    Method.Ends (write_record write) context Q R := by
  rw [WebGl.write_record, Method.ends_get_bind, hrecord]
  exact h

theorem keeps_write_record (write : Record → Record) (hbindings : ∀ record, (write record).bindings = record.bindings)
    (hprogram : ∀ record, (write record).program = record.program) :
    Method.Keeps (Aged start) (WebGl.write_record write) := by
  refine .get_bind fun context h => Method.ends_ofExcept_bind h fun record hrecord => ?_
  exact h.write_record (bound_record_eq_ok hrecord) (hbindings record) (.inl (hprogram record))

theorem check_capture_binding_previous {c : Command} {index : Nat} {previous binding : Binding}
    (h : check_capture_binding c context = .ok (index, previous, binding)) :
    ∃ record, context.bound_record = .ok record ∧ record.bindings[index]? = some previous ∧ record.active = false := by
  rw [check_capture_binding] at h
  obtain ⟨found, -, h⟩ := bind_eq_ok.mp h
  obtain ⟨record, hrecord, h⟩ := bind_eq_ok.mp h
  obtain ⟨old, hold, h⟩ := bind_eq_ok.mp h
  obtain ⟨hactive, h⟩ := failIf_bind_eq_ok.mp h
  obtain ⟨_, -, h⟩ := bind_eq_ok.mp h
  obtain ⟨_, -, h⟩ := bind_eq_ok.mp h
  obtain ⟨_, -, h⟩ := bind_eq_ok.mp h
  obtain ⟨_, -, h⟩ := bind_eq_ok.mp h
  obtain ⟨rfl, rfl, -⟩ := Except.ok.inj h
  exact ⟨record, hrecord, orError_eq_ok.mp hold, Bool.eq_false_iff.mpr hactive⟩

theorem keeps_transform_buffer_command (c : Command) : Method.Keeps (Aged start) (transform_buffer_command c) := by
  intro context h
  refine Method.ends_read_bind h fun (index, previous, binding) hcheck => ?_
  obtain ⟨record, hrecord, hprevious, -⟩ := check_capture_binding_previous hcheck
  refine Method.ends_ofExcept_bind h fun objects hswitch => Method.ends_modify_bind.mpr (Method.ends_bind.mpr ?_)
  refine ends_write_record hrecord (keeps_generic targets.TRANSFORM_FEEDBACK binding.id _ ?_)
  have hages := Objects.ages_switch_buffer hswitch
  have hrecord := bound_record_eq_ok hrecord
  refine ⟨h.1.captured hages (h.1.counted.switched hswitch fun other _ => ?_) (fun key found hget => ?_), h.2.trans hages⟩
  · have hcount := count_bindings hprevious binding other
    have hplaces := places_record context.current_vertex_state context.vertex_arrays context.indexed_uniforms
      context.transform_feedback.records hrecord { record with bindings := record.bindings.set index binding } other
    dsimp only [current_vertex_state] at hplaces ⊢
    omega
  · rw [OrdMap.get_insert] at hget
    by_cases hkey : key = context.transform_feedback.bound
    · rw [if_pos hkey] at hget
      obtain rfl := Option.some.inj hget
      exact .inl ⟨record, hkey ▸ hrecord, rfl⟩
    · rw [if_neg hkey] at hget
      exact .inl ⟨found, hget, rfl⟩

theorem keeps_indexed_uniform_command (c : Command) : Method.Keeps (Aged start) (indexed_uniform_command driver c) := by
  refine .get_bind fun context h => Method.ends_failIf_bind h fun _ => Method.ends_ofExcept_bind h fun target _ =>
    Method.ends_ofExcept_bind h fun _ _ => ?_
  refine Method.ends_ite (fun _ => keeps_transform_buffer_command c context h) fun _ => ?_
  exact Method.ends_ite (fun _ => keeps_bind_uniform c context h) fun _ => h

end WebGl

end BetterWebBrowser.Webgl
