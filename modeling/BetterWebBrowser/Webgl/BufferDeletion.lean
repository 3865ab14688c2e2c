import BetterWebBrowser.Webgl.CaptureReferences

/-!
# Deletion of buffers

A deletion clears the current places of the buffer, one kind after the other, and then its name. The
buffer goes at once if no place is left, and otherwise with the last one.
-/

namespace BetterWebBrowser.Webgl

open Framework
open Objects (Ages Counted Fresh Plain)

/-! ## The table -/

namespace Objects

variable {objects after : Objects} {held : Nat → Nat} {id : Nat}

/-- The deletion of a buffer that was not deleted before. -/
theorem delete_buffer_eq_ok (hid : id ≠ 0) (h : objects.delete id .Buffer = .ok after) :
    ∃ object, objects.get id .Buffer = .ok object ∧ after.next_object = objects.next_object ∧
      after.saturated = objects.saturated ∧ ∀ other, after.entries.get other =
        if other = id then
          if object.pending_delete = true ∨ object.references ≠ 0 then some { object with pending_delete := true } else none
        else objects.entries.get other := by
  rw [delete, if_neg hid] at h
  obtain ⟨object, hget, h⟩ := bind_eq_ok.mp h
  obtain ⟨hentry, hkind⟩ := get_eq_ok.mp hget
  refine ⟨object, hget, ?_⟩
  rw [if_pos (show Kind.counted .Buffer = true from rfl)] at h
  by_cases hpending : object.pending_delete = true
  · rw [if_pos hpending] at h
    obtain rfl := Except.ok.inj h
    refine ⟨rfl, rfl, fun other => ?_⟩
    rw [if_pos (Or.inl hpending), ← hpending]
    split
    next hother => rw [hother, hentry]
    next => rfl
  · rw [if_neg hpending] at h
    obtain rfl := Except.ok.inj h
    refine ⟨(retire_next ..).1.trans (update_next ..).1, (retire_next ..).2.trans (update_next ..).2, fun other => ?_⟩
    rw [get_retire, get_update, get_update, if_pos rfl, hentry, Option.map_some, Option.filter_some]
    by_cases hother : other = id
    · rw [if_pos hother, if_pos hother]
      by_cases hzero : object.references = 0
      · rw [if_neg (not_or.mpr ⟨hpending, not_not.mpr hzero⟩), decide_eq_true ⟨rfl, hzero⟩]
        rfl
      · rw [if_pos (Or.inr hzero), decide_eq_false (fun h => hzero h.2)]
        rfl
    · rw [if_neg hother, if_neg hother, if_neg hother]

theorem Counted.delete_buffer (h : Counted objects held) (hid : id ≠ 0) (hdelete : objects.delete id .Buffer = .ok after) :
    Counted after held := by
  obtain ⟨object, hget, -, hsaturated, hentries⟩ := delete_buffer_eq_ok hid hdelete
  obtain ⟨hentry, hkind⟩ := get_eq_ok.mp hget
  have hcounts := h.references id object hget
  constructor
  · rw [hentries, if_neg hid.symm, h.zero]
  · intro other found hfound
    obtain ⟨hfoundEntry, hfoundKind⟩ := get_eq_ok.mp hfound
    rw [hentries] at hfoundEntry
    by_cases hother : other = id
    · rw [if_pos hother] at hfoundEntry
      by_cases hkept : object.pending_delete = true ∨ object.references ≠ 0
      · rw [if_pos hkept] at hfoundEntry
        obtain rfl := Option.some.inj hfoundEntry
        exact ⟨hother ▸ hcounts.1, fun _ => hkept.elim hcounts.2 fun hne => hne⟩
      · rw [if_neg hkept] at hfoundEntry
        cases hfoundEntry
    · rw [if_neg hother] at hfoundEntry
      exact h.references other found (get_eq_ok.mpr ⟨hfoundEntry, hfoundKind⟩)
  · intro other hne hheld
    obtain ⟨found, hfound⟩ := h.live other hne hheld
    obtain ⟨hfoundEntry, hfoundKind⟩ := get_eq_ok.mp hfound
    by_cases hother : other = id
    · subst hother
      refine ⟨{ object with pending_delete := true }, get_eq_ok.mpr ⟨?_, hkind⟩⟩
      rw [hentries, if_pos rfl, if_pos (Or.inr (hcounts.1 ▸ hheld))]
    · exact ⟨found, get_eq_ok.mpr ⟨by rw [hentries, if_neg hother, hfoundEntry], hfoundKind⟩⟩
  · exact hsaturated.trans h.exact

theorem Fresh.delete_buffer (h : Fresh objects) (hid : id ≠ 0) (hdelete : objects.delete id .Buffer = .ok after) :
    Fresh after := by
  obtain ⟨object, hget, hnext, -, hentries⟩ := delete_buffer_eq_ok hid hdelete
  refine ⟨hnext ▸ h.pos, fun other found hfound => ?_⟩
  rw [hnext]
  rw [hentries] at hfound
  by_cases hother : other = id
  · rw [hother]
    exact h.below id object (get_eq_ok.mp hget).1
  · rw [if_neg hother] at hfound
    exact h.below other found hfound

end Objects

namespace WebGl

variable {driver : Driver} {start : Objects} {context : WebGl}

/-! ## Clearing the places -/

theorem count_detached (id : Nat) (bindings : List Binding) {other : Nat} (hother : other ≠ 0) :
    ((detached id bindings).map fun binding => binding.id).count other +
        ((bindings.filter fun binding => decide (binding.id = id)).map fun binding => binding.id).count other =
      (bindings.map fun binding => binding.id).count other := by
  refine count_map_clear (fun binding => binding.id) bindings id _ (fun binding => ?_) hother
  split
  next => rfl
  next => rfl

theorem keeps_detach_capture (id : Nat) : Method.Keeps (Aged start) (detach_capture id) := by
  refine .get_bind fun context h => Method.ends_ofExcept_bind h fun record hrecord =>
    Method.ends_ofExcept_bind h fun _ _ => Method.ends_failIf_bind h fun _ => Method.ends_modify_bind.mpr ?_
  refine Method.Keeps.read _ _ ?_
  have hages := Objects.ages_release_all
    ((record.bindings.filter fun binding => decide (binding.id = id)).map fun binding => binding.id) context.objects
  have hrecord := bound_record_eq_ok hrecord
  refine ⟨h.1.captured hages (h.1.counted.released fun other hother => ?_) (fun key found hget => ?_), h.2.trans hages⟩
  · have hplaces := places_record context.current_vertex_state context.vertex_arrays context.indexed_uniforms
      context.transform_feedback.records hrecord { record with bindings := detached id record.bindings } other
    have hcleared := count_detached id record.bindings hother
    dsimp only [current_vertex_state] at hplaces ⊢
    omega
  · rw [OrdMap.get_insert] at hget
    by_cases hkey : key = context.transform_feedback.bound
    · rw [if_pos hkey] at hget
      obtain rfl := Option.some.inj hget
      exact .inl ⟨record, hkey ▸ hrecord, rfl⟩
    · rw [if_neg hkey] at hget
      exact .inl ⟨found, hget, rfl⟩

theorem keeps_detach_transform_buffer (id : Nat) : Method.Keeps (Aged start) (detach_transform_buffer id) :=
  .get_bind fun context h => Method.ends_ite (fun _ => h) fun _ => keeps_detach_capture id context h

theorem keeps_detach_core_buffer (id : Nat) : Method.Keeps (Aged start) (detach_core_buffer id) := fun _ h => h

theorem keeps_detach_uniforms (id : Nat) : Method.Keeps (Aged start) (detach_uniforms id) := by
  refine .get_bind fun context h => Method.ends_ofExcept_bind h fun _ _ => Method.ends_modify_bind.mpr ?_
  refine Method.Keeps.read _ _ ?_
  have hages := Objects.ages_release_all
    ((context.indexed_uniforms.filter fun binding => decide (binding.id = id)).map fun binding => binding.id)
    context.objects
  refine ⟨h.1.same hages (h.1.counted.released fun other hother => ?_), h.2.trans hages⟩
  have hcleared := count_detached id context.indexed_uniforms hother
  rw [places, places]
  dsimp only [current_vertex_state]
  omega

theorem keeps_detach_indexed_uniform (id : Nat) : Method.Keeps (Aged start) (detach_indexed_uniform id) :=
  .get_bind fun context h => Method.ends_ite (fun _ => h) fun _ => keeps_detach_uniforms id context h

theorem keeps_detach_slots (id : Nat) : Method.Keeps (Aged start) (detach_slots id) := by
  intro context h
  have hages := Objects.ages_release_all
    ((context.attributes.filter fun slot => decide (slot.buffer = id)).map fun slot => slot.buffer) context.objects
  refine ⟨h.1.same hages (h.1.counted.released fun other hother => ?_), h.2.trans hages⟩
  have hcleared := count_map_clear (fun slot : Attribute => slot.buffer) context.attributes id
    (fun slot => if slot.buffer = id then { slot with buffer := 0 } else slot) (fun slot => ?_) hother
  · simp only [places, current_vertex_state, VertexState.slots, List.count_cons]
    omega
  · split
    next => rfl
    next => rfl

theorem keeps_replace_array : Method.Keeps (Aged start) (replace_array driver) := by
  refine .get_bind fun context h => Method.ends_ofExcept_bind h fun _ _ => Method.ends_bind.mpr ?_
  refine (ends_rebuild h).mono (fun native after hafter => ?_) fun _ hafter => hafter
  refine Method.ends_ite (fun _ => hafter.2.default_native hafter.1) fun _ => ?_
  refine Method.ends_ofExcept_bind hafter.2 fun _ _ => hafter.2.update context.vertex_arrays.bound ⟨?_, ?_, ?_⟩
  all_goals exact fun _ => rfl

/-- Only the last step of a deletion is not one that every command may make. -/
theorem ends_detach_everywhere (h : Aged start context) (id : Nat) :
    Method.Ends (detach_everywhere driver id) context (fun _ after => ∃ before objects, Aged start before ∧
      before.objects.delete id .Buffer = .ok objects ∧ after = { before with objects := objects }) (Aged start) := by
  rw [detach_everywhere, Method.ends_get_bind]
  refine Method.Keeps.ends_bind (.onlyIf ?_) h fun _ _ h => ?_
  · exact keeps_write_object id ⟨fun _ => rfl, fun _ => rfl, fun _ => rfl⟩
  refine (keeps_detach_transform_buffer id).ends_bind h fun _ _ h => ?_
  refine (keeps_detach_core_buffer id).ends_bind h fun _ _ h => ?_
  refine (keeps_detach_indexed_uniform id).ends_bind h fun _ _ h => ?_
  refine Method.ends_modify_bind.mpr ?_
  refine Method.Keeps.ends_bind (.onlyIf (keeps_switch_element 0)) h fun _ _ h => ?_
  refine (keeps_detach_slots id).ends_bind h fun _ _ h => ?_
  refine Method.Keeps.ends_bind (.onlyIf keeps_replace_array) h fun _ before h => ?_
  exact Method.ends_ofExcept_bind h fun objects hdelete => ⟨before, objects, h, hdelete, rfl⟩

end WebGl

end BetterWebBrowser.Webgl
