import BetterWebBrowser.Webgl.SlotReferences

/-!
# References of captures

The records of transform feedback objects refer to buffers, and a record that captures also refers
to its program. The deletion of a buffer first clears all its current places.
-/

namespace BetterWebBrowser.Webgl

open Framework
open Objects (Ages Counted Fresh Plain)

/-! ## Programs -/

namespace Objects

variable {objects after : Objects} {held : Nat → Nat} {id : Nat}

/-- A name that is none of a buffer does not count. -/
theorem Counted.update_other (h : Counted objects held) {write : Object → Object}
    (hkind : ∀ object, (write object).kind = object.kind)
    (hother : ∀ object, objects.entries.get id = some object → object.kind ≠ .Buffer) :
    Counted (objects.update id write) held := by
  have hsame (other : Nat) (object : Object) :
      (objects.update id write).get other .Buffer = .ok object ↔ objects.get other .Buffer = .ok object := by
    rw [get_eq_ok, get_eq_ok, get_update]
    by_cases hid : other = id
    · rw [if_pos hid, hid]
      constructor
      · rintro ⟨hentry, hbuffer⟩
        obtain ⟨earlier, hearlier, rfl⟩ := Option.map_eq_some_iff.mp hentry
        exact absurd ((hkind earlier).symm.trans hbuffer) (hother earlier hearlier)
      · rintro ⟨hentry, hbuffer⟩
        exact absurd hbuffer (hother object hentry)
    · rw [if_neg hid]
  constructor
  · rw [get_update]
    split
    next hid => rw [← hid, h.zero, Option.map_none]
    next => exact h.zero
  · intro other object hget
    exact h.references other object ((hsame other object).mp hget)
  · intro other hne hheld
    obtain ⟨object, hget⟩ := h.live other hne hheld
    exact ⟨object, (hsame other object).mpr hget⟩
  · exact (update_next ..).2.trans h.exact

end Objects

namespace WebGl

variable {driver : Driver} {start : Objects} {context : WebGl}

/-- The program of the context is in use by one more capture. -/
theorem ends_retain_program (h : Aged start context) :
    Method.Ends retain_program context (fun _ after => Aged start after ∧ Other after.objects after.program)
      (Aged start) := by
  rw [retain_program, Method.ends_get_bind]
  refine Method.ends_ofExcept_bind h fun objects hretain => ?_
  obtain ⟨program, hget, hretain⟩ := bind_eq_ok.mp hretain
  obtain ⟨-, hretain⟩ := failIf_bind_eq_ok.mp hretain
  obtain rfl := Except.ok.inj hretain
  obtain ⟨hentry, hprogram⟩ := Objects.get_eq_ok.mp hget
  have hother : Other context.objects context.program := by
    refine ⟨h.1.fresh.below _ program hentry, fun found hfound => ?_⟩
    obtain rfl := Option.some.inj (hentry.symm.trans hfound)
    rw [hprogram]
    decide
  have hages : Ages context.objects (context.objects.update context.program fun object =>
    { object with references := object.references + 1 }) := Objects.ages_update _ _ (fun _ => rfl) fun _ => rfl
  refine ⟨⟨h.1.same hages (h.1.counted.update_other ?_ hother.2), h.2.trans hages⟩, hother.ages hages⟩
  exact fun _ => rfl

/-! ## One capture -/

theorem keeps_invalidate_mirror (id : Nat) : Method.Keeps (Aged start) (invalidate_mirror id) := by
  refine (keeps_forget_ranges id).bind fun _ => .get_bind fun context h => Method.ends_ofExcept_bind h fun objects hwrite => ?_
  obtain ⟨_, -, hwrite⟩ := bind_eq_ok.mp hwrite
  obtain rfl := Except.ok.inj hwrite
  refine h.update id ⟨?_, ?_, ?_⟩
  all_goals exact fun _ => rfl

theorem keeps_invalidate_captured (bindings : List Binding) : Method.Keeps (Aged start) (invalidate_captured bindings) := by
  induction bindings with
  | nil => exact .pure ()
  | cons binding bindings ih => exact (Method.Keeps.onlyIf (keeps_invalidate_mirror binding.id)).bind fun _ => ih

theorem keeps_begin_transform_feedback (c : Command) : Method.Keeps (Aged start) (begin_transform_feedback driver c) := by
  refine (Method.Keeps.read _).bind fun (record, ledger) => (keeps_invalidate_captured record.bindings).bind fun _ => ?_
  intro context h
  refine Method.ends_bind.mpr ((ends_retain_program h).mono (fun _ after hafter => ?_) fun _ hafter => hafter)
  rw [Method.ends_get_bind, WebGl.write_record]
  refine Method.ends_get_bind.mpr (Method.ends_ofExcept_bind hafter.1 fun bound hbound => ?_)
  exact hafter.1.write_record (bound_record_eq_ok hbound) rfl (.inr hafter.2)

theorem keeps_end_transform_feedback : Method.Keeps (Aged start) end_transform_feedback := by
  refine .get_bind fun context h => Method.ends_ofExcept_bind h fun record hrecord => Method.ends_failIf_bind h fun _ => ?_
  obtain ⟨-, hother⟩ := h.1.captures _ record (bound_record_eq_ok hrecord)
  have hages := Objects.ages_release context.objects record.program
  have hreleased : Aged start { context with objects := context.objects.release record.program } :=
    ⟨h.1.same hages (h.1.counted.release_other hother.2), h.2.trans hages⟩
  have hzero : Other (context.objects.release record.program) 0 := by
    refine ⟨hreleased.1.fresh.pos, fun object hget => ?_⟩
    exact absurd (hget.symm.trans hreleased.1.counted.zero) (Option.some_ne_none object)
  refine Method.ends_modify_bind.mpr (ends_write_record hrecord ?_)
  exact hreleased.write_record (bound_record_eq_ok hrecord) rfl (.inr hzero)

theorem keeps_pause_transform_feedback : Method.Keeps (Aged start) pause_transform_feedback := by
  refine .get_bind fun context h => Method.ends_ofExcept_bind h fun record _ => Method.ends_failIf_bind h fun _ => ?_
  exact keeps_write_record (fun record => { record with paused := true }) (fun _ => rfl) (fun _ => rfl) context h

theorem keeps_resume_transform_feedback : Method.Keeps (Aged start) resume_transform_feedback := by
  refine .get_bind fun context h => Method.ends_ofExcept_bind h fun record _ => Method.ends_failIf_bind h fun _ =>
    Method.ends_failIf_bind h fun _ => ?_
  exact (keeps_invalidate_captured record.bindings).bind
    (fun _ => keeps_write_record (fun record => { record with paused := false }) (fun _ => rfl) fun _ => rfl) context h

/-! ## Transform feedback objects -/

theorem keeps_create_transform_feedback : Method.Keeps (Aged start) (create_transform_feedback driver) := by
  refine .get_bind fun context h => Method.ends_ofExcept_bind h fun _ _ => Method.ends_ofExcept_bind h fun created hcreated => ?_
  have hinsert : context.objects.insert .TransformFeedback (driver.generate context.objects) = .ok (created.1, created.2) :=
    hcreated
  have hages := Objects.ages_insert h.1.fresh (by decide) hinsert
  obtain ⟨hid, hnext, -⟩ := Objects.insert_eq_ok hinsert
  have hnew : context.transform_feedback.records.get created.1 = none := by
    rw [Option.eq_none_iff_forall_ne_some]
    intro record hrecord
    have hlt := (h.1.captures _ record hrecord).1
    omega
  have hcounted := h.1.counted.insert h.1.fresh hinsert
  refine ⟨h.1.captured hages (hcounted.congr fun other hother => ?_) (fun key record hget => ?_), h.2.trans hages⟩
  · exact places_new_record context.current_vertex_state context.vertex_arrays context.indexed_uniforms
      context.transform_feedback.records hnew context.transform_feedback.count hother
  · rw [OrdMap.get_insert] at hget
    by_cases hkey : key = created.1
    · rw [if_pos hkey] at hget
      obtain rfl := Option.some.inj hget
      refine .inr ⟨?_, ?_, fun object hobject => ?_⟩
      · show key < created.2.next_object
        omega
      · exact (hages.fresh h.1.fresh).pos
      · exact absurd (hobject.symm.trans hcounted.zero) (Option.some_ne_none object)
    · rw [if_neg hkey] at hget
      exact .inl ⟨record, hget, rfl⟩

theorem keeps_bind_transform_feedback (c : Command) : Method.Keeps (Aged start) (bind_transform_feedback c) := by
  intro context h
  refine Method.ends_read_bind h fun (id, record) hcheck => ?_
  rw [check_transform_binding] at hcheck
  obtain ⟨_, -, hcheck⟩ := bind_eq_ok.mp hcheck
  obtain ⟨-, hcheck⟩ := failIf_bind_eq_ok.mp hcheck
  obtain ⟨_, -, hcheck⟩ := bind_eq_ok.mp hcheck
  obtain ⟨_, -, hcheck⟩ := bind_eq_ok.mp hcheck
  obtain ⟨_, -, hcheck⟩ := bind_eq_ok.mp hcheck
  obtain ⟨-, hcheck⟩ := failIf_bind_eq_ok.mp hcheck
  obtain ⟨_, -, hcheck⟩ := bind_eq_ok.mp hcheck
  obtain ⟨found, hfound, hcheck⟩ := bind_eq_ok.mp hcheck
  obtain ⟨rfl, rfl⟩ := Except.ok.inj hcheck
  have hwritten : Aged start { context with transform_feedback := { context.transform_feedback with
      records := context.transform_feedback.records.insert id { record with seen := true } } } :=
    h.write_record (orPanic_eq_ok.mp hfound) rfl (.inl rfl)
  exact hwritten

theorem ends_drop_record (h : Aged start context) (id : Nat) :
    Method.Ends (drop_record id) context (fun _ => Aged start) (Aged start) := by
  rw [drop_record, Method.ends_get_bind]
  refine Method.ends_ofExcept_bind h fun record hrecord => ?_
  have hages := Objects.ages_release_all (record.bindings.map fun binding => binding.id) context.objects
  refine ⟨h.1.captured hages (h.1.counted.released fun other _ => ?_) (fun key found hget => ?_), h.2.trans hages⟩
  · exact places_drop_record context.current_vertex_state context.vertex_arrays context.indexed_uniforms
      context.transform_feedback.records (orPanic_eq_ok.mp hrecord) other
  · rw [OrdMap.get_erase] at hget
    split at hget
    next => cases hget
    next => exact .inl ⟨found, hget, rfl⟩

theorem keeps_delete_transform_feedback (c : Command) : Method.Keeps (Aged start) (delete_transform_feedback c) := by
  refine (Method.Keeps.ofExcept _).bind fun id => .ite (.pure ()) ?_
  refine (Method.Keeps.read _).bind fun _ => Method.Keeps.bind (.modify ?_) fun _ => ?_
  · exact fun _ h => h
  · exact (keeps_delete_object id rfl).bind fun _ context h => ends_drop_record h id

end WebGl

end BetterWebBrowser.Webgl
