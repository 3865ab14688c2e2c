import BetterWebBrowser.Webgl.DrawSafety

/-!
# The calls of a draw command

A command that calls the driver has passed the checks of all its draws, and one that does not
leaves the view as it is.
-/

namespace BetterWebBrowser.Webgl

open Framework

namespace WebGl

variable {driver : Driver} {context : WebGl}

/-! ## The calls of a command -/

private theorem record_calls (vertices : Nat) (context : WebGl) :
    (record_transform_capture vertices context).2.calls = context.calls := by
  rw [record_transform_capture]
  split
  next => rfl
  next =>
    rw [Method.run_get_bind, Method.run_ofExcept_bind]
    cases context.bound_record with
    | error error => rfl
    | ok record => rfl

private theorem perform_calls (issued : NativeDraw × Nat) (context : WebGl) :
    (perform driver (some issued) context).2.calls = context.calls ++ [issued.1] := by
  obtain ⟨call, captured⟩ := issued
  rw [perform, Method.run_modify_bind, Method.run_ofExcept_bind]
  cases driver.draw_result call with
  | error error => rfl
  | ok _ => exact record_calls captured _

private theorem calls_of_settled {after : WebGl} (h : settled driver after = settled driver context) :
    after.calls = context.calls := by
  have hcalls : (settled driver after).calls = (settled driver context).calls := congrArg WebGl.calls h
  exact hcalls

/-- The checks let one call through, or the command ends where they do. -/
theorem Issues.calls {checks : Gl (Option (NativeDraw × Nat))} {Issued : WebGl → NativeDraw × Nat → Prop}
    (h : Issues driver checks Issued) (hcontext : Coherent driver context) :
    (∃ issued, Issued (settled driver context) issued ∧
        ((checks >>= perform driver) context).2.calls = context.calls ++ [issued.1]) ∨
      (∀ issued, ¬Issued (settled driver context) issued) ∧
        ((checks >>= perform driver) context).2.calls = context.calls ∧
        settled driver ((checks >>= perform driver) context).2 = settled driver context := by
  obtain ⟨Answer, hasks, hissued⟩ := h
  rw [Method.run_bind]
  obtain ⟨admission, after, hrun, hanswer, hview, -⟩ | ⟨error, after, hrun, hnone, hview, -⟩ := hasks.run hcontext
  · rw [hrun]
    cases admission with
    | none =>
      right
      refine ⟨fun issued hmore => ?_, calls_of_settled hview, hview⟩
      have hother : Answer (settled driver context) (some issued) := (hissued _ _).mpr hmore
      rw [← (hasks context hcontext).answer, hrun] at hother
      cases hother
    | some issued =>
      left
      exact ⟨issued, (hissued _ _).mp hanswer, (perform_calls issued after).trans
        (by rw [calls_of_settled hview])⟩
  · rw [hrun]
    exact .inr ⟨fun issued hmore => hnone _ ((hissued _ _).mpr hmore), calls_of_settled hview, hview⟩

/-! ## Every command -/

/-- The draws of a call pass their checks. -/
def Sound (driver : Driver) (view : WebGl) (call : NativeDraw) : Prop :=
  ∃ size instanced, (∀ kind, call.kind = some kind → indexBytes kind = size ∧ 0 < size) ∧
    ∀ draw ∈ call.draws, DrawPasses driver view call.kind.isSome size instanced draw

private theorem sound_single {view : WebGl} (mode : Nat) {kind : Option Nat} {draw : Draw} (size : Nat)
    (instanced : Bool) (hsize : ∀ own, kind = some own → view.index_size own = .ok size)
    (h : DrawPasses driver view kind.isSome size instanced draw) : Sound driver view ⟨mode, kind, [draw]⟩ := by
  refine ⟨size, instanced, fun own hown => ?_, fun other hmem => ?_⟩
  · exact ⟨indexBytes_of_index_size (hsize own hown), index_size_pos (hsize own hown)⟩
  · rwa [List.mem_singleton.mp hmem]

private theorem sound_arrays {view : WebGl} (mode : Nat) {first count instances : Nat} (instanced : Bool)
    (hlast : first + (count - 1) ≤ I32_MAX)
    (h : count ≠ 0 → instances ≠ 0 → AttributesAdmitted driver view (first + (count - 1)) instances instanced) :
    Sound driver view ⟨mode, none, [⟨first, count, instances⟩]⟩ := by
  have hlimit : I32_MAX < 2 ^ 32 := by decide
  refine sound_single mode 0 instanced (fun own hown => nomatch hown) ?_
  by_cases hempty : count = 0 ∨ instances = 0
  · exact ⟨fun hindexed => absurd hindexed.1 Bool.false_ne_true, fun hwork => absurd hempty hwork⟩
  · obtain ⟨hcount, hinstances⟩ := not_or.mp hempty
    have hstart : first + (count - 1) < 2 ^ 32 := by omega
    exact (drawPasses_arrays hcount hinstances hstart).mpr (h hcount hinstances)

private theorem sound_elements {view : WebGl} (mode : Nat) {kind offset count instances size : Nat} {instanced : Bool}
    (hsize : view.index_size kind = .ok size) (hcount : count ≠ 0) (hinstances : instances ≠ 0)
    (h : IndicesAdmitted driver view size ⟨offset, count, instances⟩ instanced) :
    Sound driver view ⟨mode, some kind, [⟨offset, count, instances⟩]⟩ := by
  refine sound_single mode size instanced ?_ ((drawPasses_elements hcount hinstances).mpr h)
  rintro own ⟨⟩
  exact hsize

private theorem sound_batch {c : Command} {view : WebGl} {batch : Batch} {size captured : Nat}
    (h : BatchAdmitted driver c view batch size captured) :
    Sound driver view ⟨batch.mode, if batch.indexed then some batch.kind else none, batch.draws⟩ := by
  have hsize := h.size_eq
  have hpasses := h.passes
  refine ⟨size, batch.instanced, ?_, ?_⟩
  · intro kind hkind
    cases hindexed : batch.indexed with
    | true =>
      rw [hindexed, if_pos rfl] at hsize hkind
      cases hkind
      exact ⟨indexBytes_of_index_size hsize, index_size_pos hsize⟩
    | false =>
      rw [hindexed, if_neg Bool.false_ne_true] at hkind
      cases hkind
  · intro draw hmem
    have hsome : (if batch.indexed = true then some batch.kind else none).isSome = batch.indexed := by
      cases batch.indexed with
      | true => rfl
      | false => rfl
    rw [hsome]
    exact hpasses draw hmem

private theorem sound_instanced {c : Command} {view : WebGl} {issued : NativeDraw × Nat}
    (h : ∃ mode count instances captured, InstancedAdmitted driver c view mode count instances captured ∧
      ((Command.elementsInstanced c = true ∧ ∃ kind offset size,
          ElementsInstancedAdmitted driver c view count instances kind offset size ∧
            issued = (⟨mode, some kind, [⟨offset, count, instances⟩]⟩, captured)) ∨
        Command.elementsInstanced c = false ∧ ∃ first,
          ArraysInstancedAdmitted driver c view count instances first ∧
            issued = (⟨mode, none, [⟨first, count, instances⟩]⟩, captured))) :
    Sound driver view issued.1 := by
  obtain ⟨mode, count, instances, captured, hadmitted, ⟨-, kind, offset, size, hranges, rfl⟩ |
    ⟨-, first, hranges, rfl⟩⟩ := h
  · exact sound_elements mode hranges.size_eq hadmitted.count_ne hadmitted.instances_ne hranges.indices
  · have hlast := hranges.last_le
    have hcount := hadmitted.count_ne
    refine sound_arrays mode true (by omega) fun _ _ => ?_
    have hsame : first + count - 1 = first + (count - 1) := by omega
    rw [← hsame]
    exact hranges.attributes

/-- Every draw command ends with checks that let only sound calls through, or at once. -/
theorem draw_command_cases (driver : Driver) (c : Command) (context : WebGl) :
    (∃ checks Issued, Issues driver checks Issued ∧
        (∀ view issued, Issued view issued → Sound driver view issued.1) ∧
        draw_command driver c context = (checks >>= perform driver) context) ∨
      ∃ error, draw_command driver c context = (.error error, context) := by
  have helements (c : Command) : ∃ checks Issued, Issues driver checks Issued ∧
      (∀ view issued, Issued view issued → Sound driver view issued.1) ∧
      drawElements driver c context = (checks >>= perform driver) context := by
    refine ⟨_, _, issues_checkElements c, ?_, rfl⟩
    rintro view issued ⟨mode, count, kind, offset, size, h, rfl⟩
    exact sound_elements mode h.size_eq h.count_ne Nat.one_ne_zero h.indices
  have hinstanced : ∃ checks Issued, Issues driver checks Issued ∧
      (∀ view issued, Issued view issued → Sound driver view issued.1) ∧
      instanced_command driver c context = (checks >>= perform driver) context :=
    ⟨_, _, issues_checkInstanced c, fun _ _ => sound_instanced, rfl⟩
  have hbatch : ∃ checks Issued, Issues driver checks Issued ∧
      (∀ view issued, Issued view issued → Sound driver view issued.1) ∧
      multi_draw_command driver c context = (checks >>= perform driver) context := by
    refine ⟨_, _, issues_checkBatch c, ?_, rfl⟩
    rintro view issued ⟨batch, size, captured, h, rfl⟩
    exact sound_batch h
  have hcore : (∃ checks Issued, Issues driver checks Issued ∧
        (∀ view issued, Issued view issued → Sound driver view issued.1) ∧
        core_only (instanced_command driver c) context = (checks >>= perform driver) context) ∨
      ∃ error, core_only (instanced_command driver c) context = (.error error, context) := by
    rw [core_only, Method.run_get_bind]
    split
    next => exact .inr ⟨_, rfl⟩
    next => exact .inl hinstanced
  rw [draw_command]
  cases c.op with
  | drawArrays =>
    left
    refine ⟨_, _, issues_checkArrays c, ?_, rfl⟩
    rintro view issued ⟨mode, first, count, captured, h, rfl⟩
    exact sound_arrays mode false h.last_le fun hcount _ => h.attributes hcount
  | drawElements => exact .inl (helements c)
  | drawRangeElements =>
    show _ ∨ ∃ error, (Method.read (rangeCommand c) >>= drawElements driver) context = _
    rw [Method.run_bind, Method.read]
    cases hdraw : rangeCommand c context with
    | error error => exact .inr ⟨error, rfl⟩
    | ok draw =>
      left
      obtain ⟨checks, Issued, hissues, hsound, hrun⟩ := helements draw
      refine ⟨checks, Issued, hissues, hsound, ?_⟩
      show (Method.read (rangeCommand c) >>= drawElements driver) context = _
      rw [Method.run_bind, Method.read, hdraw]
      exact hrun
  | drawArraysInstanced => exact hcore
  | drawElementsInstanced => exact hcore
  | drawArraysInstancedANGLE => exact .inl hinstanced
  | drawElementsInstancedANGLE => exact .inl hinstanced
  | multiDrawArraysWEBGL => exact .inl hbatch
  | multiDrawElementsWEBGL => exact .inl hbatch
  | multiDrawArraysInstancedWEBGL => exact .inl hbatch
  | multiDrawElementsInstancedWEBGL => exact .inl hbatch
  | _ => exact .inr ⟨_, rfl⟩

end WebGl

end BetterWebBrowser.Webgl
