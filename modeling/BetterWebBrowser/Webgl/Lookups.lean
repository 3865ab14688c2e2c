import BetterWebBrowser.Framework.MethodRuns
import BetterWebBrowser.Webgl.Draws

/-!
# What the checks of a draw write

The checks of a draw only refresh copies of buffers and caches on their way. A property that does
not depend on these outlasts them, whatever they find.
-/

namespace BetterWebBrowser.Webgl

open Framework

namespace WebGl

/-- The property does not depend on caches and on copies of buffers. -/
structure Indifferent (I : WebGl → Prop) : Prop where
  caches : ∀ context ranges inputs, I context →
    I { context with index_cache := ranges, attribute_reflection := inputs }
  readback : ∀ context id object, I context → context.objects.get id .Buffer = .ok object →
    I { context with objects := context.objects.update id fun found =>
      { found with bytes := object.contents.take object.bytes.length, buffer_mirror_valid := true } }

variable {I : WebGl → Prop} {driver : Driver}

theorem Indifferent.ranges (h : Indifferent I) (context : WebGl) (ranges : List IndexCache.Entry) (hcontext : I context) :
    I { context with index_cache := ranges } := h.caches context ranges context.attribute_reflection hcontext

theorem Indifferent.forget_ranges (h : Indifferent I) (id : Nat) : Method.Keeps I (forget_ranges id) :=
  fun context hcontext => h.ranges context _ hcontext

private theorem keep_readback_run (h : Indifferent I) {context : WebGl} (hcontext : I context) {id offset size : Nat}
    {object : Object} (hget : context.objects.get id .Buffer = .ok object) :
    Method.Ends (keep_readback id offset size ((object.contents.drop offset).take size) object) context
      (fun _ => I) I := by
  refine Method.ends_ite ?_ fun _ => hcontext
  rintro ⟨rfl, rfl⟩
  exact h.readback _ id object (h.ranges context _ hcontext) hget

theorem Indifferent.read_buffer (h : Indifferent I) (c : Command) : Method.Keeps I (read_buffer driver c) := by
  refine .get_bind fun context hcontext => ?_
  refine Method.ends_failIf_bind hcontext fun _ => Method.ends_ofExcept_bind hcontext fun target _ =>
    Method.ends_ofExcept_bind hcontext fun id _ => Method.ends_failIf_bind hcontext fun _ =>
    Method.ends_ofExcept_bind hcontext fun _ _ => Method.ends_ofExcept_bind hcontext fun offset _ =>
    Method.ends_ofExcept_bind hcontext fun size _ => Method.ends_ofExcept_bind hcontext fun object hget =>
    Method.ends_ofExcept_bind hcontext fun _ _ => Method.ends_failIf_bind hcontext fun _ =>
    Method.ends_ite (fun _ => hcontext) fun _ => Method.ends_ite (fun _ => hcontext) fun _ => ?_
  exact Method.ends_ofExcept_bind hcontext fun _ _ => Method.ends_ofExcept_bind hcontext fun _ _ =>
    keep_readback_run h hcontext hget

theorem Indifferent.refresh (h : Indifferent I) (owner : Nat) (buffer : Object) : Method.Keeps I (refresh driver owner buffer) :=
  .ite (.pure ()) ((h.forget_ranges owner).bind fun _ => (h.read_buffer _).bind fun _ => .pure ())

theorem Indifferent.cached_maximum (h : Indifferent I) (key : IndexCache.Key) : Method.Keeps I (cached_maximum key) := by
  refine .get_bind fun context hcontext => ?_
  split
  next => exact h.ranges context _ hcontext
  next =>
    exact Method.ends_ofExcept_bind hcontext fun _ _ => Method.ends_ofExcept_bind hcontext fun _ _ =>
      h.ranges context _ hcontext

theorem Indifferent.maximum_index (h : Indifferent I) (count size offset : Nat) :
    Method.Keeps I (maximum_index driver count size offset) := by
  refine .get_bind fun context hcontext => ?_
  refine Method.ends_ofExcept_bind hcontext fun buffer _ => Method.ends_ofExcept_bind hcontext fun _ _ =>
    Method.ends_ofExcept_bind hcontext fun _ _ => Method.ends_failIf_bind hcontext fun _ => ?_
  refine ((h.refresh _ buffer).bind fun _ => (h.cached_maximum _).bind fun maximum => ?_) context hcontext
  exact .get_bind fun after hafter => Method.ends_failIf_bind hafter fun _ => hafter

/-! ## The checks of a command -/

/-- The property outlasts the questions that the checks of a draw ask. -/
structure Checked (driver : Driver) (I : WebGl → Prop) : Prop where
  inputs : ∀ context inputs, I context → I { context with attribute_reflection := inputs }
  maximum : ∀ count size offset, 0 < count → 0 < size → Method.Keeps I (maximum_index driver count size offset)

theorem Indifferent.checked (h : Indifferent I) : Checked driver I :=
  ⟨fun context inputs => h.caches context context.index_cache inputs, fun count size offset _ _ =>
    h.maximum_index count size offset⟩

namespace Checked

theorem active_attribute_mask (h : Checked driver I) : Method.Keeps I (active_attribute_mask driver) := by
  refine .get_bind fun context hcontext => ?_
  refine Method.ends_ofExcept_bind hcontext fun object _ => ?_
  split
  next => exact h.inputs context _ hcontext
  next => exact Method.ends_ofExcept_bind hcontext fun _ _ => h.inputs context _ hcontext

theorem validate_instance_attributes (h : Checked driver I) (maximum instances : Nat) (instanced : Bool) :
    Method.Keeps I (validate_instance_attributes driver maximum instances instanced) :=
  h.active_attribute_mask.bind fun _ => .read _

theorem validate_indexed (h : Checked driver I) (maximum : Option Nat) (instances : Nat) (instanced : Bool) :
    Method.Keeps I (validate_indexed driver maximum instances instanced) := by
  cases maximum with
  | none => exact .pure ()
  | some maximum => exact h.validate_instance_attributes maximum instances instanced

theorem draw_maximum (h : Checked driver I) {indexed : Bool} {size : Nat} (hsize : indexed = true → 0 < size) {draw : Draw}
    (hcount : draw.count ≠ 0) : Method.Keeps I (draw_maximum driver indexed size draw) := by
  intro context hcontext
  refine Method.ends_ite (fun hindexed => ?_) fun _ => Method.ends_ofExcept hcontext fun _ _ => hcontext
  exact h.maximum _ _ _ (Nat.pos_of_ne_zero hcount) (hsize hindexed) context hcontext

theorem batch_maxima (h : Checked driver I) {indexed : Bool} {size : Nat} (hsize : indexed = true → 0 < size)
    (draws : List Draw) (maxima : Option Nat × Nat) : Method.Keeps I (batch_maxima driver indexed size draws maxima) := by
  induction draws generalizing maxima with
  | nil => exact .pure maxima
  | cons draw draws ih =>
    refine (Method.Keeps.failIf _ _).bind fun _ context hcontext => ?_
    refine Method.ends_ite (fun _ => ih maxima context hcontext) fun hwork => ?_
    exact (h.draw_maximum hsize fun hcount => hwork (.inl hcount)).ends_bind hcontext fun _ after hafter => ih _ after hafter

theorem checkArrays (h : Checked driver I) (c : Command) : Method.Keeps I (checkArrays driver c) :=
  (Method.Keeps.ofExcept _).bind fun _ => (Method.Keeps.ofExcept _).bind fun _ => (Method.Keeps.ofExcept _).bind fun _ =>
    (Method.Keeps.failIf _ _).bind fun _ => (Method.Keeps.onlyIf (h.validate_instance_attributes _ _ _)).bind fun _ =>
    (Method.Keeps.read _).bind fun _ => (Method.Keeps.read _).bind fun _ => (Method.Keeps.read _).bind fun _ =>
    (Method.Keeps.read _).bind fun _ => .pure _

/-- The indices of a draw that has some, and what comes after them. -/
theorem indexed (h : Checked driver I) {count size offset instances : Nat} {instanced : Bool} (hcount : count ≠ 0)
    (hsize : 0 < size) {A : Type} {next : Gl A} (hnext : Method.Keeps I next) :
    Method.Keeps I (do
      let maximum ← maximum_index driver count size offset
      WebGl.validate_indexed driver maximum instances instanced
      next) :=
  (h.maximum count size offset (Nat.pos_of_ne_zero hcount) hsize).bind fun _ => (h.validate_indexed _ _ _).bind fun _ =>
    hnext

theorem checkElements (h : Checked driver I) (c : Command) : Method.Keeps I (checkElements driver c) := by
  refine (Method.Keeps.ofExcept _).bind fun _ => (Method.Keeps.ofExcept _).bind fun count =>
    (Method.Keeps.ofExcept _).bind fun _ => (Method.Keeps.ofExcept _).bind fun _ context hcontext => ?_
  refine Method.ends_read_bind hcontext fun size hsize => Method.ends_failIf_bind hcontext fun _ =>
    Method.ends_failIf_bind hcontext fun _ => Method.ends_ite (fun _ => ?_) fun hcount => ?_
  · exact ((Method.Keeps.read _).bind fun _ => .pure none) context hcontext
  · refine h.indexed hcount (index_size_pos hsize) ?_ context hcontext
    exact (Method.Keeps.read _).bind fun _ => (Method.Keeps.read _).bind fun _ => (Method.Keeps.read _).bind fun _ => .pure _

private theorem keeps_check_work (mode count instances : Nat) : Method.Keeps I (check_work driver mode count instances) :=
  .ite ((Method.Keeps.read _).bind fun _ => .ofExcept _) (.pure ())

theorem checkElementsInstanced (h : Checked driver I) (c : Command) (mode count instances captured : Nat) :
    Method.Keeps I (checkElementsInstanced driver c mode count instances captured) := by
  refine (Method.Keeps.ofExcept _).bind fun _ => (Method.Keeps.ofExcept _).bind fun _ context hcontext => ?_
  refine Method.ends_read_bind hcontext fun size hsize => Method.ends_failIf_bind hcontext fun _ =>
    Method.ends_ite (fun _ => hcontext) fun hwork => ?_
  refine h.indexed (fun hcount => hwork (.inl hcount)) (index_size_pos hsize) ?_ context hcontext
  exact (Method.Keeps.read _).bind fun _ => (Method.Keeps.read _).bind fun _ => .pure _

theorem checkInstanced (h : Checked driver I) (c : Command) : Method.Keeps I (checkInstanced driver c) := by
  refine (Method.Keeps.read _).bind fun _ => (Method.Keeps.ofExcept _).bind fun mode => (Method.Keeps.ofExcept _).bind fun count =>
    (Method.Keeps.ofExcept _).bind fun instances => (keeps_check_work mode count instances).bind fun _ =>
    (Method.Keeps.read _).bind fun _ => (Method.Keeps.read _).bind fun _ => (Method.Keeps.read _).bind fun captured => .ite ?_ ?_
  · exact h.checkElementsInstanced c mode count instances captured
  · exact (Method.Keeps.ofExcept _).bind fun _ => (Method.Keeps.failIf _ _).bind fun _ => .ite (.pure _)
      ((h.validate_instance_attributes _ _ _).bind fun _ => (Method.Keeps.read _).bind fun _ =>
      (Method.Keeps.read _).bind fun _ => .pure _)

theorem checkBatch (h : Checked driver I) (c : Command) : Method.Keeps I (checkBatch driver c) := by
  refine (Method.Keeps.read _).bind fun _ => (Method.Keeps.ofExcept _).bind fun batch =>
    (Method.Keeps.failIf _ _).bind fun _ context hcontext => ?_
  refine Method.ends_read_bind hcontext fun size hsize => ?_
  have hpos (hindexed : batch.indexed = true) : 0 < size := by
    rw [if_pos hindexed] at hsize
    exact index_size_pos hsize
  exact ((Method.Keeps.read _).bind fun _ => (Method.Keeps.read _).bind fun _ => (Method.Keeps.read _).bind fun _ =>
    (h.batch_maxima hpos _ _).bind fun _ => (h.validate_indexed _ _ _).bind fun _ => (Method.Keeps.read _).bind fun _ =>
    (Method.Keeps.read _).bind fun _ => .pure _) context hcontext

/-- A draw command keeps what its checks and the call of the driver keep. -/
theorem draw_command (h : Checked driver I) (hperform : ∀ admitted, Method.Keeps I (perform driver admitted))
    (c : Command) : Method.Keeps I (draw_command driver c) := by
  have harrays (c : Command) : Method.Keeps I (drawArrays driver c) := (h.checkArrays c).bind hperform
  have helements (c : Command) : Method.Keeps I (drawElements driver c) := (h.checkElements c).bind hperform
  have hinstanced (c : Command) : Method.Keeps I (instanced_command driver c) := (h.checkInstanced c).bind hperform
  have hbatch (c : Command) : Method.Keeps I (multi_draw_command driver c) := (h.checkBatch c).bind hperform
  have hcore {method : Gl Unit} (hmethod : Method.Keeps I method) : Method.Keeps I (core_only method) :=
    .get_bind fun context hcontext => Method.ends_ite (fun _ => hcontext) fun _ => hmethod context hcontext
  rw [WebGl.draw_command]
  cases c.op with
  | drawArrays => exact harrays c
  | drawElements => exact helements c
  | drawRangeElements => exact (Method.Keeps.read _).bind fun draw => helements draw
  | drawArraysInstanced => exact hcore (hinstanced c)
  | drawElementsInstanced => exact hcore (hinstanced c)
  | drawArraysInstancedANGLE => exact hinstanced c
  | drawElementsInstancedANGLE => exact hinstanced c
  | multiDrawArraysWEBGL => exact hbatch c
  | multiDrawElementsWEBGL => exact hbatch c
  | multiDrawArraysInstancedWEBGL => exact hbatch c
  | multiDrawElementsInstancedWEBGL => exact hbatch c
  | _ => exact .ofExcept _

end Checked

end WebGl

end BetterWebBrowser.Webgl
