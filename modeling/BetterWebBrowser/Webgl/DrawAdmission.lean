import BetterWebBrowser.Webgl.DrawQuestions

/-!
# When a draw is admitted

What each draw command asks of the view before it calls the driver. The checks that look at the
single draw are the same in all of them.
-/

namespace BetterWebBrowser.Webgl

open Framework

namespace WebGl

variable {driver : Driver} {context : WebGl}

/-- The checks let a driver call through as the view says. -/
def Issues (driver : Driver) (method : Gl (Option (NativeDraw × Nat)))
    (Issued : WebGl → NativeDraw × Nat → Prop) : Prop :=
  ∃ Answer, Asks driver method Answer ∧ ∀ view issued, Answer view (some issued) ↔ Issued view issued

private theorem asks_validate_program :
    Asks driver (Method.read (validate_program driver)) fun view value => view.validate_program driver = .ok value :=
  Asks.of_settled fun _ => validate_program_settled

private theorem asks_capture (mode : Nat) (indexed : Bool) (draws : List (Nat × Nat)) :
    Asks driver (Method.read fun context => context.prepare_transform_capture mode indexed draws) fun view value =>
      view.prepare_transform_capture mode indexed draws = .ok value :=
  Asks.of_settled fun _ => rfl

private theorem asks_framebuffer :
    Asks driver (Method.read validate_framebuffer) fun view value => view.validate_framebuffer = .ok value :=
  Asks.of_settled fun _ => rfl

private theorem asks_sampling :
    Asks driver (Method.read sampling_guard) fun view value => view.sampling_guard = .ok value :=
  Asks.of_settled fun _ => rfl

/-- What every draw asks of the context. -/
structure Drawable (driver : Driver) (view : WebGl) : Prop where
  program : view.validate_program driver = .ok ()
  framebuffer : view.validate_framebuffer = .ok ()
  sampling : view.sampling_guard = .ok ()

/-! ## One draw -/

/-- `drawArrays` is admitted. -/
structure ArraysAdmitted (driver : Driver) (c : Command) (view : WebGl) (mode first count captured : Nat) :
    Prop where
  mode_eq : c.u 0 >>= checked_mode = .ok mode
  first_eq : c.u 1 = .ok first
  count_eq : c.u 2 = .ok count
  count_le : count ≤ MAX_DRAW_VERTICES
  last_le : first + (count - 1) ≤ I32_MAX
  attributes : count ≠ 0 → AttributesAdmitted driver view (first + (count - 1)) 1 false
  drawable : Drawable driver view
  captured_eq : view.prepare_transform_capture mode false [(count, 1)] = .ok captured

theorem issues_checkArrays (c : Command) :
    Issues driver (checkArrays driver c) fun view issued => ∃ mode first count captured,
      ArraysAdmitted driver c view mode first count captured ∧
        issued = (⟨mode, none, [⟨first, count, 1⟩]⟩, captured) := by
  refine ⟨_, (Method.Observes.ofExcept _).bind fun mode => (Method.Observes.ofExcept _).bind fun first =>
    (Method.Observes.ofExcept _).bind fun count => (Method.Observes.failIf _ _).bind fun _ =>
    (Method.Observes.onlyIf (asks_validate_instance_attributes _ _ _)).bind fun _ => asks_validate_program.bind fun _ =>
    (asks_capture _ _ _).bind fun captured => asks_sampling.bind fun _ => asks_framebuffer.bind fun _ =>
    Method.Observes.pure _, fun view issued => ?_⟩
  constructor
  · rintro ⟨mode, hmode, first, hfirst, count, hcount, _, hfits, _, hattributes, _, hprogram, captured, hcaptured, _,
      hsampling, _, hframebuffer, ⟨⟩⟩
    obtain ⟨hmax, hlast⟩ := not_or.mp hfits
    exact ⟨mode, first, count, captured, ⟨hmode, hfirst, hcount, Nat.not_lt.mp hmax, Nat.not_lt.mp hlast, hattributes,
      ⟨hprogram, hframebuffer, hsampling⟩, hcaptured⟩, rfl⟩
  · rintro ⟨mode, first, count, captured, h, rfl⟩
    exact ⟨mode, h.mode_eq, first, h.first_eq, count, h.count_eq, (),
      not_or.mpr ⟨Nat.not_lt.mpr h.count_le, Nat.not_lt.mpr h.last_le⟩, (), h.attributes, (), h.drawable.program,
      captured, h.captured_eq, (), h.drawable.sampling, (), h.drawable.framebuffer, rfl⟩

private theorem asks_index_size (kind : Nat) :
    Asks driver (Method.read fun context => context.index_size kind) fun view size => view.index_size kind = .ok size :=
  Asks.of_settled fun _ => rfl

/-- The indices of a draw and the attributes they reach pass. -/
structure IndicesAdmitted (driver : Driver) (view : WebGl) (size : Nat) (draw : Draw) (instanced : Bool) : Prop where
  aligned : size ∣ draw.start
  range : ∃ maximum, IndexMaximum view draw.count size draw.start maximum ∧
    ∀ value, maximum = some value → AttributesAdmitted driver view value draw.instances instanced

/-- `drawElements` is admitted and has something to draw. -/
structure ElementsAdmitted (driver : Driver) (c : Command) (view : WebGl) (mode count kind offset size : Nat) :
    Prop where
  mode_eq : c.u 0 >>= checked_mode = .ok mode
  count_eq : c.u 1 = .ok count
  kind_eq : c.u 2 = .ok kind
  offset_eq : c.u 3 = .ok offset
  size_eq : view.index_size kind = .ok size
  count_le : count ≤ MAX_DRAW_VERTICES
  count_ne : count ≠ 0
  indices : IndicesAdmitted driver view size ⟨offset, count, 1⟩ false
  drawable : Drawable driver view

theorem issues_checkElements (c : Command) :
    Issues driver (checkElements driver c) fun view issued => ∃ mode count kind offset size,
      ElementsAdmitted driver c view mode count kind offset size ∧
        issued = (⟨mode, some kind, [⟨offset, count, 1⟩]⟩, 0) := by
  refine ⟨_, (Method.Observes.ofExcept _).bind fun mode => (Method.Observes.ofExcept _).bind fun count =>
    (Method.Observes.ofExcept _).bind fun kind => (Method.Observes.ofExcept _).bind fun offset =>
    (asks_index_size kind).bindOf (fun size => 0 < size) (fun _ _ h => index_size_pos h) fun size hsize =>
    (Method.Observes.failIf _ _).bind fun _ => (Method.Observes.failIf _ _).bind fun _ =>
    .cond (fun _ => asks_validate_program.bind fun _ => Method.Observes.pure _) fun hcount =>
    (asks_maximum_index offset (Nat.pos_of_ne_zero hcount) hsize).bind fun maximum =>
    (asks_validate_indexed maximum 1 false).bind fun _ => asks_validate_program.bind fun _ =>
    asks_sampling.bind fun _ => asks_framebuffer.bind fun _ => Method.Observes.pure _, fun view issued => ?_⟩
  constructor
  · rintro ⟨mode, hmode, count, hcount, kind, hkind, offset, hoffset, size, hsize, _, hmax, _, haligned, hnone, hsome⟩
    by_cases hzero : count = 0
    · obtain ⟨_, -, hnone⟩ := hnone hzero
      cases hnone
    · obtain ⟨maximum, hmaximum, _, hattributes, _, hprogram, _, hsampling, _, hframebuffer, hissued⟩ := hsome hzero
      cases hissued
      exact ⟨mode, count, kind, offset, size, ⟨hmode, hcount, hkind, hoffset, hsize, Nat.not_lt.mp hmax, hzero,
        ⟨not_not.mp haligned, maximum, hmaximum, hattributes⟩, ⟨hprogram, hframebuffer, hsampling⟩⟩, rfl⟩
  · rintro ⟨mode, count, kind, offset, size, h, rfl⟩
    obtain ⟨maximum, hmaximum, hattributes⟩ := h.indices.range
    exact ⟨mode, h.mode_eq, count, h.count_eq, kind, h.kind_eq, offset, h.offset_eq, size, h.size_eq, (),
      Nat.not_lt.mpr h.count_le, (), not_not.mpr h.indices.aligned, fun hzero => absurd hzero h.count_ne, fun _ =>
      ⟨maximum, hmaximum, (), hattributes, (), h.drawable.program, (), h.drawable.sampling, (), h.drawable.framebuffer,
        rfl⟩⟩

/-! ## Instances of one draw -/

private theorem asks_check_work (mode count instances : Nat) :
    Asks driver (check_work driver mode count instances) fun _ _ =>
      ¬(MAX_DRAW_VERTICES < count ∨ MAX_DRAW_VERTICES < instances ∨ 2 ^ 32 ≤ count * instances ∨
        MAX_DRAW_VERTICES < count * instances) := by
  intro context h
  rw [check_work]
  split
  next hover =>
    let check (context : WebGl) : Result Unit :=
      if mode = gl.POINTS then context.validate_transform_point_capacity driver count instances else .ok ()
    have hrun : ∃ error, (Method.read check >>= fun _ => Method.ofExcept (Err gl.INVALID_VALUE) : Gl Unit) context =
        (.error error, context) := by
      rw [Method.run_bind, Method.read]
      cases check context with
      | error error => exact ⟨error, rfl⟩
      | ok _ => exact ⟨_, rfl⟩
    obtain ⟨error, hrun⟩ := hrun
    exact .of_error hrun (fun _ => not_not.mpr hover) rfl h
  next hwithin => exact .of_ok (Method.run_pure () context) (fun _ => iff_of_true hwithin rfl) rfl h

private theorem asks_extension (check : Extensions → Bool) :
    Asks driver (Method.read fun context =>
      failIf (check context.extensions = false) (.Returned gl.INVALID_OPERATION)) fun view _ =>
        check view.extensions = true := by
  refine (Asks.of_settled fun _ => rfl).congr fun view value => ?_
  rw [failIf]
  cases check view.extensions with
  | true => exact iff_of_true rfl rfl
  | false => exact iff_of_false (fun h => by cases h) Bool.false_ne_true

/-- An instanced draw is admitted, but for its ranges. -/
structure InstancedAdmitted (driver : Driver) (c : Command) (view : WebGl) (mode count instances captured : Nat) :
    Prop where
  instancing : view.extensions.instancing = true
  mode_eq : c.u 0 >>= checked_mode = .ok mode
  count_eq : c.u (if Command.elementsInstanced c then 1 else 2) = .ok count
  instances_eq : c.u (if Command.elementsInstanced c then 4 else 3) = .ok instances
  work_le : count * instances ≤ MAX_DRAW_VERTICES
  count_ne : count ≠ 0
  instances_ne : instances ≠ 0
  drawable : Drawable driver view
  captured_eq :
    view.prepare_transform_capture mode (Command.elementsInstanced c) [(count, instances)] = .ok captured

/-- A draw with some work is within the budget if its work is. -/
theorem work_within {count instances : Nat} (hcount : count ≠ 0) (hinstances : instances ≠ 0)
    (hwork : count * instances ≤ MAX_DRAW_VERTICES) :
    ¬(MAX_DRAW_VERTICES < count ∨ MAX_DRAW_VERTICES < instances ∨ 2 ^ 32 ≤ count * instances ∨
      MAX_DRAW_VERTICES < count * instances) := by
  have hcount := Nat.le_mul_of_pos_right count (Nat.pos_of_ne_zero hinstances)
  have hinstances := Nat.le_mul_of_pos_left instances (Nat.pos_of_ne_zero ‹count ≠ 0›)
  have hbudget : MAX_DRAW_VERTICES < 2 ^ 32 := by decide
  omega

/-- The ranges of an instanced indexed draw pass. -/
structure ElementsInstancedAdmitted (driver : Driver) (c : Command) (view : WebGl)
    (count instances kind offset size : Nat) : Prop where
  kind_eq : c.u 2 = .ok kind
  offset_eq : c.u 3 = .ok offset
  size_eq : view.index_size kind = .ok size
  indices : IndicesAdmitted driver view size ⟨offset, count, instances⟩ true
  entry : view.extensions.elements = true

/-- The ranges of an instanced draw without indices pass. -/
structure ArraysInstancedAdmitted (driver : Driver) (c : Command) (view : WebGl)
    (count instances first : Nat) : Prop where
  first_eq : c.u 1 = .ok first
  first_le : first ≤ I32_MAX
  last_le : first + count ≤ I32_MAX + 1
  attributes : AttributesAdmitted driver view (first + count - 1) instances true
  entry : view.extensions.arrays = true

private theorem issues_checkElementsInstanced (driver : Driver) (c : Command) (mode count instances captured : Nat) :
    Issues driver (checkElementsInstanced driver c mode count instances captured) fun view issued =>
      count ≠ 0 ∧ instances ≠ 0 ∧ view.sampling_guard = .ok () ∧ ∃ kind offset size,
        ElementsInstancedAdmitted driver c view count instances kind offset size ∧
          issued = (⟨mode, some kind, [⟨offset, count, instances⟩]⟩, captured) := by
  refine ⟨_, (Method.Observes.ofExcept _).bind fun kind => (Method.Observes.ofExcept _).bind fun offset =>
    (asks_index_size kind).bindOf (fun size => 0 < size) (fun _ _ h => index_size_pos h) fun size hsize =>
    (Method.Observes.failIf _ _).bind fun _ => .cond (fun _ => Method.Observes.pure _) fun hcount =>
    (asks_maximum_index offset (Nat.pos_of_ne_zero (not_or.mp hcount).1) hsize).bind fun maximum =>
    (asks_validate_indexed maximum instances true).bind fun _ =>
    (asks_extension fun extensions => extensions.elements).bind fun _ =>
    asks_sampling.bind fun _ => Method.Observes.pure _, fun view issued => ?_⟩
  constructor
  · rintro ⟨kind, hkind, offset, hoffset, size, hsize, _, haligned, hnone, hsome⟩
    by_cases hempty : count = 0 ∨ instances = 0
    · cases hnone hempty
    · obtain ⟨maximum, hmaximum, _, hattributes, _, hentry, _, hsampling, hissued⟩ := hsome hempty
      cases hissued
      obtain ⟨hcount, hinstances⟩ := not_or.mp hempty
      exact ⟨hcount, hinstances, hsampling, kind, offset, size,
        ⟨hkind, hoffset, hsize, ⟨not_not.mp haligned, maximum, hmaximum, hattributes⟩, hentry⟩, rfl⟩
  · rintro ⟨hcount, hinstances, hsampling, kind, offset, size, h, rfl⟩
    obtain ⟨maximum, hmaximum, hattributes⟩ := h.indices.range
    have hsome : ¬(count = 0 ∨ instances = 0) := not_or.mpr ⟨hcount, hinstances⟩
    exact ⟨kind, h.kind_eq, offset, h.offset_eq, size, h.size_eq, (), not_not.mpr h.indices.aligned,
      fun hempty => absurd hempty hsome, fun _ =>
      ⟨maximum, hmaximum, (), hattributes, (), h.entry, (), hsampling, rfl⟩⟩

private theorem issues_checkArraysInstanced (driver : Driver) (c : Command) (mode count instances captured : Nat) :
    Issues driver (checkArraysInstanced driver c mode count instances captured) fun view issued =>
      count ≠ 0 ∧ instances ≠ 0 ∧ view.sampling_guard = .ok () ∧ ∃ first,
        ArraysInstancedAdmitted driver c view count instances first ∧
          issued = (⟨mode, none, [⟨first, count, instances⟩]⟩, captured) := by
  refine ⟨_, (Method.Observes.ofExcept _).bind fun first => (Method.Observes.failIf _ _).bind fun _ =>
    .cond (fun _ => Method.Observes.pure _) fun _ =>
    (asks_validate_instance_attributes _ instances true).bind fun _ =>
    (asks_extension fun extensions => extensions.arrays).bind fun _ =>
    asks_sampling.bind fun _ => Method.Observes.pure _, fun view issued => ?_⟩
  have hword : I32_MAX + 1 < 2 ^ 32 := by decide
  constructor
  · rintro ⟨first, hfirst, _, hrange, hnone, hsome⟩
    by_cases hempty : count = 0 ∨ instances = 0
    · cases hnone hempty
    · obtain ⟨_, hattributes, _, hentry, _, hsampling, hissued⟩ := hsome hempty
      cases hissued
      obtain ⟨hcount, hinstances⟩ := not_or.mp hempty
      exact ⟨hcount, hinstances, hsampling, first, ⟨hfirst, by omega, by omega, hattributes, hentry⟩, rfl⟩
  · rintro ⟨hcount, hinstances, hsampling, first, h, rfl⟩
    have hfirst := h.first_le
    have hlast := h.last_le
    exact ⟨first, h.first_eq, (), by omega, fun hempty => absurd hempty (not_or.mpr ⟨hcount, hinstances⟩), fun _ =>
      ⟨(), h.attributes, (), h.entry, (), hsampling, rfl⟩⟩

theorem issues_checkInstanced (c : Command) :
    Issues driver (checkInstanced driver c) fun view issued => ∃ mode count instances captured,
      InstancedAdmitted driver c view mode count instances captured ∧
        ((Command.elementsInstanced c = true ∧ ∃ kind offset size,
            ElementsInstancedAdmitted driver c view count instances kind offset size ∧
              issued = (⟨mode, some kind, [⟨offset, count, instances⟩]⟩, captured)) ∨
          Command.elementsInstanced c = false ∧ ∃ first,
            ArraysInstancedAdmitted driver c view count instances first ∧
              issued = (⟨mode, none, [⟨first, count, instances⟩]⟩, captured)) := by
  choose ElementsAnswer helements helementsIssued using fun mode count instances captured =>
    issues_checkElementsInstanced driver c mode count instances captured
  choose ArraysAnswer harrays harraysIssued using fun mode count instances captured =>
    issues_checkArraysInstanced driver c mode count instances captured
  refine ⟨_, (asks_extension fun extensions => extensions.instancing).bind fun _ =>
    (Method.Observes.ofExcept _).bind fun mode => (Method.Observes.ofExcept _).bind fun count =>
    (Method.Observes.ofExcept _).bind fun instances => (asks_check_work mode count instances).bind fun _ =>
    asks_validate_program.bind fun _ => asks_framebuffer.bind fun _ => (asks_capture _ _ _).bind fun captured =>
    .cond (fun _ => helements mode count instances captured) fun _ => harrays mode count instances captured,
    fun view issued => ?_⟩
  constructor
  · rintro ⟨_, hinstancing, mode, hmode, count, hcount, instances, hinstances, _, hwork, _, hprogram, _, hframebuffer,
      captured, hcaptured, hyes, hno⟩
    cases hindexed : Command.elementsInstanced c with
    | true =>
      obtain ⟨hcount', hinstances', hsampling, hissued⟩ := (helementsIssued ..).mp (hyes hindexed)
      exact ⟨mode, count, instances, captured, ⟨hinstancing, hmode, hcount, hinstances, by omega, hcount', hinstances',
        ⟨hprogram, hframebuffer, hsampling⟩, hcaptured⟩, .inl ⟨rfl, hissued⟩⟩
    | false =>
      obtain ⟨hcount', hinstances', hsampling, hissued⟩ :=
        (harraysIssued ..).mp (hno (by rw [hindexed]; exact Bool.false_ne_true))
      exact ⟨mode, count, instances, captured, ⟨hinstancing, hmode, hcount, hinstances, by omega, hcount', hinstances',
        ⟨hprogram, hframebuffer, hsampling⟩, hcaptured⟩, .inr ⟨rfl, hissued⟩⟩
  · rintro ⟨mode, count, instances, captured, h, hranges⟩
    refine ⟨(), h.instancing, mode, h.mode_eq, count, h.count_eq, instances, h.instances_eq, (),
      work_within h.count_ne h.instances_ne h.work_le, (), h.drawable.program, (), h.drawable.framebuffer, captured,
      h.captured_eq, ?_, ?_⟩
    · intro hindexed
      refine (helementsIssued ..).mpr ⟨h.count_ne, h.instances_ne, h.drawable.sampling, ?_⟩
      obtain ⟨-, hissued⟩ | ⟨hnot, -⟩ := hranges
      · exact hissued
      · rw [hnot] at hindexed
        cases hindexed
    · intro hindexed
      refine (harraysIssued ..).mpr ⟨h.count_ne, h.instances_ne, h.drawable.sampling, ?_⟩
      obtain ⟨hyes, -⟩ | ⟨-, hissued⟩ := hranges
      · exact absurd hyes hindexed
      · exact hissued

/-! ## Lists of draws -/

/-- The largest vertex of a draw with some work. -/
def DrawMaximum (view : WebGl) (indexed : Bool) (size : Nat) (draw : Draw) (maximum : Option Nat) : Prop :=
  if indexed = true then IndexMaximum view draw.count size draw.start maximum
  else draw.start + (draw.count - 1) < 2 ^ 32 ∧ maximum = some (draw.start + (draw.count - 1))

private theorem asks_draw_maximum {indexed : Bool} {size : Nat} (hsize : indexed = true → 0 < size) {draw : Draw}
    (hcount : draw.count ≠ 0) :
    Asks driver (draw_maximum driver indexed size draw) fun view maximum =>
      DrawMaximum view indexed size draw maximum := by
  cases indexed with
  | true => exact asks_maximum_index draw.start (Nat.pos_of_ne_zero hcount) (hsize rfl)
  | false =>
    refine (Method.Observes.ofExcept _).congr fun view maximum => ?_
    rw [DrawMaximum, if_neg Bool.false_ne_true, checkedAdd]
    by_cases hword : draw.start + (draw.count - 1) < 2 ^ 32
    · rw [if_pos hword]
      constructor
      · intro h
        exact ⟨hword, (Except.ok.inj h).symm⟩
      · rintro ⟨-, rfl⟩
        rfl
    · rw [if_neg hword]
      exact iff_of_false (fun h => by cases h) fun h => hword h.1

/-- The largest vertices and instances of draws, starting from those so far. -/
inductive Maxima (view : WebGl) (indexed : Bool) (size : Nat) :
    List Draw → Option Nat × Nat → Option Nat × Nat → Prop
  | nil (maxima : Option Nat × Nat) : Maxima view indexed size [] maxima maxima
  | skip {draw : Draw} {draws : List Draw} {maxima last : Option Nat × Nat}
    (haligned : ¬(indexed = true ∧ ¬size ∣ draw.start)) (hempty : draw.count = 0 ∨ draw.instances = 0)
    (h : Maxima view indexed size draws maxima last) : Maxima view indexed size (draw :: draws) maxima last
  | work {draw : Draw} {draws : List Draw} {maxima last : Option Nat × Nat} {maximum : Option Nat}
    (haligned : ¬(indexed = true ∧ ¬size ∣ draw.start)) (hwork : ¬(draw.count = 0 ∨ draw.instances = 0))
    (hmaximum : DrawMaximum view indexed size draw maximum)
    (h : Maxima view indexed size draws (joinMaxima maxima maximum draw.instances) last) :
    Maxima view indexed size (draw :: draws) maxima last

private theorem asks_batch_maxima {indexed : Bool} {size : Nat} (hsize : indexed = true → 0 < size)
    (draws : List Draw) (maxima : Option Nat × Nat) :
    Asks driver (batch_maxima driver indexed size draws maxima) fun view last =>
      Maxima view indexed size draws maxima last := by
  induction draws generalizing maxima with
  | nil =>
    refine (Method.Observes.pure maxima).congr fun view last => ?_
    constructor
    · rintro rfl
      exact .nil maxima
    · intro h
      cases h
      rfl
  | cons draw draws ih =>
    refine ((Method.Observes.failIf _ _).bind fun _ => .cond (fun _ => ih maxima) fun hwork =>
      (asks_draw_maximum hsize (not_or.mp hwork).1).bind fun maximum => ih _).congr fun view last => ?_
    constructor
    · rintro ⟨_, haligned, hskip, hmore⟩
      by_cases hempty : draw.count = 0 ∨ draw.instances = 0
      · exact .skip haligned hempty (hskip hempty)
      · obtain ⟨maximum, hmaximum, h⟩ := hmore hempty
        exact .work haligned hempty hmaximum h
    · intro h
      cases h with
      | skip haligned hempty h => exact ⟨(), haligned, fun _ => h, fun hwork => absurd hempty hwork⟩
      | work haligned hwork hmaximum h =>
        exact ⟨(), haligned, fun hempty => absurd hempty hwork, fun _ => ⟨_, hmaximum, h⟩⟩

/-- The attributes reach the joint maxima, if any draw uses a vertex. -/
def MaximaAdmitted (driver : Driver) (view : WebGl) (instanced : Bool) (maxima : Option Nat × Nat) : Prop :=
  ∀ value, maxima.1 = some value → AttributesAdmitted driver view value maxima.2 instanced

/-- The checks of one draw of a list. -/
def DrawPasses (driver : Driver) (view : WebGl) (indexed : Bool) (size : Nat) (instanced : Bool) (draw : Draw) : Prop :=
  ¬(indexed = true ∧ ¬size ∣ draw.start) ∧
    (¬(draw.count = 0 ∨ draw.instances = 0) → ∃ maximum, DrawMaximum view indexed size draw maximum ∧
      MaximaAdmitted driver view instanced (maximum, draw.instances))

private theorem maximaAdmitted_join {view : WebGl} {instanced : Bool} {maxima : Option Nat × Nat}
    (hnone : maxima.1 = none → maxima.2 = 0) (maximum : Option Nat) (instances : Nat) :
    MaximaAdmitted driver view instanced (joinMaxima maxima maximum instances) ↔
      MaximaAdmitted driver view instanced maxima ∧ MaximaAdmitted driver view instanced (maximum, instances) := by
  obtain ⟨vertex, copies⟩ := maxima
  cases maximum with
  | none =>
    have hempty : MaximaAdmitted driver view instanced (none, instances) := fun _ h => nomatch h
    exact ⟨fun h => ⟨h, hempty⟩, And.left⟩
  | some maximum =>
    cases vertex with
    | none =>
      obtain rfl : copies = 0 := hnone rfl
      have hempty : MaximaAdmitted driver view instanced (none, 0) := fun _ h => nomatch h
      have hjoin : joinMaxima (none, 0) (some maximum) instances = (some maximum, instances) := by
        rw [joinMaxima, Nat.zero_max]
        rfl
      rw [hjoin]
      exact ⟨fun h => ⟨hempty, h⟩, And.right⟩
    | some vertex =>
      constructor
      · intro h
        obtain ⟨hfirst, hsecond⟩ := (attributesAdmitted_max ..).mp (h _ rfl)
        constructor
        · rintro _ ⟨⟩
          exact hfirst
        · rintro _ ⟨⟩
          exact hsecond
      · rintro ⟨hfirst, hsecond⟩ _ ⟨⟩
        exact (attributesAdmitted_max ..).mpr ⟨hfirst _ rfl, hsecond _ rfl⟩

private theorem join_none {maxima : Option Nat × Nat} (hnone : maxima.1 = none → maxima.2 = 0)
    (maximum : Option Nat) (instances : Nat) :
    (joinMaxima maxima maximum instances).1 = none → (joinMaxima maxima maximum instances).2 = 0 := by
  cases maximum with
  | none => exact hnone
  | some maximum =>
    intro h
    cases h

/-- The joint check of a list is the check of each draw. -/
theorem maxima_admitted_iff {view : WebGl} {indexed : Bool} {size : Nat} {instanced : Bool} {draws : List Draw}
    {maxima : Option Nat × Nat} (hnone : maxima.1 = none → maxima.2 = 0) :
    (∃ last, Maxima view indexed size draws maxima last ∧ MaximaAdmitted driver view instanced last) ↔
      MaximaAdmitted driver view instanced maxima ∧
        ∀ draw ∈ draws, DrawPasses driver view indexed size instanced draw := by
  induction draws generalizing maxima with
  | nil =>
    constructor
    · rintro ⟨last, h, hlast⟩
      cases h
      exact ⟨hlast, fun _ hmem => nomatch hmem⟩
    · rintro ⟨h, -⟩
      exact ⟨maxima, .nil maxima, h⟩
  | cons draw draws ih =>
    rw [List.forall_mem_cons]
    constructor
    · rintro ⟨last, h, hlast⟩
      cases h with
      | skip haligned hempty h =>
        obtain ⟨hmaxima, hdraws⟩ := (ih hnone).mp ⟨last, h, hlast⟩
        exact ⟨hmaxima, ⟨haligned, fun hwork => absurd hempty hwork⟩, hdraws⟩
      | work haligned hwork hmaximum h =>
        obtain ⟨hjoin, hdraws⟩ := (ih (join_none hnone _ _)).mp ⟨last, h, hlast⟩
        obtain ⟨hmaxima, hdraw⟩ := (maximaAdmitted_join hnone _ _).mp hjoin
        exact ⟨hmaxima, ⟨haligned, fun _ => ⟨_, hmaximum, hdraw⟩⟩, hdraws⟩
    · rintro ⟨hmaxima, ⟨haligned, hpasses⟩, hdraws⟩
      by_cases hempty : draw.count = 0 ∨ draw.instances = 0
      · obtain ⟨last, h, hlast⟩ := (ih hnone).mpr ⟨hmaxima, hdraws⟩
        exact ⟨last, .skip haligned hempty h, hlast⟩
      · obtain ⟨maximum, hmaximum, hdraw⟩ := hpasses hempty
        obtain ⟨last, h, hlast⟩ :=
          (ih (join_none hnone _ _)).mpr ⟨(maximaAdmitted_join hnone maximum draw.instances).mpr ⟨hmaxima, hdraw⟩, hdraws⟩
        exact ⟨last, .work haligned hempty hmaximum h, hlast⟩

/-- A list of draws is admitted. -/
structure BatchAdmitted (driver : Driver) (c : Command) (view : WebGl) (batch : Batch) (size captured : Nat) :
    Prop where
  multi_draw : view.extensions.multi_draw = true
  parsed : Batch.parse c = .ok batch
  budget : ¬(MAX_DRAW_VERTICES < batch.work ∨
    ∃ draw ∈ batch.draws, MAX_DRAW_VERTICES < draw.count ∨ MAX_DRAW_VERTICES < draw.instances)
  size_eq : (if batch.indexed = true then view.index_size batch.kind else .ok 0) = .ok size
  drawable : Drawable driver view
  captured_eq : view.prepare_transform_capture batch.mode batch.indexed
    (batch.draws.map fun draw => (draw.count, draw.instances)) = .ok captured
  passes : ∀ draw ∈ batch.draws, DrawPasses driver view batch.indexed size batch.instanced draw
  entries : view.extensions.multi_draw_entries = true

private theorem asks_batch_size (batch : Batch) :
    Asks driver (Method.read fun context => if batch.indexed then context.index_size batch.kind else .ok 0)
      fun view size => (if batch.indexed = true then view.index_size batch.kind else .ok 0) = .ok size :=
  Asks.of_settled fun _ => rfl

theorem issues_checkBatch (c : Command) :
    Issues driver (checkBatch driver c) fun view issued => ∃ batch size captured,
      BatchAdmitted driver c view batch size captured ∧
        issued = (⟨batch.mode, if batch.indexed then some batch.kind else none, batch.draws⟩, captured) := by
  refine ⟨_, (asks_extension fun extensions => extensions.multi_draw).bind fun _ =>
    (Method.Observes.ofExcept _).bind fun batch => (Method.Observes.failIf _ _).bind fun _ =>
    (asks_batch_size batch).bindOf (fun size => batch.indexed = true → 0 < size)
      (fun view size h hindexed => index_size_pos ((if_pos hindexed).symm.trans h)) fun size hsize =>
    asks_validate_program.bind fun _ => asks_framebuffer.bind fun _ => (asks_capture _ _ _).bind fun captured =>
    (asks_batch_maxima hsize batch.draws (none, 0)).bind fun maxima =>
    (asks_validate_indexed maxima.1 maxima.2 batch.instanced).bind fun _ =>
    (asks_extension fun extensions => extensions.multi_draw_entries).bind fun _ =>
    asks_sampling.bind fun _ => Method.Observes.pure _, fun view issued => ?_⟩
  constructor
  · rintro ⟨_, hmulti, batch, hparse, _, hbudget, size, hsize, _, hprogram, _, hframebuffer, captured, hcaptured,
      maxima, hmaxima, _, hattributes, _, hentries, _, hsampling, hissued⟩
    cases hissued
    have hpasses := (maxima_admitted_iff fun _ => rfl).mp ⟨maxima, hmaxima, hattributes⟩
    exact ⟨batch, size, captured, ⟨hmulti, hparse, hbudget, hsize, ⟨hprogram, hframebuffer, hsampling⟩, hcaptured,
      hpasses.2, hentries⟩, rfl⟩
  · rintro ⟨batch, size, captured, h, rfl⟩
    have hstart : MaximaAdmitted driver view batch.instanced (none, 0) := fun _ hvalue => nomatch hvalue
    obtain ⟨maxima, hmaxima, hattributes⟩ := (maxima_admitted_iff fun _ => rfl).mpr ⟨hstart, h.passes⟩
    exact ⟨(), h.multi_draw, batch, h.parsed, (), h.budget, size, h.size_eq, (), h.drawable.program, (),
      h.drawable.framebuffer, captured, h.captured_eq, maxima, hmaxima, (), hattributes, (), h.entries, (),
      h.drawable.sampling, rfl⟩

end WebGl

end BetterWebBrowser.Webgl
