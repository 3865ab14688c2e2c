import BetterWebBrowser.Framework.Transition
import BetterWebBrowser.Webgl.BufferDeletion

/-!
# Runs of a context

A context takes commands in any order, and what other commands do elsewhere happens in between. A
buffer counts its places in every state, and it is there exactly from its creation until it is deleted
and has no place left.
-/

namespace BetterWebBrowser.Webgl

open Framework
open Objects (Ages Counted Fresh)

/-! ## Runs -/

namespace WebGl

/-- A context without objects. The limits are those of the driver; peers have taken the first names. -/
def new (api : ApiVersion) (core : Option CoreEntries) (extensions : Extensions) (slots uniforms captures names : Nat) :
    WebGl :=
  { api := api
    core := core
    core_buffer_bindings := .empty
    objects := ⟨.empty, names + 1, false⟩
    index_cache := []
    attribute_reflection := []
    array_buffer := 0
    element_buffer := 0
    program := 0
    attributes := List.replicate slots .default
    extensions := extensions
    vertex_arrays := ⟨0, 0, .empty⟩
    indexed_uniforms := List.replicate uniforms .default
    transform_feedback := ⟨0, OrdMap.empty.insert 0 (.new captures), captures⟩
    framebuffer := .ok ()
    sampling := .ok ()
    storage := fun _ _ => .ok ()
    pack_layout := fun _ => .ok 0
    calls := [] }

/-- What all other commands may change: objects that are no buffers, the program and the answers of
the checks that are left out. -/
structure Elsewhere (before after : WebGl) : Prop where
  buffers : ∀ id object, object.kind = .Buffer →
    (after.objects.entries.get id = some object ↔ before.objects.entries.get id = some object)
  names : ∀ id object, after.objects.entries.get id = some object →
    (∃ earlier, before.objects.entries.get id = some earlier ∧ object.kind = earlier.kind) ∨
      before.objects.next_object ≤ id ∧ id < after.objects.next_object
  next : before.objects.next_object ≤ after.objects.next_object
  kept : after = { before with
    objects := { after.objects with saturated := before.objects.saturated }
    attribute_reflection := after.attribute_reflection
    program := after.program
    extensions := after.extensions
    framebuffer := after.framebuffer
    sampling := after.sampling
    storage := after.storage
    pack_layout := after.pack_layout
    calls := after.calls }

end WebGl

inductive Event
  | command (c : Command) (bytes : Option (List UInt8)) (result : Result Reply)
  | enable_vertex_arrays
  | elsewhere

def Step (driver : Driver) (before : WebGl) (event : Event) (after : WebGl) : Prop :=
  match event with
  | .command c bytes result => WebGl.dispatch driver c bytes before = (result, after)
  | .enable_vertex_arrays => after = (WebGl.enable_vertex_arrays driver before).2
  | .elsewhere => WebGl.Elsewhere before after

/-- Commands one after the other. -/
def issue (driver : Driver) : List (Command × Option (List UInt8)) → WebGl → List Event × WebGl
  | [], context => ([], context)
  | (c, bytes) :: commands, context =>
    let (result, after) := WebGl.dispatch driver c bytes context
    let (events, last) := issue driver commands after
    (.command c bytes result :: events, last)

theorem run_issue (driver : Driver) (commands : List (Command × Option (List UInt8))) (context : WebGl) :
    Run (Step driver) context (issue driver commands context).1 (issue driver commands context).2 := by
  induction commands generalizing context with
  | nil => exact .nil
  | cons command commands ih =>
    have hfirst : Run (Step driver) context
        [.command command.1 command.2 (WebGl.dispatch driver command.1 command.2 context).1]
        (WebGl.dispatch driver command.1 command.2 context).2 := Run.nil.snoc rfl
    exact hfirst.trans (ih _)

/-- The name that a command has given out for a buffer. -/
def Event.created : Event → Option Nat
  | .command c _ (.ok (.name id)) => if c.op = .createBuffer then some id else none
  | _ => none

/-- The name of the buffer that a command has deleted. -/
def Event.deleted : Event → Option Nat
  | .command c _ (.ok _) => if c.op = .deleteBuffer then (c.u 0).toOption.filter fun id => decide (id ≠ 0) else none
  | _ => none

/-! ## Names -/

/-- The buffers of the table are those that were created and not yet given up. -/
structure Known (objects : Objects) (created deleted : List Nat) : Prop where
  present : ∀ id object, objects.get id .Buffer = .ok object →
    id ∈ created ∧ (object.pending_delete = true ↔ id ∈ deleted)
  kept : ∀ id ∈ created, id ∉ deleted → ∃ object, objects.get id .Buffer = .ok object
  below : ∀ id ∈ created, 0 < id ∧ id < objects.next_object
  known : ∀ id ∈ deleted, id ∈ created

section

variable {objects after : Objects} {created deleted : List Nat} {id : Nat}

/-- Nothing is created or deleted. -/
theorem Known.ages (h : Known objects created deleted) (hages : Ages objects after) : Known after created deleted := by
  constructor
  · intro id object hget
    obtain ⟨hentry, hkind⟩ := Objects.get_eq_ok.mp hget
    obtain ⟨earlier, hearlier, hsame, hpending⟩ | ⟨hother, -⟩ := hages.names id object hentry
    · rw [hpending hkind]
      exact h.present id earlier (Objects.get_eq_ok.mpr ⟨hearlier, hsame.symm.trans hkind⟩)
    · exact absurd hkind hother
  · intro id hid hnot
    obtain ⟨object, hget⟩ := h.kept id hid hnot
    exact hages.kept id object hget (Bool.eq_false_iff.mpr fun hpending => hnot ((h.present id object hget).2.mp hpending))
  · intro id hid
    have hlt := h.below id hid
    exact ⟨hlt.1, Nat.lt_of_lt_of_le hlt.2 hages.next⟩
  · exact h.known

theorem Known.create (h : Known objects created deleted) (hfresh : Fresh objects) {native : Nat}
    (hinsert : objects.insert .Buffer native = .ok (id, after)) : Known after (created ++ [id]) deleted := by
  obtain ⟨hid, hnext, -, object, hkind, hpending, -, hentries⟩ := Objects.insert_eq_ok hinsert
  have hnew : id ∉ created := fun hmem => Nat.lt_irrefl _ (hid ▸ (h.below id hmem).2)
  constructor
  · intro other found hget
    obtain ⟨hentry, hbuffer⟩ := Objects.get_eq_ok.mp hget
    rw [hentries] at hentry
    by_cases hother : other = id
    · rw [if_pos hother] at hentry
      obtain rfl := Option.some.inj hentry
      rw [hpending]
      exact ⟨List.mem_append_right _ (List.mem_singleton.mpr hother),
        iff_of_false Bool.false_ne_true fun hmem => hnew (hother ▸ h.known other hmem)⟩
    · rw [if_neg hother] at hentry
      have hpresent := h.present other found (Objects.get_eq_ok.mpr ⟨hentry, hbuffer⟩)
      exact ⟨List.mem_append_left _ hpresent.1, hpresent.2⟩
  · intro other hmem hnot
    by_cases hother : other = id
    · exact ⟨object, Objects.get_eq_ok.mpr ⟨by rw [hentries, if_pos hother], hkind⟩⟩
    · have hmem := (List.mem_append.mp hmem).resolve_right fun h => hother (List.mem_singleton.mp h)
      obtain ⟨found, hget⟩ := h.kept other hmem hnot
      obtain ⟨hentry, hbuffer⟩ := Objects.get_eq_ok.mp hget
      exact ⟨found, Objects.get_eq_ok.mpr ⟨by rw [hentries, if_neg hother, hentry], hbuffer⟩⟩
  · intro other hmem
    obtain hmem | hmem := List.mem_append.mp hmem
    · have hlt := h.below other hmem
      omega
    · have hpos := hfresh.pos
      have hother := List.mem_singleton.mp hmem
      omega
  · exact fun other hmem => List.mem_append_left _ (h.known other hmem)

theorem Known.delete (h : Known objects created deleted) (hid : id ≠ 0) (hdelete : objects.delete id .Buffer = .ok after) :
    Known after created (deleted ++ [id]) := by
  obtain ⟨object, hget, hnext, -, hentries⟩ := Objects.delete_buffer_eq_ok hid hdelete
  constructor
  · intro other found hfound
    obtain ⟨hentry, hkind⟩ := Objects.get_eq_ok.mp hfound
    rw [hentries] at hentry
    rw [List.mem_append, List.mem_singleton]
    by_cases hother : other = id
    · rw [if_pos hother] at hentry
      split at hentry
      next =>
        obtain rfl := Option.some.inj hentry
        exact ⟨hother ▸ (h.present id object hget).1, iff_of_true rfl (.inr hother)⟩
      next => cases hentry
    · rw [if_neg hother] at hentry
      have hpresent := h.present other found (Objects.get_eq_ok.mpr ⟨hentry, hkind⟩)
      exact ⟨hpresent.1, hpresent.2.trans (or_iff_left hother).symm⟩
  · intro other hmem hnot
    rw [List.mem_append, List.mem_singleton, not_or] at hnot
    obtain ⟨found, hfound⟩ := h.kept other hmem hnot.1
    obtain ⟨hentry, hkind⟩ := Objects.get_eq_ok.mp hfound
    exact ⟨found, Objects.get_eq_ok.mpr ⟨by rw [hentries, if_neg hnot.2, hentry], hkind⟩⟩
  · rw [hnext]
    exact h.below
  · intro other hmem
    obtain hmem | hmem := List.mem_append.mp hmem
    · exact h.known other hmem
    · exact List.mem_singleton.mp hmem ▸ (h.present id object hget).1

/-- A buffer that was deleted before is deleted again. -/
theorem Known.again (h : Known objects created deleted) (hid : id ∈ deleted) : Known objects created (deleted ++ [id]) := by
  have hsame (other : Nat) : other ∈ deleted ++ [id] ↔ other ∈ deleted := by
    rw [List.mem_append, List.mem_singleton]
    exact or_iff_left_of_imp fun hother => hother ▸ hid
  constructor
  · intro other object hget
    rw [hsame]
    exact h.present other object hget
  · intro other hmem hnot
    exact h.kept other hmem (mt (hsame other).mpr hnot)
  · exact h.below
  · exact fun other hmem => h.known other ((hsame other).mp hmem)

end

/-! ## Commands -/

namespace WebGl

variable {driver : Driver} {start : Objects} {context : WebGl} {I : WebGl → Prop}

theorem keeps_null {method : Gl Unit} (h : Method.Keeps I method) : Method.Keeps I (null method) :=
  h.bind fun _ => .pure Reply.Null

theorem keeps_named {method : Gl Nat} (h : Method.Keeps I method) : Method.Keeps I (named method) :=
  h.bind fun id => .pure (Reply.name id)

theorem keeps_with_arrays {method : Gl Reply} (h : Method.Keeps I method) : Method.Keeps I (with_arrays method) :=
  (Method.Keeps.read _).bind fun _ => h

theorem keeps_two_only {method : Gl Reply} (h : Method.Keeps I method) : Method.Keeps I (two_only method) :=
  .get_bind fun context hcontext => Method.ends_ite (fun _ => hcontext) fun _ => h context hcontext

theorem keeps_bind_array (c : Command) : Method.Keeps (Aged start) (with_arrays (null (bind_array_command c))) := by
  intro context h
  refine Method.ends_read_bind h fun _ henabled => Method.ends_bind.mpr ?_
  have hnative : context.vertex_arrays.default_native ≠ 0 := by
    intro hzero
    rw [arrays_enabled, failIf, if_pos hzero] at henabled
    cases henabled
  refine Method.ends_ofExcept_bind h fun id _ => ?_
  refine (ends_bind_vertex_array h fun hzero => absurd hzero hnative).mono (fun _ after hafter => ?_) fun _ hafter => hafter
  exact hafter.1

theorem keeps_delete_array (c : Command) : Method.Keeps (Aged start) (delete_array_command c) :=
  (Method.Keeps.ofExcept _).bind fun id => keeps_delete_vertex_array id

theorem keeps_dispatch (c : Command) (bytes : Option (List UInt8)) (hcreate : c.op ≠ .createBuffer)
    (hdelete : c.op ≠ .deleteBuffer) : Method.Keeps (Aged start) (dispatch driver c bytes) := by
  rw [dispatch]
  cases hop : c.op with
  | createBuffer => exact absurd hop hcreate
  | deleteBuffer => exact absurd hop hdelete
  | bindBuffer => exact keeps_null (keeps_bind_buffer c)
  | bufferData => exact keeps_null (keeps_buffer_data c bytes)
  | bufferSubData => exact keeps_null (keeps_buffer_sub_data c bytes)
  | copyBufferSubData => exact keeps_null (keeps_copy_buffer_sub_data c)
  | getBufferSubData => exact (indifferent_aged.read_buffer c).bind fun data => .pure (Reply.bytes data)
  | readPixelsToBuffer => exact keeps_null (keeps_read_pixels_to_buffer c bytes)
  | createVertexArray => exact keeps_two_only (keeps_with_arrays (keeps_named keeps_create_vertex_array))
  | createVertexArrayOES => exact keeps_with_arrays (keeps_named keeps_create_vertex_array)
  | bindVertexArray => exact keeps_two_only (keeps_bind_array c)
  | bindVertexArrayOES => exact keeps_bind_array c
  | deleteVertexArray => exact keeps_two_only (keeps_with_arrays (keeps_null (keeps_delete_array c)))
  | deleteVertexArrayOES => exact keeps_with_arrays (keeps_null (keeps_delete_array c))
  | vertexAttribPointer => exact keeps_null (keeps_vertex_pointer c)
  | vertexAttribIPointer => exact keeps_null (keeps_vertex_pointer c)
  | enableVertexAttribArray => exact keeps_null (keeps_enable_slot c)
  | disableVertexAttribArray => exact keeps_null (keeps_enable_slot c)
  | vertexAttribDivisor => exact keeps_two_only (keeps_null (keeps_set_divisor c))
  | vertexAttribDivisorANGLE => exact keeps_null (keeps_set_divisor c)
  | bindBufferBase => exact keeps_null (keeps_indexed_uniform_command c)
  | bindBufferRange => exact keeps_null (keeps_indexed_uniform_command c)
  | createTransformFeedback => exact keeps_two_only (keeps_named keeps_create_transform_feedback)
  | bindTransformFeedback => exact keeps_two_only (keeps_null (keeps_bind_transform_feedback c))
  | deleteTransformFeedback => exact keeps_two_only (keeps_null (keeps_delete_transform_feedback c))
  | beginTransformFeedback => exact keeps_two_only (keeps_null (keeps_begin_transform_feedback c))
  | endTransformFeedback => exact keeps_two_only (keeps_null keeps_end_transform_feedback)
  | pauseTransformFeedback => exact keeps_two_only (keeps_null keeps_pause_transform_feedback)
  | resumeTransformFeedback => exact keeps_two_only (keeps_null keeps_resume_transform_feedback)
  | _ => exact keeps_null (indifferent_aged.checked.draw_command keeps_perform c)

theorem ends_create_buffer (context : WebGl) :
    Method.Ends (named (create_buffer driver)) context (fun reply after => ∃ id objects, reply = .name id ∧
      context.objects.insert .Buffer (driver.generate context.objects) = .ok (id, objects) ∧
      after = { context with objects := objects }) (fun after => after = context) :=
  Method.ends_bind.mpr (Method.ends_ofExcept_bind rfl fun created hcreated => ⟨created.1, created.2, rfl, hcreated, rfl⟩)

/-- A deletion that succeeds did nothing because there is nothing to do, or deleted the buffer. -/
theorem ends_delete_buffer (h : Aged start context) (c : Command) :
    Method.Ends (null (delete_buffer_command driver c)) context (fun _ after => ∃ id, c.u 0 = .ok id ∧
      ((id = 0 ∧ after = context) ∨
        (id ≠ 0 ∧ after = context ∧
          ∃ object, context.objects.get id .Buffer = .ok object ∧ object.pending_delete = true) ∨
        (id ≠ 0 ∧ ∃ before objects, Aged start before ∧ before.objects.delete id .Buffer = .ok objects ∧
          after = { before with objects := objects }))) (Aged start) := by
  refine Method.ends_bind.mpr (Method.ends_ofExcept_bind h fun id hid => Method.ends_get_bind.mpr ?_)
  refine Method.ends_ite (fun hzero => ⟨id, hid, .inl ⟨hzero, rfl⟩⟩) fun hne => ?_
  refine Method.ends_ofExcept_bind h fun object hget => Method.ends_ite (fun hpending => ?_) fun _ => ?_
  · exact ⟨id, hid, .inr (.inl ⟨hne, rfl, object, hget, hpending⟩)⟩
  · refine (ends_detach_everywhere h id).mono (fun _ after hafter => ?_) fun _ hafter => hafter
    exact ⟨id, hid, .inr (.inr ⟨hne, hafter⟩)⟩

end WebGl

/-! ## Steps -/

section

variable {objects after : Objects} {current : VertexState} {arrays : VertexArrays} {uniforms : List Binding}
  {records : OrdMap Nat Record} {id : Nat}

theorem Placed.create (h : Placed objects current arrays uniforms records) {native : Nat}
    (hinsert : objects.insert .Buffer native = .ok (id, after)) : Placed after current arrays uniforms records := by
  obtain ⟨hid, hnext, -, object, -, -, -, hentries⟩ := Objects.insert_eq_ok hinsert
  refine ⟨h.counted.insert h.fresh hinsert, h.fresh.insert hinsert, fun key state hget => ?_, ⟨h.bound.1, ?_⟩,
    fun key record hget => ?_⟩
  · have hlt := h.states key state hget
    omega
  · have hlt := h.bound.2
    omega
  · obtain ⟨hlt, hother⟩ := h.captures key record hget
    refine ⟨by omega, ?_, fun found hfound => ?_⟩
    · have hprogram := hother.1
      omega
    · have hne : record.program ≠ id := by
        have hprogram := hother.1
        omega
      rw [hentries, if_neg hne] at hfound
      exact hother.2 found hfound

theorem Placed.delete (h : Placed objects current arrays uniforms records) (hid : id ≠ 0)
    (hdelete : objects.delete id .Buffer = .ok after) : Placed after current arrays uniforms records := by
  obtain ⟨object, hget, hnext, -, hentries⟩ := Objects.delete_buffer_eq_ok hid hdelete
  obtain ⟨hentry, hkind⟩ := Objects.get_eq_ok.mp hget
  refine ⟨h.counted.delete_buffer hid hdelete, h.fresh.delete_buffer hid hdelete, fun key state hstate => ?_,
    ⟨h.bound.1, hnext ▸ h.bound.2⟩, fun key record hrecord => ?_⟩
  · exact hnext ▸ h.states key state hstate
  · obtain ⟨hlt, hother⟩ := h.captures key record hrecord
    refine ⟨hnext ▸ hlt, hnext ▸ hother.1, fun found hfound => ?_⟩
    have hne : record.program ≠ id := fun hsame => hother.2 object (hsame ▸ hentry) hkind
    rw [hentries, if_neg hne] at hfound
    exact hother.2 found hfound

end

section

variable {driver : Driver} {before after : WebGl} {created deleted : List Nat} {event : Event}

/-- What happens elsewhere leaves the buffers. -/
theorem WebGl.Elsewhere.aged (h : Elsewhere before after) (hcounting : before.Counting) :
    WebGl.Aged before.objects after := by
  have hslots : after.current_vertex_state = before.current_vertex_state := by
    rw [current_vertex_state, congrArg attributes h.kept, congrArg element_buffer h.kept]
    rfl
  have hages : Ages before.objects after.objects := by
    refine ⟨fun id object hget => ?_, fun id object hget _ => ?_, h.next⟩
    · by_cases hkind : object.kind = .Buffer
      · exact .inl ⟨object, (h.buffers id object hkind).mp hget, rfl, fun _ => rfl⟩
      · obtain ⟨earlier, hearlier, hsame⟩ | hnew := h.names id object hget
        · exact .inl ⟨earlier, hearlier, hsame, fun hbuffer => absurd hbuffer hkind⟩
        · exact .inr ⟨hkind, hnew⟩
    · obtain ⟨hentry, hkind⟩ := Objects.get_eq_ok.mp hget
      exact ⟨object, Objects.get_eq_ok.mpr ⟨(h.buffers id object hkind).mpr hentry, hkind⟩⟩
  have hcounted : Counted after.objects (places before.current_vertex_state before.vertex_arrays before.indexed_uniforms
      before.transform_feedback.records) := by
    constructor
    · cases hzero : after.objects.entries.get 0 with
      | none => rfl
      | some object =>
        obtain ⟨earlier, hearlier, -⟩ | hnew := h.names 0 object hzero
        · exact absurd (hearlier.symm.trans hcounting.counted.zero) (Option.some_ne_none earlier)
        · exact absurd hcounting.fresh.pos (by omega)
    · intro id object hget
      obtain ⟨hentry, hkind⟩ := Objects.get_eq_ok.mp hget
      exact hcounting.counted.references id object (Objects.get_eq_ok.mpr ⟨(h.buffers id object hkind).mp hentry, hkind⟩)
    · intro id hid hheld
      obtain ⟨object, hget⟩ := hcounting.counted.live id hid hheld
      obtain ⟨hentry, hkind⟩ := Objects.get_eq_ok.mp hget
      exact ⟨object, Objects.get_eq_ok.mpr ⟨(h.buffers id object hkind).mpr hentry, hkind⟩⟩
    · rw [congrArg objects h.kept]
      exact hcounting.counted.exact
  refine ⟨?_, hages⟩
  rw [Counting, hslots, congrArg vertex_arrays h.kept, congrArg indexed_uniforms h.kept, congrArg transform_feedback h.kept]
  exact hcounting.same hages hcounted

/-- No buffer is created or deleted. -/
theorem quiet_step (hcreated : event.created = none) (hdeleted : event.deleted = none)
    (haged : WebGl.Aged before.objects after) (hknown : Known before.objects created deleted) :
    after.Counting ∧ Known after.objects (created ++ event.created.toList) (deleted ++ event.deleted.toList) := by
  rw [hcreated, hdeleted, Option.toList_none, List.append_nil, List.append_nil]
  exact ⟨haged.1, hknown.ages haged.2⟩

theorem Event.created_of_ne {c : Command} {bytes : Option (List UInt8)} {result : Result Reply} (h : c.op ≠ .createBuffer) :
    (Event.command c bytes result).created = none := by
  cases result with
  | error error => rfl
  | ok reply =>
    cases reply with
    | Null => rfl
    | bytes data => rfl
    | name id => exact if_neg h

theorem create_step {c : Command} {bytes : Option (List UInt8)} {result : Result Reply} (hop : c.op = .createBuffer)
    (hstep : WebGl.dispatch driver c bytes before = (result, after)) (hcounting : before.Counting)
    (hknown : Known before.objects created deleted) :
    after.Counting ∧ Known after.objects (created ++ (Event.command c bytes result).created.toList)
      (deleted ++ (Event.command c bytes result).deleted.toList) := by
  have hdeleted : (Event.command c bytes result).deleted = none := by
    cases result with
    | ok reply => exact if_neg (by rw [hop]; decide)
    | error error => rfl
  rw [WebGl.dispatch, hop] at hstep
  obtain ⟨reply, rfl, id, objects, rfl, hinsert, rfl⟩ | ⟨error, rfl, rfl⟩ := (WebGl.ends_create_buffer before).run hstep
  · have hcreated : (Event.command c bytes (.ok (.name id))).created = some id := if_pos hop
    rw [hcreated, hdeleted, Option.toList_none, Option.toList_some, List.append_nil]
    exact ⟨hcounting.create hinsert, hknown.create hcounting.fresh hinsert⟩
  · exact quiet_step rfl hdeleted ⟨hcounting, .refl _⟩ hknown

theorem delete_step {c : Command} {bytes : Option (List UInt8)} {result : Result Reply} (hop : c.op = .deleteBuffer)
    (hstep : WebGl.dispatch driver c bytes before = (result, after)) (hcounting : before.Counting)
    (hknown : Known before.objects created deleted) :
    after.Counting ∧ Known after.objects (created ++ (Event.command c bytes result).created.toList)
      (deleted ++ (Event.command c bytes result).deleted.toList) := by
  have haged : WebGl.Aged before.objects before := ⟨hcounting, .refl _⟩
  have hcreated : (Event.command c bytes result).created = none := Event.created_of_ne (by rw [hop]; decide)
  rw [WebGl.dispatch, hop] at hstep
  obtain ⟨reply, rfl, id, hid, hcases⟩ | ⟨error, rfl, hafter⟩ := (WebGl.ends_delete_buffer haged c).run hstep
  · have hdeleted : (Event.command c bytes (.ok reply)).deleted = if id ≠ 0 then some id else none := by
      rw [Event.deleted, if_pos hop, hid]
      by_cases hzero : id = 0
      · rw [if_neg (not_not.mpr hzero), hzero]
        rfl
      · rw [if_pos hzero]
        exact if_pos (decide_eq_true hzero)
    obtain ⟨hzero, rfl⟩ | ⟨hne, rfl, object, hget, hpending⟩ | ⟨hne, middle, objects, hmiddle, hdelete, rfl⟩ := hcases
    · rw [if_neg (not_not.mpr hzero)] at hdeleted
      exact quiet_step hcreated hdeleted haged hknown
    · rw [hcreated, hdeleted, if_pos hne, Option.toList_none, Option.toList_some, List.append_nil]
      exact ⟨hcounting, hknown.again ((hknown.present id object hget).2.mp hpending)⟩
    · rw [hcreated, hdeleted, if_pos hne, Option.toList_none, Option.toList_some, List.append_nil]
      exact ⟨hmiddle.1.delete hne hdelete, (hknown.ages hmiddle.2).delete hne hdelete⟩
  · exact quiet_step hcreated rfl hafter hknown

theorem counting_step (hstep : Step driver before event after) (hcounting : before.Counting)
    (hknown : Known before.objects created deleted) :
    after.Counting ∧ Known after.objects (created ++ event.created.toList) (deleted ++ event.deleted.toList) := by
  have haged : WebGl.Aged before.objects before := ⟨hcounting, .refl _⟩
  cases event with
  | elsewhere => exact quiet_step rfl rfl (WebGl.Elsewhere.aged hstep hcounting) hknown
  | enable_vertex_arrays =>
    obtain rfl : after = (WebGl.enable_vertex_arrays driver before).2 := hstep
    exact quiet_step rfl rfl (WebGl.keeps_enable_vertex_arrays.after haged) hknown
  | command c bytes result =>
    by_cases hcreate : c.op = .createBuffer
    · exact create_step hcreate hstep hcounting hknown
    by_cases hdelete : c.op = .deleteBuffer
    · exact delete_step hdelete hstep hcounting hknown
    have hrun : WebGl.dispatch driver c bytes before = (result, after) := hstep
    have hkept : Method.Keeps (WebGl.Aged before.objects) (WebGl.dispatch driver c bytes) :=
      WebGl.keeps_dispatch c bytes hcreate hdelete
    have hafter := hkept.after haged
    rw [hrun] at hafter
    refine quiet_step (Event.created_of_ne hcreate) ?_ hafter hknown
    cases result with
    | ok reply => exact if_neg hdelete
    | error error => rfl

end

/-! ## Whole runs -/

/-- How often the slots and ranges of a context name a buffer. -/
def WebGl.held (context : WebGl) (id : Nat) : Nat :=
  places context.current_vertex_state context.vertex_arrays context.indexed_uniforms context.transform_feedback.records id

section

variable {driver : Driver} {api : ApiVersion} {core : Option CoreEntries} {extensions : Extensions}
  {slots uniforms captures names : Nat} {events : List Event} {context : WebGl}

theorem counting_new : (WebGl.new api core extensions slots uniforms captures names).Counting := by
  have hzero (items : Nat) {other : Nat} (hother : other ≠ 0) : (List.replicate items 0).count other = 0 := by
    rw [List.count_replicate]
    exact if_neg fun h => hother (beq_iff_eq.mp h).symm
  refine ⟨⟨rfl, fun id object hget => ?_, fun id hid hheld => absurd ?_ hheld, rfl⟩, ⟨Nat.succ_pos names, ?_⟩, ?_,
    ⟨fun _ => rfl, Nat.succ_pos names⟩, fun key record hget => ?_⟩
  · cases (Objects.get_eq_ok.mp hget).1
  · have hrecords := places_new_record (WebGl.new api core extensions slots uniforms captures names).current_vertex_state
      ⟨0, 0, .empty⟩ (List.replicate uniforms .default) .empty (OrdMap.get_empty 0) captures hid
    refine hrecords.trans ?_
    rw [places, VertexState.slots, WebGl.current_vertex_state, WebGl.new, List.map_replicate, List.map_replicate,
      List.count_cons_of_ne hid.symm]
    exact congrArg₂ (fun slots ranges => slots + 0 + ranges + 0) (hzero slots hid) (hzero uniforms hid)
  · intro id object hget
    cases hget
  · intro key state hget
    cases hget
  · have hget : (OrdMap.empty.insert 0 (Record.new captures)).get key = some record := hget
    rw [OrdMap.get_insert] at hget
    by_cases hkey : key = 0
    · rw [if_pos hkey] at hget
      obtain rfl := Option.some.inj hget
      refine ⟨hkey ▸ Nat.succ_pos names, Nat.succ_pos names, fun object hobject => ?_⟩
      cases hobject
    · rw [if_neg hkey] at hget
      cases hget

theorem counting_run (h : Run (Step driver) (WebGl.new api core extensions slots uniforms captures names) events context) :
    context.Counting ∧ Known context.objects (events.filterMap Event.created) (events.filterMap Event.deleted) := by
  refine h.historyInvariant (fun events context => context.Counting ∧
    Known context.objects (events.filterMap Event.created) (events.filterMap Event.deleted)) ⟨counting_new, ?_⟩ ?_
  · exact ⟨fun id object hget => (by cases (Objects.get_eq_ok.mp hget).1), fun _ hid => (by cases hid),
      fun _ hid => (by cases hid), fun _ hid => (by cases hid)⟩
  · intro events before event after hbefore hstep
    have hafter := counting_step hstep hbefore.1 hbefore.2
    have hsnoc (f : Event → Option Nat) : (events ++ [event]).filterMap f = events.filterMap f ++ (f event).toList := by
      rw [List.filterMap_append]
      cases h : f event with
      | none => rw [List.filterMap_cons_none h, List.filterMap_nil, Option.toList_none]
      | some id => rw [List.filterMap_cons_some h, List.filterMap_nil, Option.toList_some]
    rw [hsnoc, hsnoc]
    exact hafter

/-- Every buffer counts what names it, no release is one too many, a buffer is gone exactly when it is
deleted and nothing names it, and nothing names a buffer that is gone. -/
theorem buffer_lifetime
    (h : Run (Step driver) (WebGl.new api core extensions slots uniforms captures names) events context) :
    (∀ id object, context.objects.get id .Buffer = .ok object →
        object.references = context.held id ∧ id ∈ events.filterMap Event.created) ∧
      context.objects.saturated = false ∧
      (∀ id ∈ events.filterMap Event.created, (∃ object, context.objects.get id .Buffer = .ok object) ↔
        ¬(id ∈ events.filterMap Event.deleted ∧ context.held id = 0)) ∧
      ∀ id, id ≠ 0 → context.held id ≠ 0 → ∃ object, context.objects.get id .Buffer = .ok object := by
  obtain ⟨⟨hcounted, -, -, -, -⟩, hknown⟩ := counting_run h
  refine ⟨fun id object hget => ⟨(hcounted.references id object hget).1, (hknown.present id object hget).1⟩,
    hcounted.exact, fun id hid => ⟨?_, fun hnot => ?_⟩, fun id hid hheld => hcounted.live id hid hheld⟩
  · rintro ⟨object, hget⟩ ⟨hdeleted, hnone⟩
    obtain ⟨hreferences, hlast⟩ := hcounted.references id object hget
    exact hlast ((hknown.present id object hget).2.mpr hdeleted) (hreferences.trans hnone)
  · by_cases hdeleted : id ∈ events.filterMap Event.deleted
    · exact hcounted.live id (Nat.ne_of_gt (hknown.below id hid).1) fun hnone => hnot ⟨hdeleted, hnone⟩
    · exact hknown.kept id hid hdeleted

end

/-- A driver without programs. -/
def idle : Driver :=
  { generate := fun _ => ⟨1, Nat.one_ne_zero⟩
    link_status := fun _ => 0
    active_attributes := fun _ => .ok 0
    active_attribute := fun _ _ => Err gl.INVALID_VALUE
    active_uniform_blocks := fun _ => 0
    uniform_block_binding := fun _ _ => 0
    uniform_alignment := 1
    transform_varyings := fun _ => 0
    transform_buffer_mode := fun _ => 0
    transform_name_length := fun _ => 0
    transform_varying := fun _ _ => ⟨0, 0, 0⟩
    map_buffer := fun _ => .ok ()
    draw_result := fun _ => .ok ()
    captured := fun _ _ contents => contents
    packed := fun _ contents => contents }

def withoutExtensions : Extensions := ⟨false, false, false, false, false, false, false, false, false⟩

/-- A buffer is created, bound for indices and deleted. -/
def shortLived : List Event × WebGl :=
  issue idle [(⟨.createBuffer, [], [], []⟩, none), (⟨.bindBuffer, [0x8893, 1], [], []⟩, none),
    (⟨.deleteBuffer, [1], [], []⟩, none)] (WebGl.new .One none withoutExtensions 8 0 0 0)

theorem buffer_lifetime_short : 1 ∈ shortLived.1.filterMap Event.created ∧ shortLived.2.objects.saturated = false ∧
    ¬∃ object, shortLived.2.objects.get 1 .Buffer = .ok object := by
  obtain ⟨-, hexact, hgone, -⟩ := buffer_lifetime (run_issue idle _ (WebGl.new .One none withoutExtensions 8 0 0 0))
  exact ⟨by decide, hexact, fun hpresent => (hgone 1 (by decide)).mp hpresent ⟨by decide, by decide⟩⟩

end BetterWebBrowser.Webgl
