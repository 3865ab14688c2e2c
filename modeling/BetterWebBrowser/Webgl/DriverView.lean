import BetterWebBrowser.Webgl.Draws

/-!
# A context as the driver has it

Copies of buffers and cached answers come and go; the view of a context has what the driver holds
instead. In a context whose copies and caches are right, the largest index and the mask of the
slots are functions of the view.
-/

namespace BetterWebBrowser.Webgl

open Framework
open targets

/-! ## The view -/

namespace WebGl

/-- The element buffer of this name can be read back. -/
def readable (driver : Driver) (context : WebGl) (id : Nat) (object : Object) : Bool :=
  decide (context.api = .Two) && context.core.isSome &&
    (context.validate_transform_buffer_use gl.ELEMENT_ARRAY_BUFFER id).isOk &&
    (driver.map_buffer object.native).isOk

/-- The object with the driver's bytes; its copy counts as valid if it is or can be made so. -/
def settledObject (driver : Driver) (context : WebGl) (id : Nat) (object : Object) : Object :=
  { object with
    bytes := object.contents
    buffer_mirror_valid := object.buffer_mirror_valid || context.readable driver id object }

/-- The context without its copies and caches. -/
def settled (driver : Driver) (context : WebGl) : WebGl :=
  { context with
    objects := { context.objects with entries := context.objects.entries.mapValues (context.settledObject driver) }
    index_cache := []
    attribute_reflection := [] }

/-- Copies of buffers are true, and so is what is cached. -/
structure Coherent (driver : Driver) (context : WebGl) : Prop where
  length : ∀ id object, context.objects.get id .Buffer = .ok object →
    object.bytes.length = object.contents.length
  fits : ∀ id object, context.objects.get id .Buffer = .ok object → object.bytes.length ≤ MAX_UPLOAD_BYTES
  mirror : ∀ id object, context.objects.get id .Buffer = .ok object →
    object.buffer_mirror_valid = true → object.bytes = object.contents
  ranges : ∀ entry ∈ context.index_cache, ∀ object,
    context.objects.get entry.key.owner .Buffer = .ok object →
      object.buffer_mirror_valid = true ∧
        maximum ((object.bytes.drop entry.key.offset).take (entry.key.count * entry.key.width)) entry.key.width
          context.api = .ok entry.maximum
  inputs : ∀ entry ∈ context.attribute_reflection, ∀ object,
    context.objects.get entry.owner .Program = .ok object → object.generation = entry.generation →
      AttributeReflection.scan driver object.native context.attributes.length = .ok entry.active

variable {driver : Driver} {context : WebGl}

theorem get_settled (driver : Driver) (context : WebGl) (id : Nat) (kind : Kind) :
    (context.settled driver).objects.get id kind =
      (context.objects.get id kind).map (context.settledObject driver id) := by
  rw [settled, Objects.get, Objects.get, OrdMap.get_mapValues]
  cases context.objects.entries.get id with
  | none => rfl
  | some object =>
    show (if object.kind = kind then _ else _) = _
    by_cases h : object.kind = kind
    · rw [if_pos h]
      simp only [if_pos h]
      rfl
    · rw [if_neg h]
      simp only [if_neg h]
      rfl

theorem api_eq_of_settled {after : WebGl} (h : settled driver after = settled driver context) :
    after.api = context.api := by
  have happ : (settled driver after).api = (settled driver context).api := congrArg WebGl.api h
  exact happ

theorem beyond_limit_eq_of_settled {after : WebGl} (h : settled driver after = settled driver context)
    (value : Option Nat) : after.beyond_limit value = context.beyond_limit value := by
  have hlimit : (settled driver after).beyond_limit value = (settled driver context).beyond_limit value :=
    congrArg (fun view => WebGl.beyond_limit view value) h
  exact hlimit

theorem bound_record_settled : (context.settled driver).bound_record = context.bound_record := rfl

theorem validate_transform_draw_settled :
    (context.settled driver).validate_transform_draw driver = context.validate_transform_draw driver := by
  have hprogram := get_settled driver context context.program .Program
  rw [validate_transform_draw, validate_transform_draw]
  show (if context.api = .One then _ else _) = _
  by_cases hapi : context.api = .One
  · rw [if_pos hapi, if_pos hapi]
  · rw [if_neg hapi, if_neg hapi, bound_record_settled]
    show _ >>= _ = _ >>= _
    congr 1
    funext record
    congr 1
    funext _
    congr 1
    funext _
    show (context.settled driver).objects.get context.program .Program >>= _ = _
    rw [hprogram]
    cases context.objects.get context.program .Program with
    | error error => rfl
    | ok object => rfl

theorem validate_program_settled :
    (context.settled driver).validate_program driver = context.validate_program driver := by
  rw [validate_program, validate_program, validate_transform_draw_settled]
  congr 1
  funext _
  show (context.settled driver).objects.get context.program .Program >>= _ = _
  rw [get_settled]
  cases context.objects.get context.program .Program with
  | error error => rfl
  | ok object => rfl

theorem prepare_transform_capture_settled (mode : Nat) (indexed : Bool) (draws : List (Nat × Nat)) :
    (context.settled driver).prepare_transform_capture mode indexed draws =
      context.prepare_transform_capture mode indexed draws := rfl

/-! ## What leaves the view as it is -/

theorem update_eq_of_get {objects : Objects} {id : Nat} {kind : Kind} {object : Object}
    (h : objects.get id kind = .ok object) (write : Object → Object) :
    objects.update id write = { objects with entries := objects.entries.insert id (write object) } := by
  rw [Objects.update, (Objects.get_eq_ok.mp h).1]

theorem settled_write {id : Nat} {kind : Kind} {object : Object} {write : Object → Object}
    (hget : context.objects.get id kind = .ok object)
    (hwrite : context.settledObject driver id (write object) = context.settledObject driver id object) :
    settled driver { context with objects := context.objects.update id write } = settled driver context := by
  rw [update_eq_of_get hget]
  have hentries : (context.objects.entries.insert id (write object)).mapValues (context.settledObject driver) =
      context.objects.entries.mapValues (context.settledObject driver) := by
    apply OrdMap.ext_get
    intro other
    rw [OrdMap.get_mapValues, OrdMap.get_mapValues, OrdMap.get_insert]
    by_cases hother : other = id
    · rw [if_pos hother, hother, (Objects.get_eq_ok.mp hget).1]
      exact congrArg some hwrite
    · rw [if_neg hother]
  show ({ context with
    objects := { context.objects with
      entries := (context.objects.entries.insert id (write object)).mapValues (context.settledObject driver) }
    index_cache := []
    attribute_reflection := [] } : WebGl) = _
  rw [hentries]
  rfl

theorem Coherent.with_ranges (h : Coherent driver context) {entries : List IndexCache.Entry}
    (hentries : ∀ entry ∈ entries, entry ∈ context.index_cache) :
    Coherent driver { context with index_cache := entries } :=
  { h with ranges := fun entry hmem => h.ranges entry (hentries entry hmem) }

theorem Coherent.with_inputs (h : Coherent driver context) {entries : List AttributeReflection.Entry}
    (hentries : ∀ entry ∈ entries, entry ∈ context.attribute_reflection) :
    Coherent driver { context with attribute_reflection := entries } :=
  { h with inputs := fun entry hmem => h.inputs entry (hentries entry hmem) }

theorem mem_remove {owner : Nat} {entries : List IndexCache.Entry} {entry : IndexCache.Entry} :
    entry ∈ IndexCache.remove owner entries ↔ entry ∈ entries ∧ entry.key.owner ≠ owner := by
  rw [IndexCache.remove, List.mem_filter, decide_eq_true_eq]

/-! ## Reading back -/

theorem get_write_self {objects : Objects} {id : Nat} {kind : Kind} {object : Object}
    (hget : objects.get id kind = .ok object) {write : Object → Object}
    (hkind : (write object).kind = object.kind) :
    (objects.update id write).get id kind = .ok (write object) := by
  rw [update_eq_of_get hget, Objects.get_eq_ok]
  exact ⟨OrdMap.get_insert_self _ _ _, hkind.trans (Objects.get_eq_ok.mp hget).2⟩

theorem get_write_ne {objects : Objects} {id other : Nat} {kind : Kind} {write : Object → Object}
    (hne : other ≠ id) : (objects.update id write).get other kind = objects.get other kind := by
  rw [Objects.update]
  cases hentry : objects.entries.get id with
  | none => rfl
  | some object =>
    show Objects.get { objects with entries := objects.entries.insert id (write object) } other kind = _
    rw [Objects.get, Objects.get, OrdMap.get_insert_ne _ _ hne]

/-- An object that was read back, in a table. -/
private theorem get_refreshed {objects : Objects} {id : Nat} {buffer : Object}
    (hget : objects.get id .Buffer = .ok buffer) {other : Nat} {kind : Kind} {object : Object}
    (h : (objects.update id fun object =>
      { object with bytes := buffer.contents, buffer_mirror_valid := true }).get other kind = .ok object) :
    (other = id ∧ kind = .Buffer ∧
        object = { buffer with bytes := buffer.contents, buffer_mirror_valid := true }) ∨
      other ≠ id ∧ objects.get other kind = .ok object := by
  by_cases hother : other = id
  · subst hother
    have hkinds : objects.get other kind = .ok buffer := by
      obtain ⟨hentry, hkind⟩ := Objects.get_eq_ok.mp h
      rw [update_eq_of_get hget] at hentry
      rw [OrdMap.get_insert_self] at hentry
      cases hentry
      exact Objects.get_eq_ok.mpr ⟨(Objects.get_eq_ok.mp hget).1, hkind⟩
    have hbuffer := (Objects.get_eq_ok.mp hget).2
    have hkind := (Objects.get_eq_ok.mp hkinds).2
    left
    refine ⟨rfl, hkind.symm.trans hbuffer, ?_⟩
    rw [get_write_self hkinds rfl] at h
    exact (Except.ok.inj h).symm
  · rw [get_write_ne hother] at h
    exact .inr ⟨hother, h⟩

/-- The context after a buffer was read back whole. -/
def refreshed (context : WebGl) (id : Nat) (buffer : Object) : WebGl :=
  { context with
    index_cache := IndexCache.remove id context.index_cache
    objects := context.objects.update id fun object =>
      { object with bytes := buffer.contents, buffer_mirror_valid := true } }

theorem Coherent.refreshed (h : Coherent driver context) {id : Nat} {buffer : Object}
    (hget : context.objects.get id .Buffer = .ok buffer) :
    Coherent driver (context.refreshed id buffer) := by
  refine ⟨?_, ?_, ?_, ?_, ?_⟩
  · intro other object hobject
    obtain ⟨rfl, -, rfl⟩ | ⟨-, hobject⟩ := get_refreshed hget hobject
    · rfl
    · exact h.length other object hobject
  · intro other object hobject
    obtain ⟨rfl, -, rfl⟩ | ⟨-, hobject⟩ := get_refreshed hget hobject
    · have hlength := h.length _ _ hget
      have hfits := h.fits _ _ hget
      show buffer.contents.length ≤ _
      omega
    · exact h.fits other object hobject
  · intro other object hobject hvalid
    obtain ⟨rfl, -, rfl⟩ | ⟨-, hobject⟩ := get_refreshed hget hobject
    · rfl
    · exact h.mirror other object hobject hvalid
  · intro entry hmem object hobject
    obtain ⟨hmem, howner⟩ := mem_remove.mp hmem
    obtain ⟨heq, -, -⟩ | ⟨-, hobject⟩ := get_refreshed hget hobject
    · exact absurd heq howner
    · exact h.ranges entry hmem object hobject
  · intro entry hmem object hobject
    obtain ⟨-, hkind, -⟩ | ⟨-, hobject⟩ := get_refreshed hget hobject
    · cases hkind
    · exact h.inputs entry hmem object hobject

theorem settled_refreshed {id : Nat} {buffer : Object} (hget : context.objects.get id .Buffer = .ok buffer)
    (hreadable : context.readable driver id buffer = true) :
    settled driver (context.refreshed id buffer) = settled driver context := by
  have hwrite : context.settledObject driver id
      { buffer with bytes := buffer.contents, buffer_mirror_valid := true } =
        context.settledObject driver id buffer := by
    rw [settledObject, settledObject, hreadable, Bool.or_true]
    rfl
  exact settled_write hget hwrite

/-- The readback of an element buffer whose copy may be stale. -/
private theorem read_buffer_run (driver : Driver) {buffer : Object} (hget : context.objects.get context.element_buffer .Buffer = .ok buffer)
    (hvalid : buffer.buffer_mirror_valid = false) (hpositive : 0 < buffer.bytes.length)
    (hlength : buffer.bytes.length = buffer.contents.length) (hfits : buffer.bytes.length ≤ MAX_UPLOAD_BYTES) :
    (context.readable driver context.element_buffer buffer = true ∧
      read_buffer driver (readElements buffer.bytes.length) context =
        (.ok buffer.contents, context.refreshed context.element_buffer buffer)) ∨
    context.readable driver context.element_buffer buffer = false ∧ ∃ error,
      read_buffer driver (readElements buffer.bytes.length) context = (.error error, context) := by
  have hsmall : buffer.bytes.length < 2 ^ 63 := hfits.trans_lt (by decide)
  have htarget : (readElements buffer.bytes.length).u 0 = .ok gl.ELEMENT_ARRAY_BUFFER :=
    Command.u_of_get rfl (by decide)
  have hoffset : nonnegative (readElements buffer.bytes.length) 1 = .ok 0 := nonnegative_of_get rfl (by decide)
  have hsize : nonnegative (readElements buffer.bytes.length) 2 = .ok buffer.bytes.length :=
    nonnegative_of_get rfl hsmall
  have hbound : context.bound_buffer gl.ELEMENT_ARRAY_BUFFER = .ok context.element_buffer := by
    rw [bound_buffer, if_neg (by decide), if_pos rfl]
    show context.objects.get context.element_buffer .Buffer >>= _ = _
    rw [hget]
    rfl
  have hrange : range_end 0 buffer.bytes.length buffer.bytes.length = .ok buffer.bytes.length := by
    rw [range_end, Nat.zero_add, if_pos ⟨hsmall.trans (by decide), Nat.le_refl _⟩]
  have hcontents : (buffer.contents.drop 0).take buffer.bytes.length = buffer.contents := by
    rw [List.drop_zero, hlength, List.take_length]
  rw [read_buffer, readable]
  simp only [Method.run_get_bind, Method.run_failIf_bind, Method.run_ofExcept_bind, htarget, hbound,
    hoffset, hsize, hget, hrange]
  by_cases hapi : context.api = .Two
  · rw [if_neg (not_not.mpr hapi), if_neg (fun h => absurd h.1 (by decide)), if_neg (Nat.not_lt.mpr hfits),
      if_neg (by omega), if_neg (by rw [hvalid]; exact Bool.false_ne_true), hapi]
    cases huse : context.validate_transform_buffer_use gl.ELEMENT_ARRAY_BUFFER context.element_buffer with
    | error error => exact .inr ⟨by simp [Except.isOk, Except.toBool], error, rfl⟩
    | ok _ =>
      rw [read_native]
      simp only [Method.run_get_bind, Method.run_ofExcept_bind]
      cases hcore : context.core with
      | none => exact .inr ⟨by simp, _, rfl⟩
      | some core =>
        cases hmap : driver.map_buffer buffer.native with
        | error error => exact .inr ⟨by simp [Except.isOk, Except.toBool], error, rfl⟩
        | ok _ =>
          left
          refine ⟨by simp [Except.isOk, Except.toBool], ?_⟩
          simp only [orError_some]
          rw [keep_readback, if_pos ⟨rfl, rfl⟩, hcontents]
          rfl
  · rw [if_pos hapi]
    exact .inr ⟨by simp [hapi], _, rfl⟩

/-- Its copy is true after `refresh`, or the view says that it cannot be. -/
theorem refresh_run (h : Coherent driver context) {buffer : Object}
    (hget : context.objects.get context.element_buffer .Buffer = .ok buffer) (hpositive : 0 < buffer.bytes.length) :
    ((context.settledObject driver context.element_buffer buffer).buffer_mirror_valid = true ∧
      ∃ after object, refresh driver context.element_buffer buffer context = (.ok (), after) ∧
        settled driver after = settled driver context ∧ Coherent driver after ∧
        after.objects.get context.element_buffer .Buffer = .ok object ∧
        object.buffer_mirror_valid = true ∧ object.bytes = buffer.contents) ∨
    (context.settledObject driver context.element_buffer buffer).buffer_mirror_valid = false ∧
      ∃ error after, refresh driver context.element_buffer buffer context = (.error error, after) ∧
        settled driver after = settled driver context ∧ Coherent driver after := by
  rw [refresh]
  cases hvalid : buffer.buffer_mirror_valid with
  | true =>
    left
    rw [if_pos rfl]
    refine ⟨by rw [settledObject, hvalid, Bool.true_or], context, buffer, rfl, rfl, h, hget, hvalid, ?_⟩
    exact h.mirror _ _ hget hvalid
  | false =>
    rw [if_neg Bool.false_ne_true]
    let forgotten : WebGl :=
      { context with index_cache := IndexCache.remove context.element_buffer context.index_cache }
    have hforgotten : Coherent driver forgotten := h.with_ranges fun entry hmem => (mem_remove.mp hmem).1
    have hflag : (context.settledObject driver context.element_buffer buffer).buffer_mirror_valid =
        context.readable driver context.element_buffer buffer := by
      rw [settledObject, hvalid, Bool.false_or]
    have hgot : forgotten.objects.get forgotten.element_buffer .Buffer = .ok buffer := hget
    obtain ⟨hreadable, hrun⟩ | ⟨hreadable, error, hrun⟩ := read_buffer_run driver hgot hvalid
      hpositive (h.length _ _ hget) (h.fits _ _ hget)
    · left
      refine ⟨hflag.trans hreadable, forgotten.refreshed context.element_buffer buffer,
        { buffer with bytes := buffer.contents, buffer_mirror_valid := true }, ?_, ?_, hforgotten.refreshed hgot,
        get_write_self hget rfl, rfl, rfl⟩
      · rw [Method.run_bind, forget_ranges]
        show (read_buffer driver _ >>= _) forgotten = _
        rw [Method.run_bind, hrun]
        rfl
      · exact settled_refreshed hgot hreadable
    · right
      refine ⟨hflag.trans hreadable, error, forgotten, ?_, rfl, hforgotten⟩
      rw [Method.run_bind, forget_ranges]
      show (read_buffer driver _ >>= _) forgotten = _
      rw [Method.run_bind, hrun]

end WebGl

end BetterWebBrowser.Webgl
