import BetterWebBrowser.Webgl.MirrorRuns

/-!
# The room of a capture

A capture counts its room once, when it begins, and every draw is counted against it. The commands that
change the storage of buffers, the captures and the draws leave the lengths that the room was counted from.
-/

namespace BetterWebBrowser.Webgl

open Framework
open targets

/-! ## Lengths -/

namespace Objects

/-- The copy of every buffer has the length of its storage. -/
def Sized (objects : Objects) : Prop :=
  ∀ id object, objects.get id .Buffer = .ok object → object.bytes.length = object.contents.length

/-- No buffer changes its length. -/
def Level (before after : Objects) : Prop :=
  ∀ id object, after.get id .Buffer = .ok object → ∃ earlier, before.get id .Buffer = .ok earlier ∧
    object.bytes.length = earlier.bytes.length ∧ object.contents.length = earlier.contents.length

variable {objects before after last : Objects}

theorem Level.refl (objects : Objects) : Level objects objects := fun _ object hget => ⟨object, hget, rfl, rfl⟩

theorem Level.trans (h : Level before after) (hnext : Level after last) : Level before last := by
  intro id object hget
  obtain ⟨middle, hmiddle, hbytes, hcontents⟩ := hnext id object hget
  obtain ⟨earlier, hearlier, hbytes', hcontents'⟩ := h id middle hmiddle
  exact ⟨earlier, hearlier, hbytes.trans hbytes', hcontents.trans hcontents'⟩

theorem Level.sized (h : Level before after) (hbefore : Sized before) : Sized after := by
  intro id object hget
  obtain ⟨earlier, hearlier, hbytes, hcontents⟩ := h id object hget
  rw [hbytes, hcontents, hbefore id earlier hearlier]

theorem Still.level (h : Still before after) : Level before after := by
  intro id object hget
  obtain ⟨earlier, hearlier, hbytes, hcontents, -⟩ := h.kept id object hget
  exact ⟨earlier, hearlier, by rw [hbytes], by rw [hcontents]⟩

/-- A write that leaves the length of the buffer. -/
theorem level_update {id : Nat} {write : Object → Object} (hkind : ∀ object, (write object).kind = object.kind)
    (hlength : ∀ object, objects.get id .Buffer = .ok object → (write object).bytes.length = object.bytes.length ∧
      (write object).contents.length = object.contents.length) : Level objects (objects.update id write) := by
  intro other object hget
  obtain ⟨rfl, earlier, hearlier, rfl⟩ | ⟨-, hget⟩ := get_update_cases hkind hget
  · exact ⟨earlier, hearlier, hlength earlier hearlier⟩
  · exact ⟨object, hget, rfl, rfl⟩

end Objects

/-! ## What fits -/

/-- What was asked of a capture: the bytes of a vertex in each binding, and its draws so far. -/
structure Progress where
  strides : List Nat
  draws : List (Nat × Nat)
deriving DecidableEq, Repr

/-- The vertices that the draws leave. -/
def Progress.vertices (progress : Progress) (primitive : Nat) : Nat :=
  (progress.draws.map (Ledger.complete primitive)).sum

/-- The draws fit what was counted when the capture began, and that fits the buffers. -/
structure Fits (objects : Objects) (record : Record) (progress : Progress) : Prop where
  within : record.ledger.written ≤ record.ledger.capacity
  counted : ∃ primitive, Ledger.primitive record.ledger.mode = .ok primitive ∧
    record.ledger.written = progress.vertices primitive
  room : ∀ (index stride : Nat) (binding : Binding) (object : Object), progress.strides[index]? = some stride →
    record.bindings[index]? = some binding → binding.id ≠ 0 → objects.get binding.id .Buffer = .ok object →
      record.ledger.capacity * stride ≤ WebGl.available binding object.bytes.length

theorem WebGl.available_mono (binding : Binding) {length longer : Nat} (h : length ≤ longer) :
    available binding length ≤ available binding longer := by
  rw [available, available]
  cases binding.size with
  | none => simp only; omega
  | some size => simp only; omega

/-- What is available of a buffer is inside the buffer and inside the range. -/
theorem WebGl.inside_of_available {binding : Binding} {needed length : Nat} (h : needed ≤ available binding length) :
    (needed = 0 ∨ binding.offset + needed ≤ length) ∧ ∀ size ∈ binding.size, needed ≤ size := by
  rw [available] at h
  cases hsize : binding.size with
  | none =>
    simp only [hsize] at h
    simp only [Option.mem_def, reduceCtorEq, false_implies, implies_true, and_true]
    omega
  | some size =>
    simp only [hsize] at h
    simp only [Option.mem_some_iff, forall_eq']
    omega

/-- A capture that goes on in buffers that are no shorter. -/
theorem Fits.carry {before after : Objects} {earlier record : Record} {progress : Progress}
    (h : Fits before earlier progress) (hledger : record.ledger = earlier.ledger)
    (hbindings : ∀ (index : Nat) (binding : Binding), record.bindings[index]? = some binding →
      binding.id = 0 ∨ earlier.bindings[index]? = some binding)
    (hlengths : ∀ binding ∈ record.bindings, binding.id ≠ 0 → ∀ object, after.get binding.id .Buffer = .ok object →
      ∃ found, before.get binding.id .Buffer = .ok found ∧ found.bytes.length ≤ object.bytes.length) :
    Fits after record progress := by
  constructor
  · rw [hledger]
    exact h.within
  · rw [hledger]
    exact h.counted
  · intro index stride binding object hstride hbinding hid hget
    obtain hzero | hearlier := hbindings index binding hbinding
    · exact absurd hzero hid
    · obtain ⟨found, hfound, hlength⟩ := hlengths binding (List.mem_of_getElem? hbinding) hid object hget
      rw [hledger]
      exact (h.room index stride binding found hstride hearlier hid hfound).trans (WebGl.available_mono binding hlength)

namespace WebGl

variable {driver : Driver} {start context after : WebGl} {c : Command} {bytes : Option (List UInt8)}

/-- The buffers are sized and every active capture fits. -/
structure Fitted (context : WebGl) (log : Nat → Progress) : Prop where
  sized : context.objects.Sized
  captures : ∀ key record, context.transform_feedback.records.get key = some record → record.active = true →
    Fits context.objects record (log key)

/-! ## Commands that change no length -/

/-- The captures are as they were, and so are the lengths of the buffers. -/
structure Alike (start context : WebGl) : Prop where
  api : context.api = start.api
  feedback : context.transform_feedback = start.transform_feedback
  sized : context.objects.Sized
  level : Objects.Level start.objects context.objects

theorem Alike.refl (h : context.objects.Sized) : Alike context context := ⟨rfl, rfl, h, .refl _⟩

theorem Alike.update (h : Alike start context) {id : Nat} {write : Object → Object}
    (hkind : ∀ object, (write object).kind = object.kind)
    (hlength : ∀ object, context.objects.get id .Buffer = .ok object → (write object).bytes.length = object.bytes.length ∧
      (write object).contents.length = object.contents.length) :
    Alike start { context with objects := context.objects.update id write } := by
  have hlevel := Objects.level_update hkind hlength
  exact ⟨h.api, h.feedback, hlevel.sized h.sized, h.level.trans hlevel⟩

/-- Alike, and the driver drew nothing. -/
structure Asked (start context : WebGl) : Prop extends Alike start context where
  calls : context.calls = start.calls

theorem indifferent_asked (start : WebGl) : Indifferent (Asked start) := by
  constructor
  · exact fun _ _ _ h => ⟨⟨h.api, h.feedback, h.sized, h.level⟩, h.calls⟩
  · intro context id object h hget
    refine ⟨h.toAlike.update (fun _ => rfl) fun found hfound => ⟨?_, rfl⟩, h.calls⟩
    obtain rfl := Except.ok.inj (hget.symm.trans hfound)
    simp [h.sized id object hget]

theorem alike_buffer_sub_data (hsized : context.objects.Sized) :
    Method.Ends (buffer_sub_data c bytes) context (fun _ => Alike context) (Alike context) := by
  refine Method.ends_read_bind (.refl hsized) fun (id, offset, data) hcheck => ?_
  obtain ⟨_, object, -, -, -, -, -, hget, hfits⟩ := check_sub_data_eq_ok hcheck
  have hforgotten : Alike context { context with index_cache := IndexCache.remove id context.index_cache } :=
    ⟨rfl, rfl, hsized, .refl _⟩
  refine hforgotten.update (fun _ => rfl) fun found hfound => ?_
  obtain rfl := Except.ok.inj (hget.symm.trans hfound)
  exact ⟨length_overwrite hfits, length_overwrite (hsized id object hget ▸ hfits)⟩

theorem alike_copy_buffer_sub_data (hsized : context.objects.Sized) :
    Method.Ends (copy_buffer_sub_data c) context (fun _ => Alike context) (Alike context) := by
  refine Method.ends_read_bind (.refl hsized) fun transfer hcheck => ?_
  obtain ⟨_, _, original, object, htransfer⟩ := check_transfer_eq_ok hcheck
  have hforgotten : Alike context
      { context with index_cache := IndexCache.remove transfer.destination context.index_cache } :=
    ⟨rfl, rfl, hsized, .refl _⟩
  refine Method.ends_modify_bind.mpr (Method.ends_get_bind.mpr (Method.ends_ofExcept_bind hforgotten fun source hsource => ?_))
  obtain rfl := Except.ok.inj (htransfer.source_live.symm.trans hsource)
  refine hforgotten.update (fun _ => rfl) fun found hfound => ?_
  obtain rfl := Except.ok.inj (htransfer.destination_live.symm.trans hfound)
  exact ⟨htransfer.length rfl rfl, htransfer.length (hsized _ _ htransfer.source_live).symm
    (hsized _ _ htransfer.destination_live).symm⟩

theorem alike_read_pixels_to_buffer (hdriver : driver.InPlace) (hsized : context.objects.Sized) :
    Method.Ends (read_pixels_to_buffer driver c bytes) context (fun _ => Alike context) (Alike context) := by
  refine Method.ends_read_bind (.refl hsized) fun id _ => ?_
  have hforgotten : Alike context { context with index_cache := IndexCache.remove id context.index_cache } :=
    ⟨rfl, rfl, hsized, .refl _⟩
  exact hforgotten.update (fun _ => rfl) fun found _ => ⟨rfl, hdriver.packed c found.contents⟩

/-- Mirrors become invalid, and nothing else changes. -/
theorem alike_invalidate_captured (bindings : List Binding) :
    Method.Keeps (Alike start) (invalidate_captured bindings) := by
  induction bindings with
  | nil => exact .pure ()
  | cons binding bindings ih =>
    refine Method.Keeps.bind (.onlyIf ?_) fun _ => ih
    intro context h
    have hforgotten : Alike start { context with index_cache := IndexCache.remove binding.id context.index_cache } :=
      ⟨h.api, h.feedback, h.sized, h.level⟩
    refine Method.ends_modify_bind.mpr (Method.ends_get_bind.mpr (Method.ends_ofExcept_bind hforgotten fun objects hwrite => ?_))
    obtain ⟨object, -, hwrite⟩ := bind_eq_ok.mp hwrite
    obtain rfl := Except.ok.inj hwrite
    exact hforgotten.update (fun _ => rfl) fun _ _ => ⟨rfl, rfl⟩

/-! ## The bound record -/

/-- The bound record is written, and no buffer changes its length. -/
structure Rewritten (start after : WebGl) (write : Record → Record) : Prop where
  sized : after.objects.Sized
  level : Objects.Level start.objects after.objects
  records : ∀ key, after.transform_feedback.records.get key =
    if key = start.transform_feedback.bound then (start.transform_feedback.records.get key).map write
    else start.transform_feedback.records.get key

/-- A write to the bound record of a context that is alike. -/
theorem Alike.rewritten (h : Alike start context) {record : Record} (hrecord : start.bound_record = .ok record)
    (write : Record → Record) : Rewritten start { context with transform_feedback := { context.transform_feedback with
      records := context.transform_feedback.records.insert context.transform_feedback.bound (write record) } } write := by
  refine ⟨h.sized, h.level, fun key => ?_⟩
  show (context.transform_feedback.records.insert context.transform_feedback.bound (write record)).get key = _
  rw [h.feedback, OrdMap.get_insert]
  by_cases hkey : key = start.transform_feedback.bound
  · simp [hkey, bound_record_eq_ok hrecord]
  · simp [hkey]

theorem Alike.unwritten (h : Alike start context) : Rewritten start context id := by
  refine ⟨h.sized, h.level, fun key => ?_⟩
  simp [h.feedback]

theorem Fitted.rewritten {log later : Nat → Progress} {write : Record → Record} (h : Fitted start log)
    (hafter : Rewritten start after write) (hothers : ∀ key, key ≠ start.transform_feedback.bound → later key = log key)
    (hbound : ∀ record, start.transform_feedback.records.get start.transform_feedback.bound = some record →
      (write record).active = true → Fits after.objects (write record) (later start.transform_feedback.bound)) :
    Fitted after later := by
  refine ⟨hafter.sized, fun key record hget hactive => ?_⟩
  rw [hafter.records] at hget
  by_cases hkey : key = start.transform_feedback.bound
  · subst hkey
    rw [if_pos rfl, Option.map_eq_some_iff] at hget
    obtain ⟨earlier, hearlier, rfl⟩ := hget
    exact hbound earlier hearlier hactive
  · rw [if_neg hkey] at hget
    rw [hothers key hkey]
    refine (h.captures key record hget hactive).carry rfl (fun _ _ hbinding => .inr hbinding) fun _ _ _ object hobject => ?_
    obtain ⟨found, hfound, hbytes, -⟩ := hafter.level _ object hobject
    exact ⟨found, hfound, hbytes.ge⟩

theorem Fits.level {before objects : Objects} (hlevel : Objects.Level before objects) {record : Record}
    {progress : Progress} (h : Fits before record progress) : Fits objects record progress := by
  refine h.carry rfl (fun _ _ hbinding => .inr hbinding) fun _ _ _ object hobject => ?_
  obtain ⟨found, hfound, hbytes, -⟩ := hlevel _ object hobject
  exact ⟨found, hfound, hbytes.ge⟩

theorem Fitted.alike {log : Nat → Progress} (h : Fitted start log) (halike : Alike start after) : Fitted after log :=
  h.rewritten halike.unwritten (fun _ _ => rfl) fun record hget hactive =>
    Fits.level halike.level (h.captures _ record hget hactive)

/-- Commands that leave the storage leave what fits. -/
theorem Fitted.quiet {log : Nat → Progress} (h : Fitted start log) (hquiet : Quiet start after) : Fitted after log := by
  refine ⟨hquiet.still.level.sized h.sized, fun key record hget hactive => ?_⟩
  obtain ⟨earlier, hearlier, hcontinues⟩ := hquiet.captures key record hget hactive
  refine (h.captures key earlier hearlier hcontinues.active).carry hcontinues.ledger hcontinues.bindings fun _ _ _ object hobject => ?_
  obtain ⟨found, hfound, hbytes, -⟩ := hquiet.still.kept _ object hobject
  exact ⟨found, hfound, by rw [hbytes]⟩

end WebGl

end BetterWebBrowser.Webgl
