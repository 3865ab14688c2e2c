import BetterWebBrowser.Webgl.CaptureRoom

/-!
# Captures over runs

In every run in which no upload makes a captured buffer shorter, what the draws of a capture leave is what
its ledger counts, and it lies inside the buffers and the ranges of the capture. The log is kept beside the
context and reads nothing of the ledger.
-/

namespace BetterWebBrowser.Webgl

open Framework
open targets

namespace WebGl

variable {driver : Driver} {start context after : WebGl} {c : Command} {bytes : Option (List UInt8)}

/-! ## The log -/

/-- The bytes of a vertex in each binding of a capture that begins here. -/
def begun (driver : Driver) (context : WebGl) : List Nat :=
  match context.objects.get context.program .Program with
  | .error _ => []
  | .ok program => (Ledger.strides driver program.native).toOption.getD []

/-- A capture runs. -/
def capturing (context : WebGl) : Bool :=
  match context.bound_record with
  | .error _ => false
  | .ok record => decide (context.api = .Two ∧ record.active = true ∧ record.paused = false)

/-- The draws of arrays among the calls; a capture takes no others. -/
def arrays (calls : List NativeDraw) : List (Nat × Nat) :=
  (calls.filter fun call => call.kind.isNone).flatMap fun call =>
    call.draws.map fun draw => (draw.count, draw.instances)

/-- The command draws. -/
def draws : Op → Bool
  | .drawArrays | .drawElements | .drawRangeElements | .drawArraysInstanced | .drawArraysInstancedANGLE
  | .drawElementsInstanced | .drawElementsInstancedANGLE | .multiDrawArraysWEBGL | .multiDrawElementsWEBGL
  | .multiDrawArraysInstancedWEBGL | .multiDrawElementsInstancedWEBGL => true
  | _ => false

/-- What a command that was carried out adds to the log. -/
def observe (driver : Driver) (before : WebGl) (op : Op) (after : WebGl) (log : Nat → Progress) : Nat → Progress :=
  if op = .beginTransformFeedback then
    Function.update log before.transform_feedback.bound ⟨before.begun driver, []⟩
  else if draws op = true ∧ before.capturing = true then
    Function.update log before.transform_feedback.bound
      { log before.transform_feedback.bound with
        draws := (log before.transform_feedback.bound).draws ++ WebGl.arrays (after.calls.drop before.calls.length) }
  else log

/-- The log after an event; a command that failed leaves it. -/
def logged (driver : Driver) (before : WebGl) (event : Event) (after : WebGl) (log : Nat → Progress) : Nat → Progress :=
  match event with
  | .command c _ (.ok _) => observe driver before c.op after log
  | _ => log

/-! ## The room -/

private theorem foldl_room {record : Record} {entries : List (Nat × Nat)} {first capacity : Nat}
    (h : entries.foldlM (fun capacity entry => do
      let binding ← orError gl.INVALID_OPERATION record.bindings[entry.2]?
      let buffer ← context.objects.get binding.id .Buffer
      Except.ok (min capacity (available binding buffer.bytes.length / entry.1))) first = .ok capacity) :
    capacity ≤ first ∧ ∀ entry ∈ entries, ∃ (binding : Binding) (buffer : Object), record.bindings[entry.2]? = some binding ∧
      context.objects.get binding.id .Buffer = .ok buffer ∧
        capacity ≤ available binding buffer.bytes.length / entry.1 := by
  induction entries generalizing first with
  | nil =>
    cases h
    simp
  | cons entry entries ih =>
    rw [List.foldlM_cons] at h
    obtain ⟨next, hnext, h⟩ := bind_eq_ok.mp h
    obtain ⟨binding, hbinding, hnext⟩ := bind_eq_ok.mp hnext
    obtain ⟨buffer, hbuffer, hnext⟩ := bind_eq_ok.mp hnext
    obtain rfl := Except.ok.inj hnext
    obtain ⟨hle, hrest⟩ := ih h
    refine ⟨hle.trans (Nat.min_le_left _ _), ?_⟩
    rw [List.forall_mem_cons]
    exact ⟨⟨binding, buffer, orError_eq_ok.mp hbinding, hbuffer, hle.trans (Nat.min_le_right _ _)⟩, hrest⟩

/-- The counted vertices fit each binding. -/
theorem room_fits {record : Record} {strides : List Nat} {capacity index stride : Nat} {binding : Binding} {object : Object}
    (h : context.room record strides = .ok capacity) (hstride : strides[index]? = some stride)
    (hbinding : record.bindings[index]? = some binding) (hget : context.objects.get binding.id .Buffer = .ok object) :
    capacity * stride ≤ available binding object.bytes.length := by
  have hentry : (stride, index) ∈ strides.zipIdx := List.mem_zipIdx_iff_getElem?.mpr hstride
  obtain ⟨found, buffer, hfound, hbuffer, hle⟩ := (foldl_room h).2 _ hentry
  obtain rfl := Option.some.inj (hbinding.symm.trans hfound)
  obtain rfl := Except.ok.inj (hget.symm.trans hbuffer)
  exact (Nat.mul_le_mul_right stride hle).trans (Nat.div_mul_le_self _ _)

/-- A capture that begins has left nothing yet, and its room fits the buffers. -/
theorem Begins.fits {mode : Nat} {record : Record} {ledger : Ledger} (h : Begins driver c context mode record ledger)
    {begins : Record} (hledger : begins.ledger = ledger) (hbindings : begins.bindings = record.bindings) :
    Fits context.objects begins ⟨context.begun driver, []⟩ := by
  have hcounted := h.counted
  rw [new_transform_ledger] at hcounted
  obtain ⟨program, hprogram, hcounted⟩ := bind_eq_ok.mp hcounted
  obtain ⟨strides, hstrides, hcounted⟩ := bind_eq_ok.mp hcounted
  obtain ⟨_, -, hcounted⟩ := bind_eq_ok.mp hcounted
  obtain ⟨found, hfound, hcounted⟩ := bind_eq_ok.mp hcounted
  obtain ⟨capacity, hroom, hcounted⟩ := bind_eq_ok.mp hcounted
  obtain rfl := Except.ok.inj hcounted
  obtain rfl := Except.ok.inj (h.bound.symm.trans hfound)
  have hbegun : context.begun driver = strides := by
    simp [begun, hprogram, hstrides, Except.toOption]
  constructor
  · simp [hledger]
  · obtain hpoints | hlines | htriangles := h.primitive
    · exact ⟨1, by simp [hledger, Ledger.primitive, hpoints], by simp [hledger, Progress.vertices]⟩
    · exact ⟨2, by simp [hledger, Ledger.primitive, hlines, gl.LINES, gl.POINTS], by simp [hledger, Progress.vertices]⟩
    · refine ⟨3, ?_, by simp [hledger, Progress.vertices]⟩
      simp [hledger, Ledger.primitive, htriangles, gl.TRIANGLES, gl.LINES, gl.POINTS]
  · intro index stride binding object hstride hbinding _ hget
    rw [hbegun] at hstride
    rw [hbindings] at hbinding
    rw [hledger]
    exact room_fits hroom hstride hbinding hget

/-! ## Captures that begin and go on -/

theorem ends_begin (hsized : context.objects.Sized) (c : Command) :
    Method.Ends (begin_transform_feedback driver c) context (fun _ after => ∃ mode record ledger program,
      Begins driver c context mode record ledger ∧ Rewritten context after fun record =>
        { record with active := true, program := program, ledger := ledger }) (Alike context) := by
  refine Method.ends_read_bind (.refl hsized) fun (record, ledger) hcheck => ?_
  obtain ⟨mode, hbegins⟩ := check_begin_eq_ok hcheck
  refine (alike_invalidate_captured record.bindings).ends_bind (.refl hsized) fun _ middle hmiddle => ?_
  refine Method.ends_bind.mpr (Method.ends_get_bind.mpr (Method.ends_ofExcept_bind hmiddle fun objects hretain => ?_))
  obtain ⟨program, -, hretain⟩ := bind_eq_ok.mp hretain
  obtain ⟨-, hretain⟩ := failIf_bind_eq_ok.mp hretain
  obtain rfl := Except.ok.inj hretain
  let counted : Object → Object := fun object => { object with references := object.references + 1 }
  have hretained : Alike context { middle with objects := middle.objects.update middle.program counted } :=
    hmiddle.update (fun _ => rfl) fun _ _ => ⟨rfl, rfl⟩
  have hbound : ({ middle with objects := middle.objects.update middle.program counted } : WebGl).bound_record = .ok record := by
    rw [← hbegins.bound, bound_record, bound_record, hmiddle.feedback]
  refine ends_write_record hbound ⟨mode, record, ledger, middle.program, hbegins, ?_⟩
  exact hretained.rewritten hbegins.bound fun record => { record with active := true, program := middle.program, ledger := ledger }

theorem ends_resume (hsized : context.objects.Sized) :
    Method.Ends resume_transform_feedback context (fun _ after => Rewritten context after fun record =>
      { record with paused := false }) (Alike context) := by
  refine Method.ends_get_bind.mpr (Method.ends_ofExcept_bind (.refl hsized) fun record hrecord =>
    Method.ends_failIf_bind (.refl hsized) fun _ => Method.ends_failIf_bind (.refl hsized) fun _ => ?_)
  refine (alike_invalidate_captured record.bindings).ends_bind (.refl hsized) fun _ middle hmiddle => ?_
  have hbound : middle.bound_record = .ok record := by
    rw [← hrecord, bound_record, bound_record, hmiddle.feedback]
  exact ends_write_record hbound (hmiddle.rewritten hrecord fun record => { record with paused := false })

/-! ## The accounting of a draw -/

private theorem foldl_vertices {primitive first vertices : Nat} {draws : List (Nat × Nat)}
    (h : (draws.foldlM (fun vertices draw => orError gl.INVALID_OPERATION
      (checkedAdd 64 vertices (Ledger.complete primitive draw))) first : Result Nat) = .ok vertices) :
    vertices = first + (draws.map (Ledger.complete primitive)).sum := by
  induction draws generalizing first with
  | nil =>
    cases h
    simp
  | cons draw draws ih =>
    rw [List.foldlM_cons] at h
    obtain ⟨next, hnext, h⟩ := bind_eq_ok.mp h
    obtain ⟨rfl, -⟩ := checkedAdd_eq_some.mp (orError_eq_ok.mp hnext)
    rw [ih h, List.map_cons, List.sum_cons, Nat.add_assoc]

/-- Draws that were prepared are of the mode of the capture, and there is room for them. -/
theorem prepare_eq_ok {ledger : Ledger} {mode vertices : Nat} {indexed : Bool} {draws : List (Nat × Nat)}
    (h : ledger.prepare mode indexed draws = .ok vertices) : ledger.written + vertices ≤ ledger.capacity ∧
      ∃ primitive, Ledger.primitive ledger.mode = .ok primitive ∧
        vertices = (draws.map (Ledger.complete primitive)).sum := by
  rw [Ledger.prepare] at h
  obtain ⟨hmode, h⟩ := failIf_bind_eq_ok.mp h
  obtain ⟨primitive, hprimitive, h⟩ := bind_eq_ok.mp h
  obtain ⟨counted, hcounted, h⟩ := bind_eq_ok.mp h
  obtain ⟨last, hlast, h⟩ := bind_eq_ok.mp h
  obtain ⟨hfits, h⟩ := failIf_bind_eq_ok.mp h
  obtain rfl := Except.ok.inj h
  obtain ⟨rfl, -⟩ := checkedAdd_eq_some.mp (orError_eq_ok.mp hlast)
  obtain rfl : mode = ledger.mode := by
    by_contra hother
    exact hmode (.inr hother)
  refine ⟨Nat.not_lt.mp hfits, primitive, hprimitive, ?_⟩
  rw [foldl_vertices hcounted, Nat.zero_add]

/-- What the ledger counts for a call. -/
def Prepared (context : WebGl) (issued : NativeDraw × Nat) : Prop :=
  if issued.1.kind.isNone then
    context.prepare_transform_capture issued.1.mode false (arrays [issued.1]) = .ok issued.2
  else issued.2 = 0

theorem Alike.prepare (h : Alike start context) (mode : Nat) (indexed : Bool) (draws : List (Nat × Nat)) :
    context.prepare_transform_capture mode indexed draws = start.prepare_transform_capture mode indexed draws := by
  rw [prepare_transform_capture, prepare_transform_capture, bound_record, bound_record, h.api, h.feedback]

/-- Nothing is counted for indices, which no capture takes. -/
theorem prepare_indexed {mode captured : Nat} {draws : List (Nat × Nat)}
    (h : context.prepare_transform_capture mode true draws = .ok captured) : captured = 0 := by
  rw [prepare_transform_capture] at h
  split at h
  next => exact (Except.ok.inj h).symm
  next =>
    obtain ⟨record, -, h⟩ := bind_eq_ok.mp h
    split at h
    next => exact (Except.ok.inj h).symm
    next =>
      obtain ⟨hindexed, -⟩ := failIf_bind_eq_ok.mp h
      exact absurd (.inl rfl) hindexed

/-- Nothing is counted while no capture runs. -/
theorem prepare_idle {mode captured : Nat} {indexed : Bool} {draws : List (Nat × Nat)} (hidle : context.capturing = false)
    (h : context.prepare_transform_capture mode indexed draws = .ok captured) : captured = 0 := by
  rw [prepare_transform_capture] at h
  split at h
  next => exact (Except.ok.inj h).symm
  next hapi =>
    obtain ⟨record, hrecord, h⟩ := bind_eq_ok.mp h
    split at h
    next => exact (Except.ok.inj h).symm
    next hrunning =>
      rw [not_or, Bool.not_eq_false, Bool.not_eq_true] at hrunning
      have htwo : context.api = .Two := by
        cases hversion : context.api with
        | One => exact absurd hversion hapi
        | Two => rfl
      simp [capturing, hrecord, hrunning, htwo] at hidle

/-- What a running capture counts is prepared by its ledger. -/
theorem prepare_running {mode captured : Nat} {indexed : Bool} {draws : List (Nat × Nat)}
    (hrunning : context.capturing = true) (h : context.prepare_transform_capture mode indexed draws = .ok captured) :
    ∃ record, context.bound_record = .ok record ∧ record.ledger.prepare mode indexed draws = .ok captured := by
  rw [capturing] at hrunning
  cases hrecord : context.bound_record with
  | error error => simp [hrecord] at hrunning
  | ok record =>
    simp only [hrecord, decide_eq_true_eq] at hrunning
    rw [prepare_transform_capture, if_neg (by simp [hrunning.1]), hrecord, ok_bind, if_neg (by simp [hrunning.2])] at h
    exact ⟨record, rfl, h⟩

/-! ## The checks of a draw -/

/-- The checks changed nothing that matters here, and what they let through is prepared. -/
def Admits (start : WebGl) (admitted : Option (NativeDraw × Nat)) (after : WebGl) : Prop :=
  Asked start after ∧ ∀ issued, admitted = some issued → Prepared start issued

theorem Asked.refuses (h : Asked start context) : Admits start none context :=
  ⟨h, fun _ hissued => absurd hissued.symm (Option.some_ne_none _)⟩

theorem Asked.admits (h : Asked start context) {issued : NativeDraw × Nat} (hissued : Prepared start issued) :
    Admits start (some issued) context := by
  refine ⟨h, fun other hother => ?_⟩
  rwa [← Option.some.inj hother]

private theorem prepared_arrays {mode captured : Nat} {draws : List Draw}
    (h : start.prepare_transform_capture mode false (draws.map fun draw => (draw.count, draw.instances)) = .ok captured) :
    Prepared start (⟨mode, none, draws⟩, captured) := by
  simpa [Prepared, arrays] using h

private theorem prepared_elements {mode kind : Nat} {draws : List Draw} : Prepared start (⟨mode, some kind, draws⟩, 0) := by
  simp [Prepared]

private theorem checked_asked (driver : Driver) (start : WebGl) : Checked driver (Asked start) :=
  (indifferent_asked start).checked

theorem admits_checkArrays (c : Command) (h : Asked start context) :
    Method.Ends (checkArrays driver c) context (Admits start) (Asked start) := by
  refine Method.ends_ofExcept_bind h fun mode _ => Method.ends_ofExcept_bind h fun first _ =>
    Method.ends_ofExcept_bind h fun count _ => Method.ends_failIf_bind h fun _ => ?_
  refine Method.Keeps.ends_bind (.onlyIf ((checked_asked driver start).validate_instance_attributes _ _ _)) h fun _ after h => ?_
  refine Method.ends_read_bind h fun _ _ => Method.ends_read_bind h fun captured hcaptured =>
    Method.ends_read_bind h fun _ _ => Method.ends_read_bind h fun _ _ => h.admits (prepared_arrays ?_)
  rwa [h.prepare] at hcaptured

/-- The indices of a draw, and what comes after them. -/
private theorem admits_indexed (h : Asked start context) {count size offset instances : Nat} {instanced : Bool}
    (hcount : count ≠ 0) (hsize : 0 < size) {next : Gl (Option (NativeDraw × Nat))}
    (hnext : ∀ after, Asked start after → Method.Ends next after (Admits start) (Asked start)) :
    Method.Ends (do
      let maximum ← maximum_index driver count size offset
      WebGl.validate_indexed driver maximum instances instanced
      next) context (Admits start) (Asked start) := by
  have hchecked := checked_asked driver start
  refine (hchecked.maximum count size offset (Nat.pos_of_ne_zero hcount) hsize).ends_bind h fun maximum _ h => ?_
  exact (hchecked.validate_indexed _ _ _).ends_bind h fun _ => hnext

theorem admits_checkElements (c : Command) (h : Asked start context) :
    Method.Ends (checkElements driver c) context (Admits start) (Asked start) := by
  refine Method.ends_ofExcept_bind h fun mode _ => Method.ends_ofExcept_bind h fun count _ =>
    Method.ends_ofExcept_bind h fun kind _ => Method.ends_ofExcept_bind h fun offset _ =>
    Method.ends_read_bind h fun size hsize => Method.ends_failIf_bind h fun _ => Method.ends_failIf_bind h fun _ => ?_
  refine Method.ends_ite (fun _ => Method.ends_read_bind h fun _ _ => h.refuses) fun hcount => ?_
  refine admits_indexed h hcount (index_size_pos hsize) fun after h => ?_
  exact Method.ends_read_bind h fun _ _ => Method.ends_read_bind h fun _ _ => Method.ends_read_bind h fun _ _ =>
    h.admits prepared_elements

theorem admits_checkInstanced (c : Command) (h : Asked start context) :
    Method.Ends (checkInstanced driver c) context (Admits start) (Asked start) := by
  refine Method.ends_read_bind h fun _ _ => Method.ends_ofExcept_bind h fun mode _ =>
    Method.ends_ofExcept_bind h fun count _ => Method.ends_ofExcept_bind h fun instances _ => ?_
  have hwork : Method.Keeps (Asked start) (check_work driver mode count instances) :=
    .ite ((Method.Keeps.read _).bind fun _ => .ofExcept _) (.pure ())
  refine hwork.ends_bind h fun _ after h => ?_
  refine Method.ends_read_bind h fun _ _ => Method.ends_read_bind h fun _ _ => Method.ends_read_bind h fun captured hcaptured => ?_
  rw [h.prepare] at hcaptured
  by_cases hindexed : Command.elementsInstanced c = true
  · rw [if_pos hindexed]
    rw [hindexed] at hcaptured
    obtain rfl := prepare_indexed hcaptured
    refine Method.ends_ofExcept_bind h fun kind _ => Method.ends_ofExcept_bind h fun offset _ =>
      Method.ends_read_bind h fun size hsize => Method.ends_failIf_bind h fun _ => ?_
    refine Method.ends_ite (fun _ => h.refuses) fun hwork => ?_
    refine admits_indexed h (fun hcount => hwork (.inl hcount)) (index_size_pos hsize) fun after h => ?_
    exact Method.ends_read_bind h fun _ _ => Method.ends_read_bind h fun _ _ => h.admits prepared_elements
  · rw [if_neg hindexed]
    rw [Bool.not_eq_true] at hindexed
    rw [hindexed] at hcaptured
    refine Method.ends_ofExcept_bind h fun first _ => Method.ends_failIf_bind h fun _ => ?_
    refine Method.ends_ite (fun _ => h.refuses) fun _ => ?_
    refine ((checked_asked driver start).validate_instance_attributes _ _ _).ends_bind h fun _ after h => ?_
    exact Method.ends_read_bind h fun _ _ => Method.ends_read_bind h fun _ _ => h.admits (prepared_arrays hcaptured)

theorem admits_checkBatch (c : Command) (h : Asked start context) :
    Method.Ends (checkBatch driver c) context (Admits start) (Asked start) := by
  refine Method.ends_read_bind h fun _ _ => Method.ends_ofExcept_bind h fun batch _ =>
    Method.ends_failIf_bind h fun _ => Method.ends_read_bind h fun size hsize => ?_
  have hpositive (hindexed : batch.indexed = true) : 0 < size := by
    rw [if_pos hindexed] at hsize
    exact index_size_pos hsize
  refine Method.ends_read_bind h fun _ _ => Method.ends_read_bind h fun _ _ => Method.ends_read_bind h fun captured hcaptured => ?_
  rw [h.prepare] at hcaptured
  have hchecked := checked_asked driver start
  refine (hchecked.batch_maxima hpositive _ _).ends_bind h fun maxima _ h => ?_
  refine (hchecked.validate_indexed _ _ _).ends_bind h fun _ _ h => ?_
  refine Method.ends_read_bind h fun _ _ => Method.ends_read_bind h fun _ _ => h.admits ?_
  cases hindexed : batch.indexed with
  | true =>
    rw [hindexed] at hcaptured
    obtain rfl := prepare_indexed hcaptured
    exact prepared_elements
  | false =>
    rw [hindexed] at hcaptured
    exact prepared_arrays hcaptured

/-! ## The call -/

/-- The ledger goes on by this many vertices. -/
def advance (vertices : Nat) (record : Record) : Record :=
  { record with ledger := { record.ledger with written := record.ledger.written + vertices } }

/-- At most one call, and what it leaves is counted. -/
def Drawn (start after : WebGl) : Prop :=
  ∃ issued : Option (NativeDraw × Nat), (∀ call, issued = some call → Prepared start call) ∧
    after.calls = start.calls ++ (issued.map Prod.fst).toList ∧ Rewritten start after (advance ((issued.map Prod.snd).getD 0))

theorem Alike.executed (h : Alike start context) (hdriver : driver.InPlace) (call : NativeDraw) :
    Alike start (executed driver call context) := by
  rw [WebGl.executed]
  cases context.bound_record with
  | error error => exact h
  | ok record =>
    by_cases hrunning : context.api = .Two ∧ record.active = true ∧ record.paused = false
    · simp only [if_pos hrunning]
      suffices hfold : ∀ bindings : List Binding, ∀ objects, Alike start { context with objects := objects } →
          Alike start { context with objects := bindings.foldl (fun objects binding =>
            objects.update binding.id fun object =>
              { object with contents := driver.captured call binding.id object.contents }) objects } from
        hfold record.bindings context.objects h
      intro bindings
      induction bindings with
      | nil => exact fun _ hobjects => hobjects
      | cons binding bindings ih =>
        intro objects hobjects
        rw [List.foldl_cons]
        exact ih _ (hobjects.update (fun _ => rfl) fun object _ => ⟨rfl, hdriver.captured call binding.id object.contents⟩)
    · simp only [if_neg hrunning]
      exact h

theorem ends_perform (hdriver : driver.InPlace) {admitted : Option (NativeDraw × Nat)} (h : Admits start admitted context) :
    Method.Ends (perform driver admitted) context (fun _ => Drawn start) (Alike start) := by
  cases admitted with
  | none => exact ⟨none, h.2, by simp [h.1.calls], h.1.unwritten⟩
  | some issued =>
    obtain ⟨call, captured⟩ := issued
    have hexecuted := h.1.toAlike.executed hdriver call
    have hcalled : Alike start { executed driver call context with calls := context.calls ++ [call] } :=
      ⟨hexecuted.api, hexecuted.feedback, hexecuted.sized, hexecuted.level⟩
    have hcalls : context.calls ++ [call] = start.calls ++ [call] := by rw [h.1.calls]
    refine Method.ends_modify_bind.mpr (Method.ends_ofExcept_bind hcalled fun _ _ => ?_)
    rw [record_transform_capture]
    refine Method.ends_ite (fun hzero => ?_) fun _ => ?_
    · subst hzero
      exact ⟨some (call, 0), h.2, hcalls, hcalled.unwritten⟩
    · refine Method.ends_get_bind.mpr (Method.ends_ofExcept_bind hcalled fun record hrecord => ?_)
      have hbound : start.bound_record = .ok record := by
        rw [← hrecord, bound_record, bound_record, hcalled.feedback]
      exact ⟨some (call, captured), h.2, hcalls, hcalled.rewritten hbound (advance captured)⟩

theorem ends_draw_command (hdriver : driver.InPlace) (hsized : start.objects.Sized) (c : Command) :
    Method.Ends (draw_command driver c) start (fun _ => Drawn start) (Alike start) := by
  have h : Asked start start := ⟨.refl hsized, rfl⟩
  have hdrawn {checks : Gl (Option (NativeDraw × Nat))}
      (hchecks : Method.Ends checks start (Admits start) (Asked start)) :
      Method.Ends (checks >>= perform driver) start (fun _ => Drawn start) (Alike start) :=
    Method.ends_bind.mpr (hchecks.mono (fun _ _ hadmits => ends_perform hdriver hadmits) fun _ hasked => hasked.toAlike)
  have helements (c : Command) : Method.Ends (checkElements driver c >>= perform driver) start (fun _ => Drawn start)
      (Alike start) := hdrawn (admits_checkElements c h)
  have hinstanced : Method.Ends (checkInstanced driver c >>= perform driver) start (fun _ => Drawn start)
      (Alike start) := hdrawn (admits_checkInstanced c h)
  have hbatch : Method.Ends (checkBatch driver c >>= perform driver) start (fun _ => Drawn start)
      (Alike start) := hdrawn (admits_checkBatch c h)
  have hcore : Method.Ends (core_only (instanced_command driver c)) start (fun _ => Drawn start) (Alike start) :=
    Method.ends_get_bind.mpr (Method.ends_ite (fun _ => h.toAlike) fun _ => hinstanced)
  rw [draw_command]
  cases c.op with
  | drawArrays => exact hdrawn (admits_checkArrays c h)
  | drawElements => exact helements c
  | drawRangeElements => exact Method.ends_read_bind h.toAlike fun draw _ => helements draw
  | drawArraysInstanced => exact hcore
  | drawElementsInstanced => exact hcore
  | drawArraysInstancedANGLE => exact hinstanced
  | drawElementsInstancedANGLE => exact hinstanced
  | multiDrawArraysWEBGL => exact hbatch
  | multiDrawElementsWEBGL => exact hbatch
  | multiDrawArraysInstancedWEBGL => exact hbatch
  | multiDrawElementsInstancedWEBGL => exact hbatch
  | _ => exact h.toAlike

/-! ## What fits afterwards -/

/-- A draw is counted where it is logged. -/
theorem Fitted.drawn {log : Nat → Progress} (h : Fitted start log) (hdrawn : Drawn start after) {op : Op}
    (hop : draws op = true) : Fitted after (observe driver start op after log) := by
  obtain ⟨issued, hprepared, hcalls, hrewritten⟩ := hdrawn
  have hother : op ≠ .beginTransformFeedback := fun hbegin => by simp [hbegin, draws] at hop
  have hnew : after.calls.drop start.calls.length = (issued.map Prod.fst).toList := by
    rw [hcalls, List.drop_left]
  rw [observe, if_neg hother, hnew]
  cases hcapturing : start.capturing with
  | false =>
    have hnothing : (issued.map Prod.snd).getD 0 = 0 := by
      cases hissued : issued with
      | none => rfl
      | some call =>
        have hcall := hprepared call hissued
        rw [Prepared] at hcall
        split at hcall
        next => exact prepare_idle hcapturing hcall
        next => exact hcall
    rw [hnothing] at hrewritten
    rw [if_neg (by simp)]
    refine h.rewritten hrewritten (fun _ _ => rfl) fun record hget hactive => ?_
    exact Fits.level hrewritten.level (h.captures _ record hget hactive)
  | true =>
    rw [if_pos ⟨hop, rfl⟩]
    refine h.rewritten hrewritten (fun key hkey => Function.update_of_ne hkey _ _) fun record hget hactive => ?_
    have hfits := Fits.level hrewritten.level (h.captures _ record hget hactive)
    have hcounted : record.ledger.written + (issued.map Prod.snd).getD 0 ≤ record.ledger.capacity ∧
        ∃ primitive, Ledger.primitive record.ledger.mode = .ok primitive ∧
          (issued.map Prod.snd).getD 0 = ((arrays (issued.map Prod.fst).toList).map (Ledger.complete primitive)).sum := by
      obtain ⟨primitive, hprimitive, -⟩ := hfits.counted
      have hwithin := hfits.within
      cases hissued : issued with
      | none => exact ⟨hwithin, primitive, hprimitive, rfl⟩
      | some call =>
        have hcall := hprepared call hissued
        rw [Prepared] at hcall
        split at hcall
        next =>
          obtain ⟨found, hfound, hprepare⟩ := prepare_running hcapturing hcall
          obtain rfl := Option.some.inj (hget.symm.trans (bound_record_eq_ok hfound))
          exact prepare_eq_ok hprepare
        next hindexed => exact ⟨by simp [hcall, hwithin], primitive, hprimitive, by simp [hcall, arrays, hindexed]⟩
    obtain ⟨hwithin, primitive, hprimitive, hvertices⟩ := hcounted
    obtain ⟨earlier, hearlier, hwritten⟩ := hfits.counted
    obtain rfl := Except.ok.inj (hprimitive.symm.trans hearlier)
    rw [Function.update_self]
    refine ⟨hwithin, ⟨primitive, hprimitive, ?_⟩, hfits.room⟩
    simp only [Progress.vertices, List.map_append, List.sum_append] at hwritten ⊢
    simp only [advance, hwritten, hvertices]

/-- A capture that begins is logged anew. -/
theorem Fitted.begun {log : Nat → Progress} (h : Fitted start log) {mode program : Nat} {record : Record} {ledger : Ledger}
    (hbegins : Begins driver c start mode record ledger) (hrewritten : Rewritten start after fun record =>
      { record with active := true, program := program, ledger := ledger }) :
    Fitted after (observe driver start .beginTransformFeedback after log) := by
  rw [observe, if_pos rfl]
  refine h.rewritten hrewritten (fun key hkey => Function.update_of_ne hkey _ _) fun found hget _ => ?_
  obtain rfl := Option.some.inj ((bound_record_eq_ok hbegins.bound).symm.trans hget)
  rw [Function.update_self]
  exact Fits.level hrewritten.level (hbegins.fits rfl rfl)

/-- A new buffer is in no binding. -/
theorem Fitted.create {log : Nat → Progress} (h : Fitted context log) (hcounting : Counting context) {native id : Nat}
    {objects : Objects} (hinsert : context.objects.insert .Buffer native = .ok (id, objects)) :
    Fitted { context with objects := objects } log := by
  have hcases := created_cases hinsert
  refine ⟨fun other object hget => ?_, fun key record hget hactive => ?_⟩
  · obtain ⟨-, hbytes, hcontents⟩ | ⟨-, hget⟩ := hcases other object hget
    · rw [hbytes, hcontents]
    · exact h.sized other object hget
  · refine (h.captures key record hget hactive).carry rfl (fun _ _ hbinding => .inr hbinding) fun binding hbinding hid object hobject => ?_
    obtain ⟨hsame, -⟩ | ⟨-, hobject⟩ := hcases _ object hobject
    · obtain ⟨earlier, hearlier⟩ := hcounting.bound_live hget hbinding hid
      have hlt := hcounting.fresh.below _ earlier (Objects.get_eq_ok.mp hearlier).1
      obtain ⟨hnew, -⟩ := Objects.insert_eq_ok hinsert
      omega
    · exact ⟨object, hobject, Nat.le_refl _⟩

/-- The command gives a buffer of an active capture less storage than it has. -/
def Shrinks (context : WebGl) (c : Command) (bytes : Option (List UInt8)) : Prop :=
  c.op = .bufferData ∧ ∃ id size object key record, check_data c bytes context = .ok (id, size) ∧
    context.objects.get id .Buffer = .ok object ∧ size < object.bytes.length ∧
    context.transform_feedback.records.get key = some record ∧ record.active = true ∧
    ∃ binding ∈ record.bindings, binding.id = id

theorem fitted_buffer_data {log : Nat → Progress} (h : Fitted context log) (hop : c.op = .bufferData)
    (hshrinks : ¬context.Shrinks c bytes) :
    Method.Ends (buffer_data c bytes) context (fun _ after => Fitted after log) (fun after => Fitted after log) := by
  refine Method.ends_read_bind h fun (id, size) hcheck => ?_
  obtain ⟨_, object, -, -, -, hget, -, hlength⟩ := check_data_eq_ok hcheck
  let store : Object → Object := fun object => { object with
    bytes := bytes.getD (List.replicate size 0), buffer_mirror_valid := true, contents := bytes.getD (List.replicate size 0) }
  have hcases (other : Nat) (found : Object) (hfound : (context.objects.update id store).get other .Buffer = .ok found) :=
    Objects.get_update_cases (fun object => (rfl : (store object).kind = object.kind)) hfound
  show Fitted { context with
    index_cache := IndexCache.remove id context.index_cache, objects := context.objects.update id store } log
  refine ⟨fun other found hfound => ?_, fun key record hrecord hactive => ?_⟩
  · obtain ⟨-, _, -, rfl⟩ | ⟨-, hfound⟩ := hcases other found hfound
    · rfl
    · exact h.sized other found hfound
  · refine (h.captures key record hrecord hactive).carry rfl (fun _ _ hbinding => .inr hbinding) fun binding hbinding _ found hfound => ?_
    obtain ⟨hsame, earlier, hearlier, rfl⟩ | ⟨-, hfound⟩ := hcases _ found hfound
    · obtain rfl := Except.ok.inj (hget.symm.trans hearlier)
      refine ⟨object, hsame ▸ hget, Nat.not_lt.mp fun hless => ?_⟩
      refine hshrinks ⟨hop, id, size, object, key, record, hcheck, hget, ?_, hrecord, hactive, binding, hbinding, hsame⟩
      exact hlength ▸ hless
    · exact ⟨found, hfound, Nat.le_refl _⟩

/-! ## Dispatch -/

/-- What fits after a command: the log goes on if the command was carried out. -/
def FittedAfter (driver : Driver) (start : WebGl) (op : Op) (log : Nat → Progress) (after : WebGl) : Prop :=
  Fitted after (observe driver start op after log)

theorem observe_other {log : Nat → Progress} {op : Op} (hbegin : op ≠ .beginTransformFeedback) (hdraws : draws op ≠ true) :
    observe driver start op after log = log := by
  rw [observe, if_neg hbegin, if_neg fun h => hdraws h.1]

/-- Every command but the creation of a buffer. -/
theorem fitted_dispatch {log : Nat → Progress} (h : Fitted start log) (hdriver : driver.InPlace)
    (hcreate : c.op ≠ .createBuffer) (hshrinks : ¬start.Shrinks c bytes) :
    Method.Ends (dispatch driver c bytes) start (fun _ => FittedAfter driver start c.op log) (fun after => Fitted after log) := by
  have hplain {op : Op} (hbegin : op ≠ .beginTransformFeedback) (hdraws : draws op ≠ true) {method : Gl Reply}
      (hmethod : Method.Ends method start (fun _ after => Fitted after log) fun after => Fitted after log) :
      Method.Ends method start (fun _ => FittedAfter driver start op log) fun after => Fitted after log := by
    refine hmethod.mono (fun _ after hafter => ?_) fun _ hafter => hafter
    rwa [FittedAfter, observe_other hbegin hdraws]
  have halike {op : Op} (hbegin : op ≠ .beginTransformFeedback) (hdraws : draws op ≠ true) {method : Gl Reply}
      (hmethod : Method.Ends method start (fun _ => Alike start) (Alike start)) :
      Method.Ends method start (fun _ => FittedAfter driver start op log) fun after => Fitted after log :=
    hplain hbegin hdraws (hmethod.mono (fun _ _ hafter => h.alike hafter) fun _ hafter => h.alike hafter)
  have hdraw {op : Op} (hop : draws op = true) : Method.Ends (null (draw_command driver c)) start
      (fun _ => FittedAfter driver start op log) fun after => Fitted after log :=
    Method.ends_bind.mpr ((ends_draw_command hdriver h.sized c).mono (fun _ _ hdrawn => h.drawn hdrawn hop)
      fun _ hafter => h.alike hafter)
  have htwo {method : Gl Reply} {Q : Reply → WebGl → Prop} (hmethod : Method.Ends method start Q fun after => Fitted after log) :
      Method.Ends (two_only method) start Q fun after => Fitted after log :=
    Method.ends_get_bind.mpr (Method.ends_ite (fun _ => h) fun _ => hmethod)
  by_cases hquiet : leaves_storage c.op = true
  · have hop : c.op ≠ .beginTransformFeedback ∧ draws c.op ≠ true := by
      cases hop : c.op <;> simp [hop, leaves_storage, draws] at hquiet ⊢
    exact hplain hop.1 hop.2 ((quiet_dispatch c bytes start hquiet).mono (fun _ _ hafter => h.quiet hafter)
      fun _ hafter => h.quiet hafter)
  rw [dispatch]
  cases hop : c.op with
  | createBuffer => exact absurd hop hcreate
  | bufferData => exact hplain (by decide) (by decide) (Method.ends_bind.mpr (fitted_buffer_data h hop hshrinks))
  | bufferSubData => exact halike (by decide) (by decide) (Method.ends_bind.mpr (alike_buffer_sub_data h.sized))
  | copyBufferSubData => exact halike (by decide) (by decide) (Method.ends_bind.mpr (alike_copy_buffer_sub_data h.sized))
  | getBufferSubData =>
    refine halike (by decide) (by decide) (Method.ends_bind.mpr ?_)
    exact ((indifferent_asked start).read_buffer c start ⟨.refl h.sized, rfl⟩).mono (fun _ _ hafter => hafter.toAlike)
      fun _ hafter => hafter.toAlike
  | readPixelsToBuffer =>
    exact halike (by decide) (by decide) (Method.ends_bind.mpr (alike_read_pixels_to_buffer hdriver h.sized))
  | beginTransformFeedback =>
    refine htwo (Method.ends_bind.mpr ((ends_begin h.sized c).mono (fun _ after hafter => ?_) fun _ hafter => h.alike hafter))
    obtain ⟨_, _, _, _, hbegins, hrewritten⟩ := hafter
    exact h.begun hbegins hrewritten
  | resumeTransformFeedback =>
    refine hplain (by decide) (by decide) (htwo (Method.ends_bind.mpr ((ends_resume h.sized).mono (fun _ after hafter => ?_)
      fun _ hafter => h.alike hafter)))
    refine h.rewritten hafter (fun _ _ => rfl) fun record hget hactive => Fits.level hafter.level ?_
    exact (h.captures _ record hget hactive).carry rfl (fun _ _ hbinding => .inr hbinding) fun _ _ _ object hobject =>
      ⟨object, hobject, Nat.le_refl _⟩
  | drawArrays => exact hdraw rfl
  | drawElements => exact hdraw rfl
  | drawRangeElements => exact hdraw rfl
  | drawArraysInstanced => exact hdraw rfl
  | drawArraysInstancedANGLE => exact hdraw rfl
  | drawElementsInstanced => exact hdraw rfl
  | drawElementsInstancedANGLE => exact hdraw rfl
  | multiDrawArraysWEBGL => exact hdraw rfl
  | multiDrawElementsWEBGL => exact hdraw rfl
  | multiDrawArraysInstancedWEBGL => exact hdraw rfl
  | multiDrawElementsInstancedWEBGL => exact hdraw rfl
  | _ =>
    rw [hop] at hquiet
    exact absurd rfl hquiet

end WebGl

/-! ## Whole runs -/

/-- A step that makes no captured buffer shorter, with what it adds to the log. -/
def RoomyStep (driver : Driver) (before : WebGl × (Nat → Progress)) (event : Event) (after : WebGl × (Nat → Progress)) :
    Prop :=
  Step driver before.1 event after.1 ∧ after.2 = WebGl.logged driver before.1 event after.1 before.2 ∧
    ∀ c bytes result, event = .command c bytes result → ¬before.1.Shrinks c bytes

section

variable {driver : Driver} {api : ApiVersion} {core : Option CoreEntries} {extensions : Extensions}
  {slots uniforms captures names : Nat} {events : List Event}

theorem fitted_step (hdriver : driver.InPlace) {before after : WebGl × (Nat → Progress)} {event : Event}
    (hstep : RoomyStep driver before event after) (hcounting : before.1.Counting) (h : before.1.Fitted before.2) :
    after.1.Fitted after.2 := by
  obtain ⟨context, log⟩ := before
  obtain ⟨later, logged⟩ := after
  obtain ⟨hstep, hlogged, hallowed⟩ := hstep
  obtain rfl : logged = WebGl.logged driver context event later log := hlogged
  show later.Fitted (WebGl.logged driver context event later log)
  cases event with
  | elsewhere => exact h.quiet (WebGl.Elsewhere.quiet hstep)
  | enable_vertex_arrays =>
    obtain rfl : later = (WebGl.enable_vertex_arrays driver context).2 := hstep
    exact h.quiet (WebGl.quiet_enable_vertex_arrays.after (.refl context))
  | command c bytes result =>
    have hstep : WebGl.dispatch driver c bytes context = (result, later) := hstep
    by_cases hcreate : c.op = .createBuffer
    · have hplain : WebGl.logged driver context (.command c bytes result) later log = log := by
        cases result with
        | error error => rfl
        | ok reply => exact WebGl.observe_other (by rw [hcreate]; decide) (by rw [hcreate]; decide)
      rw [hplain]
      rw [WebGl.dispatch, hcreate] at hstep
      obtain ⟨_, -, id, objects, -, hinsert, rfl⟩ | ⟨_, -, rfl⟩ := (WebGl.ends_create_buffer context).run hstep
      · exact h.create hcounting hinsert
      · exact h
    · have hends := WebGl.fitted_dispatch h hdriver hcreate (hallowed c bytes result rfl)
      obtain ⟨_, rfl, hafter⟩ | ⟨_, rfl, hafter⟩ := hends.run hstep
      · exact hafter
      · exact hafter

theorem fitted_run (hdriver : driver.InPlace) {context : WebGl} {log : Nat → Progress}
    (h : Run (RoomyStep driver) (WebGl.new api core extensions slots uniforms captures names, fun _ => ⟨[], []⟩) events
      (context, log)) : context.Counting ∧ context.Fitted log := by
  have hrun := h.historyInvariant (fun events state =>
    Run (Step driver) (WebGl.new api core extensions slots uniforms captures names) events state.1 ∧ state.1.Fitted state.2)
    ⟨.nil, ?_⟩ fun events before event after hbefore hstep =>
      ⟨hbefore.1.snoc hstep.1, fitted_step hdriver hstep (counting_run hbefore.1).1 hbefore.2⟩
  · exact ⟨(counting_run hrun.1).1, hrun.2⟩
  · have hnew : (WebGl.new api core extensions slots uniforms captures names).Tracked := tracked_new
    refine ⟨fun id object hget => (hnew.mirrored.stored id object hget).length, fun key record hget hactive => ?_⟩
    have hget : (OrdMap.empty.insert 0 (Record.new captures)).get key = some record := hget
    rw [OrdMap.get_insert] at hget
    split at hget
    next =>
      obtain rfl := Option.some.inj hget
      exact absurd hactive Bool.false_ne_true
    next => cases hget

/-- In such a run the ledger of an active capture counts the whole primitives of its draws, never more than its
room, and in each of its bindings what they leave lies inside the buffer and inside the range. -/
theorem captures_stay_inside (hdriver : driver.InPlace) {context : WebGl} {log : Nat → Progress}
    (h : Run (RoomyStep driver) (WebGl.new api core extensions slots uniforms captures names, fun _ => ⟨[], []⟩) events
      (context, log)) {key : Nat} {record : Record} (hget : context.transform_feedback.records.get key = some record)
    (hactive : record.active = true) :
    record.ledger.written ≤ record.ledger.capacity ∧
      (∃ primitive, Ledger.primitive record.ledger.mode = .ok primitive ∧
        record.ledger.written = (log key).vertices primitive) ∧
      ∀ (index stride : Nat) (binding : Binding), (log key).strides[index]? = some stride →
        record.bindings[index]? = some binding → binding.id ≠ 0 → ∃ object,
          context.objects.get binding.id .Buffer = .ok object ∧
          (record.ledger.written * stride = 0 ∨
            binding.offset + record.ledger.written * stride ≤ object.contents.length) ∧
          ∀ size ∈ binding.size, record.ledger.written * stride ≤ size := by
  obtain ⟨hcounting, hfitted⟩ := fitted_run hdriver h
  have hfits := hfitted.captures key record hget hactive
  refine ⟨hfits.within, hfits.counted, fun index stride binding hstride hbinding hid => ?_⟩
  obtain ⟨object, hobject⟩ := hcounting.bound_live hget (List.mem_of_getElem? hbinding) hid
  have hroom := hfits.room index stride binding object hstride hbinding hid hobject
  have hwritten := (Nat.mul_le_mul_right stride hfits.within).trans hroom
  rw [hfitted.sized _ object hobject] at hwritten
  exact ⟨object, hobject, WebGl.inside_of_available hwritten⟩

end

/-- Commands one after the other, with the log. -/
def issueLogged (driver : Driver) : List (Command × Option (List UInt8)) → WebGl × (Nat → Progress) →
    List Event × (WebGl × (Nat → Progress))
  | [], state => ([], state)
  | (c, bytes) :: commands, (context, log) =>
    let (result, after) := WebGl.dispatch driver c bytes context
    let (events, last) := issueLogged driver commands
      (after, WebGl.logged driver context (.command c bytes result) after log)
    (.command c bytes result :: events, last)

/-- Uploads shorten no captured buffer while nothing is captured. -/
theorem roomy_issue (driver : Driver) (commands : List (Command × Option (List UInt8))) (state : WebGl × (Nat → Progress))
    (h : (∀ command ∈ commands, command.1.op ≠ .bufferData) ∨ commands.length = 1 ∧ state.1.any_active = false) :
    Run (RoomyStep driver) state (issueLogged driver commands state).1 (issueLogged driver commands state).2 := by
  induction commands generalizing state with
  | nil => exact .nil
  | cons command commands ih =>
    have hrest : ∀ other ∈ commands, other.1.op ≠ .bufferData := by
      obtain hall | ⟨hone, -⟩ := h
      · exact fun other hmem => hall other (List.mem_cons_of_mem _ hmem)
      · simp only [List.length_cons, Nat.add_eq_right, List.length_eq_zero_iff] at hone
        simp [hone]
    have hstep : RoomyStep driver state
        (.command command.1 command.2 (WebGl.dispatch driver command.1 command.2 state.1).1)
        ((WebGl.dispatch driver command.1 command.2 state.1).2, WebGl.logged driver state.1
          (.command command.1 command.2 (WebGl.dispatch driver command.1 command.2 state.1).1)
          (WebGl.dispatch driver command.1 command.2 state.1).2 state.2) := by
      refine ⟨rfl, rfl, ?_⟩
      rintro _ _ _ ⟨⟩ ⟨hop, _, _, _, key, record, -, -, -, hget, hactive, -⟩
      obtain hall | ⟨-, hidle⟩ := h
      · exact hall command List.mem_cons_self hop
      · have hany : state.1.any_active = true :=
          List.any_eq_true.mpr ⟨_, (OrdMap.mem_entries_iff_get ..).mpr hget, hactive⟩
        exact absurd (hany.symm.trans hidle) Bool.false_ne_true.symm
    exact (Run.nil.snoc hstep).trans (ih _ (.inl hrest))

/-- A program has one output, a number. -/
def oneOutput : Driver :=
  { idle with
    link_status := fun _ => 1
    transform_varyings := fun _ => 1
    transform_buffer_mode := fun _ => 0x8c8c
    transform_name_length := fun _ => 2
    transform_varying := fun _ _ => ⟨1, 1, gl.FLOAT⟩ }

def withProgram : WebGl × (Nat → Progress) :=
  ({ WebGl.new .Two (some ⟨0⟩) withoutExtensions 8 0 1 0 with
      objects := ⟨OrdMap.empty.insert 1 ⟨.Program, 1, [], true, 0, 0, false, false, 1, []⟩, 2, false⟩
      program := 1 }, fun _ => ⟨[], []⟩)

def withBinding : List Event × (WebGl × (Nat → Progress)) :=
  issueLogged oneOutput [(⟨.createBuffer, [], [], []⟩, none), (⟨.bindBufferBase, [0x8c8e, 0, 2], [], []⟩, none)] withProgram

def withStorage : List Event × (WebGl × (Nat → Progress)) :=
  issueLogged oneOutput [(⟨.bufferData, [0x8c8e, 16, 0x88e4], [], []⟩, none)] withBinding.2

/-- Three points are captured into sixteen bytes. -/
def pointsCaptured : List Event × (WebGl × (Nat → Progress)) :=
  issueLogged oneOutput [(⟨.beginTransformFeedback, [0], [], []⟩, none), (⟨.drawArrays, [0, 0, 3], [], []⟩, none)] withStorage.2

theorem roomy_withProgram : Run (RoomyStep oneOutput)
    (WebGl.new .Two (some ⟨0⟩) withoutExtensions 8 0 1 0, fun _ => ⟨[], []⟩) [.elsewhere] withProgram := by
  have hentries (id : Nat) : withProgram.1.objects.entries.get id =
      if id = 1 then some ⟨.Program, 1, [], true, 0, 0, false, false, 1, []⟩ else none := OrdMap.get_insert _ _ _ _
  refine Run.nil.snoc ⟨⟨fun id object hkind => ?_, fun id object hget => ?_, by decide, rfl⟩, rfl, fun _ _ _ hevent => ?_⟩
  · rw [hentries]
    constructor
    · intro hget
      split at hget
      next =>
        obtain rfl := Option.some.inj hget
        cases hkind
      next => cases hget
    · intro hget
      cases hget
  · rw [hentries] at hget
    split at hget
    next hone => exact .inr ⟨hone.ge, by rw [hone]; decide⟩
    next => cases hget
  · cases hevent

theorem roomy_pointsCaptured : Run (RoomyStep oneOutput)
    (WebGl.new .Two (some ⟨0⟩) withoutExtensions 8 0 1 0, fun _ => ⟨[], []⟩)
    ([.elsewhere] ++ withBinding.1 ++ withStorage.1 ++ pointsCaptured.1) pointsCaptured.2 :=
  ((roomy_withProgram.trans (roomy_issue _ _ _ (.inl (by decide)))).trans (roomy_issue _ _ _ (.inr ⟨rfl, rfl⟩))).trans
    (roomy_issue _ _ _ (.inl (by decide)))

theorem captures_stay_inside_points : (pointsCaptured.2.2 0).vertices 1 = 3 ∧ ∃ object,
    pointsCaptured.2.1.objects.get 2 .Buffer = .ok object ∧ 3 * 4 ≤ object.contents.length := by
  have hget : pointsCaptured.2.1.transform_feedback.records.get 0 = some ⟨[⟨2, 0, none⟩], true, false, 1, ⟨0, 4, 3⟩, false⟩ := rfl
  obtain ⟨-, ⟨primitive, hprimitive, hcounted⟩, hinside⟩ :=
    captures_stay_inside ⟨fun _ _ _ => rfl, fun _ _ => rfl⟩ roomy_pointsCaptured hget rfl
  obtain rfl := Except.ok.inj hprimitive
  obtain ⟨object, hobject, hwritten, -⟩ := hinside 0 4 ⟨2, 0, none⟩ rfl rfl (by decide)
  refine ⟨hcounted.symm, object, hobject, ?_⟩
  obtain hnothing | hinside := hwritten
  · cases hnothing
  · rwa [Nat.zero_add] at hinside

end BetterWebBrowser.Webgl
