import BetterWebBrowser.Webgl.DrawCommands
import Mathlib.Algebra.Order.BigOperators.Group.List
import Mathlib.Algebra.Order.Group.Nat

/-!
# Lists of draws and single draws

A list of draws goes through checks of its own before the one call of the driver. Where no capture
runs they admit a list exactly when each of its draws is admitted alone.
-/

namespace BetterWebBrowser.Webgl

open Framework

/-! ## Commands -/

inductive Form
  | arrays
  | elements
  | arraysInstanced
  | elementsInstanced
deriving DecidableEq, Repr

/-- One entry of the lists of a multi-draw. -/
structure Subdraw where
  start : Int
  count : Nat
  instances : Nat
deriving DecidableEq, Repr

namespace Form

def indexed : Form → Bool
  | arrays | arraysInstanced => false
  | elements | elementsInstanced => true

def instanced : Form → Bool
  | arrays | elements => false
  | arraysInstanced | elementsInstanced => true

/-- A draw that is not instanced is drawn once. -/
def copies (form : Form) (draw : Subdraw) : Nat := if form.instanced then draw.instances else 1

def toDraw (form : Form) (draw : Subdraw) : Draw := ⟨draw.start.toNat, draw.count, form.copies draw⟩

def work (form : Form) (draw : Subdraw) : Nat := draw.count * form.copies draw

def multiOp : Form → Op
  | arrays => .multiDrawArraysWEBGL
  | elements => .multiDrawElementsWEBGL
  | arraysInstanced => .multiDrawArraysInstancedWEBGL
  | elementsInstanced => .multiDrawElementsInstancedWEBGL

/-- The draws as one command. -/
def multi (form : Form) (mode kind : Nat) (draws : List Subdraw) : Command :=
  ⟨form.multiOp, [(mode : Int), (kind : Int), (draws.length : Int)] ++
    draws.flatMap fun draw => [draw.start, (draw.count : Int), (form.copies draw : Int)], [], []⟩

/-- One of the draws alone, with the function of the version. -/
def single (api : ApiVersion) (mode kind : Nat) (draw : Subdraw) : Form → Command
  | arrays => ⟨.drawArrays, [(mode : Int), draw.start, (draw.count : Int)], [], []⟩
  | elements => ⟨.drawElements, [(mode : Int), (draw.count : Int), (kind : Int), draw.start], [], []⟩
  | arraysInstanced =>
    ⟨if api = .Two then .drawArraysInstanced else .drawArraysInstancedANGLE,
      [(mode : Int), draw.start, (draw.count : Int), (draw.instances : Int)], [], []⟩
  | elementsInstanced =>
    ⟨if api = .Two then .drawElementsInstanced else .drawElementsInstancedANGLE,
      [(mode : Int), (draw.count : Int), (kind : Int), draw.start, (draw.instances : Int)], [], []⟩

end Form

/-- The draw has some work to do. -/
def Form.NonEmpty (form : Form) (draw : Subdraw) : Prop := 0 < draw.count ∧ 0 < form.copies draw

/-- Where a draw may start. -/
def Form.Within (form : Form) (draw : Subdraw) : Prop :=
  0 ≤ draw.start ∧ draw.start < 2 ^ 31 ∧ (form.indexed = false → draw.start + draw.count ≤ 2 ^ 31)

/-! ## Reading a list -/

namespace Batch

variable {form : Form} {mode kind : Nat} {draws : List Subdraw} {draw : Subdraw} {batch : Batch}

private theorem length_multi (form : Form) (draws : List Subdraw) :
    (draws.flatMap fun draw => [draw.start, (draw.count : Int), (form.copies draw : Int)]).length = draws.length * 3 := by
  induction draws with
  | nil => rfl
  | cons draw draws ih =>
    rw [List.flatMap_cons, List.length_append, ih]
    show 3 + draws.length * 3 = (draws.length + 1) * 3
    omega

private theorem get_entry (form : Form) {draws : List Subdraw} {index : Nat} {draw : Subdraw}
    (h : draws[index]? = some draw) (position : Nat) (hposition : position < 3) :
    (draws.flatMap fun draw => [draw.start, (draw.count : Int), (form.copies draw : Int)])[index * 3 + position]? =
      [draw.start, (draw.count : Int), (form.copies draw : Int)][position]? := by
  induction draws generalizing index with
  | nil => cases h
  | cons first rest ih =>
    rw [List.flatMap_cons]
    cases index with
    | zero =>
      cases h
      rw [Nat.zero_mul, Nat.zero_add, List.getElem?_append_left hposition]
    | succ index =>
      have hskip : (index + 1) * 3 + position = 3 + (index * 3 + position) := by omega
      rw [hskip, List.getElem?_append_right (Nat.le_add_right 3 _)]
      have hrest : 3 + (index * 3 + position) - 3 = index * 3 + position := Nat.add_sub_cancel_left 3 _
      show (rest.flatMap _)[3 + (index * 3 + position) - 3]? = _
      rw [hrest]
      exact ih h

/-- The three numbers of a draw, where the list keeps them. -/
private structure Entry (form : Form) (c : Command) (index : Nat) (draw : Subdraw) : Prop where
  start : c.i[3 + index * 3]? = some draw.start
  count : c.i[3 + index * 3 + 1]? = some (draw.count : Int)
  instances : c.i[3 + index * 3 + 2]? = some (form.copies draw : Int)

private theorem entry_multi {index : Nat} (h : draws[index]? = some draw) :
    Entry form (form.multi mode kind draws) index draw := by
  have hget (position : Nat) (hposition : position < 3) :
      (form.multi mode kind draws).i[3 + index * 3 + position]? =
        [draw.start, (draw.count : Int), (form.copies draw : Int)][position]? := by
    rw [← get_entry form h position hposition, Nat.add_assoc]
    show ([(mode : Int), (kind : Int), (draws.length : Int)] ++ _)[_]? = _
    rw [List.getElem?_append_right (Nat.le_add_right 3 _)]
    show (draws.flatMap _)[3 + (index * 3 + position) - 3]? = _
    rw [Nat.add_sub_cancel_left]
  exact ⟨hget 0 (by decide), hget 1 (by decide), hget 2 (by decide)⟩

private theorem n_of_get {c : Command} {index : Nat} {value : Int} (h : c.i[index]? = some value)
    (hword : -2 ^ 31 ≤ value ∧ value < 2 ^ 31) : c.n index = .ok value := by
  simp only [Command.n, h, if_pos hword]

private theorem n_eq_ok {c : Command} {index : Nat} {value found : Int} (h : c.i[index]? = some value)
    (hok : c.n index = .ok found) : found = value ∧ value < 2 ^ 31 := by
  simp only [Command.n, h] at hok
  split at hok
  next hword => exact ⟨(Except.ok.inj hok).symm, hword.2⟩
  next => cases hok

/-- What is known of the list that is being read. -/
private structure Reading (form : Form) (batch : Batch) (draw : Subdraw) : Prop where
  indexed : batch.indexed = form.indexed
  instanced : batch.instanced = form.instanced
  nonEmpty : form.NonEmpty draw
  work_le : batch.work + form.work draw ≤ MAX_DRAW_VERTICES

private theorem Reading.small (h : Reading form batch draw) :
    draw.count < 2 ^ 31 ∧ form.copies draw < 2 ^ 31 ∧ batch.work + draw.count * form.copies draw < 2 ^ 64 := by
  have hwork := h.work_le
  have hcount := Nat.le_mul_of_pos_right draw.count h.nonEmpty.2
  have hcopies := Nat.le_mul_of_pos_left (form.copies draw) h.nonEmpty.1
  have hbudget : MAX_DRAW_VERTICES < 2 ^ 31 := by decide
  rw [Form.work] at hwork
  omega

private theorem copies_eq (form : Form) (h : form.instanced = false) (draw : Subdraw) : form.copies draw = 1 := by
  rw [Form.copies, h, if_neg Bool.false_ne_true]

private theorem parseDraw_within {c : Command} {index : Nat} (hentry : Entry form c index draw)
    (h : Reading form batch draw) (hwithin : form.Within draw) :
    parseDraw c batch index = .ok { batch with
      draws := batch.draws ++ [form.toDraw draw], work := batch.work + form.work draw } := by
  obtain ⟨hcount, hcopies, hwork⟩ := h.small
  obtain ⟨hstart, hlast, hend⟩ := hwithin
  have hsigns : ¬(draw.start < 0 ∨ (draw.count : Int) < 0 ∨ (form.copies draw : Int) < 0 ∨
      (batch.instanced = false ∧ (form.copies draw : Int) ≠ 1)) := by
    rintro (hneg | hneg | hneg | ⟨hinstanced, hone⟩)
    · omega
    · omega
    · omega
    · rw [h.instanced] at hinstanced
      rw [copies_eq form hinstanced] at hone
      exact hone rfl
  have hrange : ¬(batch.indexed = false ∧ (I32_MAX : Int) + 1 < draw.start + draw.count) := by
    rintro ⟨hindexed, hover⟩
    have hmost := hend (h.indexed ▸ hindexed)
    have hlimit : (I32_MAX : Int) + 1 = 2 ^ 31 := by decide
    omega
  rw [parseDraw, n_of_get hentry.start (by omega), ok_bind, n_of_get hentry.count (by omega), ok_bind,
    n_of_get hentry.instances (by omega), ok_bind, failIf_passed hsigns, ok_bind, failIf_passed hrange, ok_bind,
    Int.toNat_natCast, Int.toNat_natCast, checkedAdd, if_pos hwork]
  rfl

private theorem within_of_parseDraw {c : Command} {index : Nat} (hentry : Entry form c index draw)
    (h : Reading form batch draw) {after : Batch} (hok : parseDraw c batch index = .ok after) :
    form.Within draw := by
  rw [parseDraw] at hok
  obtain ⟨start, hstart, hok⟩ := bind_eq_ok.mp hok
  obtain ⟨count, hcount, hok⟩ := bind_eq_ok.mp hok
  obtain ⟨instances, -, hok⟩ := bind_eq_ok.mp hok
  obtain ⟨hsigns, hok⟩ := failIf_bind_eq_ok.mp hok
  obtain ⟨hrange, -⟩ := failIf_bind_eq_ok.mp hok
  obtain ⟨rfl, hword⟩ := n_eq_ok hentry.start hstart
  obtain ⟨rfl, -⟩ := n_eq_ok hentry.count hcount
  refine ⟨by omega, hword, fun hindexed => ?_⟩
  have hmost := not_and.mp hrange (h.indexed.trans hindexed)
  have hlimit : (I32_MAX : Int) + 1 = 2 ^ 31 := by decide
  omega

/-- The batch after some more draws. -/
private def extend (form : Form) (batch : Batch) (draws : List Subdraw) : Batch :=
  { batch with draws := batch.draws ++ draws.map form.toDraw, work := batch.work + (draws.map form.work).sum }

/-- The draws are read one after the other, until one may not start where it does. -/
private theorem parse_draws {c : Command} {index : Nat} (draws : List Subdraw) (batch : Batch)
    (hentries : ∀ position draw, draws[position]? = some draw → Entry form c (index + position) draw)
    (hindexed : batch.indexed = form.indexed) (hinstanced : batch.instanced = form.instanced)
    (hnonEmpty : ∀ draw ∈ draws, form.NonEmpty draw)
    (hwork : batch.work + (draws.map form.work).sum ≤ MAX_DRAW_VERTICES) (after : Batch) :
    (List.range' index draws.length).foldlM (parseDraw c) batch = .ok after ↔
      (∀ draw ∈ draws, form.Within draw) ∧ after = extend form batch draws := by
  induction draws generalizing index batch with
  | nil =>
    have hsame : extend form batch [] = batch := by
      rw [extend, List.map_nil, List.map_nil, List.append_nil]
      rfl
    rw [hsame]
    show (.ok batch : Result Batch) = .ok after ↔ _
    constructor
    · intro h
      exact ⟨(fun _ hmem => nomatch hmem), (Except.ok.inj h).symm⟩
    · rintro ⟨-, rfl⟩
      rfl
  | cons draw draws ih =>
    obtain ⟨hfirst, hrest⟩ := List.forall_mem_cons.mp hnonEmpty
    rw [List.map_cons, List.sum_cons] at hwork
    have hentry : Entry form c index draw := hentries 0 draw rfl
    have hreading : Reading form batch draw := ⟨hindexed, hinstanced, hfirst, by omega⟩
    rw [List.length_cons, List.range'_succ, List.foldlM_cons, bind_eq_ok, List.forall_mem_cons]
    have hmore (position : Nat) (other : Subdraw) (h : draws[position]? = some other) :
        Entry form c (index + 1 + position) other := by
      rw [Nat.add_assoc, Nat.add_comm 1]
      exact hentries (position + 1) other h
    have hsame : extend form (extend form batch [draw]) draws = extend form batch (draw :: draws) := by
      rw [extend, extend, extend, List.map_cons, List.map_cons, List.sum_cons]
      simp only [List.map_cons, List.map_nil, List.sum_cons, List.sum_nil, List.append_assoc, List.singleton_append,
        Nat.add_zero, Nat.add_assoc]
    have hone : { batch with draws := batch.draws ++ [form.toDraw draw], work := batch.work + form.work draw } =
        extend form batch [draw] := by
      rw [extend, List.map_singleton, List.map_singleton, List.sum_singleton]
    have hfollow := ih (extend form batch [draw]) hmore hindexed hinstanced hrest (by
      rw [← hone]
      show batch.work + form.work draw + _ ≤ _
      omega)
    rw [hsame] at hfollow
    constructor
    · rintro ⟨middle, hmiddle, hlast⟩
      have hwithin := within_of_parseDraw hentry hreading hmiddle
      rw [parseDraw_within hentry hreading hwithin, hone] at hmiddle
      cases hmiddle
      obtain ⟨hdraws, hafter⟩ := hfollow.mp hlast
      exact ⟨⟨hwithin, hdraws⟩, hafter⟩
    · rintro ⟨⟨hwithin, hdraws⟩, hafter⟩
      refine ⟨_, parseDraw_within hentry hreading hwithin, ?_⟩
      rw [hone]
      exact hfollow.mpr ⟨hdraws, hafter⟩

/-- What the checks of a list ask of its numbers, where each draw may start apart. -/
structure Listed (form : Form) (mode kind : Nat) (draws : List Subdraw) : Prop where
  mode_eq : checked_mode mode = .ok mode
  kind_lt : kind < 2 ^ 32
  length_le : draws.length ≤ MAX_DRAWS
  nonEmpty : ∀ draw ∈ draws, form.NonEmpty draw
  work_le : (draws.map form.work).sum ≤ MAX_DRAW_VERTICES

theorem checked_mode_lt {mode found : Nat} (h : checked_mode mode = .ok found) : mode < 2 ^ 32 := by
  rw [checked_mode] at h
  split at h
  next hmode =>
    have hmodes : ∀ mode ∈ [gl.POINTS, gl.LINES, gl.LINE_LOOP, gl.LINE_STRIP, gl.TRIANGLES, gl.TRIANGLE_STRIP,
        gl.TRIANGLE_FAN], mode < 2 ^ 32 := by decide
    exact hmodes mode (List.contains_iff_mem.mp hmode)
  next => cases h

theorem parse_multi (h : Listed form mode kind draws) (batch : Batch) :
    parse (form.multi mode kind draws) = .ok batch ↔ (∀ draw ∈ draws, form.Within draw) ∧
      batch = ⟨mode, kind, form.indexed, form.instanced, draws.map form.toDraw, (draws.map form.work).sum⟩ := by
  have hmode : (form.multi mode kind draws).u 0 = .ok mode := Command.u_of_get rfl (checked_mode_lt h.mode_eq)
  have hkind : (form.multi mode kind draws).u 1 = .ok kind := Command.u_of_get rfl h.kind_lt
  have hmost : MAX_DRAWS < 2 ^ 32 := by decide
  have hcount : (form.multi mode kind draws).u 2 = .ok draws.length :=
    Command.u_of_get rfl (Nat.lt_of_le_of_lt h.length_le hmost)
  have hshape : ¬((form.multi mode kind draws).i.length ≠ 3 + draws.length * 3 ∨
      (form.multi mode kind draws).f ≠ [] ∨ (form.multi mode kind draws).text ≠ []) := by
    rintro (hlength | hnot | hnot)
    · rw [Form.multi, List.length_append, length_multi] at hlength
      exact hlength rfl
    · exact hnot rfl
    · exact hnot rfl
  have hindexed : decide ((form.multi mode kind draws).op = .multiDrawElementsWEBGL ∨
      (form.multi mode kind draws).op = .multiDrawElementsInstancedWEBGL) = form.indexed := by
    cases form <;> rfl
  have hinstanced : decide ((form.multi mode kind draws).op = .multiDrawArraysInstancedWEBGL ∨
      (form.multi mode kind draws).op = .multiDrawElementsInstancedWEBGL) = form.instanced := by
    cases form <;> rfl
  rw [parse, hmode, ok_bind, h.mode_eq, ok_bind, hkind, ok_bind, hcount, ok_bind,
    failIf_passed (Nat.not_lt.mpr h.length_le), ok_bind, failIf_passed hshape, ok_bind]
  simp only [hindexed, hinstanced, List.range_eq_range']
  have hentries (position : Nat) (draw : Subdraw) (hdraw : draws[position]? = some draw) :
      Entry form (form.multi mode kind draws) (0 + position) draw := by
    rw [Nat.zero_add]
    exact entry_multi hdraw
  have hread := parse_draws draws ⟨mode, kind, form.indexed, form.instanced, [], 0⟩ hentries rfl rfl h.nonEmpty
    (by rw [Nat.zero_add]; exact h.work_le) batch
  rw [hread, extend, List.nil_append, Nat.zero_add]

end Batch

namespace WebGl

variable {driver : Driver} {context : WebGl} {form : Form} {mode kind size : Nat} {draws : List Subdraw}
  {draw : Subdraw}

/-! ## What lists and single draws both need -/

/-- Draws write to the buffers of a capture. -/
def Capturing (context : WebGl) : Prop :=
  context.api = .Two ∧ ∃ record, context.bound_record = .ok record ∧ record.active = true ∧ record.paused = false

/-- The call of the driver is made. -/
def Admitted (driver : Driver) (c : Command) (context : WebGl) : Prop :=
  ∃ call, (draw_command driver c context).2.calls = context.calls ++ [call]

/-- The checks that do not look at where the draws start, at indices and attributes. -/
structure SharedChecks (driver : Driver) (context : WebGl) (form : Form) (mode kind : Nat) (draws : List Subdraw) :
    Prop where
  listed : Batch.Listed form mode kind draws
  size : form.indexed = true → ∃ size, context.index_size kind = .ok size
  multi : context.extensions.multi_draw = true ∧ context.extensions.multi_draw_entries = true
  instanced : form.instanced = true → context.extensions.instancing = true ∧
    (if form.indexed then context.extensions.elements else context.extensions.arrays) = true
  drawable : Drawable driver context

theorem Drawable.in_view (h : Drawable driver context) : Drawable driver (settled driver context) :=
  ⟨validate_program_settled.trans h.program, h.framebuffer, h.sampling⟩

/-- Without a capture there is nothing to prepare. -/
theorem Drawable.uncaptured (h : Drawable driver context) (hcapturing : ¬Capturing context) (mode : Nat)
    (indexed : Bool) (draws : List (Nat × Nat)) :
    (settled driver context).prepare_transform_capture mode indexed draws = .ok 0 := by
  rw [prepare_transform_capture_settled, prepare_transform_capture]
  by_cases hapi : context.api = .One
  · rw [if_pos hapi]
  · rw [if_neg hapi]
    have hprogram := h.program
    rw [validate_program, validate_transform_draw, if_neg hapi] at hprogram
    obtain ⟨_, hdraw, -⟩ := bind_eq_ok.mp hprogram
    obtain ⟨record, hrecord, -⟩ := bind_eq_ok.mp hdraw
    rw [hrecord, ok_bind]
    have hidle : record.active = false ∨ record.paused = true := by
      by_contra hrunning
      obtain ⟨hactive, hpaused⟩ := not_or.mp hrunning
      have hcore : context.api = .Two := by
        cases hcase : context.api with
        | One => exact absurd hcase hapi
        | Two => rfl
      exact hcapturing ⟨hcore, record, hrecord, Bool.of_not_eq_false hactive, Bool.of_not_eq_true hpaused⟩
    rw [if_pos hidle]

theorem admitted_iff {c : Command} {checks : Gl (Option (NativeDraw × Nat))} {Issued : WebGl → NativeDraw × Nat → Prop}
    (h : Issues driver checks Issued) (hcontext : Coherent driver context)
    (hrun : draw_command driver c context = (checks >>= perform driver) context) :
    Admitted driver c context ↔ ∃ issued, Issued (settled driver context) issued := by
  rw [Admitted, hrun]
  obtain ⟨issued, hissued, hcalls⟩ | ⟨hnone, hcalls, -⟩ := h.calls hcontext
  · exact iff_of_true ⟨issued.1, hcalls⟩ ⟨issued, hissued⟩
  · refine iff_of_false ?_ fun ⟨issued, hissued⟩ => hnone issued hissued
    rintro ⟨call, hcall⟩
    rw [hcalls] at hcall
    exact List.cons_ne_nil call [] (List.self_eq_append_right.mp hcall)

/-- Where the draw starts, its indices and its attributes pass. -/
structure Passes (driver : Driver) (view : WebGl) (form : Form) (size : Nat) (draw : Subdraw) : Prop where
  within : form.Within draw
  ranges : DrawPasses driver view form.indexed size form.instanced (form.toDraw draw)

/-! ## Lists -/

private theorem work_le_of_mem (h : (draws.map form.work).sum ≤ MAX_DRAW_VERTICES) (hmem : draw ∈ draws) :
    form.work draw ≤ MAX_DRAW_VERTICES :=
  Nat.le_trans (List.le_sum_of_mem (List.mem_map_of_mem hmem)) h

private theorem in_budget {h : Batch.Listed form mode kind draws} :
    ¬(MAX_DRAW_VERTICES < (draws.map form.work).sum ∨
      ∃ draw ∈ draws.map form.toDraw, MAX_DRAW_VERTICES < draw.count ∨ MAX_DRAW_VERTICES < draw.instances) := by
  rintro (hwork | ⟨_, hmem, hover⟩)
  · exact Nat.not_lt.mpr h.work_le hwork
  · obtain ⟨draw, hdraw, rfl⟩ := List.mem_map.mp hmem
    have hnonEmpty := h.nonEmpty draw hdraw
    have hwithin := work_within (Nat.ne_of_gt hnonEmpty.1) (Nat.ne_of_gt hnonEmpty.2) (work_le_of_mem h.work_le hdraw)
    obtain hcount | hinstances := hover
    · exact hwithin (.inl hcount)
    · exact hwithin (.inr (.inl hinstances))

/-- A list is admitted when each of its draws passes. -/
theorem multi_admitted_iff (hcontext : Coherent driver context) (h : SharedChecks driver context form mode kind draws)
    (hcapturing : ¬Capturing context) (hsize : (if form.indexed = true then context.index_size kind else .ok 0) = .ok size) :
    Admitted driver (form.multi mode kind draws) context ↔
      ∀ draw ∈ draws, Passes driver (settled driver context) form size draw := by
  have hrun : draw_command driver (form.multi mode kind draws) context =
      (checkBatch driver (form.multi mode kind draws) >>= perform driver) context := by
    cases form <;> rfl
  rw [admitted_iff (issues_checkBatch _) hcontext hrun]
  constructor
  · rintro ⟨_, batch, found, captured, hbatch, -⟩ draw hdraw
    obtain ⟨hwithin, rfl⟩ := (Batch.parse_multi h.listed batch).mp hbatch.parsed
    have hfound : found = size := Except.ok.inj (hbatch.size_eq.symm.trans hsize)
    subst hfound
    exact ⟨hwithin draw hdraw, hbatch.passes _ (List.mem_map_of_mem hdraw)⟩
  · intro hpasses
    have hparsed := (Batch.parse_multi h.listed _).mpr ⟨fun draw hdraw => (hpasses draw hdraw).within, rfl⟩
    refine ⟨_, _, size, 0, ⟨h.multi.1, hparsed, in_budget (h := h.listed), hsize, h.drawable.in_view,
      h.drawable.uncaptured hcapturing _ _ _, ?_, h.multi.2⟩, rfl⟩
    intro other hother
    obtain ⟨draw, hdraw, rfl⟩ := List.mem_map.mp hother
    exact (hpasses draw hdraw).ranges

/-! ## Single draws -/

private theorem u_eq_ok {c : Command} {index : Nat} {value : Int} (h : c.i[index]? = some value) (found : Nat) :
    c.u index = .ok found ↔ (found : Int) = value ∧ found < 2 ^ 32 := by
  simp only [Command.u, h]
  split
  next hword =>
    constructor
    · intro hfound
      rw [← Except.ok.inj hfound]
      omega
    · rintro ⟨rfl, -⟩
      rw [Int.toNat_natCast]
  next hword =>
    constructor
    · intro hfound
      cases hfound
    · rintro ⟨rfl, hlt⟩
      exact absurd ⟨Int.natCast_nonneg found, by exact_mod_cast hlt⟩ hword

/-- An element buffer is shorter than the largest start of a list. -/
private theorem IndicesAdmitted.start_lt (hcontext : Coherent driver context) {offset count instances : Nat}
    {instanced : Bool} (h : IndicesAdmitted driver (settled driver context) size ⟨offset, count, instances⟩ instanced) :
    offset < 2 ^ 31 := by
  obtain ⟨maximum, hmaximum, -⟩ := h.range
  obtain ⟨object, hobject, -, hrange, -⟩ := hmaximum.live
  obtain ⟨buffer, hbuffer, hbytes⟩ := get_of_settled hobject
  have hfits := hcontext.fits _ _ hbuffer
  have hlength := hcontext.length _ _ hbuffer
  have hlimit : MAX_UPLOAD_BYTES < 2 ^ 31 := by decide
  rw [hbytes] at hrange
  have hstart : offset + count * size ≤ buffer.contents.length := hrange
  omega

private theorem passes_elements (hcontext : Coherent driver context) (hindexed : form.indexed = true)
    (hnonEmpty : form.NonEmpty draw) :
    Passes driver (settled driver context) form size draw ↔ ∃ offset : Nat, (offset : Int) = draw.start ∧
      offset < 2 ^ 32 ∧ IndicesAdmitted driver (settled driver context) size
        ⟨offset, draw.count, form.copies draw⟩ form.instanced := by
  have hpasses : DrawPasses driver (settled driver context) true size form.instanced (form.toDraw draw) ↔
      IndicesAdmitted driver (settled driver context) size (form.toDraw draw) form.instanced :=
    drawPasses_elements (Nat.ne_of_gt hnonEmpty.1) (Nat.ne_of_gt hnonEmpty.2)
  constructor
  · rintro ⟨⟨hstart, hlast, -⟩, hranges⟩
    rw [hindexed] at hranges
    exact ⟨draw.start.toNat, Int.toNat_of_nonneg hstart, by omega, hpasses.mp hranges⟩
  · rintro ⟨offset, hoffset, -, hadmitted⟩
    have hlast := hadmitted.start_lt hcontext
    have hsame : form.toDraw draw = ⟨offset, draw.count, form.copies draw⟩ := by
      rw [Form.toDraw, ← hoffset, Int.toNat_natCast]
    refine ⟨⟨by omega, by omega, fun hplain => ?_⟩, ?_⟩
    · rw [hindexed] at hplain
      cases hplain
    · rw [hindexed]
      rw [← hsame] at hadmitted
      exact hpasses.mpr hadmitted

private theorem passes_arrays (hplain : form.indexed = false) (hnonEmpty : form.NonEmpty draw) :
    Passes driver (settled driver context) form size draw ↔ ∃ first : Nat, (first : Int) = draw.start ∧
      first + (draw.count - 1) ≤ I32_MAX ∧ AttributesAdmitted driver (settled driver context)
        (first + (draw.count - 1)) (form.copies draw) form.instanced := by
  have hlimit : I32_MAX + 1 = 2 ^ 31 := by decide
  obtain ⟨hcount, hcopies⟩ := hnonEmpty
  constructor
  · rintro ⟨⟨hstart, hlast, hend⟩, hranges⟩
    have hmost := hend hplain
    have hword : (form.toDraw draw).start + ((form.toDraw draw).count - 1) < 2 ^ 32 := by
      show draw.start.toNat + (draw.count - 1) < 2 ^ 32
      omega
    rw [hplain] at hranges
    exact ⟨draw.start.toNat, Int.toNat_of_nonneg hstart, by omega,
      (drawPasses_arrays (Nat.ne_of_gt hcount) (Nat.ne_of_gt hcopies) hword).mp hranges⟩
  · rintro ⟨first, hfirst, hlast, hadmitted⟩
    have hsame : form.toDraw draw = ⟨first, draw.count, form.copies draw⟩ := by
      rw [Form.toDraw, ← hfirst, Int.toNat_natCast]
    refine ⟨⟨by omega, by omega, fun _ => by omega⟩, ?_⟩
    have hword : first + (draw.count - 1) < 2 ^ 32 := by omega
    rw [hplain, hsame]
    exact (drawPasses_arrays (Nat.ne_of_gt hcount) (Nat.ne_of_gt hcopies) hword).mpr hadmitted

private theorem run_arrays {c : Command} (h : c.op = .drawArrays) :
    draw_command driver c context = (checkArrays driver c >>= perform driver) context := by
  rw [draw_command, h]
  rfl

private theorem run_elements {c : Command} (h : c.op = .drawElements) :
    draw_command driver c context = (checkElements driver c >>= perform driver) context := by
  rw [draw_command, h]
  rfl

private theorem single_arrays (hcontext : Coherent driver context)
    (h : SharedChecks driver context .arrays mode kind draws) (hcapturing : ¬Capturing context)
    (hnonEmpty : Form.arrays.NonEmpty draw) (hwork : Form.arrays.work draw ≤ MAX_DRAW_VERTICES) :
    Admitted driver (Form.arrays.single context.api mode kind draw) context ↔
      Passes driver (settled driver context) .arrays size draw := by
  rw [admitted_iff (issues_checkArrays _) hcontext (run_arrays rfl), passes_arrays rfl hnonEmpty]
  have hmode : (Form.arrays.single context.api mode kind draw).u 0 = .ok mode :=
    Command.u_of_get rfl (Batch.checked_mode_lt h.listed.mode_eq)
  constructor
  · rintro ⟨_, mode, first, count, captured, hadmitted, -⟩
    obtain ⟨hfirst, -⟩ := (u_eq_ok rfl first).mp hadmitted.first_eq
    obtain ⟨hcount, -⟩ := (u_eq_ok rfl count).mp hadmitted.count_eq
    obtain rfl := Int.ofNat_inj.mp hcount
    exact ⟨first, hfirst, hadmitted.last_le, hadmitted.attributes (Nat.ne_of_gt hnonEmpty.1)⟩
  · rintro ⟨first, hfirst, hlast, hattributes⟩
    have hlimit : I32_MAX < 2 ^ 32 := by decide
    have hcount : draw.count ≤ MAX_DRAW_VERTICES := by
      rw [Form.work] at hwork
      exact Nat.le_trans (Nat.le_mul_of_pos_right _ hnonEmpty.2) hwork
    have hbudget : MAX_DRAW_VERTICES < 2 ^ 32 := by decide
    refine ⟨_, mode, first, draw.count, 0, ⟨?_, ?_, ?_, hcount, hlast, fun _ => hattributes, h.drawable.in_view,
      h.drawable.uncaptured hcapturing _ _ _⟩, rfl⟩
    · rw [hmode, ok_bind, h.listed.mode_eq]
    · exact (u_eq_ok rfl first).mpr ⟨hfirst, by omega⟩
    · exact (u_eq_ok rfl draw.count).mpr ⟨rfl, by omega⟩

private theorem single_elements (hcontext : Coherent driver context)
    (h : SharedChecks driver context .elements mode kind draws) (hsize : context.index_size kind = .ok size)
    (hnonEmpty : Form.elements.NonEmpty draw) (hwork : Form.elements.work draw ≤ MAX_DRAW_VERTICES) :
    Admitted driver (Form.elements.single context.api mode kind draw) context ↔
      Passes driver (settled driver context) .elements size draw := by
  rw [admitted_iff (issues_checkElements _) hcontext (run_elements rfl), passes_elements hcontext rfl hnonEmpty]
  have hmode : (Form.elements.single context.api mode kind draw).u 0 = .ok mode :=
    Command.u_of_get rfl (Batch.checked_mode_lt h.listed.mode_eq)
  constructor
  · rintro ⟨_, mode, count, found, offset, width, hadmitted, -⟩
    obtain ⟨hoffset, hlast⟩ := (u_eq_ok rfl offset).mp hadmitted.offset_eq
    obtain ⟨hcount, -⟩ := (u_eq_ok rfl count).mp hadmitted.count_eq
    obtain ⟨hkind, -⟩ := (u_eq_ok rfl found).mp hadmitted.kind_eq
    obtain rfl := Int.ofNat_inj.mp hcount
    obtain rfl := Int.ofNat_inj.mp hkind
    obtain rfl : width = size := Except.ok.inj (hadmitted.size_eq.symm.trans hsize)
    exact ⟨offset, hoffset, hlast, hadmitted.indices⟩
  · rintro ⟨offset, hoffset, hlast, hindices⟩
    have hcount : draw.count ≤ MAX_DRAW_VERTICES := by
      rw [Form.work] at hwork
      exact Nat.le_trans (Nat.le_mul_of_pos_right _ hnonEmpty.2) hwork
    have hbudget : MAX_DRAW_VERTICES < 2 ^ 32 := by decide
    refine ⟨_, mode, draw.count, kind, offset, size, ⟨?_, ?_, ?_, ?_, hsize, hcount, Nat.ne_of_gt hnonEmpty.1, hindices,
      h.drawable.in_view⟩, rfl⟩
    · rw [hmode, ok_bind, h.listed.mode_eq]
    · exact (u_eq_ok rfl draw.count).mpr ⟨rfl, by omega⟩
    · exact (u_eq_ok rfl kind).mpr ⟨rfl, h.listed.kind_lt⟩
    · exact (u_eq_ok rfl offset).mpr ⟨hoffset, hlast⟩

private theorem elementsInstanced_single (api : ApiVersion) (hinstanced : form.instanced = true) :
    Command.elementsInstanced (form.single api mode kind draw) = form.indexed := by
  cases form with
  | arrays => cases hinstanced
  | elements => cases hinstanced
  | arraysInstanced => cases api <;> rfl
  | elementsInstanced => cases api <;> rfl

private theorem run_instanced (hinstanced : form.instanced = true) :
    draw_command driver (form.single context.api mode kind draw) context =
      (checkInstanced driver (form.single context.api mode kind draw) >>= perform driver) context := by
  have hcore (c : Command) (hapi : context.api = .Two) : core_only (instanced_command driver c) context =
      (checkInstanced driver c >>= perform driver) context := by
    rw [core_only, Method.run_get_bind, if_neg (not_not.mpr hapi)]
    rfl
  cases form with
  | arrays => cases hinstanced
  | elements => cases hinstanced
  | arraysInstanced =>
    cases hapi : context.api with
    | One => rfl
    | Two => exact hcore _ hapi
  | elementsInstanced =>
    cases hapi : context.api with
    | One => rfl
    | Two => exact hcore _ hapi

/-- The numbers of an instanced draw, where its function keeps them. -/
private theorem instanced_numbers (hinstanced : form.instanced = true) (api : ApiVersion) (mode kind : Nat)
    (draw : Subdraw) :
    (form.single api mode kind draw).i[0]? = some (mode : Int) ∧
      (form.single api mode kind draw).i[if form.indexed then 1 else 2]? = some (draw.count : Int) ∧
      (form.single api mode kind draw).i[if form.indexed then 4 else 3]? = some (draw.instances : Int) := by
  cases form with
  | arrays => cases hinstanced
  | elements => cases hinstanced
  | arraysInstanced => exact ⟨rfl, rfl, rfl⟩
  | elementsInstanced => exact ⟨rfl, rfl, rfl⟩

private theorem copies_instanced (hinstanced : form.instanced = true) (draw : Subdraw) : form.copies draw = draw.instances := by
  rw [Form.copies, hinstanced, if_pos rfl]

private theorem instanced_admitted (h : SharedChecks driver context form mode kind draws)
    (hcapturing : ¬Capturing context) (hinstanced : form.instanced = true) (hnonEmpty : form.NonEmpty draw)
    (hwork : form.work draw ≤ MAX_DRAW_VERTICES) :
    InstancedAdmitted driver (form.single context.api mode kind draw) (settled driver context) mode draw.count
      draw.instances 0 := by
  obtain ⟨hmode, hcount, hinstances⟩ := instanced_numbers hinstanced context.api mode kind draw
  have hcopies := copies_instanced hinstanced draw
  obtain ⟨hsome, hcopy⟩ := hnonEmpty
  rw [Form.work, hcopies] at hwork
  rw [hcopies] at hcopy
  have hwithin := work_within (Nat.ne_of_gt hsome) (Nat.ne_of_gt hcopy) hwork
  have hbudget : MAX_DRAW_VERTICES < 2 ^ 32 := by decide
  refine ⟨(h.instanced hinstanced).1, ?_, ?_, ?_, hwork, Nat.ne_of_gt hsome, Nat.ne_of_gt hcopy, h.drawable.in_view,
    h.drawable.uncaptured hcapturing _ _ _⟩
  · rw [Command.u_of_get hmode (Batch.checked_mode_lt h.listed.mode_eq), ok_bind, h.listed.mode_eq]
  · rw [elementsInstanced_single _ hinstanced]
    exact (u_eq_ok hcount draw.count).mpr ⟨rfl, by omega⟩
  · rw [elementsInstanced_single _ hinstanced]
    exact (u_eq_ok hinstances draw.instances).mpr ⟨rfl, by omega⟩

/-- The counts of an admitted draw are its own. -/
private theorem InstancedAdmitted.numbers (hinstanced : form.instanced = true) {api : ApiVersion} {view : WebGl}
    {found count instances captured : Nat}
    (h : InstancedAdmitted driver (form.single api mode kind draw) view found count instances captured) :
    count = draw.count ∧ instances = draw.instances := by
  obtain ⟨-, hcount, hinstances⟩ := instanced_numbers hinstanced api mode kind draw
  have hfirst := h.count_eq
  have hsecond := h.instances_eq
  rw [elementsInstanced_single _ hinstanced] at hfirst hsecond
  exact ⟨Int.ofNat_inj.mp ((u_eq_ok hcount count).mp hfirst).1,
    Int.ofNat_inj.mp ((u_eq_ok hinstances instances).mp hsecond).1⟩

private theorem single_arraysInstanced (hcontext : Coherent driver context)
    (h : SharedChecks driver context .arraysInstanced mode kind draws) (hcapturing : ¬Capturing context)
    (hnonEmpty : Form.arraysInstanced.NonEmpty draw)
    (hwork : Form.arraysInstanced.work draw ≤ MAX_DRAW_VERTICES) :
    Admitted driver (Form.arraysInstanced.single context.api mode kind draw) context ↔
      Passes driver (settled driver context) .arraysInstanced size draw := by
  have hplain : Command.elementsInstanced (Form.arraysInstanced.single context.api mode kind draw) = false :=
    elementsInstanced_single context.api rfl
  have hlimit : I32_MAX + 1 < 2 ^ 32 := by decide
  rw [admitted_iff (issues_checkInstanced _) hcontext (run_instanced rfl), passes_arrays rfl hnonEmpty]
  constructor
  · rintro ⟨_, found, count, instances, captured, hadmitted, ⟨hindexed, -⟩ | ⟨-, first, hranges, -⟩⟩
    · rw [hplain] at hindexed
      cases hindexed
    · obtain ⟨rfl, rfl⟩ := hadmitted.numbers rfl
      obtain ⟨hfirst, -⟩ := (u_eq_ok rfl first).mp hranges.first_eq
      have hlast := hranges.last_le
      have hcount := hnonEmpty.1
      have hsame : first + draw.count - 1 = first + (draw.count - 1) := by omega
      refine ⟨first, hfirst, by omega, ?_⟩
      rw [← hsame]
      exact hranges.attributes
  · rintro ⟨first, hfirst, hlast, hattributes⟩
    have hcount := hnonEmpty.1
    have hsame : first + (draw.count - 1) = first + draw.count - 1 := by omega
    rw [hsame] at hattributes
    refine ⟨_, mode, draw.count, draw.instances, 0, instanced_admitted h hcapturing rfl hnonEmpty hwork,
      .inr ⟨hplain, first, ⟨?_, by omega, by omega, hattributes, (h.instanced rfl).2⟩, rfl⟩⟩
    exact (u_eq_ok rfl first).mpr ⟨hfirst, by omega⟩

private theorem single_elementsInstanced (hcontext : Coherent driver context)
    (h : SharedChecks driver context .elementsInstanced mode kind draws) (hcapturing : ¬Capturing context)
    (hsize : context.index_size kind = .ok size) (hnonEmpty : Form.elementsInstanced.NonEmpty draw)
    (hwork : Form.elementsInstanced.work draw ≤ MAX_DRAW_VERTICES) :
    Admitted driver (Form.elementsInstanced.single context.api mode kind draw) context ↔
      Passes driver (settled driver context) .elementsInstanced size draw := by
  have hindexed : Command.elementsInstanced (Form.elementsInstanced.single context.api mode kind draw) = true :=
    elementsInstanced_single context.api rfl
  rw [admitted_iff (issues_checkInstanced _) hcontext (run_instanced rfl), passes_elements hcontext rfl hnonEmpty]
  constructor
  · rintro ⟨_, found, count, instances, captured, hadmitted, ⟨-, own, offset, width, hranges, -⟩ | ⟨hplain, -⟩⟩
    · obtain ⟨rfl, rfl⟩ := hadmitted.numbers rfl
      obtain ⟨hoffset, hlast⟩ := (u_eq_ok rfl offset).mp hranges.offset_eq
      obtain ⟨hkind, -⟩ := (u_eq_ok rfl own).mp hranges.kind_eq
      obtain rfl := Int.ofNat_inj.mp hkind
      obtain rfl : width = size := Except.ok.inj (hranges.size_eq.symm.trans hsize)
      exact ⟨offset, hoffset, hlast, hranges.indices⟩
    · rw [hindexed] at hplain
      cases hplain
  · rintro ⟨offset, hoffset, hlast, hindices⟩
    refine ⟨_, mode, draw.count, draw.instances, 0, instanced_admitted h hcapturing rfl hnonEmpty hwork,
      .inl ⟨hindexed, kind, offset, size, ⟨?_, ?_, hsize, hindices, (h.instanced rfl).2⟩, rfl⟩⟩
    · exact (u_eq_ok rfl kind).mpr ⟨rfl, h.listed.kind_lt⟩
    · exact (u_eq_ok rfl offset).mpr ⟨hoffset, hlast⟩

/-- A draw alone is admitted when it passes. -/
theorem single_admitted_iff (hcontext : Coherent driver context) (h : SharedChecks driver context form mode kind draws)
    (hcapturing : ¬Capturing context)
    (hsize : (if form.indexed = true then context.index_size kind else .ok 0) = .ok size) (hdraw : draw ∈ draws) :
    Admitted driver (form.single context.api mode kind draw) context ↔
      Passes driver (settled driver context) form size draw := by
  have hnonEmpty := h.listed.nonEmpty draw hdraw
  have hwork := work_le_of_mem h.listed.work_le hdraw
  cases form with
  | arrays => exact single_arrays hcontext h hcapturing hnonEmpty hwork
  | elements => exact single_elements hcontext h hsize hnonEmpty hwork
  | arraysInstanced => exact single_arraysInstanced hcontext h hcapturing hnonEmpty hwork
  | elementsInstanced => exact single_elementsInstanced hcontext h hcapturing hsize hnonEmpty hwork

/-- What a call reads lies in buffers, a refused command calls nothing and leaves the view as it is, and a
list of draws is admitted exactly when each of its draws is, alone. -/
theorem draw_admission (h : Coherent driver context) :
    (∀ c, ((∃ call, (draw_command driver c context).2.calls = context.calls ++ [call] ∧ Safe driver context call) ∨
      (draw_command driver c context).2.calls = context.calls ∧
        settled driver (draw_command driver c context).2 = settled driver context)) ∧
    ∀ form mode kind draws, ¬Capturing context → SharedChecks driver context form mode kind draws →
      (Admitted driver (form.multi mode kind draws) context ↔
        ∀ draw ∈ draws, Admitted driver (form.single context.api mode kind draw) context) := by
  constructor
  · intro c
    obtain ⟨checks, Issued, hissues, hsound, hrun⟩ | ⟨error, hrun⟩ := draw_command_cases driver c context
    · rw [hrun]
      obtain ⟨issued, hissued, hcalls⟩ | ⟨-, hcalls, hview⟩ := hissues.calls h
      · left
        obtain ⟨size, instanced, hsize, hdraws⟩ := hsound _ _ hissued
        exact ⟨issued.1, hcalls, safe_of_passes hsize hdraws⟩
      · exact .inr ⟨hcalls, hview⟩
    · rw [hrun]
      exact .inr ⟨rfl, rfl⟩
  · intro form mode kind draws hcapturing hshared
    have hsize : ∃ size, (if form.indexed = true then context.index_size kind else .ok 0) = .ok size := by
      cases hindexed : form.indexed with
      | true => exact hshared.size hindexed
      | false => exact ⟨0, rfl⟩
    obtain ⟨size, hsize⟩ := hsize
    rw [multi_admitted_iff h hshared hcapturing hsize]
    exact forall₂_congr fun draw hdraw => (single_admitted_iff h hshared hcapturing hsize hdraw).symm

/-! ## One buffer -/

/-- A driver whose programs read one number for each vertex. -/
def oneInput : Driver :=
  { generate := fun _ => ⟨1, Nat.one_ne_zero⟩
    link_status := fun _ => 1
    active_attributes := fun _ => .ok 1
    active_attribute := fun _ _ => .ok ⟨1, 1, gl.FLOAT, 0⟩
    active_uniform_blocks := fun _ => 0
    uniform_block_binding := fun _ _ => -1
    uniform_alignment := 256
    transform_varyings := fun _ => 0
    transform_buffer_mode := fun _ => 0x8c8c
    transform_name_length := fun _ => 1
    transform_varying := fun _ _ => ⟨0, 1, gl.FLOAT⟩
    map_buffer := fun _ => .ok ()
    draw_result := fun _ => .ok ()
    captured := fun _ _ bytes => bytes
    packed := fun _ bytes => bytes }

/-- Three numbers in a buffer, and a program. -/
def threeNumbers : WebGl :=
  { api := .Two
    core := some ⟨2 ^ 32 - 1⟩
    core_buffer_bindings := .empty
    objects :=
      { entries := (OrdMap.empty.insert 1 ⟨.Buffer, 1, List.replicate 12 0, true, gl.ARRAY_BUFFER, 0, false, false, 1,
          List.replicate 12 0⟩).insert 2 ⟨.Program, 1, [], true, 0, 0, false, false, 1, []⟩
        next_object := 3
        saturated := false }
    index_cache := []
    attribute_reflection := []
    array_buffer := 0
    element_buffer := 0
    program := 2
    attributes := [{ Attribute.default with buffer := 1, size := 4, enabled := true }]
    extensions := ⟨true, true, true, true, true, true, true, true, true⟩
    vertex_arrays := ⟨0, 0, .empty⟩
    indexed_uniforms := []
    transform_feedback := ⟨0, OrdMap.empty.insert 0 (.new 4), 4⟩
    framebuffer := .ok ()
    sampling := .ok ()
    storage := fun _ _ => .ok ()
    pack_layout := fun _ => .ok 0
    calls := [] }

private theorem coherent_threeNumbers : Coherent oneInput threeNumbers := by
  have hbuffer (id : Nat) (object : Object) (h : threeNumbers.objects.get id .Buffer = .ok object) :
      object.bytes = object.contents ∧ object.bytes.length = 12 := by
    obtain ⟨hget, hkind⟩ := Objects.get_eq_ok.mp h
    rw [threeNumbers, OrdMap.get_insert, OrdMap.get_insert] at hget
    split_ifs at hget
    · cases hget
      cases hkind
    · cases hget
      exact ⟨rfl, rfl⟩
    · cases hget
  constructor
  · intro id object h
    rw [(hbuffer id object h).1]
  · intro id object h
    rw [(hbuffer id object h).2]
    decide
  · intro id object h _
    exact (hbuffer id object h).1
  · exact fun _ hmem => nomatch hmem
  · exact fun _ hmem => nomatch hmem

theorem draw_admission_three_numbers :
    Admitted oneInput (Form.arrays.multi gl.POINTS 0 [⟨0, 2, 1⟩, ⟨1, 2, 1⟩]) threeNumbers ↔
      ∀ draw ∈ [(⟨0, 2, 1⟩ : Subdraw), ⟨1, 2, 1⟩],
        Admitted oneInput (Form.arrays.single threeNumbers.api gl.POINTS 0 draw) threeNumbers := by
  have hcapturing : ¬Capturing threeNumbers := by
    rintro ⟨-, record, hrecord, hactive, -⟩
    cases hrecord
    cases hactive
  have hshared : SharedChecks oneInput threeNumbers .arrays gl.POINTS 0 [⟨0, 2, 1⟩, ⟨1, 2, 1⟩] := by
    refine ⟨⟨rfl, by decide, by decide, ?_, by decide⟩, (fun h => nomatch h), ⟨rfl, rfl⟩, (fun h => nomatch h),
      ⟨rfl, rfl, rfl⟩⟩
    intro draw hmem
    rw [Form.NonEmpty]
    revert draw
    decide
  exact (draw_admission coherent_threeNumbers).2 .arrays gl.POINTS 0 _ hcapturing hshared

end WebGl

end BetterWebBrowser.Webgl
