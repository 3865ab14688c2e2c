import BetterWebBrowser.Webgl.Lookups
import BetterWebBrowser.Webgl.Commands
import BetterWebBrowser.Webgl.References

/-!
# References over commands

Which places of a context refer to a buffer, and that every command keeps the counts of the table
equal to them.
-/

namespace BetterWebBrowser.Webgl

open Framework
open Objects (Ages Counted Fresh Plain)

/-! ## The places of a context -/

/-- How often a buffer is referred to: by the current array, by the saved states of arrays that are not
bound, by uniform ranges and by the ranges of all transform feedbacks. -/
def places (current : VertexState) (arrays : VertexArrays) (uniforms : List Binding) (records : OrdMap Nat Record)
    (id : Nat) : Nat :=
  current.slots.count id + (arrays.states.erase arrays.bound).weight (fun _ state => state.slots.count id) +
    (uniforms.map fun binding => binding.id).count id +
    records.weight fun _ record => (record.bindings.map fun binding => binding.id).count id

/-- The name is none of a buffer, and will not be. -/
def Other (objects : Objects) (id : Nat) : Prop :=
  id < objects.next_object ∧ ∀ object, objects.entries.get id = some object → object.kind ≠ .Buffer

/-- One of a list of places changes. -/
theorem count_map_set {A : Type} (buffer : A → Nat) {items : List A} {index : Nat} {previous : A}
    (h : items[index]? = some previous) (item : A) (id : Nat) :
    ((items.set index item).map buffer).count id + (if id = buffer previous then 1 else 0) =
      (items.map buffer).count id + if id = buffer item then 1 else 0 := by
  induction items generalizing index with
  | nil => cases h
  | cons first items ih =>
    cases index with
    | zero =>
      obtain rfl := Option.some.inj h
      have hword (buffer : Nat) : (if buffer == id then 1 else 0) = if id = buffer then 1 else 0 :=
        if_congr (beq_iff_eq.trans eq_comm) rfl rfl
      simp only [List.set_cons_zero, List.map_cons, List.count_cons, hword]
      omega
    | succ index =>
      have hrest := ih h
      simp only [List.set_cons_succ, List.map_cons, List.count_cons]
      omega

/-- All places of one buffer are cleared. -/
theorem count_map_clear {A : Type} (buffer : A → Nat) (items : List A) (id : Nat) (clear : A → A)
    (hclear : ∀ item, buffer (clear item) = if buffer item = id then 0 else buffer item) {other : Nat}
    (hother : other ≠ 0) :
    ((items.map clear).map buffer).count other +
        ((items.filter fun item => decide (buffer item = id)).map buffer).count other =
      (items.map buffer).count other := by
  induction items with
  | nil => rfl
  | cons item items ih =>
    rw [List.map_cons, List.map_cons, List.map_cons, List.count_cons, List.count_cons, hclear, ← ih]
    by_cases hitem : buffer item = id
    · have hzero : (0 == other) = false := beq_eq_false_iff_ne.mpr hother.symm
      have hcons : (item :: items).filter (fun item => decide (buffer item = id)) =
          item :: items.filter fun item => decide (buffer item = id) := List.filter_cons_of_pos (decide_eq_true hitem)
      rw [if_pos hitem, hcons, List.map_cons, List.count_cons, hzero, if_neg Bool.false_ne_true]
      omega
    · have hcons : (item :: items).filter (fun item => decide (buffer item = id)) =
          items.filter fun item => decide (buffer item = id) :=
        List.filter_cons_of_neg (fun h => hitem (of_decide_eq_true h))
      rw [if_neg hitem, hcons]
      omega

section

variable (current : VertexState) (arrays : VertexArrays) (uniforms : List Binding) (records : OrdMap Nat Record)

/-- Binding an array moves places between the current and the saved states. -/
theorem places_bind {id : Nat} {next : VertexState} (hstate : arrays.states.get id = some next)
    (hid : id ≠ arrays.bound) :
    places next { arrays with states := arrays.states.insert arrays.bound current, bound := id } uniforms records =
      places current arrays uniforms records := by
  funext other
  let cost : Nat → VertexState → Nat := fun _ state => state.slots.count other
  have hnext : ((arrays.states.insert arrays.bound current).erase id).weight cost + next.slots.count other =
      (arrays.states.insert arrays.bound current).weight cost :=
    OrdMap.weight_erase_of_some cost (by rw [OrdMap.get_insert_ne _ _ hid, hstate])
  have hcurrent : ((arrays.states.insert arrays.bound current).erase arrays.bound).weight cost +
      current.slots.count other = (arrays.states.insert arrays.bound current).weight cost :=
    OrdMap.weight_erase_of_some cost (OrdMap.get_insert_self ..)
  rw [OrdMap.erase_insert] at hcurrent
  show next.slots.count other + ((arrays.states.insert arrays.bound current).erase id).weight cost + _ + _ =
    current.slots.count other + (arrays.states.erase arrays.bound).weight cost + _ + _
  omega

/-- A saved state goes. -/
theorem places_unsave {id : Nat} {state : VertexState} (hstate : arrays.states.get id = some state)
    (hid : id ≠ arrays.bound) (other : Nat) :
    places current { arrays with states := arrays.states.erase id } uniforms records other + state.slots.count other =
      places current arrays uniforms records other := by
  let cost : Nat → VertexState → Nat := fun _ state => state.slots.count other
  have hsaved : ((arrays.states.erase arrays.bound).erase id).weight cost + state.slots.count other =
      (arrays.states.erase arrays.bound).weight cost :=
    OrdMap.weight_erase_of_some cost (by rw [OrdMap.get_erase_ne _ hid, hstate])
  show current.slots.count other + ((arrays.states.erase id).erase arrays.bound).weight cost + _ + _ + _ =
    current.slots.count other + (arrays.states.erase arrays.bound).weight cost + _ + _
  rw [OrdMap.erase_erase_comm]
  omega

/-- A new array has no places. -/
theorem places_save {id : Nat} {state : VertexState} (hstate : arrays.states.get id = none) {other : Nat}
    (hempty : state.slots.count other = 0) :
    places current { arrays with states := arrays.states.insert id state } uniforms records other =
      places current arrays uniforms records other := by
  let cost : Nat → VertexState → Nat := fun _ state => state.slots.count other
  have hsaved : ((arrays.states.insert id state).erase arrays.bound).weight cost =
      (arrays.states.erase arrays.bound).weight cost := by
    by_cases hid : id = arrays.bound
    · rw [hid, OrdMap.erase_insert]
    · rw [OrdMap.erase_insert_of_ne _ _ hid,
        OrdMap.weight_insert_of_none cost state (by rw [OrdMap.get_erase_ne _ hid, hstate])]
      exact Nat.add_eq_left.mpr hempty
  show current.slots.count other + ((arrays.states.insert id state).erase arrays.bound).weight cost + _ + _ =
    current.slots.count other + (arrays.states.erase arrays.bound).weight cost + _ + _
  rw [hsaved]

/-- What is saved of the bound array has no places of its own. -/
theorem places_save_bound {id : Nat} (hid : id = arrays.bound) (state : VertexState) :
    places current { arrays with states := arrays.states.insert id state } uniforms records =
      places current arrays uniforms records := by
  subst hid
  funext other
  show current.slots.count other + ((arrays.states.insert arrays.bound state).erase arrays.bound).weight _ + _ + _ =
    current.slots.count other + (arrays.states.erase arrays.bound).weight _ + _ + _
  rw [OrdMap.erase_insert]

/-- A record changes. -/
theorem places_record {id : Nat} {previous : Record} (hrecord : records.get id = some previous) (record : Record)
    (other : Nat) :
    places current arrays uniforms (records.insert id record) other +
        (previous.bindings.map fun binding => binding.id).count other =
      places current arrays uniforms records other + (record.bindings.map fun binding => binding.id).count other := by
  have hweight := OrdMap.weight_insert_of_some
    (fun (_ : Nat) (record : Record) => (record.bindings.map fun binding => binding.id).count other) record hrecord
  rw [places, places]
  omega

/-- A new record has no places. -/
theorem places_new_record {id : Nat} (hnew : records.get id = none) (count : Nat) {other : Nat} (hother : other ≠ 0) :
    places current arrays uniforms (records.insert id (.new count)) other =
      places current arrays uniforms records other := by
  have hweight := OrdMap.weight_insert_of_none
    (fun (_ : Nat) (record : Record) => (record.bindings.map fun binding => binding.id).count other) (.new count) hnew
  have hempty : ((Record.new count).bindings.map fun binding => binding.id).count other = 0 := by
    rw [Record.new, List.map_replicate, List.count_replicate]
    exact if_neg fun h => hother (beq_iff_eq.mp h).symm
  rw [places, places]
  omega

/-- A record goes. -/
theorem places_drop_record {id : Nat} {record : Record} (hrecord : records.get id = some record) (other : Nat) :
    places current arrays uniforms (records.erase id) other +
        (record.bindings.map fun binding => binding.id).count other =
      places current arrays uniforms records other := by
  have hweight := OrdMap.weight_erase_of_some
    (fun (_ : Nat) (record : Record) => (record.bindings.map fun binding => binding.id).count other) hrecord
  rw [places, places]
  omega

end

structure Placed (objects : Objects) (current : VertexState) (arrays : VertexArrays) (uniforms : List Binding)
    (records : OrdMap Nat Record) : Prop where
  counted : Counted objects (places current arrays uniforms records)
  fresh : Fresh objects
  states : ∀ key state, arrays.states.get key = some state → key < objects.next_object
  bound : (arrays.default_native = 0 → arrays.bound = 0) ∧ arrays.bound < objects.next_object
  captures : ∀ key record, records.get key = some record → key < objects.next_object ∧ Other objects record.program

theorem Other.ages {objects after : Objects} {id : Nat} (h : Other objects id) (hages : Ages objects after) :
    Other after id := by
  refine ⟨Nat.lt_of_lt_of_le h.1 hages.next, fun object hget => ?_⟩
  obtain ⟨earlier, hearlier, hkind, -⟩ | ⟨hkind, -⟩ := hages.names id object hget
  · exact hkind ▸ h.2 earlier hearlier
  · exact hkind

section

variable {objects after : Objects} {current current' : VertexState} {arrays arrays' : VertexArrays}
  {uniforms uniforms' : List Binding} {records records' : OrdMap Nat Record}

theorem Placed.next (h : Placed objects current arrays uniforms records) (hages : Ages objects after)
    (hcounted : Counted after (places current' arrays' uniforms' records'))
    (hstates : ∀ key state, arrays'.states.get key = some state →
      (∃ earlier, arrays.states.get key = some earlier) ∨ key < after.next_object)
    (hbound : (arrays'.default_native = 0 → arrays'.bound = 0) ∧ arrays'.bound < after.next_object)
    (hrecords : ∀ key record, records'.get key = some record →
      (∃ earlier, records.get key = some earlier ∧ record.program = earlier.program) ∨
        (key < after.next_object ∧ Other after record.program)) :
    Placed after current' arrays' uniforms' records' := by
  refine ⟨hcounted, hages.fresh h.fresh, fun key state hget => ?_, hbound, fun key record hget => ?_⟩
  · obtain ⟨earlier, hearlier⟩ | hlt := hstates key state hget
    · exact Nat.lt_of_lt_of_le (h.states key earlier hearlier) hages.next
    · exact hlt
  · obtain ⟨earlier, hearlier, hprogram⟩ | hnew := hrecords key record hget
    · obtain ⟨hkey, hother⟩ := h.captures key earlier hearlier
      exact ⟨Nat.lt_of_lt_of_le hkey hages.next, hprogram ▸ hother.ages hages⟩
    · exact hnew

/-- The arrays and the captures stay. -/
theorem Placed.same (h : Placed objects current arrays uniforms records) (hages : Ages objects after)
    (hcounted : Counted after (places current' arrays uniforms' records)) :
    Placed after current' arrays uniforms' records :=
  h.next hages hcounted (fun _ state hget => .inl ⟨state, hget⟩) ⟨h.bound.1, Nat.lt_of_lt_of_le h.bound.2 hages.next⟩
    fun _ record hget => .inl ⟨record, hget, rfl⟩

/-- The captures stay. -/
theorem Placed.rearranged (h : Placed objects current arrays uniforms records) (hages : Ages objects after)
    (hcounted : Counted after (places current' arrays' uniforms records))
    (hstates : ∀ key state, arrays'.states.get key = some state →
      (∃ earlier, arrays.states.get key = some earlier) ∨ key < after.next_object)
    (hbound : (arrays'.default_native = 0 → arrays'.bound = 0) ∧ arrays'.bound < after.next_object) :
    Placed after current' arrays' uniforms records :=
  h.next hages hcounted hstates hbound fun _ record hget => .inl ⟨record, hget, rfl⟩

/-- The arrays stay. -/
theorem Placed.captured (h : Placed objects current arrays uniforms records) (hages : Ages objects after)
    (hcounted : Counted after (places current arrays uniforms records'))
    (hrecords : ∀ key record, records'.get key = some record →
      (∃ earlier, records.get key = some earlier ∧ record.program = earlier.program) ∨
        (key < after.next_object ∧ Other after record.program)) : Placed after current arrays uniforms records' :=
  h.next hages hcounted (fun _ state hget => .inl ⟨state, hget⟩) ⟨h.bound.1, Nat.lt_of_lt_of_le h.bound.2 hages.next⟩
    hrecords

theorem Placed.update (h : Placed objects current arrays uniforms records) (id : Nat) {write : Object → Object}
    (hwrite : Plain write) : Placed (objects.update id write) current arrays uniforms records :=
  h.same (Objects.ages_update objects id hwrite.kind hwrite.pending) (h.counted.update id hwrite)

/-- A slot of the current array or a uniform range changes. -/
theorem Placed.switched (h : Placed objects current arrays uniforms records) {old new : Nat}
    (hswitch : objects.switch_buffer old new = .ok after)
    (hplaces : ∀ id, current'.slots.count id + (uniforms'.map fun binding => binding.id).count id +
        (if id = old then 1 else 0) =
      current.slots.count id + (uniforms.map fun binding => binding.id).count id + if id = new then 1 else 0) :
    Placed after current' arrays uniforms' records := by
  refine h.same (Objects.ages_switch_buffer hswitch) (h.counted.switched hswitch fun id _ => ?_)
  have hid := hplaces id
  rw [places, places]
  omega

end

namespace WebGl

variable {driver : Driver} {start : Objects} {context : WebGl}

/-- The counts of the table are right. -/
def Counting (context : WebGl) : Prop :=
  Placed context.objects context.current_vertex_state context.vertex_arrays context.indexed_uniforms
    context.transform_feedback.records

/-- The counts are right, and since the start no buffer is new or deleted. -/
def Aged (start : Objects) (context : WebGl) : Prop := Counting context ∧ Ages start context.objects

/-! ## Copies and caches -/

theorem Aged.update (h : Aged start context) (id : Nat) {write : Object → Object} (hwrite : Plain write) :
    Aged start { context with objects := context.objects.update id write } :=
  ⟨h.1.update id hwrite, h.2.trans (Objects.ages_update _ id hwrite.kind hwrite.pending)⟩

theorem keeps_write_object (id : Nat) {write : Object → Object} (hwrite : Plain write) :
    Method.Keeps (Aged start) (write_object id write) := fun _ h => h.update id hwrite

theorem keeps_forget_ranges (id : Nat) : Method.Keeps (Aged start) (forget_ranges id) := fun _ h => h

theorem indifferent_aged : Indifferent (Aged start) := by
  refine ⟨fun _ _ _ h => h, fun context id object h _ => h.update id ⟨?_, ?_, ?_⟩⟩
  all_goals exact fun _ => rfl

/-! ## The bound record -/

theorem bound_record_eq_ok {record : Record} (h : context.bound_record = .ok record) :
    context.transform_feedback.records.get context.transform_feedback.bound = some record := orPanic_eq_ok.mp h

/-- A record that keeps its bindings keeps its places. -/
theorem Aged.write_record (h : Aged start context) {id : Nat} {previous record : Record}
    (hprevious : context.transform_feedback.records.get id = some previous) (hbindings : record.bindings = previous.bindings)
    (hprogram : record.program = previous.program ∨ Other context.objects record.program) :
    Aged start { context with transform_feedback := { context.transform_feedback with
      records := context.transform_feedback.records.insert id record } } := by
  refine ⟨h.1.captured (.refl _) (h.1.counted.congr fun other _ => ?_) ?_, h.2⟩
  · have hplaces := places_record context.current_vertex_state context.vertex_arrays context.indexed_uniforms
      context.transform_feedback.records hprevious record other
    rw [hbindings] at hplaces
    exact Nat.add_right_cancel hplaces
  · intro key found hget
    rw [OrdMap.get_insert] at hget
    by_cases hkey : key = id
    · rw [if_pos hkey] at hget
      obtain rfl := Option.some.inj hget
      obtain hsame | hother := hprogram
      · exact .inl ⟨previous, hkey ▸ hprevious, hsame⟩
      · exact .inr ⟨hkey ▸ (h.1.captures id previous hprevious).1, hother⟩
    · rw [if_neg hkey] at hget
      exact .inl ⟨found, hget, rfl⟩

/-! ## Draws -/

theorem Aged.executed (h : Aged start context) (call : NativeDraw) : Aged start (executed driver call context) := by
  rw [WebGl.executed]
  cases context.bound_record with
  | error error => exact h
  | ok record =>
    by_cases hrunning : context.api = .Two ∧ record.active = true ∧ record.paused = false
    · simp only [if_pos hrunning]
      generalize record.bindings = bindings
      suffices hfold : ∀ objects, Aged start { context with objects := objects } →
          Aged start { context with objects := bindings.foldl (fun objects binding =>
            objects.update binding.id fun object =>
              { object with contents := driver.captured call binding.id object.contents }) objects } from
        hfold context.objects h
      induction bindings with
      | nil => exact fun _ hobjects => hobjects
      | cons binding bindings ih =>
        intro objects hobjects
        rw [List.foldl_cons]
        refine ih _ (hobjects.update binding.id ⟨?_, ?_, ?_⟩)
        all_goals exact fun _ => rfl
    · simp only [if_neg hrunning]
      exact h

theorem keeps_record_transform_capture (vertices : Nat) : Method.Keeps (Aged start) (record_transform_capture vertices) := by
  refine .ite (.pure ()) (.get_bind fun context h => Method.ends_ofExcept_bind h fun record hrecord => ?_)
  exact h.write_record (bound_record_eq_ok hrecord) rfl (.inl rfl)

theorem keeps_perform (admitted : Option (NativeDraw × Nat)) : Method.Keeps (Aged start) (perform driver admitted) := by
  cases admitted with
  | none => exact .pure ()
  | some issued =>
    refine (Method.Keeps.modify fun context h => h.executed issued.1).bind fun _ => ?_
    exact (Method.Keeps.ofExcept _).bind fun _ => keeps_record_transform_capture issued.2

/-! ## Binding and uploads -/

theorem keeps_switch_element (id : Nat) : Method.Keeps (Aged start) (switch_element id) := by
  refine .get_bind fun context h => Method.ends_ofExcept_bind h fun objects hswitch => ?_
  refine ⟨h.1.switched hswitch fun other => ?_, h.2.trans (Objects.ages_switch_buffer hswitch)⟩
  have hword (buffer : Nat) : (if buffer == other then 1 else 0) = if other = buffer then 1 else 0 :=
    if_congr (beq_iff_eq.trans eq_comm) rfl rfl
  simp only [current_vertex_state, VertexState.slots, List.count_cons, hword]
  omega

theorem keeps_bind_target (target id : Nat) : Method.Keeps (Aged start) (bind_target target id) :=
  .ite (.modify fun _ h => h) (.ite (keeps_switch_element id) (.modify fun _ h => h))

theorem keeps_bind_buffer (c : Command) : Method.Keeps (Aged start) (bind_buffer c) := by
  refine (Method.Keeps.read _).bind fun (target, id, bound) => ?_
  refine Method.Keeps.bind (.onlyIf ?_) fun _ => keeps_bind_target target id
  exact keeps_write_object id ⟨fun _ => rfl, fun _ => rfl, fun _ => rfl⟩

theorem keeps_buffer_data (c : Command) (bytes : Option (List UInt8)) :
    Method.Keeps (Aged start) (buffer_data c bytes) := by
  refine (Method.Keeps.read _).bind fun (id, size) => (keeps_forget_ranges id).bind fun _ => ?_
  exact keeps_write_object id ⟨fun _ => rfl, fun _ => rfl, fun _ => rfl⟩

theorem keeps_buffer_sub_data (c : Command) (bytes : Option (List UInt8)) :
    Method.Keeps (Aged start) (buffer_sub_data c bytes) := by
  refine (Method.Keeps.read _).bind fun (id, offset, data) => (keeps_forget_ranges id).bind fun _ => ?_
  exact keeps_write_object id ⟨fun _ => rfl, fun _ => rfl, fun _ => rfl⟩

theorem keeps_copy_buffer_sub_data (c : Command) : Method.Keeps (Aged start) (copy_buffer_sub_data c) := by
  refine (Method.Keeps.read _).bind fun transfer => (keeps_forget_ranges _).bind fun _ => ?_
  refine .get_bind fun context h => Method.ends_ofExcept_bind h fun source _ => ?_
  have hwrite : Plain (transferred transfer source) := ⟨fun _ => rfl, fun _ => rfl, fun _ => rfl⟩
  exact keeps_write_object transfer.destination hwrite context h

theorem keeps_read_pixels_to_buffer (c : Command) (bytes : Option (List UInt8)) :
    Method.Keeps (Aged start) (read_pixels_to_buffer driver c bytes) := by
  refine (Method.Keeps.read _).bind fun id => (keeps_forget_ranges id).bind fun _ => ?_
  exact keeps_write_object id ⟨fun _ => rfl, fun _ => rfl, fun _ => rfl⟩

end WebGl

end BetterWebBrowser.Webgl
