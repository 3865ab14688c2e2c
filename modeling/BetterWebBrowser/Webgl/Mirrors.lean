import BetterWebBrowser.Webgl.DrawQuestions
import BetterWebBrowser.Webgl.QuietCommands

/-!
# Copies of buffers

A valid copy of a buffer is what the driver holds, and so is what is cached of it. The driver writes
again at every captured draw, and before that the capture has made the copies of its buffers invalid.
-/

namespace BetterWebBrowser.Webgl

open Framework
open targets

/-- What the driver writes into a buffer leaves its length. -/
structure Driver.InPlace (driver : Driver) : Prop where
  captured : ∀ call id contents, (driver.captured call id contents).length = contents.length
  packed : ∀ c contents, (driver.packed c contents).length = contents.length

/-- The copy has the length of the storage, and is the storage if it is valid. -/
structure Object.Stored (object : Object) : Prop where
  length : object.bytes.length = object.contents.length
  fits : object.bytes.length ≤ MAX_UPLOAD_BYTES
  mirror : object.buffer_mirror_valid = true → object.bytes = object.contents

/-- An updated object, in a table. -/
theorem Objects.get_update_cases {objects : Objects} {id other : Nat} {write : Object → Object} {object : Object}
    (hkind : ∀ object, (write object).kind = object.kind) (h : (objects.update id write).get other .Buffer = .ok object) :
    (other = id ∧ ∃ earlier, objects.get id .Buffer = .ok earlier ∧ object = write earlier) ∨
      other ≠ id ∧ objects.get other .Buffer = .ok object := by
  obtain ⟨hentry, hbuffer⟩ := Objects.get_eq_ok.mp h
  rw [Objects.get_update] at hentry
  by_cases hother : other = id
  · rw [if_pos hother] at hentry
    obtain ⟨earlier, hearlier, rfl⟩ := Option.map_eq_some_iff.mp hentry
    exact .inl ⟨hother, earlier, Objects.get_eq_ok.mpr ⟨hearlier, (hkind earlier).symm.trans hbuffer⟩, rfl⟩
  · rw [if_neg hother] at hentry
    exact .inr ⟨hother, Objects.get_eq_ok.mpr ⟨hentry, hbuffer⟩⟩

namespace WebGl

/-- All copies of buffers are true, and so is what is cached of them. -/
structure Mirrored (context : WebGl) : Prop where
  stored : ∀ id object, context.objects.get id .Buffer = .ok object → object.Stored
  ranges : ∀ entry ∈ context.index_cache, ∀ object, context.objects.get entry.key.owner .Buffer = .ok object →
    object.buffer_mirror_valid = true ∧
      maximum ((object.bytes.drop entry.key.offset).take (entry.key.count * entry.key.width)) entry.key.width
        context.api = .ok entry.maximum

/-- The capture that runs writes to the buffer. -/
def CapturesInto (context : WebGl) (id : Nat) : Prop :=
  context.api = .Two ∧ id ≠ 0 ∧ ∃ record,
    context.transform_feedback.records.get context.transform_feedback.bound = some record ∧
      record.active = true ∧ record.paused = false ∧ ∃ binding ∈ record.bindings, binding.id = id

/-- Copies are true, and those of buffers that the driver may write to are invalid. -/
structure Tracked (context : WebGl) : Prop where
  mirrored : Mirrored context
  zero : ∀ object, context.objects.get 0 .Buffer ≠ .ok object
  below : ∀ id object, context.objects.get id .Buffer = .ok object → id < context.objects.next_object
  owners : ∀ entry ∈ context.index_cache, entry.key.owner < context.objects.next_object
  alone : ∀ key record, context.transform_feedback.records.get key = some record → record.active = true →
    record.paused = false → key = context.transform_feedback.bound
  overwritten : ∀ id, context.CapturesInto id → ∀ object, context.objects.get id .Buffer = .ok object →
    object.buffer_mirror_valid = false

variable {driver : Driver} {start context : WebGl} {id : Nat}

/-! ## Writes -/

theorem Tracked.forget (h : Tracked context) {entries : List IndexCache.Entry}
    (hentries : ∀ entry ∈ entries, entry ∈ context.index_cache) : Tracked { context with index_cache := entries } :=
  ⟨⟨h.mirrored.stored, fun entry hmem => h.mirrored.ranges entry (hentries entry hmem)⟩, h.zero, h.below,
    fun entry hmem => h.owners entry (hentries entry hmem), h.alone, h.overwritten⟩

/-- A write to an object of which nothing is cached. -/
theorem Tracked.update (h : Tracked context) {write : Object → Object} (hkind : ∀ object, (write object).kind = object.kind)
    (hstored : ∀ object, context.objects.get id .Buffer = .ok object → (write object).Stored)
    (hcaptured : context.CapturesInto id → ∀ object, context.objects.get id .Buffer = .ok object →
      (write object).buffer_mirror_valid = false)
    (hranges : ∀ object, context.objects.get id .Buffer = .ok object → ∀ entry ∈ context.index_cache, entry.key.owner ≠ id) :
    Tracked { context with objects := context.objects.update id write } := by
  constructor
  · constructor
    · intro other object hget
      obtain ⟨rfl, earlier, hearlier, rfl⟩ | ⟨-, hget⟩ := Objects.get_update_cases hkind hget
      · exact hstored earlier hearlier
      · exact h.mirrored.stored other object hget
    · intro entry hmem object hget
      obtain ⟨hsame, earlier, hearlier, -⟩ | ⟨-, hget⟩ := Objects.get_update_cases hkind hget
      · exact absurd hsame (hranges earlier hearlier entry hmem)
      · exact h.mirrored.ranges entry hmem object hget
  · intro object hget
    obtain ⟨hzero, earlier, hearlier, -⟩ | ⟨-, hget⟩ := Objects.get_update_cases hkind hget
    · exact h.zero earlier (hzero ▸ hearlier)
    · exact h.zero object hget
  · intro other object hget
    refine Nat.lt_of_lt_of_eq ?_ (Objects.update_next ..).1.symm
    obtain ⟨rfl, earlier, hearlier, -⟩ | ⟨-, hget⟩ := Objects.get_update_cases hkind hget
    · exact h.below other earlier hearlier
    · exact h.below other object hget
  · intro entry hmem
    exact Nat.lt_of_lt_of_eq (h.owners entry hmem) (Objects.update_next ..).1.symm
  · exact h.alone
  · intro other hother object hget
    obtain ⟨rfl, earlier, hearlier, rfl⟩ | ⟨-, hget⟩ := Objects.get_update_cases hkind hget
    · exact hcaptured hother earlier hearlier
    · exact h.overwritten other hother object hget

/-- A write to an object after its ranges were forgotten. -/
theorem Tracked.store (h : Tracked context) {object : Object} (hget : context.objects.get id .Buffer = .ok object)
    {write : Object → Object} (hkind : ∀ object, (write object).kind = object.kind) (hstored : (write object).Stored)
    (hcaptured : context.CapturesInto id → (write object).buffer_mirror_valid = false) :
    Tracked { context with
      index_cache := IndexCache.remove id context.index_cache
      objects := context.objects.update id write } := by
  have hforgotten : Tracked { context with index_cache := IndexCache.remove id context.index_cache } :=
    h.forget fun entry hmem => (mem_remove.mp hmem).1
  refine hforgotten.update hkind (fun found hfound => ?_) (fun hcaptures found hfound => ?_)
    fun _ _ entry hmem => (mem_remove.mp hmem).2
  · exact Except.ok.inj (hget.symm.trans hfound) ▸ hstored
  · exact Except.ok.inj (hget.symm.trans hfound) ▸ hcaptured hcaptures

/-- Commands that leave the storage leave what is known of the copies. -/
theorem Tracked.quiet (h : Tracked start) (hquiet : Quiet start context) : Tracked context := by
  constructor
  · constructor
    · intro id object hget
      obtain ⟨earlier, hearlier, hbytes, hcontents, hvalid⟩ := hquiet.still.kept id object hget
      have hstored := h.mirrored.stored id earlier hearlier
      exact ⟨hbytes ▸ hcontents ▸ hstored.length, hbytes ▸ hstored.fits, hbytes ▸ hcontents ▸ hvalid ▸ hstored.mirror⟩
    · intro entry hmem object hget
      obtain ⟨earlier, hearlier, hbytes, -, hvalid⟩ := hquiet.still.kept _ object hget
      rw [hquiet.api, hbytes, hvalid]
      exact h.mirrored.ranges entry (hquiet.ranges ▸ hmem) earlier hearlier
  · intro object hget
    obtain ⟨earlier, hearlier, -⟩ := hquiet.still.kept 0 object hget
    exact h.zero earlier hearlier
  · intro id object hget
    obtain ⟨earlier, hearlier, -⟩ := hquiet.still.kept id object hget
    exact Nat.lt_of_lt_of_le (h.below id earlier hearlier) hquiet.still.next
  · intro entry hmem
    exact Nat.lt_of_lt_of_le (h.owners entry (hquiet.ranges ▸ hmem)) hquiet.still.next
  · intro key record hget hactive hpaused
    obtain ⟨earlier, hearlier, hcontinues⟩ := hquiet.captures key record hget hactive
    have hrunning := hcontinues.running hpaused
    obtain rfl := h.alone key earlier hearlier hcontinues.active hrunning
    exact (hquiet.bound earlier hearlier hcontinues.active hrunning).symm
  · rintro id ⟨hapi, hid, record, hget, hactive, hpaused, binding, hbinding, rfl⟩ object hobject
    obtain ⟨earlier, hearlier, hcontinues⟩ := hquiet.captures _ record hget hactive
    have hrunning := hcontinues.running hpaused
    have hbound := h.alone _ earlier hearlier hcontinues.active hrunning
    obtain ⟨found, hfound, -, -, hvalid⟩ := hquiet.still.kept _ object hobject
    obtain ⟨index, hindex⟩ := List.getElem?_of_mem hbinding
    obtain hzero | hsame := hcontinues.bindings index binding hindex
    · exact absurd hzero hid
    · rw [hvalid]
      exact h.overwritten binding.id ⟨hquiet.api ▸ hapi, hid, earlier, hbound ▸ hearlier, hcontinues.active, hrunning,
        binding, List.mem_of_getElem? hsame, rfl⟩ found hfound

/-! ## Which buffers a capture protects -/

theorem bound_buffer_eq_ok {target : Nat} (h : context.bound_buffer target = .ok id) :
    (∃ object, context.objects.get id .Buffer = .ok object) ∧
      (target = TRANSFORM_FEEDBACK → id = (context.core_buffer_bindings.get TRANSFORM_FEEDBACK).getD 0) := by
  have hlive {found : Nat} {result : Result Nat} (hfound : result = .ok found)
      (h : (result >>= fun id => context.objects.get id .Buffer >>= fun _ => .ok id) = .ok id) :
      id = found ∧ ∃ object, context.objects.get id .Buffer = .ok object := by
    rw [hfound, ok_bind] at h
    obtain ⟨object, hobject, h⟩ := bind_eq_ok.mp h
    obtain rfl := Except.ok.inj h
    exact ⟨rfl, object, hobject⟩
  rw [bound_buffer] at h
  by_cases harray : target = gl.ARRAY_BUFFER
  · rw [if_pos harray] at h
    exact ⟨(hlive rfl h).2, fun hcapture => absurd (harray.symm.trans hcapture) (by decide)⟩
  rw [if_neg harray] at h
  by_cases helement : target = gl.ELEMENT_ARRAY_BUFFER
  · rw [if_pos helement] at h
    exact ⟨(hlive rfl h).2, fun hcapture => absurd (helement.symm.trans hcapture) (by decide)⟩
  rw [if_neg helement] at h
  by_cases hextra : context.api = .Two ∧ extra_target target = true
  · rw [if_pos hextra] at h
    obtain ⟨hid, hobject⟩ := hlive rfl h
    exact ⟨hobject, fun hcapture => hcapture ▸ hid⟩
  · rw [if_neg hextra] at h
    cases h

/-! ## Reads -/

/-- A buffer that no capture writes to is read back. -/
theorem Tracked.refreshed (h : Tracked context) {object : Object} (hget : context.objects.get id .Buffer = .ok object)
    (hfree : ¬context.CapturesInto id) : Tracked (context.refreshed id object) := by
  have hstored := h.mirrored.stored id object hget
  refine h.store hget (fun _ => rfl) ⟨rfl, ?_, fun _ => rfl⟩ fun hcaptures => absurd hcaptures hfree
  show object.contents.length ≤ MAX_UPLOAD_BYTES
  exact hstored.length ▸ hstored.fits

theorem range_end_eq_ok {offset size capacity stop : Nat} (h : range_end offset size capacity = .ok stop) :
    stop = offset + size ∧ offset + size ≤ capacity := by
  rw [range_end] at h
  split at h
  next hfits => exact ⟨(Except.ok.inj h).symm, hfits.2⟩
  next => cases h

theorem Tracked.executed (h : Tracked context) (hdriver : driver.InPlace) (call : NativeDraw) :
    Tracked (executed driver call context) := by
  rw [WebGl.executed]
  cases hrecord : context.bound_record with
  | error error => exact h
  | ok record =>
    by_cases hrunning : context.api = .Two ∧ record.active = true ∧ record.paused = false
    · simp only [if_pos hrunning]
      suffices hfold : ∀ bindings : List Binding, (∀ binding ∈ bindings, binding ∈ record.bindings) → ∀ objects,
          Tracked { context with objects := objects } →
            Tracked { context with objects := bindings.foldl (fun objects binding =>
              objects.update binding.id fun object =>
                { object with contents := driver.captured call binding.id object.contents }) objects } from
        hfold record.bindings (fun _ hmem => hmem) context.objects h
      intro bindings
      induction bindings with
      | nil => exact fun _ _ hobjects => hobjects
      | cons binding bindings ih =>
        intro hbindings objects hobjects
        rw [List.foldl_cons]
        refine ih (fun other hmem => hbindings other (List.mem_cons_of_mem binding hmem)) _ ?_
        have hinvalid (object : Object) (hget : objects.get binding.id .Buffer = .ok object) :
            object.buffer_mirror_valid = false := by
          refine hobjects.overwritten binding.id ⟨hrunning.1, fun hzero => ?_, record, bound_record_eq_ok hrecord,
            hrunning.2.1, hrunning.2.2, binding, hbindings binding List.mem_cons_self, rfl⟩ object hget
          exact hobjects.zero object (hzero ▸ hget)
        refine hobjects.update (fun _ => rfl) (fun object hget => ?_) (fun _ => hinvalid) fun object hget entry hmem howner => ?_
        · have hstored := hobjects.mirrored.stored _ object hget
          refine ⟨?_, hstored.fits, fun hvalid => absurd ((hinvalid object hget).symm.trans hvalid) Bool.false_ne_true⟩
          exact hstored.length.trans (hdriver.captured call binding.id object.contents).symm
        · have hvalid := (hobjects.mirrored.ranges entry hmem object (howner ▸ hget)).1
          exact absurd ((hinvalid object hget).symm.trans hvalid) Bool.false_ne_true
    · simp only [if_neg hrunning]
      exact h

/-- A capture that may begin. -/
structure Begins (driver : Driver) (c : Command) (context : WebGl) (mode : Nat) (record : Record) (ledger : Ledger) : Prop where
  bound : context.bound_record = .ok record
  asked : c.u 0 = .ok mode
  primitive : mode = gl.POINTS ∨ mode = gl.LINES ∨ mode = gl.TRIANGLES
  inactive : record.active ≠ true
  counted : new_transform_ledger driver mode context = .ok ledger

theorem check_begin_eq_ok {c : Command} {record : Record} {ledger : Ledger}
    (h : check_begin driver c context = .ok (record, ledger)) : ∃ mode, Begins driver c context mode record ledger := by
  rw [check_begin] at h
  obtain ⟨found, hfound, h⟩ := bind_eq_ok.mp h
  obtain ⟨_, -, h⟩ := bind_eq_ok.mp h
  obtain ⟨mode, hmode, h⟩ := bind_eq_ok.mp h
  obtain ⟨hprimitive, h⟩ := failIf_bind_eq_ok.mp h
  obtain ⟨hinactive, h⟩ := failIf_bind_eq_ok.mp h
  obtain ⟨_, -, h⟩ := bind_eq_ok.mp h
  obtain ⟨-, h⟩ := failIf_bind_eq_ok.mp h
  obtain ⟨counted, hledger, h⟩ := bind_eq_ok.mp h
  obtain ⟨rfl, rfl⟩ := Except.ok.inj h
  refine ⟨mode, hfound, hmode, ?_, hinactive, hledger⟩
  by_contra hother
  exact hprimitive ⟨fun h => hother (.inl h), fun h => hother (.inr (.inl h)), fun h => hother (.inr (.inr h))⟩

end WebGl

end BetterWebBrowser.Webgl
