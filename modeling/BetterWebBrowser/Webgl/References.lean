import BetterWebBrowser.Webgl.Captures

/-!
# Counted buffers

A table of objects whose buffers count the places that refer to them. What a switch, a retain or a
release does to the table is what it should when one place changes.
-/

namespace BetterWebBrowser.Webgl

open Framework

namespace Objects

variable {objects after : Objects} {held : Nat → Nat} {id : Nat}

/-- Every buffer counts its places, and every place has its buffer. -/
structure Counted (objects : Objects) (held : Nat → Nat) : Prop where
  zero : objects.entries.get 0 = none
  references : ∀ id object, objects.get id .Buffer = .ok object → object.references = held id ∧
    (object.pending_delete = true → object.references ≠ 0)
  live : ∀ id, id ≠ 0 → held id ≠ 0 → ∃ object, objects.get id .Buffer = .ok object
  exact : objects.saturated = false

/-- Names are given out in order. -/
structure Fresh (objects : Objects) : Prop where
  pos : 0 < objects.next_object
  below : ∀ id object, objects.entries.get id = some object → id < objects.next_object

/-- No buffer is new or deleted, and only deleted ones are gone. -/
structure Ages (before after : Objects) : Prop where
  names : ∀ id object, after.entries.get id = some object →
    (∃ earlier, before.entries.get id = some earlier ∧ object.kind = earlier.kind ∧
      (object.kind = .Buffer → object.pending_delete = earlier.pending_delete)) ∨
    object.kind ≠ .Buffer ∧ before.next_object ≤ id ∧ id < after.next_object
  kept : ∀ id object, before.get id .Buffer = .ok object → object.pending_delete = false →
    ∃ later, after.get id .Buffer = .ok later
  next : before.next_object ≤ after.next_object

theorem Ages.refl (objects : Objects) : Ages objects objects :=
  ⟨fun _ object h => .inl ⟨object, h, rfl, fun _ => rfl⟩, fun _ object h _ => ⟨object, h⟩, Nat.le_refl _⟩

theorem Ages.fresh (h : Ages objects after) (hfresh : Fresh objects) : Fresh after := by
  refine ⟨Nat.lt_of_lt_of_le hfresh.pos h.next, fun id object hget => ?_⟩
  obtain ⟨earlier, hearlier, -⟩ | ⟨-, -, hlt⟩ := h.names id object hget
  · exact Nat.lt_of_lt_of_le (hfresh.below id earlier hearlier) h.next
  · exact hlt

theorem Ages.trans {last : Objects} (h : Ages objects after) (hnext : Ages after last) : Ages objects last := by
  constructor
  · intro id object hget
    obtain ⟨middle, hmiddle, hkind, hpending⟩ | ⟨hkind, hle, hlt⟩ := hnext.names id object hget
    · obtain ⟨earlier, hearlier, hkind', hpending'⟩ | ⟨hkind', hle, hlt⟩ := h.names id middle hmiddle
      · exact .inl ⟨earlier, hearlier, hkind.trans hkind', fun hbuffer =>
        (hpending hbuffer).trans (hpending' (hkind.symm.trans hbuffer))⟩
      · exact .inr ⟨hkind ▸ hkind', hle, Nat.lt_of_lt_of_le hlt hnext.next⟩
    · exact .inr ⟨hkind, Nat.le_trans h.next hle, hlt⟩
  · intro id object hget hpending
    obtain ⟨middle, hmiddle⟩ := h.kept id object hget hpending
    refine hnext.kept id middle hmiddle ?_
    obtain ⟨hentry, hkind⟩ := get_eq_ok.mp hmiddle
    obtain ⟨earlier, hearlier, -, hsame⟩ | ⟨hother, -⟩ := h.names id middle hentry
    · obtain rfl := Option.some.inj ((get_eq_ok.mp hget).1.symm.trans hearlier)
      exact (hsame hkind).trans hpending
    · exact absurd hkind hother
  · exact Nat.le_trans h.next hnext.next

/-- Only the places of names other than zero count. -/
theorem Counted.congr (h : Counted objects held) {held' : Nat → Nat} (hsame : ∀ id, id ≠ 0 → held' id = held id) :
    Counted objects held' := by
  have hne (id : Nat) (object : Object) (hget : objects.get id .Buffer = .ok object) : id ≠ 0 := by
    rintro rfl
    exact absurd ((get_eq_ok.mp hget).1.symm.trans h.zero) (Option.some_ne_none object)
  constructor
  · exact h.zero
  · intro id object hget
    rw [hsame id (hne id object hget)]
    exact h.references id object hget
  · intro id hid hheld
    rw [hsame id hid] at hheld
    exact h.live id hid hheld
  · exact h.exact

/-! ## Writes -/

theorem get_update (objects : Objects) (id other : Nat) (write : Object → Object) :
    (objects.update id write).entries.get other =
      if other = id then (objects.entries.get id).map write else objects.entries.get other := by
  rw [update]
  cases hentry : objects.entries.get id with
  | none =>
    by_cases hsame : other = id
    · rw [if_pos hsame, hsame, Option.map_none]
      exact hentry
    · rw [if_neg hsame]
  | some object => exact OrdMap.get_insert ..

/-- A write that leaves what is counted. -/
structure Plain (write : Object → Object) : Prop where
  kind : ∀ object, (write object).kind = object.kind
  references : ∀ object, (write object).references = object.references
  pending : ∀ object, (write object).pending_delete = object.pending_delete

theorem update_next (objects : Objects) (id : Nat) (write : Object → Object) :
    (objects.update id write).next_object = objects.next_object ∧ (objects.update id write).saturated = objects.saturated := by
  rw [update]
  cases objects.entries.get id with
  | none => exact ⟨rfl, rfl⟩
  | some object => exact ⟨rfl, rfl⟩

/-- An entry after a write is one before it. -/
private theorem entry_of_update {write : Object → Object} {other : Nat} {object : Object}
    (h : (objects.update id write).entries.get other = some object) :
    ∃ earlier, objects.entries.get other = some earlier ∧
      object = if other = id then write earlier else earlier := by
  rw [get_update] at h
  by_cases hsame : other = id
  · rw [if_pos hsame] at h
    obtain ⟨earlier, hearlier, rfl⟩ := Option.map_eq_some_iff.mp h
    exact ⟨earlier, by rw [hsame, hearlier], by rw [if_pos hsame]⟩
  · rw [if_neg hsame] at h
    exact ⟨object, h, by rw [if_neg hsame]⟩

theorem ages_update (objects : Objects) (id : Nat) {write : Object → Object}
    (hkind : ∀ object, (write object).kind = object.kind)
    (hpending : ∀ object, (write object).pending_delete = object.pending_delete) :
    Ages objects (objects.update id write) := by
  constructor
  · intro other object hget
    obtain ⟨earlier, hearlier, rfl⟩ := entry_of_update hget
    refine .inl ⟨earlier, hearlier, ?_⟩
    split
    next => exact ⟨hkind earlier, fun _ => hpending earlier⟩
    next => exact ⟨rfl, fun _ => rfl⟩
  · intro other object hget _
    obtain ⟨hentry, hbuffer⟩ := get_eq_ok.mp hget
    refine ⟨if other = id then write object else object, get_eq_ok.mpr ⟨?_, ?_⟩⟩
    · rw [get_update]
      split
      next hsame => rw [← hsame, hentry, Option.map_some]
      next => exact hentry
    · split
      next => exact (hkind object).trans hbuffer
      next => exact hbuffer
  · exact Nat.le_of_eq (update_next objects id write).1.symm

theorem Counted.update (h : Counted objects held) (id : Nat) {write : Object → Object} (hwrite : Plain write) :
    Counted (objects.update id write) held := by
  constructor
  · rw [get_update]
    split
    next hsame => rw [← hsame, h.zero, Option.map_none]
    next => exact h.zero
  · intro other object hget
    obtain ⟨hentry, hkind⟩ := get_eq_ok.mp hget
    obtain ⟨earlier, hearlier, rfl⟩ := entry_of_update hentry
    by_cases hsame : other = id
    · rw [if_pos hsame] at hkind ⊢
      rw [hwrite.references, hwrite.pending]
      exact h.references other earlier (get_eq_ok.mpr ⟨hearlier, (hwrite.kind earlier).symm.trans hkind⟩)
    · rw [if_neg hsame] at hkind ⊢
      exact h.references other earlier (get_eq_ok.mpr ⟨hearlier, hkind⟩)
  · intro other hne hheld
    obtain ⟨object, hget⟩ := h.live other hne hheld
    obtain ⟨hentry, hkind⟩ := get_eq_ok.mp hget
    refine ⟨if other = id then write object else object, get_eq_ok.mpr ⟨?_, ?_⟩⟩
    · rw [get_update]
      split
      next hsame => rw [← hsame, hentry, Option.map_some]
      next => exact hentry
    · split
      next => exact (hwrite.kind object).trans hkind
      next => exact hkind
  · exact (update_next objects id write).2.trans h.exact

/-! ## Giving up a reference -/

/-- One more place. -/
def hold (id : Nat) (held : Nat → Nat) (other : Nat) : Nat := held other + if other = id then 1 else 0

theorem hold_self (id : Nat) (held : Nat → Nat) : hold id held id = held id + 1 := by
  rw [hold, if_pos rfl]

theorem hold_of_ne {other : Nat} (h : other ≠ id) (held : Nat → Nat) : hold id held other = held other := by
  rw [hold, if_neg h, Nat.add_zero]

/-- The object without one of its references, unless it was the last one of a deleted object. -/
def less (object : Object) : Option Object :=
  if object.pending_delete = true ∧ object.references - 1 = 0 then none
  else some { object with references := object.references - 1 }

theorem get_retire (objects : Objects) (id other : Nat) :
    (objects.retire_unreferenced id).entries.get other =
      if other = id then (objects.entries.get id).filter fun object =>
        !decide (object.pending_delete = true ∧ object.references = 0)
      else objects.entries.get other := by
  rw [retire_unreferenced]
  cases hentry : objects.entries.get id with
  | none =>
    by_cases hsame : other = id
    · rw [if_pos hsame, hsame]
      exact hentry
    · rw [if_neg hsame]
  | some object =>
    by_cases hlast : object.pending_delete = true ∧ object.references = 0
    · simp only [if_pos hlast]
      rw [OrdMap.get_erase, Option.filter_some, decide_eq_true hlast]
      rfl
    · simp only [if_neg hlast]
      by_cases hsame : other = id
      · rw [if_pos hsame, hsame, hentry, Option.filter_some, decide_eq_false hlast]
        rfl
      · rw [if_neg hsame]

theorem retire_next (objects : Objects) (id : Nat) :
    (objects.retire_unreferenced id).next_object = objects.next_object ∧
      (objects.retire_unreferenced id).saturated = objects.saturated := by
  rw [retire_unreferenced]
  cases objects.entries.get id with
  | none => exact ⟨rfl, rfl⟩
  | some object =>
    by_cases hlast : object.pending_delete = true ∧ object.references = 0
    · simp only [if_pos hlast]
      exact ⟨trivial, trivial⟩
    · simp only [if_neg hlast]
      exact ⟨trivial, trivial⟩

theorem get_release (objects : Objects) (id other : Nat) :
    (objects.release id).entries.get other =
      if other = id then (objects.entries.get id).bind less else objects.entries.get other := by
  show ((objects.update id _).retire_unreferenced id).entries.get other = _
  rw [get_retire, get_update, get_update, if_pos rfl]
  by_cases hsame : other = id
  · rw [if_pos hsame, if_pos hsame]
    cases objects.entries.get id with
    | none => rfl
    | some object =>
      rw [Option.map_some, Option.filter_some, Option.bind_some, less]
      by_cases hlast : object.pending_delete = true ∧ object.references - 1 = 0
      · rw [if_pos hlast, decide_eq_true hlast]
        rfl
      · rw [if_neg hlast, decide_eq_false hlast]
        rfl
  · rw [if_neg hsame, if_neg hsame, if_neg hsame]

theorem less_eq_some {object left : Object} (h : less object = some left) :
    left = { object with references := object.references - 1 } ∧
      (object.pending_delete = true → object.references - 1 ≠ 0) := by
  rw [less] at h
  split at h
  next => cases h
  next hlast => exact ⟨(Option.some.inj h).symm, fun hpending hzero => hlast ⟨hpending, hzero⟩⟩

theorem ages_release (objects : Objects) (id : Nat) : Ages objects (objects.release id) := by
  constructor
  · intro other object hget
    rw [get_release] at hget
    by_cases hsame : other = id
    · rw [if_pos hsame] at hget
      obtain ⟨earlier, hearlier, hless⟩ := Option.bind_eq_some_iff.mp hget
      obtain ⟨rfl, -⟩ := less_eq_some hless
      exact .inl ⟨earlier, by rw [hsame, hearlier], rfl, fun _ => rfl⟩
    · rw [if_neg hsame] at hget
      exact .inl ⟨object, hget, rfl, fun _ => rfl⟩
  · intro other object hget hpending
    obtain ⟨hentry, hkind⟩ := get_eq_ok.mp hget
    by_cases hsame : other = id
    · have hless : less object = some { object with references := object.references - 1 } := by
        rw [less, if_neg (fun hlast => by rw [hpending] at hlast; exact Bool.false_ne_true hlast.1)]
      refine ⟨{ object with references := object.references - 1 }, get_eq_ok.mpr ⟨?_, hkind⟩⟩
      rw [get_release, if_pos hsame, ← hsame, hentry, Option.bind_some, hless]
    · exact ⟨object, get_eq_ok.mpr ⟨by rw [get_release, if_neg hsame, hentry], hkind⟩⟩
  · show objects.next_object ≤ ((objects.update id _).retire_unreferenced id).next_object
    rw [(retire_next ..).1, (update_next ..).1]

private theorem saturated_release (objects : Objects) (id : Nat) :
    (objects.release id).saturated = (objects.saturated || objects.nothing_held id) := rfl

theorem Counted.release (h : Counted objects (hold id held)) : Counted (objects.release id) held := by
  constructor
  · rw [get_release]
    split
    next hsame => rw [← hsame, h.zero, Option.bind_none]
    next => exact h.zero
  · intro other object hget
    obtain ⟨hentry, hkind⟩ := get_eq_ok.mp hget
    rw [get_release] at hentry
    by_cases hsame : other = id
    · rw [if_pos hsame] at hentry
      obtain ⟨earlier, hearlier, hless⟩ := Option.bind_eq_some_iff.mp hentry
      obtain ⟨rfl, hlast⟩ := less_eq_some hless
      have hcounts := h.references id earlier (get_eq_ok.mpr ⟨hearlier, hkind⟩)
      rw [hold_self] at hcounts
      refine ⟨?_, hlast⟩
      show earlier.references - 1 = held other
      rw [hcounts.1, hsame, Nat.add_sub_cancel]
    · rw [if_neg hsame] at hentry
      have hcounts := h.references other object (get_eq_ok.mpr ⟨hentry, hkind⟩)
      rwa [hold_of_ne hsame] at hcounts
  · intro other hne hheld
    have hmore : hold id held other ≠ 0 := by
      rw [hold]
      omega
    obtain ⟨object, hget⟩ := h.live other hne hmore
    obtain ⟨hentry, hkind⟩ := get_eq_ok.mp hget
    by_cases hsame : other = id
    · subst hsame
      have hcounts := (h.references other object hget).1
      rw [hold_self] at hcounts
      have hless : less object = some { object with references := object.references - 1 } := by
        rw [less, if_neg (fun hlast => by omega)]
      refine ⟨{ object with references := object.references - 1 }, get_eq_ok.mpr ⟨?_, hkind⟩⟩
      rw [get_release, if_pos rfl, hentry, Option.bind_some, hless]
    · exact ⟨object, get_eq_ok.mpr ⟨by rw [get_release, if_neg hsame, hentry], hkind⟩⟩
  · rw [saturated_release, h.exact, Bool.false_or, nothing_held]
    cases hentry : objects.entries.get id with
    | none => rfl
    | some object =>
      rw [Option.any_some]
      refine decide_eq_false ?_
      rintro ⟨hkind, hzero⟩
      have hcounts := (h.references id object (get_eq_ok.mpr ⟨hentry, hkind⟩)).1
      rw [hold_self, hzero] at hcounts
      cases hcounts

/-- Objects of other kinds count for themselves. -/
theorem Counted.release_other (h : Counted objects held)
    (hother : ∀ object, objects.entries.get id = some object → object.kind ≠ .Buffer) :
    Counted (objects.release id) held := by
  have hne {other : Nat} {object : Object} (hentry : objects.entries.get other = some object)
      (hkind : object.kind = .Buffer) : other ≠ id := by
    rintro rfl
    exact hother object hentry hkind
  constructor
  · rw [get_release]
    split
    next hsame => rw [← hsame, h.zero, Option.bind_none]
    next => exact h.zero
  · intro other object hget
    obtain ⟨hentry, hkind⟩ := get_eq_ok.mp hget
    rw [get_release] at hentry
    by_cases hsame : other = id
    · rw [if_pos hsame] at hentry
      obtain ⟨earlier, hearlier, hless⟩ := Option.bind_eq_some_iff.mp hentry
      obtain ⟨rfl, -⟩ := less_eq_some hless
      exact absurd hkind (hother earlier hearlier)
    · rw [if_neg hsame] at hentry
      exact h.references other object (get_eq_ok.mpr ⟨hentry, hkind⟩)
  · intro other hzero hheld
    obtain ⟨object, hget⟩ := h.live other hzero hheld
    obtain ⟨hentry, hkind⟩ := get_eq_ok.mp hget
    exact ⟨object, get_eq_ok.mpr ⟨by rw [get_release, if_neg (hne hentry hkind), hentry], hkind⟩⟩
  · rw [saturated_release, h.exact, Bool.false_or, nothing_held]
    cases hentry : objects.entries.get id with
    | none => rfl
    | some object =>
      rw [Option.any_some]
      exact decide_eq_false fun hempty => hother object hentry hempty.1

/-! ## Taking a reference -/

theorem retain_buffer_eq_ok (h : objects.retain_buffer id = .ok after) :
    ∃ object, objects.get id .Buffer = .ok object ∧
      after = objects.update id fun object => { object with references := object.references + 1 } := by
  rw [retain_buffer] at h
  obtain ⟨object, hget, h⟩ := bind_eq_ok.mp h
  obtain ⟨references, hreferences, h⟩ := bind_eq_ok.mp h
  refine ⟨object, hget, ?_⟩
  cases hsum : checkedAdd 32 object.references 1 with
  | none =>
    rw [hsum] at hreferences
    cases hreferences
  | some sum =>
    rw [hsum, orPanic_some] at hreferences
    obtain ⟨hadd, -⟩ := checkedAdd_eq_some.mp hsum
    rw [← Except.ok.inj h, ← Except.ok.inj hreferences, ← hadd, update, update, (get_eq_ok.mp hget).1]

theorem Counted.retain_buffer (h : Counted objects held) (hretain : objects.retain_buffer id = .ok after) :
    Counted after (hold id held) := by
  obtain ⟨found, hfound, rfl⟩ := retain_buffer_eq_ok hretain
  constructor
  · rw [get_update]
    split
    next hsame => rw [← hsame, h.zero, Option.map_none]
    next => exact h.zero
  · intro other object hget
    obtain ⟨hentry, hkind⟩ := get_eq_ok.mp hget
    obtain ⟨earlier, hearlier, rfl⟩ := entry_of_update hentry
    by_cases hsame : other = id
    · rw [if_pos hsame] at hkind ⊢
      have hcounts := h.references other earlier (get_eq_ok.mpr ⟨hearlier, hkind⟩)
      rw [hold, if_pos hsame, ← hcounts.1]
      exact ⟨rfl, fun _ => Nat.succ_ne_zero _⟩
    · rw [if_neg hsame] at hkind ⊢
      rw [hold_of_ne hsame]
      exact h.references other earlier (get_eq_ok.mpr ⟨hearlier, hkind⟩)
  · intro other hne hheld
    by_cases hsame : other = id
    · obtain ⟨hentry, hkind⟩ := get_eq_ok.mp hfound
      refine ⟨{ found with references := found.references + 1 }, get_eq_ok.mpr ⟨?_, hkind⟩⟩
      rw [get_update, if_pos hsame, hentry, Option.map_some]
    · rw [hold_of_ne hsame] at hheld
      obtain ⟨object, hget⟩ := h.live other hne hheld
      obtain ⟨hentry, hkind⟩ := get_eq_ok.mp hget
      exact ⟨object, get_eq_ok.mpr ⟨by rw [get_update, if_neg hsame, hentry], hkind⟩⟩
  · exact (update_next ..).2.trans h.exact

theorem ages_retain_buffer (hretain : objects.retain_buffer id = .ok after) : Ages objects after := by
  obtain ⟨_, -, rfl⟩ := retain_buffer_eq_ok hretain
  exact ages_update objects id (fun _ => rfl) fun _ => rfl

/-- A place changes from one buffer to another. -/
theorem Counted.switch_buffer {old new : Nat} (h : Counted objects (hold old held))
    (hswitch : objects.switch_buffer old new = .ok after) : Counted after (hold new held) := by
  rw [Objects.switch_buffer] at hswitch
  by_cases hsame : old = new
  · rw [if_pos hsame] at hswitch
    rw [← Except.ok.inj hswitch, ← hsame]
    exact h
  · rw [if_neg hsame] at hswitch
    obtain ⟨retained, hretain, hafter⟩ := bind_eq_ok.mp hswitch
    have hretained : Counted retained (hold old (hold new held)) := by
      rw [retain_new] at hretain
      by_cases hnew : new = 0
      · rw [if_pos hnew] at hretain
        rw [← Except.ok.inj hretain]
        refine h.congr fun other hne => ?_
        rw [hold, hold, hold, if_neg (fun heq => hne (heq.trans hnew))]
        rfl
      · rw [if_neg hnew] at hretain
        refine (h.retain_buffer hretain).congr fun other _ => ?_
        rw [hold, hold, hold, hold]
        omega
    rw [← Except.ok.inj hafter]
    by_cases hold' : old = 0
    · rw [if_pos hold']
      refine hretained.congr fun other hne => ?_
      rw [hold_of_ne (fun heq => hne (heq.trans hold'))]
    · rw [if_neg hold']
      exact hretained.release

theorem ages_switch_buffer {old new : Nat} (hswitch : objects.switch_buffer old new = .ok after) :
    Ages objects after := by
  rw [Objects.switch_buffer] at hswitch
  by_cases hsame : old = new
  · rw [if_pos hsame] at hswitch
    rw [← Except.ok.inj hswitch]
    exact .refl objects
  · rw [if_neg hsame] at hswitch
    obtain ⟨retained, hretain, hafter⟩ := bind_eq_ok.mp hswitch
    have hretained : Ages objects retained := by
      rw [retain_new] at hretain
      by_cases hnew : new = 0
      · rw [if_pos hnew] at hretain
        rw [← Except.ok.inj hretain]
        exact .refl objects
      · rw [if_neg hnew] at hretain
        exact ages_retain_buffer hretain
    rw [← Except.ok.inj hafter]
    by_cases hold' : old = 0
    · rw [if_pos hold']
      exact hretained
    · rw [if_neg hold']
      exact hretained.trans (ages_release retained old)

/-- The places of a list are given up. -/
theorem Counted.release_all {ids : List Nat} (h : Counted objects fun other => held other + ids.count other) :
    Counted (WebGl.release_all ids objects) held := by
  induction ids generalizing objects with
  | nil => exact h
  | cons id ids ih =>
    rw [WebGl.release_all, List.foldl_cons]
    refine ih ?_
    by_cases hzero : id = 0
    · rw [if_pos hzero]
      refine h.congr fun other hne => ?_
      rw [List.count_cons_of_ne (fun heq => hne (heq.symm.trans hzero))]
    · rw [if_neg hzero]
      refine Counted.release (h.congr fun other _ => ?_)
      rw [hold, List.count_cons]
      by_cases hsame : other = id
      · rw [if_pos hsame, hsame, if_pos (beq_self_eq_true id), Nat.add_assoc]
      · rw [if_neg hsame, if_neg (fun heq => hsame (beq_iff_eq.mp heq).symm), Nat.add_zero, Nat.add_zero]

theorem ages_release_all (ids : List Nat) (objects : Objects) : Ages objects (WebGl.release_all ids objects) := by
  induction ids generalizing objects with
  | nil => exact .refl objects
  | cons id ids ih =>
    rw [WebGl.release_all, List.foldl_cons]
    refine Ages.trans ?_ (ih _)
    split
    next => exact .refl objects
    next => exact ages_release objects id

/-! ## New and deleted names -/

theorem insert_eq_ok {kind : Kind} {native : Nat} (h : objects.insert kind native = .ok (id, after)) :
    id = objects.next_object ∧ after.next_object = objects.next_object + 1 ∧ after.saturated = objects.saturated ∧
      ∃ object, object.kind = kind ∧ object.pending_delete = false ∧ object.references = 0 ∧
        ∀ other, after.entries.get other = if other = id then some object else objects.entries.get other := by
  rw [insert] at h
  split at h
  next => cases h
  next =>
    split at h
    next => cases h
    next =>
      cases h
      exact ⟨rfl, rfl, rfl, _, rfl, rfl, rfl, fun other => OrdMap.get_insert ..⟩

theorem Fresh.get_next (h : Fresh objects) : objects.entries.get objects.next_object = none := by
  cases hentry : objects.entries.get objects.next_object with
  | none => rfl
  | some object => exact absurd (h.below _ object hentry) (Nat.lt_irrefl _)

/-- No place refers to a name that is not given out. -/
theorem Counted.held_next (h : Counted objects held) (hfresh : Fresh objects) : held objects.next_object = 0 := by
  by_contra hheld
  obtain ⟨object, hget⟩ := h.live _ (Nat.ne_of_gt hfresh.pos) hheld
  rw [get_eq_ok, hfresh.get_next] at hget
  exact absurd hget.1.symm (Option.some_ne_none object)

theorem Counted.insert (h : Counted objects held) (hfresh : Fresh objects) {kind : Kind} {native : Nat}
    (hinsert : objects.insert kind native = .ok (id, after)) : Counted after held := by
  obtain ⟨rfl, -, hsaturated, object, -, hpending, hreferences, hget⟩ := insert_eq_ok hinsert
  constructor
  · rw [hget, if_neg (Nat.ne_of_lt hfresh.pos), h.zero]
  · intro other found hfound
    obtain ⟨hentry, hkind⟩ := get_eq_ok.mp hfound
    rw [hget] at hentry
    by_cases hsame : other = objects.next_object
    · rw [if_pos hsame] at hentry
      obtain rfl := Option.some.inj hentry
      rw [hsame, h.held_next hfresh, hpending]
      exact ⟨hreferences, fun hnot => by cases hnot⟩
    · rw [if_neg hsame] at hentry
      exact h.references other found (get_eq_ok.mpr ⟨hentry, hkind⟩)
  · intro other hne hheld
    obtain ⟨found, hfound⟩ := h.live other hne hheld
    obtain ⟨hentry, hkind⟩ := get_eq_ok.mp hfound
    have hsame : other ≠ objects.next_object := Nat.ne_of_lt (hfresh.below other found hentry)
    exact ⟨found, get_eq_ok.mpr ⟨by rw [hget, if_neg hsame, hentry], hkind⟩⟩
  · exact hsaturated.trans h.exact

theorem Fresh.insert (h : Fresh objects) {kind : Kind} {native : Nat}
    (hinsert : objects.insert kind native = .ok (id, after)) : Fresh after := by
  obtain ⟨rfl, hnext, -, object, -, -, -, hget⟩ := insert_eq_ok hinsert
  refine ⟨by omega, fun other found hfound => ?_⟩
  rw [hget] at hfound
  by_cases hsame : other = objects.next_object
  · omega
  · rw [if_neg hsame] at hfound
    have hlt := h.below other found hfound
    omega

theorem ages_insert (hfresh : Fresh objects) {kind : Kind} {native : Nat} (hkind : kind ≠ .Buffer)
    (hinsert : objects.insert kind native = .ok (id, after)) : Ages objects after := by
  obtain ⟨rfl, hnext, -, object, hobject, -, -, hget⟩ := insert_eq_ok hinsert
  constructor
  · intro other found hfound
    rw [hget] at hfound
    by_cases hsame : other = objects.next_object
    · rw [if_pos hsame] at hfound
      obtain rfl := Option.some.inj hfound
      exact .inr ⟨hobject ▸ hkind, Nat.le_of_eq hsame.symm, by omega⟩
    · rw [if_neg hsame] at hfound
      exact .inl ⟨found, hfound, rfl, fun _ => rfl⟩
  · intro other found hfound _
    obtain ⟨hentry, hbuffer⟩ := get_eq_ok.mp hfound
    have hsame : other ≠ objects.next_object := Nat.ne_of_lt (hfresh.below other found hentry)
    exact ⟨found, get_eq_ok.mpr ⟨by rw [hget, if_neg hsame, hentry], hbuffer⟩⟩
  · omega

/-- A table without an object of another kind. -/
theorem Counted.erase (h : Counted objects held)
    (hother : ∀ object, objects.entries.get id = some object → object.kind ≠ .Buffer) :
    Counted { objects with entries := objects.entries.erase id } held := by
  constructor
  · show (objects.entries.erase id).get 0 = none
    rw [OrdMap.get_erase]
    split
    next => rfl
    next => exact h.zero
  · intro other object hget
    obtain ⟨hentry, hkind⟩ := get_eq_ok.mp hget
    have hentry : (objects.entries.erase id).get other = some object := hentry
    rw [OrdMap.get_erase] at hentry
    split at hentry
    next => cases hentry
    next => exact h.references other object (get_eq_ok.mpr ⟨hentry, hkind⟩)
  · intro other hne hheld
    obtain ⟨object, hget⟩ := h.live other hne hheld
    obtain ⟨hentry, hkind⟩ := get_eq_ok.mp hget
    have hsame : other ≠ id := by
      rintro rfl
      exact hother object hentry hkind
    refine ⟨object, get_eq_ok.mpr ⟨?_, hkind⟩⟩
    show (objects.entries.erase id).get other = some object
    rw [OrdMap.get_erase_ne objects.entries hsame, hentry]
  · exact h.exact

theorem ages_erase (hother : ∀ object, objects.entries.get id = some object → object.kind ≠ .Buffer) :
    Ages objects { objects with entries := objects.entries.erase id } := by
  constructor
  · intro other object hget
    have hentry : (objects.entries.erase id).get other = some object := hget
    rw [OrdMap.get_erase] at hentry
    split at hentry
    next => cases hentry
    next => exact .inl ⟨object, hentry, rfl, fun _ => rfl⟩
  · intro other object hget _
    obtain ⟨hentry, hkind⟩ := get_eq_ok.mp hget
    have hsame : other ≠ id := by
      rintro rfl
      exact hother object hentry hkind
    refine ⟨object, get_eq_ok.mpr ⟨?_, hkind⟩⟩
    show (objects.entries.erase id).get other = some object
    rw [OrdMap.get_erase_ne objects.entries hsame, hentry]
  · exact Nat.le_refl _

/-! ## Places -/

/-- One place changes. -/
theorem Counted.switched {old new : Nat} {held' : Nat → Nat} (h : Counted objects held)
    (hswitch : objects.switch_buffer old new = .ok after)
    (hplaces : ∀ id, id ≠ 0 → held' id + (if id = old then 1 else 0) = held id + if id = new then 1 else 0) :
    Counted after held' := by
  by_cases hsame : old = new
  · rw [Objects.switch_buffer, if_pos hsame] at hswitch
    rw [← Except.ok.inj hswitch]
    refine h.congr fun id hid => ?_
    have hid := hplaces id hid
    rw [hsame] at hid
    omega
  · have hbefore : Counted objects (hold old fun id => held id - if id = old then 1 else 0) := by
      refine h.congr fun id hid => ?_
      have hid := hplaces id hid
      rw [hold]
      by_cases hold' : id = old
      · rw [if_pos hold', if_neg (fun heq => hsame (hold'.symm.trans heq))] at hid
        rw [if_pos hold']
        omega
      · rw [if_neg hold']
        omega
    refine (hbefore.switch_buffer hswitch).congr fun id hid => ?_
    have hid := hplaces id hid
    rw [hold]
    by_cases hold' : id = old
    · rw [if_pos hold', if_neg (fun heq => hsame (hold'.symm.trans heq))] at hid ⊢
      omega
    · rw [if_neg hold'] at hid ⊢
      omega

/-- Several places are given up. -/
theorem Counted.released {ids : List Nat} {held' : Nat → Nat} (h : Counted objects held)
    (hplaces : ∀ id, id ≠ 0 → held' id + ids.count id = held id) : Counted (WebGl.release_all ids objects) held' :=
  Counted.release_all (h.congr fun id hid => hplaces id hid)

end Objects

end BetterWebBrowser.Webgl
