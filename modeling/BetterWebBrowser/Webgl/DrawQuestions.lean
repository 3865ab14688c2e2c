import Mathlib.Order.MinMax
import BetterWebBrowser.Webgl.DriverView

/-!
# The checks of a draw as questions

Each check of a draw is answered from the view of the context: whatever is cached, it passes or
fails as it would on the driver's own bytes.
-/

namespace BetterWebBrowser.Webgl

open Framework

namespace WebGl

variable {driver : Driver} {context : WebGl}

/-- A method answers from the view of a coherent context, which it keeps. -/
abbrev Asks {A : Type} (driver : Driver) (method : Gl A) (Answer : WebGl → A → Prop) : Prop :=
  Method.Observes (settled driver) (Coherent driver) method Answer

theorem Asks.of_settled {A : Type} {check : WebGl → Result A}
    (h : ∀ context, check (settled driver context) = check context) :
    Asks driver (Method.read check) fun view value => check view = .ok value :=
  Method.Observes.read fun context _ value => by rw [h context]

/-! ## The largest index -/

/-- The largest index of a range of the driver's bytes. -/
structure IndexMaximum (view : WebGl) (count size offset : Nat) (value : Option Nat) : Prop where
  live : ∃ buffer, view.objects.get view.element_buffer .Buffer = .ok buffer ∧
    buffer.buffer_mirror_valid = true ∧ offset + count * size ≤ buffer.bytes.length ∧
    maximum ((buffer.bytes.drop offset).take (count * size)) size view.api = .ok value
  limit : view.beyond_limit value = false

theorem mem_insert {key : IndexCache.Key} {value : Option Nat} {entries : List IndexCache.Entry}
    {entry : IndexCache.Entry} (h : entry ∈ IndexCache.insert key value entries) :
    entry ∈ entries ∨ entry = ⟨key, value⟩ :=
  (Recent.mem_push h).imp_left List.mem_of_mem_eraseP

/-- A cached range and a scanned one have the same largest index. -/
private theorem cached_maximum_run (h : Coherent driver context) (key : IndexCache.Key) {buffer : Object}
    (hget : context.objects.get key.owner .Buffer = .ok buffer) (hvalid : buffer.buffer_mirror_valid = true) :
    (∃ value after, cached_maximum key context = (.ok value, after) ∧
      maximum ((buffer.bytes.drop key.offset).take (key.count * key.width)) key.width context.api = .ok value ∧
      settled driver after = settled driver context ∧ Coherent driver after) ∨
    ∃ error after, cached_maximum key context = (.error error, after) ∧
      (∀ value, maximum ((buffer.bytes.drop key.offset).take (key.count * key.width)) key.width context.api ≠
        .ok value) ∧ settled driver after = settled driver context ∧ Coherent driver after := by
  rw [cached_maximum, Method.run_get_bind]
  cases hlookup : IndexCache.lookup key context.index_cache with
  | mk found entries =>
    cases found with
    | some entry =>
      obtain ⟨hmem, hkey, hentries⟩ := Recent.touch_eq_some hlookup
      obtain rfl := of_decide_eq_true hkey
      left
      exact ⟨entry.maximum, { context with index_cache := entries }, rfl, (h.ranges entry hmem buffer hget).2,
        rfl, h.with_ranges hentries⟩
    | none =>
      show (∃ value after, scan_indices key context = _ ∧ _) ∨ ∃ error after, scan_indices key context = _ ∧ _
      rw [scan_indices, Method.run_get_bind]
      simp only [hget, Method.run_ofExcept_bind]
      cases hmaximum : maximum ((buffer.bytes.drop key.offset).take (key.count * key.width)) key.width
        context.api with
      | error error =>
        exact .inr ⟨error, context, rfl, (fun value hvalue => by cases hvalue), rfl, h⟩
      | ok value =>
        left
        refine ⟨value,
          { context with index_cache := IndexCache.insert key value context.index_cache }, rfl, rfl, rfl, ?_⟩
        refine { h with ranges := fun entry hmem object hobject => ?_ }
        obtain hmem | rfl := mem_insert hmem
        · exact h.ranges entry hmem object hobject
        · have hsame : object = buffer := Except.ok.inj (hobject.symm.trans hget)
          rw [hsame]
          exact ⟨hvalid, hmaximum⟩

/-- What the view says about a range of the element buffer. -/
private theorem indexMaximum_settled (h : Coherent driver context) {buffer : Object}
    (hget : context.objects.get context.element_buffer .Buffer = .ok buffer) (count size offset : Nat)
    (value : Option Nat) :
    IndexMaximum (settled driver context) count size offset value ↔
      (context.settledObject driver context.element_buffer buffer).buffer_mirror_valid = true ∧
        offset + count * size ≤ buffer.bytes.length ∧
        maximum ((buffer.contents.drop offset).take (count * size)) size context.api = .ok value ∧
        context.beyond_limit value = false := by
  have hlength := h.length _ _ hget
  have hview := get_settled driver context context.element_buffer .Buffer
  rw [hget] at hview
  constructor
  · intro hvalue
    obtain ⟨found, hfound, hvalid, hrange, hmaximum⟩ := hvalue.live
    have hsame := Except.ok.inj (hview.symm.trans hfound)
    rw [← hsame] at hvalid hrange hmaximum
    exact ⟨hvalid, hlength.symm ▸ hrange, hmaximum, hvalue.limit⟩
  · rintro ⟨hvalid, hrange, hmaximum, hbeyond⟩
    exact ⟨⟨_, hview, hvalid, hlength ▸ hrange, hmaximum⟩, hbeyond⟩

/-- A range that does not fit is refused. -/
private theorem maximum_index_outside (driver : Driver) {buffer : Object}
    (hget : context.objects.get context.element_buffer .Buffer = .ok buffer) {count size offset : Nat}
    (hrange : ¬offset + count * size ≤ buffer.bytes.length) :
    ∃ error, maximum_index driver count size offset context = (.error error, context) := by
  rw [maximum_index, Method.run_get_bind]
  simp only [Method.run_ofExcept_bind, Method.run_failIf_bind, hget]
  by_cases hword : count * size < 2 ^ 64
  · simp only [unsignedWord_of_lt hword, orError_some]
    by_cases hsum : offset + count * size < 2 ^ 64
    · simp only [checkedAdd_of_lt hsum, orError_some]
      rw [if_pos (Nat.not_le.mp hrange)]
      exact ⟨_, rfl⟩
    · rw [checkedAdd, if_neg hsum]
      exact ⟨_, rfl⟩
  · rw [unsignedWord, if_neg hword]
    exact ⟨_, rfl⟩

/-- A range that fits is refreshed and looked up. -/
private theorem maximum_index_inside (driver : Driver) {buffer : Object}
    (hget : context.objects.get context.element_buffer .Buffer = .ok buffer) {count size offset : Nat}
    (hrange : offset + count * size ≤ buffer.bytes.length) (hfits : buffer.bytes.length ≤ MAX_UPLOAD_BYTES) :
    maximum_index driver count size offset context =
      (do
        refresh driver context.element_buffer buffer
        let maximum ← cached_maximum ⟨context.element_buffer, offset, count, size⟩
        within_limit maximum : Gl (Option Nat)) context := by
  have hlimit : MAX_UPLOAD_BYTES < 2 ^ 64 := by decide
  have hword : unsignedWord 64 (count * size) = some (count * size) := unsignedWord_of_lt (by omega)
  have hsum : checkedAdd 64 offset (count * size) = some (offset + count * size) := checkedAdd_of_lt (by omega)
  rw [maximum_index, Method.run_get_bind]
  simp only [Method.run_ofExcept_bind, Method.run_failIf_bind, hget, hword, hsum, orError_some]
  rw [if_neg (Nat.not_lt.mpr hrange)]

/-- The largest index is what it is in the driver's bytes. -/
theorem asks_maximum_index {count size : Nat} (offset : Nat) (hcount : 0 < count) (hsize : 0 < size) :
    Asks driver (maximum_index driver count size offset) fun view value =>
      IndexMaximum view count size offset value := by
  intro context h
  have hpositive : 0 < count * size := Nat.mul_pos hcount hsize
  cases hget : context.objects.get context.element_buffer .Buffer with
  | error error =>
    have hrun : maximum_index driver count size offset context = (.error error, context) := by
      rw [maximum_index, Method.run_get_bind]
      simp only [Method.run_ofExcept_bind, hget]
    refine Method.AnswersAt.of_error hrun (fun value hvalue => ?_) rfl h
    obtain ⟨buffer, hbuffer, -⟩ := hvalue.live
    have hview := get_settled driver context context.element_buffer .Buffer
    rw [hget] at hview
    cases hview.symm.trans hbuffer
  | ok buffer =>
    have hanswer := indexMaximum_settled h hget count size offset
    by_cases hrange : offset + count * size ≤ buffer.bytes.length
    · have hinside := maximum_index_inside driver hget hrange (h.fits _ _ hget)
      rw [Method.run_bind] at hinside
      obtain ⟨hflag, after, object, hrefresh, hsettled, hafter, hgot, hvalid, hbytes⟩ |
          ⟨hflag, error, after, hrefresh, hsettled, hafter⟩ := refresh_run h hget (by omega)
      · have hapi : after.api = context.api := api_eq_of_settled hsettled
        let key : IndexCache.Key := ⟨context.element_buffer, offset, count, size⟩
        rw [hrefresh] at hinside
        replace hinside : maximum_index driver count size offset context =
          (cached_maximum key >>= within_limit) after := hinside
        rw [Method.run_bind] at hinside
        obtain ⟨value, last, hrun, hmaximum, hlast, hcoherent⟩ | ⟨error, last, hrun, hnone, hlast, hcoherent⟩ :=
          cached_maximum_run hafter key hgot hvalid
        · rw [hbytes, hapi] at hmaximum
          have hbeyond : last.beyond_limit value = context.beyond_limit value :=
            beyond_limit_eq_of_settled (hlast.trans hsettled) value
          rw [hrun] at hinside
          replace hinside : maximum_index driver count size offset context = within_limit value last := hinside
          rw [within_limit, Method.run_get_bind, Method.run_failIf_bind, hbeyond] at hinside
          have hsame (other : Option Nat) (hother : IndexMaximum (settled driver context) count size offset other) :
              value = other :=
            Except.ok.inj (hmaximum.symm.trans ((hanswer other).mp hother).2.2.1)
          by_cases hlimit : context.beyond_limit value = true
          · rw [if_pos hlimit] at hinside
            refine .of_error hinside (fun other hother => ?_) (hlast.trans hsettled) hcoherent
            rw [hsame other hother, ((hanswer other).mp hother).2.2.2] at hlimit
            cases hlimit
          · rw [if_neg hlimit] at hinside
            refine .of_ok hinside (fun other => ⟨hsame other, ?_⟩) (hlast.trans hsettled) hcoherent
            rintro rfl
            exact (hanswer value).mpr ⟨hflag, hrange, hmaximum, Bool.eq_false_iff.mpr hlimit⟩
        · rw [hbytes, hapi] at hnone
          rw [hrun] at hinside
          refine Method.AnswersAt.of_error hinside (fun value hvalue => ?_) (hlast.trans hsettled) hcoherent
          exact hnone value ((hanswer value).mp hvalue).2.2.1
      · rw [hrefresh] at hinside
        refine Method.AnswersAt.of_error hinside (fun value hvalue => ?_) hsettled hafter
        rw [hanswer, hflag] at hvalue
        exact absurd hvalue.1 Bool.false_ne_true
    · obtain ⟨error, hrun⟩ := maximum_index_outside driver hget hrange
      refine Method.AnswersAt.of_error hrun (fun value hvalue => ?_) rfl h
      exact hrange ((hanswer value).mp hvalue).2.1

/-! ## Attributes -/

/-- The slots that the current program reads. -/
def ActiveMask (driver : Driver) (view : WebGl) (active : Nat) : Prop :=
  ∃ program, view.objects.get view.program .Program = .ok program ∧
    AttributeReflection.scan driver program.native view.attributes.length = .ok active

private theorem mem_insert_reflection {owner generation active : Nat} {entries : List AttributeReflection.Entry}
    {entry : AttributeReflection.Entry} (h : entry ∈ AttributeReflection.insert owner generation active entries) :
    entry ∈ entries ∨ entry = ⟨owner, generation, active⟩ :=
  (Recent.mem_push h).imp_left fun hmem => (List.mem_filter.mp hmem).1

theorem asks_active_attribute_mask :
    Asks driver (active_attribute_mask driver) fun view active => ActiveMask driver view active := by
  intro context h
  have hview := get_settled driver context context.program .Program
  cases hget : context.objects.get context.program .Program with
  | error error =>
    have hrun : active_attribute_mask driver context = (.error error, context) := by
      rw [active_attribute_mask, Method.run_get_bind]
      simp only [Method.run_ofExcept_bind, hget]
    refine .of_error hrun (fun active hactive => ?_) rfl h
    obtain ⟨program, hprogram, -⟩ := hactive
    rw [hget] at hview
    cases hview.symm.trans hprogram
  | ok program =>
    rw [hget] at hview
    have hanswer (active : Nat) : ActiveMask driver (settled driver context) active ↔
        AttributeReflection.scan driver program.native context.attributes.length = .ok active := by
      constructor
      · rintro ⟨found, hfound, hscan⟩
        rwa [← Except.ok.inj (hview.symm.trans hfound)] at hscan
      · intro hscan
        exact ⟨_, hview, hscan⟩
    cases hlookup : AttributeReflection.lookup context.program program.generation context.attribute_reflection with
    | mk found entries =>
      cases found with
      | some entry =>
        have hmask : active_attribute_mask driver context =
            (.ok entry.active, { context with attribute_reflection := entries }) := by
          rw [active_attribute_mask, Method.run_get_bind]
          simp only [Method.run_ofExcept_bind, hget, hlookup]
          rfl
        obtain ⟨hmem, hfound, hentries⟩ := Recent.touch_eq_some hlookup
        obtain ⟨howner, hgeneration⟩ := of_decide_eq_true hfound
        have hscan := h.inputs entry hmem program (howner.symm ▸ hget) hgeneration.symm
        refine .of_ok hmask (fun other => ?_) rfl (h.with_inputs hentries)
        rw [hanswer other, hscan, Except.ok.injEq]
      | none =>
        have hmask : active_attribute_mask driver context =
            reflect driver program.generation program.native context.attributes.length context := by
          rw [active_attribute_mask, Method.run_get_bind]
          simp only [Method.run_ofExcept_bind, hget, hlookup]
        simp only [reflect, Method.run_ofExcept_bind] at hmask
        cases hscan : AttributeReflection.scan driver program.native context.attributes.length with
        | error error =>
          rw [hscan] at hmask
          refine .of_error hmask (fun active hactive => ?_) rfl h
          cases hscan.symm.trans ((hanswer active).mp hactive)
        | ok active =>
          rw [hscan] at hmask
          refine .of_ok hmask (fun other => ?_) rfl ?_
          · rw [hanswer other, hscan, Except.ok.injEq]
          · refine { h with inputs := fun entry hmem object hobject hgeneration => ?_ }
            obtain hmem | rfl := mem_insert_reflection hmem
            · exact h.inputs entry hmem object hobject hgeneration
            · have hsame : object = program := Except.ok.inj (hobject.symm.trans hget)
              rw [hsame]
              exact hscan

private theorem attribute_fits_settled (h : Coherent driver context) (maximum instances : Nat) :
    attribute_fits (settled driver context).objects maximum instances =
      attribute_fits context.objects maximum instances := by
  funext per_vertex slot
  rw [attribute_fits, attribute_fits, get_settled]
  cases hget : context.objects.get slot.buffer .Buffer with
  | error error => rfl
  | ok buffer =>
    have hlength : (context.settledObject driver slot.buffer buffer).bytes.length = buffer.bytes.length :=
      (h.length _ _ hget).symm
    show (failIf ((context.settledObject driver slot.buffer buffer).bytes.length < _) _ >>= _) = _
    rw [hlength]
    rfl

private theorem attributes_fit_settled (h : Coherent driver context) (active maximum instances : Nat)
    (instanced : Bool) :
    attributes_fit active maximum instances instanced (settled driver context) =
      attributes_fit active maximum instances instanced context := by
  rw [attributes_fit, attributes_fit, attribute_fits_settled h]
  rfl

/-- The attributes of a draw with these largest elements pass. -/
def AttributesAdmitted (driver : Driver) (view : WebGl) (maximum instances : Nat) (instanced : Bool) : Prop :=
  ∃ active, ActiveMask driver view active ∧ attributes_fit active maximum instances instanced view = .ok ()

theorem asks_validate_instance_attributes (maximum instances : Nat) (instanced : Bool) :
    Asks driver (validate_instance_attributes driver maximum instances instanced) fun view _ =>
      AttributesAdmitted driver view maximum instances instanced := by
  refine (asks_active_attribute_mask.bind fun active => ?_)
  refine Method.Observes.read fun context h value => ?_
  show _ ↔ attributes_fit active maximum instances instanced (settled driver context) = .ok ()
  rw [attributes_fit_settled h]

theorem asks_validate_indexed (maximum : Option Nat) (instances : Nat) (instanced : Bool) :
    Asks driver (validate_indexed driver maximum instances instanced) fun view _ =>
      ∀ value, maximum = some value → AttributesAdmitted driver view value instances instanced := by
  cases maximum with
  | none => exact (Method.Observes.pure ()).congr fun view value => iff_of_true rfl fun _ h => by cases h
  | some value =>
    refine (asks_validate_instance_attributes value instances instanced).congr fun view _ => ?_
    exact ⟨fun h other hother => Option.some.inj hother ▸ h, fun h => h value rfl⟩

/-! ## Joint maxima -/

/-- The range that an attribute reaches is in its buffer. -/
def SlotFits (objects : Objects) (maximum instances : Nat) (slot : Attribute) : Prop :=
  ∃ buffer, objects.get slot.buffer .Buffer = .ok buffer ∧
    elementEnd slot (lastElement slot maximum instances) ≤ buffer.bytes.length

private theorem attribute_fits_eq_ok {objects : Objects} {maximum instances : Nat} {slot : Attribute}
    {before after : Bool} :
    attribute_fits objects maximum instances before slot = .ok after ↔
      SlotFits objects maximum instances slot ∧ after = (before || decide (slot.divisor = 0)) := by
  rw [attribute_fits, bind_eq_ok]
  constructor
  · rintro ⟨buffer, hbuffer, h⟩
    obtain ⟨hfits, h⟩ := failIf_bind_eq_ok.mp h
    exact ⟨⟨buffer, hbuffer, Nat.not_lt.mp hfits⟩, (Except.ok.inj h).symm⟩
  · rintro ⟨⟨buffer, hbuffer, hfits⟩, rfl⟩
    exact ⟨buffer, hbuffer, failIf_bind_eq_ok.mpr ⟨Nat.not_lt.mpr hfits, rfl⟩⟩

private theorem foldlM_attribute_fits {objects : Objects} {maximum instances : Nat} {slots : List Attribute}
    {before after : Bool} :
    slots.foldlM (attribute_fits objects maximum instances) before = .ok after ↔
      (∀ slot ∈ slots, SlotFits objects maximum instances slot) ∧
        after = (before || slots.any fun slot => decide (slot.divisor = 0)) := by
  induction slots generalizing before with
  | nil =>
    rw [List.foldlM_nil]
    constructor
    · intro h
      cases h
      exact ⟨(fun _ hmem => nomatch hmem), (Bool.or_false _).symm⟩
    · rintro ⟨-, rfl⟩
      rw [List.any_nil, Bool.or_false]
      rfl
  | cons slot slots ih =>
    rw [List.foldlM_cons, bind_eq_ok, List.any_cons, ← Bool.or_assoc, List.forall_mem_cons]
    constructor
    · rintro ⟨middle, hmiddle, h⟩
      obtain ⟨hslot, rfl⟩ := attribute_fits_eq_ok.mp hmiddle
      obtain ⟨hslots, hafter⟩ := ih.mp h
      exact ⟨⟨hslot, hslots⟩, hafter⟩
    · rintro ⟨⟨hslot, hslots⟩, hafter⟩
      exact ⟨_, attribute_fits_eq_ok.mpr ⟨hslot, rfl⟩, ih.mpr ⟨hslots, hafter⟩⟩

/-- What the attribute check asks: of the context, of every slot that is read, and of WebGL 1. -/
theorem attributes_fit_eq_ok {active maximum instances : Nat} {instanced : Bool} :
    attributes_fit active maximum instances instanced context = .ok () ↔
      (∀ slot ∈ context.attributes, slot.enabled = true → slot.buffer ≠ 0) ∧
        (∀ slot ∈ consumed active context.attributes, SlotFits context.objects maximum instances slot) ∧
        (instanced = true → context.api = .One →
          ∃ slot ∈ consumed active context.attributes, slot.divisor = 0) := by
  rw [attributes_fit, failIf_bind_eq_ok, bind_eq_ok]
  have hany : (consumed active context.attributes).any (fun slot => decide (slot.divisor = 0)) = true ↔
      ∃ slot ∈ consumed active context.attributes, slot.divisor = 0 := by
    rw [List.any_eq_true]
    simp only [decide_eq_true_eq]
  constructor
  · rintro ⟨hlive, per_vertex, hfold, hlast⟩
    obtain ⟨hslots, rfl⟩ := foldlM_attribute_fits.mp hfold
    rw [Bool.false_or] at hlast
    refine ⟨fun slot hmem henabled hzero => hlive ⟨slot, hmem, henabled, hzero⟩, hslots, fun hinstanced hapi => ?_⟩
    rw [← hany]
    by_contra hnone
    rw [failIf, if_pos ⟨hinstanced, Bool.eq_false_iff.mpr hnone, hapi⟩] at hlast
    cases hlast
  · rintro ⟨hlive, hslots, hvertex⟩
    refine ⟨?_, _, foldlM_attribute_fits.mpr ⟨hslots, rfl⟩, ?_⟩
    · rintro ⟨slot, hmem, henabled, hzero⟩
      exact hlive slot hmem henabled hzero
    · rw [Bool.false_or, failIf, if_neg]
      rintro ⟨hinstanced, hnone, hapi⟩
      rw [hany.mpr (hvertex hinstanced hapi)] at hnone
      cases hnone

theorem lastElement_max (slot : Attribute) (first second copies others : Nat) :
    lastElement slot (max first second) (max copies others) =
      max (lastElement slot first copies) (lastElement slot second others) := by
  rw [lastElement, lastElement, lastElement]
  split
  · rfl
  · have hmono : Monotone fun instances : Nat => (instances - 1) / slot.divisor := fun a b h =>
      Nat.div_le_div_right (Nat.sub_le_sub_right h 1)
    exact hmono.map_max

theorem elementEnd_max (slot : Attribute) (first second : Nat) :
    elementEnd slot (max first second) = max (elementEnd slot first) (elementEnd slot second) := by
  have hmono : Monotone (elementEnd slot) := by
    intro a b h
    have := Nat.mul_le_mul_right (packedStride slot) h
    rw [elementEnd, elementEnd]
    omega
  exact hmono.map_max

/-- A range to the larger of two last elements is two ranges. -/
theorem slotFits_max (objects : Objects) (slot : Attribute) (first second copies others : Nat) :
    SlotFits objects (max first second) (max copies others) slot ↔
      SlotFits objects first copies slot ∧ SlotFits objects second others slot := by
  rw [SlotFits, SlotFits, SlotFits, lastElement_max, elementEnd_max]
  constructor
  · rintro ⟨buffer, hbuffer, hfits⟩
    obtain ⟨hfirst, hsecond⟩ := max_le_iff.mp hfits
    exact ⟨⟨buffer, hbuffer, hfirst⟩, buffer, hbuffer, hsecond⟩
  · rintro ⟨⟨buffer, hbuffer, hfirst⟩, other, hother, hsecond⟩
    obtain rfl := Except.ok.inj (hbuffer.symm.trans hother)
    exact ⟨buffer, hbuffer, max_le hfirst hsecond⟩

theorem ActiveMask.unique {view : WebGl} {active other : Nat} (h : ActiveMask driver view active)
    (hother : ActiveMask driver view other) : active = other := by
  obtain ⟨program, hprogram, hscan⟩ := h
  obtain ⟨found, hfound, hother⟩ := hother
  obtain rfl := Except.ok.inj (hprogram.symm.trans hfound)
  exact Except.ok.inj (hscan.symm.trans hother)

/-- The check of the larger vertex and the more instances is the check of both draws. -/
theorem attributesAdmitted_max {view : WebGl} (first second copies others : Nat) (instanced : Bool) :
    AttributesAdmitted driver view (max first second) (max copies others) instanced ↔
      AttributesAdmitted driver view first copies instanced ∧
        AttributesAdmitted driver view second others instanced := by
  constructor
  · rintro ⟨active, hactive, hfits⟩
    obtain ⟨hlive, hslots, hvertex⟩ := attributes_fit_eq_ok.mp hfits
    constructor
    · exact ⟨active, hactive, attributes_fit_eq_ok.mpr
        ⟨hlive, fun slot hmem => ((slotFits_max ..).mp (hslots slot hmem)).1, hvertex⟩⟩
    · exact ⟨active, hactive, attributes_fit_eq_ok.mpr
        ⟨hlive, fun slot hmem => ((slotFits_max ..).mp (hslots slot hmem)).2, hvertex⟩⟩
  · rintro ⟨⟨active, hactive, hfits⟩, other, hother, hothers⟩
    obtain rfl := hactive.unique hother
    obtain ⟨hlive, hslots, hvertex⟩ := attributes_fit_eq_ok.mp hfits
    obtain ⟨-, hmore, -⟩ := attributes_fit_eq_ok.mp hothers
    exact ⟨active, hactive, attributes_fit_eq_ok.mpr
      ⟨hlive, fun slot hmem => (slotFits_max ..).mpr ⟨hslots slot hmem, hmore slot hmem⟩, hvertex⟩⟩

end WebGl

end BetterWebBrowser.Webgl
