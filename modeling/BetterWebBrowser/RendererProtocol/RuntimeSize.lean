import BetterWebBrowser.RendererProtocol.RuntimeExact
import Mathlib.Algebra.Order.BigOperators.Group.List

/-!
# Measures of the runtime reports

The measuring functions add with saturation. They return the length of the layout, cut at the
largest machine number, and a report that the encoder accepts stays far below the cut.
-/

namespace BetterWebBrowser.RendererProtocol.RuntimeCodec

open Framework

/-! ## Lengths of the layouts -/

section Lengths

@[simp] theorem length_u8 (value : UInt8) : (WireWriter.u8 value).length = 1 := rfl

@[simp] theorem length_bool (value : Bool) : (WireWriter.bool value).length = 1 := rfl

@[simp] theorem length_u16 (value : UInt16) : (WireWriter.u16 value).length = 2 :=
  length_littleEndian 2 _

@[simp] theorem length_u32 (value : UInt32) : (WireWriter.u32 value).length = 4 :=
  length_littleEndian 4 _

@[simp] theorem length_i32 (value : Int32) : (WireWriter.i32 value).length = 4 :=
  length_littleEndian 4 _

@[simp] theorem length_f32 (value : Single) : (WireWriter.f32 value).length = 4 :=
  length_littleEndian 4 _

@[simp] theorem length_u64 (value : UInt64) : (WireWriter.u64 value).length = 8 :=
  length_littleEndian 8 _

@[simp] theorem length_u128 (value : BitVec 128) : (WireWriter.u128 value).length = 16 :=
  length_littleEndian 16 _

@[simp] theorem length_prefixed (value : List UInt8) :
    (WireWriter.prefixed value).length = 4 + value.length := by
  simp [WireWriter.prefixed]

@[simp] theorem length_stringLayout (value : Str) :
    (stringLayout value).length = 4 + Str.byteLen value := by
  simp [stringLayout, Str.length_utf8]

@[simp] theorem length_optional {A : Type} (layout : A → List UInt8) (value : Option A) :
    (WireWriter.optional layout value).length = 1 + value.elim 0 fun value => (layout value).length := by
  cases value with
  | none => simp [WireWriter.optional]
  | some value => simp [WireWriter.optional]

@[simp] theorem length_listLayout {A : Type} (layout : A → List UInt8) (items : List A) :
    (listLayout layout items).length = 4 + (items.map fun item => (layout item).length).sum := by
  simp [listLayout, List.length_flatMap]

@[simp] theorem length_wheelLayout (values : List WheelAcknowledgement) :
    (wheelLayout values).length = 4 + values.length * 21 := by
  simp [wheelLayout, encodeAcknowledgement]

end Lengths

/-! ## Saturating sums -/

/-- A sum as a saturating counter shows it. -/
def saturated (bytes : Nat) : Nat := min bytes (2 ^ 64 - 1)

@[simp] theorem saturatingAdd_saturated (bytes more : Nat) :
    saturatingAdd (saturated bytes) more = saturated (bytes + more) := by
  simp only [saturatingAdd, saturated]
  omega

theorem saturatingAdd_saturated_right (bytes more : Nat) :
    saturatingAdd (saturated bytes) (saturated more) = saturated (bytes + more) := by
  simp only [saturatingAdd, saturated]
  omega

theorem addTexts_saturated (bytes : Nat) (texts : List Str) :
    addTexts (saturated bytes) texts =
      saturated (bytes + (texts.map fun text => (stringLayout text).length).sum) := by
  induction texts generalizing bytes with
  | nil => rfl
  | cons text texts ih =>
    have hcons : addTexts (saturated bytes) (text :: texts) =
        addTexts (saturatingAdd (saturatingAdd (saturated bytes) 4) (Str.byteLen text)) texts := rfl
    rw [hcons, saturatingAdd_saturated, saturatingAdd_saturated, ih]
    simp only [List.map_cons, List.sum_cons, length_stringLayout]
    refine congrArg saturated ?_
    omega

theorem addHistoryAction_saturated (bytes : Nat) (action : HistoryAction) :
    addHistoryAction (saturated bytes) action = saturated (bytes + (actionLayout action).length) := by
  cases action with
  | Update url replace state scrollY =>
    have hlength : (actionLayout (.Update url replace state scrollY)).length =
        11 + Str.byteLen url + state.elim 0 fun state => 4 + Str.byteLen state := by
      simp only [actionLayout, updateLayout, List.length_append, length_u8, length_stringLayout,
        length_bool, length_optional, length_f32]
      omega
    rw [hlength]
    cases state with
    | none => simp [addHistoryAction, Nat.add_assoc]
    | some state =>
      have hstate : saturatingAdd 4 (Str.byteLen state) = saturated (4 + Str.byteLen state) := rfl
      rw [addHistoryAction, Option.elim_some, Option.elim_some, hstate,
        saturatingAdd_saturated bytes, saturatingAdd_saturated (bytes + 11),
        saturatingAdd_saturated_right]
      refine congrArg saturated ?_
      omega
  | Traverse delta => simp [addHistoryAction, actionLayout]
  | SetScrollRestoration mode => simp [addHistoryAction, actionLayout]

theorem foldl_addHistoryAction_saturated (bytes : Nat) (actions : List HistoryAction) :
    actions.foldl addHistoryAction (saturated bytes) =
      saturated (bytes + (actions.map fun action => (actionLayout action).length).sum) := by
  induction actions generalizing bytes with
  | nil => rfl
  | cons action actions ih =>
    rw [List.foldl_cons, addHistoryAction_saturated, ih, List.map_cons, List.sum_cons, Nat.add_assoc]

theorem addRejection_saturated (bytes : Nat) (rejection : Option NativeTextRejection) :
    addRejection (saturated bytes) rejection =
      saturated (bytes + rejection.elim 0 fun rejection => (rejectionLayout rejection).length) := by
  cases rejection with
  | none => rfl
  | some rejection =>
    simp only [addRejection, saturatingAdd_saturated, Option.elim_some, rejectionLayout,
      List.length_append, length_u64, length_u32, nodeIdLayout, length_u128, length_stringLayout]
    refine congrArg saturated ?_
    omega

theorem addNavigation_saturated (bytes : Nat) (report : RuntimeReport) :
    addNavigation (saturated bytes) report = saturated (bytes + report.navigationUrl.elim 0 fun url =>
      (stringLayout url ++ optionsLayout report.navigationOptions).length) := by
  rw [addNavigation]
  cases report.navigationUrl with
  | none => rfl
  | some url =>
    have hlength : (stringLayout url ++ optionsLayout report.navigationOptions).length =
        13 + Str.byteLen url + Str.byteLen report.navigationOptions.target +
          report.navigationOptions.post.elim 0 fun post => (postLayout post).length := by
      simp only [optionsLayout, List.length_append, length_stringLayout, length_bool,
        length_optional]
      omega
    rw [Option.elim_some, hlength]
    cases report.navigationOptions.post with
    | none => simp [Nat.add_assoc]
    | some post =>
      simp only [saturatingAdd_saturated, Option.elim_some, postLayout, List.length_append,
        length_stringLayout, length_prefixed]
      refine congrArg saturated ?_
      omega

theorem addMedia_saturated (bytes : Nat) (media : Option MediaRuntimeReport) :
    addMedia (saturated bytes) media =
      saturated (bytes + media.elim 0 fun media => (mediaLayout media).length) := by
  cases media with
  | none => rfl
  | some media =>
    have hlength : (mediaLayout media).length = 80 + Str.byteLen media.backend +
        Str.byteLen media.mimeType + Str.byteLen media.videoCodec + Str.byteLen media.audioCodec +
          media.failure.elim 0 fun failure => 4 + Str.byteLen failure := by
      simp only [mediaLayout, List.length_append, length_bool, length_u64, length_stringLayout,
        length_u16, length_u32, length_optional]
      omega
    rw [addMedia, Option.elim_some, hlength]
    cases media.failure with
    | none => simp [Nat.add_assoc]
    | some failure => simp [Nat.add_assoc]

private theorem addOptional_saturated {A : Type} (value : Option A) (bytes more : Nat) :
    (if value.isSome then saturated (bytes + more) else saturated bytes) =
      saturated (bytes + value.elim 0 fun _ => more) := by
  cases value <;> simp

private theorem isSome_toNat {A : Type} (value : Option A) :
    value.isSome.toNat = value.elim 0 fun _ => 1 := by
  cases value <;> rfl

/-- The measure of a report is the length of its layout, cut at the largest number. -/
theorem runtimeBytes_saturated (report : RuntimeReport) :
    runtimeBytes report = saturated (runtimeLayout report).length := by
  have hedge : edgeBytes report = saturated (report.wheelAcknowledgements.length * 21 +
      ((report.errors ++ report.console ++ report.diagnostics ++ report.cookieUpdates).map
        fun text => (stringLayout text).length).sum +
      (report.historyActions.map fun action => (actionLayout action).length).sum) := by
    rw [edgeBytes, ← saturated, addTexts_saturated, foldl_addHistoryAction_saturated]
  have hsnapshot : snapshotBytes report report = saturated (54 +
      report.wheelHasBlockingListeners.isSome.toNat + report.wheelHasNestedScroll.isSome.toNat +
      (report.nativeTextRejection.elim 0 fun rejection => (rejectionLayout rejection).length) +
      (report.historyTraversalAck.elim 0 fun _ => 8) +
      (report.navigationUrl.elim 0 fun url =>
        (stringLayout url ++ optionsLayout report.navigationOptions).length) +
      (report.viewportScrollY.elim 0 fun _ => 4) +
      report.media.elim 0 fun media => (mediaLayout media).length) := by
    have hstart (more : Nat) : saturatingAdd 54 more = saturated (54 + more) := rfl
    simp only [snapshotBytes, Option.or_self, ite_self, hstart, saturatingAdd_saturated,
      addRejection_saturated, addOptional_saturated, addNavigation_saturated, addMedia_saturated]
  rw [runtimeBytes, hedge, hsnapshot, saturatingAdd_saturated_right]
  refine congrArg saturated ?_
  simp only [runtimeLayout, navigationLayout, List.length_append, length_u64, length_bool,
    length_f32, length_listLayout, length_optional, length_wheelLayout, List.map_append,
    List.sum_append, isSome_toNat]
  omega

/-! ## A report that can be sent is short -/

private theorem listLayout_le {A : Type} {maximum bound : Nat} {Valid : A → Prop}
    {layout : A → List UInt8} {items : List A} (h : ListValid maximum Valid items)
    (hbound : ∀ item, Valid item → (layout item).length ≤ bound) :
    (listLayout layout items).length ≤ 4 + maximum * bound := by
  have hsum : (items.map fun item => (layout item).length).sum ≤ items.length * bound := by
    have hle := List.sum_le_card_nsmul (items.map fun item => (layout item).length) bound
      (List.forall_mem_map.mpr fun item hmem => hbound item (h.2 item hmem))
    simpa using hle
  have hcount : items.length * bound ≤ maximum * bound := Nat.mul_le_mul_right bound h.1
  rw [length_listLayout]
  omega

private theorem optional_le {A : Type} {bound : Nat} {layout : A → List UInt8} {value : Option A}
    (h : ∀ found ∈ value, (layout found).length ≤ bound) :
    (WireWriter.optional layout value).length ≤ 1 + bound := by
  cases value with
  | none => simp [WireWriter.optional]
  | some found =>
    have hfound := h found rfl
    simp only [length_optional, Option.elim_some]
    omega

private theorem strings_le {values : List Str} (h : StringsValid values) :
    (listLayout stringLayout values).length ≤ 2 ^ 26 := by
  have htext (value : Str) (hvalue : TextValid value) :
      (stringLayout value).length ≤ 4 + 2 ^ 16 := by
    rw [length_stringLayout]
    exact Nat.add_le_add_left hvalue 4
  have hle := listLayout_le h htext
  simp only [MAX_RUNTIME_REPORT_ENTRIES] at hle
  omega

private theorem action_le {action : HistoryAction} (h : ActionReceivable action) :
    (actionLayout action).length ≤ 2 ^ 16 := by
  cases action with
  | Update url replace state scrollY =>
    obtain ⟨hurl, hstate, -⟩ := h
    have hoption : (WireWriter.optional stringLayout state).length ≤
        1 + (4 + MAX_HISTORY_STATE_BYTES) := optional_le fun value hmem =>
      (length_stringLayout value).trans_le (Nat.add_le_add_left (hstate value hmem) 4)
    simp only [MAX_URL_BYTES, MAX_HISTORY_STATE_BYTES] at hurl hoption
    simp only [actionLayout, updateLayout, List.length_append, length_u8, length_stringLayout,
      length_bool, length_f32]
    omega
  | Traverse delta => simp [actionLayout]
  | SetScrollRestoration mode => simp [actionLayout]

private theorem rejection_le {rejection : NativeTextRejection} (h : RejectionValid rejection) :
    (rejectionLayout rejection).length ≤ 2 ^ 17 := by
  have hvalue := h.1
  simp only [MAX_RENDERER_TEXT_INPUT_BYTES] at hvalue
  simp only [rejectionLayout, nodeIdLayout, List.length_append, length_u64, length_u32, length_u128,
    length_stringLayout]
  omega

private theorem media_le {media : MediaRuntimeReport} (h : MediaValid media) :
    (mediaLayout media).length ≤ 2 ^ 19 := by
  obtain ⟨hbackend, hmime, hvideo, haudio, hfailure⟩ := h
  have hoption : (WireWriter.optional stringLayout media.failure).length ≤
      1 + (4 + MAX_RUNTIME_REPORT_TEXT_BYTES) := optional_le fun value hmem =>
    (length_stringLayout value).trans_le (Nat.add_le_add_left (hfailure value hmem) 4)
  simp only [TextValid, MAX_RUNTIME_REPORT_TEXT_BYTES] at hbackend hmime hvideo haudio hoption
  simp only [mediaLayout, List.length_append, length_bool, length_u64, length_stringLayout,
    length_u16, length_u32]
  omega

private theorem options_le {options : NavigationOptions} (h : options.validate = .ok ()) :
    (optionsLayout options).length ≤ 2 ^ 23 := by
  obtain ⟨htarget, hpost⟩ := validate_eq_ok.mp h
  have hoption : (WireWriter.optional postLayout options.post).length ≤
      1 + (8 + 256 + 5 * 1024 * 1024) := optional_le fun post hmem => by
    have hbounds := hpost post hmem
    simp only [MAX_FORM_BODY_BYTES] at hbounds
    simp only [postLayout, List.length_append, length_stringLayout, length_prefixed]
    omega
  simp only [optionsLayout, List.length_append, length_stringLayout, length_bool]
  omega

theorem length_runtimeLayout_lt {report : RuntimeReport} (h : Sendable report) :
    (runtimeLayout report).length < 2 ^ 34 := by
  obtain ⟨hbounded, hurl, -⟩ := h
  have herrors := strings_le hbounded.errors
  have hconsole := strings_le hbounded.console
  have hdiagnostics := strings_le hbounded.diagnostics
  have hcookies := strings_le hbounded.cookies
  have hactions := listLayout_le hbounded.actions fun action => action_le
  have hwheel := validateWheel_length hbounded.wheel
  have hnavigation : (navigationLayout (report.navigationUrl, report.navigationOptions)).length ≤
      1 + (2 ^ 32 + 2 ^ 24) := optional_le fun url hmem => by
    have hlength := hurl url hmem
    have hoptions := options_le (hbounded.options url hmem)
    simp only [List.length_append, length_stringLayout]
    omega
  have hrejection : (WireWriter.optional rejectionLayout report.nativeTextRejection).length ≤
      1 + 2 ^ 17 := optional_le fun rejection hmem => rejection_le (hbounded.rejection rejection hmem)
  have hmedia : (WireWriter.optional mediaLayout report.media).length ≤ 1 + 2 ^ 19 :=
    optional_le fun media hmem => media_le (hbounded.media media hmem)
  have hscroll := optional_le fun y (_ : y ∈ report.viewportScrollY) => (length_f32 y).le
  have hblocking := optional_le fun y (_ : y ∈ report.wheelHasBlockingListeners) => (length_bool y).le
  have hnested := optional_le fun y (_ : y ∈ report.wheelHasNestedScroll) => (length_bool y).le
  have hack := optional_le fun y (_ : y ∈ report.historyTraversalAck) => (length_u64 y).le
  simp only [MAX_RUNTIME_REPORT_ENTRIES, MAX_WHEEL_ACKNOWLEDGEMENTS] at hactions hwheel
  simp only [runtimeLayout, List.length_append, length_u64, length_f32, length_bool,
    length_wheelLayout]
  omega

/-- A report that the encoder accepts is measured exactly. -/
theorem runtimeBytes_eq {report : RuntimeReport} (h : Sendable report) :
    runtimeBytes report = (runtimeLayout report).length := by
  have hshort := length_runtimeLayout_lt h
  rw [runtimeBytes_saturated, saturated]
  omega

theorem oneShotResourceBytes_eq {update : RendererRuntimeUpdate} {payload : List UInt8}
    (h : encodeRuntimeUpdate update = .ok payload) :
    payload.length = update.oneShotResourceBytes := by
  obtain ⟨runtime, hruntime, hpayload⟩ := bind_eq_ok.mp h
  cases hpayload
  obtain ⟨hsendable, hbytes⟩ := (encodeRuntime_writes _ _).mp hruntime
  have hshort := length_runtimeLayout_lt hsendable
  have hload : (encodeLoad update.load).length = (18 + 13) * 8 := by
    simp [encodeLoad, loadFields, toFields]
  have htimer : (WireWriter.optional WireWriter.u64 update.nextTimerMicros).length =
      1 + update.nextTimerMicros.isSome.toNat * 8 := by
    cases update.nextTimerMicros <;> simp
  rw [RendererRuntimeUpdate.oneShotResourceBytes, runtimeBytes_eq hsendable, runtimeUpdateOverhead]
  simp only [hbytes, List.length_append, length_u64, length_bool, hload, htimer, saturatingAdd]
  have hflag := Bool.toNat_le update.nextTimerMicros.isSome
  omega

/-! ## Both ways -/

/-- The report with the default options unless it navigates. -/
def defaulted (report : RuntimeReport) : RuntimeReport :=
  { report with
    navigationOptions := if report.navigationUrl.isSome then report.navigationOptions else default }

def NavigationBounded (report : RuntimeReport) : Prop :=
  ∀ url ∈ report.navigationUrl, Str.byteLen url ≤ MAX_URL_BYTES

def UpdatesNamed (report : RuntimeReport) : Prop :=
  ∀ action ∈ report.historyActions, ActionNamed action

theorem runtimeLayout_defaulted (report : RuntimeReport) :
    runtimeLayout (defaulted report) = runtimeLayout report := by
  have hnavigation : navigationLayout (report.navigationUrl,
      if report.navigationUrl.isSome then report.navigationOptions else default) =
      navigationLayout (report.navigationUrl, report.navigationOptions) := by
    cases report.navigationUrl <;> rfl
  simp only [runtimeLayout, defaulted, hnavigation]

theorem receivable_defaulted {report : RuntimeReport} (h : Bounded report) :
    Receivable (defaulted report) ↔ NavigationBounded report := by
  constructor
  · intro hreceivable
    exact hreceivable.2.1
  · intro hurl
    refine ⟨{ h with options := fun url hmem => ?_ }, hurl, fun hnone => ?_⟩
    · have hsome : report.navigationUrl.isSome := Option.isSome_of_mem hmem
      simp only [defaulted, hsome, if_true]
      exact h.options url hmem
    · have hnone : report.navigationUrl = none := hnone
      simp [defaulted, hnone]

/-- A report comes back as it was sent exactly when its navigation URL is within the budget of
the decoder, and a report that was read can be sent again exactly when it has no history update
without a URL. The measures count the bytes sent. -/
theorem runtime_wire_exact (report : RuntimeReport) :
    (∀ bytes, encodeRuntime report = .ok bytes →
      ((∀ rest, decodeRuntime (bytes ++ rest) = .ok (defaulted report, rest)) ↔
        NavigationBounded report)) ∧
    (∀ input rest, decodeRuntime input = .ok (report, rest) →
      ((∃ bytes, encodeRuntime report = .ok bytes ∧ input = bytes ++ rest) ↔ UpdatesNamed report)) ∧
    (∀ bytes, encodeRuntime report = .ok bytes → bytes.length = runtimeBytes report) ∧
    ∀ update payload, encodeRuntimeUpdate update = .ok payload →
      payload.length = update.oneShotResourceBytes := by
  refine ⟨?_, ?_, ?_, fun update payload => oneShotResourceBytes_eq⟩
  · intro bytes hencode
    obtain ⟨hsendable, hbytes⟩ := (encodeRuntime_writes _ _).mp hencode
    rw [hbytes, ← receivable_defaulted hsendable.1]
    constructor
    · intro hdecode
      exact ((decodeRuntime_inverts _ _ _).mp (hdecode [])).1
    · intro hreceivable rest
      refine (decodeRuntime_inverts _ _ _).mpr ⟨hreceivable, ?_⟩
      rw [runtimeLayout_defaulted]
  · intro input rest hdecode
    have hread := (decodeRuntime_inverts input report rest).mp hdecode
    have hinput : input = runtimeLayout report ++ rest := hread.2
    have hbounded : Bounded report := hread.1.1
    have hfits : ∀ url ∈ report.navigationUrl, Str.byteLen url < 2 ^ 32 := fun url hmem =>
      (hread.1.2.1 url hmem).trans_lt (by decide)
    constructor
    · rintro ⟨bytes, hencode, -⟩
      exact ((encodeRuntime_writes _ _).mp hencode).1.2.2
    · intro hnamed
      exact ⟨_, (encodeRuntime_writes _ _).mpr ⟨⟨hbounded, hfits, hnamed⟩, rfl⟩, hinput⟩
  · intro bytes hencode
    obtain ⟨hsendable, hbytes⟩ := (encodeRuntime_writes _ _).mp hencode
    rw [hbytes, runtimeBytes_eq hsendable]

/-- A report that navigates. -/
def navigationTo (url : Str) : RuntimeReport :=
  { (default : RuntimeReport) with navigationUrl := some url }

/-- A history update without a URL. -/
def unnamedUpdate : RuntimeReport :=
  { (default : RuntimeReport) with historyActions := [.Update [] false none ⟨0⟩] }

private theorem bounded_default : Bounded default where
  errors := ⟨Nat.zero_le _, fun _ hmem => nomatch hmem⟩
  console := ⟨Nat.zero_le _, fun _ hmem => nomatch hmem⟩
  diagnostics := ⟨Nat.zero_le _, fun _ hmem => nomatch hmem⟩
  options := fun _ hmem => nomatch hmem
  scroll := by decide
  delta := by decide
  wheel := rfl
  actions := ⟨Nat.zero_le _, fun _ hmem => nomatch hmem⟩
  ack := by decide
  rejection := fun _ hmem => nomatch hmem
  cookies := ⟨Nat.zero_le _, fun _ hmem => nomatch hmem⟩
  media := fun _ hmem => nomatch hmem

private theorem byteLen_replicate (count : Nat) :
    Str.byteLen (List.replicate count 'a') = count := by
  induction count with
  | zero => rfl
  | succ count ih =>
    rw [List.replicate_succ, Str.byteLen_cons, ih, Nat.add_comm]
    rfl

private theorem navigationTo_refused {url : Str} (hlong : MAX_URL_BYTES < Str.byteLen url)
    (hfits : Str.byteLen url < 2 ^ 32) :
    ∃ bytes, encodeRuntime (navigationTo url) = .ok bytes ∧
      ∀ rest, decodeRuntime (bytes ++ rest) ≠ .ok (defaulted (navigationTo url), rest) := by
  refine ⟨_, (encodeRuntime_writes (navigationTo url) _).mpr ⟨⟨?_, ?_, ?_⟩, rfl⟩, ?_⟩
  · exact { bounded_default with options := fun _ _ => rfl }
  · rintro _ ⟨⟩
    exact hfits
  · exact fun _ hmem => nomatch hmem
  · intro rest hdecode
    have hurl := ((decodeRuntime_inverts _ _ _).mp hdecode).1.2.1 _ rfl
    omega

/-- The encoder sends the first report and the decoder does not return it; the decoder returns
the second one and the encoder refuses it. -/
theorem runtime_wire_refused :
    (∃ bytes, encodeRuntime (navigationTo (List.replicate (MAX_URL_BYTES + 1) 'a')) = .ok bytes ∧
      ∀ rest, decodeRuntime (bytes ++ rest) ≠
        .ok (defaulted (navigationTo (List.replicate (MAX_URL_BYTES + 1) 'a')), rest)) ∧
    (∃ input, decodeRuntime input = .ok (unnamedUpdate, []) ∧
      ∀ bytes, encodeRuntime unnamedUpdate ≠ .ok bytes) := by
  constructor
  · have hlength : Str.byteLen (List.replicate (MAX_URL_BYTES + 1) 'a') = MAX_URL_BYTES + 1 :=
      byteLen_replicate _
    refine navigationTo_refused ?_ ?_
    · rw [hlength]
      exact Nat.lt_succ_self _
    · rw [hlength]
      decide
  · refine ⟨_, (decodeRuntime_inverts _ unnamedUpdate []).mpr ⟨⟨?_, ?_, ?_⟩, rfl⟩, ?_⟩
    · refine { bounded_default with actions := ⟨by decide, ?_⟩ }
      intro action hmem
      obtain rfl := List.mem_singleton.mp hmem
      exact ⟨Nat.zero_le _, (fun _ hmem => nomatch hmem), by decide⟩
    · exact fun _ hmem => nomatch hmem
    · exact fun _ => rfl
    · intro bytes hencode
      exact ((encodeRuntime_writes _ _).mp hencode).1.2.2 _ (List.mem_singleton.mpr rfl) rfl

/-- The empty report goes both ways. -/
theorem runtime_wire_exact_default :
    ∃ bytes, encodeRuntime default = .ok bytes ∧ decodeRuntime bytes = .ok (default, []) ∧
      bytes.length = 54 := by
  obtain ⟨hback, -, hmeasure, -⟩ := runtime_wire_exact default
  have hencode : encodeRuntime default = .ok (runtimeLayout default) :=
    (encodeRuntime_writes _ _).mpr ⟨⟨bounded_default, (fun _ hmem => nomatch hmem),
      fun _ hmem => nomatch hmem⟩, rfl⟩
  refine ⟨_, hencode, ?_, hmeasure _ hencode⟩
  have hdecode := (hback _ hencode).mpr (fun _ hmem => nomatch hmem) []
  rwa [List.append_nil] at hdecode

end BetterWebBrowser.RendererProtocol.RuntimeCodec
