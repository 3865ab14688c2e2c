import BetterWebBrowser.RendererProtocol.RuntimeCodec

/-!
# The format of the runtime reports

The bytes of a report are given once, apart from the codec. The encoder appends them for the
reports it accepts, the decoder takes them off the front for the reports it returns, and the
measuring functions count them.
-/

namespace BetterWebBrowser.RendererProtocol.RuntimeCodec

open Framework

/-! ## Texts and lists -/

def stringLayout (value : Str) : List UInt8 := WireWriter.prefixed (Str.utf8 value)

def listLayout {A : Type} (layout : A → List UInt8) (items : List A) : List UInt8 :=
  WireWriter.u32 (UInt32.ofNat items.length) ++ items.flatMap layout

def TextValid (value : Str) : Prop := Str.byteLen value ≤ MAX_RUNTIME_REPORT_TEXT_BYTES

def ListValid {A : Type} (maximum : Nat) (Valid : A → Prop) (items : List A) : Prop :=
  items.length ≤ maximum ∧ ∀ item ∈ items, Valid item

def StringsValid : List Str → Prop := ListValid MAX_RUNTIME_REPORT_ENTRIES TextValid

theorem encodeText_writes (field : String) :
    Reader.Writes (encodeText field) TextValid stringLayout := by
  intro value
  refine (Yields.failIf (WireWriter.string_writes value)).congr ?_
  simp only [TextValid, MAX_RUNTIME_REPORT_TEXT_BYTES]
  omega

theorem encodeStrings_writes (field : String) :
    Reader.Writes (encodeStrings · field) StringsValid (listLayout stringLayout) := by
  intro values
  apply Yields.congr
  · apply Yields.failIf
    apply Yields.bind ((encodeText_writes "runtime report text").each values)
    exact Yields.pure _
  · simp only [StringsValid, ListValid, Nat.not_lt, and_true]

theorem decodeList_inverts {A : Type} {reader : WireReader A} {Valid : A → Prop}
    {layout : A → List UInt8} {maximum : Nat} (field : String)
    (h : Reader.Inverts reader Valid layout) (hmaximum : maximum < 2 ^ 32) :
    Reader.Inverts (decodeList maximum field reader) (ListValid maximum Valid)
      (listLayout layout) := by
  intro input items rest
  rw [decodeList, Reader.run_bind_eq_ok]
  constructor
  · rintro ⟨word, middle, hword, hread⟩
    obtain rfl := WireReader.u32_eq_ok.mp hword
    obtain ⟨count, after, hcount, hread⟩ := Reader.run_bind_eq_ok.mp hread
    obtain ⟨_, start, hcheck, hpure⟩ := Reader.run_bind_eq_ok.mp hcount
    obtain ⟨hfits, hstart⟩ := Reader.run_failIf_eq_ok.mp hcheck
    cases hstart
    cases hpure
    obtain ⟨⟨hlength, hvalid⟩, rfl⟩ := (h.times _ _ _ _).mp hread
    refine ⟨⟨hlength ▸ not_not.mp hfits, hvalid⟩, ?_⟩
    rw [listLayout, hlength, UInt32.ofNat_toNat, List.append_assoc]
  · rintro ⟨⟨hfits, hvalid⟩, rfl⟩
    have hlength := WireReader.toNat_ofNat_length (hfits.trans_lt hmaximum)
    refine ⟨_, items.flatMap layout ++ rest, WireReader.u32_eq_ok.mpr (List.append_assoc _ _ _), ?_⟩
    have hcount : Reader.Reads (WireReader.boundedCount (UInt32.ofNat items.length) maximum field) []
        (UInt32.ofNat items.length).toNat := WireReader.reads_boundedCount (hlength.trans_le hfits)
    refine Reader.run_bind_eq_ok.mpr ⟨_, _, hcount _, ?_⟩
    exact (h.times _ _ _ _).mpr ⟨⟨hlength.symm, hvalid⟩, rfl⟩

theorem string_inverts : Reader.Inverts (WireReader.string MAX_RUNTIME_REPORT_TEXT_BYTES) TextValid
    stringLayout := WireReader.string_inverts (by decide)

theorem decodeStrings_inverts :
    Reader.Inverts decodeStrings StringsValid (listLayout stringLayout) :=
  decodeList_inverts _ string_inverts (by decide)

/-! ## Navigation -/

theorem validate_eq_ok {options : NavigationOptions} :
    options.validate = .ok () ↔
      ¬ (1024 < Str.byteLen options.target ∨ '\x00' ∈ options.target) ∧
        ∀ post ∈ options.post, ¬ MAX_FORM_BODY_BYTES < post.body.length ∧
          ¬ (256 < Str.byteLen post.contentType ∨
            '\r' ∈ post.contentType ∨ '\n' ∈ post.contentType ∨ '\x00' ∈ post.contentType ∨
            ¬ NavigationOptions.isFormContentType post.contentType) := by
  rw [NavigationOptions.validate, failIf_bind_eq_ok]
  refine and_congr_right fun _ => ?_
  cases options.post with
  | none => simp [pure, Except.pure]
  | some post =>
    simp only [Option.mem_def, Option.some.injEq, forall_eq']
    rw [failIf_bind_eq_ok]
    refine and_congr_right fun _ => ?_
    rw [failIf]
    split
    next h => exact iff_of_false (nomatch ·) (not_not.mpr h)
    next h => exact iff_of_true rfl h

def postLayout (post : FormPost) : List UInt8 :=
  stringLayout post.contentType ++ WireWriter.prefixed post.body

def optionsLayout (options : NavigationOptions) : List UInt8 :=
  stringLayout options.target ++ WireWriter.bool options.noreferrer ++
    WireWriter.bool options.replaceHistory ++ WireWriter.bool options.userInitiated ++
    WireWriter.bool options.formSubmission ++ WireWriter.optional postLayout options.post

def navigationLayout (navigation : Option Str × NavigationOptions) : List UInt8 :=
  WireWriter.optional (fun url => stringLayout url ++ optionsLayout navigation.2) navigation.1

theorem encodePost_writes : Reader.Writes encodePost
    (fun post => Str.byteLen post.contentType < 2 ^ 32 ∧ post.body.length < 2 ^ 32) postLayout := by
  intro post
  apply Yields.congr
  · apply Yields.bind (WireWriter.string_writes post.contentType)
    apply Yields.bind (WireWriter.bytes_writes post.body)
    exact Yields.pure _
  · simp only [and_true]

/-- A URL is written at any length its prefix can hold. -/
theorem encodeNavigation_writes (options : NavigationOptions) :
    Reader.Writes (encodeNavigation options)
      (fun url => Str.byteLen url < 2 ^ 32 ∧ options.validate = .ok ())
      fun url => stringLayout url ++ optionsLayout options := by
  intro url
  have hvalidate : Yields (options.validate.mapError ProtocolError.InvalidPayload)
      (options.validate = .ok ()) () := fun found => by
    rw [mapError_eq_ok]
    exact (and_iff_left rfl).symm
  have hbytes : stringLayout url ++ optionsLayout options =
      stringLayout url ++ stringLayout options.target ++ WireWriter.bool options.noreferrer ++
        WireWriter.bool options.replaceHistory ++ WireWriter.bool options.userInitiated ++
        WireWriter.bool options.formSubmission ++ WireWriter.optional postLayout options.post := by
    simp only [optionsLayout, List.append_assoc]
  show Yields _ _ (stringLayout url ++ optionsLayout options)
  rw [hbytes]
  apply Yields.congr
  · apply Yields.bind (WireWriter.string_writes url)
    apply Yields.bind hvalidate
    apply Yields.bind (WireWriter.string_writes options.target)
    apply Yields.bind (WireWriter.option_writes encodePost_writes options.post)
    exact Yields.pure _
  · refine and_congr_right fun _ => ⟨And.left, fun hvalid => ⟨hvalid, ?_, ?_, trivial⟩⟩
    · have htarget := (validate_eq_ok.mp hvalid).1
      omega
    · intro post hpost
      obtain ⟨hbody, htype⟩ := (validate_eq_ok.mp hvalid).2 post hpost
      simp only [MAX_FORM_BODY_BYTES] at hbody
      omega

theorem decodePost_inverts : Reader.Inverts decodePost
    (fun post => Str.byteLen post.contentType ≤ 256 ∧ post.body.length ≤ MAX_FORM_BODY_BYTES)
    postLayout := by
  refine Reader.Inverts.record (.field FormPost.contentType (WireReader.string_inverts (by decide))
    fun contentType => .field FormPost.body (WireReader.bytes_inverts (by decide)) fun body =>
    .done fun post => ?_) ?_ ?_
  · cases post
    simp [and_comm]
  · simp
  · simp [postLayout, stringLayout]

private theorem decodeOptionFields_inverts : Reader.Inverts decodeOptionFields
    (fun options => Str.byteLen options.target ≤ 1024 ∧ ∀ post ∈ options.post,
      Str.byteLen post.contentType ≤ 256 ∧ post.body.length ≤ MAX_FORM_BODY_BYTES) optionsLayout := by
  refine Reader.Inverts.record
    (.field NavigationOptions.target (WireReader.string_inverts (by decide)) fun target =>
    .field NavigationOptions.noreferrer WireReader.bool_inverts fun noreferrer =>
    .field NavigationOptions.replaceHistory WireReader.bool_inverts fun replaceHistory =>
    .field NavigationOptions.userInitiated WireReader.bool_inverts fun userInitiated =>
    .field NavigationOptions.formSubmission WireReader.bool_inverts fun formSubmission =>
    .field NavigationOptions.post (WireReader.option_inverts decodePost_inverts) fun post =>
    .done fun options => ?_) ?_ ?_
  · cases options
    simp
    tauto
  · simp
  · simp [optionsLayout, stringLayout]

theorem decodeOptions_inverts :
    Reader.Inverts decodeOptions (fun options => options.validate = .ok ()) optionsLayout := by
  refine decodeOptionFields_inverts.checked.congr (fun options => ?_) fun _ => rfl
  rw [mapError_eq_ok]
  refine and_iff_right_of_imp fun hvalid => ?_
  obtain ⟨htarget, hpost⟩ := validate_eq_ok.mp hvalid
  refine ⟨by omega, fun post hmem => ?_⟩
  have hbounds := hpost post hmem
  omega

/-- What the decoder returns for a navigation: a bounded URL with options that pass, or the
default options. -/
def NavigationReceivable (navigation : Option Str × NavigationOptions) : Prop :=
  (∀ url ∈ navigation.1, Str.byteLen url ≤ MAX_URL_BYTES ∧ navigation.2.validate = .ok ()) ∧
    (navigation.1 = none → navigation.2 = default)

theorem decodeNavigation_inverts :
    Reader.Inverts decodeNavigation NavigationReceivable navigationLayout := by
  intro input navigation rest
  have hurl := WireReader.option_inverts
    (WireReader.string_inverts (by decide : MAX_URL_BYTES < 2 ^ 32))
  rw [decodeNavigation, Reader.run_bind_eq_ok]
  constructor
  · rintro ⟨url, middle, hfound, hread⟩
    obtain ⟨hbound, rfl⟩ := (hurl _ _ _).mp hfound
    cases url with
    | none =>
      cases hread
      exact ⟨⟨(fun _ hmem => by cases hmem), fun _ => rfl⟩, rfl⟩
    | some url =>
      obtain ⟨options, after, hoptions, hread⟩ := Reader.run_bind_eq_ok.mp hread
      cases hread
      obtain ⟨hvalid, rfl⟩ := (decodeOptions_inverts _ _ _).mp hoptions
      refine ⟨⟨?_, (nomatch ·)⟩, ?_⟩
      · rintro _ ⟨⟩
        exact ⟨hbound url rfl, hvalid⟩
      · simp [navigationLayout, WireWriter.optional, stringLayout]
  · obtain ⟨url, options⟩ := navigation
    rintro ⟨⟨hsome, hnone⟩, rfl⟩
    cases url with
    | none =>
      obtain rfl : options = default := hnone rfl
      exact ⟨none, rest, (hurl _ _ _).mpr ⟨(fun _ hmem => by cases hmem), rfl⟩, rfl⟩
    | some url =>
      obtain ⟨hbound, hvalid⟩ := hsome url rfl
      refine ⟨some url, optionsLayout options ++ rest, (hurl _ _ _).mpr ⟨?_, ?_⟩, ?_⟩
      · rintro _ ⟨⟩
        exact hbound
      · simp [navigationLayout, WireWriter.optional, stringLayout]
      · exact Reader.run_bind_eq_ok.mpr
          ⟨options, rest, (decodeOptions_inverts _ _ _).mpr ⟨hvalid, rfl⟩, rfl⟩

/-! ## Wheel acknowledgements -/

def wheelLayout : List WheelAcknowledgement → List UInt8 := listLayout encodeAcknowledgement

theorem encodeWheel_writes :
    Reader.Writes encodeWheel (fun values => validateWheel values = .ok ()) wheelLayout := by
  intro values
  have hvalidate : Yields (validateWheel values) (validateWheel values = .ok ()) () :=
    fun found => (and_iff_left rfl).symm
  apply Yields.congr
  · apply Yields.bind hvalidate
    exact Yields.pure _
  · exact and_iff_left trivial

theorem decodeWheelDecision_inverts : Reader.Inverts decodeWheelDecision (fun _ => True)
    fun decision => WireWriter.u8 (wheelDecisionTag decision) := by
  intro input decision rest
  rw [decodeWheelDecision, Reader.run_bind_eq_ok]
  constructor
  · rintro ⟨tag, middle, htag, hread⟩
    obtain rfl := WireReader.u8_eq_ok.mp htag
    refine ⟨trivial, ?_⟩
    split at hread <;> cases hread <;> rfl
  · rintro ⟨-, rfl⟩
    refine ⟨_, rest, WireReader.u8_eq_ok.mpr rfl, ?_⟩
    cases decision <;> rfl

theorem decodeAcknowledgement_inverts :
    Reader.Inverts decodeAcknowledgement (fun _ => True) encodeAcknowledgement := by
  refine Reader.Inverts.record
    (.field WheelAcknowledgement.sequence WireReader.u64_inverts fun sequence =>
    .field WheelAcknowledgement.decision decodeWheelDecision_inverts fun decision =>
    .field WheelAcknowledgement.viewportDeltaY WireReader.f32_inverts fun viewportDeltaY =>
    .field WheelAcknowledgement.dispatchMicros WireReader.u64_inverts fun dispatchMicros =>
    .done fun value => ?_) ?_ ?_
  · cases value
    simp
    tauto
  · simp
  · simp [encodeAcknowledgement]

theorem validateWheel_length {values : List WheelAcknowledgement}
    (h : validateWheel values = .ok ()) : values.length ≤ MAX_WHEEL_ACKNOWLEDGEMENTS := by
  rw [validateWheel, failIf] at h
  split at h
  next => cases h
  next hpassed => exact Nat.not_lt.mp fun hlong => hpassed (Or.inl hlong)

theorem decodeWheel_inverts :
    Reader.Inverts decodeWheel (fun values => validateWheel values = .ok ()) wheelLayout := by
  have hlist := decodeList_inverts "wheel acknowledgements" decodeAcknowledgement_inverts
    (by decide : MAX_WHEEL_ACKNOWLEDGEMENTS < 2 ^ 32)
  refine hlist.checked.congr (fun values => ?_) fun _ => rfl
  exact and_iff_right_of_imp fun hvalid => ⟨validateWheel_length hvalid, fun _ _ => trivial⟩

/-! ## History actions -/

def updateLayout (update : Str × Bool × Option Str × Single) : List UInt8 :=
  stringLayout update.1 ++ WireWriter.bool update.2.1 ++
    WireWriter.optional stringLayout update.2.2.1 ++ WireWriter.f32 update.2.2.2

def actionLayout : HistoryAction → List UInt8
  | .Update url replace state scrollY => WireWriter.u8 1 ++ updateLayout (url, replace, state, scrollY)
  | .Traverse delta => WireWriter.u8 2 ++ WireWriter.i32 delta
  | .SetScrollRestoration mode => WireWriter.u8 3 ++ WireWriter.u8 mode.wireTag

def UpdateReceivable (update : Str × Bool × Option Str × Single) : Prop :=
  Str.byteLen update.1 ≤ MAX_URL_BYTES ∧
    (∀ state ∈ update.2.2.1, Str.byteLen state ≤ MAX_HISTORY_STATE_BYTES) ∧
    ¬ (¬ update.2.2.2.isFinite ∨ update.2.2.2.ltZero)

def ActionReceivable : HistoryAction → Prop
  | .Update url replace state scrollY => UpdateReceivable (url, replace, state, scrollY)
  | _ => True

/-- The URL of an update is not empty. -/
def ActionNamed : HistoryAction → Prop
  | .Update url _ _ _ => url ≠ []
  | _ => True

theorem encodeHistoryAction_writes : Reader.Writes encodeHistoryAction
    (fun action => ActionReceivable action ∧ ActionNamed action) actionLayout := by
  intro action
  cases action with
  | Update url replace state scrollY =>
    have hbytes : actionLayout (.Update url replace state scrollY) =
        WireWriter.u8 1 ++ stringLayout url ++ WireWriter.bool replace ++
          WireWriter.optional stringLayout state ++ WireWriter.f32 scrollY := by
      simp only [actionLayout, updateLayout, List.append_assoc]
    rw [hbytes]
    apply Yields.congr
    · apply Yields.failIf
      apply Yields.bind (WireWriter.string_writes url)
      apply Yields.bind (WireWriter.option_writes WireWriter.string_writes state)
      exact Yields.pure _
    · simp only [ActionReceivable, UpdateReceivable, ActionNamed, MAX_URL_BYTES,
        MAX_HISTORY_STATE_BYTES]
      cases state with
      | none => grind
      | some state => grind
  | Traverse delta => exact (Yields.pure _).congr (by simp [ActionReceivable, ActionNamed])
  | SetScrollRestoration mode =>
    exact (Yields.pure _).congr (by simp [ActionReceivable, ActionNamed])

theorem decodeUpdate_inverts : Reader.Inverts decodeUpdate UpdateReceivable updateLayout := by
  have hstate := WireReader.option_inverts
    (WireReader.string_inverts (by decide : MAX_HISTORY_STATE_BYTES < 2 ^ 32))
  refine Reader.Inverts.record
    (.field Prod.fst (WireReader.string_inverts (by decide)) fun url =>
    .field (Prod.fst ∘ Prod.snd) WireReader.bool_inverts fun replace =>
    .field (Prod.fst ∘ Prod.snd ∘ Prod.snd) hstate fun state =>
    .field (Prod.snd ∘ Prod.snd ∘ Prod.snd) WireReader.f32_inverts fun scrollY =>
    .check (fun update : Str × Bool × Option Str × Single =>
        ¬ (¬ update.2.2.2.isFinite ∨ update.2.2.2.ltZero))
      (fun update hknown => ?_) (.done fun update => ?_)) ?_ ?_
  · obtain ⟨rfl, -⟩ := hknown
    exact Iff.rfl
  · obtain ⟨url, replace, state, scrollY⟩ := update
    simp
    tauto
  · simp [UpdateReceivable]
  · intro update
    simp only [updateLayout, Function.comp_apply, List.append_nil, List.append_assoc]
    rfl

theorem decodeMode_inverts : Reader.Inverts decodeMode (fun _ => True)
    fun mode => WireWriter.u8 mode.wireTag := by
  intro input mode rest
  rw [decodeMode, Reader.run_bind_eq_ok]
  constructor
  · rintro ⟨tag, middle, htag, hread⟩
    obtain rfl := WireReader.u8_eq_ok.mp htag
    refine ⟨trivial, ?_⟩
    rw [ScrollRestorationMode.fromWireTag.eq_def] at hread
    split at hread <;> cases hread <;> rfl
  · rintro ⟨-, rfl⟩
    refine ⟨_, rest, WireReader.u8_eq_ok.mpr rfl, ?_⟩
    cases mode <;> rfl

theorem decodeHistoryAction_inverts :
    Reader.Inverts decodeHistoryAction ActionReceivable actionLayout := by
  intro input action rest
  rw [decodeHistoryAction, Reader.run_bind_eq_ok]
  constructor
  · rintro ⟨tag, middle, htag, hread⟩
    obtain rfl := WireReader.u8_eq_ok.mp htag
    split at hread
    next =>
      obtain ⟨update, after, hupdate, hread⟩ := Reader.run_bind_eq_ok.mp hread
      cases hread
      obtain ⟨hvalid, rfl⟩ := (decodeUpdate_inverts _ _ _).mp hupdate
      exact ⟨hvalid, rfl⟩
    next =>
      obtain ⟨delta, after, hdelta, hread⟩ := Reader.run_bind_eq_ok.mp hread
      cases hread
      obtain rfl := WireReader.i32_eq_ok.mp hdelta
      exact ⟨trivial, rfl⟩
    next =>
      obtain ⟨mode, after, hmode, hread⟩ := Reader.run_bind_eq_ok.mp hread
      cases hread
      obtain ⟨-, rfl⟩ := (decodeMode_inverts _ _ _).mp hmode
      exact ⟨trivial, rfl⟩
    next => cases hread
  · rintro ⟨hvalid, rfl⟩
    cases action with
    | Update url replace state scrollY =>
      refine ⟨1, updateLayout (url, replace, state, scrollY) ++ rest, WireReader.u8_eq_ok.mpr rfl, ?_⟩
      exact Reader.run_bind_eq_ok.mpr
        ⟨_, rest, (decodeUpdate_inverts _ _ _).mpr ⟨hvalid, rfl⟩, rfl⟩
    | Traverse delta =>
      refine ⟨2, WireWriter.i32 delta ++ rest, WireReader.u8_eq_ok.mpr rfl, ?_⟩
      exact Reader.run_bind_eq_ok.mpr ⟨delta, rest, WireReader.i32_eq_ok.mpr rfl, rfl⟩
    | SetScrollRestoration mode =>
      refine ⟨3, WireWriter.u8 mode.wireTag ++ rest, WireReader.u8_eq_ok.mpr rfl, ?_⟩
      exact Reader.run_bind_eq_ok.mpr
        ⟨mode, rest, (decodeMode_inverts _ _ _).mpr ⟨trivial, rfl⟩, rfl⟩

/-! ## Text rejections and media -/

def nodeIdLayout (id : DocumentNodeId) : List UInt8 := WireWriter.u128 (BitVec.ofNat 128 id.get)

def rejectionLayout (rejection : NativeTextRejection) : List UInt8 :=
  WireWriter.u64 rejection.sequence ++ WireWriter.u32 rejection.generation ++
    nodeIdLayout rejection.target ++ stringLayout rejection.value ++
    WireWriter.u32 rejection.selectionStart ++ WireWriter.u32 rejection.selectionEnd

def RejectionValid (rejection : NativeTextRejection) : Prop :=
  Str.byteLen rejection.value ≤ MAX_RENDERER_TEXT_INPUT_BYTES ∧
    ¬ (rejection.sequence = 0 ∨ rejection.selectionEnd < rejection.selectionStart ∨
      utf16Len rejection.value < rejection.selectionEnd.toNat)

theorem encodeRejection_writes : Reader.Writes encodeRejection RejectionValid rejectionLayout := by
  intro rejection
  apply Yields.congr
  · apply Yields.failIf
    apply Yields.bind (WireWriter.string_writes rejection.value)
    exact Yields.pure _
  · simp only [RejectionValid, MAX_RENDERER_TEXT_INPUT_BYTES]
    grind

theorem decodeNodeId_inverts : Reader.Inverts decodeNodeId (fun _ => True) nodeIdLayout := by
  intro input id rest
  rw [decodeNodeId, Reader.run_bind_eq_ok]
  constructor
  · rintro ⟨value, middle, hvalue, hread⟩
    obtain rfl := WireReader.u128_eq_ok.mp hvalue
    rw [DocumentNodeId.new] at hread
    split at hread
    next =>
      cases hread
      refine ⟨trivial, ?_⟩
      rw [nodeIdLayout, BitVec.ofNat_toNat, BitVec.setWidth_eq]
    next => cases hread
  · rintro ⟨-, rfl⟩
    refine ⟨_, rest, WireReader.u128_eq_ok.mpr rfl, ?_⟩
    have hget : (BitVec.ofNat 128 id.get).toNat = id.get :=
      (BitVec.toNat_ofNat id.get 128).trans (Nat.mod_eq_of_lt id.bound)
    rw [DocumentNodeId.new, dif_pos (by
      rw [hget]
      exact ⟨id.namespace_ne_zero, id.local_ne_zero⟩)]
    simp only [hget]
    rfl

theorem decodeRejection_inverts :
    Reader.Inverts decodeRejection RejectionValid rejectionLayout := by
  refine Reader.Inverts.record
    (.field NativeTextRejection.sequence WireReader.u64_inverts fun sequence =>
    .field NativeTextRejection.generation WireReader.u32_inverts fun generation =>
    .field NativeTextRejection.target decodeNodeId_inverts fun target =>
    .field NativeTextRejection.value (WireReader.string_inverts (by decide)) fun value =>
    .field NativeTextRejection.selectionStart WireReader.u32_inverts fun selectionStart =>
    .field NativeTextRejection.selectionEnd WireReader.u32_inverts fun selectionEnd =>
    .check (fun rejection : NativeTextRejection => ¬ (rejection.sequence = 0 ∨
        rejection.selectionEnd < rejection.selectionStart ∨
        utf16Len rejection.value < rejection.selectionEnd.toNat))
      (fun rejection hknown => ?_) (.done fun rejection => ?_)) ?_ ?_
  · obtain ⟨rfl, rfl, rfl, -, -, rfl, -⟩ := hknown
    exact Iff.rfl
  · cases rejection
    simp
    tauto
  · simp [RejectionValid]
  · simp [rejectionLayout, stringLayout]

def mediaLayout (report : MediaRuntimeReport) : List UInt8 :=
  WireWriter.bool report.active ++ WireWriter.bool report.playing ++
    WireWriter.bool report.ended ++ WireWriter.u64 report.currentTime100ns ++
    WireWriter.u64 report.duration100ns ++ stringLayout report.backend ++
    stringLayout report.mimeType ++ stringLayout report.videoCodec ++
    stringLayout report.audioCodec ++ WireWriter.u64 report.encodedQueueBytes ++
    WireWriter.u64 report.encodedQueueLimitBytes ++ WireWriter.u16 report.decodedFrameQueueDepth ++
    WireWriter.u16 report.decodedFrameQueueLimit ++ WireWriter.u64 report.framesSubmitted ++
    WireWriter.u64 report.droppedFrames ++ WireWriter.u32 report.width ++
    WireWriter.u32 report.height ++ WireWriter.optional stringLayout report.failure

def MediaValid (report : MediaRuntimeReport) : Prop :=
  TextValid report.backend ∧ TextValid report.mimeType ∧ TextValid report.videoCodec ∧
    TextValid report.audioCodec ∧ ∀ failure ∈ report.failure, TextValid failure

theorem encodeMediaRuntime_writes :
    Reader.Writes encodeMediaRuntime MediaValid mediaLayout := by
  intro report
  have htext := encodeText_writes "media runtime text"
  apply Yields.congr
  · apply Yields.bind (htext report.backend)
    apply Yields.bind (htext report.mimeType)
    apply Yields.bind (htext report.videoCodec)
    apply Yields.bind (htext report.audioCodec)
    apply Yields.bind
      (WireWriter.option_writes (encodeText_writes "media runtime failure") report.failure)
    exact Yields.pure _
  · simp only [MediaValid, and_true]

theorem decodeMediaRuntime_inverts :
    Reader.Inverts decodeMediaRuntime MediaValid mediaLayout := by
  refine Reader.Inverts.record
    (.field MediaRuntimeReport.active WireReader.bool_inverts fun active =>
    .field MediaRuntimeReport.playing WireReader.bool_inverts fun playing =>
    .field MediaRuntimeReport.ended WireReader.bool_inverts fun ended =>
    .field MediaRuntimeReport.currentTime100ns WireReader.u64_inverts fun currentTime100ns =>
    .field MediaRuntimeReport.duration100ns WireReader.u64_inverts fun duration100ns =>
    .field MediaRuntimeReport.backend string_inverts fun backend =>
    .field MediaRuntimeReport.mimeType string_inverts fun mimeType =>
    .field MediaRuntimeReport.videoCodec string_inverts fun videoCodec =>
    .field MediaRuntimeReport.audioCodec string_inverts fun audioCodec =>
    .field MediaRuntimeReport.encodedQueueBytes WireReader.u64_inverts fun encodedQueueBytes =>
    .field MediaRuntimeReport.encodedQueueLimitBytes WireReader.u64_inverts fun queueLimit =>
    .field MediaRuntimeReport.decodedFrameQueueDepth WireReader.u16_inverts fun frameDepth =>
    .field MediaRuntimeReport.decodedFrameQueueLimit WireReader.u16_inverts fun frameLimit =>
    .field MediaRuntimeReport.framesSubmitted WireReader.u64_inverts fun framesSubmitted =>
    .field MediaRuntimeReport.droppedFrames WireReader.u64_inverts fun droppedFrames =>
    .field MediaRuntimeReport.width WireReader.u32_inverts fun width =>
    .field MediaRuntimeReport.height WireReader.u32_inverts fun height =>
    .field MediaRuntimeReport.failure (WireReader.option_inverts string_inverts) fun failure =>
    .done fun report => ?_) ?_ ?_
  · cases report
    simp only [MediaRuntimeReport.mk.injEq, and_true]
    tauto
  · simp [MediaValid]
  · simp [mediaLayout]

/-! ## Reports -/

def runtimeLayout (report : RuntimeReport) : List UInt8 :=
  WireWriter.u64 report.scriptsExecuted ++ WireWriter.u64 report.domMutations ++
    listLayout stringLayout report.errors ++ listLayout stringLayout report.console ++
    listLayout stringLayout report.diagnostics ++
    navigationLayout (report.navigationUrl, report.navigationOptions) ++
    WireWriter.optional WireWriter.f32 report.viewportScrollY ++
    WireWriter.f32 report.viewportWheelDeltaY ++ wheelLayout report.wheelAcknowledgements ++
    WireWriter.optional WireWriter.bool report.wheelHasBlockingListeners ++
    WireWriter.optional WireWriter.bool report.wheelHasNestedScroll ++
    listLayout actionLayout report.historyActions ++
    WireWriter.optional WireWriter.u64 report.historyTraversalAck ++
    WireWriter.optional rejectionLayout report.nativeTextRejection ++
    listLayout stringLayout report.cookieUpdates ++ WireWriter.bool report.runtimeActive ++
    WireWriter.bool report.runtimeStopped ++ WireWriter.bool report.renderRequested ++
    WireWriter.optional mediaLayout report.media

/-- What the encoder and the decoder both ask of a report. -/
structure Bounded (report : RuntimeReport) : Prop where
  errors : StringsValid report.errors
  console : StringsValid report.console
  diagnostics : StringsValid report.diagnostics
  options : ∀ url ∈ report.navigationUrl, report.navigationOptions.validate = .ok ()
  scroll : ¬ (report.viewportScrollY.any fun y => !y.isFinite || y.ltZero)
  delta : ¬ ¬ report.viewportWheelDeltaY.isFinite
  wheel : validateWheel report.wheelAcknowledgements = .ok ()
  actions : ListValid MAX_RUNTIME_REPORT_ENTRIES ActionReceivable report.historyActions
  ack : ¬ report.historyTraversalAck = some 0
  rejection : ∀ rejection ∈ report.nativeTextRejection, RejectionValid rejection
  cookies : StringsValid report.cookieUpdates
  media : ∀ media ∈ report.media, MediaValid media

/-- The reports the encoder accepts: of the navigation URL it asks only that its length fits
the prefix, and an update of the history must name a URL. -/
def Sendable (report : RuntimeReport) : Prop :=
  Bounded report ∧ (∀ url ∈ report.navigationUrl, Str.byteLen url < 2 ^ 32) ∧
    ∀ action ∈ report.historyActions, ActionNamed action

/-- The reports the decoder returns: the navigation URL is bounded, and the options without
one are the default ones. -/
def Receivable (report : RuntimeReport) : Prop :=
  Bounded report ∧ (∀ url ∈ report.navigationUrl, Str.byteLen url ≤ MAX_URL_BYTES) ∧
    (report.navigationUrl = none → report.navigationOptions = default)

theorem pure_writes {A : Type} (layout : A → List UInt8) :
    Reader.Writes (fun value => (pure (layout value) : ProtocolResult (List UInt8)))
      (fun _ => True) layout := fun _ => Yields.pure _

theorem encodeRuntime_writes : Reader.Writes encodeRuntime Sendable runtimeLayout := by
  intro report
  have hbytes : runtimeLayout report =
      WireWriter.u64 report.scriptsExecuted ++ WireWriter.u64 report.domMutations ++
        listLayout stringLayout report.errors ++ listLayout stringLayout report.console ++
        listLayout stringLayout report.diagnostics ++
        navigationLayout (report.navigationUrl, report.navigationOptions) ++
        WireWriter.optional WireWriter.f32 report.viewportScrollY ++
        WireWriter.f32 report.viewportWheelDeltaY ++ wheelLayout report.wheelAcknowledgements ++
        WireWriter.optional WireWriter.bool report.wheelHasBlockingListeners ++
        WireWriter.optional WireWriter.bool report.wheelHasNestedScroll ++
        WireWriter.u32 (UInt32.ofNat report.historyActions.length) ++
        report.historyActions.flatMap actionLayout ++
        WireWriter.optional WireWriter.u64 report.historyTraversalAck ++
        WireWriter.optional rejectionLayout report.nativeTextRejection ++
        listLayout stringLayout report.cookieUpdates ++ WireWriter.bool report.runtimeActive ++
        WireWriter.bool report.runtimeStopped ++ WireWriter.bool report.renderRequested ++
        WireWriter.optional mediaLayout report.media := by
    simp only [runtimeLayout, listLayout, List.append_assoc]
  rw [hbytes]
  apply Yields.congr
  · apply Yields.bind (encodeStrings_writes "runtime errors count" report.errors)
    apply Yields.bind (encodeStrings_writes "runtime console count" report.console)
    apply Yields.bind (encodeStrings_writes "runtime diagnostics count" report.diagnostics)
    apply Yields.bind (WireWriter.option_writes
      (encodeNavigation_writes report.navigationOptions) report.navigationUrl)
    apply Yields.failIf
    apply Yields.bind (WireWriter.option_writes (pure_writes WireWriter.f32) report.viewportScrollY)
    apply Yields.failIf
    apply Yields.bind (encodeWheel_writes report.wheelAcknowledgements)
    apply Yields.bind (WireWriter.option_writes (pure_writes WireWriter.bool)
      report.wheelHasBlockingListeners)
    apply Yields.bind (WireWriter.option_writes (pure_writes WireWriter.bool)
      report.wheelHasNestedScroll)
    apply Yields.failIf
    apply Yields.bind (encodeHistoryAction_writes.each report.historyActions)
    apply Yields.failIf
    apply Yields.bind (WireWriter.option_writes (pure_writes WireWriter.u64)
      report.historyTraversalAck)
    apply Yields.bind (WireWriter.option_writes encodeRejection_writes report.nativeTextRejection)
    apply Yields.bind (encodeStrings_writes "runtime cookie updates count" report.cookieUpdates)
    apply Yields.bind (WireWriter.option_writes encodeMediaRuntime_writes report.media)
    exact Yields.pure _
  · constructor
    · rintro ⟨herrors, hconsole, hdiagnostics, hnavigation, hscroll, -, hdelta, hwheel, -, -, hcount,
        hactions, hack, -, hrejection, hcookies, hmedia, -⟩
      exact ⟨{
        errors := herrors
        console := hconsole
        diagnostics := hdiagnostics
        options := fun url hurl => (hnavigation url hurl).2
        scroll := hscroll
        delta := hdelta
        wheel := hwheel
        actions := ⟨Nat.not_lt.mp hcount, fun action hmem => (hactions action hmem).1⟩
        ack := hack
        rejection := hrejection
        cookies := hcookies
        media := hmedia }, fun url hurl => (hnavigation url hurl).1,
        fun action hmem => (hactions action hmem).2⟩
    · rintro ⟨hbounded, hurl, hnamed⟩
      exact ⟨hbounded.errors, hbounded.console, hbounded.diagnostics,
        fun url hmem => ⟨hurl url hmem, hbounded.options url hmem⟩, hbounded.scroll,
        fun _ _ => trivial, hbounded.delta, hbounded.wheel, fun _ _ => trivial, fun _ _ => trivial,
        Nat.not_lt.mpr hbounded.actions.1,
        fun action hmem => ⟨hbounded.actions.2 action hmem, hnamed action hmem⟩, hbounded.ack,
        fun _ _ => trivial, hbounded.rejection, hbounded.cookies, hbounded.media, trivial⟩

theorem decodeRuntime_inverts : Reader.Inverts decodeRuntime Receivable runtimeLayout := by
  have hactions := decodeList_inverts "history action count" decodeHistoryAction_inverts
    (by decide : MAX_RUNTIME_REPORT_ENTRIES < 2 ^ 32)
  refine Reader.Inverts.record
    (.field RuntimeReport.scriptsExecuted WireReader.u64_inverts fun scriptsExecuted =>
    .field RuntimeReport.domMutations WireReader.u64_inverts fun domMutations =>
    .field RuntimeReport.errors decodeStrings_inverts fun errors =>
    .field RuntimeReport.console decodeStrings_inverts fun console =>
    .field RuntimeReport.diagnostics decodeStrings_inverts fun diagnostics =>
    .field (fun report : RuntimeReport => (report.navigationUrl, report.navigationOptions))
      decodeNavigation_inverts fun navigation =>
    .field RuntimeReport.viewportScrollY (WireReader.option_inverts WireReader.f32_inverts)
      fun viewportScrollY =>
    .check (fun report : RuntimeReport =>
        ¬ (report.viewportScrollY.any fun y => !y.isFinite || y.ltZero)) (fun report hknown => ?_)
    (.field RuntimeReport.viewportWheelDeltaY WireReader.f32_inverts fun viewportWheelDeltaY =>
    .check (fun report : RuntimeReport => ¬ ¬ report.viewportWheelDeltaY.isFinite)
      (fun report hknown => ?_)
    (.field RuntimeReport.wheelAcknowledgements decodeWheel_inverts fun wheelAcknowledgements =>
    .field RuntimeReport.wheelHasBlockingListeners
      (WireReader.option_inverts WireReader.bool_inverts) fun wheelHasBlockingListeners =>
    .field RuntimeReport.wheelHasNestedScroll (WireReader.option_inverts WireReader.bool_inverts)
      fun wheelHasNestedScroll =>
    .field RuntimeReport.historyActions hactions fun historyActions =>
    .field RuntimeReport.historyTraversalAck (WireReader.option_inverts WireReader.u64_inverts)
      fun historyTraversalAck =>
    .check (fun report : RuntimeReport => ¬ report.historyTraversalAck = some 0)
      (fun report hknown => ?_)
    (.field RuntimeReport.nativeTextRejection (WireReader.option_inverts decodeRejection_inverts)
      fun nativeTextRejection =>
    .field RuntimeReport.cookieUpdates decodeStrings_inverts fun cookieUpdates =>
    .field RuntimeReport.runtimeActive WireReader.bool_inverts fun runtimeActive =>
    .field RuntimeReport.runtimeStopped WireReader.bool_inverts fun runtimeStopped =>
    .field RuntimeReport.renderRequested WireReader.bool_inverts fun renderRequested =>
    .field RuntimeReport.media (WireReader.option_inverts decodeMediaRuntime_inverts) fun media =>
    .done fun report => ?_)))) ?_ ?_
  · obtain ⟨rfl, -⟩ := hknown
    exact Iff.rfl
  · obtain ⟨rfl, -⟩ := hknown
    exact Iff.rfl
  · obtain ⟨rfl, -⟩ := hknown
    exact Iff.rfl
  · cases report
    obtain ⟨navigationUrl, navigationOptions⟩ := navigation
    simp only [RuntimeReport.mk.injEq, Prod.mk.injEq, and_true]
    tauto
  · intro report
    constructor
    · rintro ⟨-, -, herrors, hconsole, hdiagnostics, ⟨hnavigation, hdefault⟩, -, hscroll, -, hdelta,
        hwheel, -, -, hactions, -, hack, hrejection, hcookies, -, -, -, hmedia, -⟩
      exact ⟨{
        errors := herrors
        console := hconsole
        diagnostics := hdiagnostics
        options := fun url hurl => (hnavigation url hurl).2
        scroll := hscroll
        delta := hdelta
        wheel := hwheel
        actions := hactions
        ack := hack
        rejection := hrejection
        cookies := hcookies
        media := hmedia }, fun url hurl => (hnavigation url hurl).1, hdefault⟩
    · rintro ⟨hbounded, hurl, hdefault⟩
      exact ⟨trivial, trivial, hbounded.errors, hbounded.console, hbounded.diagnostics,
        ⟨fun url hmem => ⟨hurl url hmem, hbounded.options url hmem⟩, hdefault⟩, fun _ _ => trivial,
        hbounded.scroll, trivial, hbounded.delta, hbounded.wheel, fun _ _ => trivial,
        fun _ _ => trivial, hbounded.actions, fun _ _ => trivial, hbounded.ack, hbounded.rejection,
        hbounded.cookies, trivial, trivial, trivial, hbounded.media, trivial⟩
  · intro report
    simp only [runtimeLayout, List.append_assoc, List.append_nil]

end BetterWebBrowser.RendererProtocol.RuntimeCodec
