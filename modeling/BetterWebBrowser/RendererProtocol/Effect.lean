import BetterWebBrowser.RendererProtocol.AccessibilityComposition
import BetterWebBrowser.RendererProtocol.Coalescing

/-!
# Queue compaction against in-order processing

The browser's side: what delivering one report does to the resources, the logs and the
scroll position it keeps. A compacted report has the effect of the two reports it stands
for; each component of the state has its own merge law below.
-/

namespace BetterWebBrowser.RendererProtocol

open Framework

/-! ## The effect of a report -/

/-- Every counter of a report, in declaration order. -/
def LayoutStats.toFields (stats : LayoutStats) : List Nat :=
  [stats.passes, stats.boxesRebuilt, stats.blocksLaidOut, stats.subtreesReplayed,
    stats.itemsEmitted, stats.itemsReplayed, stats.boxTreeMicros, stats.blockLayoutMicros,
    stats.inlineGeometryMicros, stats.overflowMicros, stats.paintOrderMicros, stats.hitTestMicros,
    stats.stickyMicros]

def PageLoadReport.counters (load : PageLoadReport) : List Nat :=
  [load.parseMicros, load.htmlParseMicros, load.resourceProcessingMicros, load.scriptMicros,
    load.scriptFetchMicros, load.styleMicros, load.layoutMicros, load.textMeasureCount,
    load.textShapeCacheHits, load.textShapeCacheMisses, load.textShapeCacheFlushes,
    load.fontCatalogMicros, load.fontSelectMicros, load.openTypeShapeMicros,
    load.glyphRasterMicros, load.presentationEncodeMicros, load.presentationDecodeMicros] ++
    load.layout.toFields

def StyleReport.counters (style : StyleReport) : List Nat :=
  [style.invalidatedNodes, style.totalStyles, style.recomputedStyles, style.changedStyles,
    style.removedStyles, style.invalidationFallbacks.siblingCombinator,
    style.invalidationFallbacks.nestedSelector, style.invalidationFallbacks.unboundedRules,
    style.invalidationFallbacks.keylessDescendant, style.invalidationFallbacks.ruleDiffSubtrees]

/-- Totals grow by a report's counters and stay at the largest 64-bit number. -/
def addCounters (totals counters : List Nat) : List Nat := List.zipWith saturatingAdd totals counters

/-- What runtime reports leave behind. -/
structure RuntimeState where
  scripts : List Nat
  errors : List Str
  console : List Str
  diagnostics : List Str
  historyActions : List HistoryAction
  cookieUpdates : List Str
  wheelAcknowledgements : List WheelAcknowledgement
  viewportY : ℚ
  navigation : Option (Str × NavigationOptions)
  wheelHasBlockingListeners : Option Bool
  wheelHasNestedScroll : Option Bool
  historyTraversalAck : Option Nat
  nativeTextRejection : Option NativeTextRejection
  runtimeActive : Bool
  runtimeStopped : Bool
  renderRequested : Bool
  media : Option MediaRuntimeReport

def RuntimeState.report (state : RuntimeState) (report : RuntimeReport) : RuntimeState where
  scripts := addCounters state.scripts [report.scriptsExecuted, report.domMutations]
  errors := state.errors ++ report.errors
  console := state.console ++ report.console
  diagnostics := state.diagnostics ++ report.diagnostics
  historyActions := state.historyActions ++ report.historyActions
  cookieUpdates := state.cookieUpdates ++ report.cookieUpdates
  wheelAcknowledgements := state.wheelAcknowledgements ++ report.wheelAcknowledgements
  viewportY := report.viewportScrollY.getD state.viewportY + report.viewportWheelDeltaY
  navigation := (report.navigationUrl.map fun url => (url, report.navigationOptions)).or state.navigation
  wheelHasBlockingListeners := report.wheelHasBlockingListeners.or state.wheelHasBlockingListeners
  wheelHasNestedScroll := report.wheelHasNestedScroll.or state.wheelHasNestedScroll
  historyTraversalAck := report.historyTraversalAck.or state.historyTraversalAck
  nativeTextRejection := report.nativeTextRejection.or state.nativeTextRejection
  runtimeActive := report.runtimeActive
  runtimeStopped := state.runtimeStopped || report.runtimeStopped
  renderRequested := state.renderRequested || report.renderRequested
  media := report.media

/-- Work totals, with the latest number of cached shapes. -/
structure LoadState where
  totals : List Nat
  textShapeCacheEntries : Nat

def LoadState.report (state : LoadState) (load : PageLoadReport) : LoadState where
  totals := addCounters state.totals load.counters
  textShapeCacheEntries := load.textShapeCacheEntries

structure StyleState where
  totals : List Nat
  layoutChanged : Bool
  fullRebuild : Bool

def StyleState.report (state : StyleState) (style : StyleReport) : StyleState where
  totals := addCounters state.totals style.counters
  layoutChanged := state.layoutChanged || style.layoutChanged
  fullRebuild := state.fullRebuild || style.fullRebuild

abbrev ImageMap := OrdMap Str DecodedImage

/-- Images as map entries. -/
def keyedImages (presented : List PresentedImage) : List (Str × DecodedImage) :=
  presented.map fun image => (image.url, image.image)

/-- Retirements of a presentation, then its images. -/
def installImages (images : ImageMap) (presented : List PresentedImage) (retired : List Str) :
    ImageMap :=
  (images.eraseAll retired).insertAll (keyedImages presented)

structure GlyphState where
  epoch : Nat
  rasters : OrdMap Nat PresentedGlyphRaster

def GlyphState.install (state : GlyphState) (epoch : Nat) (glyphs : List PresentedGlyphRaster) :
    GlyphState where
  epoch := epoch
  rasters := (if state.epoch = epoch then state.rasters else OrdMap.empty).insertAll
    (glyphs.map fun glyph => (glyph.id, glyph))

/-- The snapshot a newer presentation replaces as a whole. -/
structure Snapshot (Content : Type) where
  revision : Nat
  title : Str
  finalUrl : Str
  status : Nat
  characterSet : Str
  content : Content

structure BrowserState (Content : Type) where
  images : ImageMap
  glyphs : GlyphState
  runtime : RuntimeState
  style : StyleState
  load : LoadState
  clockAdvanced : Bool
  tree : ConsumerTree
  nextTimerMicros : Option Nat
  snapshot : Option (Snapshot Content)

namespace BrowserState

variable {Content : Type}

/-- Deliver a runtime update. -/
def update (state : BrowserState Content) (value : RendererRuntimeUpdate) : BrowserState Content :=
  { state with
    runtime := state.runtime.report value.runtime
    load := state.load.report value.load
    clockAdvanced := state.clockAdvanced || value.clockAdvanced
    nextTimerMicros := value.nextTimerMicros }

/-- Deliver a presentation. -/
def present (state : BrowserState Content) (value : RendererPresentation Content) :
    BrowserState Content where
  images := installImages state.images value.images value.retiredImageKeys
  glyphs := state.glyphs.install value.glyphEpoch value.glyphs
  runtime := state.runtime.report value.runtime
  style := state.style.report value.style
  load := state.load.report value.load
  clockAdvanced := state.clockAdvanced || value.clockAdvanced
  tree := state.tree.apply value.accessibility
  nextTimerMicros := value.nextTimerMicros
  snapshot := some ⟨value.revision, value.title, value.finalUrl, value.status, value.characterSet,
    value.content⟩

end BrowserState

/-! ## Counters -/

theorem addCounters_assoc (totals first second : List Nat) :
    addCounters (addCounters totals first) second =
      addCounters totals (addCounters first second) := by
  simp only [addCounters]
  induction totals generalizing first second with
  | nil => simp
  | cons total totals ih =>
    cases first with
    | nil => simp
    | cons a first =>
      cases second with
      | nil => simp
      | cons b second => simp [saturatingAdd_assoc, ih]

theorem PageLoadReport.counters_coalesce (self next : PageLoadReport) :
    (self.coalesce next).counters = addCounters self.counters next.counters := rfl

theorem StyleReport.counters_coalesce (self next : StyleReport) :
    (self.coalesce next).counters = addCounters self.counters next.counters := rfl

theorem LoadState.report_coalesce (state : LoadState) (self next : PageLoadReport) :
    state.report (self.coalesce next) = (state.report self).report next := by
  simp only [report, PageLoadReport.counters_coalesce, addCounters_assoc]
  rfl

theorem StyleState.report_coalesce (state : StyleState) (self next : StyleReport) :
    state.report (self.coalesce next) = (state.report self).report next := by
  simp only [report, StyleReport.counters_coalesce, addCounters_assoc, Bool.or_assoc]
  rfl

/-! ## Resources -/

section Resources

variable {Content : Type}

private theorem get_keyedImages_eq_none {images : List PresentedImage} {url : Str} :
    (OrdMap.ofList (keyedImages images)).get url = none ↔
      url ∉ images.map PresentedImage.url := by
  have hurls : (keyedImages images).map Prod.fst = images.map PresentedImage.url := by
    rw [keyedImages, List.map_map]
    rfl
  rw [← hurls, ← OrdMap.contains_ofList, OrdMap.contains, Option.not_isSome_iff_eq_none]

private theorem insertAll_keepLast {A V : Type*} {K : Type*} [LinearOrder K] (key : A → K)
    (value : A → V) (l : List A) (m : OrdMap K V) :
    m.insertAll ((OrdMap.retainFirst key [] l.reverse).reverse.map fun a => (key a, value a)) =
      m.insertAll (l.map fun a => (key a, value a)) := by
  apply OrdMap.ext_get
  intro j
  rw [OrdMap.get_insertAll_retainFirst]
  simp

private theorem keyedImages_filter (p : Str → Bool) (images : List PresentedImage) :
    keyedImages (images.filter fun image => p image.url) =
      (keyedImages images).filter fun entry => p entry.1 := by
  rw [keyedImages, keyedImages, List.filter_map]
  rfl

theorem installImages_merge (images : ImageMap) (self next : RendererPresentation Content) :
    installImages images (self.mergeResources next).images
        (self.mergeResources next).retiredImageKeys =
      installImages (installImages images self.images self.retiredImageKeys) next.images
        next.retiredImageKeys := by
  let kept := self.images.filter fun image => decide (image.url ∉ next.retiredImageKeys)
  let cancelled := self.retiredImageKeys.filter fun key => decide (key ∉ next.imageUrls)
  have hmerged : installImages images (self.mergeResources next).images
      (self.mergeResources next).retiredImageKeys =
      (images.eraseAll (OrdMap.setOf (cancelled ++ next.retiredImageKeys)).keys).insertAll
        (keyedImages (kept ++ next.images)) :=
    insertAll_keepLast PresentedImage.url PresentedImage.image (kept ++ next.images) _
  have hkept : keyedImages kept =
      (keyedImages self.images).filter fun entry => decide (entry.1 ∉ next.retiredImageKeys) :=
    keyedImages_filter (fun url => decide (url ∉ next.retiredImageKeys)) self.images
  have happend : keyedImages (kept ++ next.images) = keyedImages kept ++ keyedImages next.images :=
    List.map_append
  rw [hmerged, happend, OrdMap.insertAll_append]
  apply OrdMap.ext_get
  intro url
  have hretired : url ∈ (OrdMap.setOf (cancelled ++ next.retiredImageKeys)).keys ↔
      (url ∈ self.retiredImageKeys ∧ url ∉ next.imageUrls) ∨ url ∈ next.retiredImageKeys := by
    rw [OrdMap.mem_keys, OrdMap.contains_setOf, List.mem_append, List.mem_filter, decide_eq_true_eq]
  simp only [installImages, OrdMap.get_insertAll, OrdMap.get_eraseAll, hkept,
    OrdMap.get_ofList_filter (fun url => decide (url ∉ next.retiredImageKeys)), hretired]
  cases hnext : (OrdMap.ofList (keyedImages next.images)).get url with
  | some image => rfl
  | none =>
    have hnot : url ∉ next.imageUrls := get_keyedImages_eq_none.mp hnext
    by_cases hgone : url ∈ next.retiredImageKeys
    · simp [hgone]
    · by_cases hold : url ∈ self.retiredImageKeys <;> simp [hgone, hnot, hold]

theorem GlyphState.install_merge (state : GlyphState) {self next : RendererPresentation Content}
    (hepoch : self.glyphEpoch = next.glyphEpoch ∨ state.epoch ≠ next.glyphEpoch) :
    state.install next.glyphEpoch (self.mergeResources next).glyphs =
      (state.install self.glyphEpoch self.glyphs).install next.glyphEpoch next.glyphs := by
  simp only [install, RendererPresentation.mergeResources,
    insertAll_keepLast PresentedGlyphRaster.id fun glyph => glyph]
  by_cases hsame : self.glyphEpoch = next.glyphEpoch
  · simp only [hsame, if_true, List.map_append, OrdMap.insertAll_append]
  · have hstate : state.epoch ≠ next.glyphEpoch := hepoch.resolve_left hsame
    simp only [hsame, hstate, if_false]

end Resources

/-! ## Runtime reports -/

theorem sequencesIncrease_iff (values : List WheelAcknowledgement) :
    sequencesIncrease values = true ↔ values.Pairwise fun a b => a.sequence < b.sequence := by
  have : IsTrans WheelAcknowledgement fun a b => a.sequence < b.sequence :=
    ⟨fun _ _ _ => lt_trans⟩
  rw [← List.isChain_iff_pairwise]
  induction values using sequencesIncrease.induct with
  | case1 first second values ih =>
    rw [sequencesIncrease, Bool.and_eq_true, decide_eq_true_eq, List.isChain_cons_cons]
    exact and_congr Iff.rfl ih
  | case2 values h =>
    match values with
    | [] => simp [sequencesIncrease]
    | [_] => simp [sequencesIncrease]
    | first :: second :: values => exact absurd rfl (h first second values)

/-- What the check of wheel verdicts accepts. -/
structure WheelOrdered (values : List WheelAcknowledgement) : Prop where
  length_le : values.length ≤ MAX_WHEEL_ACKNOWLEDGEMENTS
  sequence_ne_zero : ∀ value ∈ values.head?, value.sequence ≠ 0
  increasing : values.Pairwise fun a b => a.sequence < b.sequence
  motionless : ∀ value ∈ values, value.decision ≠ .Viewport → value.viewportDeltaY = 0

theorem validateWheel_iff (values : List WheelAcknowledgement) :
    validateWheel values = .ok () ↔ WheelOrdered values := by
  rw [validateWheel]
  split_ifs with h
  · refine ⟨fun hok => (by cases hok), fun hordered => ?_⟩
    have hfirst : (values.head?.any fun value => decide (value.sequence = 0)) ≠ true := by
      intro hany
      obtain ⟨value, hvalue, hzero⟩ := (Option.any_eq_true _ _).mp hany
      exact hordered.sequence_ne_zero value hvalue (decide_eq_true_eq.mp hzero)
    have hmoved : (values.any fun value =>
        decide (value.decision ≠ .Viewport ∧ value.viewportDeltaY ≠ 0)) ≠ true := by
      intro hany
      obtain ⟨value, hvalue, hmoves⟩ := List.any_eq_true.mp hany
      obtain ⟨hdecision, hdelta⟩ := decide_eq_true_eq.mp hmoves
      exact hdelta (hordered.motionless value hvalue hdecision)
    have hincrease := (sequencesIncrease_iff values).mpr hordered.increasing
    have hlength := hordered.length_le
    rcases h with h | h | h | h
    · omega
    · exact absurd h hfirst
    · exact absurd hincrease h
    · exact absurd h hmoved
  · simp only [not_or, not_lt, Bool.not_eq_true, Bool.not_eq_false] at h
    obtain ⟨hlength, hfirst, hincrease, hmoved⟩ := h
    refine ⟨fun _ => ?_, fun _ => rfl⟩
    exact {
      length_le := hlength
      sequence_ne_zero := by
        intro value hvalue hzero
        rw [Option.mem_def] at hvalue
        simp [hvalue, hzero] at hfirst
      increasing := (sequencesIncrease_iff values).mp hincrease
      motionless := by
        intro value hvalue hdecision
        have := List.any_eq_false.mp hmoved value hvalue
        simp only [decide_eq_true_eq, not_and, not_not] at this
        exact this hdecision }

theorem WheelOrdered.clearDeltas {values : List WheelAcknowledgement} (h : WheelOrdered values) :
    WheelOrdered (RuntimeReport.clearDeltas values) where
  length_le := by
    rw [RuntimeReport.clearDeltas, List.length_map]
    exact h.length_le
  sequence_ne_zero := by
    intro value hvalue
    rw [RuntimeReport.clearDeltas, List.head?_map, Option.mem_map] at hvalue
    obtain ⟨original, horiginal, rfl⟩ := hvalue
    exact h.sequence_ne_zero original horiginal
  increasing := List.pairwise_map.mpr h.increasing
  motionless := by
    intro value hvalue _
    obtain ⟨original, _, rfl⟩ := List.mem_map.mp hvalue
    rfl

theorem WheelOrdered.append {first second : List WheelAcknowledgement} (hfirst : WheelOrdered first)
    (hsecond : WheelOrdered second)
    (hlength : first.length + second.length ≤ MAX_WHEEL_ACKNOWLEDGEMENTS)
    (hbelow : ∀ a ∈ first, ∀ b ∈ second, a.sequence < b.sequence) :
    WheelOrdered (first ++ second) where
  length_le := by
    rw [List.length_append]
    exact hlength
  sequence_ne_zero := by
    intro value hvalue
    rw [List.head?_append, Option.mem_def, Option.or_eq_some_iff] at hvalue
    rcases hvalue with hvalue | ⟨_, hvalue⟩
    · exact hfirst.sequence_ne_zero value hvalue
    · exact hsecond.sequence_ne_zero value hvalue
  increasing := List.pairwise_append.mpr ⟨hfirst.increasing, hsecond.increasing, hbelow⟩
  motionless := by
    intro value hvalue
    rcases List.mem_append.mp hvalue with hvalue | hvalue
    · exact hfirst.motionless value hvalue
    · exact hsecond.motionless value hvalue

namespace RuntimeReport

/-- The earlier report without the wheel distances that an absolute scroll of the later one
supersedes. -/
def superseded (self next : RuntimeReport) : RuntimeReport :=
  { self with
    wheelAcknowledgements :=
      if next.viewportScrollY.isSome then clearDeltas self.wheelAcknowledgements
      else self.wheelAcknowledgements }

/-- Two history acknowledgements, which one report cannot carry. -/
def AcksDiffer (self next : RuntimeReport) : Prop :=
  self.historyTraversalAck.isSome ∧ next.historyTraversalAck.isSome ∧
    self.historyTraversalAck ≠ next.historyTraversalAck

/-- Queued reports: valid verdicts, those of the earlier report first. -/
structure Queued (earlier later : RuntimeReport) : Prop where
  earlier_ordered : WheelOrdered earlier.wheelAcknowledgements
  later_ordered : WheelOrdered later.wheelAcknowledgements
  below : ∀ a ∈ earlier.wheelAcknowledgements, ∀ b ∈ later.wheelAcknowledgements,
    a.sequence < b.sequence

/-- The combined distance needs no clamp. -/
def DeltaFits (self next : RuntimeReport) : Prop :=
  next.viewportScrollY = none →
    |self.viewportWheelDeltaY + next.viewportWheelDeltaY| ≤ F32_MAX

private theorem clampF32_of_abs_le {value : ℚ} (h : |value| ≤ F32_MAX) : clampF32 value = value := by
  obtain ⟨hlow, hhigh⟩ := abs_le.mp h
  rw [clampF32, min_eq_right hhigh, max_eq_right hlow]

theorem superseded_ordered {self next : RuntimeReport} (h : Queued self next)
    (hlength : self.wheelAcknowledgements.length + next.wheelAcknowledgements.length ≤
      MAX_WHEEL_ACKNOWLEDGEMENTS) :
    WheelOrdered ((self.superseded next).wheelAcknowledgements ++ next.wheelAcknowledgements) := by
  by_cases hscroll : next.viewportScrollY.isSome = true
  · simp only [superseded, hscroll, if_true]
    refine h.earlier_ordered.clearDeltas.append h.later_ordered ?_ ?_
    · rw [clearDeltas, List.length_map]
      exact hlength
    · intro a ha b hb
      obtain ⟨original, horiginal, rfl⟩ := List.mem_map.mp ha
      exact h.below original horiginal b hb
  · simp only [superseded, hscroll]
    exact h.earlier_ordered.append h.later_ordered hlength h.below

private theorem lastKnown {A : Type} (prior latest state : Option A) :
    (if latest.isNone then prior else latest).or state = latest.or (prior.or state) := by
  cases latest <;> rfl

/-- An absolute scroll restarts the position; distances after it add up. -/
private theorem viewport_merge (position : ℚ) {self next : RuntimeReport}
    (hfits : DeltaFits self next) :
    (if next.viewportScrollY.isNone then self.viewportScrollY
        else next.viewportScrollY).getD position +
      (if next.viewportScrollY.isNone then
        clampF32 (self.viewportWheelDeltaY + next.viewportWheelDeltaY)
      else next.viewportWheelDeltaY) =
    next.viewportScrollY.getD (self.viewportScrollY.getD position + self.viewportWheelDeltaY) +
      next.viewportWheelDeltaY := by
  cases hscroll : next.viewportScrollY with
  | some y => rfl
  | none =>
    simp only [Option.isNone_none, if_true, Option.getD_none]
    rw [clampF32_of_abs_le (hfits hscroll), add_assoc]

private theorem navigation_merge (state : Option (Str × NavigationOptions))
    (self next : RuntimeReport) :
    ((if next.navigationUrl.isNone then self.navigationUrl else next.navigationUrl).map fun url =>
        (url, if next.navigationUrl.isNone then self.navigationOptions
          else next.navigationOptions)).or state =
      (next.navigationUrl.map fun url => (url, next.navigationOptions)).or
        ((self.navigationUrl.map fun url => (url, self.navigationOptions)).or state) := by
  cases next.navigationUrl <;> rfl

/-- The merged report has the effect of both, one after the other. -/
theorem report_mergeFields (state : RuntimeState) {self next : RuntimeReport}
    (hfits : DeltaFits self next) :
    state.report (mergeFields self next
        ((self.superseded next).wheelAcknowledgements ++ next.wheelAcknowledgements)) =
      (state.report (self.superseded next)).report next := by
  have hviewport := viewport_merge state.viewportY hfits
  have hnavigation := navigation_merge state.navigation self next
  have hscripts : addCounters state.scripts
      [saturatingAdd self.scriptsExecuted next.scriptsExecuted,
        saturatingAdd self.domMutations next.domMutations] =
      addCounters (addCounters state.scripts [self.scriptsExecuted, self.domMutations])
        [next.scriptsExecuted, next.domMutations] :=
    (addCounters_assoc state.scripts [self.scriptsExecuted, self.domMutations]
      [next.scriptsExecuted, next.domMutations]).symm
  have hflag : ∀ a b c : Bool, (a || (c || b)) = (a || b || c) := by decide
  simp only [RuntimeState.report, mergeFields, superseded, hviewport, hnavigation, hscripts,
    lastKnown, hflag, List.append_assoc]

/-- A merge that the bounds admit is refused for one reason only. -/
theorem coalesce_cases {self next : RuntimeReport} (h : Queued self next)
    (hsize : (self.mergedRuntimeBytes next).isSome) :
    (AcksDiffer self next ∧ self.coalesce next =
      .error (.InvalidPayload "coalesced history acknowledgements")) ∨
    (¬ AcksDiffer self next ∧ self.coalesce next = .ok (mergeFields self next
      ((self.superseded next).wheelAcknowledgements ++ next.wheelAcknowledgements))) := by
  rw [mergedRuntimeBytes] at hsize
  split_ifs at hsize with hlength hrejections hcounts
  · cases hsize
  · cases hsize
  · cases hsize
  · rw [not_lt] at hlength
    have hself := (validateWheel_iff _).mpr h.earlier_ordered
    have happended := (validateWheel_iff _).mpr (superseded_ordered h hlength)
    by_cases hdiffer : AcksDiffer self next
    · refine Or.inl ⟨hdiffer, ?_⟩
      simp only [superseded] at happended
      rw [coalesce, hself]
      simp only [happended, hcounts, if_false, Bool.false_eq_true]
      rw [AcksDiffer] at hdiffer
      rw [if_pos hdiffer]
      rfl
    · refine Or.inr ⟨hdiffer, ?_⟩
      rw [AcksDiffer] at hdiffer
      simp only [superseded] at happended ⊢
      rw [coalesce, hself]
      simp only [happended, hcounts, hdiffer, hrejections]
      rfl

end RuntimeReport

theorem RuntimeReport.validate_wheelOrdered {report : RuntimeReport}
    (h : report.validate = .ok ()) : WheelOrdered report.wheelAcknowledgements := by
  rw [validate] at h
  cases hwheel : validateWheel report.wheelAcknowledgements with
  | error error =>
    rw [hwheel] at h
    split_ifs at h
  | ok _ => exact (validateWheel_iff _).mp hwheel

private theorem or_flags (a b c : Bool) : (a || (c || b)) = (a || b || c) := by
  cases a <;> cases b <;> cases c <;> rfl

/-! ## Runtime updates -/

namespace RendererRuntimeUpdate

variable {Content : Type}

def superseded (self next : RendererRuntimeUpdate) : RendererRuntimeUpdate :=
  { self with runtime := self.runtime.superseded next.runtime }

private theorem mergeIsBounded_runtime {self next : RendererRuntimeUpdate}
    (h : mergeIsBounded self next = true) :
    (self.runtime.mergedRuntimeBytes next.runtime).isSome := by
  rw [mergeIsBounded] at h
  split_ifs at h
  cases hruntime : self.runtime.mergedRuntimeBytes next.runtime with
  | none => rw [hruntime] at h; cases h
  | some bytes => rfl

/-- What coalescing two runtime updates of one document comes to. -/
theorem coalesce_cases {self next : RendererRuntimeUpdate}
    (hdocument : self.document = next.document)
    (hqueued : RuntimeReport.Queued self.runtime next.runtime) :
    (mergeIsBounded self next = false ∧ self.coalesce next = .ok (self, some next)) ∨
    (mergeIsBounded self next = true ∧ RuntimeReport.AcksDiffer self.runtime next.runtime ∧
      self.coalesce next = .error (.InvalidPayload "coalesced history acknowledgements")) ∨
    (mergeIsBounded self next = true ∧ ¬ RuntimeReport.AcksDiffer self.runtime next.runtime ∧
      ∃ merged, self.coalesce next = .ok (merged, none) ∧
        ∀ state : BrowserState Content, RuntimeReport.DeltaFits self.runtime next.runtime →
          state.update merged = (state.update (self.superseded next)).update next) := by
  cases hbounded : mergeIsBounded self next with
  | false =>
    refine Or.inl ⟨rfl, ?_⟩
    simp only [coalesce, hdocument, hbounded, ne_eq, not_true_eq_false, if_false,
      Bool.false_eq_true, not_false_eq_true, if_true]
    rfl
  | true =>
    have hsize := mergeIsBounded_runtime hbounded
    rcases RuntimeReport.coalesce_cases hqueued hsize with
      ⟨hdiffer, herror⟩ | ⟨hsame, hok⟩
    · refine Or.inr (Or.inl ⟨rfl, hdiffer, ?_⟩)
      simp only [coalesce, hdocument, hbounded, herror, ne_eq, not_true_eq_false, if_false]
      rfl
    · refine Or.inr (Or.inr ⟨rfl, hsame, ?_⟩)
      refine ⟨{ next with
        clockAdvanced := next.clockAdvanced || self.clockAdvanced
        runtime := self.runtime.mergeFields next.runtime
          ((self.runtime.superseded next.runtime).wheelAcknowledgements ++
            next.runtime.wheelAcknowledgements)
        load := self.load.coalesce next.load }, ?_, ?_⟩
      · simp only [coalesce, hdocument, hbounded, hok, ne_eq, not_true_eq_false, if_false]
        rfl
      · intro state hfits
        simp only [BrowserState.update, superseded, RuntimeReport.report_mergeFields _ hfits,
          LoadState.report_coalesce, or_flags]

end RendererRuntimeUpdate

/-! ## Presentations -/

namespace RendererPresentation

variable {Content : Type}

def superseded (self next : RendererPresentation Content) : RendererPresentation Content :=
  { self with runtime := self.runtime.superseded next.runtime }

/-- A state to which both presentations can be delivered in turn: its tree takes their
accessibility updates, and the glyph epoch does not come back to one left before. -/
structure Deliverable (state : BrowserState Content) (earlier later : RendererPresentation Content) :
    Prop where
  accessibility : state.tree.Replayable [earlier.accessibility, later.accessibility]
  epoch : earlier.glyphEpoch = later.glyphEpoch ∨ state.glyphs.epoch ≠ later.glyphEpoch

private theorem mergeIsBounded_runtime {self next : RendererPresentation Content}
    (h : mergeIsBounded self next = true) :
    (self.runtime.mergedRuntimeBytes next.runtime).isSome := by
  rw [mergeIsBounded] at h
  split_ifs at h
  cases hruntime : self.runtime.mergedRuntimeBytes next.runtime with
  | none => cases hbytes : mergedBytes self next <;> simp [hruntime, hbytes] at h
  | some bytes => rfl

/-- The merged value, given the merged accessibility update. -/
private def merged (self next : RendererPresentation Content) (accessibility : AccessibilityUpdate) :
    RendererPresentation Content :=
  { mergeResources self next with
    accessibility := accessibility
    clockAdvanced := next.clockAdvanced || self.clockAdvanced
    runtime := self.runtime.mergeFields next.runtime
      ((self.runtime.superseded next.runtime).wheelAcknowledgements ++
        next.runtime.wheelAcknowledgements)
    style := self.style.coalesce next.style
    load := self.load.coalesce next.load }

/-- The merged presentation has the effect of both, one after the other. -/
private theorem present_merged {state : BrowserState Content}
    {self next : RendererPresentation Content} {accessibility : AccessibilityUpdate}
    (hdeliverable : Deliverable state self next)
    (htree : state.tree.apply accessibility =
      (state.tree.apply self.accessibility).apply next.accessibility)
    (hfits : RuntimeReport.DeltaFits self.runtime next.runtime) :
    state.present (merged self next accessibility) =
      (state.present (self.superseded next)).present next := by
  have himages := installImages_merge state.images self next
  have hglyphs := GlyphState.install_merge state.glyphs hdeliverable.epoch
  have hruntime := RuntimeReport.report_mergeFields state.runtime hfits
  simp only [BrowserState.present, merged, superseded, himages, hruntime, htree,
    LoadState.report_coalesce, StyleState.report_coalesce, or_flags]
  rw [← hglyphs]
  rfl

/-- What coalescing two presentations of one document comes to. -/
theorem coalesce_cases {self next : RendererPresentation Content}
    (hdocument : self.document = next.document) (hrevision : self.revision < next.revision)
    (hqueued : RuntimeReport.Queued self.runtime next.runtime)
    (hselfRules : self.accessibility.IdentityRules) (hnextRules : next.accessibility.IdentityRules)
    (hcompose : ∃ tree : ConsumerTree, tree.Replayable [self.accessibility, next.accessibility]) :
    (mergeIsBounded self next = false ∧ self.coalesce next = .ok (self, some next)) ∨
    (mergeIsBounded self next = true ∧ RuntimeReport.AcksDiffer self.runtime next.runtime ∧
      self.coalesce next = .error (.InvalidPayload "coalesced history acknowledgements")) ∨
    (mergeIsBounded self next = true ∧ ¬ RuntimeReport.AcksDiffer self.runtime next.runtime ∧
      ∃ merged, self.coalesce next = .ok (merged, none) ∧
        ∀ state : BrowserState Content, Deliverable state self next →
          RuntimeReport.DeltaFits self.runtime next.runtime →
          state.present merged = (state.present (self.superseded next)).present next) := by
  have hnewer : ¬ next.revision ≤ self.revision := by omega
  cases hbounded : mergeIsBounded self next with
  | false =>
    refine Or.inl ⟨rfl, ?_⟩
    simp only [coalesce, hdocument, hnewer, hbounded, ne_eq, not_true_eq_false, if_false,
      Bool.false_eq_true, not_false_eq_true, if_true]
    rfl
  | true =>
    obtain ⟨tree, hself, hnext, -⟩ := hcompose
    obtain ⟨accessibility, haccessibility, -, -, -⟩ :=
      AccessibilityUpdate.coalesce_ok hselfRules hself hnextRules hnext
    have hsize := mergeIsBounded_runtime hbounded
    rcases RuntimeReport.coalesce_cases hqueued hsize with
      ⟨hdiffer, herror⟩ | ⟨hsame, hok⟩
    · refine Or.inr (Or.inl ⟨rfl, hdiffer, ?_⟩)
      simp only [coalesce, hdocument, hnewer, hbounded, haccessibility, herror, ne_eq,
        not_true_eq_false, if_false]
      rfl
    · refine Or.inr (Or.inr ⟨rfl, hsame, ?_⟩)
      refine ⟨merged self next accessibility, ?_, ?_⟩
      · simp only [coalesce, hdocument, hnewer, hbounded, haccessibility, hok, ne_eq,
          not_true_eq_false, if_false]
        rfl
      · intro state hdeliverable hfits
        obtain ⟨hselfState, hnextState, -⟩ := hdeliverable.accessibility
        obtain ⟨other, hother, -, -, htree⟩ :=
          AccessibilityUpdate.coalesce_ok hselfRules hselfState hnextRules hnextState
        have heq : accessibility = other := Except.ok.inj (haccessibility.symm.trans hother)
        rw [← heq] at htree
        exact present_merged hdeliverable htree hfits

private theorem validate_parts {value : RendererPresentation Content}
    (h : value.validate = .ok ()) :
    WheelOrdered value.runtime.wheelAcknowledgements ∧ value.accessibility.IdentityRules := by
  cases hruntime : value.runtime.validate with
  | error error =>
    simp only [validate, hruntime] at h
    split_ifs at h <;> cases h
  | ok _ =>
    cases haccessibility : value.accessibility.validateUpdate with
    | error error =>
      simp only [validate, hruntime, haccessibility] at h
      split_ifs at h <;> cases h
    | ok _ =>
      exact ⟨RuntimeReport.validate_wheelOrdered hruntime,
        AccessibilityUpdate.validateUpdate_identityRules haccessibility⟩

/-- Coalescing refuses two different history acknowledgements. Otherwise it hands back both
reports or one whose effect is theirs in order, the wheel distances that an absolute scroll
supersedes left out. -/
theorem coalesce_in_order :
    (∀ self next : RendererPresentation Content,
      self.validate = .ok () → next.validate = .ok () →
      self.document = next.document → self.revision < next.revision →
      (∀ a ∈ self.runtime.wheelAcknowledgements, ∀ b ∈ next.runtime.wheelAcknowledgements,
        a.sequence < b.sequence) →
      (∃ tree : ConsumerTree, tree.Replayable [self.accessibility, next.accessibility]) →
        (RuntimeReport.AcksDiffer self.runtime next.runtime →
          self.coalesce next = if mergeIsBounded self next then
            .error (.InvalidPayload "coalesced history acknowledgements")
          else .ok (self, some next)) ∧
        (¬ RuntimeReport.AcksDiffer self.runtime next.runtime →
          self.coalesce next = .ok (self, some next) ∨
            ∃ merged, self.coalesce next = .ok (merged, none) ∧
              ∀ state : BrowserState Content, Deliverable state self next →
                RuntimeReport.DeltaFits self.runtime next.runtime →
                state.present merged = (state.present (self.superseded next)).present next)) ∧
    (∀ self next : RendererRuntimeUpdate,
      self.runtime.validate = .ok () → next.runtime.validate = .ok () →
      self.document = next.document →
      (∀ a ∈ self.runtime.wheelAcknowledgements, ∀ b ∈ next.runtime.wheelAcknowledgements,
        a.sequence < b.sequence) →
        (RuntimeReport.AcksDiffer self.runtime next.runtime →
          self.coalesce next = if RendererRuntimeUpdate.mergeIsBounded self next then
            .error (.InvalidPayload "coalesced history acknowledgements")
          else .ok (self, some next)) ∧
        (¬ RuntimeReport.AcksDiffer self.runtime next.runtime →
          self.coalesce next = .ok (self, some next) ∨
            ∃ merged, self.coalesce next = .ok (merged, none) ∧
              ∀ state : BrowserState Content,
                RuntimeReport.DeltaFits self.runtime next.runtime →
                state.update merged = (state.update (self.superseded next)).update next)) := by
  refine ⟨?_, ?_⟩
  · intro self next hself hnext hdocument hrevision hbelow hcompose
    obtain ⟨hselfWheel, hselfRules⟩ := validate_parts hself
    obtain ⟨hnextWheel, hnextRules⟩ := validate_parts hnext
    rcases coalesce_cases hdocument hrevision ⟨hselfWheel, hnextWheel, hbelow⟩ hselfRules
      hnextRules hcompose with ⟨hbounded, hok⟩ | ⟨hbounded, hdiffer, herror⟩ | ⟨_, hsame, hmerged⟩
    · exact ⟨fun _ => by rw [hok, hbounded]; rfl, fun _ => Or.inl hok⟩
    · exact ⟨fun _ => by rw [herror, hbounded]; rfl, fun hsame => absurd hdiffer hsame⟩
    · exact ⟨fun hdiffer => absurd hdiffer hsame, fun _ => Or.inr hmerged⟩
  · intro self next hself hnext hdocument hbelow
    have hqueued : RuntimeReport.Queued self.runtime next.runtime :=
      ⟨RuntimeReport.validate_wheelOrdered hself, RuntimeReport.validate_wheelOrdered hnext, hbelow⟩
    rcases RendererRuntimeUpdate.coalesce_cases hdocument hqueued with
      ⟨hbounded, hok⟩ | ⟨hbounded, hdiffer, herror⟩ | ⟨_, hsame, hmerged⟩
    · exact ⟨fun _ => by rw [hok, hbounded]; rfl, fun _ => Or.inl hok⟩
    · exact ⟨fun _ => by rw [herror, hbounded]; rfl, fun hsame => absurd hdiffer hsame⟩
    · exact ⟨fun hdiffer => absurd hdiffer hsame, fun _ => Or.inr hmerged⟩

/-! Queued reports of one document whose merge is not the plain sequence. -/

private def sampleReport : RuntimeReport where
  scriptsExecuted := 1
  domMutations := 0
  errors := []
  console := ["log".toList]
  diagnostics := []
  navigationUrl := none
  navigationOptions := ⟨[], none, false, false, false, false⟩
  viewportScrollY := none
  viewportWheelDeltaY := 0
  wheelAcknowledgements := []
  wheelHasBlockingListeners := none
  wheelHasNestedScroll := none
  historyActions := []
  historyTraversalAck := none
  nativeTextRejection := none
  cookieUpdates := []
  runtimeActive := true
  runtimeStopped := false
  renderRequested := false
  media := none

private def sampleLoad : PageLoadReport :=
  ⟨0, 0, 0, 0, 0, 0, 0, 0, 0, 0, 0, 0, 0, 0, 0, 0, 0, 0, ⟨0, 0, 0, 0, 0, 0, 0, 0, 0, 0, 0, 0, 0⟩⟩

private def sampleUpdate (report : RuntimeReport) : RendererRuntimeUpdate :=
  ⟨1, false, report, sampleLoad, none⟩

private def sampleRoot : DocumentNodeId := ⟨2 ^ 64 + 1, by omega, by omega, by omega⟩

private def sampleTree : AccessibilityUpdate where
  full := true
  root := sampleRoot
  focus := sampleRoot
  nodes := [{
    id := sampleRoot, role := .RootWebArea, name := [], value := [], description := [],
    bounds := ⟨.Finite 0, .Finite 0, .Finite 10, .Finite 10⟩, children := [], level := none,
    disabled := false, readOnly := false, actions := ⟨false, false, false⟩, selection := none,
    checked := none }]
  added := []
  removed := []

private def samplePresentation (revision glyphEpoch : Nat) : RendererPresentation Unit where
  document := 1
  revision := revision
  clockAdvanced := false
  title := []
  finalUrl := []
  status := 200
  characterSet := []
  content := ()
  images := []
  retiredImageKeys := []
  glyphEpoch := glyphEpoch
  glyphs := []
  runtime := sampleReport
  style := ⟨0, 0, 0, 0, 0, false, false, ⟨0, 0, 0, 0, 0⟩⟩
  load := sampleLoad
  accessibility := sampleTree
  nextTimerMicros := none

private def sampleState : BrowserState Unit where
  images := OrdMap.empty
  glyphs := ⟨2, OrdMap.empty.insert 7 ⟨7, ⟨1, 1, [0, 0, 0, 255]⟩, false⟩⟩
  runtime := ⟨[0, 0], [], [], [], [], [], [], 0, none, none, none, none, none, false, false, false, none⟩
  style := ⟨List.replicate 10 0, false, false⟩
  load := ⟨List.replicate 30 0, 0⟩
  clockAdvanced := false
  tree := ⟨OrdMap.empty, sampleRoot, sampleRoot⟩
  nextTimerMicros := none
  snapshot := none

theorem coalesce_in_order_sample :
    ∃ merged, (samplePresentation 1 1).coalesce (samplePresentation 2 1) = .ok (merged, none) ∧
      sampleState.present merged =
        (sampleState.present ((samplePresentation 1 1).superseded (samplePresentation 2 1))).present
          (samplePresentation 2 1) := by
  have hacks : ¬ RuntimeReport.AcksDiffer sampleReport sampleReport := fun h => h.2.2 rfl
  have hreplay : ∀ tree : ConsumerTree, tree.Replayable [sampleTree, sampleTree] :=
    fun tree => ⟨Or.inl rfl, Or.inl rfl, trivial⟩
  have hfits : RuntimeReport.DeltaFits sampleReport sampleReport := by
    intro _
    decide +kernel
  have hsplit : (samplePresentation 1 1).coalesce (samplePresentation 2 1) ≠
      .ok (samplePresentation 1 1, some (samplePresentation 2 1)) := by
    decide +kernel
  rcases (coalesce_in_order.1 (samplePresentation 1 1) (samplePresentation 2 1) (by decide)
    (by decide) rfl (by decide) (by decide) ⟨sampleState.tree, hreplay _⟩).2 hacks with
    heq | ⟨merged, hok, heffect⟩
  · exact absurd heq hsplit
  · exact ⟨merged, hok, heffect sampleState ⟨hreplay _, Or.inl rfl⟩ hfits⟩

private def sampleWheel (sequence : Nat) (delta : ℚ) : RuntimeReport :=
  { sampleReport with
    viewportWheelDeltaY := delta
    wheelAcknowledgements := [⟨sequence, .Viewport, delta, 0⟩] }

private def sampleAck (sequence : Nat) : RuntimeReport :=
  { sampleReport with historyTraversalAck := some sequence }

private def sampleScroll : RuntimeReport := { sampleReport with viewportScrollY := some 0 }

private theorem sample_valid :
    (∀ report ∈ [sampleAck 1, sampleAck 2, sampleScroll, sampleWheel 1 10, sampleWheel 1 F32_MAX,
      sampleWheel 2 F32_MAX], report.validate = .ok ()) ∧
    (samplePresentation 1 1).validate = .ok () ∧ (samplePresentation 2 2).validate = .ok () := by
  decide +kernel

/-- Valid reports. Two acknowledgements are refused; a glyph epoch that comes back, a
superseded distance and a clamped sum each tell the merged report from the two it stands
for. -/
theorem coalesce_differs :
    ((∀ report ∈ [sampleAck 1, sampleAck 2, sampleScroll, sampleWheel 1 10, sampleWheel 1 F32_MAX,
        sampleWheel 2 F32_MAX], report.validate = .ok ()) ∧
      (samplePresentation 1 1).validate = .ok () ∧ (samplePresentation 2 2).validate = .ok ()) ∧
    ((sampleUpdate (sampleAck 1)).coalesce (sampleUpdate (sampleAck 2)) =
      .error (.InvalidPayload "coalesced history acknowledgements")) ∧
    (∃ merged, (samplePresentation 1 1).coalesce (samplePresentation 2 2) = .ok (merged, none) ∧
      (sampleState.present merged).glyphs.rasters.contains 7 = true ∧
      ((sampleState.present (samplePresentation 1 1)).present
        (samplePresentation 2 2)).glyphs.rasters.contains 7 = false) ∧
    (∃ merged, (sampleUpdate (sampleWheel 1 10)).coalesce (sampleUpdate sampleScroll) =
        .ok (merged, none) ∧
      (sampleState.update merged).runtime.wheelAcknowledgements ≠
        ((sampleState.update (sampleUpdate (sampleWheel 1 10))).update
          (sampleUpdate sampleScroll)).runtime.wheelAcknowledgements) ∧
    ∃ merged, (sampleUpdate (sampleWheel 1 F32_MAX)).coalesce
        (sampleUpdate (sampleWheel 2 F32_MAX)) = .ok (merged, none) ∧
      (sampleState.update merged).runtime.viewportY ≠
        ((sampleState.update (sampleUpdate (sampleWheel 1 F32_MAX))).update
          (sampleUpdate (sampleWheel 2 F32_MAX))).runtime.viewportY := by
  refine ⟨sample_valid, by decide, ?_, ?_, ?_⟩
  · exact ⟨merged (samplePresentation 1 1) (samplePresentation 2 2) sampleTree, by decide +kernel,
      by decide, by decide⟩
  · exact ⟨sampleUpdate { sampleScroll with
      scriptsExecuted := 2
      console := ["log".toList, "log".toList]
      wheelAcknowledgements := [⟨1, .Viewport, 0, 0⟩] }, by decide +kernel, by decide +kernel⟩
  · exact ⟨sampleUpdate { sampleReport with
      scriptsExecuted := 2
      console := ["log".toList, "log".toList]
      viewportWheelDeltaY := F32_MAX
      wheelAcknowledgements := [⟨1, .Viewport, F32_MAX, 0⟩, ⟨2, .Viewport, F32_MAX, 0⟩] },
      by decide +kernel, by decide +kernel⟩

end RendererPresentation

end BetterWebBrowser.RendererProtocol
