import BetterWebBrowser.RendererProtocol.RuntimeSize
import Mathlib.Tactic.Positivity

/-!
# Read reports as the browser merges them

Past the decoder a report is merged with the reports before it. There its numbers count as
natural numbers and its single-precision numbers as the rationals they stand for, and the checks
of the decoder have become checks of those.
-/

namespace BetterWebBrowser.RendererProtocol

open Framework

/-- The number that finite bits stand for. -/
def Single.value (number : Single) : ℚ :=
  let sign : ℚ := if number.toBits.toNat < 2 ^ 31 then 1 else -1
  let exponent := number.toBits.toNat / 2 ^ 23 % 256
  let mantissa : ℚ := (number.toBits.toNat % 2 ^ 23 : Nat)
  if exponent = 0 then sign * (mantissa / 2 ^ 149)
  else sign * ((2 ^ 23 + mantissa) * 2 ^ exponent / 2 ^ 150)

theorem Single.value_of_not_neZero {number : Single} (h : number.neZero = false) :
    number.value = 0 := by
  have hbits : number.toBits.toNat % 2 ^ 31 = 0 := by simpa [Single.neZero] using h
  have hexponent : number.toBits.toNat / 2 ^ 23 % 256 = 0 := by omega
  have hmantissa : number.toBits.toNat % 2 ^ 23 = 0 := by omega
  simp only [Single.value, hexponent, if_true, hmantissa, Nat.cast_zero, zero_div, mul_zero]

theorem Single.value_nonneg {number : Single} (hfinite : number.isFinite = true)
    (h : number.ltZero = false) : 0 ≤ number.value := by
  have hbits : number.toBits.toNat < 2 ^ 32 := number.toBits.toNat_lt
  simp only [Single.isFinite, decide_eq_true_eq] at hfinite
  simp only [Single.ltZero, decide_eq_false_iff_not] at h
  by_cases hsign : number.toBits.toNat < 2 ^ 31
  · simp only [Single.value, hsign, if_true, one_mul]
    split <;> positivity
  · have hzero : number.neZero = false := by
      simp only [Single.neZero, decide_eq_false_iff_not]
      omega
    exact (Single.value_of_not_neZero hzero).ge

namespace RuntimeCodec

def WheelAcknowledgement.exact (value : WheelAcknowledgement) :
    RendererProtocol.WheelAcknowledgement where
  sequence := value.sequence.toNat
  decision := value.decision
  viewportDeltaY := value.viewportDeltaY.value
  dispatchMicros := value.dispatchMicros.toNat

def HistoryAction.exact : HistoryAction → RendererProtocol.HistoryAction
  | .Update url replace state scrollY => .Update url replace state scrollY.value
  | .Traverse delta => .Traverse delta.toInt
  | .SetScrollRestoration mode => .SetScrollRestoration mode

def NativeTextRejection.exact (rejection : NativeTextRejection) :
    RendererProtocol.NativeTextRejection where
  sequence := rejection.sequence.toNat
  generation := rejection.generation.toNat
  target := rejection.target
  value := rejection.value
  selectionStart := rejection.selectionStart.toNat
  selectionEnd := rejection.selectionEnd.toNat

def MediaRuntimeReport.exact (report : MediaRuntimeReport) : RendererProtocol.MediaRuntimeReport where
  active := report.active
  playing := report.playing
  ended := report.ended
  currentTime100ns := report.currentTime100ns.toNat
  duration100ns := report.duration100ns.toNat
  backend := report.backend
  mimeType := report.mimeType
  videoCodec := report.videoCodec
  audioCodec := report.audioCodec
  encodedQueueBytes := report.encodedQueueBytes.toNat
  encodedQueueLimitBytes := report.encodedQueueLimitBytes.toNat
  decodedFrameQueueDepth := report.decodedFrameQueueDepth.toNat
  decodedFrameQueueLimit := report.decodedFrameQueueLimit.toNat
  framesSubmitted := report.framesSubmitted.toNat
  droppedFrames := report.droppedFrames.toNat
  width := report.width.toNat
  height := report.height.toNat
  failure := report.failure

def RuntimeReport.exact (report : RuntimeReport) : RendererProtocol.RuntimeReport where
  scriptsExecuted := report.scriptsExecuted.toNat
  domMutations := report.domMutations.toNat
  errors := report.errors
  console := report.console
  diagnostics := report.diagnostics
  navigationUrl := report.navigationUrl
  navigationOptions := report.navigationOptions
  viewportScrollY := report.viewportScrollY.map Single.value
  viewportWheelDeltaY := report.viewportWheelDeltaY.value
  wheelAcknowledgements := report.wheelAcknowledgements.map WheelAcknowledgement.exact
  wheelHasBlockingListeners := report.wheelHasBlockingListeners
  wheelHasNestedScroll := report.wheelHasNestedScroll
  historyActions := report.historyActions.map HistoryAction.exact
  historyTraversalAck := report.historyTraversalAck.map UInt64.toNat
  nativeTextRejection := report.nativeTextRejection.map NativeTextRejection.exact
  cookieUpdates := report.cookieUpdates
  runtimeActive := report.runtimeActive
  runtimeStopped := report.runtimeStopped
  renderRequested := report.renderRequested
  media := report.media.map MediaRuntimeReport.exact

private theorem sequencesIncrease_exact (values : List WheelAcknowledgement)
    (h : (values.zip values.tail).any (fun pair => pair.2.sequence ≤ pair.1.sequence) = false) :
    sequencesIncrease (values.map WheelAcknowledgement.exact) = true := by
  induction values with
  | nil => rfl
  | cons first values ih =>
    cases values with
    | nil => rfl
    | cons second values =>
      simp only [List.tail_cons, List.zip_cons_cons, List.any_cons, Bool.or_eq_false_iff,
        decide_eq_false_iff_not, UInt64.not_le] at h
      have hrest := ih h.2
      rw [List.map_cons, List.map_cons, sequencesIncrease, Bool.and_eq_true, decide_eq_true_eq]
      exact ⟨UInt64.lt_iff_toNat_lt.mp h.1, hrest⟩

theorem validateWheel_exact {values : List WheelAcknowledgement}
    (h : validateWheel values = .ok ()) :
    RendererProtocol.validateWheel (values.map WheelAcknowledgement.exact) = .ok () := by
  rw [validateWheel, failIf] at h
  split at h
  next => cases h
  next hpassed =>
    obtain ⟨hlength, hpassed⟩ := not_or.mp hpassed
    obtain ⟨hfirst, hpassed⟩ := not_or.mp hpassed
    obtain ⟨hsorted, hvalues⟩ := not_or.mp hpassed
    have hhead : (values.map WheelAcknowledgement.exact).head?.any
        (fun value => decide (value.sequence = 0)) = false := by
      rw [List.head?_map]
      cases values with
      | nil => rfl
      | cons first values =>
        simp only [List.head?_cons, Option.any_some, decide_eq_true_eq] at hfirst
        simp only [List.head?_cons, Option.map_some, Option.any_some, decide_eq_false_iff_not]
        intro hzero
        exact hfirst (UInt64.toNat_inj.mp hzero)
    have hdeltas : (values.map WheelAcknowledgement.exact).any
        (fun value => decide (value.decision ≠ .Viewport ∧ value.viewportDeltaY ≠ 0)) = false := by
      rw [List.any_map, List.any_eq_false]
      intro value hmem hwrong
      simp only [Function.comp_apply, decide_eq_true_eq] at hwrong
      refine hvalues (List.any_eq_true.mpr ⟨value, hmem, ?_⟩)
      have hne : value.viewportDeltaY.neZero = true := by
        by_contra hzero
        exact hwrong.2 (Single.value_of_not_neZero (Bool.eq_false_iff.mpr hzero))
      have hdecision : value.decision ≠ .Viewport := hwrong.1
      simp [hne, hdecision]
    have hincrease := sequencesIncrease_exact values (Bool.eq_false_iff.mpr hsorted)
    rw [RendererProtocol.validateWheel, List.length_map, hhead, hincrease, hdeltas]
    simp [hlength]

/-- What the decoder returns passes the checks that the merge relies on. -/
theorem validate_of_decodeRuntime {input rest : List UInt8} {report : RuntimeReport}
    (h : decodeRuntime input = .ok (report, rest)) : report.exact.validate = .ok () := by
  have hbounded : Bounded report := ((decodeRuntime_inverts input report rest).mp h).1.1
  have hscroll : (report.viewportScrollY.map Single.value).any (fun y => decide (y < 0)) = false := by
    have hchecked := hbounded.scroll
    cases hy : report.viewportScrollY with
    | none => rfl
    | some y =>
      rw [hy] at hchecked
      simp only [Option.any_some, Bool.or_eq_true, Bool.not_eq_true', not_or,
        Bool.not_eq_false, Bool.not_eq_true] at hchecked
      simp only [Option.map_some, Option.any_some, decide_eq_false_iff_not, not_lt]
      exact Single.value_nonneg hchecked.1 hchecked.2
  have hack : report.historyTraversalAck.map UInt64.toNat ≠ some 0 := by
    intro hzero
    obtain ⟨sequence, hsequence, hvalue⟩ := Option.map_eq_some_iff.mp hzero
    exact hbounded.ack (hsequence.trans (congrArg some (UInt64.toNat_inj.mp hvalue)))
  rw [RendererProtocol.RuntimeReport.validate]
  simp only [RuntimeReport.exact, hscroll, Bool.false_eq_true, if_false,
    validateWheel_exact hbounded.wheel, hack]

end RuntimeCodec

end BetterWebBrowser.RendererProtocol
