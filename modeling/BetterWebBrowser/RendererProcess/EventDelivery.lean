import BetterWebBrowser.Framework.Delivery
import BetterWebBrowser.RendererProcess.EventQueue

/-!
# Delivery of the renderer's events

Runs of the sender and the receiver of the event queue in any order. Each run of the queue is
a run of a line that merges neighbours of one document, drops what a newer event replaces or
what belongs to a discarded document, and otherwise delivers every call once and in order.
-/

namespace BetterWebBrowser.RendererProcess

open Framework RendererProtocol RendererEvent

variable {Content Detail : Type}

/-! ## Which events replace and follow each other -/

/-- Both are reports of one kind and one document. -/
def Continues : RendererEvent Content Detail → RendererEvent Content Detail → Prop
  | .Presentation previous, .Presentation next => previous.document = next.document
  | .RuntimeUpdate previous, .RuntimeUpdate next => previous.document = next.document
  | _, _ => False

/-- The two reports merge into a third one. -/
def Joins : RendererEvent Content Detail → RendererEvent Content Detail →
    RendererEvent Content Detail → Prop
  | .Presentation previous, .Presentation next, .Presentation merged =>
    previous.document = next.document ∧ previous.coalesce next = .ok (merged, none)
  | .RuntimeUpdate previous, .RuntimeUpdate next, .RuntimeUpdate merged =>
    previous.document = next.document ∧ previous.coalesce next = .ok (merged, none)
  | _, _, _ => False

/-- The first event is of the same document, and target, and at least as new. -/
def AtLeastAsNew : RendererEvent Content Detail → RendererEvent Content Detail → Prop
  | .PointerCursor newer, .PointerCursor older =>
    newer.document = older.document ∧ older.sequence ≤ newer.sequence
  | .TextSelectionUpdate newer, .TextSelectionUpdate older =>
    newer.document = older.document ∧ newer.target = older.target ∧
      older.observedInputSequence ≤ newer.observedInputSequence
  | _, _ => False

/-- A later frame replaces any frame of the session. -/
def Overtakes (newer older : RendererEvent Content Detail) : Prop :=
  AtLeastAsNew newer older ∨ newer.isVideoFrame = true ∧ older.isVideoFrame = true

/-- What a coalesced send takes out of the queue for its event. -/
def replaces : RendererEvent Content Detail → RendererEvent Content Detail → Bool
  | .VideoFrame _, .VideoFrame _ => true
  | .PointerCursor next, .PointerCursor previous => decide (previous.document = next.document)
  | .TextSelectionUpdate next, .TextSelectionUpdate previous =>
    decide (previous.document = next.document ∧ previous.target = next.target)
  | _, _ => false

/-! ## The part of a send before its loop -/

private theorem coalesceLast_cases {A : Type} {view : RendererEvent Content Detail → Option A}
    {make : A → RendererEvent Content Detail} {document : A → Nat}
    {merge : A → A → ProtocolResult (A × Option A)} {events left : List (RendererEvent Content Detail)}
    {next : A} {result : ProtocolResult A}
    (hview : ∀ event value, view event = some value → event = make value)
    (hsplit : ∀ first second previous, merge previous next = .ok (first, some second) →
      first = previous ∧ second = next)
    (h : coalesceLast view make document merge events next = (left, result)) :
    left = events ∧ result = .ok next ∨
      ∃ front previous, events = front ++ [make previous] ∧ left = front ∧
        document previous = document next ∧
        ((∃ merged, result = .ok merged ∧ merge previous next = .ok (merged, none)) ∨
          ∃ error, result = .error error) := by
  rw [coalesceLast] at h
  cases hlast : events.getLast?.bind view with
  | none =>
    rw [hlast] at h
    cases h
    exact .inl ⟨rfl, rfl⟩
  | some previous =>
    obtain ⟨last, hlast', hprevious⟩ := Option.bind_eq_some_iff.mp hlast
    obtain rfl := hview last previous hprevious
    have hevents : events = events.dropLast ++ [make previous] :=
      (List.dropLast_append_getLast? _ hlast').symm
    simp only [hlast] at h
    by_cases hdocument : document previous = document next
    · rw [if_pos hdocument] at h
      cases hmerge : merge previous next with
      | error error =>
        rw [hmerge] at h
        cases h
        exact .inr ⟨_, previous, hevents, rfl, hdocument, .inr ⟨error, rfl⟩⟩
      | ok pair =>
        obtain ⟨first, second⟩ := pair
        cases second with
        | none =>
          rw [hmerge] at h
          cases h
          exact .inr ⟨_, previous, hevents, rfl, hdocument, .inl ⟨first, rfl, hmerge⟩⟩
        | some second =>
          obtain ⟨rfl, rfl⟩ := hsplit first second previous hmerge
          rw [hmerge] at h
          cases h
          exact .inl ⟨hevents.symm, rfl⟩
    · rw [if_neg hdocument] at h
      cases h
      exact .inl ⟨rfl, rfl⟩

/-- What the part before the loop comes to. -/
inductive Preparation (events : List (RendererEvent Content Detail))
    (event : RendererEvent Content Detail) :
    List (RendererEvent Content Detail) → Prepared Content Detail → Prop
  | superseded (h : ∃ newer ∈ events, AtLeastAsNew newer event) :
    Preparation events event events .Superseded
  | joined (front : List (RendererEvent Content Detail)) (last merged : RendererEvent Content Detail)
    (hevents : events = front ++ [last]) (h : Joins last event merged) :
    Preparation events event front (.Ready merged)
  | refused (front : List (RendererEvent Content Detail)) (last : RendererEvent Content Detail)
    (error : ProtocolError) (hevents : events = front ++ [last]) (h : Continues last event) :
    Preparation events event front (.Refused error)
  | ready (h : ∀ queued ∈ events, replaces event queued = true → Overtakes event queued) :
    Preparation events event (events.filter fun queued => !replaces event queued) (.Ready event)

private theorem Preparation.plain {events : List (RendererEvent Content Detail)}
    {event : RendererEvent Content Detail} (h : ∀ queued, replaces event queued = false) :
    Preparation events event events (.Ready event) := by
  have hfilter : (events.filter fun queued => !replaces event queued) = events := by
    rw [List.filter_eq_self]
    intro queued _
    rw [h queued]
    rfl
  have hreplaces (queued : RendererEvent Content Detail) (_ : queued ∈ events)
      (hreplaces : replaces event queued = true) : Overtakes event queued := by
    rw [h queued] at hreplaces
    cases hreplaces
  have hready := Preparation.ready hreplaces
  rwa [hfilter] at hready

private theorem prepare_videoFrame (events : List (RendererEvent Content Detail))
    (next : VideoFrameUpdate) :
    Preparation events (.VideoFrame next) (events.filter fun queued => !queued.isVideoFrame)
      (.Ready (.VideoFrame next)) := by
  have hfilter : (fun queued : RendererEvent Content Detail => !queued.isVideoFrame) =
      fun queued => !replaces (.VideoFrame next) queued := by
    funext queued
    cases queued <;> rfl
  rw [hfilter]
  refine .ready fun queued _ hreplaces => .inr ⟨rfl, ?_⟩
  cases queued with
  | VideoFrame update => rfl
  | _ => cases hreplaces

private theorem prepare_presentation {events left : List (RendererEvent Content Detail)}
    {next : RendererPresentation Content} {result : ProtocolResult (RendererPresentation Content)}
    (h : coalesce events next = (left, result)) :
    Preparation events (.Presentation next) left
      (match result with
        | .ok value => .Ready (.Presentation value)
        | .error error => .Refused error) := by
  have hview : ∀ (event : RendererEvent Content Detail) value, asPresentation event = some value →
      event = .Presentation value := by
    intro event value hvalue
    cases event with
    | Presentation found =>
      cases hvalue
      rfl
    | _ => cases hvalue
  obtain ⟨rfl, rfl⟩ | ⟨front, previous, rfl, rfl, hdocument, hresult⟩ :=
    coalesceLast_cases hview (fun _ _ _ => RendererPresentation.coalesce_split) h
  · exact .plain fun _ => rfl
  · obtain ⟨merged, rfl, hmerge⟩ | ⟨error, rfl⟩ := hresult
    · exact .joined _ (.Presentation previous) (.Presentation merged) rfl ⟨hdocument, hmerge⟩
    · exact .refused _ (.Presentation previous) error rfl hdocument

private theorem prepare_runtimeUpdate {events left : List (RendererEvent Content Detail)}
    {next : RendererRuntimeUpdate} {result : ProtocolResult RendererRuntimeUpdate}
    (h : coalesceRuntime events next = (left, result)) :
    Preparation events (.RuntimeUpdate next) left
      (match result with
        | .ok value => .Ready (.RuntimeUpdate value)
        | .error error => .Refused error) := by
  have hview : ∀ (event : RendererEvent Content Detail) value, asRuntimeUpdate event = some value →
      event = .RuntimeUpdate value := by
    intro event value hvalue
    cases event with
    | RuntimeUpdate found =>
      cases hvalue
      rfl
    | _ => cases hvalue
  obtain ⟨rfl, rfl⟩ | ⟨front, previous, rfl, rfl, hdocument, hresult⟩ :=
    coalesceLast_cases hview (fun _ _ _ => RendererRuntimeUpdate.coalesce_split) h
  · exact .plain fun _ => rfl
  · obtain ⟨merged, rfl, hmerge⟩ | ⟨error, rfl⟩ := hresult
    · exact .joined _ (.RuntimeUpdate previous) (.RuntimeUpdate merged) rfl ⟨hdocument, hmerge⟩
    · exact .refused _ (.RuntimeUpdate previous) error rfl hdocument

private theorem prepare_pointerCursor {events left : List (RendererEvent Content Detail)}
    {next : PointerCursorResult Detail} {outcome : Prepared Content Detail}
    (h : prepare events (.PointerCursor next) = (left, outcome)) :
    Preparation events (.PointerCursor next) left outcome := by
  simp only [prepare] at h
  split at h
  next hany =>
    cases h
    obtain ⟨newer, hmem, hnewer⟩ := List.any_eq_true.mp hany
    refine .superseded ⟨newer, hmem, ?_⟩
    cases newer with
    | PointerCursor previous =>
      obtain ⟨hdocument, hsequence⟩ := of_decide_eq_true hnewer
      exact ⟨hdocument, hsequence⟩
    | _ => cases hnewer
  next hnone =>
    cases h
    rw [List.filter_congr (q := fun queued => !replaces (.PointerCursor next) queued)]
    rotate_left
    · intro queued _
      cases queued with
      | PointerCursor previous => exact decide_not
      | _ => rfl
    refine .ready fun queued hmem hreplaces => .inl ?_
    cases queued with
    | PointerCursor previous =>
      have hdocument : previous.document = next.document := of_decide_eq_true hreplaces
      refine ⟨hdocument.symm, ?_⟩
      by_contra hlater
      exact hnone (List.any_eq_true.mpr ⟨_, hmem, decide_eq_true ⟨hdocument, (not_le.mp hlater).le⟩⟩)
    | _ => cases hreplaces

private theorem prepare_textSelection {events left : List (RendererEvent Content Detail)}
    {next : TextSelectionUpdate Detail} {outcome : Prepared Content Detail}
    (h : prepare events (.TextSelectionUpdate next) = (left, outcome)) :
    Preparation events (.TextSelectionUpdate next) left outcome := by
  simp only [prepare] at h
  split at h
  next hany =>
    cases h
    obtain ⟨newer, hmem, hnewer⟩ := List.any_eq_true.mp hany
    refine .superseded ⟨newer, hmem, ?_⟩
    cases newer with
    | TextSelectionUpdate previous =>
      obtain ⟨hdocument, htarget, hsequence⟩ := of_decide_eq_true hnewer
      exact ⟨hdocument, htarget, hsequence.le⟩
    | _ => cases hnewer
  next hnone =>
    cases h
    rw [List.filter_congr (q := fun queued => !replaces (.TextSelectionUpdate next) queued)]
    rotate_left
    · intro queued _
      cases queued with
      | TextSelectionUpdate previous => exact decide_not
      | _ => rfl
    refine .ready fun queued hmem hreplaces => .inl ?_
    cases queued with
    | TextSelectionUpdate previous =>
      obtain ⟨hdocument, htarget⟩ : previous.document = next.document ∧
        previous.target = next.target := of_decide_eq_true hreplaces
      refine ⟨hdocument.symm, htarget.symm, ?_⟩
      by_contra hlater
      exact hnone (List.any_eq_true.mpr
        ⟨_, hmem, decide_eq_true ⟨hdocument, htarget, not_le.mp hlater⟩⟩)
    | _ => cases hreplaces

theorem prepare_cases {events left : List (RendererEvent Content Detail)}
    {event : RendererEvent Content Detail} {outcome : Prepared Content Detail}
    (h : prepare events event = (left, outcome)) : Preparation events event left outcome := by
  cases event with
  | VideoFrame next =>
    cases h
    exact prepare_videoFrame events next
  | Presentation next =>
    simp only [prepare] at h
    cases hcoalesce : coalesce events next with
    | mk queue result =>
      have hprepared := prepare_presentation hcoalesce
      rw [hcoalesce] at h
      cases result with
      | ok value =>
        cases h
        exact hprepared
      | error error =>
        cases h
        exact hprepared
  | RuntimeUpdate next =>
    simp only [prepare] at h
    cases hcoalesce : coalesceRuntime events next with
    | mk queue result =>
      have hprepared := prepare_runtimeUpdate hcoalesce
      rw [hcoalesce] at h
      cases result with
      | ok value =>
        cases h
        exact hprepared
      | error error =>
        cases h
        exact hprepared
  | PointerCursor next => exact prepare_pointerCursor h
  | TextSelectionUpdate next => exact prepare_textSelection h
  | _ =>
    cases h
    exact .plain fun _ => rfl

end BetterWebBrowser.RendererProcess
