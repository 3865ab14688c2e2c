import BetterWebBrowser.RendererInput.Coalescing

/-!
# The capacity of the queue

Coalescing never needs room. What is left goes through the capacity check, which counts
every queued input but the reserved releases.
-/

namespace BetterWebBrowser.RendererInput

open DocumentInput

namespace PendingRendererInputs

private theorem isReserved_of_fromInput {input : DocumentInput}
    (h : Keyboard.Admission.fromInput input = none) (keyboard : Keyboard.Reservations) :
    keyboard.isReserved input = false := by
  cases input with
  | Keyboard key => cases h
  | _ => rfl

private theorem fromInput_of_replaceable {input : DocumentInput} (h : input.replaceable) :
    Keyboard.Admission.fromInput input = none := by
  cases input with
  | Keyboard key => cases h
  | _ => rfl

private theorem countP_exchange {p : DocumentInput → Bool} {before after kept : List DocumentInput}
    {older : DocumentInput} (newer : DocumentInput) (holder : p older)
    (hkept : kept.Sublist (before ++ after)) :
    (kept ++ [newer]).countP p ≤ (before ++ older :: after).countP p := by
  have hcount : kept.countP p ≤ (before ++ after).countP p := hkept.countP_le
  have hnewer : [newer].countP p ≤ 1 := List.countP_le_length
  simp only [List.countP_append, List.countP_cons_of_pos holder] at hcount ⊢
  omega

/-- A coalesced input is no key, and takes the place of one that is no key either. -/
private theorem coalesced_count {input : DocumentInput} {inputs out : List DocumentInput}
    {floor : Nat}
    (h : (∃ sequence, mergeWheel input inputs floor = some (sequence, out)) ∨
      addLockedMove input inputs = some out ∨
      replaceBack input inputs = some out ∨ replaceInRun input inputs = some out) :
    Keyboard.Admission.fromInput input = none ∧ ∀ keyboard : Keyboard.Reservations,
      out.countP (fun input => !keyboard.isReserved input) ≤
        inputs.countP (fun input => !keyboard.isReserved input) := by
  rcases h with ⟨sequence, h⟩ | h | h
  · obtain ⟨before, older, after, newer, rfl, rfl, -, -, rfl⟩ := mergeWheel_eq h
    exact ⟨rfl, fun keyboard => countP_exchange _ rfl (compactContinuousTail_sublist _)⟩
  · obtain ⟨front, previous, merged, rfl, rfl, -, -, -, hprevious, -, -⟩ := addLockedMove_eq h
    refine ⟨?_, fun keyboard => ?_⟩
    · rw [addLockedMove.eq_def] at h
      split at h
      · rfl
      · cases h
    · have hcount := @countP_exchange (fun input => !keyboard.isReserved input) front [] front
        previous merged (by simp [isReserved_of_fromInput hprevious]) (by simp)
      exact hcount
  · obtain ⟨before, older, after, rfl, rfl, -, hinput, holder⟩ := replace_eq h
    refine ⟨fromInput_of_replaceable hinput, fun keyboard => ?_⟩
    apply countP_exchange _ _ (List.Sublist.refl _)
    simp [isReserved_of_fromInput (fromInput_of_replaceable holder)]

/-- Either the input is coalesced, or the capacity check decides. -/
theorem enqueue_cases (pending : PendingRendererInputs) (input : DocumentInput) :
    ((pending.enqueue input).1 ≠ .Full ∧ Keyboard.Admission.fromInput input = none ∧
        ∃ out, (pending.enqueue input).2 = { pending with inputs := out } ∧
          ({ pending with inputs := out } : PendingRendererInputs).ordinary ≤ pending.ordinary) ∨
      pending.enqueue input =
        checkCapacity { pending with inputs := dropPassedScroll input pending.inputs } input := by
  have hsublist : (dropPassedScroll input pending.inputs).Sublist pending.inputs := by
    obtain ⟨passed, hinputs, -⟩ := dropPassedScroll_cases input pending.inputs
    conv_rhs => rw [hinputs]
    exact List.sublist_append_left _ _
  have hcoalesced : ∀ out floor,
      ((∃ sequence, mergeWheel input (dropPassedScroll input pending.inputs) floor =
          some (sequence, out)) ∨
        addLockedMove input (dropPassedScroll input pending.inputs) = some out ∨
        replaceBack input (dropPassedScroll input pending.inputs) = some out ∨
        replaceInRun input (dropPassedScroll input pending.inputs) = some out) →
      Keyboard.Admission.fromInput input = none ∧
        ({ pending with inputs := out } : PendingRendererInputs).ordinary ≤ pending.ordinary := by
    intro out floor h
    obtain ⟨hinput, hcount⟩ := coalesced_count h
    exact ⟨hinput, (hcount pending.keyboard).trans hsublist.countP_le⟩
  rw [enqueue]
  cases hmerge : mergeWheel input (dropPassedScroll input pending.inputs)
      pending.wheelCoalescingFloor with
  | some result =>
    obtain ⟨hinput, hcount⟩ := hcoalesced result.2 _ (.inl ⟨result.1, hmerge⟩)
    exact .inl ⟨by simp, hinput, result.2, rfl, hcount⟩
  | none =>
    cases hadd : addLockedMove input (dropPassedScroll input pending.inputs) with
    | some out =>
      obtain ⟨hinput, hcount⟩ := hcoalesced out 0 (.inr (.inl hadd))
      exact .inl ⟨by simp, hinput, out, rfl, hcount⟩
    | none =>
      cases hback : replaceBack input (dropPassedScroll input pending.inputs) with
      | some out =>
        obtain ⟨hinput, hcount⟩ := hcoalesced out 0 (.inr (.inr (.inl hback)))
        exact .inl ⟨by simp, hinput, out, rfl, hcount⟩
      | none =>
        cases hrun : replaceInRun input (dropPassedScroll input pending.inputs) with
        | some out =>
          obtain ⟨hinput, hcount⟩ := hcoalesced out 0 (.inr (.inr (.inr hrun)))
          exact .inl ⟨by simp, hinput, out, rfl, hcount⟩
        | none => exact .inr rfl

private theorem checkCapacity_full {pending : PendingRendererInputs} {input : DocumentInput}
    (h : (pending.checkCapacity input).1 = .Full) :
    (pending.checkCapacity input).2 = pending ∧
      (pending.canAcceptKeyboard (Keyboard.Admission.fromInput input) = false ∨
        (Keyboard.Admission.fromInput input).any pending.keyboard.owesRelease = false ∧
          MAX_PENDING_RENDERER_INPUTS ≤ pending.ordinary) := by
  rw [checkCapacity] at h ⊢
  split at h
  next hfull =>
    rw [if_pos hfull]
    simpa using hfull
  next => cases h

private theorem checkCapacity_queued {pending : PendingRendererInputs} {input : DocumentInput}
    (h : (pending.checkCapacity input).1 ≠ .Full) :
    (pending.checkCapacity input).2 = { pending with
        keyboard := match Keyboard.Admission.fromInput input with
          | some key => pending.keyboard.accepted key true
          | none => pending.keyboard
        inputs := pending.inputs ++ [input] } ∧
      ((Keyboard.Admission.fromInput input).any pending.keyboard.owesRelease ∨
        pending.ordinary < MAX_PENDING_RENDERER_INPUTS) := by
  rw [checkCapacity] at h ⊢
  split at h
  next => exact absurd rfl h
  next hroom =>
    rw [if_neg hroom]
    refine ⟨rfl, ?_⟩
    simp only [Bool.or_eq_true, Bool.and_eq_true, Bool.not_eq_true', decide_eq_true_eq] at hroom
    by_contra hnot
    rw [not_or, not_lt, Bool.not_eq_true] at hnot
    exact hroom (.inr hnot)

/-- With at most the capacity in use, a refused input changes nothing. -/
theorem enqueue_full_unchanged {pending : PendingRendererInputs} {input : DocumentInput}
    (hcapacity : pending.ordinary ≤ MAX_PENDING_RENDERER_INPUTS)
    (hfull : (pending.enqueue input).1 = .Full) : (pending.enqueue input).2 = pending := by
  rcases enqueue_cases pending input with ⟨hnot, -⟩ | hcheck
  · exact absurd hfull hnot
  · rw [hcheck] at hfull ⊢
    obtain ⟨hsame, hreason⟩ := checkCapacity_full hfull
    obtain ⟨passed, hinputs, hpassed⟩ := dropPassedScroll_cases input pending.inputs
    rcases hpassed with rfl | ⟨wheel, scroll, rfl, rfl, -⟩
    · rw [hsame, ← List.append_nil (dropPassedScroll input pending.inputs), ← hinputs]
    · -- the dropped scroll made room for the wheel
      exfalso
      have hcount : pending.ordinary = ({ pending with
          inputs := dropPassedScroll (.Wheel wheel) pending.inputs } :
            PendingRendererInputs).ordinary + 1 := by
        rw [ordinary]
        conv_lhs => rw [hinputs]
        rw [List.countP_append]
        rfl
      rcases hreason with hkey | ⟨-, hcrowded⟩
      · cases hkey
      · omega

private theorem isReserved_accepted {keyboard : Keyboard.Reservations} (key : Keyboard.Admission)
    {input : DocumentInput} (h : keyboard.isReserved input) :
    (keyboard.accepted key true).isReserved input := by
  cases input with
  | Keyboard other =>
    simp only [Keyboard.Reservations.isReserved, Keyboard.Reservations.accepted, Bool.and_eq_true,
      decide_eq_true_eq] at h ⊢
    refine ⟨h.1, ?_⟩
    cases key.phase with
    | Down => exact h.2
    | Up =>
      show _ ∈ ite _ _ _
      split
      · exact Finset.mem_insert_of_mem h.2
      · exact h.2
  | _ => cases h

/-- A queued release that a held key owed is reserved. -/
private theorem isReserved_owed {keyboard : Keyboard.Reservations} {input : DocumentInput}
    {key : Keyboard.Admission} (hkey : Keyboard.Admission.fromInput input = some key)
    (howes : keyboard.owesRelease key) : (keyboard.accepted key true).isReserved input := by
  cases input with
  | Keyboard pressed =>
    cases hkey
    simp only [Keyboard.Reservations.owesRelease, Bool.and_eq_true, decide_eq_true_eq] at howes
    obtain ⟨hphase, hheld⟩ := howes
    simp only [Keyboard.Reservations.isReserved, Keyboard.Reservations.accepted, hphase, hheld]
    simp
  | _ => cases hkey

theorem enqueue_ordinary {pending : PendingRendererInputs} (input : DocumentInput)
    (hcapacity : pending.ordinary ≤ MAX_PENDING_RENDERER_INPUTS) :
    (pending.enqueue input).2.ordinary ≤ MAX_PENDING_RENDERER_INPUTS := by
  rcases enqueue_cases pending input with ⟨-, -, out, hqueue, hcount⟩ | hcheck
  · rw [hqueue]
    exact hcount.trans hcapacity
  by_cases hfull : (pending.enqueue input).1 = .Full
  · rw [enqueue_full_unchanged hcapacity hfull]
    exact hcapacity
  rw [hcheck] at hfull ⊢
  obtain ⟨hqueue, hroom⟩ := checkCapacity_queued hfull
  rw [hqueue]
  have hsublist : (dropPassedScroll input pending.inputs).Sublist pending.inputs := by
    obtain ⟨passed, hinputs, -⟩ := dropPassedScroll_cases input pending.inputs
    conv_rhs => rw [hinputs]
    exact List.sublist_append_left _ _
  have hinputs : (dropPassedScroll input pending.inputs).countP
      (fun input => !pending.keyboard.isReserved input) ≤ MAX_PENDING_RENDERER_INPUTS :=
    hsublist.countP_le.trans hcapacity
  have hone : ∀ p : DocumentInput → Bool, [input].countP p ≤ 1 := fun p => List.countP_le_length
  simp only [ordinary, List.countP_append] at hroom ⊢
  cases hkey : Keyboard.Admission.fromInput input with
  | none =>
    simp only [hkey, Option.any_none, Bool.false_eq_true, false_or] at hroom ⊢
    have hinput := hone fun input => !pending.keyboard.isReserved input
    omega
  | some key =>
    simp only [hkey, Option.any_some] at hroom ⊢
    have hmono : (dropPassedScroll input pending.inputs).countP
          (fun input => !(pending.keyboard.accepted key true).isReserved input) ≤
        (dropPassedScroll input pending.inputs).countP
          (fun input => !pending.keyboard.isReserved input) := by
      apply List.countP_mono_left
      intro other _ hother
      simp only [Bool.not_eq_true'] at hother ⊢
      by_contra hnot
      rw [Bool.not_eq_false] at hnot
      rw [isReserved_accepted key hnot] at hother
      cases hother
    rcases hroom with howes | hroom
    · have hreserved : [input].countP
          (fun input => !(pending.keyboard.accepted key true).isReserved input) = 0 := by
        simp [isReserved_owed hkey howes]
      omega
    · have hinput := hone fun input => !(pending.keyboard.accepted key true).isReserved input
      omega

/-- Only the capacity check touches the reservations. -/
theorem enqueue_keyboard {pending : PendingRendererInputs} {input : DocumentInput}
    (h : (pending.enqueue input).1 ≠ .Full) :
    (pending.enqueue input).2.keyboard = match Keyboard.Admission.fromInput input with
      | some key => pending.keyboard.accepted key true
      | none => pending.keyboard := by
  rcases enqueue_cases pending input with ⟨-, hinput, out, hqueue, -⟩ | hcheck
  · rw [hqueue, hinput]
  · rw [hcheck] at h ⊢
    rw [(checkCapacity_queued h).1]

/-- A held key never loses its release. -/
theorem enqueue_release {pending : PendingRendererInputs} {input : DocumentInput}
    {key : Keyboard.Admission} (hkey : Keyboard.Admission.fromInput input = some key)
    (howes : pending.keyboard.owesRelease key) : (pending.enqueue input).1 ≠ .Full := by
  intro hfull
  rcases enqueue_cases pending input with ⟨hnot, -⟩ | hcheck
  · exact hnot hfull
  · rw [hcheck] at hfull
    have hphase : key.phase = .Up := by
      simp only [Keyboard.Reservations.owesRelease, Bool.and_eq_true, decide_eq_true_eq] at howes
      exact howes.1
    rcases (checkCapacity_full hfull).2 with hrefused | ⟨hnone, -⟩
    · simp [hkey, canAcceptKeyboard, Keyboard.Reservations.canAccept, hphase] at hrefused
    · simp [hkey, howes] at hnone

end PendingRendererInputs

end BetterWebBrowser.RendererInput
