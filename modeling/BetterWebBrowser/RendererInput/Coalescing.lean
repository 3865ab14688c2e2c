import BetterWebBrowser.RendererInput.Queue
import Mathlib.Data.Sign.Basic
import Mathlib.Algebra.BigOperators.Group.List.Basic
import Mathlib.Tactic.Linarith

/-!
# What coalescing keeps

The queue as a backlog: absolute values may be dropped once a newer one replaces them,
relative ones add up, and everything else is delivered as it came. Every coalescing rule of
`enqueue` is an instance of the rules of a backlog.
-/

namespace BetterWebBrowser.RendererInput

open Framework

/-! ## The queue as a backlog -/

/-- Inputs of one channel next to each other may be merged into one. -/
inductive Channel
  | Wheel (document : DocumentId) (target : Option RendererProtocol.DocumentNodeId)
      (modifiers : InputModifiers) (directionX directionY : SignType)
  | LockedMove (document : DocumentId) (target : Option RendererProtocol.DocumentNodeId)
      (modifiers : InputModifiers) (buttons : UInt8)
deriving DecidableEq

namespace DocumentInput

def channel : DocumentInput → Option Channel
  | Wheel input => some (.Wheel input.document input.target input.modifiers
      (SignType.sign input.deltaX) (SignType.sign input.deltaY))
  | Pointer input =>
    if input.phase = .LockedMove then
      some (.LockedMove input.document input.target input.modifiers input.buttons)
    else none
  | _ => none

/-- The relative part of an input. -/
def delta : DocumentInput → ℚ × ℚ
  | Wheel input => (input.deltaX, input.deltaY)
  | Pointer input => (input.x, input.y)
  | _ => 0

/-- Absolute values: only the latest counts. -/
def replaceable : DocumentInput → Bool
  | Pointer input => input.phase = .Move
  | Scroll _ => true
  | Selection _ => true
  | Text _ => true
  | _ => false

/-- The newer value makes the older one obsolete. -/
def Replaces : DocumentInput → DocumentInput → Prop
  | Pointer newer, Pointer older =>
    newer.phase = .Move ∧ newer.document = older.document ∧ newer.target = older.target ∧
      newer.buttons = older.buttons ∧ newer.modifiers = older.modifiers
  | Scroll newer, Scroll older => newer.document = older.document
  | Selection newer, Selection older =>
    newer.document = older.document ∧ newer.target = older.target
  | Text newer, Text older => newer.document = older.document ∧ newer.target = older.target
  | Wheel newer, Scroll older => newer.document = older.document ∧ older.x = 0
  | _, _ => False

def total (group : List DocumentInput) : ℚ × ℚ := (group.map delta).sum

def InBounds (sum : ℚ × ℚ) : Prop :=
  -16777216 ≤ sum.1 ∧ sum.1 ≤ 16777216 ∧ -16777216 ≤ sum.2 ∧ sum.2 ≤ 16777216

/-- Adding the group up from the left never reaches a clamp. -/
def Unclamped (group : List DocumentInput) : Prop :=
  ∀ count, 2 ≤ count → count ≤ group.length → InBounds (total (group.take count))

/-- The input is the only one of its group, or the group is of one channel and the input
carries its total movement under the newest sequence. -/
def Delivers (group : List DocumentInput) (input : DocumentInput) : Prop :=
  group = [input] ∨
    (∃ channel, input.channel = some channel ∧ ∀ item ∈ group, item.channel = some channel) ∧
      (∃ newest, group.getLast? = some newest ∧ input.sequence = newest.sequence) ∧
      (Unclamped group → input.delta = total group)

end DocumentInput

open DocumentInput

/-- What the queue may do with its inputs. -/
def inputBacklog : Backlog DocumentInput where
  sequence := sequence
  keeps := fun input => !input.replaceable
  Replaces := Replaces
  Delivers := Delivers

@[simp] theorem inputBacklog_sequence (input : DocumentInput) :
    inputBacklog.sequence input = input.sequence := rfl

@[simp] theorem inputBacklog_keeps (input : DocumentInput) :
    inputBacklog.keeps input = !input.replaceable := rfl

/-! ## Merging -/

theorem total_append_singleton (group : List DocumentInput) (input : DocumentInput) :
    total (group ++ [input]) = total group + input.delta := by
  simp [total]

private theorem sign_eq_of_sameDirection {older newer : ℚ}
    (h : Wheel.sameDirection older newer) : SignType.sign older = SignType.sign newer := by
  simp only [Wheel.sameDirection, Bool.and_eq_true, beq_iff_eq, decide_eq_decide] at h
  obtain ⟨hpos, hneg⟩ := h
  rcases lt_trichotomy older 0 with ho | ho | ho
  · rw [sign_neg ho, sign_neg (hneg.mp ho)]
  · subst ho
    have hnewer : newer = 0 := by
      apply le_antisymm
      · exact not_lt.mp fun hlt => lt_irrefl _ (hpos.mpr hlt)
      · exact not_lt.mp fun hlt => lt_irrefl _ (hneg.mpr hlt)
    rw [hnewer]
  · rw [sign_pos ho, sign_pos (hpos.mp ho)]

private theorem sign_combined {older newer : ℚ}
    (h : SignType.sign older = SignType.sign newer) :
    SignType.sign (Wheel.combined older newer) = SignType.sign newer := by
  rw [Wheel.combined, Wheel.clamp, Wheel.MAX_WHEEL_DELTA]
  rcases lt_trichotomy newer 0 with hn | hn | hn
  · have ho : older < 0 := by rwa [sign_neg hn, sign_eq_neg_one_iff] at h
    rw [sign_neg hn, sign_neg]
    rw [max_lt_iff]
    exact ⟨by norm_num, min_lt_iff.mpr (.inr (by linarith))⟩
  · subst hn
    have ho : older = 0 := by rwa [sign_zero, sign_eq_zero_iff] at h
    subst ho
    norm_num
  · have ho : 0 < older := by rwa [sign_pos hn, sign_eq_one_iff] at h
    rw [sign_pos hn, sign_pos]
    exact lt_max_of_lt_right (lt_min (by norm_num) (by linarith))

private theorem clamp_eq {value : ℚ} (hlow : -16777216 ≤ value) (hhigh : value ≤ 16777216) :
    Wheel.clamp 16777216 value = value := by
  rw [Wheel.clamp, min_eq_right hhigh, max_eq_right hlow]

/-- A merged input stands for the group of the older one and for the newcomer. -/
private theorem delivers_extend {group : List DocumentInput} {older newer merged : DocumentInput}
    (channel : Channel) (h : Delivers group older) (holder : older.channel = some channel)
    (hnewer : newer.channel = some channel) (hmerged : merged.channel = some channel)
    (hsequence : merged.sequence = newer.sequence)
    (hdelta : merged.delta = (Wheel.clamp 16777216 (older.delta.1 + newer.delta.1),
      Wheel.clamp 16777216 (older.delta.2 + newer.delta.2))) :
    Delivers (group ++ [newer]) merged := by
  have hchannel : ∀ item ∈ group, item.channel = some channel := by
    rcases h with rfl | ⟨⟨_, hown, hitems⟩, -, -⟩
    · simpa using holder
    · rw [holder, Option.some.injEq] at hown
      rwa [← hown] at hitems
  have hnonempty : 1 ≤ group.length := by
    rcases h with rfl | ⟨-, ⟨newest, hnewest, -⟩, -⟩
    · exact le_rfl
    · cases group with
      | nil => cases hnewest
      | cons first rest => exact Nat.le_add_left 1 rest.length
  have htotal : Unclamped (group ++ [newer]) → older.delta = total group := by
    intro hunclamped
    rcases h with rfl | ⟨-, -, hsum⟩
    · simp [total]
    · apply hsum
      intro count hlow hhigh
      have hstep := hunclamped count hlow (by rw [List.length_append]; omega)
      rwa [List.take_append_of_le_length hhigh] at hstep
  refine .inr ⟨⟨channel, hmerged, ?_⟩, ⟨newer, by simp, hsequence⟩, ?_⟩
  · intro item hitem
    rcases List.mem_append.mp hitem with hmem | hmem
    · exact hchannel item hmem
    · rwa [List.mem_singleton.mp hmem]
  · intro hunclamped
    have hlength : (group ++ [newer]).length = group.length + 1 := by simp
    have hbounds := hunclamped (group ++ [newer]).length (by omega) le_rfl
    rw [List.take_length, total_append_singleton, ← htotal hunclamped] at hbounds
    obtain ⟨hlow, hhigh, hlow', hhigh'⟩ := hbounds
    rw [total_append_singleton, ← htotal hunclamped, hdelta]
    apply Prod.ext
    · show Wheel.clamp 16777216 (older.delta.1 + newer.delta.1) = older.delta.1 + newer.delta.1
      exact clamp_eq hlow hhigh
    · show Wheel.clamp 16777216 (older.delta.2 + newer.delta.2) = older.delta.2 + newer.delta.2
      exact clamp_eq hlow' hhigh'

/-- The wheel in the queue and the newcomer, merged. -/
theorem wheel_delivers {older newer : WheelInput} {floor : Nat}
    (hcompatible : Wheel.compatible older newer floor) {group : List DocumentInput}
    (h : Delivers group (.Wheel older)) :
    Delivers (group ++ [.Wheel newer]) (.Wheel (Wheel.merge older newer)) := by
  simp only [Wheel.compatible, Bool.and_eq_true, decide_eq_true_eq] at hcompatible
  obtain ⟨⟨⟨⟨⟨⟨hdocument, -⟩, -⟩, hmodifiers⟩, htarget⟩, hx⟩, hy⟩ := hcompatible
  have hx := sign_eq_of_sameDirection hx
  have hy := sign_eq_of_sameDirection hy
  apply delivers_extend (.Wheel newer.document newer.target newer.modifiers
    (SignType.sign newer.deltaX) (SignType.sign newer.deltaY)) h
  · simp only [channel, hdocument, htarget, hmodifiers, hx, hy]
  · rfl
  · simp only [channel, Wheel.merge, sign_combined hx, sign_combined hy]
  · rfl
  · rfl

/-! ## The rules of `enqueue` -/

/-- What a wheel at the end of the queue makes obsolete. -/
def Passed (input : DocumentInput) (passed : List DocumentInput) : Prop :=
  passed = [] ∨ ∃ wheel scroll, input = .Wheel wheel ∧ passed = [.Scroll scroll] ∧
    Replaces input (.Scroll scroll)

theorem dropPassedScroll_cases (input : DocumentInput) (inputs : List DocumentInput) :
    ∃ passed, inputs = dropPassedScroll input inputs ++ passed ∧ Passed input passed := by
  rw [dropPassedScroll.eq_def]
  split
  next wheel scroll hlast =>
    obtain ⟨front, rfl⟩ := List.getLast?_eq_some_iff.mp hlast
    split
    next hsame =>
      refine ⟨[.Scroll scroll], by simp, .inr ⟨wheel, scroll, rfl, rfl, hsame⟩⟩
    next => exact ⟨[], by simp, .inl rfl⟩
  next => exact ⟨[], by simp, .inl rfl⟩

theorem mergeWheel_eq {input : DocumentInput} {inputs out : List DocumentInput}
    {floor sequence : Nat} (h : mergeWheel input inputs floor = some (sequence, out)) :
    ∃ before older after newer, input = .Wheel newer ∧
      inputs = before ++ .Wheel older :: after ∧ Wheel.compatible older newer floor ∧
      (∀ item ∈ after, item.replaceable) ∧
      out = compactContinuousTail (before ++ after) ++ [.Wheel (Wheel.merge older newer)] := by
  rw [mergeWheel.eq_def] at h
  split at h
  next newer =>
    split at h
    next before older after hsearch =>
      cases h
      obtain ⟨hinputs, hfound, hpassed⟩ := searchBack_eq hsearch
      refine ⟨before, older, after, newer, rfl, hinputs, ?_, ?_, rfl⟩
      · by_contra hne
        rw [Wheel.absorbs, if_neg hne] at hfound
        cases hfound
      · intro item hitem
        have hpass := hpassed item hitem
        cases item with
        | Pointer pointer =>
          simp only [Wheel.absorbs] at hpass
          split at hpass
          next hmove => simp [replaceable, hmove]
          next => cases hpass
        | Scroll scroll => rfl
        | Wheel wheel => simp only [Wheel.absorbs] at hpass; split at hpass <;> cases hpass
        | _ => cases hpass
    next => cases h
  next => cases h

theorem addLockedMove_eq {input : DocumentInput} {inputs out : List DocumentInput}
    (h : addLockedMove input inputs = some out) :
    ∃ front previous merged, inputs = front ++ [previous] ∧ out = front ++ [merged] ∧
      previous.replaceable = false ∧ input.replaceable = false ∧ merged.replaceable = false ∧
      Keyboard.Admission.fromInput previous = none ∧ merged.sequence = input.sequence ∧
      ∀ group, Delivers group previous → Delivers (group ++ [input]) merged := by
  rw [addLockedMove.eq_def] at h
  split at h
  next newer previous hlast =>
    obtain ⟨front, rfl⟩ := List.getLast?_eq_some_iff.mp hlast
    split at h
    next hsame =>
      obtain ⟨hphase, hphase', hdocument, htarget, hbuttons, hmodifiers⟩ := hsame
      cases h
      refine ⟨front, .Pointer previous, .Pointer (addMovement previous newer), rfl,
        by rw [List.dropLast_concat], ?_, ?_, ?_, rfl, rfl, ?_⟩
      · simp [replaceable, hphase']
      · simp [replaceable, hphase]
      · simp [replaceable, addMovement, hphase']
      · intro group hgroup
        apply delivers_extend (.LockedMove newer.document newer.target newer.modifiers
          newer.buttons) hgroup
        · simp [channel, hphase', hdocument, htarget, hbuttons, hmodifiers]
        · simp [channel, hphase]
        · simp [channel, addMovement, hphase', hdocument, htarget, hbuttons, hmodifiers]
        · rfl
        · rfl
    next => cases h
  next => cases h

theorem canCompactAcross_replaces {newer pending : DocumentInput}
    (h : canCompactAcross newer pending) :
    Replaces newer pending ∧ newer.replaceable ∧ pending.replaceable := by
  cases newer <;> cases pending <;>
    simp_all [canCompactAcross, Replaces, replaceable]

theorem safelySupersedes_replaces {newer pending : DocumentInput}
    (h : safelySupersedes newer pending) :
    Replaces newer pending ∧ newer.replaceable ∧ pending.replaceable := by
  cases newer <;> cases pending <;>
    simp_all [safelySupersedes, Replaces, replaceable]

/-- Both rules that put the newcomer in place of an obsolete value. -/
theorem replace_eq {input : DocumentInput} {inputs out : List DocumentInput}
    (h : replaceBack input inputs = some out ∨ replaceInRun input inputs = some out) :
    ∃ before older after, inputs = before ++ older :: after ∧ out = before ++ after ++ [input] ∧
      Replaces input older ∧ input.replaceable ∧ older.replaceable := by
  rcases h with h | h
  · rw [replaceBack] at h
    split at h
    next pending hlast =>
      obtain ⟨front, rfl⟩ := List.getLast?_eq_some_iff.mp hlast
      split at h
      next hsupersedes =>
        cases h
        exact ⟨front, pending, [], rfl, by simp, safelySupersedes_replaces hsupersedes⟩
      next => cases h
    next => cases h
  · rw [replaceInRun] at h
    split at h
    next before older after hsearch =>
      cases h
      obtain ⟨hinputs, hfound, -⟩ := searchBack_eq hsearch
      refine ⟨before, older, after, hinputs, rfl, canCompactAcross_replaces ?_⟩
      by_contra hne
      rw [compacts] at hfound
      simp only [hne] at hfound
      split at hfound
      · cases hfound
      · split at hfound <;> cases hfound
    next => cases h

private theorem superseded_newer {older : DocumentInput} {following : List DocumentInput}
    (h : superseded older following) : ∃ newer ∈ following, canCompactAcross newer older := by
  rw [superseded] at h
  split at h
  next => cases h
  next newer rest hdrop =>
    have hmem : newer ∈ following := by
      apply (List.dropWhile_suffix _).subset
      rw [hdrop]
      exact List.mem_cons_self
    have hnonempty : following.dropWhile (fun newer => !canCompactAcross newer older) ≠ [] := by
      rw [hdrop]
      exact List.cons_ne_nil _ _
    have hhead := List.head_dropWhile_not _ hnonempty
    simp only [hdrop, List.head_cons, Bool.not_eq_false'] at hhead
    exact ⟨newer, hmem, hhead⟩

theorem compactRun_sublist (run : List DocumentInput) : (compactRun run).Sublist run := by
  induction run with
  | nil => exact .slnil
  | cons older following ih =>
    rw [compactRun]
    split
    · exact ih.cons older
    · exact ih.cons_cons older

theorem compactContinuousTail_sublist (inputs : List DocumentInput) :
    (compactContinuousTail inputs).Sublist inputs := by
  have h := (compactRun_sublist (inputs.rtakeWhile isContinuous)).append_left
    (inputs.rdropWhile isContinuous)
  rwa [List.rdropWhile_append_rtakeWhile] at h

/-! ## The accounts of one enqueue -/

section

variable {accepted front back run : List DocumentInput} {next : Nat}

/-- Compacting a run drops only values that a later one of the run replaces. -/
theorem accounts_compactRun
    (h : inputBacklog.Accounts accepted (front ++ (run ++ back)) next) :
    inputBacklog.Accounts accepted (front ++ (compactRun run ++ back)) next := by
  induction run generalizing front with
  | nil => exact h
  | cons older following ih =>
    have hfollowing : inputBacklog.Accounts accepted
        (front ++ older :: (compactRun following ++ back)) next := by
      have hmoved := @ih (front ++ [older]) (by simpa using h)
      simpa using hmoved
    rw [compactRun]
    split
    next hsuperseded =>
      obtain ⟨newer, hnewer, hcompact⟩ := superseded_newer hsuperseded
      obtain ⟨hreplaces, hnewerReplaceable, holderReplaceable⟩ := canCompactAcross_replaces hcompact
      have haccepted : newer ∈ accepted := by
        apply hfollowing.genuine newer
        · simp [hnewer]
        · simp [hnewerReplaceable]
      have hlater : older.sequence < newer.sequence := by
        have horder := (List.pairwise_append.mp hfollowing.increasing).2.1
        exact (List.pairwise_cons.mp horder).1 newer (List.mem_append_left _ hnewer)
      exact hfollowing.drop (by simp [holderReplaceable]) haccepted hlater hreplaces
    next => exact hfollowing

theorem accounts_compactContinuousTail {inputs : List DocumentInput}
    (h : inputBacklog.Accounts accepted (front ++ (inputs ++ back)) next) :
    inputBacklog.Accounts accepted (front ++ (compactContinuousTail inputs ++ back)) next := by
  rw [compactContinuousTail]
  have hsplit : front ++ (inputs ++ back) = (front ++ inputs.rdropWhile isContinuous) ++
      (inputs.rtakeWhile isContinuous ++ back) := by
    conv_lhs => rw [← List.rdropWhile_append_rtakeWhile (p := isContinuous) (l := inputs)]
    simp only [List.append_assoc]
  rw [hsplit] at h
  simpa only [List.append_assoc] using accounts_compactRun h

private theorem Passed.replaceable {input : DocumentInput} {passed : List DocumentInput}
    (h : Passed input passed) : ∀ item ∈ passed, inputBacklog.keeps item = false := by
  rcases h with rfl | ⟨wheel, scroll, -, rfl, -⟩
  · intro item hitem
    cases hitem
  · intro item hitem
    rw [List.mem_singleton.mp hitem]
    rfl

/-- With the newcomer in the queue, what it passed can go. -/
private theorem accounts_dropPassed {input added : DocumentInput} {kept passed : List DocumentInput}
    (h : inputBacklog.Accounts (accepted ++ [input]) (front ++ (kept ++ passed ++ [added]))
      (input.sequence + 1))
    (hsequence : added.sequence = input.sequence) (hpassed : Passed input passed) :
    inputBacklog.Accounts (accepted ++ [input]) (front ++ (kept ++ [added]))
      (input.sequence + 1) := by
  rcases hpassed with rfl | ⟨wheel, scroll, -, rfl, hreplaces⟩
  · simpa using h
  · have hsplit : front ++ (kept ++ [.Scroll scroll] ++ [added]) =
        (front ++ kept) ++ .Scroll scroll :: [added] := by simp
    rw [hsplit] at h
    have hlater : (DocumentInput.Scroll scroll).sequence < input.sequence := by
      have horder := (List.pairwise_append.mp h.increasing).2.1
      rw [← hsequence]
      exact (List.pairwise_cons.mp horder).1 added (List.mem_singleton_self _)
    rw [← List.append_assoc]
    exact h.drop rfl (List.mem_append_right _ (List.mem_singleton_self _)) hlater hreplaces

variable {input : DocumentInput} {inputs out passed : List DocumentInput}

private theorem accounts_mergeWheel
    (h : inputBacklog.Accounts accepted (front ++ (inputs ++ passed)) next)
    (hnext : next ≤ input.sequence) (hpassed : Passed input passed) {floor sequence : Nat}
    (hmerge : mergeWheel input inputs floor = some (sequence, out)) :
    inputBacklog.Accounts (accepted ++ [input]) (front ++ out) (input.sequence + 1) := by
  obtain ⟨before, older, after, newer, rfl, rfl, hcompatible, hafter, rfl⟩ := mergeWheel_eq hmerge
  have hsplit : front ++ (before ++ .Wheel older :: after ++ passed) =
      (front ++ before) ++ .Wheel older :: (after ++ passed) := by simp
  rw [hsplit] at h
  have hback : ∀ item ∈ after ++ passed, inputBacklog.keeps item = false := by
    intro item hitem
    rcases List.mem_append.mp hitem with hmem | hmem
    · simp [hafter item hmem]
    · exact hpassed.replaceable item hmem
  have hmerged := h.merge (.Wheel newer) (.Wheel (Wheel.merge older newer)) hback rfl rfl rfl hnext
    rfl fun group hgroup => wheel_delivers hcompatible hgroup
  have hregrouped : inputBacklog.Accounts (accepted ++ [.Wheel newer])
      (front ++ ((before ++ after) ++ (passed ++ [.Wheel (Wheel.merge older newer)])))
      ((DocumentInput.Wheel newer).sequence + 1) := by
    simpa using hmerged
  have hcompacted := accounts_compactContinuousTail hregrouped
  rw [← List.append_assoc (compactContinuousTail _)] at hcompacted
  exact accounts_dropPassed hcompacted rfl hpassed

private theorem accounts_addLockedMove
    (h : inputBacklog.Accounts accepted (front ++ (inputs ++ passed)) next)
    (hnext : next ≤ input.sequence) (hpassed : Passed input passed)
    (hadd : addLockedMove input inputs = some out) :
    inputBacklog.Accounts (accepted ++ [input]) (front ++ out) (input.sequence + 1) := by
  obtain ⟨before, previous, merged, rfl, rfl, hprevious, hinput, hmerged, -, hsequence,
    hdelivers⟩ := addLockedMove_eq hadd
  have hsplit : front ++ (before ++ [previous] ++ passed) =
      (front ++ before) ++ previous :: passed := by simp
  rw [hsplit] at h
  have hadded := h.merge input merged hpassed.replaceable (by simp [hprevious])
    (by simp [hinput]) (by simp [hmerged]) hnext hsequence hdelivers
  apply accounts_dropPassed _ hsequence hpassed
  simpa using hadded

private theorem accounts_push
    (h : inputBacklog.Accounts accepted (front ++ (inputs ++ passed)) next)
    (hnext : next ≤ input.sequence) (hpassed : Passed input passed) :
    inputBacklog.Accounts (accepted ++ [input]) (front ++ (inputs ++ [input]))
      (input.sequence + 1) := by
  apply accounts_dropPassed _ rfl hpassed
  have hpushed := h.push hnext (.inl rfl)
  rwa [List.append_assoc] at hpushed

private theorem accounts_replace
    (h : inputBacklog.Accounts accepted (front ++ (inputs ++ passed)) next)
    (hnext : next ≤ input.sequence) (hpassed : Passed input passed)
    (hreplace : replaceBack input inputs = some out ∨ replaceInRun input inputs = some out) :
    inputBacklog.Accounts (accepted ++ [input]) (front ++ out) (input.sequence + 1) := by
  obtain ⟨before, older, after, rfl, rfl, hreplaces, -, holder⟩ := replace_eq hreplace
  have hpushed := accounts_push h hnext hpassed
  have hsplit : front ++ (before ++ older :: after ++ [input]) =
      (front ++ before) ++ older :: (after ++ [input]) := by simp
  rw [hsplit] at hpushed
  have hlater : older.sequence < input.sequence := by
    have horder := (List.pairwise_append.mp hpushed.increasing).2.1
    exact (List.pairwise_cons.mp horder).1 input (by simp)
  have hdropped := hpushed.drop (by simp [holder])
    (List.mem_append_right _ (List.mem_singleton_self _)) hlater hreplaces
  simpa using hdropped

end

namespace PendingRendererInputs

variable {pending : PendingRendererInputs} {input : DocumentInput}

private theorem checkCapacity_accepted (h : (pending.checkCapacity input).1 ≠ .Full) :
    (pending.checkCapacity input).2.inputs = pending.inputs ++ [input] := by
  rw [checkCapacity] at h ⊢
  split at h
  next => exact absurd rfl h
  next hroom => rw [if_neg hroom]

/-- An accepted input is in the accounts; what was before it is still in them. -/
theorem enqueue_accounts {accepted popped : List DocumentInput} {next : Nat}
    (h : inputBacklog.Accounts accepted (popped ++ pending.inputs) next)
    (hnext : next ≤ input.sequence) (hresult : (pending.enqueue input).1 ≠ .Full) :
    inputBacklog.Accounts (accepted ++ [input]) (popped ++ (pending.enqueue input).2.inputs)
      (input.sequence + 1) := by
  obtain ⟨passed, hinputs, hpassed⟩ := dropPassedScroll_cases input pending.inputs
  rw [hinputs] at h
  rw [enqueue] at hresult ⊢
  generalize dropPassedScroll input pending.inputs = inputs at *
  cases hmerge : mergeWheel input inputs pending.wheelCoalescingFloor with
  | some result => exact accounts_mergeWheel h hnext hpassed hmerge
  | none =>
    simp only [hmerge] at hresult ⊢
    cases hadd : addLockedMove input inputs with
    | some out => exact accounts_addLockedMove h hnext hpassed hadd
    | none =>
      simp only [hadd] at hresult ⊢
      cases hback : replaceBack input inputs with
      | some out => exact accounts_replace h hnext hpassed (.inl hback)
      | none =>
        simp only [hback] at hresult ⊢
        cases hrun : replaceInRun input inputs with
        | some out => exact accounts_replace h hnext hpassed (.inr hrun)
        | none =>
          simp only [hrun] at hresult ⊢
          rw [checkCapacity_accepted hresult]
          exact accounts_push h hnext hpassed

end PendingRendererInputs

end BetterWebBrowser.RendererInput
