import BetterWebBrowser.Framework.Transition
import BetterWebBrowser.RendererInput.Capacity

/-!
# Backpressure loses nothing

Runs of the queue under a slow renderer. The browser enqueues inputs with increasing
sequences, pops what it can send, puts back what the channel refused and reports deliveries.
-/

namespace BetterWebBrowser.RendererInput

open Framework

/-! ## Runs -/

inductive Operation
  | enqueue (input : DocumentInput)
  | popFront
  | restoreFront (input : DocumentInput)
  | noteSent (key : Option (DocumentId × Nat))
  | noteScrollSent (key : Option (DocumentId × Nat))
  | acknowledgeScroll (document : DocumentId) (sequence : Nat)
  | acknowledgeMove (result : PointerCursorResult)
  | noteDelivered (document : DocumentId) (sequence : Nat)
  | fenceWheelCoalescing (sequence : Nat)

/-- The queue, what it accepted, and what it handed out for good. -/
structure History where
  queue : PendingRendererInputs := {}
  accepted : List DocumentInput := []
  popped : List DocumentInput := []
  /-- Above every sequence seen. -/
  nextSequence : Nat := 0
  /-- What the last operation popped. -/
  justPopped : Option DocumentInput := none

namespace History

/-- An operation that neither accepts nor hands out an input. -/
def update (history : History) (queue : PendingRendererInputs) : History :=
  { history with queue := queue, justPopped := none }

def next (history : History) : Operation → History
  | .enqueue input =>
    { history with
      queue := (history.queue.enqueue input).2
      accepted := if (history.queue.enqueue input).1 = .Full then history.accepted
        else history.accepted ++ [input]
      nextSequence := input.sequence + 1
      justPopped := none }
  | .popFront =>
    { history with
      queue := history.queue.popFront.2
      popped := history.popped ++ history.queue.popFront.1.toList
      justPopped := history.queue.popFront.1 }
  | .restoreFront input =>
    { history with
      queue := history.queue.restoreFront input
      popped := history.popped.dropLast
      justPopped := none }
  | .noteSent key => history.update (history.queue.noteSent key)
  | .noteScrollSent key => history.update (history.queue.noteScrollSent key)
  | .acknowledgeScroll document sequence =>
    history.update (history.queue.acknowledgeScroll document sequence)
  | .acknowledgeMove result => history.update (history.queue.acknowledgeMove result)
  | .noteDelivered document sequence =>
    history.update (history.queue.noteDelivered document sequence)
  | .fenceWheelCoalescing sequence => history.update (history.queue.fenceWheelCoalescing sequence)

/-- Sequences increase, and only the input just popped is put back. -/
def Orderly (history : History) : Operation → Prop
  | .enqueue input => history.nextSequence ≤ input.sequence
  | .restoreFront input => history.justPopped = some input
  | _ => True

/-- A delivery is reported only for what has left the queue. -/
def Delivered (history : History) : Operation → Prop
  | .noteDelivered document sequence => ∀ input ∈ history.queue.inputs,
      ¬ (input.document = document ∧ input.sequence = sequence)
  | _ => True

/-- One operation of the browser. -/
def Step (history : History) (operation : Operation) (history' : History) : Prop :=
  (history.Orderly operation ∧ history.Delivered operation) ∧ history' = history.next operation

/-- The same where a delivery may be reported for any input. -/
def LooseStep (history : History) (operation : Operation) (history' : History) : Prop :=
  history.Orderly operation ∧ history' = history.next operation

end History

/-- The input is a key event of this phase. -/
def Strikes (phase : KeyPhase) (document : DocumentId) (identity : Str) (input : DocumentInput) :
    Prop :=
  ∃ sequence, Keyboard.Admission.fromInput input = some ⟨document, sequence, phase, identity⟩

/-- A press of the key was accepted, and no release of it since. -/
def Pressed (accepted : List DocumentInput) (document : DocumentId) (identity : Str) : Prop :=
  ∃ before press after, accepted = before ++ press :: after ∧ Strikes .Down document identity press ∧
    ∀ later ∈ after, ¬ Strikes .Up document identity later

/-- What holds in a state of the queue if none of its input is lost. -/
structure LosesNothing (history : History) : Prop where
  full_unchanged : ∀ input, (history.queue.enqueue input).1 = .Full →
    (history.queue.enqueue input).2 = history.queue
  accounts : inputBacklog.Accounts history.accepted (history.popped ++ history.queue.inputs)
    history.nextSequence
  release : ∀ input document identity, Pressed history.accepted document identity →
    Strikes .Up document identity input → (history.queue.enqueue input).1 ≠ .Full
  /-- Once the renderer acknowledges, all that waits is popped. -/
  drains : ∃ operations history', Run History.Step history operations history' ∧
    history'.queue.inputs = [] ∧ history'.popped = history.popped ++ history.queue.inputs ∧
    history'.accepted = history.accepted

/-! ## The invariant -/

structure Invariant (history : History) : Prop where
  accounts : inputBacklog.Accounts history.accepted (history.popped ++ history.queue.inputs)
    history.nextSequence
  capacity : history.queue.ordinary ≤ MAX_PENDING_RENDERER_INPUTS
  restorable : ∀ input, history.justPopped = some input →
    (∃ front, history.popped = front ++ [input]) ∧
      (history.queue.restoreFront input).ordinary ≤ MAX_PENDING_RENDERER_INPUTS
  held : ∀ document identity, Pressed history.accepted document identity →
    (document, identity) ∈ history.queue.keyboard.held

namespace Invariant

variable {history : History}

theorem init : Invariant {} where
  accounts := .empty _ _
  capacity := Nat.zero_le _
  restorable := by simp
  held := by
    rintro document identity ⟨before, press, after, hnil, -⟩
    simp at hnil

private theorem pressed_snoc {accepted : List DocumentInput} {input : DocumentInput}
    {document : DocumentId} {identity : Str}
    (h : Pressed (accepted ++ [input]) document identity) :
    Strikes .Down document identity input ∨
      Pressed accepted document identity ∧ ¬ Strikes .Up document identity input := by
  obtain ⟨before, press, after, hsplit, hpress, hafter⟩ := h
  rcases List.eq_nil_or_concat after with rfl | ⟨front, last, rfl⟩
  · obtain ⟨-, hlast⟩ := List.append_inj' hsplit rfl
    simp only [List.cons.injEq, and_true] at hlast
    exact .inl (hlast ▸ hpress)
  · rw [List.concat_eq_append, ← List.cons_append, ← List.append_assoc] at hsplit
    obtain ⟨haccepted, hlast⟩ := List.append_inj' hsplit rfl
    simp only [List.cons.injEq, and_true] at hlast
    right
    refine ⟨⟨before, press, front, haccepted, hpress, ?_⟩, ?_⟩
    · intro later hlater
      exact hafter later (by simp [hlater])
    · rw [hlast]
      exact hafter last (by simp)

private theorem held_snoc {accepted : List DocumentInput} {input : DocumentInput}
    {keyboard : Keyboard.Reservations}
    (h : ∀ document identity, Pressed accepted document identity → (document, identity) ∈ keyboard.held)
    {document : DocumentId} {identity : Str}
    (hpressed : Pressed (accepted ++ [input]) document identity) :
    (document, identity) ∈ (match Keyboard.Admission.fromInput input with
      | some key => keyboard.accepted key true
      | none => keyboard).held := by
  rcases pressed_snoc hpressed with ⟨sequence, hdown⟩ | ⟨hbefore, hnotUp⟩
  · simp [hdown, Keyboard.Reservations.accepted]
  · have hheld := h document identity hbefore
    cases hkey : Keyboard.Admission.fromInput input with
    | none => exact hheld
    | some key =>
      obtain ⟨keyDocument, sequence, phase, keyIdentity⟩ := key
      cases phase with
      | Down => exact Finset.mem_insert_of_mem hheld
      | Up =>
        apply Finset.mem_erase.mpr ⟨_, hheld⟩
        intro hsame
        simp only [Prod.mk.injEq] at hsame
        exact hnotUp ⟨sequence, by rw [hkey, hsame.1, hsame.2]⟩

private theorem enqueue (h : Invariant history) {input : DocumentInput}
    (hsequence : history.nextSequence ≤ input.sequence) :
    Invariant (history.next (.enqueue input)) := by
  by_cases hfull : (history.queue.enqueue input).1 = .Full
  · have hsame := PendingRendererInputs.enqueue_full_unchanged h.capacity hfull
    rw [History.next, if_pos hfull, hsame]
    exact
      { accounts := h.accounts.mono (hsequence.trans (Nat.le_succ _))
        capacity := h.capacity
        restorable := by simp
        held := h.held }
  · rw [History.next, if_neg hfull]
    exact
      { accounts := PendingRendererInputs.enqueue_accounts h.accounts hsequence hfull
        capacity := PendingRendererInputs.enqueue_ordinary input h.capacity
        restorable := by simp
        held := by
          intro document identity hpressed
          show _ ∈ (history.queue.enqueue input).2.keyboard.held
          rw [PendingRendererInputs.enqueue_keyboard hfull]
          exact held_snoc h.held hpressed }

private theorem popFront (h : Invariant history) : Invariant (history.next .popFront) := by
  rw [History.next, PendingRendererInputs.popFront]
  cases hinputs : history.queue.inputs with
  | nil =>
    simp only [Option.toList_none, List.append_nil]
    exact
      { accounts := h.accounts
        capacity := h.capacity
        restorable := by simp
        held := h.held }
  | cons input inputs =>
    simp only
    split
    next hsend =>
      have haccounts := h.accounts
      have hcapacity := h.capacity
      rw [hinputs] at haccounts
      rw [PendingRendererInputs.ordinary, hinputs] at hcapacity
      exact
        { accounts := by simpa using haccounts
          capacity := by
            refine le_trans ?_ hcapacity
            exact (List.sublist_cons_self _ _).countP_le
          restorable := by
            intro restored hrestored
            cases hrestored
            exact ⟨⟨history.popped, rfl⟩, hcapacity⟩
          held := h.held }
    next =>
      simp only [Option.toList_none, List.append_nil]
      exact
        { accounts := h.accounts
          capacity := h.capacity
          restorable := by simp
          held := h.held }

private theorem restoreFront (h : Invariant history) {input : DocumentInput}
    (hpopped : history.justPopped = some input) :
    Invariant (history.next (.restoreFront input)) := by
  obtain ⟨⟨front, hfront⟩, hcapacity⟩ := h.restorable input hpopped
  have haccounts := h.accounts
  rw [hfront] at haccounts
  exact
    { accounts := by
        simpa [History.next, PendingRendererInputs.restoreFront, hfront] using haccounts
      capacity := hcapacity
      restorable := by simp [History.next]
      held := h.held }

/-- An operation that leaves the queued inputs and the held keys alone. -/
private theorem update (h : Invariant history) {queue : PendingRendererInputs}
    (hinputs : queue.inputs = history.queue.inputs)
    (hheld : queue.keyboard.held = history.queue.keyboard.held)
    (hordinary : queue.ordinary ≤ history.queue.ordinary) :
    Invariant (history.update queue) where
  accounts := by
    have haccounts := h.accounts
    rw [← hinputs] at haccounts
    exact haccounts
  capacity := hordinary.trans h.capacity
  restorable := by simp [History.update]
  held := by
    intro document identity hpressed
    have hmem := h.held document identity hpressed
    rw [← hheld] at hmem
    exact hmem

private theorem noteDelivered (h : Invariant history) {document : DocumentId} {sequence : Nat}
    (hdelivered : history.Delivered (.noteDelivered document sequence)) :
    Invariant (history.next (.noteDelivered document sequence)) := by
  have hordinary : (history.queue.noteDelivered document sequence).ordinary ≤
      history.queue.ordinary := by
    apply le_of_eq
    apply List.countP_congr
    intro input hinput
    cases input with
    | Keyboard key =>
      have hother : (key.document, key.sequence) ≠ (document, sequence) := by
        intro hsame
        simp only [Prod.mk.injEq] at hsame
        exact hdelivered _ hinput hsame
      simp [PendingRendererInputs.noteDelivered, Keyboard.Reservations.delivered,
        Keyboard.Reservations.isReserved, hother]
    | _ => rfl
  exact h.update rfl rfl hordinary

theorem step {history' : History} {operation : Operation} (h : Invariant history)
    (hstep : history.Step operation history') : Invariant history' := by
  obtain ⟨⟨horderly, hdelivered⟩, rfl⟩ := hstep
  cases operation with
  | enqueue input => exact h.enqueue horderly
  | popFront => exact h.popFront
  | restoreFront input => exact h.restoreFront horderly
  | noteSent key => cases key <;> exact h.update rfl rfl le_rfl
  | noteScrollSent key => cases key <;> exact h.update rfl rfl le_rfl
  | acknowledgeScroll document sequence =>
    simp only [History.next, PendingRendererInputs.acknowledgeScroll]
    split <;> exact h.update rfl rfl le_rfl
  | acknowledgeMove result =>
    simp only [History.next, PendingRendererInputs.acknowledgeMove]
    split <;> exact h.update rfl rfl le_rfl
  | noteDelivered document sequence => exact h.noteDelivered hdelivered
  | fenceWheelCoalescing sequence => exact h.update rfl rfl le_rfl

theorem run {history' : History} {operations : List Operation} (h : Invariant history)
    (hrun : Run History.Step history operations history') : Invariant history' :=
  hrun.invariant Invariant h fun _ _ _ hinv hstep => hinv.step hstep

end Invariant

/-! ## Draining -/

namespace PendingRendererInputs

/-- The renderer acknowledges whatever is in flight. -/
private def acknowledged (pending : PendingRendererInputs) : PendingRendererInputs :=
  (pending.acknowledgeMove ⟨(pending.moveInFlight.getD (0, 0)).1,
      (pending.moveInFlight.getD (0, 0)).2⟩).acknowledgeScroll
    (pending.scrollInFlight.getD (0, 0)).1 (pending.scrollInFlight.getD (0, 0)).2

private theorem acknowledged_eq (pending : PendingRendererInputs) :
    pending.acknowledged = { pending with moveInFlight := none, scrollInFlight := none } := by
  obtain ⟨inputs, moveInFlight, scrollInFlight, keyboard, floor⟩ := pending
  cases moveInFlight <;> cases scrollInFlight <;>
    simp [acknowledged, acknowledgeMove, acknowledgeScroll]

end PendingRendererInputs

namespace History

private theorem pops_first (history : History) {input : DocumentInput} {inputs : List DocumentInput}
    (hinputs : history.queue.inputs = input :: inputs) :
    ∃ operations history', Run Step history operations history' ∧ history'.queue.inputs = inputs ∧
      history'.popped = history.popped ++ [input] ∧ history'.accepted = history.accepted := by
  let pending := history.queue
  let acknowledge : List Operation :=
    [.acknowledgeMove ⟨(pending.moveInFlight.getD (0, 0)).1, (pending.moveInFlight.getD (0, 0)).2⟩,
      .acknowledgeScroll (pending.scrollInFlight.getD (0, 0)).1
        (pending.scrollInFlight.getD (0, 0)).2]
  have hacknowledge : Run Step history acknowledge (history.update pending.acknowledged) :=
    ((Run.nil.snoc ⟨⟨trivial, trivial⟩, rfl⟩).snoc ⟨⟨trivial, trivial⟩, rfl⟩)
  have hpop : (history.update pending.acknowledged).Step .popFront
      ((history.update pending.acknowledged).next .popFront) := ⟨⟨trivial, trivial⟩, rfl⟩
  have hsend : (history.update pending.acknowledged).next .popFront =
      { history with
        queue := { pending with inputs := inputs, moveInFlight := none, scrollInFlight := none }
        popped := history.popped ++ [input]
        justPopped := some input } := by
    rw [PendingRendererInputs.acknowledged_eq]
    simp [next, update, PendingRendererInputs.popFront, PendingRendererInputs.canSend, pending,
      hinputs]
  rw [hsend] at hpop
  exact ⟨_, _, hacknowledge.snoc hpop, rfl, rfl, rfl⟩

theorem drains (history : History) :
    ∃ operations history', Run Step history operations history' ∧ history'.queue.inputs = [] ∧
      history'.popped = history.popped ++ history.queue.inputs ∧
      history'.accepted = history.accepted := by
  generalize hinputs : history.queue.inputs = inputs
  induction inputs generalizing history with
  | nil => exact ⟨[], history, .nil, hinputs, by simp, rfl⟩
  | cons input inputs ih =>
    obtain ⟨first, middle, hfirst, hmiddle, hpopped, haccepted⟩ := history.pops_first hinputs
    obtain ⟨rest, last, hrest, hempty, hpopped', haccepted'⟩ := ih middle hmiddle
    refine ⟨first ++ rest, last, hfirst.trans hrest, hempty, ?_, haccepted'.trans haccepted⟩
    rw [hpopped', hpopped, List.append_assoc]
    rfl

/-! ## No input is lost -/

/-- In every run of the queue, a refused input changes nothing and an accepted one is
accounted for. -/
theorem run_loses_nothing (operations : List Operation) (history : History)
    (hrun : Run Step {} operations history) : LosesNothing history := by
  have hinvariant := Invariant.init.run hrun
  exact
    { full_unchanged := fun _ hfull =>
        PendingRendererInputs.enqueue_full_unchanged hinvariant.capacity hfull
      accounts := hinvariant.accounts
      release := by
        rintro input document identity hpressed ⟨sequence, hkey⟩
        apply PendingRendererInputs.enqueue_release hkey
        simp [Keyboard.Reservations.owesRelease, hinvariant.held document identity hpressed]
      drains := history.drains }

private def sampleModifiers : InputModifiers := ⟨false, false, false, false⟩

private def sampleKey (phase : KeyPhase) (sequence : Nat) : DocumentInput :=
  .Keyboard ⟨7, sequence, phase, "a".toList, "KeyA".toList, false, sampleModifiers, none⟩

private def sampleWheel (sequence : Nat) : DocumentInput :=
  .Wheel ⟨7, sequence, 20, 20, 0, 126, 0, sampleModifiers, none⟩

private def sampleScroll (sequence : Nat) : DocumentInput := .Scroll ⟨7, sequence, 0, 40⟩

/-- A scroll, then a wheel that carries the newer position, then a second one. -/
theorem run_loses_nothing_sample :
    LosesNothing (([.enqueue (sampleScroll 1), .enqueue (sampleWheel 2),
      .enqueue (sampleWheel 3)] : List Operation).foldl next {}) := by
  apply run_loses_nothing [.enqueue (sampleScroll 1), .enqueue (sampleWheel 2),
    .enqueue (sampleWheel 3)]
  apply Run.guarded
  exact ⟨⟨Nat.zero_le _, trivial⟩, ⟨le_rfl, trivial⟩, ⟨le_rfl, trivial⟩, trivial⟩

private def sampleFocus (sequence : Nat) : DocumentInput := .Focus ⟨7, sequence, true, none⟩

/-- Eight ordinary inputs, a scroll the last of them, and a reserved release that is reported
delivered while it is still queued. -/
private def sampleOverrun : List Operation :=
  [.enqueue (sampleKey .Down 1), .enqueue (sampleKey .Up 2), .enqueue (sampleFocus 3),
    .enqueue (sampleFocus 4), .enqueue (sampleFocus 5), .enqueue (sampleFocus 6),
    .enqueue (sampleFocus 7), .enqueue (sampleFocus 8), .enqueue (sampleScroll 9),
    .noteDelivered 7 2]

/-- Unless deliveries are reported after the fact, a refused wheel can drop the scroll before
it. -/
theorem refused_wheel_drops_scroll :
    ¬ ∀ operations history, Run LooseStep {} operations history →
      ∀ input, (history.queue.enqueue input).1 = .Full →
        (history.queue.enqueue input).2 = history.queue := by
  intro hclaim
  have hrun : Run LooseStep {} sampleOverrun (sampleOverrun.foldl next {}) := by
    apply Run.guarded
    exact ⟨Nat.zero_le _, le_rfl, le_rfl, le_rfl, le_rfl, le_rfl, le_rfl, le_rfl, le_rfl, trivial,
      trivial⟩
  have hsame := hclaim sampleOverrun _ hrun (sampleWheel 10) (by decide +kernel)
  revert hsame
  decide +kernel

end History

end BetterWebBrowser.RendererInput
