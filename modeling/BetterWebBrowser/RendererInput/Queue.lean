import BetterWebBrowser.Framework.Backlog
import BetterWebBrowser.RendererInput.Types
import Mathlib.Data.Finset.Insert
import Mathlib.Data.Finset.Card

/-!
# The queue of unsent native input

Input waits here while a renderer's command channel is busy. Continuous input is coalesced
before the capacity is checked; an accepted key press reserves room for its release. The
queue of the source is a deque: the list below has its front first.
-/

namespace BetterWebBrowser.RendererInput

open Framework RendererProtocol

/-! ## Key reservations -/

namespace Keyboard

def MAX_RESERVATIONS : Nat := 256

structure Admission where
  document : DocumentId
  sequence : Nat
  phase : KeyPhase
  identity : Str
deriving DecidableEq

def Admission.fromInput : DocumentInput → Option Admission
  | .Keyboard input => some
      { document := input.document
        sequence := input.sequence
        phase := input.phase
        identity := if input.code = "Unidentified".toList then input.key else input.code }
  | _ => none

structure Reservations where
  held : Finset (DocumentId × Str) := ∅
  queuedReleases : Finset (DocumentId × Nat) := ∅
deriving DecidableEq

namespace Reservations

def canAccept (reservations : Reservations) (key : Admission) : Bool :=
  key.phase = .Up || (key.document, key.identity) ∈ reservations.held ||
    reservations.held.card + reservations.queuedReleases.card < MAX_RESERVATIONS

def owesRelease (reservations : Reservations) (key : Admission) : Bool :=
  key.phase = .Up && (key.document, key.identity) ∈ reservations.held

def accepted (reservations : Reservations) (key : Admission) (queued : Bool) : Reservations :=
  let identity := (key.document, key.identity)
  match key.phase with
  | .Down => { reservations with held := insert identity reservations.held }
  | .Up =>
    { held := reservations.held.erase identity
      queuedReleases :=
        if identity ∈ reservations.held ∧ queued then
          insert (key.document, key.sequence) reservations.queuedReleases
        else reservations.queuedReleases }

def isReserved (reservations : Reservations) : DocumentInput → Bool
  | .Keyboard key =>
    key.phase = .Up && (key.document, key.sequence) ∈ reservations.queuedReleases
  | _ => false

def delivered (reservations : Reservations) (document : DocumentId) (sequence : Nat) :
    Reservations :=
  { reservations with
    queuedReleases := reservations.queuedReleases.erase (document, sequence) }

end Reservations

end Keyboard

/-! ## Wheels -/

namespace Wheel

def MAX_WHEEL_DELTA : ℚ := 16777216

def sameDirection (older newer : ℚ) : Bool :=
  decide (0 < older) == decide (0 < newer) && decide (older < 0) == decide (newer < 0)

def compatible (older newer : WheelInput) (floor : Nat) : Bool :=
  older.document = newer.document && floor ≤ older.sequence && older.sequence < newer.sequence &&
    older.modifiers = newer.modifiers && older.target = newer.target &&
    sameDirection older.deltaX newer.deltaX && sameDirection older.deltaY newer.deltaY

/-- Only absolute pointer moves and viewport positions may separate the two wheels. -/
def absorbs (newer : WheelInput) (floor : Nat) : DocumentInput → Scan
  | .Wheel older => if compatible older newer floor then .Found else .Stop
  | .Pointer pointer => if pointer.phase = .Move then .Pass else .Stop
  | .Scroll _ => .Pass
  | _ => .Stop

/-- `value.clamp(-bound, bound)`. -/
def clamp (bound value : ℚ) : ℚ := max (-bound) (min bound value)

def combined (older newer : ℚ) : ℚ := clamp MAX_WHEEL_DELTA (older + newer)

def merge (older newer : WheelInput) : WheelInput :=
  { newer with
    deltaX := combined older.deltaX newer.deltaX
    deltaY := combined older.deltaY newer.deltaY }

end Wheel

/-! ## Coalescing rules -/

def safelySupersedes : DocumentInput → DocumentInput → Bool
  | .Scroll newer, .Scroll pending => newer.document = pending.document
  | .Pointer newer, .Pointer pending =>
    newer.document = pending.document && newer.phase = .Move && pending.phase = .Move &&
      newer.buttons = pending.buttons && newer.modifiers = pending.modifiers &&
      newer.target = pending.target
  | .Text newer, .Text pending =>
    newer.document = pending.document && newer.target = pending.target
  | .Selection newer, .Selection pending =>
    newer.document = pending.document && newer.target = pending.target
  | _, _ => false

def isContinuous : DocumentInput → Bool
  | .Scroll _ => true
  | .Selection _ => true
  | .Pointer input => input.phase = .Move || input.phase = .LockedMove
  | _ => false

def pointerBarrier : DocumentInput → DocumentInput → Bool
  | .Pointer newer, .Pointer older =>
    newer.buttons ≠ older.buttons || newer.modifiers ≠ older.modifiers ||
      newer.target ≠ older.target || newer.phase ≠ older.phase
  | _, _ => false

def canCompactAcross : DocumentInput → DocumentInput → Bool
  | .Scroll newer, .Scroll pending => newer.document = pending.document
  | .Pointer newer, .Pointer pending =>
    newer.document = pending.document && newer.phase = .Move && pending.phase = .Move &&
      newer.buttons = pending.buttons && newer.modifiers = pending.modifiers &&
      newer.target = pending.target
  | .Selection newer, .Selection pending =>
    newer.document = pending.document && newer.target = pending.target
  | _, _ => false

/-- A newer value follows `older` in the run, with no barrier to it in between. -/
def superseded (older : DocumentInput) (following : List DocumentInput) : Bool :=
  match following.dropWhile fun newer => !canCompactAcross newer older with
  | [] => false
  | newer :: _ =>
    !(following.takeWhile fun newer => !canCompactAcross newer older).any (pointerBarrier newer)

/-- The loop of the source goes from the back: each value meets what is left after it. -/
def compactRun : List DocumentInput → List DocumentInput
  | [] => []
  | older :: following =>
    if superseded older (compactRun following) then compactRun following
    else older :: compactRun following

/-- Only the continuous run at the back is compacted. -/
def compactContinuousTail (inputs : List DocumentInput) : List DocumentInput :=
  inputs.rdropWhile isContinuous ++ compactRun (inputs.rtakeWhile isContinuous)

/-- A wheel carries the newer viewport position: the unsent one at the back goes. -/
def dropPassedScroll (input : DocumentInput) (inputs : List DocumentInput) :
    List DocumentInput :=
  match input, inputs.getLast? with
  | .Wheel wheel, some (.Scroll pending) =>
    if wheel.document = pending.document ∧ pending.x = 0 then inputs.dropLast else inputs
  | _, _ => inputs

/-- The wheel takes up an older one; the sequence of that one is returned. -/
def mergeWheel (input : DocumentInput) (inputs : List DocumentInput) (floor : Nat) :
    Option (Nat × List DocumentInput) :=
  match input with
  | .Wheel newer =>
    match searchBack (Wheel.absorbs newer floor) inputs with
    | some (before, .Wheel older, after) =>
      some (older.sequence,
        compactContinuousTail (before ++ after) ++ [.Wheel (Wheel.merge older newer)])
    | _ => none
  | _ => none

def MAX_LOCKED_MOVE : ℚ := 16777216

/-- Relative movement adds up: none of it may be lost. -/
def addMovement (previous newer : PointerInput) : PointerInput :=
  { previous with
    x := Wheel.clamp MAX_LOCKED_MOVE (previous.x + newer.x)
    y := Wheel.clamp MAX_LOCKED_MOVE (previous.y + newer.y)
    sequence := newer.sequence }

def addLockedMove (input : DocumentInput) (inputs : List DocumentInput) :
    Option (List DocumentInput) :=
  match input, inputs.getLast? with
  | .Pointer newer, some (.Pointer previous) =>
    if newer.phase = .LockedMove ∧ previous.phase = .LockedMove ∧
        newer.document = previous.document ∧ newer.target = previous.target ∧
        newer.buttons = previous.buttons ∧ newer.modifiers = previous.modifiers then
      some (inputs.dropLast ++ [.Pointer (addMovement previous newer)])
    else none
  | _, _ => none

def replaceBack (input : DocumentInput) (inputs : List DocumentInput) :
    Option (List DocumentInput) :=
  match inputs.getLast? with
  | some pending =>
    if safelySupersedes input pending then some (inputs.dropLast ++ [input]) else none
  | none => none

/-- Look for replaceable state in the continuous run at the back. -/
def compacts (input pending : DocumentInput) : Scan :=
  if !isContinuous pending then .Stop
  else if pointerBarrier input pending then .Stop
  else if canCompactAcross input pending then .Found
  else .Pass

def replaceInRun (input : DocumentInput) (inputs : List DocumentInput) :
    Option (List DocumentInput) :=
  match searchBack (compacts input) inputs with
  | some (before, _, after) => some (before ++ after ++ [input])
  | none => none

/-! ## The queue -/

def MAX_PENDING_RENDERER_INPUTS : Nat := 8

inductive QueueResult
  | Queued
  | Coalesced
  /-- The input absorbed this older unsent wheel. -/
  | WheelCoalesced (sequence : Nat)
  | Full
deriving DecidableEq

structure PendingRendererInputs where
  inputs : List DocumentInput := []
  moveInFlight : Option (DocumentId × Nat) := none
  scrollInFlight : Option (DocumentId × Nat) := none
  keyboard : Keyboard.Reservations := {}
  wheelCoalescingFloor : Nat := 0
deriving DecidableEq

namespace PendingRendererInputs

def canAcceptKeyboard (pending : PendingRendererInputs) (admission : Option Keyboard.Admission) :
    Bool :=
  admission.all pending.keyboard.canAccept

def noteDelivered (pending : PendingRendererInputs) (document : DocumentId) (sequence : Nat) :
    PendingRendererInputs :=
  { pending with keyboard := pending.keyboard.delivered document sequence }

def moveKey : DocumentInput → Option (DocumentId × Nat)
  | .Pointer input => if input.phase = .Move then some (input.document, input.sequence) else none
  | _ => none

def scrollKey : DocumentInput → Option (DocumentId × Nat)
  | .Scroll input => some (input.document, input.sequence)
  | _ => none

def canSend (pending : PendingRendererInputs) (input : DocumentInput) : Bool :=
  ((moveKey input).isNone || pending.moveInFlight.isNone) &&
    ((scrollKey input).isNone || pending.scrollInFlight.isNone)

def noteSent (pending : PendingRendererInputs) (key : Option (DocumentId × Nat)) :
    PendingRendererInputs :=
  match key with
  | some key => { pending with moveInFlight := some key }
  | none => pending

def noteScrollSent (pending : PendingRendererInputs) (key : Option (DocumentId × Nat)) :
    PendingRendererInputs :=
  match key with
  | some key => { pending with scrollInFlight := some key }
  | none => pending

def acknowledgeScroll (pending : PendingRendererInputs) (document : DocumentId) (sequence : Nat) :
    PendingRendererInputs :=
  if pending.scrollInFlight = some (document, sequence) then
    { pending with scrollInFlight := none }
  else pending

def acknowledgeMove (pending : PendingRendererInputs) (result : PointerCursorResult) :
    PendingRendererInputs :=
  if pending.moveInFlight = some (result.document, result.sequence) then
    { pending with moveInFlight := none }
  else pending

def fenceWheelCoalescing (pending : PendingRendererInputs) (sequence : Nat) :
    PendingRendererInputs :=
  { pending with wheelCoalescingFloor := max pending.wheelCoalescingFloor sequence }

/-- The queued inputs that count against the capacity. -/
def ordinary (pending : PendingRendererInputs) : Nat :=
  pending.inputs.countP fun input => !pending.keyboard.isReserved input

/-- The capacity check, after every coalescing rule has failed. -/
def checkCapacity (pending : PendingRendererInputs) (input : DocumentInput) :
    QueueResult × PendingRendererInputs :=
  let admission := Keyboard.Admission.fromInput input
  let reservedRelease := admission.any pending.keyboard.owesRelease
  if !pending.canAcceptKeyboard admission ||
      (!reservedRelease && MAX_PENDING_RENDERER_INPUTS ≤ pending.ordinary) then
    (.Full, pending)
  else
    (.Queued,
      { pending with
        keyboard := match admission with
          | some key => pending.keyboard.accepted key true
          | none => pending.keyboard
        inputs := pending.inputs ++ [input] })

def enqueue (pending : PendingRendererInputs) (input : DocumentInput) :
    QueueResult × PendingRendererInputs :=
  let inputs := dropPassedScroll input pending.inputs
  match mergeWheel input inputs pending.wheelCoalescingFloor with
  | some (sequence, inputs) => (.WheelCoalesced sequence, { pending with inputs := inputs })
  | none =>
    match addLockedMove input inputs with
    | some inputs => (.Coalesced, { pending with inputs := inputs })
    | none =>
      match replaceBack input inputs with
      | some inputs => (.Coalesced, { pending with inputs := inputs })
      | none =>
        match replaceInRun input inputs with
        | some inputs => (.Coalesced, { pending with inputs := inputs })
        | none => checkCapacity { pending with inputs := inputs } input

def popFront (pending : PendingRendererInputs) : Option DocumentInput × PendingRendererInputs :=
  match pending.inputs with
  | [] => (none, pending)
  | input :: inputs =>
    if pending.canSend input then (some input, { pending with inputs := inputs })
    else (none, pending)

def restoreFront (pending : PendingRendererInputs) (input : DocumentInput) :
    PendingRendererInputs :=
  { pending with inputs := input :: pending.inputs }

end PendingRendererInputs

end BetterWebBrowser.RendererInput
