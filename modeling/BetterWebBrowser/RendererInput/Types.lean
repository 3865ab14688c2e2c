import BetterWebBrowser.RendererProtocol.Types

/-!
# Native input for a document

The values the browser hands to a renderer. Coordinates and deltas have passed validation,
so they are finite; they are taken as exact rationals.
-/

namespace BetterWebBrowser.RendererInput

open Framework RendererProtocol

abbrev DocumentId := Nat

structure InputModifiers where
  alt : Bool
  control : Bool
  shift : Bool
  «meta» : Bool
deriving DecidableEq

inductive PointerPhase
  | Move
  /-- Relative motion while the cursor is captured. -/
  | LockedMove
  | Leave
  | Down
  | Up
  | Activate
deriving DecidableEq

inductive PointerButton
  | None
  | Primary
  | Middle
  | Secondary
deriving DecidableEq

structure PointerInput where
  document : DocumentId
  sequence : Nat
  phase : PointerPhase
  button : PointerButton
  buttons : UInt8
  x : ℚ
  y : ℚ
  modifiers : InputModifiers
  target : Option DocumentNodeId
deriving DecidableEq

structure PointerCursorResult where
  document : DocumentId
  sequence : Nat
deriving DecidableEq

inductive KeyPhase
  | Down
  | Up
deriving DecidableEq

structure KeyboardInput where
  document : DocumentId
  sequence : Nat
  phase : KeyPhase
  key : Str
  code : Str
  «repeat» : Bool
  modifiers : InputModifiers
  target : Option DocumentNodeId
deriving DecidableEq

structure FocusInput where
  document : DocumentId
  sequence : Nat
  focused : Bool
  target : Option DocumentNodeId
deriving DecidableEq

structure ScrollInput where
  document : DocumentId
  sequence : Nat
  x : ℚ
  y : ℚ
deriving DecidableEq

structure WheelInput where
  document : DocumentId
  sequence : Nat
  x : ℚ
  y : ℚ
  deltaX : ℚ
  deltaY : ℚ
  viewportY : ℚ
  modifiers : InputModifiers
  target : Option DocumentNodeId
deriving DecidableEq

structure TextInput where
  document : DocumentId
  sequence : Nat
  target : DocumentNodeId
  value : Str
  selectionStart : Nat
  selectionEnd : Nat
deriving DecidableEq

inductive TextEditIntent
  | InsertText
  | DeleteContentBackward
  | DeleteContentForward
  | Unspecified
deriving DecidableEq

structure NativeTextInput where
  text : TextInput
  generation : Nat
  intent : TextEditIntent
  preSelection : Option (Nat × Nat)
deriving DecidableEq

inductive TextSelectionDirection
  | None
  | Forward
  | Backward
deriving DecidableEq

structure TextSelectionInput where
  document : DocumentId
  sequence : Nat
  target : DocumentNodeId
  selectionStart : Nat
  selectionEnd : Nat
  direction : TextSelectionDirection
deriving DecidableEq

inductive DocumentLifecycle
  | Active
  | Hidden
  | Frozen
deriving DecidableEq

structure LifecycleInput where
  document : DocumentId
  sequence : Nat
  state : DocumentLifecycle
deriving DecidableEq

inductive ScrollRestorationMode
  | Auto
  | Manual
deriving DecidableEq

structure HistoryTraversalInput where
  document : DocumentId
  sequence : Nat
  url : Str
  state : Option Str
  historyLength : Nat
  historyIndex : Nat
  scrollRestoration : ScrollRestorationMode
  scrollY : Option ℚ
deriving DecidableEq

inductive DocumentInput
  | Wheel (input : WheelInput)
  | Pointer (input : PointerInput)
  | Keyboard (input : KeyboardInput)
  | Text (input : TextInput)
  | NativeText (input : NativeTextInput)
  | Selection (input : TextSelectionInput)
  | Focus (input : FocusInput)
  | Scroll (input : ScrollInput)
  | Lifecycle (input : LifecycleInput)
  | History (input : HistoryTraversalInput)
deriving DecidableEq

namespace DocumentInput

def document : DocumentInput → DocumentId
  | Wheel input => input.document
  | Pointer input => input.document
  | Keyboard input => input.document
  | Text input => input.document
  | NativeText input => input.text.document
  | Selection input => input.document
  | Focus input => input.document
  | Scroll input => input.document
  | Lifecycle input => input.document
  | History input => input.document

def sequence : DocumentInput → Nat
  | Wheel input => input.sequence
  | Pointer input => input.sequence
  | Keyboard input => input.sequence
  | Text input => input.sequence
  | NativeText input => input.text.sequence
  | Selection input => input.sequence
  | Focus input => input.sequence
  | Scroll input => input.sequence
  | Lifecycle input => input.sequence
  | History input => input.sequence

end DocumentInput

end BetterWebBrowser.RendererInput
