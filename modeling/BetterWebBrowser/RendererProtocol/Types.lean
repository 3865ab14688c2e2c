import BetterWebBrowser.Framework.OrdMap
import BetterWebBrowser.Framework.Str
import Mathlib.Data.Rat.Defs
import Mathlib.Algebra.Order.Ring.Rat

/-!
# Values of the renderer protocol

Identifiers, errors and the finite single-precision numbers that pass the decoders, which
are taken as exact rationals.
-/

namespace BetterWebBrowser.RendererProtocol

open Framework

/-- What can go wrong with the stream under the protocol. -/
inductive StreamError
  | UnexpectedEof
deriving DecidableEq

inductive ProtocolError
  | Io (error : StreamError)
  | InvalidMagic
  | IncompatibleVersion (major minor : UInt16)
  | ReservedFlags (flags : UInt16)
  | PayloadTooLarge (length : UInt32)
  | WrongSession (expected actual : UInt64)
  | WrongSequence (expected actual : UInt64)
  | SequenceExhausted
  | UnexpectedMessage (kind : UInt16)
  | InvalidPayload (field : String)
  | InvalidUtf8
deriving DecidableEq

abbrev ProtocolResult (α : Type) := Except ProtocolError α

/-- A node of one document: a namespace and a local number, neither of them zero. -/
structure DocumentNodeId where
  get : Nat
  bound : get < 2 ^ 128
  namespace_ne_zero : get / 2 ^ 64 ≠ 0
  local_ne_zero : get % 2 ^ 64 ≠ 0
deriving DecidableEq

namespace DocumentNodeId

theorem get_injective : Function.Injective get := by
  intro a b h
  cases a
  cases b
  simp_all

instance : LinearOrder DocumentNodeId := LinearOrder.lift' get get_injective

end DocumentNodeId

/-- A single-precision number: its exact value, unless it is infinite or not a number. -/
inductive F32
  | Finite (value : ℚ)
  | NotFinite
deriving DecidableEq

/-- `(low..=high).contains(&number)` for a finite number. -/
def F32.isBetween (number : F32) (low high : ℚ) : Bool :=
  match number with
  | .Finite value => decide (low ≤ value ∧ value ≤ high)
  | .NotFinite => false

structure RectF where
  x : F32
  y : F32
  width : F32
  height : F32
deriving DecidableEq

end BetterWebBrowser.RendererProtocol
