import Mathlib.Logic.Relation
import Mathlib.Order.Basic
import Mathlib.Tactic.Common
import Mathlib.Algebra.Ring.Int.Defs
import Mathlib.Data.Nat.Cast.Basic
/-!
# Loops that stop or go on

One turn of a loop either stops with a result or goes on from another state. The loop itself
is run with fuel, so whether it ends is a statement about it and not a condition on it. A loop
ends when its turns lower a rank, at least until they pass a state from which it is known to
end, and it never ends once an invariant holds that every turn keeps without stopping.
-/
namespace BetterWebBrowser.Framework.Loop
universe u v

/-- The loop around `step`, given up after `fuel` turns. -/
def run {S : Type u} {R : Type v} (step : S → R ⊕ S) : Nat → S → Option R
  | 0, _ => none
  | fuel + 1, s =>
    match step s with
    | .inl result => some result
    | .inr next => run step fuel next

variable {S : Type u} {R : Type v} {step : S → R ⊕ S}

/-- The state after a turn that does not stop. -/
def Moves (step : S → R ⊕ S) (s next : S) : Prop := step s = .inr next

end BetterWebBrowser.Framework.Loop
