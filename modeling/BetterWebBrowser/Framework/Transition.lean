import Mathlib.Data.List.Induction
import Mathlib.Algebra.Ring.Int.Defs
import Mathlib.Data.Nat.Cast.Basic

/-!
# Runs of a labelled transition relation

A run is the list of labels taken from a start state. An invariant of the steps is an
invariant of every run, and so is a relation between the labels taken so far and the
state they lead to.
-/

namespace BetterWebBrowser.Framework

variable {State Label : Type*}

/-- `Run step s labels t`: the labels lead from `s` to `t`. The last label is taken last. -/
inductive Run (step : State → Label → State → Prop) (s : State) : List Label → State → Prop
  | nil : Run step s [] s
  | snoc {labels : List Label} {t u : State} {label : Label} :
      Run step s labels t → step t label u → Run step s (labels ++ [label]) u

namespace Run

variable {step : State → Label → State → Prop} {s t u : State}

/-- An invariant kept by every step holds after every run. -/
theorem invariant (inv : State → Prop) (hinit : inv s)
    (hstep : ∀ t label u, inv t → step t label u → inv u)
    {labels : List Label} (h : Run step s labels t) : inv t := by
  induction h with
  | nil => exact hinit
  | snoc _ hlast ih => exact hstep _ _ _ ih hlast

/-- The same for an invariant that also reads the labels taken so far. -/
theorem historyInvariant (inv : List Label → State → Prop) (hinit : inv [] s)
    (hstep : ∀ labels t label u, inv labels t → step t label u → inv (labels ++ [label]) u)
    {labels : List Label} (h : Run step s labels t) : inv labels t := by
  induction h with
  | nil => exact hinit
  | snoc _ hlast ih => exact hstep _ _ _ _ ih hlast

theorem trans {first second : List Label} (h : Run step s first t) (h' : Run step t second u) :
    Run step s (first ++ second) u := by
  induction h' with
  | nil => simpa using h
  | snoc _ hlast ih =>
    rw [← List.append_assoc]
    exact ih.snoc hlast

/-- The run of a deterministic step. -/
theorem foldl (f : State → Label → State) (s : State) (labels : List Label) :
    Run (fun s label t => t = f s label) s labels (labels.foldl f s) := by
  induction labels using List.reverseRecOn with
  | nil => exact nil
  | append_singleton labels label ih =>
    rw [List.foldl_append]
    exact ih.snoc rfl

/-- Along the labels every step is allowed. -/
def Allowed (guard : State → Label → Prop) (f : State → Label → State) : State → List Label → Prop
  | _, [] => True
  | s, label :: labels => guard s label ∧ Allowed guard f (f s label) labels

/-- The run of a deterministic step under a guard. -/
theorem guarded {guard : State → Label → Prop} {f : State → Label → State} {labels : List Label}
    (h : Allowed guard f s labels) :
    Run (fun s label t => guard s label ∧ t = f s label) s labels (labels.foldl f s) := by
  induction labels generalizing s with
  | nil => exact nil
  | cons label labels ih =>
    have hfirst : Run (fun s label t => guard s label ∧ t = f s label) s [label] (f s label) :=
      nil.snoc ⟨h.1, rfl⟩
    exact hfirst.trans (ih h.2)

/-- The last step of a run. -/
theorem last {labels : List Label} {label : Label} (h : Run step s (labels ++ [label]) u) :
    ∃ t, Run step s labels t ∧ step t label u := by
  generalize hl : labels ++ [label] = all at h
  cases h with
  | nil => simp at hl
  | snoc hrun hlast =>
    obtain ⟨hlabels, hlabel⟩ := List.append_inj' hl rfl
    rw [List.cons.injEq] at hlabel
    rw [hlabels, hlabel.1]
    exact ⟨_, hrun, hlast⟩

end Run

end BetterWebBrowser.Framework
