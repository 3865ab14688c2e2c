import Mathlib.Logic.Basic
import Mathlib.Data.List.Basic

/-!
# Programs of fallible calls

A program over a state makes calls that either happen completely or fail without effect, and
the process may stop before any of them. `Safe` says that an invariant holds at every point
where a run can end.
-/

namespace BetterWebBrowser.Framework

/-- Calls, tests that only look at the state, and a result. -/
inductive Program (D E R : Type*)
  | done (result : R)
  | test (query : D → Bool) (next : Bool → Program D E R)
  | call (effect : D → Except E D) (next : Except E Unit → Program D E R)

/-- What becomes of the next call. -/
inductive Fate (E : Type*)
  | performs
  | fails (error : E)

namespace Program

variable {D E R : Type*}

/-- A call whose error ends the program. -/
def orReturn {A : Type*} (effect : D → Except E D) (next : Program D E (Except E A)) :
    Program D E (Except E A) :=
  .call effect fun
    | .ok () => next
    | .error error => .done (.error error)

/-- The state and the result, if any, when the process stops at the end of `fates`. -/
def run : Program D E R → List (Fate E) → D → D × Option R
  | .done result, _, state => (state, some result)
  | .test query next, fates, state => (next (query state)).run fates state
  | .call _ _, [], state => (state, none)
  | .call effect next, .performs :: fates, state =>
    match effect state with
    | .ok state' => (next (.ok ())).run fates state'
    | .error error => (next (.error error)).run fates state
  | .call _ next, .fails error :: fates, state => (next (.error error)).run fates state

/-- The invariant holds wherever a run from this state can end. -/
def Safe (I : D → Prop) : Program D E R → D → Prop
  | .done _, state => I state
  | .test query next, state => (next (query state)).Safe I state
  | .call effect next, state =>
    I state ∧ (∀ error, (next (.error error)).Safe I state) ∧
      ∀ state', effect state = .ok state' → (next (.ok ())).Safe I state'

theorem Safe.here {I : D → Prop} {program : Program D E R} {state : D}
    (h : program.Safe I state) : I state := by
  induction program generalizing state with
  | done result => exact h
  | test query next ih => exact ih _ h
  | call effect next ih => exact h.1

/-- A returning run of a call whose error ends the program: the call failed, or the rest ran. -/
theorem run_orReturn_cases {A : Type*} {effect : D → Except E D} {next : Program D E (Except E A)}
    {fates : List (Fate E)} {state final : D} {result : Except E A}
    (h : (Program.orReturn effect next).run fates state = (final, some result)) :
    (final = state ∧ ∃ error, result = .error error) ∨
      ∃ state' rest, effect state = .ok state' ∧ next.run rest state' = (final, some result) := by
  cases fates with
  | nil => cases h
  | cons fate fates =>
    cases fate with
    | fails error =>
      cases h
      exact Or.inl ⟨rfl, error, rfl⟩
    | performs =>
      rw [orReturn, run] at h
      cases heffect : effect state with
      | error error =>
        rw [heffect] at h
        cases h
        exact Or.inl ⟨rfl, error, rfl⟩
      | ok state' =>
        rw [heffect] at h
        exact Or.inr ⟨state', fates, rfl, h⟩

/-- Safety is the invariant at the end of every run, however it is cut short. -/
theorem safe_iff (I : D → Prop) (program : Program D E R) (state : D) :
    program.Safe I state ↔ ∀ fates, I (program.run fates state).1 := by
  induction program generalizing state with
  | done result => exact ⟨fun h _ => h, fun h => h []⟩
  | test query next ih => exact ih (query state) state
  | call effect next ih =>
    constructor
    · intro h fates
      match fates with
      | [] => exact h.1
      | .fails error :: fates => exact (ih (.error error) state).mp (h.2.1 error) fates
      | .performs :: fates =>
        rw [run]
        cases heffect : effect state with
        | ok state' => exact (ih (.ok ()) state').mp (h.2.2 state' heffect) fates
        | error error => exact (ih (.error error) state).mp (h.2.1 error) fates
    · intro h
      refine ⟨h [], ?_, ?_⟩
      · intro error
        exact (ih (.error error) state).mpr fun fates => h (.fails error :: fates)
      · intro state' heffect
        apply (ih (.ok ()) state').mpr
        intro fates
        have hrun := h (.performs :: fates)
        rw [run, heffect] at hrun
        exact hrun

/-- A call whose error ends the program keeps an invariant that its effect keeps. -/
theorem Safe.orReturn {A : Type*} {I : D → Prop} {effect : D → Except E D}
    {next : Program D E (Except E A)} {state : D} (hhere : I state)
    (hnext : ∀ state', effect state = .ok state' → next.Safe I state') :
    (Program.orReturn effect next).Safe I state :=
  ⟨hhere, fun _ => hhere, hnext⟩

end Program

end BetterWebBrowser.Framework
