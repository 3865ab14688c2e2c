import BetterWebBrowser.Framework.Observation

/-!
# Where a method ends

`Ends` says what holds after a method has run from a state, whether it returned or failed. It is
computed from the parts of the method; `Keeps` says that a property outlasts the method either way.
-/

namespace BetterWebBrowser.Framework.Method

variable {E S A B : Type}

/-- After a run from this state: `Q` of what it returns and leaves, `R` of what it leaves when it fails. -/
def Ends (method : Method E S A) (state : S) (Q : A → S → Prop) (R : S → Prop) : Prop :=
  match method state with
  | (.ok value, after) => Q value after
  | (.error _, after) => R after

/-- The property holds after the method if it did before. -/
def Keeps (I : S → Prop) (method : Method E S A) : Prop := ∀ state, I state → Ends method state (fun _ => I) I

variable {Q : A → S → Prop} {R : S → Prop} {state : S}

@[simp] theorem ends_pure {value : A} : Ends (pure value : Method E S A) state Q R ↔ Q value state := Iff.rfl

theorem ends_bind {method : Method E S A} {next : A → Method E S B} {Q : B → S → Prop} :
    Ends (method >>= next) state Q R ↔ Ends method state (fun value after => Ends (next value) after Q R) R := by
  rw [Ends, run_bind, Ends]
  cases method state with
  | mk outcome after =>
    cases outcome with
    | ok value => exact Iff.rfl
    | error error => exact Iff.rfl

@[simp] theorem ends_get_bind {next : S → Method E S B} {Q : B → S → Prop} :
    Ends (get >>= next) state Q R ↔ Ends (next state) state Q R := Iff.rfl

@[simp] theorem ends_modify {f : S → S} {Q : Unit → S → Prop} :
    Ends (modify f : Method E S Unit) state Q R ↔ Q () (f state) := Iff.rfl

@[simp] theorem ends_modify_bind {f : S → S} {next : Unit → Method E S B} {Q : B → S → Prop} :
    Ends (modify f >>= next) state Q R ↔ Ends (next ()) (f state) Q R := Iff.rfl

/-- A check that passes is known to have passed afterwards. -/
theorem ends_read {check : S → Except E A} (h : R state) (hok : ∀ value, check state = .ok value → Q value state) :
    Ends (read check) state Q R := by
  rw [Ends, read]
  cases hcheck : check state with
  | ok value => exact hok value hcheck
  | error error => exact h

theorem ends_read_bind {check : S → Except E A} {next : A → Method E S B} {Q : B → S → Prop} (h : R state)
    (hok : ∀ value, check state = .ok value → Ends (next value) state Q R) :
    Ends (read check >>= next) state Q R :=
  ends_bind.mpr (ends_read h hok)

theorem ends_ofExcept {result : Except E A} (h : R state) (hok : ∀ value, result = .ok value → Q value state) :
    Ends (ofExcept result) state Q R := ends_read h hok

theorem ends_ofExcept_bind {result : Except E A} {next : A → Method E S B} {Q : B → S → Prop} (h : R state)
    (hok : ∀ value, result = .ok value → Ends (next value) state Q R) :
    Ends (ofExcept result >>= next) state Q R := ends_read_bind h hok

theorem ends_failIf_bind {failed : Prop} [Decidable failed] {error : E} {next : Unit → Method E S B}
    {Q : B → S → Prop} (h : R state) (hok : ¬failed → Ends (next ()) state Q R) :
    Ends (failIf failed error >>= next) state Q R := by
  rw [Ends, run_failIf_bind]
  by_cases hfailed : failed
  · rw [if_pos hfailed]
    exact h
  · rw [if_neg hfailed]
    exact hok hfailed

theorem ends_onlyIf {condition : Prop} [Decidable condition] {method : Method E S Unit} {Q : Unit → S → Prop}
    (hyes : condition → Ends method state Q R) (hno : ¬condition → Q () state) :
    Ends (onlyIf condition method) state Q R := by
  rw [onlyIf]
  by_cases hcondition : condition
  · rw [if_pos hcondition]
    exact hyes hcondition
  · rw [if_neg hcondition]
    exact hno hcondition

theorem ends_ite {condition : Prop} [Decidable condition] {method other : Method E S A}
    (hyes : condition → Ends method state Q R) (hno : ¬condition → Ends other state Q R) :
    Ends (if condition then method else other) state Q R := by
  by_cases hcondition : condition
  · rw [if_pos hcondition]
    exact hyes hcondition
  · rw [if_neg hcondition]
    exact hno hcondition

/-- Less may be asked. -/
theorem Ends.mono {method : Method E S A} {Q' : A → S → Prop} {R' : S → Prop} (h : Ends method state Q R)
    (hQ : ∀ value after, Q value after → Q' value after) (hR : ∀ after, R after → R' after) :
    Ends method state Q' R' := by
  rw [Ends] at h ⊢
  cases hrun : method state with
  | mk outcome after =>
    rw [hrun] at h
    cases outcome with
    | ok value => exact hQ value after h
    | error error => exact hR after h

/-- Two things that hold of one run. -/
theorem Ends.and {method : Method E S A} {Q' : A → S → Prop} {R' : S → Prop} (h : Ends method state Q R)
    (h' : Ends method state Q' R') :
    Ends method state (fun value after => Q value after ∧ Q' value after) (fun after => R after ∧ R' after) := by
  rw [Ends] at h h' ⊢
  cases hrun : method state with
  | mk outcome after =>
    rw [hrun] at h h'
    cases outcome with
    | ok value => exact ⟨h, h'⟩
    | error error => exact ⟨h, h'⟩

/-- How a run may end. -/
theorem Ends.run {method : Method E S A} (h : Ends method state Q R) {outcome : Except E A} {after : S}
    (hrun : method state = (outcome, after)) :
    (∃ value, outcome = .ok value ∧ Q value after) ∨ ∃ error, outcome = .error error ∧ R after := by
  rw [Ends, hrun] at h
  cases outcome with
  | ok value => exact .inl ⟨value, rfl, h⟩
  | error error => exact .inr ⟨error, rfl, h⟩

/-- What holds of a run holds of the state it leaves. -/
theorem Ends.after {method : Method E S A} (h : Ends method state (fun _ => R) R) : R (method state).2 := by
  rw [Ends] at h
  cases hrun : method state with
  | mk outcome after =>
    rw [hrun] at h
    cases outcome with
    | ok value => exact h
    | error error => exact h

namespace Keeps

variable {I : S → Prop}

theorem pure (value : A) : Keeps I (Pure.pure value : Method E S A) := fun _ h => h

theorem bind {method : Method E S A} {next : A → Method E S B} (h : Keeps I method) (hnext : ∀ value, Keeps I (next value)) :
    Keeps I (method >>= next) :=
  fun state hstate => Method.ends_bind.mpr ((h state hstate).mono (fun value after hafter => hnext value after hafter)
    fun _ hafter => hafter)

/-- A method that keeps the property, and what ends well after it. -/
theorem ends_bind {method : Method E S A} {next : A → Method E S B} {Q : B → S → Prop} {state : S} (h : Keeps I method)
    (hstate : I state) (hnext : ∀ value after, I after → Ends (next value) after Q I) :
    Ends (method >>= next) state Q I :=
  Method.ends_bind.mpr ((h state hstate).mono (fun value after hafter => hnext value after hafter) fun _ hafter => hafter)

theorem get_bind {next : S → Method E S B} (h : ∀ state, I state → Ends (next state) state (fun _ => I) I) :
    Keeps I (get >>= next) := fun state hstate => h state hstate

theorem modify {f : S → S} (h : ∀ state, I state → I (f state)) : Keeps I (Method.modify f : Method E S Unit) := h

theorem read (check : S → Except E A) : Keeps I (Method.read check) := fun _ h => ends_read h fun _ _ => h

theorem ofExcept (result : Except E A) : Keeps I (Method.ofExcept result) := fun _ h => ends_ofExcept h fun _ _ => h

theorem failIf (failed : Prop) [Decidable failed] (error : E) : Keeps I (Method.failIf failed error) := by
  intro state h
  rw [Ends, Method.failIf]
  by_cases hfailed : failed
  · rw [if_pos hfailed]
    exact h
  · rw [if_neg hfailed]
    exact h

theorem onlyIf {condition : Prop} [Decidable condition] {method : Method E S Unit} (h : Keeps I method) :
    Keeps I (Method.onlyIf condition method) :=
  fun state hstate => ends_onlyIf (fun _ => h state hstate) fun _ => hstate

theorem ite {condition : Prop} [Decidable condition] {method other : Method E S A} (h : Keeps I method)
    (hother : Keeps I other) : Keeps I (if condition then method else other) :=
  fun state hstate => ends_ite (fun _ => h state hstate) fun _ => hother state hstate

theorem after {method : Method E S A} (h : Keeps I method) {state : S} (hstate : I state) : I (method state).2 :=
  (h state hstate).after

end Keeps

end BetterWebBrowser.Framework.Method
