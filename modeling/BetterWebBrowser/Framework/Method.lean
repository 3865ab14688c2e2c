import Mathlib.Logic.Basic

/-!
# Methods that may fail

A method changes its state as it goes, and what it has written stays when it then fails.
`Implements` says that a method does what a function describes, and that a failure leaves no
trace.
-/

namespace BetterWebBrowser.Framework

def Method (E S A : Type) := S → Except E A × S

namespace Method

variable {E S T A B : Type}

instance : Monad (Method E S) where
  pure value := fun state => (.ok value, state)
  bind method next := fun state =>
    match method state with
    | (.ok value, state) => next value state
    | (.error error, state) => (.error error, state)

/-- `self`, to look at. -/
def get : Method E S S := fun state => (.ok state, state)

/-- A write to `self`. -/
def modify (f : S → S) : Method E S Unit := fun state => (.ok (), f state)

/-- An early return. -/
def failIf (failed : Prop) [Decidable failed] (error : E) : Method E S Unit := fun state =>
  if failed then (.error error, state) else (.ok (), state)

/-- `result?` -/
def ofExcept (result : Except E A) : Method E S A := fun state => (result, state)

/-- A method of a field. -/
def field (get : S → T) (set : T → S → S) (method : Method E T A) : Method E S A := fun state =>
  match method (get state) with
  | (result, part) => (result, set part state)

@[simp] theorem run_pure (value : A) (state : S) :
    (pure value : Method E S A) state = (.ok value, state) := rfl

theorem run_bind (method : Method E S A) (next : A → Method E S B) (state : S) :
    (method >>= next) state =
      match method state with
      | (.ok value, after) => next value after
      | (.error error, after) => (.error error, after) := rfl

@[simp] theorem run_get_bind (next : S → Method E S A) (state : S) :
    (get >>= next) state = next state state := rfl

@[simp] theorem run_modify_bind (f : S → S) (next : Unit → Method E S A) (state : S) :
    (modify f >>= next) state = next () (f state) := rfl

@[simp] theorem run_failIf_bind (failed : Prop) [Decidable failed] (error : E)
    (next : Unit → Method E S A) (state : S) :
    (failIf failed error >>= next) state =
      if failed then (.error error, state) else next () state := by
  rw [run_bind, failIf]
  by_cases h : failed
  · simp only [if_pos h]
  · simp only [if_neg h]

@[simp] theorem run_ofExcept_bind (result : Except E A) (next : A → Method E S B) (state : S) :
    (ofExcept result >>= next) state =
      match result with
      | .ok value => next value state
      | .error error => (.error error, state) := by
  cases result <;> rfl

/-- The method does what the function says, all or nothing. -/
def Implements (method : Method E S A) (f : S → Except E (S × A)) : Prop :=
  ∀ state, method state =
    match f state with
    | .ok (after, value) => (.ok value, after)
    | .error error => (.error error, state)

/-- A method that fails has left no trace. -/
theorem Implements.state_of_error {method : Method E S A} {f : S → Except E (S × A)}
    (h : Implements method f) {state after : S} {error : E}
    (hrun : method state = (.error error, after)) : after = state := by
  rw [h state] at hrun
  cases hresult : f state with
  | ok pair =>
    rw [hresult] at hrun
    cases hrun
  | error found =>
    rw [hresult] at hrun
    exact (congrArg Prod.snd hrun).symm

/-- An invariant of the function is one of the method, however it ends. -/
theorem Implements.invariant {method : Method E S A} {f : S → Except E (S × A)}
    (h : Implements method f) {I : S → Prop} {state : S} (hstate : I state)
    (hok : ∀ after value, f state = .ok (after, value) → I after) : I (method state).2 := by
  rw [h state]
  cases hresult : f state with
  | ok pair => exact hok pair.1 pair.2 hresult
  | error error => exact hstate

/-- A method of a field, and what follows it. -/
theorem Implements.run_field_bind {method : Method E T A} {f : T → Except E (T × A)}
    (h : Implements method f) (get : S → T) (set : T → S → S)
    (hset : ∀ state, set (get state) state = state) (next : A → Method E S B) (state : S) :
    (field get set method >>= next) state =
      match f (get state) with
      | .ok (part, value) => next value (set part state)
      | .error error => (.error error, state) := by
  rw [run_bind, field, h (get state)]
  cases f (get state) with
  | ok pair => rfl
  | error error => simp only [hset]

end Method

end BetterWebBrowser.Framework
