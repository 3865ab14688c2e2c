import BetterWebBrowser.Framework.Checked
import BetterWebBrowser.Framework.Outcome

/-!
# Functions with checked and plain arithmetic

A checked operation that fails is an error which is returned; a plain one that overflows is a panic.
`Runs` says that a function does not panic, and what it returns.
-/

namespace BetterWebBrowser.Framework

variable {E A B : Type} {P : A → Prop} {Q : B → Prop}

/-- A signed word of this width. -/
def signedWord (bits : Nat) (value : Int) : Option Int :=
  if -2 ^ (bits - 1) ≤ value ∧ value < 2 ^ (bits - 1) then some value else none

/-- The values of `i64`. -/
def IsI64 (value : Int) : Prop := -2 ^ 63 ≤ value ∧ value < 2 ^ 63

/-- An unsigned word of this width. -/
def unsignedWord (bits value : Nat) : Option Nat := if value < 2 ^ bits then some value else none

/-- `option.ok_or(error)?` -/
def orError (error : E) : Option A → Except (Fault E) A
  | some value => .ok value
  | none => .error (.Returned error)

/-- The value of a plain operator. -/
def orPanic : Option A → Except (Fault E) A
  | some value => .ok value
  | none => .error .Panicked

@[simp] theorem orError_some (error : E) (value : A) : orError error (some value) = .ok value := rfl

@[simp] theorem orPanic_some (value : A) : orPanic (some value) = (.ok value : Except (Fault E) A) := rfl

theorem orError_eq_ok {error : E} {option : Option A} {value : A} : orError error option = .ok value ↔ option = some value := by
  cases option with
  | none =>
    constructor
    · intro h
      cases h
    · intro h
      cases h
  | some found => exact ⟨fun h => congrArg some (Except.ok.inj h), fun h => congrArg _ (Option.some.inj h)⟩

theorem orPanic_eq_ok {option : Option A} {value : A} :
    (orPanic option : Except (Fault E) A) = .ok value ↔ option = some value := by
  cases option with
  | none =>
    constructor
    · intro h
      cases h
    · intro h
      cases h
  | some found => exact ⟨fun h => congrArg some (Except.ok.inj h), fun h => congrArg _ (Option.some.inj h)⟩

@[simp] theorem ok_bind (value : A) (next : A → Except E B) : (.ok value >>= next) = next value := rfl

theorem failIf_passed {failed : Prop} [Decidable failed] {error : E} (h : ¬failed) : failIf failed error = .ok () := if_neg h

/-- There is no panic, and a value has the property. -/
inductive Runs : Except (Fault E) A → (A → Prop) → Prop
  | pure {value : A} {P : A → Prop} : P value → Runs (.ok value) P
  | returned (error : E) {P : A → Prop} : Runs (.error (.Returned error)) P

namespace Runs

theorem bind {first : Except (Fault E) A} {next : A → Except (Fault E) B} (h : Runs first P)
    (hnext : ∀ value, P value → Runs (next value) Q) : Runs (first >>= next) Q := by
  cases h with
  | pure hvalue => exact hnext _ hvalue
  | returned error => exact .returned error

theorem of_ok {outcome : Except (Fault E) A} {value : A} (h : Runs outcome P) (hok : outcome = .ok value) : P value := by
  subst hok
  cases h with
  | pure hvalue => exact hvalue

theorem not_panicked {outcome : Except (Fault E) A} (h : Runs outcome P) : outcome ≠ .error .Panicked := by
  intro hpanicked
  subst hpanicked
  cases h

theorem mono {outcome : Except (Fault E) A} {P' : A → Prop} (h : Runs outcome P) (himp : ∀ value, P value → P' value) :
    Runs outcome P' := by
  cases h with
  | pure hvalue => exact .pure (himp _ hvalue)
  | returned error => exact .returned error

theorem orError {error : E} {option : Option A} (h : ∀ value, option = some value → P value) :
    Runs (orError error option) P := by
  cases option with
  | none => exact .returned error
  | some value => exact .pure (h value rfl)

theorem orPanic {option : Option A} {value : A} (hsome : option = some value) (h : P value) :
    Runs (orPanic option : Except (Fault E) A) P := by
  subst hsome
  exact .pure h

/-- An error of another function is returned. -/
theorem mapError {outcome : Except E A} {F : Type} {wrap : E → F} :
    Runs (outcome.mapError fun error => Fault.Returned (wrap error)) fun _ => True := by
  cases outcome with
  | ok value => exact .pure trivial
  | error error => exact .returned (wrap error)

theorem failIf {failed : Prop} [Decidable failed] {error : E} :
    Runs (failIf failed (.Returned error)) fun _ => ¬failed := by
  rw [Framework.failIf]
  split
  · exact .returned error
  · rename_i hpassed
    exact .pure hpassed

end Runs

theorem signedWord_some {bits : Nat} {value word : Int} (h : signedWord bits value = some word) :
    word = value ∧ -2 ^ (bits - 1) ≤ word ∧ word < 2 ^ (bits - 1) := by
  rw [signedWord] at h
  split at h
  · rename_i hfits
    cases h
    exact ⟨rfl, hfits⟩
  · cases h

theorem signedWord_i64 {value word : Int} (h : signedWord 64 value = some word) : word = value ∧ IsI64 word :=
  signedWord_some h

theorem signedWord_of_i64 {value : Int} (h : IsI64 value) : signedWord 64 value = some value := if_pos h

theorem signedWord_of_fits {bits : Nat} {value : Int} (h : -2 ^ (bits - 1) ≤ value ∧ value < 2 ^ (bits - 1)) :
    signedWord bits value = some value := if_pos h

theorem unsignedWord_of_lt {bits value : Nat} (h : value < 2 ^ bits) : unsignedWord bits value = some value := if_pos h

end BetterWebBrowser.Framework
