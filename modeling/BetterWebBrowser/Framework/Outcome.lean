import Mathlib.Data.List.Basic
import Mathlib.Algebra.Ring.Int.Defs
import Mathlib.Data.Nat.Cast.Basic

/-!
# Fallible functions

What a successful chain of fallible functions says about its links.
-/

namespace BetterWebBrowser.Framework

variable {Error A B : Type}

theorem bind_eq_ok {first : Except Error A} {next : A → Except Error B} {result : B} :
    first >>= next = .ok result ↔ ∃ value, first = .ok value ∧ next value = .ok result := by
  cases first with
  | error error =>
    constructor
    · intro h
      cases h
    · rintro ⟨value, hvalue, -⟩
      cases hvalue
  | ok value =>
    constructor
    · intro h
      exact ⟨value, rfl, h⟩
    · rintro ⟨other, hother, h⟩
      cases hother
      exact h

theorem mapError_eq_ok {Fault : Type} {first : Except Error A} {wrap : Error → Fault} {value : A} :
    first.mapError wrap = .ok value ↔ first = .ok value := by
  cases first with
  | error error =>
    constructor
    · intro h
      cases h
    · intro h
      cases h
  | ok found =>
    constructor
    · intro h
      exact congrArg _ (Except.ok.inj h)
    · intro h
      exact congrArg _ (Except.ok.inj h)

/-- An early return. -/
def failIf (failed : Prop) [Decidable failed] (error : Error) : Except Error Unit :=
  if failed then .error error else .ok ()

theorem failIf_bind_eq_ok {failed : Prop} [Decidable failed] {error : Error}
    {next : Unit → Except Error B} {result : B} :
    failIf failed error >>= next = .ok result ↔ ¬ failed ∧ next () = .ok result := by
  rw [failIf]
  by_cases hfailed : failed
  · rw [if_pos hfailed]
    constructor
    · intro h
      cases h
    · intro h
      exact absurd hfailed h.1
  · rw [if_neg hfailed]
    exact ⟨fun h => ⟨hfailed, h⟩, And.right⟩

/-- The result is this value under the condition, and an error otherwise. -/
def Yields (result : Except Error A) (Valid : Prop) (value : A) : Prop :=
  ∀ found, result = .ok found ↔ Valid ∧ found = value

namespace Yields

theorem pure (value : A) : Yields (Pure.pure value : Except Error A) True value := by
  intro found
  constructor
  · intro h
    exact ⟨trivial, (Except.ok.inj h).symm⟩
  · rintro ⟨-, rfl⟩
    rfl

theorem bind {first : Except Error A} {next : A → Except Error B} {Valid More : Prop} {value : A}
    {result : B} (h : Yields first Valid value) (hnext : Yields (next value) More result) :
    Yields (first >>= next) (Valid ∧ More) result := by
  intro found
  rw [bind_eq_ok]
  constructor
  · rintro ⟨middle, hmiddle, hfound⟩
    obtain ⟨hvalid, rfl⟩ := (h middle).mp hmiddle
    obtain ⟨hmore, rfl⟩ := (hnext found).mp hfound
    exact ⟨⟨hvalid, hmore⟩, rfl⟩
  · rintro ⟨⟨hvalid, hmore⟩, rfl⟩
    exact ⟨value, (h value).mpr ⟨hvalid, rfl⟩, (hnext found).mpr ⟨hmore, rfl⟩⟩

theorem failIf {failed : Prop} [Decidable failed] {error : Error} {next : Unit → Except Error A}
    {More : Prop} {result : A} (hnext : Yields (next ()) More result) :
    Yields (Framework.failIf failed error >>= next) (¬ failed ∧ More) result := by
  intro found
  rw [failIf_bind_eq_ok, hnext found, and_assoc]

theorem congr {result : Except Error A} {Valid Other : Prop} {value : A}
    (h : Yields result Valid value) (hvalid : Valid ↔ Other) : Yields result Other value := by
  intro found
  rw [h found, hvalid]

end Yields

/-- What every link of a fold keeps, the fold keeps. -/
theorem foldlM_invariant {I : B → Prop} {f : B → A → Except Error B}
    (hstep : ∀ before item after, I before → f before item = .ok after → I after)
    {items : List A} {before after : B} (hbefore : I before)
    (h : items.foldlM f before = .ok after) : I after := by
  induction items generalizing before with
  | nil =>
    cases h
    exact hbefore
  | cons item items ih =>
    rw [List.foldlM_cons] at h
    obtain ⟨middle, hmiddle, hrest⟩ := bind_eq_ok.mp h
    exact ih (hstep _ _ _ hbefore hmiddle) hrest

end BetterWebBrowser.Framework
