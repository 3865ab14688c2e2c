import Mathlib.Data.List.Basic
import Mathlib.Algebra.Ring.Int.Defs
import Mathlib.Data.Nat.Cast.Basic

/-!
# Inputs that are consumed in other units

Inputs of several units each come one after the other, and units are taken from the front. The
queue holds the inputs that are not used up, the first of them with what was taken of it.
-/

namespace BetterWebBrowser.Framework.InputQueue

variable {ι α : Type*} (size : ι → Nat)

/-- The units of all inputs. -/
def total (inputs : List ι) : Nat := (inputs.map size).sum

/-- What is left of the inputs after some units. -/
def retained : List ι → Nat → List (ι × Nat)
  | [], _ => []
  | input :: rest, taken =>
    if size input ≤ taken then retained rest (taken - size input) else (input, taken) :: rest.map fun other => (other, 0)

/-- The input that a unit is in, and its place there. -/
def locate : List ι → Nat → Option (ι × Nat)
  | [], _ => none
  | input :: rest, unit => if unit < size input then some (input, unit) else locate rest (unit - size input)

/-- Take units from the front and drop the inputs that are used up. -/
def consume : List (ι × Nat) → Nat → Option (List (ι × Nat))
  | queue, 0 => some queue
  | [], _ + 1 => none
  | (input, consumed) :: rest, remaining + 1 =>
    let take := min (remaining + 1) (size input - consumed)
    if consumed + take = size input then consume rest (remaining + 1 - take)
    else some ((input, consumed + take) :: rest)

variable {size} {inputs : List ι} {input : ι} {taken count unit : Nat}

@[simp] theorem total_nil : total size ([] : List ι) = 0 := rfl

@[simp] theorem total_cons (input : ι) (inputs : List ι) : total size (input :: inputs) = size input + total size inputs := by
  simp [total]

@[simp] theorem total_append (first second : List ι) :
    total size (first ++ second) = total size first + total size second := by
  simp [total]

theorem retained_zero (h : ∀ input ∈ inputs, 0 < size input) :
    retained size inputs 0 = inputs.map fun input => (input, 0) := by
  cases inputs with
  | nil => rfl
  | cons input rest =>
    have hpos := h input (by simp)
    rw [retained, if_neg (by omega)]
    rfl

/-- Taking units goes on from where the earlier ones ended. -/
theorem consume_retained (h : ∀ input ∈ inputs, 0 < size input) (hle : taken + count ≤ total size inputs) :
    consume size (retained size inputs taken) count = some (retained size inputs (taken + count)) := by
  induction inputs generalizing taken count with
  | nil =>
    rw [total_nil] at hle
    obtain rfl : count = 0 := by omega
    rfl
  | cons input rest ih =>
    have hrest : ∀ other ∈ rest, 0 < size other := fun other hmem => h other (List.mem_cons_of_mem _ hmem)
    rw [total_cons] at hle
    by_cases hpast : size input ≤ taken
    · rw [retained, if_pos hpast, retained, if_pos (by omega), ih hrest (by omega)]
      congr 2
      omega
    · rw [retained, if_neg hpast, retained]
      cases count with
      | zero => rw [Nat.add_zero, if_neg hpast, consume]
      | succ count =>
        rw [consume]
        by_cases hends : size input ≤ taken + (count + 1)
        · rw [if_pos hends, Nat.min_eq_right (by omega), if_pos (by omega), ← retained_zero hrest, ih hrest (by omega)]
          congr 2
          omega
        · rw [if_neg hends, Nat.min_eq_left (by omega), if_neg (by omega)]

theorem retained_append (h : 0 < size input) (hle : taken ≤ total size inputs) :
    retained size (inputs ++ [input]) taken = retained size inputs taken ++ [(input, 0)] := by
  induction inputs generalizing taken with
  | nil =>
    obtain rfl : taken = 0 := Nat.le_zero.mp hle
    rw [List.nil_append, retained_zero (by simpa using h)]
    rfl
  | cons first rest ih =>
    rw [total_cons] at hle
    rw [List.cons_append, retained, retained]
    split
    · exact ih (by omega)
    · simp

/-- The next unit is in the first input of the queue. -/
theorem head_retained (h : taken < total size inputs) :
    ∃ input consumed rest, retained size inputs taken = (input, consumed) :: rest ∧
      locate size inputs taken = some (input, consumed) := by
  induction inputs generalizing taken with
  | nil => cases h
  | cons input rest ih =>
    rw [total_cons] at h
    rw [retained, locate]
    by_cases hpast : size input ≤ taken
    · rw [if_pos hpast, if_neg (by omega)]
      exact ih (by omega)
    · rw [if_neg hpast, if_pos (by omega)]
      exact ⟨input, taken, _, rfl, rfl⟩

theorem locate_append (h : unit < total size inputs) (later : List ι) :
    locate size (inputs ++ later) unit = locate size inputs unit := by
  induction inputs generalizing unit with
  | nil => cases h
  | cons input rest ih =>
    rw [total_cons] at h
    rw [List.cons_append, locate, locate]
    split
    · rfl
    · exact ih (by omega)

/-- The contents that are left are those of the queue. -/
theorem flatMap_retained {content : ι → List α} {width : Nat}
    (h : ∀ input ∈ inputs, (content input).length = size input * width) :
    (retained size inputs taken).flatMap (fun entry => (content entry.1).drop (entry.2 * width)) =
      (inputs.flatMap content).drop (taken * width) := by
  induction inputs generalizing taken with
  | nil => simp [retained]
  | cons input rest ih =>
    have hinput := h input (by simp)
    have hrest : ∀ other ∈ rest, (content other).length = size other * width :=
      fun other hmem => h other (List.mem_cons_of_mem _ hmem)
    rw [retained, List.flatMap_cons]
    split
    · rename_i hpast
      have hsplit : taken * width = (content input).length + (taken - size input) * width := by
        rw [hinput, ← Nat.add_mul]
        congr 1
        omega
      rw [ih hrest, hsplit, List.drop_length_add_append]
    · rename_i hinside
      have hle : taken * width ≤ (content input).length := by
        rw [hinput]
        exact Nat.mul_le_mul_right _ (by omega)
      rw [List.drop_append_of_le_length hle, List.flatMap_cons, List.flatMap_map]
      simp

end BetterWebBrowser.Framework.InputQueue
