import Mathlib.Data.List.Lex
import Mathlib.Data.Int.Order.Basic

/-!
# Order codes

Comparisons read off codes: lists of integers, none the beginning of another, whose
lexicographic order is the order of what they stand for. Codes compose with what is compared
after them, and the code of a list is that of its elements with an end mark.
-/

namespace BetterWebBrowser.Framework

/-- The order of two codes, whatever follows them. -/
def Ranks (order : Ordering) (first second : List Int) : Prop :=
  match order with
  | .lt => ∀ rest rest', first ++ rest < second ++ rest'
  | .eq => first = second
  | .gt => ∀ rest rest', second ++ rest' < first ++ rest

namespace Ranks

variable {order order' : Ordering} {first second first' second' : List Int}

theorem eq_iff (h : Ranks order first second) : order = .eq ↔ first = second := by
  cases order with
  | lt =>
    have hlt := h [] []
    rw [List.append_nil, List.append_nil] at hlt
    simp [hlt.ne]
  | eq => exact iff_of_true rfl h
  | gt =>
    have hlt := h [] []
    rw [List.append_nil, List.append_nil] at hlt
    simp [hlt.ne']

theorem lt_iff (h : Ranks order first second) : order = .lt ↔ first < second := by
  cases order with
  | lt => simpa using h [] []
  | eq =>
    rw [show first = second from h]
    simp
  | gt =>
    have hlt := h [] []
    rw [List.append_nil, List.append_nil] at hlt
    simp [hlt.le]

theorem gt_iff (h : Ranks order first second) : order = .gt ↔ second < first := by
  cases order with
  | lt =>
    have hlt := h [] []
    rw [List.append_nil, List.append_nil] at hlt
    simp [hlt.le]
  | eq =>
    rw [show first = second from h]
    simp
  | gt => simpa using h [] []

/-- Codes one after the other: the second comparison decides where the first is equal. -/
theorem append (h : Ranks order first second) (h' : Ranks order' first' second') :
    Ranks (order.then order') (first ++ first') (second ++ second') := by
  cases order with
  | lt =>
    intro rest rest'
    rw [List.append_assoc, List.append_assoc]
    exact h _ _
  | gt =>
    intro rest rest'
    rw [List.append_assoc, List.append_assoc]
    exact h _ _
  | eq =>
    rw [show first = second from h]
    cases order' with
    | eq => exact congrArg (second ++ ·) h'
    | lt =>
      intro rest rest'
      rw [List.append_assoc, List.append_assoc]
      exact List.append_left_lt (h' rest rest')
    | gt =>
      intro rest rest'
      rw [List.append_assoc, List.append_assoc]
      exact List.append_left_lt (h' rest rest')

theorem singleton (first second : Int) : Ranks (compare first second) [first] [second] := by
  cases horder : compare first second with
  | lt =>
    intro rest rest'
    exact List.cons_lt_cons_iff.mpr (.inl (compare_lt_iff_lt.mp horder))
  | eq => exact congrArg ([·]) (compare_eq_iff_eq.mp horder)
  | gt =>
    intro rest rest'
    exact List.cons_lt_cons_iff.mpr (.inl (compare_gt_iff_gt.mp horder))

theorem nat (first second : Nat) : Ranks (compare first second) [(first : Int)] [(second : Int)] := by
  have horder : compare first second = compare (first : Int) (second : Int) := by
    rcases Nat.lt_trichotomy first second with hlt | heq | hgt
    · rw [compare_lt_iff_lt.mpr hlt, compare_lt_iff_lt.mpr (Int.ofNat_lt.mpr hlt)]
    · simp [heq]
    · rw [compare_gt_iff_gt.mpr hgt, compare_gt_iff_gt.mpr (Int.ofNat_lt.mpr hgt)]
  rw [horder]
  exact singleton _ _

/-- Different heads decide. -/
theorem head {mark mark' : Nat} (h : mark ≠ mark') (rest rest' : List Int) :
    Ranks (compare mark mark') ((mark : Int) :: rest) ((mark' : Int) :: rest') := by
  rcases Nat.lt_or_gt_of_ne h with hlt | hgt
  · rw [compare_lt_iff_lt.mpr hlt]
    exact fun _ _ => List.cons_lt_cons_iff.mpr (.inl (Int.ofNat_lt.mpr hlt))
  · rw [compare_gt_iff_gt.mpr hgt]
    exact fun _ _ => List.cons_lt_cons_iff.mpr (.inl (Int.ofNat_lt.mpr hgt))

end Ranks

/-! ## Lists -/

section Lists

variable {α : Type*}

/-- The code of a list: every element after a mark, and an end mark below it. -/
def listCode (code : α → List Int) : List α → List Int
  | [] => [0]
  | item :: items => 1 :: code item ++ listCode code items

theorem Ranks.list {cmp : α → α → Ordering} {code : α → List Int} {items items' : List α}
    (h : ∀ item ∈ items, ∀ item' ∈ items', Ranks (cmp item item') (code item) (code item')) :
    Ranks (items.compareLex cmp items') (listCode code items) (listCode code items') := by
  induction items generalizing items' with
  | nil =>
    cases items' with
    | nil => exact rfl
    | cons item' items' => exact fun _ _ => List.cons_lt_cons_iff.mpr (.inl Int.zero_lt_one)
  | cons item items ih =>
    cases items' with
    | nil => exact fun _ _ => List.cons_lt_cons_iff.mpr (.inl Int.zero_lt_one)
    | cons item' items' =>
      have hhead := h item List.mem_cons_self item' List.mem_cons_self
      have htail := ih fun other hother other' hother' =>
        h other (List.mem_cons_of_mem _ hother) other' (List.mem_cons_of_mem _ hother')
      have hmark : Ranks .eq [1] [1] := rfl
      have hall := hmark.append (hhead.append htail)
      rw [List.compareLex_cons_cons]
      exact hall

/-- Lists compare equal if they are, where this holds of their elements. -/
theorem compareLex_eq_iff {cmp : α → α → Ordering} (h : ∀ item item', cmp item item' = .eq ↔ item = item')
    {items items' : List α} : items.compareLex cmp items' = .eq ↔ items = items' := by
  induction items generalizing items' with
  | nil =>
    cases items' with
    | nil => simp [List.compareLex_nil_nil]
    | cons item' items' => simp [List.compareLex_nil_cons]
  | cons item items ih =>
    cases items' with
    | nil => simp [List.compareLex_cons_nil]
    | cons item' items' =>
      rw [List.compareLex_cons_cons, Ordering.then_eq_eq, h, ih, List.cons.injEq]

end Lists

end BetterWebBrowser.Framework
