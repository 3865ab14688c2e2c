import Mathlib.Data.List.Basic

/-!
# Binary search

`slice::binary_search_by` on a list whose elements lie below, at and above what is sought, in
this order.
-/

namespace BetterWebBrowser.Framework

variable {α : Type*}

namespace BinarySearch

/-- Halve the window of `size` places from `base` on; `fuel` bounds the rounds. -/
def narrow (probe : Nat → Ordering) : Nat → Nat → Nat → Nat
  | 0, base, _ => base
  | fuel + 1, base, size =>
    if size ≤ 1 then base
    else
      let half := size / 2
      let mid := base + half
      narrow probe fuel (if probe mid = .gt then base else mid) (size - half)

/-- The last place that is not above what is sought stays in the window. -/
theorem narrow_spec {probe : Nat → Ordering} {fuel base size : Nat} (hfuel : size ≤ fuel + 1)
    (hsize : 0 < size) (hbase : base = 0 ∨ probe base ≠ .gt)
    (habove : ∀ place, base + size ≤ place → probe place = .gt)
    (hmono : ∀ place place', place ≤ place' → probe place = .gt → probe place' = .gt) :
    (narrow probe fuel base size = 0 ∨ probe (narrow probe fuel base size) ≠ .gt) ∧
      ∀ place, narrow probe fuel base size < place → probe place = .gt := by
  induction fuel generalizing base size with
  | zero =>
    rw [narrow]
    exact ⟨hbase, fun place hplace => habove place (by omega)⟩
  | succ fuel ih =>
    rw [narrow]
    split
    next hone =>
      exact ⟨hbase, fun place hplace => habove place (by omega)⟩
    next hmany =>
      dsimp only
      split
      next hgt =>
        refine ih (by omega) (by omega) hbase ?_
        intro place hplace
        exact hmono (base + size / 2) place (by omega) hgt
      next hle =>
        refine ih (by omega) (by omega) (.inr hle) ?_
        intro place hplace
        exact habove place (by omega)

end BinarySearch

/-- The place of an element that compares equal, or the place to insert one. -/
def binarySearchBy (compareTo : α → Ordering) (items : List α) : Except Nat Nat :=
  if items = [] then .error 0
  else
    let probe := fun place => (items[place]?.map compareTo).getD .gt
    let base := BinarySearch.narrow probe items.length 0 items.length
    match probe base with
    | .eq => .ok base
    | .lt => .error (base + 1)
    | .gt => .error base

namespace BinarySearch

variable {compareTo : α → Ordering} {front back : List α} {found : α}

private theorem probe_front (hfront : ∀ item ∈ front, compareTo item = .lt) (rest : List α) {place : Nat}
    (h : place < front.length) : (((front ++ rest)[place]?).map compareTo).getD .gt = .lt := by
  rw [List.getElem?_append_left h, List.getElem?_eq_getElem h]
  exact hfront _ (List.getElem_mem h)

private theorem probe_back (hback : ∀ item ∈ back, compareTo item = .gt) (first : List α) {place : Nat}
    (h : first.length ≤ place) : (((first ++ back)[place]?).map compareTo).getD .gt = .gt := by
  rw [List.getElem?_append_right h]
  cases hitem : back[place - first.length]? with
  | none => rfl
  | some item => exact hback item (List.mem_of_getElem? hitem)

/-- Nothing compares equal: the search ends between what is below and what is above. -/
theorem absent (hfront : ∀ item ∈ front, compareTo item = .lt)
    (hback : ∀ item ∈ back, compareTo item = .gt) :
    binarySearchBy compareTo (front ++ back) = .error front.length := by
  rw [binarySearchBy]
  split
  next hnil =>
    rw [(List.append_eq_nil_iff.mp hnil).1]
    rfl
  next hcons =>
    have hpos : 0 < (front ++ back).length := List.length_pos_of_ne_nil hcons
    have hlt := @probe_front _ _ _ hfront back
    have hgt := @probe_back _ _ _ hback front
    have hspec := @narrow_spec (fun place => (((front ++ back)[place]?).map compareTo).getD .gt)
      (front ++ back).length _ _ (Nat.le_succ _) hpos (.inl rfl)
      (fun place hplace => hgt (by rw [List.length_append] at hplace; omega))
      (fun place place' hle hplace => by
        rcases Nat.lt_or_ge place' front.length with hless | hmore
        · rw [hlt (Nat.lt_of_le_of_lt hle hless)] at hplace
          cases hplace
        · exact hgt hmore)
    dsimp only at hspec ⊢
    generalize narrow _ _ _ _ = base at hspec ⊢
    obtain ⟨hbase, hrest⟩ := hspec
    rcases Nat.lt_or_ge base front.length with hless | hmore
    · rw [hlt hless]
      have hnext : ¬ base + 1 < front.length := by
        intro hnext
        have habove := hrest (base + 1) (Nat.lt_succ_self _)
        rw [hlt hnext] at habove
        cases habove
      exact congrArg Except.error (by omega)
    · rw [hgt hmore] at hbase ⊢
      rcases hbase with hzero | hne
      · exact congrArg Except.error (by omega)
      · exact absurd rfl hne

/-- The one element that compares equal is found. -/
theorem present (hfront : ∀ item ∈ front, compareTo item = .lt) (hfound : compareTo found = .eq)
    (hback : ∀ item ∈ back, compareTo item = .gt) :
    binarySearchBy compareTo (front ++ found :: back) = .ok front.length := by
  have hsplit : front ++ found :: back = (front ++ [found]) ++ back := by simp
  rw [binarySearchBy, if_neg (by simp)]
  have hlt := @probe_front _ _ _ hfront (found :: back)
  have hgt : ∀ {place : Nat}, front.length < place →
      (((front ++ found :: back)[place]?).map compareTo).getD .gt = .gt := by
    intro place hplace
    rw [hsplit]
    exact probe_back hback (front ++ [found]) (by rw [List.length_append]; exact hplace)
  have hat : (((front ++ found :: back)[front.length]?).map compareTo).getD .gt = .eq := by
    rw [List.getElem?_append_right (Nat.le_refl _), Nat.sub_self]
    exact hfound
  have hspec := @narrow_spec (fun place => (((front ++ found :: back)[place]?).map compareTo).getD .gt)
    (front ++ found :: back).length _ _ (Nat.le_succ _)
    (List.length_pos_of_ne_nil (by simp)) (.inl rfl)
    (fun place hplace => hgt (by simp only [List.length_append, List.length_cons] at hplace; omega))
    (fun place place' hle hplace => by
      rcases Nat.lt_trichotomy place front.length with hless | heq | hmore
      · rw [hlt hless] at hplace
        cases hplace
      · rw [heq, hat] at hplace
        cases hplace
      · exact hgt (Nat.lt_of_lt_of_le hmore hle))
  dsimp only at hspec ⊢
  generalize narrow _ _ _ _ = base at hspec ⊢
  obtain ⟨hbase, hrest⟩ := hspec
  have heq : base = front.length := by
    rcases Nat.lt_trichotomy base front.length with hless | heq | hmore
    · have habove := hrest front.length hless
      rw [hat] at habove
      cases habove
    · exact heq
    · rcases hbase with hzero | hne
      · omega
      · exact absurd (hgt hmore) hne
  rw [heq, hat]

/-! ## Writing where the search ended -/

theorem modify_at (front back : List α) (found : α) (change : α → α) :
    (front ++ found :: back).modify front.length change = front ++ change found :: back := by
  induction front with
  | nil => rfl
  | cons item front ih => exact congrArg (item :: ·) ih

theorem insertIdx_at (front back : List α) (new : α) :
    (front ++ back).insertIdx front.length new = front ++ new :: back := by
  induction front with
  | nil => rfl
  | cons item front ih => exact congrArg (item :: ·) ih

theorem eraseIdx_at (front back : List α) (found : α) :
    (front ++ found :: back).eraseIdx front.length = front ++ back := by
  induction front with
  | nil => rfl
  | cons item front ih => exact congrArg (item :: ·) ih

end BinarySearch

end BetterWebBrowser.Framework
