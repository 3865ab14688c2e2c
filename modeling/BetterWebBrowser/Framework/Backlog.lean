import Mathlib.Data.List.DropRight
import Mathlib.Data.List.Forall2
import Mathlib.Algebra.BigOperators.Group.List.Basic

/-!
# Backlogs that thin themselves out

Items are accepted in order and handed out in order, and between the two a backlog may drop
an item that a later one replaces and may merge an item into a later one. `Accounts` says
what survives of the accepted items. Three rules keep it: an item is appended, a replaced
item is dropped, an item is merged into a newcomer.
-/

namespace BetterWebBrowser.Framework

variable {α : Type*}

/-! ## Searching from the end -/

/-- What a search does at an element. -/
inductive Scan
  | Found
  | Pass
  | Stop
deriving DecidableEq

/-- Walk towards the front; `after` is what was passed. -/
def searchFrom (verdict : α → Scan) : List α → List α → Option (List α × α × List α)
  | [], _ => none
  | x :: before, after =>
    match verdict x with
    | .Found => some (before.reverse, x, after)
    | .Pass => searchFrom verdict before (x :: after)
    | .Stop => none

/-- The last element that `verdict` finds before it stops, with what surrounds it. -/
def searchBack (verdict : α → Scan) (xs : List α) : Option (List α × α × List α) :=
  searchFrom verdict xs.reverse []

private theorem searchFrom_eq {verdict : α → Scan} {backward after before passed : List α} {x : α}
    (h : searchFrom verdict backward after = some (before, x, passed)) :
    ∃ middle, passed = middle ++ after ∧ backward.reverse = before ++ x :: middle ∧
      verdict x = .Found ∧ ∀ y ∈ middle, verdict y = .Pass := by
  induction backward generalizing after with
  | nil => cases h
  | cons y backward ih =>
    rw [searchFrom] at h
    cases hy : verdict y with
    | Found =>
      rw [hy] at h
      cases h
      exact ⟨[], rfl, by simp, hy, by simp⟩
    | Stop => rw [hy] at h; cases h
    | Pass =>
      rw [hy] at h
      obtain ⟨middle, hpassed, hbackward, hfound, hmiddle⟩ := ih h
      refine ⟨middle ++ [y], by simp [hpassed], by simp [hbackward], hfound, ?_⟩
      intro z hz
      rcases List.mem_append.mp hz with hz | hz
      · exact hmiddle z hz
      · rw [List.mem_singleton.mp hz]
        exact hy

theorem searchBack_eq {verdict : α → Scan} {xs before after : List α} {x : α}
    (h : searchBack verdict xs = some (before, x, after)) :
    xs = before ++ x :: after ∧ verdict x = .Found ∧ ∀ y ∈ after, verdict y = .Pass := by
  obtain ⟨middle, hafter, hxs, hfound, hmiddle⟩ := searchFrom_eq h
  rw [List.append_nil] at hafter
  rw [List.reverse_reverse] at hxs
  subst hafter
  exact ⟨hxs, hfound, hmiddle⟩

/-! ## Accounting -/

/-- What a backlog may do with its items. -/
structure Backlog (α : Type*) where
  /-- Items are accepted with increasing numbers. -/
  sequence : α → Nat
  /-- The item may be merged but never dropped. -/
  keeps : α → Bool
  Replaces : α → α → Prop
  /-- The item stands for this group of accepted ones. -/
  Delivers : List α → α → Prop

namespace Backlog

variable (backlog : Backlog α)

/-- What the items handed out or still waiting say about the accepted ones. -/
structure Accounts (accepted delivered : List α) (next : Nat) : Prop where
  /-- The items that may not be dropped are delivered in order, each once. -/
  kept : ∃ groups, groups.flatten = accepted.filter backlog.keeps ∧
    List.Forall₂ backlog.Delivers groups (delivered.filter backlog.keeps)
  replaced : ∀ older ∈ accepted, backlog.keeps older = false →
    older ∈ delivered ∨ ∃ newer ∈ accepted,
      backlog.sequence older < backlog.sequence newer ∧ backlog.Replaces newer older
  genuine : ∀ item ∈ delivered, backlog.keeps item = false → item ∈ accepted
  increasing : delivered.Pairwise fun older newer => backlog.sequence older < backlog.sequence newer
  bounded : ∀ item ∈ delivered, backlog.sequence item < next

namespace Accounts

variable {backlog} {accepted delivered : List α} {next : Nat}

theorem empty (backlog : Backlog α) (next : Nat) : backlog.Accounts [] [] next where
  kept := ⟨[], rfl, .nil⟩
  replaced := by simp
  genuine := by simp
  increasing := .nil
  bounded := by simp

theorem mono (h : backlog.Accounts accepted delivered next) {later : Nat} (hlater : next ≤ later) :
    backlog.Accounts accepted delivered later where
  kept := h.kept
  replaced := h.replaced
  genuine := h.genuine
  increasing := h.increasing
  bounded item hitem := (h.bounded item hitem).trans_le hlater

private theorem forall₂_snoc {β : Type*} {r : α → β → Prop} {xs : List α} {ys : List β} {x : α}
    {y : β} (h : List.Forall₂ r xs ys) (hxy : r x y) :
    List.Forall₂ r (xs ++ [x]) (ys ++ [y]) := by
  induction h with
  | nil => exact .cons hxy .nil
  | cons hhead _ ih => exact .cons hhead ih

private theorem forall₂_unsnoc {β : Type*} {r : α → β → Prop} {xs : List α} {ys : List β} {y : β}
    (h : List.Forall₂ r xs (ys ++ [y])) :
    ∃ front x, xs = front ++ [x] ∧ List.Forall₂ r front ys ∧ r x y := by
  induction ys generalizing xs with
  | nil =>
    cases h with
    | cons hxy hnil =>
      cases hnil
      exact ⟨[], _, rfl, .nil, hxy⟩
  | cons y' ys ih =>
    cases h with
    | cons hhead htail =>
      obtain ⟨front, x, rfl, hfront, hxy⟩ := ih htail
      exact ⟨_ :: front, x, rfl, .cons hhead hfront, hxy⟩

private theorem pairwise_snoc {xs : List α} {x : α} {sequence : α → Nat}
    (h : xs.Pairwise fun older newer => sequence older < sequence newer)
    (hlast : ∀ y ∈ xs, sequence y < sequence x) :
    (xs ++ [x]).Pairwise fun older newer => sequence older < sequence newer := by
  rw [List.pairwise_append]
  refine ⟨h, List.pairwise_singleton _ _, ?_⟩
  intro y hy z hz
  rw [List.mem_singleton.mp hz]
  exact hlast y hy

private theorem replaced_accept (h : backlog.Accounts accepted delivered next) (newer : α) :
    ∀ older ∈ accepted, backlog.keeps older = false → older ∈ delivered ∨
      ∃ item ∈ accepted ++ [newer],
        backlog.sequence older < backlog.sequence item ∧ backlog.Replaces item older := by
  intro older holder hkeeps
  rcases h.replaced older holder hkeeps with hmem | ⟨item, hitem, hreplaces⟩
  · exact .inl hmem
  · exact .inr ⟨item, List.mem_append_left _ hitem, hreplaces⟩

/-- The newcomer goes to the end. -/
theorem push (h : backlog.Accounts accepted delivered next) {item : α}
    (hitem : next ≤ backlog.sequence item) (halone : backlog.Delivers [item] item) :
    backlog.Accounts (accepted ++ [item]) (delivered ++ [item]) (backlog.sequence item + 1) where
  kept := by
    obtain ⟨groups, hgroups, hdelivers⟩ := h.kept
    cases hkeeps : backlog.keeps item with
    | false => exact ⟨groups, by simp [hkeeps, hgroups], by simpa [hkeeps] using hdelivers⟩
    | true =>
      refine ⟨groups ++ [[item]], by simp [hkeeps, hgroups], ?_⟩
      simpa [hkeeps] using forall₂_snoc hdelivers halone
  replaced := by
    intro older holder hkeeps
    rcases List.mem_append.mp holder with hmem | hmem
    · rcases h.replaced_accept item older hmem hkeeps with hdelivered | hreplaced
      · exact .inl (List.mem_append_left _ hdelivered)
      · exact .inr hreplaced
    · exact .inl (List.mem_append_right _ hmem)
  genuine := by
    intro other hother hkeeps
    rcases List.mem_append.mp hother with hmem | hmem
    · exact List.mem_append_left _ (h.genuine other hmem hkeeps)
    · exact List.mem_append_right _ hmem
  increasing := pairwise_snoc h.increasing fun other hother =>
    (h.bounded other hother).trans_le hitem
  bounded := by
    intro other hother
    rcases List.mem_append.mp hother with hmem | hmem
    · exact (h.bounded other hmem).trans_le (hitem.trans (Nat.le_succ _))
    · rw [List.mem_singleton.mp hmem]
      exact Nat.lt_succ_self _

/-- An item that a later accepted one replaces goes. -/
theorem drop {front back : List α} {older newer : α}
    (h : backlog.Accounts accepted (front ++ older :: back) next)
    (hkeeps : backlog.keeps older = false) (hnewer : newer ∈ accepted)
    (hlater : backlog.sequence older < backlog.sequence newer)
    (hreplaces : backlog.Replaces newer older) :
    backlog.Accounts accepted (front ++ back) next where
  kept := by
    obtain ⟨groups, hgroups, hdelivers⟩ := h.kept
    exact ⟨groups, hgroups, by simpa [hkeeps] using hdelivers⟩
  replaced := by
    intro item hitem hitemKeeps
    rcases h.replaced item hitem hitemKeeps with hmem | hreplaced
    · rcases List.mem_append.mp hmem with hmem | hmem
      · exact .inl (List.mem_append_left _ hmem)
      · rcases List.mem_cons.mp hmem with rfl | hmem
        · exact .inr ⟨newer, hnewer, hlater, hreplaces⟩
        · exact .inl (List.mem_append_right _ hmem)
    · exact .inr hreplaced
  genuine := by
    intro item hitem
    apply h.genuine item
    simp only [List.mem_append, List.mem_cons] at hitem ⊢
    tauto
  increasing := h.increasing.sublist (List.Sublist.append_left (List.sublist_cons_self _ _) _)
  bounded := by
    intro item hitem
    apply h.bounded item
    simp only [List.mem_append, List.mem_cons] at hitem ⊢
    tauto

/-- The newcomer takes up the last kept item and what it stands for. -/
theorem merge {front back : List α} {older : α}
    (h : backlog.Accounts accepted (front ++ older :: back) next) (newer merged : α)
    (hback : ∀ item ∈ back, backlog.keeps item = false) (holder : backlog.keeps older = true)
    (hnewer : backlog.keeps newer = true) (hmerged : backlog.keeps merged = true)
    (hnext : next ≤ backlog.sequence newer)
    (hsequence : backlog.sequence merged = backlog.sequence newer)
    (hdelivers : ∀ group, backlog.Delivers group older →
      backlog.Delivers (group ++ [newer]) merged) :
    backlog.Accounts (accepted ++ [newer]) (front ++ back ++ [merged])
      (backlog.sequence newer + 1) where
  kept := by
    have hnone : back.filter backlog.keeps = [] := by
      rw [List.filter_eq_nil_iff]
      intro item hitem
      simp [hback item hitem]
    obtain ⟨groups, hgroups, hall⟩ := h.kept
    rw [List.filter_append, List.filter_cons_of_pos holder, hnone] at hall
    obtain ⟨before, group, rfl, hbefore, hgroup⟩ := forall₂_unsnoc hall
    refine ⟨before ++ [group ++ [newer]], ?_, ?_⟩
    · rw [List.filter_append, ← hgroups]
      simp [hnewer]
    · simpa [List.filter_append, hnone, hmerged] using forall₂_snoc hbefore (hdelivers group hgroup)
  replaced := by
    intro item hitem hkeeps
    rcases List.mem_append.mp hitem with hmem | hmem
    · rcases h.replaced_accept newer item hmem hkeeps with hdelivered | hreplaced
      · have hne : item ≠ older := by
          rintro rfl
          rw [holder] at hkeeps
          cases hkeeps
        left
        simp only [List.mem_append, List.mem_cons, hne, false_or] at hdelivered ⊢
        exact .inl hdelivered
      · exact .inr hreplaced
    · rw [List.mem_singleton.mp hmem, hnewer] at hkeeps
      cases hkeeps
  genuine := by
    intro item hitem hkeeps
    rcases List.mem_append.mp hitem with hmem | hmem
    · apply List.mem_append_left
      apply h.genuine item _ hkeeps
      simp only [List.mem_append, List.mem_cons] at hmem ⊢
      tauto
    · rw [List.mem_singleton.mp hmem, hmerged] at hkeeps
      cases hkeeps
  increasing := by
    have hsub : List.Sublist (front ++ back) (front ++ older :: back) :=
      List.Sublist.append_left (List.sublist_cons_self _ _) _
    apply pairwise_snoc (h.increasing.sublist hsub)
    intro item hitem
    rw [hsequence]
    exact (h.bounded item (hsub.subset hitem)).trans_le hnext
  bounded := by
    intro item hitem
    rcases List.mem_append.mp hitem with hmem | hmem
    · have hsub : List.Sublist (front ++ back) (front ++ older :: back) :=
        List.Sublist.append_left (List.sublist_cons_self _ _) _
      exact (h.bounded item (hsub.subset hmem)).trans_le (hnext.trans (Nat.le_succ _))
    · rw [List.mem_singleton.mp hmem, hsequence]
      exact Nat.lt_succ_self _

end Accounts

end Backlog

end BetterWebBrowser.Framework
