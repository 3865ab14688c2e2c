import Mathlib.Data.List.Nodup
import Mathlib.Logic.Relation
import Mathlib.Order.Basic

/-!
# Walks along links

A node has at most one next node. A walk follows the links; where no link leads back, and
finitely many nodes have a next one, the walk reaches everything that the links lead to.
-/

namespace BetterWebBrowser.Framework.Walk

open Relation

variable {α : Type*}

/-- No node leads back to itself. -/
def Acyclic (link : α → α → Prop) : Prop := ∀ a, ¬ TransGen link a a

section Links

variable {link link' : α → α → Prop} {start target : α}

theorem Acyclic.mono (h : Acyclic link') (hmono : ∀ a b, link a b → link' a b) : Acyclic link :=
  fun a hcycle => h a (TransGen.mono hmono _ _ hcycle)

/-- A path from the end of a new link does not take the link: it would reach its start first. -/
private theorem path_without (hback : ¬ ReflTransGen link target start)
    (hmono : ∀ a b, link' a b → link a b ∨ a = start ∧ b = target) {a : α}
    (hpath : ReflTransGen link' target a) : ReflTransGen link target a := by
  induction hpath with
  | refl => exact .refl
  | tail _ hlast ih =>
    rcases hmono _ _ hlast with hlink | ⟨rfl, rfl⟩
    · exact ih.tail hlink
    · exact absurd ih hback

/-- A path takes only old links, or it takes the new one. -/
private theorem path_split (hmono : ∀ a b, link' a b → link a b ∨ a = start ∧ b = target) {a b : α}
    (hpath : TransGen link' a b) :
    TransGen link a b ∨ ReflTransGen link' a start ∧ ReflTransGen link' target b := by
  induction hpath with
  | single hfirst =>
    rcases hmono _ _ hfirst with hlink | ⟨rfl, rfl⟩
    · exact .inl (.single hlink)
    · exact .inr ⟨.refl, .refl⟩
  | tail hpath hlast ih =>
    rcases ih with hold | ⟨hstart, htarget⟩
    · rcases hmono _ _ hlast with hlink | ⟨rfl, rfl⟩
      · exact .inl (hold.tail hlink)
      · exact .inr ⟨hpath.to_reflTransGen, .refl⟩
    · exact .inr ⟨hstart, htarget.tail hlast⟩

/-- A new link closes no cycle if its end does not lead to its start. -/
theorem Acyclic.insert (h : Acyclic link) (hback : ¬ ReflTransGen link target start)
    (hmono : ∀ a b, link' a b → link a b ∨ a = start ∧ b = target) : Acyclic link' := by
  intro a hcycle
  rcases path_split hmono hcycle with hold | ⟨hstart, htarget⟩
  · exact h a hold
  · exact hback (path_without hback hmono (htarget.trans hstart))

/-- Links that only lead down a rank close no cycle. -/
theorem Acyclic.of_rank {β : Type*} [Preorder β] (rank : α → β) (h : ∀ a b, link a b → rank b < rank a) :
    Acyclic link := by
  have hpath : ∀ a b, TransGen link a b → rank b < rank a := by
    intro a b hpath
    induction hpath with
    | single hfirst => exact h _ _ hfirst
    | tail _ hlast ih => exact lt_trans (h _ _ hlast) ih
  exact fun a hcycle => lt_irrefl _ (hpath a a hcycle)

end Links

/-- The nodes that a walk from `a` visits in at most `fuel` steps. -/
def successors (next : α → Option α) : Nat → α → List α
  | 0, a => [a]
  | fuel + 1, a => a :: (match next a with
    | none => []
    | some b => successors next fuel b)

/-- `b` is the next node of `a`. -/
def Next (next : α → Option α) (a b : α) : Prop := next a = some b

/-- The links lead from `a` to `b`. -/
def Reaches (next : α → Option α) : α → α → Prop := ReflTransGen (Next next)

section Successors

variable {next : α → Option α} {fuel : Nat} {a b c : α}

theorem successors_zero : successors next 0 a = [a] := rfl

theorem successors_end (h : next a = none) : successors next (fuel + 1) a = [a] := by
  rw [successors, h]

theorem successors_next (h : next a = some b) :
    successors next (fuel + 1) a = a :: successors next fuel b := by
  rw [successors, h]

@[simp] theorem mem_successors_self : a ∈ successors next fuel a := by
  cases fuel <;> simp [successors]

theorem reaches_next (h : Reaches next a c) (hb : next a = some b) (hne : a ≠ c) : Reaches next b c := by
  rcases ReflTransGen.cases_head h with rfl | ⟨d, hd, hrest⟩
  · exact absurd rfl hne
  · obtain rfl : d = b := Option.some.inj (hd.symm.trans hb)
    exact hrest

/-- What a walk visits, the links lead to. -/
theorem reaches_of_mem (h : b ∈ successors next fuel a) : Reaches next a b := by
  induction fuel generalizing a with
  | zero => rw [List.mem_singleton.mp h]; exact .refl
  | succ fuel ih =>
    cases hnext : next a with
    | none =>
      rw [successors_end hnext, List.mem_singleton] at h
      rw [h]
      exact .refl
    | some c =>
      rw [successors_next hnext, List.mem_cons] at h
      rcases h with rfl | h
      · exact .refl
      · exact .head hnext (ih h)

/-- A walk comes to its end: its last node has no next one. -/
def Ends (next : α → Option α) (fuel : Nat) (a : α) : Prop :=
  ∃ last, (successors next fuel a).getLast? = some last ∧ next last = none

theorem getLast?_successors_next (h : next a = some b) :
    (successors next (fuel + 1) a).getLast? = (successors next fuel b).getLast? := by
  rw [successors_next h]
  cases hrest : successors next fuel b with
  | nil =>
    have hmem : b ∈ successors next fuel b := mem_successors_self
    rw [hrest] at hmem
    cases hmem
  | cons head rest => rw [List.getLast?_cons_cons]

/-- A walk that came to its end has visited everything that the links lead to. -/
theorem Ends.mem_iff (h : Ends next fuel a) : b ∈ successors next fuel a ↔ Reaches next a b := by
  refine ⟨reaches_of_mem, fun hreach => ?_⟩
  induction fuel generalizing a with
  | zero =>
    obtain ⟨last, hlast, hnone⟩ := h
    obtain rfl : a = last := Option.some.inj hlast
    rcases ReflTransGen.cases_head hreach with rfl | ⟨c, hc, -⟩
    · exact mem_successors_self
    · rw [Next, hnone] at hc
      cases hc
  | succ fuel ih =>
    by_cases hab : a = b
    · rw [hab]
      exact mem_successors_self
    · cases hnext : next a with
      | none =>
        rcases ReflTransGen.cases_head hreach with rfl | ⟨c, hc, -⟩
        · exact absurd rfl hab
        · rw [Next, hnext] at hc
          cases hc
      | some c =>
        obtain ⟨last, hlast, hnone⟩ := h
        rw [getLast?_successors_next hnext] at hlast
        rw [successors_next hnext]
        exact List.mem_cons_of_mem _ (ih ⟨last, hlast, hnone⟩ (reaches_next hreach hnext hab))

/-- More fuel than a walk needs adds nothing to it. -/
theorem Ends.successors_succ (h : Ends next fuel a) :
    successors next (fuel + 1) a = successors next fuel a := by
  induction fuel generalizing a with
  | zero =>
    obtain ⟨last, hlast, hnone⟩ := h
    obtain rfl : a = last := Option.some.inj hlast
    rw [successors_end hnone, successors_zero]
  | succ fuel ih =>
    cases hnext : next a with
    | none => rw [successors_end hnext, successors_end hnext]
    | some b =>
      obtain ⟨last, hlast, hnone⟩ := h
      rw [getLast?_successors_next hnext] at hlast
      rw [successors_next hnext, successors_next hnext, ih ⟨last, hlast, hnone⟩]

/-- A walk that ends goes on with the walk from the next node. -/
theorem Ends.successors_eq (h : Ends next fuel a) (hnext : next a = some b) :
    successors next fuel a = a :: successors next fuel b := by
  rw [← h.successors_succ, successors_next hnext]

/-- The links lead to one end at most. -/
theorem reaches_unique (hb : Reaches next a b) (hbnone : next b = none) (hc : Reaches next a c)
    (hcnone : next c = none) : b = c := by
  induction hb using ReflTransGen.head_induction_on with
  | refl =>
    rcases ReflTransGen.cases_head hc with rfl | ⟨d, hd, -⟩
    · rfl
    · rw [Next, hbnone] at hd
      cases hd
  | head hfirst _ ih =>
    rcases ReflTransGen.cases_head hc with rfl | ⟨d, hd, hrest⟩
    · rw [Next, hcnone] at hfirst
      cases hfirst
    · rw [Option.some.inj (hd.symm.trans hfirst)] at hrest
      exact ih hrest

/-- Where the links end, there a walk that came to its end was last. -/
theorem Ends.getLast? (h : Ends next fuel a) (hb : Reaches next a b) (hnone : next b = none) :
    (successors next fuel a).getLast? = some b := by
  obtain ⟨last, hlast, hlastNone⟩ := h
  rw [reaches_unique hb hnone (reaches_of_mem (List.mem_of_getLast? hlast)) hlastNone]
  exact hlast

/-- What lies on the way to `c`, leads to it. -/
theorem reaches_of_reaches (hb : Reaches next a b) (hc : Reaches next a c) (hnone : next c = none) :
    Reaches next b c := by
  induction hb using ReflTransGen.head_induction_on with
  | refl => exact hc
  | head hfirst _ ih =>
    rcases ReflTransGen.cases_head hc with rfl | ⟨d, hd, hrest⟩
    · rw [Next, hnone] at hfirst
      cases hfirst
    · rw [Option.some.inj (hd.symm.trans hfirst)] at hrest
      exact ih hrest

/-- Without a cycle a walk visits no node twice. -/
theorem successors_nodup (h : Acyclic (Next next)) : (successors next fuel a).Nodup := by
  induction fuel generalizing a with
  | zero => exact List.nodup_singleton a
  | succ fuel ih =>
    cases hnext : next a with
    | none =>
      rw [successors_end hnext]
      exact List.nodup_singleton a
    | some b =>
      rw [successors_next hnext, List.nodup_cons]
      refine ⟨fun hmem => ?_, ih⟩
      exact h a (TransGen.head' hnext (reaches_of_mem hmem))

/-- A walk that did not come to its end has used its fuel on nodes with a next one. -/
private theorem long_of_not_ends (h : ¬ Ends next fuel a) :
    (successors next fuel a).length = fuel + 1 ∧ ∀ b ∈ successors next fuel a, ∃ c, next b = some c := by
  induction fuel generalizing a with
  | zero =>
    refine ⟨rfl, fun b hb => ?_⟩
    rw [List.mem_singleton.mp hb]
    cases hnext : next a with
    | none => exact absurd ⟨a, rfl, hnext⟩ h
    | some c => exact ⟨c, rfl⟩
  | succ fuel ih =>
    cases hnext : next a with
    | none =>
      refine absurd ⟨a, ?_, hnext⟩ h
      rw [successors_end hnext]
      rfl
    | some b =>
      have hrest : ¬ Ends next fuel b := fun ⟨last, hlast, hnone⟩ =>
        h ⟨last, (getLast?_successors_next hnext).trans hlast, hnone⟩
      obtain ⟨hlen, hall⟩ := ih hrest
      rw [successors_next hnext]
      refine ⟨by rw [List.length_cons, hlen], fun c hc => ?_⟩
      rcases List.mem_cons.mp hc with rfl | hc
      · exact ⟨b, hnext⟩
      · exact hall c hc

/-- Without a cycle a walk ends, as many steps as there are nodes with a next one. -/
theorem ends_of_acyclic (h : Acyclic (Next next)) {nodes : List α}
    (hnodes : ∀ a b, next a = some b → a ∈ nodes) (hfuel : nodes.length ≤ fuel) (a : α) :
    Ends next fuel a := by
  by_contra hends
  obtain ⟨hlen, hall⟩ := long_of_not_ends hends
  have hsub : successors next fuel a ⊆ nodes := by
    intro b hb
    obtain ⟨c, hc⟩ := hall b hb
    exact hnodes b c hc
  have hle := List.Nodup.length_le_of_subset (successors_nodup h) hsub
  omega

end Successors

end BetterWebBrowser.Framework.Walk
