import BetterWebBrowser.Framework.Walk

/-!
# Walks where links change

Links are taken away from some nodes, or one node without a next one gets a link. What the links lead to
afterwards, in terms of what they led to before.
-/

namespace BetterWebBrowser.Framework.Walk

open Relation

variable {α : Type*} {next next' : α → Option α} {a b c p : α}

theorem Reaches.step (h : next a = some b) (hrest : Reaches next b c) : Reaches next a c := .head h hrest

/-- Only what is on the way counts. -/
theorem reaches_congr (h : ∀ n, Reaches next a n → next' n = next n) : Reaches next' a b ↔ Reaches next a b := by
  constructor
  · intro hreach
    induction hreach with
    | refl => exact .refl
    | tail _ hlast ih => exact ih.tail ((h _ ih).symm.trans hlast)
  · intro hreach
    induction hreach with
    | refl => exact .refl
    | tail hpath hlast ih => exact ih.tail ((h _ hpath).trans hlast)

/-- A node leads on through its next one. -/
theorem transGen_iff (h : next a = some p) : TransGen (Next next) a b ↔ Reaches next p b := by
  constructor
  · intro hpath
    obtain ⟨c, hc, hrest⟩ := TransGen.head'_iff.mp hpath
    rwa [Option.some.inj (hc.symm.trans h)] at hrest
  · exact fun hreach => TransGen.head' h hreach

theorem not_transGen_of_none (h : next a = none) : ¬TransGen (Next next) a b := by
  intro hpath
  obtain ⟨c, hc, -⟩ := TransGen.head'_iff.mp hpath
  rw [Next, h] at hc
  cases hc

/-! ## Links taken away -/

/-- The links without those of some nodes. -/
def cut [DecidableEq α] (nodes : List α) (next : α → Option α) : α → Option α :=
  fun a => if a ∈ nodes then none else next a

section Cut

variable [DecidableEq α] {nodes : List α}

@[simp] theorem cut_nil : cut [] next = next := by
  funext a
  simp [cut]

theorem cut_cons (node : α) (nodes : List α) : cut (node :: nodes) next = cut nodes (Function.update next node none) := by
  funext a
  by_cases hsame : a = node <;> simp [cut, hsame]

theorem cut_singleton (node : α) : cut [node] next = Function.update next node none := by
  funext a
  simp [cut, Function.update_apply]

theorem next_of_cut (h : Next (cut nodes next) a b) : a ∉ nodes ∧ next a = some b := by
  rw [Next, cut] at h
  split at h
  next => cases h
  next hfree => exact ⟨hfree, h⟩

theorem Acyclic.cut (h : Acyclic (Next next)) (nodes : List α) : Acyclic (Next (cut nodes next)) :=
  h.mono fun _ _ hlink => (next_of_cut hlink).2

/-- A walk goes as far as before, up to the first node that lost its link. -/
theorem reaches_cut (h : Acyclic (Next next)) : Reaches (cut nodes next) a b ↔
    Reaches next a b ∧ ∀ node ∈ nodes, Reaches next a node → ¬TransGen (Next next) node b := by
  constructor
  · intro hreach
    induction hreach using ReflTransGen.head_induction_on with
    | refl => exact ⟨.refl, fun node _ hto hback => h _ (TransGen.trans_right hto hback)⟩
    | head hfirst _ ih =>
      obtain ⟨hfree, hlink⟩ := next_of_cut hfirst
      refine ⟨.head hlink ih.1, fun node hmem hto => ih.2 node hmem ?_⟩
      exact reaches_next hto hlink fun hsame => hfree (hsame ▸ hmem)
  · rintro ⟨hreach, hbefore⟩
    induction hreach using ReflTransGen.head_induction_on with
    | refl => exact .refl
    | @head a c hfirst hrest ih =>
      have hfree : a ∉ nodes := fun hmem => hbefore a hmem .refl (TransGen.head' hfirst hrest)
      refine ReflTransGen.head ?_ (ih fun node hmem hto => hbefore node hmem (.head hfirst hto))
      rw [Next, Walk.cut, if_neg hfree]
      exact hfirst

end Cut

/-! ## A new link -/

section Link

variable [DecidableEq α]

theorem next_of_update (h : Next (Function.update next c (some p)) a b) : next a = some b ∨ a = c ∧ b = p := by
  rw [Next, Function.update_apply] at h
  split at h
  next hsame => exact .inr ⟨hsame, (Option.some.inj h).symm⟩
  next => exact .inl h

theorem next_update_self (next : α → Option α) (c p : α) : Next (Function.update next c (some p)) c p := by
  rw [Next, Function.update_self]

/-- Old links stay. -/
theorem next_update (hnone : next c = none) (h : Next next a b) : Next (Function.update next c (some p)) a b := by
  have hne : a ≠ c := by
    rintro rfl
    rw [Next, hnone] at h
    cases h
  rw [Next, Function.update_of_ne hne]
  exact h

theorem reaches_update_of_reaches (hnone : next c = none) (h : Reaches next a b) :
    Reaches (Function.update next c (some p)) a b :=
  ReflTransGen.mono (fun _ _ hlink => next_update hnone hlink) _ _ h

theorem Acyclic.link (h : Acyclic (Next next)) (hback : ¬Reaches next p c) :
    Acyclic (Next (Function.update next c (some p))) :=
  h.insert hback fun _ _ hlink => next_of_update hlink

/-- Where a node with no link gets one, what leads to it leads on. -/
theorem reaches_update (hnone : next c = none) (hback : ¬Reaches next p c) :
    Reaches (Function.update next c (some p)) a b ↔ Reaches next a b ∨ Reaches next a c ∧ Reaches next p b := by
  constructor
  · intro hreach
    induction hreach with
    | refl => exact .inl .refl
    | tail _ hlast ih =>
      rcases next_of_update hlast with hlink | ⟨rfl, rfl⟩
      · rcases ih with hold | ⟨hto, hfrom⟩
        · exact .inl (hold.tail hlink)
        · exact .inr ⟨hto, hfrom.tail hlink⟩
      · rcases ih with hold | ⟨-, hfrom⟩
        · exact .inr ⟨hold, .refl⟩
        · exact absurd hfrom hback
  · rintro (hreach | ⟨hto, hfrom⟩)
    · exact reaches_update_of_reaches hnone hreach
    · exact (reaches_update_of_reaches hnone hto).trans
        (.head (next_update_self next c p) (reaches_update_of_reaches hnone hfrom))

end Link

end BetterWebBrowser.Framework.Walk
