import BetterWebBrowser.Framework.Walk

/-!
# Depth-first walks with a stack

The node on top of the stack is visited and its children take its place. In a finite forest,
where a node is the child of at most one other and no node lies below itself, the walk comes
to its end and visits every node below its root once.
-/

namespace BetterWebBrowser.Framework.StackWalk

open Relation

variable {α : Type*}

/-- What a walk visits in at most `fuel` steps, and the stack that it leaves, its top first. -/
def walk (children : α → List α) : Nat → List α → List α × List α
  | 0, stack => ([], stack)
  | _ + 1, [] => ([], [])
  | fuel + 1, a :: stack =>
    let rest := walk children fuel (children a ++ stack)
    (a :: rest.1, rest.2)

def Child (children : α → List α) (p c : α) : Prop := c ∈ children p

/-- `b` is at or below `a`. -/
def Below (children : α → List α) : α → α → Prop := ReflTransGen (Child children)

/-- The nodes below a root form a tree. -/
structure Forest (children : α → List α) (root : α) : Prop where
  nodup : ∀ p, Below children root p → (children p).Nodup
  unique : ∀ p q c, Below children root p → Below children root q → c ∈ children p → c ∈ children q → p = q
  acyclic : Walk.Acyclic (Child children)

/-- Between two steps: the nodes seen so far are different nodes of the tree, each but the
root came from a visited one, and the children of the visited ones are among them. -/
structure Seen (children : α → List α) (root : α) (visited stack : List α) : Prop where
  nodup : (visited ++ stack).Nodup
  below : ∀ a ∈ visited ++ stack, Below children root a
  origin : ∀ a ∈ visited ++ stack, a = root ∨ ∃ p ∈ visited, a ∈ children p
  closed : ∀ p ∈ visited, ∀ c ∈ children p, c ∈ visited ++ stack

variable {children : α → List α} {root : α} {visited stack : List α} {fuel : Nat}

theorem Seen.start : Seen children root [] [root] where
  nodup := List.nodup_singleton root
  below := by
    intro a ha
    rw [List.nil_append, List.mem_singleton] at ha
    rw [ha]
    exact .refl
  origin := by simp
  closed := by simp

/-- A child of the next node was not seen before: its only parent was not visited. -/
theorem Seen.fresh (hforest : Forest children root) {a : α} (h : Seen children root visited (a :: stack))
    {c : α} (hc : c ∈ children a) : c ∉ visited ++ a :: stack := by
  intro hseen
  have ha : a ∈ visited ++ a :: stack := by simp
  rcases h.origin c hseen with rfl | ⟨p, hp, hchild⟩
  · exact hforest.acyclic c (TransGen.tail' (h.below a ha) hc)
  · have hpa : p = a :=
      hforest.unique p a c (h.below p (List.mem_append_left _ hp)) (h.below a ha) hchild hc
    rw [hpa] at hp
    exact (List.nodup_append.mp h.nodup).2.2 a hp a (by simp) rfl

theorem Seen.step (hforest : Forest children root) {a : α} (h : Seen children root visited (a :: stack)) :
    Seen children root (visited ++ [a]) (children a ++ stack) := by
  have ha : Below children root a := h.below a (by simp)
  have hmem : ∀ b, b ∈ visited ++ [a] ++ (children a ++ stack) ↔ b ∈ visited ++ a :: stack ∨ b ∈ children a := by
    intro b
    simp only [List.mem_append, List.mem_cons, List.not_mem_nil, or_false]
    tauto
  constructor
  · have hperm : (visited ++ [a] ++ (children a ++ stack)).Perm (children a ++ (visited ++ a :: stack)) := by
      simpa using List.perm_append_comm_assoc (visited ++ [a]) (children a) stack
    rw [hperm.nodup_iff, List.nodup_append]
    refine ⟨hforest.nodup a ha, h.nodup, ?_⟩
    rintro c hc b hb rfl
    exact h.fresh hforest hc hb
  · intro b hb
    rcases (hmem b).mp hb with hb | hb
    · exact h.below b hb
    · exact ha.tail hb
  · intro b hb
    rcases (hmem b).mp hb with hb | hb
    · rcases h.origin b hb with rfl | ⟨p, hp, hchild⟩
      · exact Or.inl rfl
      · exact Or.inr ⟨p, List.mem_append_left _ hp, hchild⟩
    · exact Or.inr ⟨a, by simp, hb⟩
  · intro p hp c hc
    rw [hmem]
    rcases List.mem_append.mp hp with hp | hp
    · exact Or.inl (h.closed p hp c hc)
    · rw [List.mem_singleton.mp hp] at hc
      exact Or.inr hc

theorem Seen.run (hforest : Forest children root) (h : Seen children root visited stack) :
    Seen children root (visited ++ (walk children fuel stack).1) (walk children fuel stack).2 := by
  induction fuel generalizing visited stack with
  | zero => simpa [walk] using h
  | succ fuel ih =>
    cases stack with
    | nil => simpa [walk] using h
    | cons a stack => simpa [walk] using ih (h.step hforest)

/-- A walk that did not come to its end took all its steps. -/
theorem length_walk (h : (walk children fuel stack).2 ≠ []) : (walk children fuel stack).1.length = fuel := by
  induction fuel generalizing stack with
  | zero => rfl
  | succ fuel ih =>
    cases stack with
    | nil => exact absurd rfl h
    | cons a stack =>
      have hrest := ih h
      simp [walk, hrest]

/-- With a step for every node the walk comes to its end. -/
theorem walk_ends (hforest : Forest children root) {nodes : List α}
    (hnodes : ∀ a, Below children root a → a ∈ nodes) (hfuel : nodes.length ≤ fuel) :
    (walk children fuel [root]).2 = [] := by
  by_contra hrest
  have hseen : Seen children root (walk children fuel [root]).1 (walk children fuel [root]).2 := by
    simpa using (Seen.start : Seen children root [] [root]).run hforest
  have hle := List.Nodup.length_le_of_subset hseen.nodup fun a ha => hnodes a (hseen.below a ha)
  have hlen := length_walk hrest
  have hpos := List.length_pos_iff.mpr hrest
  rw [List.length_append, hlen] at hle
  omega

theorem walk_nodup (hforest : Forest children root) : (walk children fuel [root]).1.Nodup := by
  have hseen : Seen children root (walk children fuel [root]).1 (walk children fuel [root]).2 := by
    simpa using (Seen.start : Seen children root [] [root]).run hforest
  exact (List.nodup_append.mp hseen.nodup).1

theorem mem_walk (hforest : Forest children root) (hend : (walk children fuel [root]).2 = []) (b : α) :
    b ∈ (walk children fuel [root]).1 ↔ Below children root b := by
  have hseen : Seen children root (walk children fuel [root]).1 (walk children fuel [root]).2 := by
    simpa using (Seen.start : Seen children root [] [root]).run hforest
  rw [hend] at hseen
  constructor
  · exact fun hb => hseen.below b (by simpa using hb)
  · intro hbelow
    induction hbelow with
    | refl =>
      cases fuel with
      | zero => cases hend
      | succ fuel => simp [walk]
    | tail _ hlast ih => simpa using hseen.closed _ ih _ hlast

/-- A walk depends only on the children at and below its stack. -/
theorem walk_congr {children' : α → List α}
    (h : ∀ a ∈ stack, ∀ b, Below children a b → children b = children' b) :
    walk children fuel stack = walk children' fuel stack := by
  induction fuel generalizing stack with
  | zero => rfl
  | succ fuel ih =>
    cases stack with
    | nil => rfl
    | cons a stack =>
      have ha : children a = children' a := h a (by simp) a .refl
      have hrest : walk children fuel (children a ++ stack) = walk children' fuel (children a ++ stack) := by
        apply ih
        intro c hc b hbelow
        rcases List.mem_append.mp hc with hc | hc
        · exact h a (by simp) b (.head hc hbelow)
        · exact h c (by simp [hc]) b hbelow
      rw [walk, walk, hrest, ha]

/-- A walk that starts with some of the children of a root visits what is below these. -/
theorem mem_walk_part (hforest : Forest children root) (hsub : ∀ a ∈ stack, a ∈ children root)
    (hnodup : stack.Nodup) {nodes : List α} (hnodes : ∀ a, Below children root a → a ∈ nodes)
    (hfuel : nodes.length ≤ fuel + 1) (b : α) :
    b ∈ (walk children fuel stack).1 ↔ ∃ a ∈ stack, Below children a b := by
  classical
  -- the same tree with the other children of the root cut off
  let part := Function.update children root stack
  have hroot : part root = stack := Function.update_self ..
  have hother : ∀ a, a ≠ root → part a = children a := fun a hne => Function.update_of_ne hne ..
  have hchild : ∀ p c, c ∈ part p → c ∈ children p := by
    intro p c hc
    by_cases hp : p = root
    · subst hp
      rw [hroot] at hc
      exact hsub c hc
    · rwa [hother p hp] at hc
  have hbelow : ∀ a, Below part root a → Below children root a :=
    fun a => ReflTransGen.mono (fun p c hc => hchild p c hc) root a
  have hpart : Forest part root := by
    constructor
    · intro p hp
      by_cases heq : p = root
      · subst heq
        rwa [hroot]
      · rw [hother p heq]
        exact hforest.nodup p (hbelow p hp)
    · intro p q c hp hq hcp hcq
      exact hforest.unique p q c (hbelow p hp) (hbelow q hq) (hchild p c hcp) (hchild q c hcq)
    · exact hforest.acyclic.mono fun p c hc => hchild p c hc
  have hne : ∀ a ∈ stack, ∀ d, Below children a d → d ≠ root := by
    rintro a ha d hd rfl
    exact hforest.acyclic d (TransGen.head' (hsub a ha) hd)
  have hsame : walk children fuel stack = walk part fuel stack :=
    walk_congr fun a ha d hd => (hother d (hne a ha d hd)).symm
  have hend := walk_ends hpart (fun a ha => hnodes a (hbelow a ha)) hfuel
  have hmem := mem_walk hpart hend b
  rw [walk, hroot, List.append_nil, ← hsame, List.mem_cons] at hmem
  have hdown : ∀ a ∈ stack, ∀ d, Below children a d → Below part a d := by
    intro a ha d hd
    induction hd with
    | refl => exact .refl
    | tail hlast hc ih => exact ih.tail (by rwa [Child, hother _ (hne a ha _ hlast)])
  constructor
  · intro hb
    rcases ReflTransGen.cases_head (hmem.mp (Or.inr hb)) with rfl | ⟨a, ha, hab⟩
    · have hstart : (walk part (fuel + 1) [root]).1 = root :: (walk children fuel stack).1 := by
        rw [walk, hroot, List.append_nil, ← hsame]
      have hfresh : (walk part (fuel + 1) [root]).1.Nodup := walk_nodup hpart
      rw [hstart] at hfresh
      exact absurd hb (List.nodup_cons.mp hfresh).1
    · rw [Child, hroot] at ha
      exact ⟨a, ha, ReflTransGen.mono (fun p c hc => hchild p c hc) a b hab⟩
  · rintro ⟨a, ha, hab⟩
    rcases hmem.mpr (.head (by rwa [Child, hroot]) (hdown a ha b hab)) with rfl | hb
    · exact absurd rfl (hne a ha b hab)
    · exact hb

end BetterWebBrowser.Framework.StackWalk
