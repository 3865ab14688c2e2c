import BetterWebBrowser.Css.Selectors

/-!
# Sums of specificities

The parts of a specificity are added one after the other, some with `+=` and some saturating.
The result is the saturating sum when no `+=` overflows.
-/

namespace BetterWebBrowser.Css

namespace Specificity

/-- `s += t` stays within sixteen bits in every counter. -/
def Fits (s t : Specificity) : Prop :=
  s.ids.toNat + t.ids.toNat < 65536 ∧ s.classes.toNat + t.classes.toNat < 65536 ∧ s.tags.toNat + t.tags.toNat < 65536

/-- No counter is less. -/
def Below (s t : Specificity) : Prop := s.ids ≤ t.ids ∧ s.classes ≤ t.classes ∧ s.tags ≤ t.tags

variable {s t u : Specificity}

theorem plus_eq_saturating (h : Fits s t) : s.plus t = s.saturating t := by
  rw [plus, saturating, saturatingAdd, saturatingAdd, saturatingAdd, if_pos h.1, if_pos h.2.1, if_pos h.2.2]

theorem toNat_saturatingAdd (a b : UInt16) : (saturatingAdd a b).toNat = min (a.toNat + b.toNat) 65535 := by
  rw [saturatingAdd]
  split
  · rename_i h
    rw [UInt16.toNat_add, Nat.mod_eq_of_lt h]
    omega
  · have hmax : (65535 : UInt16).toNat = 65535 := rfl
    omega

theorem le_saturatingAdd (a b : UInt16) : a ≤ saturatingAdd a b := by
  have ha := a.toNat_lt
  rw [UInt16.le_iff_toNat_le, toNat_saturatingAdd]
  omega

theorem below_saturating (s t : Specificity) : s.Below (s.saturating t) :=
  ⟨le_saturatingAdd _ _, le_saturatingAdd _ _, le_saturatingAdd _ _⟩

theorem Below.refl (s : Specificity) : s.Below s := ⟨UInt16.le_refl _, UInt16.le_refl _, UInt16.le_refl _⟩

theorem Below.trans (h : s.Below t) (h' : t.Below u) : s.Below u :=
  ⟨UInt16.le_trans h.1 h'.1, UInt16.le_trans h.2.1 h'.2.1, UInt16.le_trans h.2.2 h'.2.2⟩

/-- More in every counter is more in the order. -/
theorem Below.key_le (h : s.Below t) : s.key ≤ t.key := by
  have hids := UInt16.le_iff_toNat_le.mp h.1
  have hclasses := UInt16.le_iff_toNat_le.mp h.2.1
  have htags := UInt16.le_iff_toNat_le.mp h.2.2
  exact Prod.Lex.toLex_mono ⟨hids, Prod.Lex.toLex_mono ⟨hclasses, htags⟩⟩

theorem saturatingAdd_assoc (a b c : UInt16) :
    saturatingAdd (saturatingAdd a b) c = saturatingAdd a (saturatingAdd b c) := by
  apply UInt16.toNat_inj.mp
  simp only [toNat_saturatingAdd]
  omega

theorem saturating_assoc (s t u : Specificity) : (s.saturating t).saturating u = s.saturating (t.saturating u) := by
  simp only [saturating, saturatingAdd_assoc]

/-- What is added to a specificity, and whether with `+=`. -/
structure Part where
  amount : Specificity
  plain : Bool

def Part.addTo (part : Part) (s : Specificity) : Specificity :=
  if part.plain then s.plus part.amount else s.saturating part.amount

/-- What the additions leave. -/
def running (parts : List Part) : Specificity := parts.foldl (fun s part => part.addTo s) {}

/-- The saturating sum of the parts. -/
def total (parts : List Part) : Specificity := parts.foldl (fun s part => s.saturating part.amount) {}

/-- Each `+=` stays within sixteen bits, the counters before it being the given function of the parts before it. -/
def AllFit (sum : List Part → Specificity) (parts : List Part) : Prop :=
  ∀ front part rest, parts = front ++ part :: rest → part.plain = true → (sum front).Fits part.amount

theorem allFit_concat {sum : List Part → Specificity} {parts : List Part} {part : Part} :
    AllFit sum (parts ++ [part]) ↔ AllFit sum parts ∧ (part.plain = true → (sum parts).Fits part.amount) := by
  constructor
  · intro h
    refine ⟨fun front other rest hsplit => ?_, h parts part [] rfl⟩
    subst hsplit
    exact h front other (rest ++ [part]) (by simp)
  · rintro ⟨hparts, hlast⟩ front other rest hsplit
    cases List.eq_nil_or_concat rest with
    | inl hrest =>
      subst hrest
      obtain ⟨rfl, hother⟩ := List.append_inj' hsplit rfl
      cases hother
      exact hlast
    | inr hrest =>
      obtain ⟨before, last, rfl⟩ := hrest
      rw [List.concat_eq_append, ← List.cons_append, ← List.append_assoc] at hsplit
      exact hparts front other before (List.append_inj' hsplit rfl).1

theorem running_concat (parts : List Part) (part : Part) : running (parts ++ [part]) = part.addTo (running parts) := by
  simp [running]

theorem total_concat (parts : List Part) (part : Part) :
    total (parts ++ [part]) = (total parts).saturating part.amount := by
  simp [total]

/-- Without overflow the additions give the saturating sum. -/
theorem running_eq_total {parts : List Part} (h : AllFit total parts) : running parts = total parts := by
  induction parts using List.reverseRecOn with
  | nil => rfl
  | append_singleton parts part ih =>
    obtain ⟨hparts, hlast⟩ := allFit_concat.mp h
    rw [running_concat, total_concat, ih hparts, Part.addTo]
    split
    · rename_i hplain
      exact plus_eq_saturating (hlast hplain)
    · rfl

/-- Overflow is a matter of the saturating sums. -/
theorem allFit_running_iff {parts : List Part} : AllFit running parts ↔ AllFit total parts := by
  induction parts using List.reverseRecOn with
  | nil => simp [AllFit]
  | append_singleton parts part ih =>
    rw [allFit_concat, allFit_concat, ih]
    constructor
    · rintro ⟨hparts, hlast⟩
      rw [running_eq_total hparts] at hlast
      exact ⟨hparts, hlast⟩
    · rintro ⟨hparts, hlast⟩
      rw [running_eq_total hparts]
      exact ⟨hparts, hlast⟩

theorem below_total_append (front rest : List Part) : (total front).Below (total (front ++ rest)) := by
  induction rest using List.reverseRecOn with
  | nil =>
    rw [List.append_nil]
    exact .refl _
  | append_singleton rest part ih =>
    rw [← List.append_assoc, total_concat]
    exact ih.trans (below_saturating _ _)

theorem AllFit.front {sum : List Part → Specificity} {front rest : List Part} (h : AllFit sum (front ++ rest)) :
    AllFit sum front := by
  intro before part after hsplit
  subst hsplit
  exact h before part (after ++ rest) (by simp)

end Specificity

end BetterWebBrowser.Css
