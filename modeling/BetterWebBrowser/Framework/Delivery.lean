import Mathlib.Data.List.Perm.Basic
import Mathlib.Data.List.Range
import Mathlib.Logic.Relation

/-!
# Delivery in order

A line of items between one sender and one receiver. An item may be merged into the one
directly before it, and items may be given up, as far as the rules of the line allow. Every
call of the sender is numbered, so that what became of each of them can be told.
-/

namespace BetterWebBrowser.Framework

/-- An item in the line and the numbers of the calls it is made of, oldest first. -/
structure Parcel (A : Type) where
  item : A
  calls : List Nat

structure Delivery (A L : Type) where
  /-- What the sender handed over, by the number of the call. -/
  sent : List A
  received : List (Parcel A)
  queued : List (Parcel A)
  /-- What the sender holds until it is queued. -/
  held : Option (Parcel A)
  lost : List (Nat × L)

namespace Delivery

variable {A L : Type}

structure Rules (A L : Type) where
  merges : A → A → A → Prop
  /-- The item may be taken out of the queue, given all calls and the items queued behind it. -/
  drops : L → List A → A → List A → Prop
  /-- The item held may be given up, given the items queued. -/
  declines : L → A → List A → Prop

def empty : Delivery A L := ⟨[], [], [], none, []⟩

def items (parcels : List (Parcel A)) : List A := parcels.map Parcel.item

@[simp] theorem items_nil : items ([] : List (Parcel A)) = [] := rfl

@[simp] theorem items_cons (parcel : Parcel A) (parcels : List (Parcel A)) :
    items (parcel :: parcels) = parcel.item :: items parcels := rfl

@[simp] theorem items_append (parcels more : List (Parcel A)) :
    items (parcels ++ more) = items parcels ++ items more := List.map_append

/-- The losses of all calls of a parcel. -/
def losses (parcel : Parcel A) (why : L) : List (Nat × L) := parcel.calls.map fun call => (call, why)

inductive Step (rules : Rules A L) : Delivery A L → Delivery A L → Prop
  | offer (sent : List A) (received queued : List (Parcel A)) (lost : List (Nat × L)) (item : A) :
    Step rules ⟨sent, received, queued, none, lost⟩
      ⟨sent ++ [item], received, queued, some ⟨item, [sent.length]⟩, lost⟩
  | merge (sent : List A) (received queued : List (Parcel A)) (lost : List (Nat × L))
    (last held : Parcel A) (merged : A) (h : rules.merges last.item held.item merged) :
    Step rules ⟨sent, received, queued ++ [last], some held, lost⟩
      ⟨sent, received, queued, some ⟨merged, last.calls ++ held.calls⟩, lost⟩
  | enqueue (sent : List A) (received queued : List (Parcel A)) (lost : List (Nat × L))
    (held : Parcel A) :
    Step rules ⟨sent, received, queued, some held, lost⟩ ⟨sent, received, queued ++ [held], none, lost⟩
  | decline (sent : List A) (received queued : List (Parcel A)) (lost : List (Nat × L))
    (held : Parcel A) (why : L) (h : rules.declines why held.item (items queued)) :
    Step rules ⟨sent, received, queued, some held, lost⟩
      ⟨sent, received, queued, none, lost ++ losses held why⟩
  | drop (sent : List A) (received ahead behind : List (Parcel A)) (held : Option (Parcel A))
    (lost : List (Nat × L)) (parcel : Parcel A) (why : L)
    (h : rules.drops why sent parcel.item (items behind)) :
    Step rules ⟨sent, received, ahead ++ parcel :: behind, held, lost⟩
      ⟨sent, received, ahead ++ behind, held, lost ++ losses parcel why⟩
  | receive (sent : List A) (received queued : List (Parcel A)) (held : Option (Parcel A))
    (lost : List (Nat × L)) (parcel : Parcel A) :
    Step rules ⟨sent, received, parcel :: queued, held, lost⟩
      ⟨sent, received ++ [parcel], queued, held, lost⟩

abbrev Steps (rules : Rules A L) : Delivery A L → Delivery A L → Prop :=
  Relation.ReflTransGen (Step rules)

/-! ## What every run of the line keeps -/

/-- The item is made of the calls with these numbers, by merging neighbours. -/
inductive Made (rules : Rules A L) (sent : List A) : A → List Nat → Prop
  | one {call : Nat} {item : A} (h : sent[call]? = some item) : Made rules sent item [call]
  | merge {first second merged : A} {calls more : List Nat} (hfirst : Made rules sent first calls)
    (hsecond : Made rules sent second more) (h : rules.merges first second merged) :
    Made rules sent merged (calls ++ more)

theorem Made.mono {rules : Rules A L} {sent : List A} {item : A} {calls : List Nat}
    (h : Made rules sent item calls) (more : List A) : Made rules (sent ++ more) item calls := by
  induction h with
  | one h =>
    obtain ⟨hlt, hitem⟩ := List.getElem?_eq_some_iff.mp h
    exact .one (by rw [List.getElem?_append_left hlt, h])
  | merge _ _ h hfirst hsecond => exact .merge hfirst hsecond h

/-- The parcels on their way and at their goal, in order. -/
def line (delivery : Delivery A L) : List (Parcel A) :=
  delivery.received ++ delivery.queued ++ delivery.held.toList

def callsOf (parcels : List (Parcel A)) : List Nat := parcels.flatMap Parcel.calls

theorem callsOf_append (parcels more : List (Parcel A)) :
    callsOf (parcels ++ more) = callsOf parcels ++ callsOf more := List.flatMap_append

theorem callsOf_singleton (parcel : Parcel A) : callsOf [parcel] = parcel.calls := by
  simp [callsOf]

/-- The numbers of the lost calls. -/
def lostCalls (delivery : Delivery A L) : List Nat := delivery.lost.map Prod.fst

structure Sound (rules : Rules A L) (delivery : Delivery A L) : Prop where
  /-- The order of the calls. -/
  ordered : (callsOf delivery.line).Pairwise (· < ·)
  /-- Each call is in the line once or lost once. -/
  once : (callsOf delivery.line ++ delivery.lostCalls).Perm (List.range delivery.sent.length)
  made : ∀ parcel ∈ delivery.line, Made rules delivery.sent parcel.item parcel.calls

theorem Sound.empty (rules : Rules A L) : Sound rules (empty : Delivery A L) where
  ordered := List.Pairwise.nil
  once := List.Perm.refl _
  made := fun _ hmem => nomatch hmem

theorem losses_fst (parcel : Parcel A) (why : L) : (losses parcel why).map Prod.fst = parcel.calls := by
  rw [losses, List.map_map]
  exact List.map_id _

/-- Only the parcels on their way, the calls and the losses are at stake. -/
private theorem Sound.of_line {rules : Rules A L} {before after : Delivery A L}
    (h : Sound rules before) (hsent : after.sent = before.sent)
    (hcalls : (callsOf after.line).Sublist (callsOf before.line))
    (honce : (callsOf after.line ++ after.lostCalls).Perm (callsOf before.line ++ before.lostCalls))
    (hmade : ∀ parcel ∈ after.line, Made rules before.sent parcel.item parcel.calls) :
    Sound rules after where
  ordered := h.ordered.sublist hcalls
  once := by
    rw [hsent]
    exact honce.trans h.once
  made := by
    rw [hsent]
    exact hmade

/-- A call is numbered behind all calls before it. -/
private theorem Sound.offer {rules : Rules A L} {sent : List A} {received queued : List (Parcel A)}
    {lost : List (Nat × L)} (h : Sound rules ⟨sent, received, queued, none, lost⟩) (item : A) :
    Sound rules ⟨sent ++ [item], received, queued, some ⟨item, [sent.length]⟩, lost⟩ := by
  have hline : line ⟨sent, received, queued, none, lost⟩ = received ++ queued := List.append_nil _
  have hnext : line ⟨sent ++ [item], received, queued, some ⟨item, [sent.length]⟩, lost⟩ =
      received ++ queued ++ [⟨item, [sent.length]⟩] := rfl
  have hbound : ∀ call ∈ callsOf (received ++ queued), call < sent.length := by
    intro call hmem
    have hrange := h.once.subset (List.mem_append_left _ (hline ▸ hmem))
    exact List.mem_range.mp hrange
  constructor
  · have hordered := h.ordered
    rw [hline] at hordered
    rw [hnext, callsOf_append, callsOf_singleton, List.pairwise_append]
    refine ⟨hordered, List.pairwise_singleton _ _, ?_⟩
    intro call hcall number hnumber
    obtain rfl := List.mem_singleton.mp hnumber
    exact hbound call hcall
  · have honce := h.once
    rw [hline] at honce
    rw [hnext, callsOf_append, callsOf_singleton, List.length_append, List.length_singleton,
      List.range_succ, List.append_assoc]
    have hswap : (callsOf (received ++ queued) ++ ([sent.length] ++ lost.map Prod.fst)).Perm
        (callsOf (received ++ queued) ++ (lost.map Prod.fst ++ [sent.length])) :=
      List.Perm.append_left _ List.perm_append_comm
    rw [← List.append_assoc (callsOf _) (lost.map Prod.fst)] at hswap
    exact hswap.trans (honce.append_right _)
  · intro parcel hmem
    rw [hnext, List.mem_append] at hmem
    obtain hmem | hmem := hmem
    · exact (h.made parcel (hline ▸ hmem)).mono [item]
    · obtain rfl := List.mem_singleton.mp hmem
      exact .one (by simp)

/-- Merging neighbours keeps the calls where they are. -/
private theorem Sound.merge {rules : Rules A L} {sent : List A} {received queued : List (Parcel A)}
    {lost : List (Nat × L)} {last held : Parcel A} {merged : A}
    (h : Sound rules ⟨sent, received, queued ++ [last], some held, lost⟩)
    (hmerge : rules.merges last.item held.item merged) :
    Sound rules ⟨sent, received, queued, some ⟨merged, last.calls ++ held.calls⟩, lost⟩ := by
  have hline : line ⟨sent, received, queued ++ [last], some held, lost⟩ =
      received ++ queued ++ [last] ++ [held] := by
    simp only [line, Option.toList_some, List.append_assoc]
  have hcalls : callsOf (line ⟨sent, received, queued,
      some ⟨merged, last.calls ++ held.calls⟩, lost⟩) =
      callsOf (line ⟨sent, received, queued ++ [last], some held, lost⟩) := by
    rw [hline]
    simp only [line, Option.toList_some, callsOf_append, callsOf_singleton, List.append_assoc]
  refine h.of_line rfl (hcalls ▸ List.Sublist.refl _) ?_ ?_
  · rw [hcalls]
    exact List.Perm.refl _
  · intro parcel hmem
    rw [line, Option.toList_some, List.mem_append] at hmem
    obtain hmem | hmem := hmem
    · refine h.made parcel ?_
      rw [hline]
      exact List.mem_append_left _ (List.mem_append_left _ hmem)
    · obtain rfl := List.mem_singleton.mp hmem
      have hlast := h.made last (by rw [hline]; simp)
      have hheld := h.made held (by rw [hline]; simp)
      exact .merge hlast hheld hmerge

private theorem Sound.decline {rules : Rules A L} {sent : List A} {received queued : List (Parcel A)}
    {lost : List (Nat × L)} {held : Parcel A} (why : L)
    (h : Sound rules ⟨sent, received, queued, some held, lost⟩) :
    Sound rules ⟨sent, received, queued, none, lost ++ losses held why⟩ := by
  have hline : line ⟨sent, received, queued, none, lost ++ losses held why⟩ = received ++ queued :=
    List.append_nil _
  have hbefore : line ⟨sent, received, queued, some held, lost⟩ = received ++ queued ++ [held] := rfl
  refine h.of_line rfl ?_ ?_ ?_
  · rw [hline, hbefore, callsOf_append (received ++ queued)]
    exact List.sublist_append_left _ _
  · have hlost : lostCalls ⟨sent, received, queued, none, lost ++ losses held why⟩ =
        lost.map Prod.fst ++ held.calls := by
      rw [lostCalls, List.map_append, losses_fst]
    rw [hline, hlost, hbefore, callsOf_append (received ++ queued), callsOf_singleton,
      List.append_assoc]
    exact List.Perm.append_left _ List.perm_append_comm
  · intro parcel hmem
    rw [hline] at hmem
    exact h.made parcel (hbefore ▸ List.mem_append_left _ hmem)

private theorem Sound.drop {rules : Rules A L} {sent : List A}
    {received ahead behind : List (Parcel A)} {held : Option (Parcel A)} {lost : List (Nat × L)}
    {parcel : Parcel A} (why : L)
    (h : Sound rules ⟨sent, received, ahead ++ parcel :: behind, held, lost⟩) :
    Sound rules ⟨sent, received, ahead ++ behind, held, lost ++ losses parcel why⟩ := by
  let front := received ++ ahead
  let back := behind ++ held.toList
  have hline : line ⟨sent, received, ahead ++ behind, held, lost ++ losses parcel why⟩ =
      front ++ back := by
    simp only [line, front, back, List.append_assoc]
  have hbefore : line ⟨sent, received, ahead ++ parcel :: behind, held, lost⟩ =
      front ++ ([parcel] ++ back) := by
    simp only [line, front, back, List.append_assoc, List.cons_append, List.nil_append]
  refine h.of_line rfl ?_ ?_ ?_
  · rw [hline, hbefore, callsOf_append front back, callsOf_append front, callsOf_append [parcel]]
    exact List.Sublist.append_left (List.sublist_append_right _ _) _
  · have hlost : lostCalls ⟨sent, received, ahead ++ behind, held, lost ++ losses parcel why⟩ =
        lost.map Prod.fst ++ parcel.calls := by
      rw [lostCalls, List.map_append, losses_fst]
    rw [hline, hlost, hbefore]
    simp only [callsOf_append, callsOf_singleton, lostCalls, List.append_assoc]
    refine List.Perm.append_left _ ?_
    rw [← List.append_assoc (callsOf back)]
    exact List.perm_append_comm
  · intro found hmem
    refine h.made found ?_
    rw [hline] at hmem
    rw [hbefore]
    exact (List.Sublist.append_left (List.sublist_append_right _ _) _).subset hmem

theorem Sound.step {rules : Rules A L} {before after : Delivery A L} (h : Sound rules before)
    (hstep : Step rules before after) : Sound rules after := by
  cases hstep with
  | offer sent received queued lost item => exact h.offer item
  | merge sent received queued lost last held merged hmerge => exact h.merge hmerge
  | enqueue sent received queued lost held =>
    have hline : line ⟨sent, received, queued ++ [held], none, lost⟩ =
        line ⟨sent, received, queued, some held, lost⟩ := by
      simp only [line, Option.toList_none, Option.toList_some, List.append_nil, List.append_assoc]
    refine h.of_line rfl (hline ▸ List.Sublist.refl _) ?_ ?_
    · rw [hline]
      exact List.Perm.refl _
    · rw [hline]
      exact h.made
  | decline sent received queued lost held why => exact h.decline why
  | drop sent received ahead behind held lost parcel why => exact h.drop why
  | receive sent received queued held lost parcel =>
    have hline : line ⟨sent, received ++ [parcel], queued, held, lost⟩ =
        line ⟨sent, received, parcel :: queued, held, lost⟩ := by
      simp only [line, List.append_assoc, List.cons_append, List.nil_append]
    refine h.of_line rfl (hline ▸ List.Sublist.refl _) ?_ ?_
    · rw [hline]
      exact List.Perm.refl _
    · rw [hline]
      exact h.made

theorem Sound.steps {rules : Rules A L} {delivery : Delivery A L}
    (h : Steps rules Delivery.empty delivery) : Sound rules delivery := by
  induction h with
  | refl => exact Sound.empty rules
  | tail _ hstep ih => exact ih.step hstep

/-! ## Runs of drops -/

/-- All items that a filter does not keep may be dropped in turn. -/
theorem steps_retain (rules : Rules A L) (keep : A → Bool) (why : L) (sent : List A)
    (received ahead rest tail : List (Parcel A)) (held : Option (Parcel A)) (lost : List (Nat × L))
    (h : ∀ parcel ∈ rest, keep parcel.item = false → ∀ behind : List A,
      (∀ item ∈ items tail, item ∈ behind) → rules.drops why sent parcel.item behind) :
    ∃ more, Steps rules ⟨sent, received, ahead ++ rest ++ tail, held, lost⟩
        ⟨sent, received, ahead ++ rest.filter (fun parcel => keep parcel.item) ++ tail, held, lost ++ more⟩ ∧
      ∀ loss ∈ more, loss.2 = why := by
  induction rest generalizing ahead lost with
  | nil =>
    refine ⟨[], ?_, fun _ hmem => nomatch hmem⟩
    rw [List.append_nil lost]
    exact .refl
  | cons parcel rest ih =>
    have hrest := fun found hmem => h found (List.mem_cons_of_mem _ hmem)
    cases hkeep : keep parcel.item with
    | true =>
      obtain ⟨more, hsteps, hmore⟩ := ih (ahead ++ [parcel]) lost hrest
      refine ⟨more, ?_, hmore⟩
      simpa [List.filter_cons, hkeep] using hsteps
    | false =>
      have hdrop := h parcel (List.mem_cons_self ..) hkeep (items (rest ++ tail)) fun item hmem => by
        rw [items_append]
        exact List.mem_append_right _ hmem
      obtain ⟨more, hsteps, hmore⟩ := ih ahead (lost ++ losses parcel why) hrest
      refine ⟨losses parcel why ++ more, ?_, ?_⟩
      · have hstep := Step.drop sent received ahead (rest ++ tail) held lost parcel why hdrop
        refine .head (b := ⟨sent, received, ahead ++ rest ++ tail, held, lost ++ losses parcel why⟩) ?_ ?_
        · simpa using hstep
        · simpa [List.filter_cons, hkeep] using hsteps
      · intro loss hmem
        obtain hmem | hmem := List.mem_append.mp hmem
        · obtain ⟨call, -, rfl⟩ := List.mem_map.mp hmem
          rfl
        · exact hmore loss hmem

end Delivery

end BetterWebBrowser.Framework
