import BetterWebBrowser.Framework.Fallible
import BetterWebBrowser.Framework.Method

/-!
# Methods that only look

A method that refreshes caches on its way is still a question: its answer depends on a view of
the state that the caches do not change. `Observes` says so. Questions asked one after the other,
or along a list, are a question again.
-/

namespace BetterWebBrowser.Framework.Method

variable {E S V A B C : Type} {view : S → V} {I : S → Prop}

/-- A check of `&self`. -/
def read (check : S → Except E A) : Method E S A := fun state => (check state, state)

/-- A call that is made only under a condition. -/
def onlyIf (condition : Prop) [Decidable condition] (method : Method E S Unit) : Method E S Unit :=
  if condition then method else pure ()

/-- In this state the method answers as the view says, and leaves the view as it is. -/
structure AnswersAt (view : S → V) (I : S → Prop) (method : Method E S A) (Answer : V → A → Prop) (state : S) :
    Prop where
  answer : ∀ value, (method state).1 = .ok value ↔ Answer (view state) value
  view_eq : view (method state).2 = view state
  kept : I (method state).2

/-- The method answers as the view of the state says. -/
def Observes (view : S → V) (I : S → Prop) (method : Method E S A) (Answer : V → A → Prop) : Prop :=
  ∀ state, I state → AnswersAt view I method Answer state

/-- A run that answers. -/
theorem AnswersAt.of_ok {method : Method E S A} {Answer : V → A → Prop} {state after : S} {value : A}
    (hrun : method state = (.ok value, after)) (hanswer : ∀ other, Answer (view state) other ↔ value = other)
    (hview : view after = view state) (hkept : I after) : AnswersAt view I method Answer state := by
  constructor
  · intro other
    rw [hrun, hanswer other]
    exact ⟨fun h => Except.ok.inj h, fun h => congrArg Except.ok h⟩
  · rw [hrun]
    exact hview
  · rw [hrun]
    exact hkept

/-- A run that refuses. -/
theorem AnswersAt.of_error {method : Method E S A} {Answer : V → A → Prop} {state after : S} {error : E}
    (hrun : method state = (.error error, after)) (hanswer : ∀ value, ¬Answer (view state) value)
    (hview : view after = view state) (hkept : I after) : AnswersAt view I method Answer state := by
  constructor
  · intro other
    rw [hrun]
    exact iff_of_false (fun h => by cases h) (hanswer other)
  · rw [hrun]
    exact hview
  · rw [hrun]
    exact hkept

namespace Observes

theorem pure (value : A) :
    Observes view I (Pure.pure value : Method E S A) fun _ answer => value = answer :=
  fun state hstate => .of_ok (run_pure value state) (fun _ => Iff.rfl) rfl hstate

theorem read {check : S → Except E A} {Answer : V → A → Prop}
    (h : ∀ state, I state → ∀ value, check state = .ok value ↔ Answer (view state) value) :
    Observes view I (Method.read check) Answer :=
  fun state hstate => ⟨h state hstate, rfl, hstate⟩

theorem ofExcept (result : Except E A) :
    Observes view I (Method.ofExcept result : Method E S A) fun _ value => result = .ok value :=
  read fun _ _ _ => Iff.rfl

theorem failIf (failed : Prop) [Decidable failed] (error : E) :
    Observes view I (Method.failIf failed error : Method E S Unit) fun _ _ => ¬failed := by
  intro state hstate
  by_cases hfailed : failed
  · have hrun : (Method.failIf failed error : Method E S Unit) state = (.error error, state) := if_pos hfailed
    exact .of_error hrun (fun _ => not_not.mpr hfailed) rfl hstate
  · have hrun : (Method.failIf failed error : Method E S Unit) state = (.ok (), state) := if_neg hfailed
    exact .of_ok hrun (fun _ => iff_of_true hfailed rfl) rfl hstate

/-- What the first answer is known to satisfy may be used for the second question. -/
theorem bindOf {first : Method E S A} {next : A → Method E S B} {Answer : V → A → Prop}
    {Further : A → V → B → Prop} (P : A → Prop) (h : Observes view I first Answer)
    (hknown : ∀ v value, Answer v value → P value)
    (hnext : ∀ value, P value → Observes view I (next value) (Further value)) :
    Observes view I (first >>= next) fun v result => ∃ value, Answer v value ∧ Further value v result := by
  intro state hstate
  obtain ⟨hanswer, hview, hkept⟩ := h state hstate
  have hrun := run_bind first next state
  cases hfirst : first state with
  | mk outcome after =>
    rw [hfirst] at hanswer hview hkept hrun
    cases outcome with
    | error error =>
      refine .of_error hrun ?_ hview hkept
      rintro result ⟨value, hvalue, -⟩
      cases (hanswer value).mpr hvalue
    | ok value =>
      have hvalue := (hanswer value).mp rfl
      obtain ⟨hfurther, hviewed, hafter⟩ := hnext value (hknown _ _ hvalue) after hkept
      constructor
      · intro result
        rw [hrun, hfurther result, hview]
        constructor
        · intro hresult
          exact ⟨value, hvalue, hresult⟩
        · rintro ⟨other, hother, hresult⟩
          cases (hanswer other).mpr hother
          exact hresult
      · rw [hrun]
        exact hviewed.trans hview
      · rw [hrun]
        exact hafter

theorem bind {first : Method E S A} {next : A → Method E S B} {Answer : V → A → Prop}
    {Further : A → V → B → Prop} (h : Observes view I first Answer)
    (hnext : ∀ value, Observes view I (next value) (Further value)) :
    Observes view I (first >>= next) fun v result => ∃ value, Answer v value ∧ Further value v result :=
  h.bindOf (fun _ => True) (fun _ _ _ => trivial) fun value _ => hnext value

theorem congr {method : Method E S A} {Answer Other : V → A → Prop} (h : Observes view I method Answer)
    (hanswer : ∀ v value, Answer v value ↔ Other v value) : Observes view I method Other := by
  intro state hstate
  obtain ⟨hvalue, hview, hkept⟩ := h state hstate
  exact ⟨fun value => (hvalue value).trans (hanswer _ value), hview, hkept⟩

theorem onlyIf {condition : Prop} [Decidable condition] {method : Method E S Unit}
    {Answer : V → Unit → Prop} (h : Observes view I method Answer) :
    Observes view I (Method.onlyIf condition method) fun v value => condition → Answer v value := by
  rw [Method.onlyIf]
  by_cases hcondition : condition
  · rw [if_pos hcondition]
    exact h.congr fun v value => ⟨fun hvalue _ => hvalue, fun hvalue => hvalue hcondition⟩
  · rw [if_neg hcondition]
    refine (pure ()).congr fun v value => ?_
    exact iff_of_true rfl fun h => absurd h hcondition

/-- What the method answers has a property that the view decides. -/
theorem cond {condition : Prop} [Decidable condition] {method other : Method E S A}
    {Answer Other : V → A → Prop} (h : condition → Observes view I method Answer)
    (hother : ¬condition → Observes view I other Other) :
    Observes view I (if condition then method else other) fun v value =>
      (condition → Answer v value) ∧ (¬condition → Other v value) := by
  by_cases hcondition : condition
  · rw [if_pos hcondition]
    refine (h hcondition).congr fun v value => ?_
    exact ⟨fun h => ⟨fun _ => h, fun hnot => absurd hcondition hnot⟩, fun h => h.1 hcondition⟩
  · rw [if_neg hcondition]
    refine (hother hcondition).congr fun v value => ?_
    exact ⟨fun h => ⟨fun hyes => absurd hyes hcondition, fun _ => h⟩, fun h => h.2 hcondition⟩

/-- A question that is not answered leaves the view as it is, as one that is. -/
theorem run {method : Method E S A} {Answer : V → A → Prop} (h : Observes view I method Answer)
    {state : S} (hstate : I state) :
    (∃ value after, method state = (.ok value, after) ∧ Answer (view state) value ∧
        view after = view state ∧ I after) ∨
      ∃ error after, method state = (.error error, after) ∧ (∀ value, ¬Answer (view state) value) ∧
        view after = view state ∧ I after := by
  obtain ⟨hanswer, hview, hkept⟩ := h state hstate
  cases hrun : method state with
  | mk outcome after =>
    rw [hrun] at hanswer hview hkept
    cases outcome with
    | ok value => exact .inl ⟨value, after, rfl, (hanswer value).mp rfl, hview, hkept⟩
    | error error =>
      refine .inr ⟨error, after, rfl, fun value hvalue => ?_, hview, hkept⟩
      cases (hanswer value).mpr hvalue

end Observes

end BetterWebBrowser.Framework.Method
