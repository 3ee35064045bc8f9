import Mathlib.Data.List.Induction
import GoshTransfer.Lib.Transition

set_option autoImplicit false

-- Histories that are kept beside a transition system, for specifications that
-- speak of what has happened rather than of the state.
namespace Histories

open Transition

variable {State Label Event Value : Type}

structure Annotated (State Event : Type) where
  state : State
  history : List Event

-- The same system with a history: each step appends what it tells.
def annotate (step : State → Label → Option State) (tells : State → Label → List Event)
    (annotated : Annotated State Event) (label : Label) : Option (Annotated State Event) :=
  (step annotated.state label).map fun next => ⟨next, annotated.history ++ tells annotated.state label⟩

theorem annotate_cases (step : State → Label → Option State) (tells : State → Label → List Event)
    (annotated next : Annotated State Event) (label : Label)
    (stepped : annotate step tells annotated label = some next) :
    ∃ after, step annotated.state label = some after ∧
      next = ⟨after, annotated.history ++ tells annotated.state label⟩ := by
  obtain ⟨after, made, same⟩ := Option.map_eq_some_iff.mp stepped
  exact ⟨after, made, same.symm⟩

theorem annotate_step (step : State → Label → Option State) (tells : State → Label → List Event)
    (annotated : Annotated State Event) (label : Label) (after : State)
    (made : step annotated.state label = some after) :
    annotate step tells annotated label = some ⟨after, annotated.history ++ tells annotated.state label⟩ := by
  simp [annotate, made]

-- An event that says nothing about a matter leaves it as it is.
def hear (about : Event → Option (Option Value)) (value : Option Value) (event : Event) : Option Value :=
    (about event).getD value

-- What the last event that says something about a matter says about it.
def lastWord (about : Event → Option (Option Value)) (history : List Event) : Option Value := history.foldl
    (hear about) none

theorem last_word_append (about : Event → Option (Option Value)) (history more : List Event) :
    lastWord about (history ++ more) = more.foldl (hear about) (lastWord about history) := List.foldl_append

theorem hear_silent (about : Event → Option (Option Value)) (more : List Event) (value : Option Value)
    (silent : ∀ event ∈ more, about event = none) : more.foldl (hear about) value = value := by
  induction more with
  | nil => rfl
  | cons event rest ih =>
      have quiet : hear about value event = value := by simp [hear, silent event (by simp)]
      rw [List.foldl_cons, quiet]
      exact ih fun other member => silent other (List.mem_cons_of_mem _ member)

theorem hear_ended (about : Event → Option (Option Value)) (more : List Event) (value : Option Value)
    (ends : ∀ event ∈ more, about event = none ∨ about event = some none)
    (ended : value = none ∨ ∃ event ∈ more, about event = some none) :
    more.foldl (hear about) value = none := by
  induction more generalizing value with
  | nil => simpa using ended
  | cons event rest ih =>
      rw [List.foldl_cons]
      refine ih _ (fun later member => ends later (List.mem_cons_of_mem _ member)) ?_
      rcases ends event List.mem_cons_self with silent | said
      · rw [show hear about value event = value by simp [hear, silent]]
        refine ended.imp id ?_
        rintro ⟨other, member, said⟩
        rcases List.mem_cons.mp member with rfl | later
        · rw [silent] at said
          cases said
        · exact ⟨other, later, said⟩
      · exact .inl (by simp [hear, said])

theorem last_word_iff (about : Event → Option (Option Value)) (history : List Event) (value : Value) :
    lastWord about history = some value ↔ ∃ before event after, history = before ++ event :: after ∧
      about event = some (some value) ∧
      ∀ later ∈ after, about later = none := by
  constructor
  · intro spoken
    induction history using List.reverseRecOn with
    | nil => cases spoken
    | append_singleton history event ih =>
        rw [last_word_append, List.foldl_cons, List.foldl_nil] at spoken
        cases said : about event with
        | some word =>
            have word_ : word = some value := by simpa [hear, said] using spoken
            exact ⟨history, event, [], rfl, by rw [said, word_], by simp⟩
        | none =>
            obtain ⟨before, last, after, rfl, told, silent⟩ := ih (by simpa [hear, said] using spoken)
            refine ⟨before, last, after ++ [event], by simp, told, ?_⟩
            intro later member
            rcases List.mem_append.mp member with early | final
            · exact silent later early
            · rw [List.mem_singleton.mp final]
              exact said
  · rintro ⟨before, event, after, rfl, told, silent⟩
    rw [last_word_append, List.foldl_cons, hear_silent about after _ silent]
    simp [hear, told]

end Histories
