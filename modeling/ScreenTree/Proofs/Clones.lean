import Mathlib.Logic.Function.Basic

/-! # Clones

Things that are known by names, and what happens to them: something is done to one of them, or a
name is given to a clone of one. Going back through what happened, every thing stems from one that
was there at the start, and its history is what was done to it and, before they were cloned, to
those that it stems from. -/

namespace ScreenTree

/-- What happens to things with names in `ι`, where `α` is what can be done to one of them. -/
inductive Event (ι α : Type)
  | act (on : ι) (action : α)
  | clone (source target : ι)

namespace Event

variable {ι α σ : Type}

/-- The name that afterwards may stand for something else. -/
def subject : Event ι α → ι
  | .act on _ => on
  | .clone _ target => target

variable [DecidableEq ι]

/-- The name before the events of the thing that has the name `i` after them, or of the one that it
was cloned from. -/
def origin (i : ι) : List (Event ι α) → ι
  | [] => i
  | .act _ _ :: events => origin i events
  | .clone source target :: events =>
    if origin i events = target then source else origin i events

/-- What is done to the thing that has the name `i` after the events, and to those that it stems
from before they are cloned, from first to last. -/
def history (i : ι) : List (Event ι α) → List α
  | [] => []
  | .act on action :: events =>
    if origin i events = on then action :: history i events else history i events
  | .clone _ _ :: events => history i events

/-- The things after an event, where a clone is a copy. -/
def perform (act : σ → α → σ) (things : ι → σ) : Event ι α → ι → σ
  | .act on action => Function.update things on (act (things on) action)
  | .clone source target => Function.update things target (things source)

/-- The things after events one after another. -/
def after (act : σ → α → σ) (things : ι → σ) (events : List (Event ι α)) : ι → σ :=
  events.foldl (perform act) things

theorem after_append (act : σ → α → σ) (things : ι → σ) (events : List (Event ι α))
    (event : Event ι α) :
    after act things (events ++ [event]) = perform act (after act things events) event := by
  rw [after, List.foldl_append]
  rfl

theorem perform_of_ne (act : σ → α → σ) (things : ι → σ) {event : Event ι α} {i : ι}
    (h : event.subject ≠ i) : perform act things event i = things i := by
  cases event with
  | act on action => exact Function.update_of_ne h.symm ..
  | clone source target => exact Function.update_of_ne h.symm ..

/-- A thing is what its history makes of the one that it stems from. -/
theorem after_eq (act : σ → α → σ) (things : ι → σ) (events : List (Event ι α)) (i : ι) :
    after act things events i = (history i events).foldl act (things (origin i events)) := by
  induction events generalizing things with
  | nil => rfl
  | cons event events ih =>
    have hstep := ih (perform act things event)
    rw [after, List.foldl_cons]
    rw [after] at hstep
    rw [hstep]
    cases event with
    | act on action =>
      rw [history, origin, perform]
      by_cases h : origin i events = on
      · rw [if_pos h, h, Function.update_self, List.foldl_cons]
      · rw [if_neg h, Function.update_of_ne h]
    | clone source target =>
      rw [history, origin, perform]
      by_cases h : origin i events = target
      · rw [if_pos h, h, Function.update_self]
      · rw [if_neg h, Function.update_of_ne h]

end Event
end ScreenTree
