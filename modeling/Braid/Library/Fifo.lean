import Braid.Library.Transition
import Mathlib.Data.List.Basic

/-! What a queue does, seen from outside: it gives entries back in the order in which it got them. -/

namespace Fifo

open Transition

/-- An entry is added at the end, or the first one is taken off. -/
inductive Event (α : Type*) where
  | push (entry : α)
  | pop (entry : α)
  deriving DecidableEq

/-- The entry that an event adds. -/
def Event.pushed? {α : Type*} : Event α → Option α
  | .push entry => some entry
  | .pop _ => none

/-- The entry that an event takes off. -/
def Event.popped? {α : Type*} : Event α → Option α
  | .push _ => none
  | .pop entry => some entry

variable {α : Type*} [DecidableEq α] {events : List (Event α)} {queue : List α}

/-- A queue takes every entry, and gives only the first one back. -/
def step (queue : List α) : Event α → Option (List α)
  | .push entry => some (queue ++ [entry])
  | .pop entry => if queue.head? = some entry then some queue.tail else none

/-- All entries that events add, in order. -/
def pushes {α : Type*} (events : List (Event α)) : List α := events.filterMap Event.pushed?

/-- All entries that events take off, in order. -/
def pops {α : Type*} (events : List (Event α)) : List α := events.filterMap Event.popped?

/-- What was added is what was taken off, in the same order, and then what is still there. -/
theorem pushes_of_exec (executed : exec step [] events = some queue) :
    pushes events = pops events ++ queue := by
  -- The induction is on the events, for every queue that they begin with.
  have general (events : List (Event α)) : ∀ {start queue : List α},
      exec step start events = some queue → start ++ pushes events = pops events ++ queue := by
    induction events with
    | nil => intro start queue executed; cases executed; simp [pushes, pops]
    | cons event rest ih =>
      intro start queue executed
      obtain ⟨next, taken, remaining⟩ := Option.bind_eq_some_iff.mp executed
      have further := ih remaining
      cases event with
      | push entry =>
        cases taken
        simpa [pushes, pops, List.filterMap_cons, Event.pushed?, Event.popped?] using further
      | pop entry =>
        -- What is taken off stands at the front, and goes over to what has been taken off.
        simp only [step] at taken
        split at taken <;> cases taken
        rename_i first
        obtain ⟨others, rfl⟩ := List.head?_eq_some_iff.mp first
        simpa [pushes, pops, List.filterMap_cons, Event.pushed?, Event.popped?] using further
  simpa using general events executed

/-- At every moment, what has been taken off is the beginning of what has been added. -/
theorem pops_prefix_of_exec (executed : exec step [] events = some queue)
    {first rest : List (Event α)} (split : events = first ++ rest) :
    (pops first).IsPrefix (pushes first) := by
  -- The events up to this moment have been carried out themselves.
  rw [split, exec_append] at executed
  obtain ⟨middle, before, -⟩ := Option.bind_eq_some_iff.mp executed
  exact ⟨middle, (pushes_of_exec before).symm⟩

end Fifo
