import Braid.Library.Transition
import Mathlib.Data.List.Nodup

/-! What an allocator does, seen from outside: it hands out what is free, and takes back the rest. -/

namespace Allocation

open Transition

/-- A slot is handed out, or it is given back. -/
inductive Event (α : Type*) where
  | allocate (slot : α)
  | free (slot : α)
  deriving DecidableEq

variable {α : Type*} [DecidableEq α] {events : List (Event α)} {live : List α}

/-- An allocator hands out a slot that is not in use, and takes back one that is. -/
def step (live : List α) : Event α → Option (List α)
  | .allocate slot => if slot ∈ live then none else some (slot :: live)
  | .free slot => if slot ∈ live then some (live.erase slot) else none

/-- No slot is in use twice. -/
theorem nodup_of_exec (executed : exec step [] events = some live) : live.Nodup := by
  -- Both kinds of events are checked: only a free slot comes in, and only one goes out.
  refine (Run.of_exec executed).invariant List.nodup_nil ?_
  intro live event next nodup _ taken
  cases event with
  | allocate slot =>
    simp only [step] at taken
    split at taken <;> cases taken
    rename_i unused
    exact List.nodup_cons.mpr ⟨unused, nodup⟩
  | free slot =>
    simp only [step] at taken
    split at taken <;> cases taken
    exact nodup.erase slot

/-- A slot has been handed out as often as it was given back, and once more if it is in use. -/
theorem count_of_exec (executed : exec step [] events = some live) (slot : α) :
    events.count (.allocate slot) = events.count (.free slot) + live.count slot := by
  -- The induction is on the events, for every list of slots that are in use before them.
  have general (events : List (Event α)) : ∀ {start live : List α},
      exec step start events = some live →
        start.count slot + events.count (.allocate slot) =
          events.count (.free slot) + live.count slot := by
    induction events with
    | nil => intro start live executed; cases executed; simp
    | cons event rest ih =>
      intro start live executed
      obtain ⟨next, taken, remaining⟩ := Option.bind_eq_some_iff.mp executed
      have counted := ih remaining
      cases event with
      | allocate other =>
        simp only [step] at taken
        split at taken <;> cases taken
        by_cases same : other = slot
        · subst same
          simp at counted ⊢
          omega
        · simp [same] at counted ⊢
          omega
      | free other =>
        simp only [step] at taken
        split at taken <;> cases taken
        rename_i used
        by_cases same : other = slot
        · subst same
          -- The slot is in use, so that erasing it takes off exactly one.
          have some_ := List.count_pos_iff.mpr used
          simp at counted ⊢
          omega
        · simp [same, List.count_erase_of_ne (Ne.symm same)] at counted ⊢
          omega
  simpa using general events executed

/--
A slot is handed out and given back in turn, beginning with its being handed out.

At every moment it has been handed out as often as it was given back, or once more.
-/
theorem alternates_of_exec (executed : exec step [] events = some live)
    {first rest : List (Event α)} (split : events = first ++ rest) (slot : α) :
    first.count (.free slot) ≤ first.count (.allocate slot) ∧
      first.count (.allocate slot) ≤ first.count (.free slot) + 1 := by
  -- The events up to this moment have been carried out themselves.
  rw [split, exec_append] at executed
  obtain ⟨middle, before, -⟩ := Option.bind_eq_some_iff.mp executed
  have counted := count_of_exec before slot
  -- What is in use at this moment is there once, or not at all.
  have once := List.nodup_iff_count_le_one.mp (nodup_of_exec before) slot
  omega

end Allocation
