import Mathlib.Data.List.Basic
import Mathlib.Logic.Function.Basic

/-! Entries that leave several queues in the order in which they were asked for. -/

variable {α ι κ : Type*}

/--
What was asked for, what has left, what waits in each queue, and what each caller brings.

What has left comes first in the order of asking, then what waits in a queue, and then what a
caller brings to the queues. At any time, one queue has all that waits.
-/
structure Line (asked left : List α) (waiting : ι → List α) (calling : κ → List α) : Prop where
  ordered : ∀ queue caller, (left ++ waiting queue ++ calling caller).Sublist asked
  together : ∀ first second, waiting first ≠ [] → waiting second ≠ [] → first = second

namespace Line

variable {asked left : List α} {waiting : ι → List α} {calling : κ → List α}

/-- Nothing has been asked for at the start. -/
theorem start : Line (α := α) (ι := ι) (κ := κ) [] [] (fun _ => []) (fun _ => []) where
  ordered _ _ := .slnil
  together _ _ present _ := absurd rfl present

/-- A caller asks for entries, and brings them. -/
theorem ask [DecidableEq κ] (line : Line asked left waiting calling) {caller : κ}
    (empty : calling caller = []) (entries : List α) :
    Line (asked ++ entries) left waiting (Function.update calling caller entries) where
  ordered queue other := by
    by_cases same : other = caller
    · subst same
      have before := line.ordered queue other
      -- This caller brought nothing, so that the new entries are behind all that it can see.
      rw [empty, List.append_nil] at before
      rw [Function.update_self]
      exact before.append (.refl entries)
    · rw [Function.update_of_ne same]
      exact (line.ordered queue other).trans (List.sublist_append_left ..)
  together := line.together

/-- A caller gives up what it brings. -/
theorem drop [DecidableEq κ] (line : Line asked left waiting calling) (caller : κ) :
    Line asked left waiting (Function.update calling caller []) where
  ordered queue other := by
    -- What the caller brings comes last, so without it the line is still in order.
    by_cases same : other = caller
    · subst same
      rw [Function.update_self, List.append_nil]
      exact (List.sublist_append_left ..).trans (line.ordered queue other)
    · rw [Function.update_of_ne same]
      exact line.ordered queue other
  together := line.together

/--
A caller puts what it brings behind what waits in a queue.

No other caller brings anything at that time, and nothing waits in another queue.
-/
theorem push [DecidableEq ι] [DecidableEq κ] (line : Line asked left waiting calling) (queue : ι)
    (caller : κ) (alone : calling caller ≠ [] → ∀ other, other ≠ caller → calling other = [])
    (only : calling caller ≠ [] → ∀ other, other ≠ queue → waiting other = []) :
    Line asked left (Function.update waiting queue (waiting queue ++ calling caller))
      (Function.update calling caller []) where
  ordered target other := by
    -- A queue that is not pushed to sees that the caller has dropped what it brought.
    have bring := (line.drop caller).ordered target other
    by_cases same : target = queue
    · subst same
      rw [Function.update_self]
      by_cases nothing : calling caller = []
      · rwa [nothing, List.append_nil]
      · -- What the caller brings is behind everything that is on its way.
        have none : Function.update calling caller [] other = [] := by
          by_cases itself : other = caller
          · rw [itself, Function.update_self]
          · rw [Function.update_of_ne itself, alone nothing other itself]
        rw [none, List.append_nil, ← List.append_assoc]
        exact line.ordered target caller
    · rw [Function.update_of_ne same]
      exact bring
  together first second firstWaits secondWaits := by
    by_cases nothing : calling caller = []
    · rw [nothing, List.append_nil, Function.update_eq_self] at firstWaits secondWaits
      exact line.together first second firstWaits secondWaits
    · -- Only the queue that is pushed to has entries.
      have one (target : ι) (waits : Function.update waiting queue
          (waiting queue ++ calling caller) target ≠ []) : target = queue := by
        by_contra different
        rw [Function.update_of_ne different, only nothing target different] at waits
        exact waits rfl
      rw [one first firstWaits, one second secondWaits]

/-- The entries at the front of a queue leave. -/
theorem leave [DecidableEq ι] (line : Line asked left waiting calling) {queue : ι}
    {front rest : List α} (split : waiting queue = front ++ rest) :
    Line asked (left ++ front) (Function.update waiting queue rest) calling where
  ordered target caller := by
    -- What leaves is the first of what waits, directly behind what has left before.
    have before := line.ordered queue caller
    rw [split, ← List.append_assoc] at before
    by_cases same : target = queue
    · subst same
      rwa [Function.update_self]
    · rw [Function.update_of_ne same]
      by_cases nothing : front = []
      · rw [nothing, List.append_nil]
        exact line.ordered target caller
      · -- Where something leaves, nothing waits in another queue.
        have none : waiting target = [] := by
          by_contra waits
          exact same (line.together target queue waits (by simp [split, nothing]))
        rw [none, List.append_nil]
        exact ((List.sublist_append_left _ rest).append (.refl _)).trans before
  together first second firstWaits secondWaits := by
    have still (target : ι) (waits : Function.update waiting queue rest target ≠ []) :
        waiting target ≠ [] := by
      by_cases same : target = queue
      · subst same
        rw [Function.update_self] at waits
        simp [split, waits]
      · rwa [Function.update_of_ne same] at waits
    exact line.together first second (still first firstWaits) (still second secondWaits)

/-- What has left has done so in the order of asking. -/
theorem inOrder (line : Line asked left waiting calling) (queue : ι) (caller : κ) :
    left.Sublist asked := by
  have before := line.ordered queue caller
  rw [List.append_assoc] at before
  exact (List.sublist_append_left ..).trans before

end Line
