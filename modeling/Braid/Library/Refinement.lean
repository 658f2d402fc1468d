import Braid.Library.Transition

/-! Refinement: the events of a system are a run of a more abstract one. -/

namespace Transition

variable {S L A B : Type*} {step : S → L → Option S} {spec : A → B → Option A}
  {event : S → L → Option B}

/-- The events so far, and the one of a further step if it has one. -/
def recording (event : S → L → Option B) (state : S) (label : L) (_ : S) (events : List B) :
    List B :=
  events ++ (event state label).toList

/--
A system refines an abstract one when every step is a step of that system or none of it.

The invariant restricts the states in which a step has to be matched, and the abstraction says
which state of the abstract system each of them stands for.
-/
theorem Run.refines {I : S → Prop} {abstraction : S → A} {start finish : S} {labels : List L}
    {events : List B}
    (run : Run (track step (recording event)) anyStep (start, []) labels (finish, events))
    (initial : I start)
    (kept : ∀ state label next, I state → step state label = some next → I next)
    (matched : ∀ state label next, I state → step state label = some next →
      exec spec (abstraction state) (event state label).toList = some (abstraction next)) :
    I finish ∧ exec spec (abstraction start) events = some (abstraction finish) := by
  -- The events so far and the invariant are carried along the run together.
  refine run.invariant (P := fun seen => I seen.1 ∧
    exec spec (abstraction start) seen.2 = some (abstraction seen.1)) ⟨initial, rfl⟩ ?_
  rintro ⟨state, before⟩ label ⟨next, after⟩ ⟨holds, executed⟩ _ taken
  obtain ⟨stepped, recorded⟩ := track_eq_some.mp taken
  refine ⟨kept _ _ _ holds stepped, ?_⟩
  -- The events before the step lead to the state that the step starts from.
  simp only at executed
  rw [← recorded, recording, exec_append, executed, Option.bind_some]
  exact matched _ _ _ holds stepped

/--
A system simulates an abstract one when each of its steps is matched by a run of that system.

The relation says which states of the abstract system stand for a state, and is kept along the run.
-/
theorem Run.simulates {R : S → A → Prop} {guard : S → L → Prop} {start finish : S}
    {labels : List L} {abstract : A} (run : Run step guard start labels finish)
    (initial : R start abstract)
    (matched : ∀ state label next before, R state before → step state label = some next →
      ∃ events after, Run spec anyStep before events after ∧ R next after) :
    ∃ events after, Run spec anyStep abstract events after ∧ R finish after := by
  -- The abstract runs of the steps are put end to end.
  induction run with
  | refl => exact ⟨[], abstract, .refl, initial⟩
  | snoc _ _ taken ih =>
    obtain ⟨earlier, before, reached, related⟩ := ih
    obtain ⟨events, after, goesOn, kept⟩ := matched _ _ _ _ related taken
    exact ⟨earlier ++ events, after, reached.trans goesOn, kept⟩

end Transition
