import Braid.Library.Transition

/-! Two transition systems side by side, whose steps come in any order. -/

namespace Transition

variable {S L T M : Type*} {left : S → L → Option S} {right : T → M → Option T}
  {guard : S × T → L ⊕ M → Prop} {start finish : S × T} {labels : List (L ⊕ M)}

/-- A step of one of two systems, while the other one stays where it is. -/
def parallel (left : S → L → Option S) (right : T → M → Option T) (state : S × T) :
    L ⊕ M → Option (S × T)
  | .inl label => (left state.1 label).map fun next => (next, state.2)
  | .inr label => (right state.2 label).map fun next => (state.1, next)

/-- What the left system does in a run of both is a run of its own. -/
theorem Run.ofLeft (run : Run (parallel left right) guard start labels finish) :
    ∃ own, Run left anyStep start.1 own finish.1 := by
  induction run with
  | refl => exact ⟨[], .refl⟩
  | @snoc _ _ _ label _ _ taken ih =>
    obtain ⟨own, before⟩ := ih
    cases label with
    | inl label =>
      obtain ⟨next, stepped, rfl⟩ := Option.map_eq_some_iff.mp taken
      exact ⟨_, before.snoc trivial stepped⟩
    -- A step of the right system is none of the left one.
    | inr label =>
      obtain ⟨next, stepped, rfl⟩ := Option.map_eq_some_iff.mp taken
      exact ⟨own, before⟩

/-- What the right system does in a run of both is a run of its own. -/
theorem Run.ofRight (run : Run (parallel left right) guard start labels finish) :
    ∃ own, Run right anyStep start.2 own finish.2 := by
  induction run with
  | refl => exact ⟨[], .refl⟩
  | @snoc _ _ _ label _ _ taken ih =>
    obtain ⟨own, before⟩ := ih
    cases label with
    -- A step of the left system is none of the right one.
    | inl label =>
      obtain ⟨next, stepped, rfl⟩ := Option.map_eq_some_iff.mp taken
      exact ⟨own, before⟩
    | inr label =>
      obtain ⟨next, stepped, rfl⟩ := Option.map_eq_some_iff.mp taken
      exact ⟨_, before.snoc trivial stepped⟩

/-- What every step of either system keeps, where the guard permits it, holds in every run. -/
theorem Run.parallel_invariant {P : S → T → Prop}
    (run : Run (parallel left right) guard start labels finish) (initial : P start.1 start.2)
    (keptLeft : ∀ state label next, P state.1 state.2 → guard state (.inl label) →
      left state.1 label = some next → P next state.2)
    (keptRight : ∀ state label next, P state.1 state.2 → guard state (.inr label) →
      right state.2 label = some next → P state.1 next) : P finish.1 finish.2 := by
  -- Every step is one of the two systems, and leaves the other half of the state alone.
  refine run.invariant (P := fun state => P state.1 state.2) initial ?_
  rintro state (label | label) next holds permitted taken
  · obtain ⟨stepped, own, rfl⟩ := Option.map_eq_some_iff.mp taken
    exact keptLeft state label stepped holds permitted own
  · obtain ⟨stepped, own, rfl⟩ := Option.map_eq_some_iff.mp taken
    exact keptRight state label stepped holds permitted own

end Transition
