import Mathlib.Data.List.Forall2

/-! Overload resolution: the one function whose conversions are better than those of all others. -/

/-- A function that can be called, with the conversion that it needs of each argument. -/
structure Overload (α κ : Type*) where
  function : α
  conversions : List κ
  template : Bool
  deriving DecidableEq, Repr

namespace Overload

variable {α κ : Type*} [LT κ] {first second chosen : Overload α κ}

/-- No argument needs a worse conversion than it does for another function. -/
def NoWorse (first second : Overload α κ) : Prop :=
  List.Forall₂ (fun own other => ¬ other < own) first.conversions second.conversions

/-- Some argument needs a better conversion than it does for another function. -/
def Improves (first second : Overload α κ) : Prop :=
  ∃ pair ∈ first.conversions.zip second.conversions, pair.1 < pair.2

/-- A function is better by a conversion, or else by being no instance of a template. -/
def Better (first second : Overload α κ) : Prop :=
  first.NoWorse second ∧
    (first.Improves second ∨ first.template = false ∧ second.template = true)

/-- An argument that needs a better conversion would need a worse one the other way round. -/
theorem NoWorse.not_improves (noWorse : first.NoWorse second) : ¬ second.Improves first := by
  rintro ⟨⟨own, other⟩, member, less⟩
  -- Read the other way round, no argument of the second function needs a better one.
  have turned : List.Forall₂ (fun other own => ¬ other < own) second.conversions
      first.conversions := List.Forall₂.flip noWorse
  exact List.forall₂_zip turned member less

/-- Of two functions, at most one is better than the other. -/
theorem Better.asymm (better : first.Better second) : ¬ second.Better first := by
  -- The one that improves is worse the other way, and only one of two is the template.
  rintro ⟨noWorse, improves | ⟨plain, -⟩⟩
  · exact better.1.not_improves improves
  · rcases better.2 with improves | ⟨-, template⟩
    · exact noWorse.not_improves improves
    · rw [plain] at template
      cases template

variable [DecidableEq α] [DecidableEq κ] [DecidableLT κ]

instance (first second : Overload α κ) : Decidable (first.NoWorse second) :=
  inferInstanceAs (Decidable (List.Forall₂ _ _ _))

instance (first second : Overload α κ) : Decidable (first.Improves second) :=
  inferInstanceAs (Decidable (∃ pair ∈ _, _))

instance (first second : Overload α κ) : Decidable (first.Better second) :=
  inferInstanceAs (Decidable (_ ∧ _))

/-- The function that is better than all others, if there is one: else the call is ambiguous. -/
def select (viable : List (Overload α κ)) : Option (Overload α κ) :=
  viable.find? fun chosen => ∀ other ∈ viable, other = chosen ∨ chosen.Better other

/-- The order in which the functions are declared does not matter for the one that is selected. -/
theorem select_eq_some_iff {viable : List (Overload α κ)} :
    select viable = some chosen ↔
      chosen ∈ viable ∧ ∀ other ∈ viable, other = chosen ∨ chosen.Better other := by
  have best_of_found {other : Overload α κ} (found : select viable = some other) :
      other ∈ viable ∧ ∀ another ∈ viable, another = other ∨ other.Better another := by
    have best := List.find?_some found
    exact ⟨List.mem_of_find?_eq_some found, by simpa using best⟩
  constructor
  · exact best_of_found
  · rintro ⟨member, best⟩
    have some_ : (select viable).isSome :=
      List.find?_isSome.mpr ⟨chosen, member, decide_eq_true best⟩
    obtain ⟨other, found⟩ := Option.isSome_iff_exists.mp some_
    obtain ⟨otherMember, otherBest⟩ := best_of_found found
    -- Two functions that are better than all others would be better than each other.
    rcases best other otherMember with rfl | better
    · exact found
    · rcases otherBest chosen member with rfl | worse
      · exact found
      · exact absurd worse better.asymm

end Overload
