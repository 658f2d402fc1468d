import Mathlib.Algebra.GroupWithZero.Nat

/-! Labelled transition systems given by a step function: executions, guarded runs, invariants. -/

namespace Transition

variable {S L : Type*} {step : S → L → Option S} {guard weaker : S → L → Prop}

/-- A family with one member has a member for a literal to name. -/
instance oneNeZero : NeZero 1 := ⟨Nat.one_ne_zero⟩

/-- A family with two members has a member for a literal to name. -/
instance twoNeZero : NeZero 2 := ⟨by decide⟩

/-- Executes the labels in order, failing at the first one that is not enabled. -/
def exec (step : S → L → Option S) : S → List L → Option S
  | state, [] => some state
  | state, label :: rest => (step state label).bind fun next => exec step next rest

/-- Executes the labels in order, failing also where a step does not meet the guard. -/
def execWhile (step : S → L → Option S) (guard : S → L → Prop)
    [∀ state label, Decidable (guard state label)] : S → List L → Option S
  | state, [] => some state
  | state, label :: rest =>
    if guard state label then (step state label).bind fun next => execWhile step guard next rest
    else none

/-- A run from one state to another, every step of which meets the guard in the state before it. -/
inductive Run (step : S → L → Option S) (guard : S → L → Prop) (start : S) : List L → S → Prop
  | refl : Run step guard start [] start
  | snoc {labels : List L} {state next : S} {label : L} :
    Run step guard start labels state → guard state label → step state label = some next →
      Run step guard start (labels ++ [label]) next

/-- The guard that permits every step. -/
def anyStep : S → L → Prop := fun _ _ => True

/-- What holds at the start and is kept by every permitted step holds wherever a run ends. -/
theorem Run.invariant {P : S → Prop} {start finish : S} {labels : List L}
    (run : Run step guard start labels finish) (initial : P start)
    (kept : ∀ state label next, P state → guard state label → step state label = some next →
      P next) : P finish := by
  -- The induction is on the run, with the last step taken off.
  induction run with
  | refl => exact initial
  | snoc _ permitted taken ih => exact kept _ _ _ ih permitted taken

/-- A run under a guard is a run under every weaker guard. -/
theorem Run.mono {start finish : S} {labels : List L}
    (run : Run step guard start labels finish)
    (implied : ∀ state label, guard state label → weaker state label) :
    Run step weaker start labels finish := by
  induction run with
  | refl => exact .refl
  | snoc _ permitted taken ih => exact ih.snoc (implied _ _ permitted) taken

/-- Runs compose end to end. -/
theorem Run.trans {start middle finish : S} {first second : List L}
    (before : Run step guard start first middle) (after : Run step guard middle second finish) :
    Run step guard start (first ++ second) finish := by
  -- The second run is taken apart from its end, so that the first one stays as it is.
  induction after with
  | refl => simpa using before
  | snoc _ permitted taken ih =>
    rw [← List.append_assoc]
    exact ih.snoc permitted taken

/-- A single permitted step is a run. -/
theorem Run.single {start finish : S} {label : L} (permitted : guard start label)
    (taken : step start label = some finish) : Run step guard start [label] finish :=
  Run.refl.snoc permitted taken

/--
A run meets a guard throughout when a property of its last state says so step by step.

The invariant describes the states on the way, and the property is read backwards along them.
-/
theorem Run.restrict {I P : S → Prop} {start finish : S} {labels : List L}
    (run : Run step weaker start labels finish) (initial : I start)
    (kept : ∀ state label next, I state → weaker state label → step state label = some next →
      I next)
    (backward : ∀ state label next, I state → weaker state label →
      step state label = some next → P next → P state ∧ guard state label)
    (holds : P finish) : Run step guard start labels finish := by
  -- The property of the last state is carried backwards, and the invariant forwards.
  induction run with
  | refl => exact .refl
  | snoc before permitted taken ih =>
    have invariant := before.invariant initial kept
    obtain ⟨earlier, met⟩ := backward _ _ _ invariant permitted taken holds
    exact (ih earlier).snoc met taken

/--
A property of the last state says that a run met a guard throughout, and the other way round.

Each step keeps the property exactly if it meets the guard, so that a step that does not meet it
spoils the property for the rest of the run.
-/
theorem Run.restrict_iff {I P : S → Prop} {start finish : S} {labels : List L}
    (run : Run step weaker start labels finish) (initial : I start) (holds : P start)
    (implied : ∀ state label, guard state label → weaker state label)
    (kept : ∀ state label next, I state → weaker state label → step state label = some next →
      I next)
    (each : ∀ state label next, I state → weaker state label → step state label = some next →
      (P next ↔ P state ∧ guard state label)) :
    P finish ↔ Run step guard start labels finish := by
  constructor
  · refine run.restrict initial kept ?_
    intro state label next invariant permitted taken
    exact (each state label next invariant permitted taken).mp
  · intro guarded
    -- The invariant and the property are kept together along the guarded run.
    have both : I finish ∧ P finish := by
      refine guarded.invariant (P := fun state => I state ∧ P state) ⟨initial, holds⟩ ?_
      rintro state label next ⟨invariant, earlier⟩ met taken
      have permitted := implied state label met
      exact ⟨kept state label next invariant permitted taken,
        (each state label next invariant permitted taken).mpr ⟨earlier, met⟩⟩
    exact both.2

/-- A successful execution is a run. -/
theorem Run.of_exec {start finish : S} {labels : List L}
    (executed : exec step start labels = some finish) :
    Run step anyStep start labels finish := by
  -- An execution takes its labels from the front, so its first step becomes a run of its own.
  induction labels generalizing start with
  | nil => cases executed; exact .refl
  | cons label rest ih =>
    obtain ⟨next, taken, remaining⟩ := Option.bind_eq_some_iff.mp executed
    exact (Run.single trivial taken).trans (ih remaining)

/-- Executing labels and then others is executing all of them. -/
theorem exec_append (start : S) (first second : List L) :
    exec step start (first ++ second) = (exec step start first).bind fun middle =>
      exec step middle second := by
  induction first generalizing start with
  | nil => rfl
  -- The first label is executed on both sides, and the rest by induction.
  | cons label first ih =>
    rw [List.cons_append, exec, exec, Option.bind_assoc]
    exact Option.bind_congr fun next _ => ih next

/-- Where a label is not enabled, an execution that repeats it goes nowhere. -/
theorem exec_stopped {state finish : S} {label : L} {count : Nat} (stopped : step state label = none)
    (executed : exec step state (List.replicate count label) = some finish) : finish = state := by
  cases count with
  | zero => exact (Option.some.inj executed).symm
  | succ count =>
    -- The first of the steps is not taken.
    obtain ⟨next, taken, -⟩ := Option.bind_eq_some_iff.mp executed
    rw [stopped] at taken
    cases taken

/-- Repeating a label behind some others until it is not enabled has one outcome. -/
theorem exec_unique {start first second : S} {label : L} {labels : List L} {short long : Nat}
    (one : exec step start (labels ++ List.replicate short label) = some first)
    (two : exec step start (labels ++ List.replicate long label) = some second)
    (stopped : step first label = none) (stopped' : step second label = none) :
    first = second := by
  -- The longer execution goes on behind the shorter one, where the label is not enabled.
  have longer {short more : Nat} {first second : S}
      (one : exec step start (labels ++ List.replicate short label) = some first)
      (two : exec step start (labels ++ List.replicate (short + more) label) = some second)
      (stopped : step first label = none) : second = first := by
    rw [← List.replicate_append_replicate, ← List.append_assoc, exec_append, one,
      Option.bind_some] at two
    exact exec_stopped stopped two
  rcases Nat.le_total short long with le | le
  · obtain ⟨more, rfl⟩ := Nat.exists_eq_add_of_le le
    exact (longer one two stopped).symm
  · obtain ⟨more, rfl⟩ := Nat.exists_eq_add_of_le le
    exact longer two one stopped'

/-- A successful guarded execution is a run under that guard. -/
theorem Run.of_execWhile [∀ state label, Decidable (guard state label)] {start finish : S}
    {labels : List L} (executed : execWhile step guard start labels = some finish) :
    Run step guard start labels finish := by
  induction labels generalizing start with
  | nil => cases executed; exact .refl
  -- The first step has met its guard, or nothing would have been executed.
  | cons label rest ih =>
    simp only [execWhile] at executed
    split at executed
    · rename_i permitted
      obtain ⟨next, taken, remaining⟩ := Option.bind_eq_some_iff.mp executed
      exact (Run.single permitted taken).trans (ih remaining)
    · cases executed

section Track

variable {H : Type*} {observe : S → L → S → H → H}

/-- A step together with a record of what has happened, which no step reads. -/
def track (step : S → L → Option S) (observe : S → L → S → H → H) (seen : S × H) (label : L) :
    Option (S × H) :=
  (step seen.1 label).map fun next => (next, observe seen.1 label next seen.2)

/-- A step that is tracked is a step, and the record is brought up to date. -/
theorem track_eq_some {seen finish : S × H} {label : L} :
    track step observe seen label = some finish ↔
      step seen.1 label = some finish.1 ∧ observe seen.1 label finish.1 seen.2 = finish.2 := by
  obtain ⟨next, record⟩ := finish
  -- A tracked step is a step with its record beside it.
  simp only [track, Option.map_eq_some_iff, Prod.mk.injEq]
  constructor
  · rintro ⟨_, taken, rfl, recorded⟩
    exact ⟨taken, recorded⟩
  · rintro ⟨taken, recorded⟩
    exact ⟨next, taken, rfl, recorded⟩

end Track

end Transition
