import Braid.Library.Transition
import Braid.Task.Progress
import Mathlib.Algebra.GroupWithZero.Nat
import Mathlib.Order.WellFounded

/-! A thread that runs alone returns from the call it is in. -/

namespace Braid.Task

variable {ι σ τ : Type}

/-- A bound on the steps of a call that does not process a serializer. -/
def Frame.weight : Frame σ τ → Nat
  | .calls rest => 5 * rest.length + 1
  | .requestTask _ _ => 4
  | .pushEmpty _ _ => 3
  | .pushInsert _ _ _ => 2
  | .pushHandOver _ => 1
  | .poll _ => 1
  | _ => 0

/-- The weights of some calls together. -/
def weight (stack : List (Frame σ τ)) : Nat := (stack.map Frame.weight).sum

/-- A bound on the steps of the process loop up to its next turn. -/
def remaining (program : Program σ τ) (locals : ProcessLocals σ τ) : ProcessPoint → Nat
  | .enter => 2
  | .pop => 1
  | .invoke => ((locals.task.map fun task => weight (invokeFrame program task.func)).getD 0) + 6
  | .running => 5
  | .state => 4
  | .empty => 3
  | .requeue => 2
  | .exit => 1
  | _ => 0

/-- A bound on the pops that the process loop still makes. -/
def turns (locals : ProcessLocals σ τ) (point : ProcessPoint) : Nat :=
  2 * (maxProcessTaskCount - locals.processCount) + if point = .enter ∨ point = .pop then 1 else 0

/--
What is left for a thread to do.

The calls below the process loop count first, then the turns of the loop, then the calls that
its current task has made.
-/
def effort (program : Program σ τ) : List (Frame σ τ) → Nat × Nat × Nat
  | [] => (0, 0, 0)
  | .process point locals :: rest => (weight rest, turns locals point, remaining program locals point)
  | frame :: rest =>
    let below := effort program rest
    if (processes rest).isEmpty then (below.1 + frame.weight, 0, 0)
    else (below.1, below.2.1, below.2.2 + frame.weight)

/-- The lexicographic order on what is left to do. -/
abbrev Less : Nat × Nat × Nat → Nat × Nat × Nat → Prop :=
  Prod.Lex (· < ·) (Prod.Lex (· < ·) (· < ·))

/-- There is no endless descent in that order. -/
theorem less_wellFounded : WellFounded Less :=
  WellFounded.prod_lex Nat.lt_wfRel.wf (WellFounded.prod_lex Nat.lt_wfRel.wf Nat.lt_wfRel.wf)

/-- No more turns and fewer steps up to the next one leave less to do. -/
theorem less_right {outer turns turns' steps steps' : Nat} (noMore : turns' ≤ turns)
    (fewer : steps' < steps) : Less (outer, turns', steps') (outer, turns, steps) := by
  rcases Nat.lt_or_eq_of_le noMore with less | same
  · exact .right _ (.left _ _ less)
  · exact same ▸ .right _ (.right _ fewer)

variable {program : Program σ τ}

@[simp] theorem weight_nil : weight ([] : List (Frame σ τ)) = 0 := rfl

@[simp] theorem weight_cons (frame : Frame σ τ) (rest : List (Frame σ τ)) :
    weight (frame :: rest) = frame.weight + weight rest := by simp [weight]

/-- Calls over a stack outside of the process loop add to what the stack has left. -/
theorem effort_outside {calls rest : List (Frame σ τ)} (others : processes calls = [])
    (outside : processes rest = []) :
    effort program (calls ++ rest) = (weight calls + weight rest, 0, 0) := by
  -- Outside of the loop, only the weights count.
  have base : effort program rest = (weight rest, 0, 0) := by
    induction rest with
    | nil => rfl
    | cons frame rest ih =>
      rw [processes_cons, List.append_eq_nil_iff] at outside
      have below := ih outside.2
      cases frame <;> simp_all [effort, Frame.process?]
      all_goals omega
  induction calls with
  | nil => simpa using base
  | cons frame calls ih =>
    rw [processes_cons, List.append_eq_nil_iff] at others
    -- With the calls on top, there is still no loop in the stack.
    have empty : processes (calls ++ rest) = [] := by
      simp only [processes, List.filterMap_append] at others outside ⊢
      simp [others.2, outside]
    cases frame <;> simp_all [effort, Frame.process?]
    all_goals omega

/-- Calls over a stack inside of the process loop add to what its current task has left. -/
theorem effort_inside {calls rest : List (Frame σ τ)} (others : processes calls = [])
    (inside : processes rest ≠ []) : effort program (calls ++ rest) =
      ((effort program rest).1, (effort program rest).2.1, (effort program rest).2.2 + weight calls) := by
  induction calls with
  | nil => simp
  | cons frame calls ih =>
    rw [processes_cons, List.append_eq_nil_iff] at others
    -- With the calls on top, the loop is still in the stack.
    have some_ : processes (calls ++ rest) ≠ [] := by
      simp only [processes, List.filterMap_append, ne_eq, List.append_eq_nil_iff] at inside ⊢
      exact fun both => inside both.2
    cases frame <;> simp_all [effort, Frame.process?]
    all_goals omega

/-- Calls of less weight in place of others leave less to do. -/
theorem effort_replace (before after : List (Frame σ τ)) {rest : List (Frame σ τ)}
    (others : processes before = []) (others' : processes after = []) (less : weight after < weight before) :
    Less (effort program (after ++ rest)) (effort program (before ++ rest)) := by
  by_cases outside : processes rest = []
  · -- Outside of a loop the first component goes down, and inside of one the last.
    rw [effort_outside others outside, effort_outside others' outside]
    exact .left _ _ (by omega)
  · rw [effort_inside others outside, effort_inside others' outside]
    exact .right _ (.right _ (by omega))

/-- A call of the process loop in place of one outside of it leaves less to do below it. -/
theorem effort_enter {frame : Frame σ τ} {rest : List (Frame σ τ)} (other : frame.process? = none)
    (outside : processes rest = []) (positive : 0 < frame.weight) {point : ProcessPoint}
    {locals : ProcessLocals σ τ} :
    Less (effort program (.process point locals :: rest)) (effort program (frame :: rest)) := by
  -- What entered the loop was on top of the calls that count first, and is gone from them.
  have before : effort program ([frame] ++ rest) = _ := effort_outside (by simp [other]) outside
  rw [List.singleton_append] at before
  rw [before]
  exact .left _ _ (by simpa using positive)

variable [DecidableEq σ] {shared shared' : Shared σ τ} {slot slot' : Option σ}
  {stack stack' : List (Frame σ τ)}

/-- Every move of a thread leaves it less to do. -/
theorem Move.effort (move : Move program shared slot stack shared' slot' stack')
    (stackCalm : CalmStack slot stack) : Less (effort program stack') (effort program stack) := by
  cases move with
  -- Calls outside of the loop, or of a task in it, lose weight.
  | callsDone => exact effort_replace [.calls []] [] rfl rfl (by simp [Frame.weight])
  | callRequest =>
    rename_i rest serializer task calls
    exact effort_replace [.calls (.requestTask serializer task :: calls)]
      [.requestTask serializer (.user task), .calls calls] rfl rfl (by simp [Frame.weight]; omega)
  | callLogFiltered =>
    rename_i rest level calls
    exact effort_replace [.calls (.log level :: calls)] [.calls calls] rfl rfl
      (by simp [Frame.weight])
  | callLog =>
    rename_i rest level calls
    exact effort_replace [.calls (.log level :: calls)]
      [.requestTask program.logHandler .writeLog, .calls calls] rfl rfl (by simp [Frame.weight]; omega)
  | request =>
    rename_i rest serializer func
    exact effort_replace [.requestTask serializer func] [.pushEmpty serializer _] rfl rfl
      (by simp [Frame.weight])
  | pushEmpty =>
    rename_i rest serializer task
    exact effort_replace [.pushEmpty serializer task] [.pushInsert serializer task _] rfl rfl
      (by simp [Frame.weight])
  | pushInsertEmpty =>
    rename_i rest serializer task
    exact effort_replace [.pushInsert serializer task true] [.pushHandOver serializer] rfl rfl
      (by simp [Frame.weight])
  | pushInsert =>
    rename_i rest serializer task
    exact effort_replace [.pushInsert serializer task false] [] rfl rfl (by simp [Frame.weight])
  -- Entering a loop takes the hand-over off the calls below it.
  | handOverInline => exact effort_enter rfl (stackCalm.outside rfl) (by simp [Frame.weight])
  | handOverAdd =>
    rename_i current rest serializer
    exact effort_replace [.pushHandOver serializer] [] rfl rfl (by simp [Frame.weight])
  | pollNothing => exact effort_replace [.poll _] [] rfl rfl (by simp [Frame.weight])
  | poll _ => exact effort_enter rfl (stackCalm.outside rfl) (by simp [Frame.weight])
  -- The loop itself comes nearer to its next turn.
  | enter | turnLast | state | emptyExit | emptyRequeue | requeue =>
    exact less_right (by simp [turns]; try omega) (by simp [remaining])
  -- A pop uses up a turn, and so does going on after a task.
  | popNothing _ | pop _ => exact .right _ (.left _ _ (by simp [turns]))
  | invoke popped =>
    rename_i rest locals task
    -- What the task adds is what the invoke had counted for it.
    have added : processes (invokeFrame program task.func) = [] := by cases task.func <;> rfl
    rw [effort_inside added (by simp [Frame.process?])]
    exact less_right (by simp [effort, turns]) (by simp [effort, remaining, popped]; omega)
  | turn below => exact .right _ (.left _ _ (by simp [turns]; omega))
  | exit =>
    -- A loop that has ended leaves the calls below it as they were.
    have outside := stackCalm.process.2
    have after : effort program ([] ++ _) = _ := effort_outside rfl outside
    rw [List.nil_append] at after
    rw [after]
    simp only [weight_nil, Nat.zero_add]
    exact less_right (Nat.zero_le _) (by simp [remaining])

variable [DecidableEq ι] {state : State ι σ τ}

/-- A thread inside of a call of a calm state can always take a step. -/
theorem step_run (program : Program σ τ) (calm : state.Calm) (at_ : ι)
    (inside : (state.thread at_).stack ≠ []) :
    ∃ next, step program state (.run at_) = some next := by
  have noFault := calm.shared.noFault
  unfold step
  -- A calm program has not stopped, and every call has a next step.
  rw [if_neg (by simp [noFault])]
  cases stack : (state.thread at_).stack with
  | nil => exact absurd stack inside
  | cons frame rest => simp only [stack, Option.some.injEq, exists_eq']

/-- The only steps are those of one thread inside of its call. -/
def alone (at_ : ι) (_ : State ι σ τ) (label : Label ι σ τ) : Prop := label = .run at_

/-- A thread of a calm state that is left alone returns from the call it is in. -/
theorem returns (linked : program.linkage = oneCopy) (harmless : program.Harmless)
    (calm : state.Calm) (at_ : ι) :
    ∃ labels later, Transition.Run (step program) (alone at_) state labels later ∧
      (later.thread at_).stack = [] := by
  -- Each step leaves the thread less to do, whatever its tasks request.
  induction left : effort program (state.thread at_).stack using less_wellFounded.induction
    generalizing state with
  | _ left_ ih =>
    subst left
    by_cases inside : (state.thread at_).stack = []
    · exact ⟨[], state, .refl, inside⟩
    · obtain ⟨next, taken⟩ := step_run program calm at_ inside
      have progress := step_progress linked calm rfl taken
      have nextCalm := progress.calm harmless calm
      cases progress with
      | run move =>
        have less := move.effort (calm.threads at_)
        obtain ⟨labels, later, run, outside⟩ := ih _ (by simpa using less) nextCalm rfl
        have first : Transition.Run (step program) (alone at_) state _ _ := .single rfl taken
        exact ⟨_, later, first.trans run, outside⟩

end Braid.Task
