import Braid.Task.Charge
import Braid.Task.Solo

/-! No task is lost: a serializer with tasks left is queued in the distributor. -/

namespace Braid.Task

variable {ι σ τ : Type}

/-- A call that is neither inside of `push` nor inside of `process_task_serializer`. -/
def Frame.quiet : Frame σ τ → Bool
  | .calls _ => true
  | .requestTask _ _ => true
  | _ => false

/-- No thread is inside of `push` or of `process_task_serializer`. -/
def State.Quiet (state : State ι σ τ) : Prop :=
  ∀ at_, (state.thread at_).stack.all Frame.quiet = true

/-- Every serializer with tasks left is queued in the distributor. -/
def State.Scheduled (state : State ι σ τ) : Prop :=
  ∀ serializer, state.shared.taskQueue serializer ≠ [] →
    serializer ∈ state.shared.serializerQueue .taskDistributor

variable [DecidableEq σ]

/-- What a move does to the queue of a serializer: nothing, a push, or a pop. -/
theorem Move.taskQueue {program : Program σ τ} {shared shared' : Shared σ τ}
    {slot slot' : Option σ} {stack stack' : List (Frame σ τ)}
    (move : Move program shared slot stack shared' slot' stack') (serializer : σ) :
    shared'.taskQueue serializer = shared.taskQueue serializer ∨
    (∃ task wasEmpty rest, stack = .pushInsert serializer task wasEmpty :: rest ∧
      shared'.taskQueue serializer = shared.taskQueue serializer ++ [task]) ∨
    ∃ locals rest task, stack = .process .pop locals :: rest ∧ locals.serializer = serializer ∧
      stack' = .process .invoke
        { locals with task := some { task with refCount := task.refCount + 1 } } :: rest ∧
      shared.taskQueue serializer = task :: shared'.taskQueue serializer := by
  cases move with
  -- An insert adds a task to one queue, and to no other.
  | pushInsertEmpty | pushInsert =>
    rename_i target task
    by_cases same : serializer = target
    · subst same
      exact .inr (.inl ⟨task, _, _, rfl, by simp [Shared.afterInsert]⟩)
    · exact .inl (by simp [Shared.afterInsert, same])
  -- A pop takes the first task off one queue.
  | pop first =>
    rename_i rest locals task others
    by_cases same : serializer = locals.serializer
    · subst same
      exact .inr (.inr ⟨locals, rest, task, rfl, rfl, rfl,
        by simp [Shared.afterDrop, Shared.afterPop, first]⟩)
    · exact .inl (by simp [Shared.afterDrop, Shared.afterPop, same])
  | _ => exact .inl rfl

/-- The last step of a push that found the queue not empty, or of one that goes on. -/
theorem Move.insert {program : Program σ τ} {shared shared' : Shared σ τ} {slot slot' : Option σ}
    {serializer : σ} {task : ITask σ τ} {wasEmpty : Bool} {rest stack' : List (Frame σ τ)}
    (move : Move program shared slot (.pushInsert serializer task wasEmpty :: rest)
      shared' slot' stack') : shared' = shared.afterInsert serializer task := by
  cases move <;> rfl

variable [Fintype ι]

/-- Somebody is in charge of every serializer with tasks left. -/
def State.Watched (state : State ι σ τ) : Prop :=
  ∀ serializer, state.shared.taskQueue serializer ≠ [] → 0 < state.inCharge serializer

/--
A push that found the queue not empty adds its task while that still holds, or while somebody
is in charge of the serializer.

This is what `push` takes for granted when it leaves the task to others.
-/
def State.timely (state : State ι σ τ) (label : Label ι σ τ) : Bool :=
  match state.acting label with
  | .pushInsert serializer _ false :: _ =>
    !(state.shared.taskQueue serializer).isEmpty || state.inCharge serializer != 0
  | _ => true

/-- The steps that call no `set_destroy` and leave a task only to somebody. -/
def timelyStep (state : State ι σ τ) (label : Label ι σ τ) : Prop :=
  label.harmless = true ∧ state.timely label = true

instance (state : State ι σ τ) (label : Label ι σ τ) : Decidable (timelyStep state label) :=
  inferInstanceAs (Decidable (_ ∧ _))

/-- A quiet call is in charge of nothing. -/
theorem charge_quiet {stack : List (Frame σ τ)} (quiet : stack.all Frame.quiet = true)
    (serializer : σ) : charge serializer stack = 0 := by
  induction stack with
  | nil => rfl
  | cons frame rest ih =>
    simp only [List.all_cons, Bool.and_eq_true] at quiet
    rw [charge_cons, ih quiet.2]
    -- Of all calls, only those that are not quiet can be in charge.
    cases frame <;> first | rfl | cases quiet.1

/-- In a quiet state, only the distributor is in charge of serializers. -/
theorem inCharge_quiet {state : State ι σ τ} (quiet : state.Quiet) (serializer : σ) :
    state.inCharge serializer =
      (state.shared.serializerQueue .taskDistributor).count serializer := by
  simp [State.inCharge, charge_quiet (quiet _)]

/-- In a quiet state, to be watched is to be queued in the distributor. -/
theorem watched_iff_scheduled {state : State ι σ τ} (quiet : state.Quiet) :
    state.Watched ↔ state.Scheduled := by
  simp only [State.Watched, State.Scheduled, inCharge_quiet quiet, List.count_pos_iff]

/-- A thread that is in charge of a serializer makes somebody in charge of it. -/
theorem inCharge_of_charge {state : State ι σ τ} {serializer : σ} (at_ : ι)
    (charged : 0 < charge serializer (state.thread at_).stack) : 0 < state.inCharge serializer := by
  -- The charge of one thread is a part of the sum.
  have member := Finset.single_le_sum (f := fun at_ => charge serializer (state.thread at_).stack)
    (fun _ _ => Nat.zero_le _) (Finset.mem_univ at_)
  simp only [State.inCharge]
  omega

variable [DecidableEq ι] {program : Program σ τ} {state next : State ι σ τ} {label : Label ι σ τ}

/-- A timely step keeps every serializer with tasks left watched. -/
theorem Progress.watched (progress : Progress program state label next)
    (timely : state.timely label = true) (watched : state.Watched) : next.Watched := by
  intro serializer some_
  have changed := progress.inCharge serializer
  cases progress with
  | call | poll | setMinLevel =>
    have before := watched serializer some_
    exact before.trans_eq changed.symm
  | run move =>
    rename_i at_ shared' thread'
    have before := watched serializer
    rcases move.taskQueue serializer with same | ⟨task, wasEmpty, rest, top, _⟩ |
      ⟨locals, rest, task, top, _, _, queued⟩
    · -- The queue is as it was, so the process loop has not found it empty.
      have some_ : state.shared.taskQueue serializer ≠ [] := same ▸ some_
      have stays : leaves state.shared serializer (state.thread at_).stack = 0 := by
        unfold leaves; split <;> simp [some_]
      have owner := before some_
      simp only [State.acting] at changed
      omega
    · -- A push that was true is in charge itself, and any other one is timely.
      have owner : 0 < state.inCharge serializer := by
        cases wasEmpty with
        | true => exact inCharge_of_charge at_ (by simp [top, Frame.charge])
        | false =>
          simp only [State.timely, State.acting, top, Bool.or_eq_true, Bool.not_eq_true',
            List.isEmpty_eq_false_iff, bne_iff_ne] at timely
          rcases timely with queued | owned
          · exact before queued
          · omega
      simp only [State.acting, top, leaves, claims] at changed
      omega
    · -- A pop is made by a loop that goes on being in charge.
      have owner := before (by rw [queued]; simp)
      simp only [State.acting, top, leaves, claims] at changed
      omega

/-- A serializer with tasks left that nobody is in charge of stays as it is. -/
theorem Progress.unwatched (progress : Progress program state label next)
    {serializer : σ} (some_ : state.shared.taskQueue serializer ≠ [])
    (nobody : state.inCharge serializer = 0) :
    next.shared.taskQueue serializer ≠ [] ∧ next.inCharge serializer = 0 := by
  have changed := progress.inCharge serializer
  -- A push claims only what it finds empty, and this queue is not.
  have unclaimed : claims state.shared serializer (state.acting label) = 0 := by
    unfold claims; split <;> simp [some_]
  refine ⟨?_, by omega⟩
  cases progress with
  | call | poll | setMinLevel => exact some_
  | run move =>
    rename_i at_ shared' thread'
    rcases move.taskQueue serializer with same | ⟨_, _, _, _, pushed⟩ | ⟨locals, rest, _, top, own, _⟩
    · exact same ▸ some_
    · simp [pushed]
    · -- A pop is made by a process loop, which is in charge.
      have owner : 0 < state.inCharge serializer :=
        inCharge_of_charge at_ (by simp [top, Frame.charge, own])
      omega

/-- An untimely push leaves its task to nobody. -/
theorem Progress.untimely (progress : Progress program state label next)
    (untimely : state.timely label = false) : ¬ next.Watched := by
  unfold State.timely at untimely
  split at untimely
  · rename_i serializer task rest top
    simp only [Bool.or_eq_false_iff, Bool.not_eq_false', List.isEmpty_iff, bne_eq_false_iff_eq]
      at untimely
    have changed := progress.inCharge serializer
    cases progress with
    | call | poll | setMinLevel => cases top
    | run move =>
      rename_i at_ shared' thread'
      simp only [State.acting] at top changed
      rw [top] at changed move
      intro watched
      -- After the insert the queue has a task, but nobody has become in charge of it.
      have owner := watched serializer (by simp [move.insert, Shared.afterInsert])
      simp only [leaves, claims] at changed
      omega
  · cases untimely

/--
The steps of a run are timely exactly when it ends with every serializer that has tasks watched.

Once a task has been left to nobody, no later push and no poll repairs it.
-/
theorem watched_iff_timely (linked : program.linkage = oneCopy) (harmless : program.Harmless)
    {labels : List (Label ι σ τ)} {finish : State ι σ τ}
    (run : Transition.Run (step program) (fun _ label => label.harmless = true)
      (State.init ι σ τ) labels finish) :
    finish.Watched ↔
      Transition.Run (step program) timelyStep (State.init ι σ τ) labels finish := by
  refine run.restrict_iff (I := State.Calm) (P := State.Watched) State.init_calm
    (fun _ some_ => absurd rfl some_) (fun _ _ => And.left) ?_ ?_
  · intro state label next calm allowed taken
    exact (step_progress linked calm allowed taken).calm harmless calm
  · intro state label next calm allowed taken
    have progress := step_progress linked calm allowed taken
    constructor
    · intro later
      refine ⟨fun serializer some_ => ?_, allowed, ?_⟩
      · -- Whoever nobody watches before the step is left without a watcher after it.
        by_contra nobody
        obtain ⟨left, still⟩ := progress.unwatched some_ (by omega)
        have owner := later serializer left
        omega
      · -- An untimely step leaves a task to nobody.
        by_contra untimely
        exact progress.untimely (by simpa using untimely) later
    · rintro ⟨watched, permitted⟩
      exact progress.watched permitted.2 watched

end Braid.Task
