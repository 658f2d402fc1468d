import Braid.Library.Transition
import Braid.Task.Stack

/-! Whether a call from inside of a task enters the process loop a second time. -/

namespace Braid.Task

variable {ι σ τ : Type}

/-- A stack of any frames in the right shape. -/
abbrev Shape (slot : Option σ) (stack : List (Frame σ τ)) : Prop :=
  StackShape (fun _ => True) slot stack

/-- A push that found the queue empty is not made inside of the process loop. -/
def Outermost (slot : Option σ) : List (Frame σ τ) → Prop
  | .pushInsert _ _ true :: _ => slot = none
  | .pushHandOver _ :: _ => slot = none
  | _ => True

/-- No assertion on the slot has failed. -/
def Shared.Free (shared : Shared σ τ) : Prop := shared.fault ≠ some .slotTaken

variable {program : Program σ τ} {shared : Shared σ τ} {slot : SourceFile → Option σ}
  {rest : List (Frame σ τ)}

/-- A waiting frame is no push. -/
theorem outermost_waiting {P : Frame σ τ → Prop} {slot after : Option σ} {frame : Frame σ τ}
    (shape : StackShape P slot (frame :: rest)) : Outermost after rest := by
  cases rest with
  | nil => trivial
  | cons below rest =>
    -- A waiting frame is a body, a running loop or a destroying store.
    have waits := shape.waiting below (by simp)
    cases below <;> trivial

/-- Releasing a task does not touch the slot. -/
theorem Shared.Free.release (free : shared.Free) (task : ITask σ τ) : (shared.release task).Free := by
  unfold Shared.release
  split
  · -- A release that fails stops the program with another fault.
    simp [Shared.Free, Shared.stop]
  · split <;> exact free

/-- Dropping a task does not touch the slot. -/
theorem Shared.Free.drop (free : shared.Free) (task : Option (ITask σ τ)) :
    (shared.drop task).Free := by
  cases task with
  | none => exact free
  | some task => exact free.release task

/-- A step of `callStep` keeps the shape. -/
theorem callStep_shape {calls : List (Call σ τ)}
    (shape : Shape (slot .taskDistributor) (.calls calls :: rest)) (free : shared.Free) :
    let result := callStep program shared ⟨slot, rest⟩ calls
    result.1.Free ∧ Shape (result.2.slot .taskDistributor) result.2.stack ∧
      Outermost (result.2.slot .taskDistributor) result.2.stack := by
  cases calls with
  | nil => exact ⟨free, shape.below (shape.inside rfl), outermost_waiting shape⟩
  | cons call calls =>
    -- The body goes on with the calls that are left, under the one that is made.
    have next : Shape (slot .taskDistributor) (.calls calls :: rest) :=
      shape.replace trivial (by simp) shape.slot
    cases call with
    | requestTask serializer task =>
      exact ⟨free, next.push rfl trivial (by simp) rfl, trivial⟩
    | log level =>
      simp only [callStep]
      split
      · -- What is filtered makes no call.
        exact ⟨free, next, trivial⟩
      · exact ⟨free, next.push rfl trivial (by simp) rfl, trivial⟩
    | setDestroy serializer =>
      -- The store waits under the push that comes first.
      have storing : Shape (slot .taskDistributor) (.destroyStore serializer :: .calls calls :: rest) :=
        next.push rfl trivial (by simp) rfl
      exact ⟨free, storing.push rfl trivial (by simp) rfl, trivial⟩

variable {state next : State ι σ τ} {label : Label ι σ τ}

/-- A thread is in the process loop at most once, and the loop pops from what it was started with. -/
def State.EnteredOnce (state : State ι σ τ) : Prop :=
  ∀ at_, ∀ entry ∈ processes (state.thread at_).stack,
    processes (state.thread at_).stack = [entry] ∧
      (entry.1 ≠ .enter → (state.thread at_).slot .taskDistributor = some entry.2.serializer)

/-- What holds of every thread while no push from inside of a task finds its queue empty. -/
structure State.Unnested (state : State ι σ τ) : Prop where
  free : state.shared.Free
  shape : ∀ at_, Shape ((state.thread at_).slot .taskDistributor) (state.thread at_).stack
  outermost : ∀ at_, Outermost ((state.thread at_).slot .taskDistributor) (state.thread at_).stack

/-- A push from inside of a task finds its queue not empty. -/
def State.nestedNonEmpty (state : State ι σ τ) : Label ι σ τ → Bool
  | .run at_ =>
    match (state.thread at_).stack with
    | .pushEmpty serializer _ :: _ =>
      !(state.shared.taskQueue serializer).isEmpty ||
        ((state.thread at_).slot .taskDistributor).isNone
    | _ => true
  | _ => true

/-- The shape of the stacks says that no thread is in the process loop twice. -/
theorem State.Unnested.enteredOnce (unnested : state.Unnested) : state.EnteredOnce := by
  intro at_ entry member
  have shape := (unnested.shape at_).slot
  cases calls : processes (state.thread at_).stack with
  | nil => rw [calls] at member; cases member
  | cons first others =>
    rw [calls] at shape member
    -- At most one loop is on the stack, and the slot says whether it has been entered.
    obtain ⟨slot, rfl⟩ : _ ∧ others = [] := shape
    obtain rfl := List.mem_singleton.mp member
    exact ⟨rfl, fun entered => by rw [slot, if_neg entered]⟩

/-- A thread of such a state is replaced. -/
theorem State.Unnested.withThread [DecidableEq ι] (unnested : state.Unnested) (at_ : ι)
    {shared' : Shared σ τ} {thread : Thread σ τ} (free : shared'.Free)
    (shape : Shape (thread.slot .taskDistributor) thread.stack)
    (outermost : Outermost (thread.slot .taskDistributor) thread.stack) :
    (state.withThread at_ shared' thread).Unnested where
  free := free
  shape := by
    intro other
    -- Only the thread that is replaced has a new stack.
    by_cases same : other = at_
    · subst same; simpa [State.withThread] using shape
    · simpa [State.withThread, same] using unnested.shape other
  outermost := by
    intro other
    by_cases same : other = at_
    · subst same; simpa [State.withThread] using outermost
    · simpa [State.withThread, same] using unnested.outermost other

variable [DecidableEq σ]

/-- A step of the process loop keeps the shape. -/
theorem processStep_shape {point : ProcessPoint} {locals : ProcessLocals σ τ} {current : σ}
    (shape : Shape (slot .taskDistributor) (.process point locals :: rest)) (free : shared.Free)
    (entered : point ≠ .enter) :
    let result := processStep shared ⟨slot, rest⟩ locals current point
    result.1.Free ∧ Shape (result.2.slot .taskDistributor) result.2.stack ∧
      Outermost (result.2.slot .taskDistributor) result.2.stack := by
  -- Whatever point comes next, it is that of an entered loop of the same serializer.
  have advance : ∀ (next : ProcessPoint) (after : ProcessLocals σ τ), next ≠ .enter →
      after.serializer = locals.serializer →
      Shape (slot .taskDistributor) (.process next after :: rest) :=
    fun next after stays same => shape.advance entered trivial stays same
  cases point with
  | enter => exact absurd rfl entered
  | pop =>
    simp only [processStep]
    split
    · exact ⟨free.drop _, advance _ _ (by simp) rfl, trivial⟩
    · exact ⟨Shared.Free.drop (by exact free) _, advance _ _ (by simp) rfl, trivial⟩
  | state =>
    simp only [processStep]
    split <;> exact ⟨free, advance _ _ (by simp) rfl, trivial⟩
  -- The destroying store is a call of its own, above the loop.
  | delete => exact ⟨free, (advance .free locals (by simp) rfl).push rfl trivial (by simp) rfl, trivial⟩
  | empty =>
    simp only [processStep]
    split <;> exact ⟨free, advance _ _ (by simp) rfl, trivial⟩
  | free | requeue => exact ⟨free, advance _ _ (by simp) rfl, trivial⟩
  | invoke | running | exit => exact ⟨free, advance _ _ (by simp) rfl, trivial⟩

/--
Every step of a thread keeps the shape of its stack and fails no assertion on the slot.

The pushes that hand over are made outside of the process loop, and every push that finds the
queue empty inside of it is excluded.
-/
theorem frameStep_shape (own : program.linkage .taskDistributor = .taskDistributor)
    {frame : Frame σ τ} (shape : Shape (slot .taskDistributor) (frame :: rest))
    (outermost : Outermost (slot .taskDistributor) (frame :: rest)) (free : shared.Free)
    (nested : ∀ serializer task, frame = .pushEmpty serializer task →
      shared.taskQueue serializer = [] → slot .taskDistributor = none) :
    let result := frameStep program shared ⟨slot, rest⟩ frame
    result.1.Free ∧ Shape (result.2.slot .taskDistributor) result.2.stack ∧
      Outermost (result.2.slot .taskDistributor) result.2.stack := by
  -- None of the other ways to stop is about the slot.
  have stopped : ∀ fault, fault ≠ .slotTaken → (shared.stop fault).Free := by
    intro fault different
    simpa [Shared.Free, Shared.stop] using different
  simp only [frameStep, own]
  split
  · exact ⟨stopped _ (by simp), shape, outermost⟩
  cases frame with
  | calls calls => exact callStep_shape shape free
  | requestTask serializer func =>
    simp only [requestTaskStep]
    split
    · exact ⟨free, shape.below (shape.inside rfl), outermost_waiting shape⟩
    · exact ⟨free, shape.replace trivial (by simp) shape.slot, trivial⟩
  | pushEmpty serializer task =>
    refine ⟨free, shape.replace trivial (by simp) shape.slot, ?_⟩
    show Outermost (slot .taskDistributor)
      (.pushInsert serializer task (shared.taskQueue serializer).isEmpty :: rest)
    -- Here the condition comes in: a nested push may not find an empty queue.
    cases empty : (shared.taskQueue serializer).isEmpty with
    | true => exact nested _ _ rfl (List.isEmpty_iff.mp empty)
    | false => trivial
  | pushInsert serializer task wasEmpty =>
    cases wasEmpty with
    | true => exact ⟨free, shape.replace trivial (by simp) shape.slot, outermost⟩
    | false => exact ⟨free, shape.below (shape.inside rfl), outermost_waiting shape⟩
  | pushHandOver serializer =>
    -- The hand-over enters a loop, which is why it must be outermost.
    have outside : slot .taskDistributor = none := outermost
    simp only [pushHandOverStep]
    split
    · refine ⟨free, shape.replace trivial (by simp) ?_, trivial⟩
      have below := StackShape.outside (outside ▸ shape) rfl
      simp [Frame.process?, SlotMatches, below, outside]
    · exact ⟨free, shape.below (shape.inside rfl), outermost_waiting shape⟩
  | poll distributor =>
    -- A poll is made outside of any loop, so it may enter one.
    have alone := shape.alone _ _ rfl
    subst alone
    have outside : slot .taskDistributor = none := by simpa [SlotMatches] using shape.inside rfl
    simp only [pollStep, own, outside, Option.isSome_none, Bool.false_eq_true, if_false]
    split
    · exact ⟨free, by simpa [outside] using StackShape.idle, trivial⟩
    · refine ⟨free, ?_, trivial⟩
      show Shape (slot .taskDistributor) _
      exact outside ▸ shape.replace trivial (by simp) ⟨rfl, rfl⟩
  | process point locals =>
    obtain ⟨taken, below⟩ := shape.process
    cases point with
    | enter =>
      -- The entering loop finds the slot free, and takes it.
      rw [if_pos rfl] at taken
      simp only [processEnterStep, own, taken, Option.isSome_none, Bool.false_eq_true, if_false,
        Function.update_self]
      exact ⟨free, shape.replace trivial (by simp)
        (by simp [Frame.process?, SlotMatches, below]), trivial⟩
    | invoke =>
      simp only [invokeStep]
      -- The invoked task runs above its loop, which waits.
      have running : Shape (slot .taskDistributor) (.process .running locals :: rest) :=
        shape.advance (by simp) trivial (by simp) rfl
      split
      · exact ⟨free, running, trivial⟩
      · rename_i task _
        generalize task.func = func
        cases func with
        | user body => exact ⟨free, running.push rfl trivial (by simp) rfl, trivial⟩
        | clear target => exact ⟨free, running.push rfl trivial (by simp) rfl, trivial⟩
        | writeLog => exact ⟨free, running, trivial⟩
    | running =>
      simp only [turnStep]
      split <;> exact ⟨free, shape.advance (by simp) trivial (by simp) rfl, trivial⟩
    | exit =>
      -- The loop frees the slot and leaves what is below it.
      simp only [processExitStep, own, Function.update_self]
      exact ⟨free.drop _, shape.below (by simp [below, SlotMatches]), outermost_waiting shape⟩
    | pop | state | delete | free | empty | requeue =>
      simp only
      split
      · exact ⟨stopped _ (by simp), shape, trivial⟩
      · exact processStep_shape shape free (by simp)
  | destroyStore serializer => exact ⟨free, shape.below (shape.inside rfl), outermost_waiting shape⟩
  | clearEmpty serializer =>
    simp only [clearStep]
    split <;> exact ⟨free, shape.replace trivial (by simp) shape.slot, trivial⟩
  | clearPop serializer =>
    simp only [clearStep]
    split
    · exact ⟨stopped _ (by simp), shape, trivial⟩
    · -- A `clear` releases the pending task, and goes on to its next test.
      exact ⟨Shared.Free.release (by exact free) _, shape.replace trivial (by simp) shape.slot, trivial⟩
  | clearStore serializer => exact ⟨free, shape.below (shape.inside rfl), outermost_waiting shape⟩

variable [DecidableEq ι]

/-- Every step that meets the condition keeps the threads out of a second process loop. -/
theorem step_unnested (own : program.linkage .taskDistributor = .taskDistributor)
    (unnested : state.Unnested) (permitted : state.nestedNonEmpty label = true)
    (taken : step program state label = some next) : next.Unnested := by
  -- A thread without calls has an empty slot.
  have outside : ∀ at_, (state.thread at_).stack = [] →
      (state.thread at_).slot .taskDistributor = none := by
    intro at_ empty
    have shape := (unnested.shape at_).slot
    simpa [empty, SlotMatches] using shape
  unfold step at taken
  split at taken
  · cases taken
  cases label with
  | call at_ outer =>
    simp only at taken
    split at taken
    · rename_i empty
      cases taken
      -- A first call is outside of any loop.
      refine unnested.withThread at_ unnested.free ?_ trivial
      simp only [outside at_ empty]
      exact .first trivial rfl
    · cases taken
  | poll at_ =>
    simp only at taken
    split at taken
    · rename_i empty
      cases taken
      refine unnested.withThread at_ unnested.free ?_ trivial
      simp only [outside at_ empty]
      exact .first trivial rfl
    · cases taken
  | run at_ =>
    simp only at taken
    split at taken
    · cases taken
    · rename_i frame rest stack
      cases taken
      have shape := unnested.shape at_
      have outermost := unnested.outermost at_
      rw [stack] at shape outermost
      -- The condition on the step is about the frame on top, which is the one that moves.
      obtain ⟨free, shape', outermost'⟩ := frameStep_shape own shape outermost unnested.free
        fun serializer task same empty => by
          subst same
          simpa [State.nestedNonEmpty, stack, empty] using permitted
      exact unnested.withThread at_ free shape' outermost'
  | setMinLevel level =>
    cases taken
    exact ⟨unnested.free, unnested.shape, unnested.outermost⟩

/--
While every push from inside of a task finds its queue not empty, the process loop is not re-entered.

The slot is asserted and written through the copy of `TaskDistributor.cc`, which the test in
`TaskSerializer.cc` never sees.
-/
theorem notReentered (linked : program.linkage = perFile) {labels : List (Label ι σ τ)}
    {finish : State ι σ τ}
    (run : Transition.Run (step program) (fun state label => state.nestedNonEmpty label = true)
      (State.init ι σ τ) labels finish) :
    finish.shared.fault ≠ some .slotTaken ∧ finish.EnteredOnce := by
  have unnested : finish.Unnested := by
    -- At the start no thread is in any call.
    refine run.invariant ⟨by simp [Shared.Free, State.init], fun _ => .idle, fun _ => trivial⟩ ?_
    exact fun _ _ _ holds permitted taken =>
      step_unnested (by rw [linked]; rfl) holds permitted taken
  exact ⟨unnested.free, unnested.enteredOnce⟩

/-- A program over two serializers, where a task of the one may request a task of the other. -/
def nestedRequests : Program Bool Bool where
  body := fun task => if task then [.requestTask true false] else []
  logHandler := false
  linkage := perFile

/-- The second thread has pushed a task when the task of the first one requests another. -/
theorem notReentered_nonEmpty :
    ∃ finish : State (Fin 2) Bool Bool,
      (finish.shared.fault ≠ some .slotTaken ∧ finish.EnteredOnce) ∧
        finish.shared.pushed true = [0, 2] := by
  -- The queue that the nested request pushes to has a task already, from the second thread.
  have executed : (Transition.execWhile (step nestedRequests)
      (fun state label => state.nestedNonEmpty label = true) (State.init (Fin 2) Bool Bool)
      (.call 1 (.requestTask true false) :: List.replicate 4 (.run 1) ++
        .call 0 (.requestTask false true) :: List.replicate 12 (.run 0))).any
        fun finish => finish.shared.pushed true = [0, 2] := by decide
  obtain ⟨finish, reached, pushed⟩ := (Option.any_eq_true _ _).mp executed
  exact ⟨finish, notReentered rfl (.of_execWhile reached), by simpa using pushed⟩

/--
A task that requests a task of an empty serializer enters the process loop a second time.

The assertion on the slot then stops the program.
-/
theorem reentry_fails :
    ∃ (labels : List (Label Unit Bool Bool)) (finish : State Unit Bool Bool),
      Transition.Run (step nestedRequests) Transition.anyStep (State.init Unit Bool Bool)
        labels finish ∧
      finish.shared.fault = some .slotTaken := by
  -- The nested request finds its queue empty, and processes it inside of the other loop.
  have executed : (Transition.exec (step nestedRequests) (State.init Unit Bool Bool)
      (.call () (.requestTask false true) :: List.replicate 14 (.run ()))).any
        fun finish => finish.shared.fault = some .slotTaken := by decide
  obtain ⟨finish, reached, stopped⟩ := (Option.any_eq_true _ _).mp executed
  exact ⟨_, finish, .of_exec reached, by simpa using stopped⟩

end Braid.Task
