import Braid.Library.Rotation
import Braid.Task.Progress

/-! One worker that works off a queue of serializers, a batch of tasks at a time. -/

namespace Braid.Task

open Transition

variable {ι σ τ : Type}

/-- A task body that makes no request: all that it does is to log what is filtered. -/
def Quiet (shared : Shared σ τ) (body : List (Call σ τ)) : Prop :=
  ∀ call ∈ body, ∃ level : LogLevel, call = .log level ∧ level.rank < shared.minLevel.rank

/-- What is invoked makes no request, and it is not the `clear` that destroys a serializer. -/
def Func.Requestless (program : Program σ τ) (shared : Shared σ τ) : Func σ τ → Prop
  | .user task => Quiet shared (program.body task)
  | .clear _ => False
  | .writeLog => True

/-- A task that waits on the queue of its serializer. -/
structure ITask.Waits (program : Program σ τ) (shared : Shared σ τ) (serializer : σ)
    (task : ITask σ τ) : Prop where
  target : task.target = serializer
  unshared : task.refCount = 0
  func : task.func.Requestless program shared

section Alone

variable [DecidableEq ι] [DecidableEq σ] {program : Program σ τ}

/-- The next step of a thread, with the state that it shares with the others. -/
def threadStep (program : Program σ τ) (state : Shared σ τ × Thread σ τ) (_ : Unit) :
    Option (Shared σ τ × Thread σ τ) :=
  if state.1.fault.isSome then none
  else match state.2.stack with
  | [] => none
  | frame :: rest => some (frameStep program state.1 { state.2 with stack := rest } frame)

/-- A thread on its own gets from one state to another in some number of steps. -/
def Alone (program : Program σ τ) (start finish : Shared σ τ × Thread σ τ) : Prop :=
  ∃ count, exec (threadStep program) start (List.replicate count ()) = some finish

omit [DecidableEq ι] in
/-- One step of a thread. -/
theorem Alone.single {shared : Shared σ τ} {slot : SourceFile → Option σ} {frame : Frame σ τ}
    {rest : List (Frame σ τ)} {finish : Shared σ τ × Thread σ τ} (running : shared.fault = none)
    (does : frameStep program shared ⟨slot, rest⟩ frame = finish) :
    Alone program (shared, ⟨slot, frame :: rest⟩) finish := by
  refine ⟨1, ?_⟩
  simp [exec, threadStep, running, does]

omit [DecidableEq ι] in
/-- Steps of a thread compose. -/
theorem Alone.trans {start middle finish : Shared σ τ × Thread σ τ}
    (before : Alone program start middle) (after : Alone program middle finish) :
    Alone program start finish := by
  obtain ⟨first, before⟩ := before
  obtain ⟨second, after⟩ := after
  exact ⟨first + second, by rw [List.replicate_add, exec_append, before, Option.bind_some, after]⟩

/-- What a thread does on its own is an execution of the program. -/
theorem exec_alone (state : State ι σ τ) (at_ : ι) (count : Nat) :
    ∀ {start finish : Shared σ τ × Thread σ τ},
      exec (threadStep program) start (List.replicate count ()) = some finish →
      exec (step program) (state.withThread at_ start.1 start.2)
          (List.replicate count (.run at_)) =
        some (state.withThread at_ finish.1 finish.2) := by
  induction count with
  | zero =>
    intro start finish executed
    cases executed
    rfl
  | succ count ih =>
    intro start finish executed
    obtain ⟨middle, taken, remaining⟩ := Option.bind_eq_some_iff.mp executed
    obtain ⟨shared, slot, stack⟩ := start
    simp only [threadStep] at taken
    split at taken
    · cases taken
    · rename_i running
      cases stack with
      | nil => cases taken
      | cons frame rest =>
        cases taken
        -- The program takes the step of the thread, and then those of the rest.
        rw [List.replicate_succ, exec, ← ih remaining]
        simp only [step, State.withThread_shared, State.withThread_self, if_neg running,
          Option.bind_some]
        simp only [State.withThread, Function.update_idem]

end Alone

section Turn

variable [DecidableEq σ] {program : Program σ τ} {shared : Shared σ τ}
  {slot : SourceFile → Option σ} {rest : List (Frame σ τ)} {serializer : σ}

/-- What a thread does to the tasks of a serializer: it starts some of them, in their order. -/
structure Batch (before after : Shared σ τ) (serializer : σ) (count : Nat) : Prop where
  taskQueue : after.taskQueue = Function.update before.taskQueue serializer
    ((before.taskQueue serializer).drop count)
  started : after.started = Function.update before.started serializer
    (before.started serializer ++ ((before.taskQueue serializer).take count).map ITask.id)
  serializerQueue : after.serializerQueue = before.serializerQueue
  state : after.state = before.state
  deleted : after.deleted = before.deleted
  minLevel : after.minLevel = before.minLevel
  fault : after.fault = before.fault

/-- A batch is continued by the next one. -/
theorem Batch.trans {before middle after : Shared σ τ} {first second : Nat}
    (one : Batch before middle serializer first) (two : Batch middle after serializer second) :
    Batch before after serializer (first + second) where
  taskQueue := by
    rw [two.taskQueue, one.taskQueue, Function.update_idem, Function.update_self, List.drop_drop]
  started := by
    rw [two.started, one.started, one.taskQueue, Function.update_idem, Function.update_self,
      Function.update_self, List.take_add, List.map_append, List.append_assoc]
  serializerQueue := two.serializerQueue.trans one.serializerQueue
  state := two.state.trans one.state
  deleted := two.deleted.trans one.deleted
  minLevel := two.minLevel.trans one.minLevel
  fault := two.fault.trans one.fault

omit [DecidableEq σ] in
/-- A task waits as long as the log level stays. -/
theorem ITask.Waits.congr {before after : Shared σ τ} {task : ITask σ τ}
    (waits : task.Waits program before serializer) (minLevel : after.minLevel = before.minLevel) :
    task.Waits program after serializer := by
  refine ⟨waits.target, waits.unshared, ?_⟩
  -- Only a body that logs reads the level.
  have func := waits.func
  cases called : task.func <;> rw [called] at func
  · simpa only [Func.Requestless, Quiet, minLevel] using func
  · exact func
  · trivial

/-- A body that makes no request is left as it was entered. -/
theorem alone_calls (running : shared.fault = none) {body : List (Call σ τ)}
    (quiet : Quiet shared body) :
    Alone program (shared, ⟨slot, .calls body :: rest⟩) (shared, ⟨slot, rest⟩) := by
  induction body with
  | nil => exact .single running rfl
  | cons call body ih =>
    -- The first call of the body is a log call, and the filter lets it pass by.
    obtain ⟨level, rfl, filtered⟩ := quiet call List.mem_cons_self
    have passed : frameStep program shared ⟨slot, rest⟩ (.calls (.log level :: body)) =
        (shared, ⟨slot, .calls body :: rest⟩) := by
      simp [frameStep, Frame.touched, callStep, filtered]
    exact (Alone.single running passed).trans
      (ih fun other member => quiet other (List.mem_cons_of_mem _ member))

/-- A task that is invoked is started, and returns. -/
theorem alone_invoke (running : shared.fault = none) {locals : ProcessLocals σ τ}
    {task : ITask σ τ} (found : locals.task = some task)
    (requestless : task.func.Requestless program shared) :
    Alone program (shared, ⟨slot, .process .invoke locals :: rest⟩)
      (shared.afterStart task, ⟨slot, .process .running locals :: rest⟩) := by
  have invoked : frameStep program shared ⟨slot, rest⟩ (.process .invoke locals) =
      (shared.afterStart task,
        ⟨slot, invokeFrame program task.func ++ .process .running locals :: rest⟩) := by
    simp [frameStep, Frame.touched, invokeStep, found, Shared.afterStart]
  have first : Alone program (shared, ⟨slot, .process .invoke locals :: rest⟩) _ :=
    .single running invoked
  -- What has been invoked returns: a body that only logs, or the log task with its empty body.
  cases func : task.func with
  | user body =>
    rw [func] at requestless first
    have quiet : Quiet (shared.afterStart task) (program.body body) := requestless
    have sound : (shared.afterStart task).fault = none := running
    exact first.trans (alone_calls sound quiet)
  | clear serializer =>
    rw [func] at requestless
    exact requestless.elim
  | writeLog =>
    rw [func] at first
    exact first

/-- The locals of a turn that has begun: the task that was popped, with one reference. -/
def ProcessLocals.turned (locals : ProcessLocals σ τ) (task : ITask σ τ) : ProcessLocals σ τ :=
  { locals with
    task := some { task with refCount := task.refCount + 1 }
    processCount := locals.processCount + 1 }

omit [DecidableEq σ] in
/-- The popped task has the one reference that `pop` took. -/
theorem ITask.Waits.turned {task : ITask σ τ} (waits : task.Waits program shared serializer)
    (locals : ProcessLocals σ τ) : ∀ held ∈ (locals.turned task).task, held.On serializer 1 := by
  rintro _ ⟨⟩
  refine ⟨waits.target, ?_, by simp [waits.unshared]⟩
  -- A task that waits is no `clear`, so it is harmless.
  have func := waits.func
  cases called : task.func <;> rw [called] at func
  · simp only [Func.harmless]
  · exact func.elim
  · simp only [Func.harmless]

/-- One turn of the loop: the first task is popped and invoked. -/
theorem alone_turn (running : shared.fault = none) (alive : shared.deleted serializer = false)
    (current : slot (program.linkage .taskDistributor) = some serializer)
    {locals : ProcessLocals σ τ} (counted : ∀ held ∈ locals.task, held.On serializer 1)
    {task : ITask σ τ} {tasks : List (ITask σ τ)}
    (queue : shared.taskQueue serializer = task :: tasks)
    (waits : task.Waits program shared serializer) :
    Alone program (shared, ⟨slot, .process .pop locals :: rest⟩)
      (((shared.afterPop serializer tasks).afterDrop locals.task).afterStart task,
        ⟨slot, .process (if maxProcessTaskCount ≤ locals.processCount + 1 then .state else .pop)
          (locals.turned task) :: rest⟩) := by
  let popped := (shared.afterPop serializer tasks).afterDrop locals.task
  let taken : ITask σ τ := { task with refCount := task.refCount + 1 }
  -- The pop drops the task of the turn before, and takes a reference to the first one.
  have pops : frameStep program shared ⟨slot, rest⟩ (.process .pop locals) =
      (popped, ⟨slot, .process .invoke { locals with task := some taken } :: rest⟩) := by
    have dropped : (shared.afterPop serializer tasks).drop locals.task = popped :=
      Shared.drop_eq counted
    simpa [frameStep, Frame.touched, current, alive, processStep, queue, popped, taken,
      Shared.afterPop] using dropped
  -- The task is invoked and returns, and the turn is counted.
  have sound : popped.fault = none := running
  have invokes : Alone program
      (popped, ⟨slot, .process .invoke { locals with task := some taken } :: rest⟩)
      (popped.afterStart taken,
        ⟨slot, .process .running { locals with task := some taken } :: rest⟩) :=
    have found : ({ locals with task := some taken } : ProcessLocals σ τ).task = some taken := rfl
    alone_invoke sound found waits.func
  have counts : frameStep program (popped.afterStart taken) ⟨slot, rest⟩
      (.process .running { locals with task := some taken }) =
        (popped.afterStart taken,
          ⟨slot, .process (if maxProcessTaskCount ≤ locals.processCount + 1 then .state else .pop)
            (locals.turned task) :: rest⟩) := rfl
  exact ((Alone.single running pops).trans invokes).trans (Alone.single running counts)

/-- The loop starts the tasks that are left of its batch, or all that the queue has. -/
theorem alone_loop (current : slot (program.linkage .taskDistributor) = some serializer)
    (left : Nat) :
    ∀ {shared : Shared σ τ} {locals : ProcessLocals σ τ},
      shared.fault = none → shared.deleted serializer = false →
      (∀ task ∈ shared.taskQueue serializer, task.Waits program shared serializer) →
      (∀ held ∈ locals.task, held.On serializer 1) →
      locals.processCount + left = maxProcessTaskCount → 0 < left →
      ∃ after locals', Batch shared after serializer left ∧
        (∀ held ∈ locals'.task, held.On serializer 1) ∧ locals'.distributor = locals.distributor ∧
        Alone program (shared, ⟨slot, .process .pop locals :: rest⟩)
          (after, ⟨slot, .process .state locals' :: rest⟩) := by
  -- The induction is on the tasks that the batch may still take.
  induction left with
  | zero => exact fun _ _ _ _ _ positive => absurd positive (by decide)
  | succ left ih =>
    intro shared locals running alive waits counted count _
    cases queue : shared.taskQueue serializer with
    | nil =>
      -- The loop ends before its batch does.
      refine ⟨shared.afterDrop locals.task, { locals with task := none }, ?_, by simp, rfl,
        .single running ?_⟩
      · have same : Function.update shared.taskQueue serializer [] = shared.taskQueue := by
          rw [← queue, Function.update_eq_self]
        constructor <;> simp [Shared.afterDrop, queue, same]
      · simp [frameStep, Frame.touched, current, alive, processStep, queue,
          Shared.drop_eq counted]
    | cons task tasks =>
      have first : task.Waits program shared serializer := waits task (by simp [queue])
      let middle := ((shared.afterPop serializer tasks).afterDrop locals.task).afterStart task
      have one : Batch shared middle serializer 1 := by
        constructor <;> simp [middle, Shared.afterPop, Shared.afterDrop, Shared.afterStart, queue,
          first.target]
      have turn : Alone program (shared, ⟨slot, .process .pop locals :: rest⟩) _ :=
        alone_turn running alive current counted queue first
      by_cases last : maxProcessTaskCount ≤ locals.processCount + 1
      · -- This was the last task of the batch.
        obtain rfl : left = 0 := by omega
        rw [if_pos last] at turn
        exact ⟨middle, locals.turned task, one, first.turned locals, rfl, turn⟩
      · rw [if_neg last] at turn
        have waits' : ∀ other ∈ middle.taskQueue serializer,
            other.Waits program middle serializer := by
          intro other member
          simp [middle, Shared.afterPop, Shared.afterDrop, Shared.afterStart] at member
          exact (waits other (by simp [queue, member])).congr one.minLevel
        obtain ⟨after, locals', two, sole, same, goesOn⟩ := @ih middle (locals.turned task) running
          alive waits' (first.turned locals) (by simp [ProcessLocals.turned]; omega)
          (by omega)
        exact ⟨after, locals', Nat.add_comm left 1 ▸ one.trans two, sole, same, turn.trans goesOn⟩

end Turn

section Poll

variable [DecidableEq σ] {program : Program σ τ}

/-- The queue of the distributor that the worker polls. -/
def State.queue (program : Program σ τ) (state : State ι σ τ) : List σ :=
  state.shared.serializerQueue (program.linkage .workerThread)

/-- Serializers stand in the queue with tasks that make no requests, and the worker is in no call. -/
structure Stands (program : Program σ τ) (at_ : ι) (state : State ι σ τ) : Prop where
  running : state.shared.fault = none
  outside : (state.thread at_).stack = []
  free : (state.thread at_).slot (program.linkage .taskDistributor) = none
  nodup : (state.queue program).Nodup
  backlog : ∀ serializer ∈ state.queue program, state.shared.taskQueue serializer ≠ []
  alive : ∀ serializer ∈ state.queue program, state.shared.deleted serializer = false ∧
    state.shared.state serializer ≠ .destroyed
  waits : ∀ serializer ∈ state.queue program, ∀ task ∈ state.shared.taskQueue serializer,
    task.Waits program state.shared serializer

/-- What a turn of a serializer leaves behind, where others stand behind it in the queue. -/
structure Turned (program : Program σ τ) (before after : Shared σ τ) (serializer : σ)
    (others : List σ) : Prop where
  taskQueue : after.taskQueue = Function.update before.taskQueue serializer
    ((before.taskQueue serializer).drop maxProcessTaskCount)
  started : after.started = Function.update before.started serializer
    (before.started serializer ++
      ((before.taskQueue serializer).take maxProcessTaskCount).map ITask.id)
  queue : after.serializerQueue (program.linkage .workerThread) = others ++
    if (before.taskQueue serializer).length ≤ maxProcessTaskCount then [] else [serializer]
  state : after.state = before.state
  deleted : after.deleted = before.deleted
  minLevel : after.minLevel = before.minLevel
  fault : after.fault = none

/-- A call of the worker gives the first serializer its turn. -/
theorem Stands.alone_poll {at_ : ι} {state : State ι σ τ} (stands : Stands program at_ state)
    {serializer : σ} {others : List σ} (queue : state.queue program = serializer :: others) :
    ∃ after, Turned program state.shared after serializer others ∧
      Alone program
        (state.shared, ⟨(state.thread at_).slot, [.poll (program.linkage .workerThread)]⟩)
        (after, ⟨(state.thread at_).slot, []⟩) := by
  obtain ⟨shared, thread⟩ := state
  obtain ⟨running, outside, free, nodup, backlog, alive, waits⟩ := stands
  dsimp only [State.queue] at *
  have first : serializer ∈ shared.serializerQueue (program.linkage .workerThread) := by
    rw [queue]
    exact List.mem_cons_self
  let slot :=
    Function.update (thread at_).slot (program.linkage .taskDistributor) (some serializer)
  let locals : ProcessLocals σ τ :=
    { distributor := program.linkage .workerThread, serializer := serializer }
  let taken : Shared σ τ := { shared with
    serializerQueue := Function.update shared.serializerQueue (program.linkage .workerThread) others }
  have polls : frameStep program shared ⟨(thread at_).slot, []⟩
      (.poll (program.linkage .workerThread)) =
        (taken, ⟨(thread at_).slot, [.process .enter locals]⟩) := by
    simp [frameStep, Frame.touched, pollStep, free, queue, taken, locals]
  have enters : frameStep program taken ⟨(thread at_).slot, []⟩ (.process .enter locals) =
      (taken, ⟨slot, [.process .pop locals]⟩) := by
    simp [frameStep, Frame.touched, processEnterStep, free, slot, locals]
  have current : slot (program.linkage .taskDistributor) = some serializer := Function.update_self ..
  have sound : taken.fault = none := running
  have free' : ∀ held ∈ locals.task, held.On serializer 1 := by simp [locals]
  have counted' : locals.processCount + maxProcessTaskCount = maxProcessTaskCount := by
    simp [locals]
  -- Everything that the loop needs holds of the first serializer.
  have waits' : ∀ task ∈ taken.taskQueue serializer, task.Waits program taken serializer :=
    fun task member => (waits _ first task member).congr rfl
  obtain ⟨after, locals', batch, counted, same, loops⟩ := alone_loop current
    maxProcessTaskCount sound (alive _ first).1 waits' free' counted' (by decide)
  have alive' : after.deleted serializer = false := by rw [batch.deleted]; exact (alive _ first).1
  -- The serializer goes back to the queue exactly if the batch has left tasks on it.
  have left : after.taskQueue serializer =
      (shared.taskQueue serializer).drop maxProcessTaskCount := by
    rw [batch.taskQueue, Function.update_self]
  have running' : after.fault = none := batch.fault.trans running
  have tests : frameStep program after ⟨slot, []⟩ (.process .state locals') =
      (after, ⟨slot, [.process .empty locals']⟩) := by
    have kept : after.state serializer ≠ .destroyed := by rw [batch.state]; exact (alive _ first).2
    simp [frameStep, Frame.touched, current, alive', processStep, kept]
  have opened := ((Alone.single running polls).trans (.single running enters)).trans
    (loops.trans (.single running' tests))
  -- The slot is freed again, and the last task is dropped.
  have exits (last : Shared σ τ) : frameStep program last ⟨slot, []⟩ (.process .exit locals') =
      (last.afterDrop locals'.task, ⟨(thread at_).slot, []⟩) := by
    have freed : Function.update slot (program.linkage .taskDistributor) none =
        (thread at_).slot := by
      simp only [slot, Function.update_idem]
      rw [← free, Function.update_eq_self]
    simp [frameStep, Frame.touched, processExitStep, Shared.drop_eq counted, freed]
  by_cases done : (shared.taskQueue serializer).length ≤ maxProcessTaskCount
  · -- The queue of tasks is found empty, and the serializer is left out.
    have empties : frameStep program after ⟨slot, []⟩ (.process .empty locals') =
        (after, ⟨slot, [.process .exit locals']⟩) := by
      simp [frameStep, Frame.touched, current, alive', processStep, left, done]
    refine ⟨after.afterDrop locals'.task, ⟨batch.taskQueue, batch.started, ?_, batch.state,
      batch.deleted, batch.minLevel, running'⟩, (opened.trans (.single running' empties)).trans
        (.single running' (exits after))⟩
    rw [if_pos done, List.append_nil]
    exact (congrFun batch.serializerQueue _).trans (Function.update_self ..)
  · -- Tasks are left, and the serializer is put behind the others.
    have goesOn : frameStep program after ⟨slot, []⟩ (.process .empty locals') =
        (after, ⟨slot, [.process .requeue locals']⟩) := by
      simp [frameStep, Frame.touched, current, alive', processStep, left, done]
    have requeues : frameStep program after ⟨slot, []⟩ (.process .requeue locals') =
        (after.put locals'.distributor serializer, ⟨slot, [.process .exit locals']⟩) := by
      simp [frameStep, Frame.touched, current, processStep]
    refine ⟨(after.put locals'.distributor serializer).afterDrop locals'.task,
      ⟨batch.taskQueue, batch.started, ?_, batch.state, batch.deleted, batch.minLevel, running'⟩,
      ((opened.trans (.single running' goesOn)).trans (.single running' requeues)).trans
        (.single running' (exits _))⟩
    simp [Shared.afterDrop, Shared.put, same, locals, if_neg done, batch.serializerQueue, taken]

variable [DecidableEq ι]

/-- A whole call of `process_task_serializer()` by a worker that takes all steps on its own. -/
def PollCall (program : Program σ τ) (at_ : ι) (start finish : State ι σ τ) : Prop :=
  ∃ count, exec (step program) start (.poll at_ :: List.replicate count (.run at_)) = some finish ∧
    (finish.thread at_).stack = []

/-- A thread in no call takes no step of one. -/
theorem step_idle {at_ : ι} {state : State ι σ τ} (outside : (state.thread at_).stack = []) :
    step program state (.run at_) = none := by
  simp only [step, outside]
  split <;> rfl

/-- A call has one outcome. -/
theorem PollCall.unique {at_ : ι} {start first second : State ι σ τ}
    (one : PollCall program at_ start first) (two : PollCall program at_ start second) :
    first = second := by
  obtain ⟨short, one, outside⟩ := one
  obtain ⟨long, two, outside'⟩ := two
  -- Both executions stop where the thread is in no call any more.
  have one : exec (step program) start ([.poll at_] ++ _) = _ := one
  exact exec_unique one two (step_idle outside) (step_idle outside')

/-- The serializers in the queue, each with its tasks. -/
def State.backlogs (program : Program σ τ) (state : State ι σ τ) : List (σ × List (ITask σ τ)) :=
  (state.queue program).map fun serializer => (serializer, state.shared.taskQueue serializer)

omit [DecidableEq σ] [DecidableEq ι] in
/-- The backlogs are those of the serializers in the queue. -/
theorem State.backlogs_owners (state : State ι σ τ) :
    (state.backlogs program).map Prod.fst = state.queue program := by
  rw [State.backlogs, List.map_map]
  exact List.map_id _

/-- The serializer whose turn it is in the next call. -/
def State.turn (program : Program σ τ) (state : State ι σ τ) : Option σ :=
  (state.queue program).head?

omit [DecidableEq σ] [DecidableEq ι] in
/-- Different serializers stand in the queue, and each has tasks. -/
theorem Stands.proper {at_ : ι} {state : State ι σ τ} (stands : Stands program at_ state) :
    Rotation.Proper (state.backlogs program) := by
  refine ⟨?_, ?_⟩
  · rw [State.backlogs_owners]
    exact stands.nodup
  · -- A serializer stands in the queue only with tasks.
    intro backlog member
    obtain ⟨serializer, queued, rfl⟩ := List.mem_map.mp member
    exact stands.backlog serializer queued

/-- What a thread does alone in a call that it makes is a whole call. -/
theorem Alone.pollCall {at_ : ι} {state : State ι σ τ} {after : Shared σ τ}
    {slot : SourceFile → Option σ} (running : state.shared.fault = none)
    (outside : (state.thread at_).stack = [])
    (alone : Alone program
      (state.shared, ⟨(state.thread at_).slot, [.poll (program.linkage .workerThread)]⟩)
      (after, ⟨slot, []⟩)) :
    PollCall program at_ state (state.withThread at_ after ⟨slot, []⟩) := by
  obtain ⟨count, executed⟩ := alone
  refine ⟨count, ?_, by rw [State.withThread_self]⟩
  -- The label `poll` puts the call on the stack, and the steps of the thread run it.
  have begins : step program state (.poll at_) = some (state.withThread at_ state.shared
      ⟨(state.thread at_).slot, [.poll (program.linkage .workerThread)]⟩) := by
    simp [step, running, outside]
  rw [exec, begins, Option.bind_some]
  exact exec_alone state at_ count executed

/-- What a call of the worker does to every serializer: it has a batch started, or nothing. -/
structure Called (program : Program σ τ) (state next : State ι σ τ) : Prop where
  backlogs : next.backlogs program =
    Rotation.rotate maxProcessTaskCount (state.backlogs program)
  taskQueue : ∀ serializer, next.shared.taskQueue serializer =
    (state.shared.taskQueue serializer).drop
      (if state.turn program = some serializer then maxProcessTaskCount else 0)
  started : ∀ serializer, next.shared.started serializer = state.shared.started serializer ++
    ((state.shared.taskQueue serializer).take
      (if state.turn program = some serializer then maxProcessTaskCount else 0)).map ITask.id

omit [DecidableEq ι] in
/-- The serializers that stand in the queue after a call. -/
theorem Called.queue {state next : State ι σ τ} (called : Called program state next)
    {serializer : σ} {others : List σ} (queue : state.queue program = serializer :: others) :
    next.queue program = others ++
      if (state.shared.taskQueue serializer).length ≤ maxProcessTaskCount then []
      else [serializer] := by
  -- The serializers are the owners of the backlogs, which the call has rotated.
  have owners := congrArg (List.map Prod.fst) called.backlogs
  rw [State.backlogs_owners, State.backlogs, queue, List.map_cons, Rotation.rotate, List.map_append,
    Rotation.requeue_owner, List.map_map] at owners
  exact owners.trans (congrArg (· ++ _) (List.map_id _))

/-- The turn of the first serializer is a turn of the rotation, and leaves the others alone. -/
theorem Turned.called {at_ : ι} {state : State ι σ τ} {after : Shared σ τ} {serializer : σ}
    {others : List σ} (turned : Turned program state.shared after serializer others)
    (queue : state.queue program = serializer :: others) (absent : serializer ∉ others)
    (slot : SourceFile → Option σ) :
    Called program state (state.withThread at_ after ⟨slot, []⟩) := by
  have behind : (state.withThread at_ after ⟨slot, []⟩).queue program = others ++
      if (state.shared.taskQueue serializer).length ≤ maxProcessTaskCount then []
      else [serializer] := turned.queue
  refine ⟨?_, fun other => ?_, fun other => ?_⟩
  · -- The tasks of the others are left alone.
    have others_same : (others.map fun other => (other, after.taskQueue other)) =
        others.map fun other => (other, state.shared.taskQueue other) := by
      refine List.map_congr_left fun other member => ?_
      have different : other ≠ serializer := fun same => absent (same ▸ member)
      rw [turned.taskQueue, Function.update_of_ne different]
    rw [State.backlogs, State.backlogs, behind, queue, List.map_append, List.map_cons,
      Rotation.rotate]
    refine congrArg₂ (· ++ ·) others_same ?_
    simp only [Rotation.requeue]
    split
    · rfl
    · simp [turned.taskQueue]
  · -- The queue of the first serializer loses its batch, and the other queues stay.
    by_cases same : other = serializer
    · subst same
      simp [State.turn, queue, turned.taskQueue]
    · simp [State.turn, queue, turned.taskQueue, same, Ne.symm same]
  · -- The batch is recorded as started, and nothing else is.
    by_cases same : other = serializer
    · subst same
      simp [State.turn, queue, turned.started]
    · simp [State.turn, queue, turned.started, same, Ne.symm same]

/-- A call of the worker returns, and leaves the other serializers standing. -/
theorem Stands.call {at_ : ι} {state : State ι σ τ} (stands : Stands program at_ state) :
    ∃ next, PollCall program at_ state next ∧ Stands program at_ next ∧
      Called program state next := by
  cases queue : state.queue program with
  | nil =>
    -- A worker that finds no serializer returns at once.
    have nothing : Alone program
        (state.shared, ⟨(state.thread at_).slot, [.poll (program.linkage .workerThread)]⟩)
        (state.shared, ⟨(state.thread at_).slot, []⟩) := by
      refine .single stands.running ?_
      have empty : state.shared.serializerQueue (program.linkage .workerThread) = [] := queue
      simp [frameStep, Frame.touched, pollStep, stands.free, empty]
    have same : state.withThread at_ state.shared ⟨(state.thread at_).slot, []⟩ = state := by
      have thread : (⟨(state.thread at_).slot, []⟩ : Thread σ τ) = state.thread at_ := by
        rw [← stands.outside]
      rw [thread, State.withThread, Function.update_eq_self]
    have call := nothing.pollCall stands.running stands.outside
    rw [same] at call
    refine ⟨state, call, stands, ?_, ?_, ?_⟩
    · simp [State.backlogs, queue, Rotation.rotate]
    · simp [State.turn, queue]
    · simp [State.turn, queue]
  | cons serializer others =>
    obtain ⟨after, turned, alone⟩ := stands.alone_poll queue
    let next := state.withThread at_ after ⟨(state.thread at_).slot, []⟩
    have behind : next.queue program = others ++
        if (state.shared.taskQueue serializer).length ≤ maxProcessTaskCount then []
        else [serializer] := turned.queue
    have absent : serializer ∉ others := by
      have nodup := stands.nodup
      rw [queue] at nodup
      exact (List.nodup_cons.mp nodup).1
    have called : Called program state next := turned.called queue absent _
    have proper : Rotation.Proper (next.backlogs program) := by
      rw [called.backlogs]
      exact stands.proper.rotate
    -- No serializer comes to the queue, since no task makes a request.
    have queued : ∀ other ∈ next.queue program, other ∈ state.queue program := by
      intro other member
      rw [behind] at member
      rw [queue]
      rcases List.mem_append.mp member with old | last
      · exact List.mem_cons_of_mem _ old
      · split at last
        · cases last
        · exact List.mem_singleton.mp last ▸ List.mem_cons_self
    refine ⟨next, alone.pollCall stands.running stands.outside, ?_, called⟩
    refine ⟨turned.fault, by simp [next], by simpa [next] using stands.free, ?_, ?_, ?_, ?_⟩
    · have nodup := proper.nodup
      rwa [State.backlogs_owners] at nodup
    · exact fun other member => proper.nonempty (other, _) (List.mem_map_of_mem member)
    · intro other member
      simpa [next, turned.deleted, turned.state] using stands.alive other (queued other member)
    · intro other member task waiting
      rw [called.taskQueue] at waiting
      exact (stands.waits other (queued other member) task (List.mem_of_mem_drop waiting)).congr
        turned.minLevel

end Poll

section Schedule

variable {program : Program σ τ} {states : Nat → State ι σ τ}

/--
The batch schedule of a worker that calls again and again, with the states between its calls.

In its turn a serializer has the next thirty of its tasks started, or all that are left, and no
other serializer has any. Between two turns of a serializer every other one that has tasks left
has exactly one. After the last of the batches everything is empty, not earlier, and every task
has been started once and in order.
-/
structure BatchSchedule (program : Program σ τ) (states : Nat → State ι σ τ) : Prop where
  batch : ∀ call serializer, (states call).turn program = some serializer →
    (states (call + 1)).shared.started serializer = (states call).shared.started serializer ++
        (((states call).shared.taskQueue serializer).take 30).map ITask.id ∧
      (states (call + 1)).shared.taskQueue serializer =
        ((states call).shared.taskQueue serializer).drop 30 ∧
      ∀ other, other ≠ serializer →
        (states (call + 1)).shared.started other = (states call).shared.started other ∧
        (states (call + 1)).shared.taskQueue other = (states call).shared.taskQueue other
  oneTurn : ∀ call next serializer, call < next →
    (states call).turn program = some serializer → (states next).turn program = some serializer →
    (∀ between, call < between → between < next →
      (states between).turn program ≠ some serializer) →
    ∀ other ∈ (states 0).queue program, other ≠ serializer →
      (states call).shared.taskQueue other ≠ [] →
      ∃! between, call < between ∧ between < next ∧ (states between).turn program = some other
  ends : ∀ call, ((states call).queue program = [] ∧
      ∀ serializer ∈ (states 0).queue program, (states call).shared.taskQueue serializer = []) ↔
    (((states 0).queue program).map fun serializer =>
      (((states 0).shared.taskQueue serializer).length + 29) / 30).sum ≤ call
  once : ∀ call, (states call).queue program = [] → ∀ serializer ∈ (states 0).queue program,
    (states call).shared.started serializer = (states 0).shared.started serializer ++
      ((states 0).shared.taskQueue serializer).map ITask.id

variable [DecidableEq σ]

/-- The states between the calls of a worker, each of which does what a call does. -/
structure Calling (program : Program σ τ) (at_ : ι) (states : Nat → State ι σ τ) : Prop where
  stands : ∀ call, Stands program at_ (states call)
  called : ∀ call, Called program (states call) (states (call + 1))

namespace Calling

variable {at_ : ι} (calling : Calling program at_ states)

include calling

/-- The backlogs rotate from call to call. -/
theorem backlogs (call later : Nat) : (states (call + later)).backlogs program =
    (Rotation.rotate maxProcessTaskCount)^[later] ((states call).backlogs program) := by
  induction later with
  | zero => rfl
  | succ later ih =>
    -- The next call is one more turn of the rotation.
    rw [Function.iterate_succ_apply', ← ih]
    exact (calling.called (call + later)).backlogs

/-- The turns are those of the rotation. -/
theorem turn (call later : Nat) : (states (call + later)).turn program =
    Rotation.owner maxProcessTaskCount ((states call).backlogs program) later := by
  rw [Rotation.owner, ← calling.backlogs call later, State.backlogs, List.head?_map, Option.map_map]
  exact (Option.map_id' ..).symm

/-- A serializer that has left the queue has no tasks. -/
theorem left (call : Nat) : ∀ serializer ∈ (states 0).queue program,
    serializer ∉ (states call).queue program → (states call).shared.taskQueue serializer = [] := by
  induction call with
  | zero => exact fun serializer member absent => absurd member absent
  | succ call ih =>
    intro serializer member gone
    have called := calling.called call
    rw [called.taskQueue]
    by_cases queued : serializer ∈ (states call).queue program
    · cases queue : (states call).queue program with
      | nil => rw [queue] at queued; cases queued
      | cons first others =>
        -- Only the first serializer can leave, when its batch takes all of its tasks.
        rw [called.queue queue, List.mem_append, not_or] at gone
        rw [queue] at queued
        obtain rfl : serializer = first := by simpa [gone.1] using queued
        have short : ((states call).shared.taskQueue serializer).length ≤ maxProcessTaskCount := by
          by_contra long
          simp [long] at gone
        rw [if_pos (by simp [State.turn, queue]), List.drop_eq_nil_of_le short]
    · rw [ih serializer member queued, List.drop_nil]

/-- What has been started and what is left are the tasks that stood there at first. -/
theorem conserved (call : Nat) (serializer : σ) :
    (states call).shared.started serializer ++
        ((states call).shared.taskQueue serializer).map ITask.id =
      (states 0).shared.started serializer ++
        ((states 0).shared.taskQueue serializer).map ITask.id := by
  induction call with
  | zero => rfl
  | succ call ih =>
    -- A call moves the batch from what is left to what has been started, in order.
    have called := calling.called call
    rw [called.started, called.taskQueue, List.append_assoc, ← List.map_append,
      List.take_append_drop, ih]

/-- The schedule is that of a rotation. -/
theorem schedule : BatchSchedule program states where
  batch call serializer turn := by
    have called := calling.called call
    refine ⟨?_, ?_, fun other different => ?_⟩
    · rw [called.started, if_pos turn]
      rfl
    · rw [called.taskQueue, if_pos turn]
      rfl
    · have elsewhere : (states call).turn program ≠ some other := by
        rw [turn]
        simpa using different.symm
      rw [called.started, called.taskQueue, if_neg elsewhere]
      simp
  oneTurn call next serializer earlier now again between other stood different tasks := by
    obtain ⟨distance, rfl⟩ := Nat.exists_eq_add_of_lt earlier
    have turns (later : Nat) := calling.turn call later
    -- A serializer with tasks left stands in the queue.
    have waits : other ∈ ((states call).backlogs program).map Prod.fst := by
      rw [State.backlogs_owners]
      by_contra gone
      exact tasks (calling.left call other stood gone)
    obtain ⟨later, ⟨positive, before, owns⟩, only⟩ := Rotation.one_turn
      (calling.stands call).proper (a := serializer) (by rwa [← turns 0])
      (Nat.succ_pos _) (by rwa [← turns])
      (fun later positive before => by
        rw [← turns]
        exact between _ (by omega) (by omega)) waits different
    -- Turns are counted from the first of the two calls.
    refine ⟨call + later, ⟨by omega, by omega, by rwa [turns]⟩, ?_⟩
    rintro same ⟨after, before, owns⟩
    obtain ⟨apart, rfl⟩ := Nat.exists_eq_add_of_lt after
    have found := only (apart + 1) ⟨by omega, by omega, by rwa [← turns]⟩
    omega
  ends call := by
    have queue : (states call).queue program = [] ↔ (states call).backlogs program = [] := by
      rw [State.backlogs, List.map_eq_nil_iff]
    have rotated := calling.backlogs 0 call
    rw [Nat.zero_add] at rotated
    have positive : 0 < maxProcessTaskCount := by decide
    have last := Rotation.iterate_eq_nil_iff positive (calling.stands 0).proper call
    rw [← rotated, ← queue, Rotation.turns, State.backlogs, List.map_map] at last
    -- Once the queue is empty, every serializer has left it, without tasks.
    refine Iff.trans ⟨And.left, fun empty => ⟨empty, fun serializer stood => ?_⟩⟩ last
    exact calling.left call serializer stood (by rw [empty]; exact List.not_mem_nil)
  once call empty serializer stood := by
    have conserved := calling.conserved call serializer
    rw [calling.left call serializer stood (by rw [empty]; exact List.not_mem_nil), List.map_nil,
      List.append_nil] at conserved
    exact conserved

end Calling

variable [DecidableEq ι]

/--
A worker that polls a queue of serializers on its own keeps the batch schedule.

The serializers are different ones and have tasks that make no requests. Each call of the worker
returns, in one state, and the states between the calls are as the schedule says.
-/
theorem batch_schedule {at_ : ι} {start : State ι σ τ} (stands : Stands program at_ start) :
    ∃ states : Nat → State ι σ τ, states 0 = start ∧
      (∀ call next, PollCall program at_ (states call) next ↔ next = states (call + 1)) ∧
      BatchSchedule program states := by
  -- One call after another, from states in which the serializers stand to such states.
  choose next call still called using
    fun state : { state : State ι σ τ // Stands program at_ state } => state.2.call
  let states (calls : Nat) : { state : State ι σ τ // Stands program at_ state } :=
    (fun state => ⟨next state, still state⟩)^[calls] ⟨start, stands⟩
  have succ (calls : Nat) : (states (calls + 1)).1 = next (states calls) := by
    simp only [states, Function.iterate_succ_apply']
  refine ⟨fun calls => (states calls).1, rfl, fun calls after => ⟨fun polled => ?_, ?_⟩, ?_⟩
  · have same : after = next (states calls) := polled.unique (call (states calls))
    rw [same, ← succ]
  · rintro rfl
    have polled := call (states calls)
    rwa [← succ] at polled
  · have calling : Calling program at_ fun calls => (states calls).1 :=
      ⟨fun calls => (states calls).2, fun calls => by
        rw [succ]
        exact called (states calls)⟩
    exact calling.schedule

/-- Tasks that do nothing, and one distributor for the whole program. -/
def idleTasks : Program Bool Unit where
  body := fun _ => []
  logHandler := false
  linkage := oneCopy

/-- A serializer with 31 tasks stands in front of one with a single task. -/
def standing : State (Fin 1) Bool Unit :=
  let start := State.init (Fin 1) Bool Unit
  { start with shared := { start.shared with
      taskQueue := fun serializer => (List.range (if serializer then 31 else 1)).map fun id =>
        { id := id, target := serializer, func := .user () }
      serializerQueue := fun _ => [true, false] } }

/-- The two serializers are done after three calls, and not after two. -/
theorem batch_schedule_standing :
    ∃ states : Nat → State (Fin 1) Bool Unit, states 0 = standing ∧
      BatchSchedule idleTasks states ∧ (states 3).queue idleTasks = [] := by
  -- Both serializers stand in the queue with tasks that make no calls.
  have stands : Stands idleTasks 0 standing := by
    refine ⟨rfl, rfl, rfl, by decide, by decide, fun _ _ => ⟨rfl, by simp [standing, State.init]⟩, ?_⟩
    intro serializer _ task member
    obtain ⟨id, -, rfl⟩ := List.mem_map.mp member
    exact ⟨rfl, rfl, by simp [Func.Requestless, Quiet, idleTasks]⟩
  obtain ⟨states, start, -, schedule⟩ := batch_schedule stands
  refine ⟨states, start, schedule, ((schedule.ends 3).mpr ?_).1⟩
  rw [start]
  decide

end Schedule

end Braid.Task
