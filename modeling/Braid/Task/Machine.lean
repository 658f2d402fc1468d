import Braid.Library.Transition
import Mathlib.Logic.Function.Basic

/-! Task serializers and the distributor, as threads that take one atomic step at a time. -/

namespace Braid.Task

/--
The source files that use the names declared in `TaskDistributor.h`.

The header declares `g_task_distributor` and `tl_process_task_serializer` static at namespace
scope, so each of these files has a distributor and a slot per thread of its own.
-/
inductive SourceFile where
  | taskSerializer
  | taskDistributor
  | workerThread
  deriving DecidableEq, Repr

/-- The file whose copy of the two names the code of a file reads and writes. -/
abbrev Linkage := SourceFile → SourceFile

/-- The linkage of the header as it is written: every file has its own copy. -/
def perFile : Linkage := id

/-- The linkage of one distributor and one slot per thread for the whole program. -/
def oneCopy : Linkage := fun _ => .taskDistributor

/-- `TaskSerializer::STATE`. -/
inductive SerializerState where
  | running
  | destroying
  | destroyed
  deriving DecidableEq, Repr

/-- `LogLevel`. -/
inductive LogLevel where
  | info
  | error
  | fatal
  deriving DecidableEq, Repr

/-- The number behind a log level, by which levels are compared. -/
def LogLevel.rank : LogLevel → Nat
  | .info => 0
  | .error => 1
  | .fatal => 2

/-- The calls through which application code and task bodies reach the serializers. -/
inductive Call (σ τ : Type) where
  | requestTask (serializer : σ) (task : τ)
  | log (level : LogLevel)
  | setDestroy (serializer : σ)
  deriving DecidableEq

/-- What the function stored in a task does when it is invoked. -/
inductive Func (σ τ : Type) where
  | user (task : τ)
  | clear (serializer : σ)
  | writeLog
  deriving DecidableEq

/-- A task object, with the serializer it was requested on and the number of that request. -/
structure ITask (σ τ : Type) where
  id : Nat
  target : σ
  func : Func σ τ
  refCount : Int := 0
  deriving DecidableEq

/-- Why the program stops: a failed assertion, or an access the source gives no meaning to. -/
inductive Fault where
  -- `assert(tl_process_task_serializer == nullptr)`
  | slotTaken
  -- `assert(0 < ptr->ref_count_)`
  | releasedAtZero
  -- `tl_process_task_serializer->…` while it is null
  | nullSlot
  -- `task->release()` on the variable that a failed `pop` never wrote
  | unwrittenTask
  -- A serializer is used after its delete.
  | usedAfterDelete
  deriving DecidableEq, Repr

/-- The places in `process_task_serializer(TaskSerializer*)` between two atomic steps. -/
inductive ProcessPoint where
  | enter
  | pop
  | invoke
  | running
  | state
  | delete
  | free
  | empty
  | requeue
  | exit
  deriving DecidableEq, Repr

/-- The object, the parameter and the local variables of `process_task_serializer`. -/
structure ProcessLocals (σ τ : Type) where
  distributor : SourceFile
  serializer : σ
  task : Option (ITask σ τ) := none
  processCount : Nat := 0
  deriving DecidableEq

/-- A call that a thread is in, as the place of its next atomic step. -/
inductive Frame (σ τ : Type) where
  -- The remaining calls of a task body or of code outside of every task.
  | calls (rest : List (Call σ τ))
  -- `request_task`: the test of `state_`.
  | requestTask (serializer : σ) (func : Func σ τ)
  -- `push`: the emptiness test, the push onto `task_queue_`, and the hand-over.
  | pushEmpty (serializer : σ) (task : ITask σ τ)
  | pushInsert (serializer : σ) (task : ITask σ τ) (wasEmpty : Bool)
  | pushHandOver (serializer : σ)
  -- `process_task_serializer()` of a distributor.
  | poll (distributor : SourceFile)
  -- `process_task_serializer(TaskSerializer*)`.
  | process (point : ProcessPoint) (locals : ProcessLocals σ τ)
  -- `set_destroy`: the store that follows the request of `clear`.
  | destroyStore (serializer : σ)
  -- `clear`: the emptiness test, the pop with its release, and the store.
  | clearEmpty (serializer : σ)
  | clearPop (serializer : σ)
  | clearStore (serializer : σ)
  deriving DecidableEq

/-- A serializer put on the queue of a distributor, and whether it had tasks at that moment. -/
structure Put (σ : Type) where
  distributor : SourceFile
  serializer : σ
  pending : Bool
  deriving DecidableEq

/--
What the threads share.

The last fields are a record of the run that no step reads: the tasks requested, pushed and
started on each serializer, the puts onto distributor queues, and the tasks destroyed.
-/
structure Shared (σ τ : Type) where
  taskQueue : σ → List (ITask σ τ)
  state : σ → SerializerState
  deleted : σ → Bool
  serializerQueue : SourceFile → List σ
  minLevel : LogLevel
  fault : Option Fault
  nextId : Nat
  requested : σ → List Nat
  pushed : σ → List Nat
  started : σ → List Nat
  puts : List (Put σ)
  destroyed : List Nat

/-- A thread: its copies of `tl_process_task_serializer`, and the calls it is in. -/
structure Thread (σ τ : Type) where
  slot : SourceFile → Option σ
  stack : List (Frame σ τ)

/-- A state of the program. -/
structure State (ι σ τ : Type) where
  shared : Shared σ τ
  thread : ι → Thread σ τ

/-- The program: the calls each task body makes, the log handler, and the linkage. -/
structure Program (σ τ : Type) where
  body : τ → List (Call σ τ)
  logHandler : σ
  linkage : Linkage

/-- `MAX_PROCESS_TASK_COUNT`. -/
def maxProcessTaskCount : Nat := 30

/-- The state before any call: no tasks, and no thread inside a call. -/
def State.init (ι σ τ : Type) : State ι σ τ where
  shared :=
    { taskQueue := fun _ => []
      state := fun _ => .running
      deleted := fun _ => false
      serializerQueue := fun _ => []
      minLevel := .info
      fault := none
      nextId := 0
      requested := fun _ => []
      pushed := fun _ => []
      started := fun _ => []
      puts := []
      destroyed := [] }
  thread := fun _ => ⟨fun _ => none, []⟩

variable {ι σ τ : Type}

/-- The program stops. -/
def Shared.stop (shared : Shared σ τ) (fault : Fault) : Shared σ τ :=
  { shared with fault := some fault }

/-- `intrusive_ptr_release` on a task: asserts a positive count, and destroys at the last one. -/
def Shared.release (shared : Shared σ τ) (task : ITask σ τ) : Shared σ τ :=
  if task.refCount ≤ 0 then shared.stop .releasedAtZero
  else if task.refCount = 1 then { shared with destroyed := shared.destroyed ++ [task.id] }
  else shared

/-- The release of what an `ObjectPtr<ITask>` variable points at, if anything. -/
def Shared.drop (shared : Shared σ τ) : Option (ITask σ τ) → Shared σ τ
  | none => shared
  | some task => shared.release task

/-- `serializer_queue_.push`. -/
def Shared.put (shared : Shared σ τ) (distributor : SourceFile) (serializer : σ) : Shared σ τ :=
  { shared with
    serializerQueue := Function.update shared.serializerQueue distributor
      (shared.serializerQueue distributor ++ [serializer])
    puts := shared.puts ++ [⟨distributor, serializer, !(shared.taskQueue serializer).isEmpty⟩] }

variable (program : Program σ τ)

/-- The calls of a task body, and `LogImpl` behind the logging macros. -/
def callStep (shared : Shared σ τ) (thread : Thread σ τ) :
    List (Call σ τ) → Shared σ τ × Thread σ τ
  | [] => (shared, thread)
  | .requestTask serializer task :: rest =>
    (shared, { thread with
      stack := .requestTask serializer (.user task) :: .calls rest :: thread.stack })
  | .log level :: rest =>
    if level.rank < shared.minLevel.rank then
      (shared, { thread with stack := .calls rest :: thread.stack })
    else (shared, { thread with
      stack := .requestTask program.logHandler .writeLog :: .calls rest :: thread.stack })
  | .setDestroy serializer :: rest =>
    (shared, { thread with
      stack := .requestTask serializer (.clear serializer) :: .destroyStore serializer ::
        .calls rest :: thread.stack })

/-- The serializer that the next step of a frame reads or writes. -/
def Frame.touched (slot : Option σ) : Frame σ τ → Option σ
  | .requestTask serializer _ => some serializer
  | .pushEmpty serializer _ => some serializer
  | .pushInsert serializer _ _ => some serializer
  | .process .pop _ => slot
  | .process .state _ => slot
  | .process .delete _ => slot
  | .process .empty _ => slot
  | .destroyStore serializer => some serializer
  | .clearEmpty serializer => some serializer
  | .clearPop serializer => some serializer
  | .clearStore serializer => some serializer
  | _ => none

variable [DecidableEq σ]

/-- `request_task`: only a running serializer gets a new task. -/
def requestTaskStep (shared : Shared σ τ) (thread : Thread σ τ) (serializer : σ)
    (func : Func σ τ) : Shared σ τ × Thread σ τ :=
  if shared.state serializer ≠ .running then (shared, thread)
  else
    ({ shared with
        nextId := shared.nextId + 1
        requested := Function.update shared.requested serializer
          (shared.requested serializer ++ [shared.nextId]) },
      { thread with
        stack := .pushEmpty serializer { id := shared.nextId, target := serializer, func := func } ::
          thread.stack })

/-- `push`, from the emptiness test to the push onto the queue. -/
def pushInsertStep (shared : Shared σ τ) (thread : Thread σ τ) (serializer : σ)
    (task : ITask σ τ) (wasEmpty : Bool) : Shared σ τ × Thread σ τ :=
  ({ shared with
      taskQueue := Function.update shared.taskQueue serializer
        (shared.taskQueue serializer ++ [task])
      pushed := Function.update shared.pushed serializer (shared.pushed serializer ++ [task.id]) },
    if wasEmpty then { thread with stack := .pushHandOver serializer :: thread.stack } else thread)

/--
`push`, the hand-over after the queue was found empty.

The slot is the one of `TaskSerializer.cc`, and so is the distributor.
-/
def pushHandOverStep (shared : Shared σ τ) (thread : Thread σ τ) (serializer : σ) :
    Shared σ τ × Thread σ τ :=
  let distributor := program.linkage .taskSerializer
  match thread.slot (program.linkage .taskSerializer) with
  | none => (shared, { thread with
      stack := .process .enter { distributor := distributor, serializer := serializer } ::
        thread.stack })
  | some _ => (shared.put distributor serializer, thread)

/-- `process_task_serializer()`: asserts a free slot, and takes the first serializer queued. -/
def pollStep (shared : Shared σ τ) (thread : Thread σ τ) (distributor : SourceFile) :
    Shared σ τ × Thread σ τ :=
  if (thread.slot (program.linkage .taskDistributor)).isSome then
    (shared.stop .slotTaken, { thread with stack := .poll distributor :: thread.stack })
  else match shared.serializerQueue distributor with
  | [] => (shared, thread)
  | serializer :: rest =>
    ({ shared with
        serializerQueue := Function.update shared.serializerQueue distributor rest },
      { thread with
        stack := .process .enter { distributor := distributor, serializer := serializer } ::
          thread.stack })

/-- `process_task_serializer(TaskSerializer*)` up to the entry of the loop. -/
def processEnterStep (shared : Shared σ τ) (thread : Thread σ τ) (locals : ProcessLocals σ τ) :
    Shared σ τ × Thread σ τ :=
  let file := program.linkage .taskDistributor
  if (thread.slot file).isSome then
    (shared.stop .slotTaken, { thread with stack := .process .enter locals :: thread.stack })
  else (shared, ⟨Function.update thread.slot file (some locals.serializer),
    .process .pop locals :: thread.stack⟩)

/-- The frame that an invoked task adds to the stack. -/
def invokeFrame : Func σ τ → List (Frame σ τ)
  | .user task => [.calls (program.body task)]
  | .clear serializer => [.clearEmpty serializer]
  | .writeLog => []

/-- The steps of `process_task_serializer(TaskSerializer*)` that go through the slot. -/
def processStep (shared : Shared σ τ) (thread : Thread σ τ) (locals : ProcessLocals σ τ)
    (current : σ) : ProcessPoint → Shared σ τ × Thread σ τ
  | .pop =>
    -- The assignment to `task` releases the task of the previous turn.
    match shared.taskQueue current with
    | [] => (shared.drop locals.task, { thread with
        stack := .process .state { locals with task := none } :: thread.stack })
    | task :: rest =>
      (({ shared with taskQueue := Function.update shared.taskQueue current rest }).drop
          locals.task,
        { thread with
          stack := .process .invoke
            { locals with task := some { task with refCount := task.refCount + 1 } } ::
            thread.stack })
  | .state =>
    let next := if shared.state current = .destroyed then .delete else .empty
    (shared, { thread with stack := .process next locals :: thread.stack })
  | .delete =>
    -- The destructor runs `clear` before the memory is given back.
    (shared, { thread with
      stack := .clearEmpty current :: .process .free locals :: thread.stack })
  | .free =>
    ({ shared with deleted := Function.update shared.deleted current true },
      { thread with stack := .process .exit locals :: thread.stack })
  | .empty =>
    let next := if (shared.taskQueue current).isEmpty then .exit else .requeue
    (shared, { thread with stack := .process next locals :: thread.stack })
  | .requeue =>
    (shared.put locals.distributor current,
      { thread with stack := .process .exit locals :: thread.stack })
  | point => (shared, { thread with stack := .process point locals :: thread.stack })

/-- The invocation of the popped task. -/
def invokeStep (shared : Shared σ τ) (thread : Thread σ τ) (locals : ProcessLocals σ τ) :
    Shared σ τ × Thread σ τ :=
  match locals.task with
  | none => (shared, { thread with stack := .process .running locals :: thread.stack })
  | some task =>
    ({ shared with
        started := Function.update shared.started task.target
          (shared.started task.target ++ [task.id]) },
      { thread with
        stack := invokeFrame program task.func ++ .process .running locals :: thread.stack })

/-- The end of a turn of the loop: the count, and the break at the batch limit. -/
def turnStep (shared : Shared σ τ) (thread : Thread σ τ) (locals : ProcessLocals σ τ) :
    Shared σ τ × Thread σ τ :=
  let locals := { locals with processCount := locals.processCount + 1 }
  let next := if maxProcessTaskCount ≤ locals.processCount then .state else .pop
  (shared, { thread with stack := .process next locals :: thread.stack })

/-- The end of `process_task_serializer(TaskSerializer*)`: the slot is freed, the task released. -/
def processExitStep (shared : Shared σ τ) (thread : Thread σ τ) (locals : ProcessLocals σ τ) :
    Shared σ τ × Thread σ τ :=
  (shared.drop locals.task,
    { thread with slot := Function.update thread.slot (program.linkage .taskDistributor) none })

/-- `clear`: the emptiness test, a pop with its release, and the final store. -/
def clearStep (shared : Shared σ τ) (thread : Thread σ τ) (serializer : σ) :
    Frame σ τ → Shared σ τ × Thread σ τ
  | .clearEmpty _ =>
    if (shared.taskQueue serializer).isEmpty then
      (shared, { thread with stack := .clearStore serializer :: thread.stack })
    else (shared, { thread with stack := .clearPop serializer :: thread.stack })
  | .clearPop _ =>
    match shared.taskQueue serializer with
    | [] => (shared.stop .unwrittenTask,
        { thread with stack := .clearPop serializer :: thread.stack })
    | task :: rest =>
      (({ shared with taskQueue := Function.update shared.taskQueue serializer rest }).release task,
        { thread with stack := .clearEmpty serializer :: thread.stack })
  | _ => ({ shared with state := Function.update shared.state serializer .destroyed }, thread)

/-- The next atomic step of a frame, over the calls below it. -/
def frameStep (shared : Shared σ τ) (thread : Thread σ τ) (frame : Frame σ τ) :
    Shared σ τ × Thread σ τ :=
  let slot := thread.slot (program.linkage .taskDistributor)
  if (frame.touched slot).any shared.deleted then
    (shared.stop .usedAfterDelete, { thread with stack := frame :: thread.stack })
  else match frame with
  | .calls rest => callStep program shared thread rest
  | .requestTask serializer func => requestTaskStep shared thread serializer func
  | .pushEmpty serializer task =>
    (shared, { thread with
      stack := .pushInsert serializer task (shared.taskQueue serializer).isEmpty ::
        thread.stack })
  | .pushInsert serializer task wasEmpty => pushInsertStep shared thread serializer task wasEmpty
  | .pushHandOver serializer => pushHandOverStep program shared thread serializer
  | .poll distributor => pollStep program shared thread distributor
  | .process .enter locals => processEnterStep program shared thread locals
  | .process .invoke locals => invokeStep program shared thread locals
  | .process .running locals => turnStep shared thread locals
  | .process .exit locals => processExitStep program shared thread locals
  | .process point locals =>
    match slot with
    | none => (shared.stop .nullSlot, { thread with stack := frame :: thread.stack })
    | some current => processStep shared thread locals current point
  | .destroyStore serializer =>
    ({ shared with state := Function.update shared.state serializer .destroying }, thread)
  | .clearEmpty serializer => clearStep shared thread serializer frame
  | .clearPop serializer => clearStep shared thread serializer frame
  | .clearStore serializer => clearStep shared thread serializer frame

/-- What can happen next: a thread outside of every call makes one, or a thread takes a step. -/
inductive Label (ι σ τ : Type) where
  | call (thread : ι) (call : Call σ τ)
  | poll (thread : ι)
  | run (thread : ι)
  | setMinLevel (level : LogLevel)
  deriving DecidableEq

variable [DecidableEq ι]

/-- A thread of the state is replaced. -/
def State.withThread (state : State ι σ τ) (at_ : ι) (shared : Shared σ τ)
    (thread : Thread σ τ) : State ι σ τ :=
  ⟨shared, Function.update state.thread at_ thread⟩

/--
One atomic step of the program.

A thread outside of every call may make any call, or run `process_task_serializer()` on the
distributor of `WorkerThread.cc` as `WorkerThread::routine` does.
A program that has stopped takes no steps.
-/
def step (state : State ι σ τ) (label : Label ι σ τ) : Option (State ι σ τ) :=
  if state.shared.fault.isSome then none
  else match label with
  | .call at_ call =>
    match (state.thread at_).stack with
    | [] => some (state.withThread at_ state.shared
        { state.thread at_ with stack := [.calls [call]] })
    | _ :: _ => none
  | .poll at_ =>
    match (state.thread at_).stack with
    | [] => some (state.withThread at_ state.shared
        { state.thread at_ with stack := [.poll (program.linkage .workerThread)] })
    | _ :: _ => none
  | .run at_ =>
    match (state.thread at_).stack with
    | [] => none
    | frame :: rest =>
      let result := frameStep program state.shared { state.thread at_ with stack := rest } frame
      some (state.withThread at_ result.1 result.2)
  | .setMinLevel level => some { state with shared := { state.shared with minLevel := level } }

end Braid.Task
