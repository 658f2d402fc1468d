import Braid.Library.Counting
import Braid.Task.Stack

/-! Runs without `set_destroy` over one distributor and one slot: what a thread can do next. -/

namespace Braid.Task

variable {ι σ τ : Type}

/-- Every call but `set_destroy`. -/
def Call.harmless : Call σ τ → Bool
  | .setDestroy _ => false
  | _ => true

/-- Every task but the one that runs `clear`. -/
def Func.harmless : Func σ τ → Bool
  | .clear _ => false
  | _ => true

/-- No task body calls `set_destroy`. -/
def Program.Harmless (program : Program σ τ) : Prop :=
  ∀ task, ∀ call ∈ program.body task, call.harmless = true

/-- A task that was requested on a serializer by application code, with its count of references. -/
def ITask.On (task : ITask σ τ) (serializer : σ) (refCount : Int) : Prop :=
  task.target = serializer ∧ task.func.harmless = true ∧ task.refCount = refCount

/-- What a frame is made of when nothing is ever destroyed. -/
def Frame.Calm : Frame σ τ → Prop
  | .calls rest => ∀ call ∈ rest, call.harmless = true
  | .requestTask _ func => func.harmless = true
  | .pushEmpty serializer task => task.On serializer 0
  | .pushInsert serializer task _ => task.On serializer 0
  | .pushHandOver _ => True
  | .poll distributor => distributor = .taskDistributor
  | .process point locals =>
    locals.distributor = .taskDistributor ∧ point ≠ .delete ∧ point ≠ .free ∧
      (point = .invoke → locals.task.isSome = true) ∧
      ∀ task ∈ locals.task, task.On locals.serializer 1
  | _ => False

/-- A stack of calm frames. -/
abbrev CalmStack (slot : Option σ) (stack : List (Frame σ τ)) : Prop :=
  StackShape Frame.Calm slot stack

/-- A shared state in which nothing has failed and nothing is being destroyed. -/
structure Shared.Calm (shared : Shared σ τ) : Prop where
  noFault : shared.fault = none
  running : ∀ serializer, shared.state serializer = .running
  alive : ∀ serializer, shared.deleted serializer = false
  queued : ∀ serializer, ∀ task ∈ shared.taskQueue serializer, task.On serializer 0

/-- A state all of whose parts are calm. -/
structure State.Calm (state : State ι σ τ) : Prop where
  shared : state.shared.Calm
  threads : ∀ at_, CalmStack ((state.thread at_).slot .taskDistributor) (state.thread at_).stack

variable {program : Program σ τ} {shared : Shared σ τ}

/-- The rest of a list of calls, once the first one has been made. -/
theorem StackShape.nextCall {slot : Option σ} {call : Call σ τ} {calls : List (Call σ τ)}
    {rest : List (Frame σ τ)} (calm : CalmStack slot (.calls (call :: calls) :: rest)) :
    CalmStack slot (.calls calls :: rest) := by
  have allowed := calm.top
  exact calm.replace (fun other member => allowed other (by simp [member])) (by simp) calm.slot

/-- The frames that an application task adds are calm and wait for nothing. -/
theorem StackShape.invoke (harmless : program.Harmless) {slot : Option σ}
    {frame : Frame σ τ} {rest : List (Frame σ τ)} (calm : CalmStack slot (frame :: rest))
    (waits : frame.waits = true) {func : Func σ τ} (application : func.harmless = true) :
    CalmStack slot (invokeFrame program func ++ frame :: rest) := by
  cases func with
  -- A body is a call of its own, and the log task adds none.
  | user task => exact calm.push waits (harmless task) (by simp) rfl
  | clear serializer => simp [Func.harmless] at application
  | writeLog => exact calm

/-- The shared state after the first serializer has been taken off the distributor's queue. -/
def Shared.afterTake (shared : Shared σ τ) (rest : List σ) : Shared σ τ :=
  { shared with
    serializerQueue := Function.update shared.serializerQueue .taskDistributor rest }

/-- The shared state after the last reference to a task, if there is one, has been dropped. -/
def Shared.afterDrop (shared : Shared σ τ) (task : Option (ITask σ τ)) : Shared σ τ :=
  { shared with destroyed := shared.destroyed ++ (task.map ITask.id).toList }

/-- A release of tasks that are referred to once destroys them, and fails no assertion. -/
theorem Shared.drop_once {task : Option (ITask σ τ)} (once : ∀ held ∈ task, held.refCount = 1) :
    shared.drop task = shared.afterDrop task := by
  cases task with
  | none => simp [Shared.drop, Shared.afterDrop]
  | some held =>
    -- One reference is left, so its release takes the count to zero.
    have count := once held rfl
    simp [Shared.drop, Shared.release, Shared.afterDrop, count]

/-- Releasing the reference that `pop` took destroys the task, and fails no assertion. -/
theorem Shared.drop_eq {serializer : σ} {task : Option (ITask σ τ)}
    (counted : ∀ held ∈ task, held.On serializer 1) : shared.drop task = shared.afterDrop task :=
  Shared.drop_once fun held member => (counted held member).2.2

/-- Shared states that agree on the failure, the serializer states and the queues are calm together. -/
theorem Shared.Calm.congr (calm : shared.Calm) {after : Shared σ τ}
    (fault : after.fault = shared.fault) (state : after.state = shared.state)
    (deleted : after.deleted = shared.deleted) (queues : after.taskQueue = shared.taskQueue) :
    after.Calm where
  noFault := fault ▸ calm.noFault
  running := state ▸ calm.running
  alive := deleted ▸ calm.alive
  queued := queues ▸ calm.queued

variable [DecidableEq σ]

/-- The shared state after a task has been requested. -/
def Shared.afterRequest (shared : Shared σ τ) (serializer : σ) : Shared σ τ :=
  { shared with
    nextId := shared.nextId + 1
    requested := Function.update shared.requested serializer
      (shared.requested serializer ++ [shared.nextId]) }

/-- The shared state after a task has been pushed onto its queue. -/
def Shared.afterInsert (shared : Shared σ τ) (serializer : σ) (task : ITask σ τ) : Shared σ τ :=
  { shared with
    taskQueue := Function.update shared.taskQueue serializer (shared.taskQueue serializer ++ [task])
    pushed := Function.update shared.pushed serializer (shared.pushed serializer ++ [task.id]) }

/-- The shared state after the first task of a queue has been popped. -/
def Shared.afterPop (shared : Shared σ τ) (serializer : σ) (rest : List (ITask σ τ)) :
    Shared σ τ :=
  { shared with taskQueue := Function.update shared.taskQueue serializer rest }

/-- The shared state after the invocation of a task has begun. -/
def Shared.afterStart (shared : Shared σ τ) (task : ITask σ τ) : Shared σ τ :=
  { shared with
    started := Function.update shared.started task.target
      (shared.started task.target ++ [task.id]) }

/--
What a thread of a calm state does in one step.

There is one constructor for every atomic step of the source, with the branches it can take.
-/
inductive Move (program : Program σ τ) (shared : Shared σ τ) :
    Option σ → List (Frame σ τ) → Shared σ τ → Option σ → List (Frame σ τ) → Prop
  | callsDone {slot rest} : Move program shared slot (.calls [] :: rest) shared slot rest
  | callRequest {slot rest serializer task calls} :
    Move program shared slot (.calls (.requestTask serializer task :: calls) :: rest)
      shared slot (.requestTask serializer (.user task) :: .calls calls :: rest)
  | callLogFiltered {slot rest level calls} :
    Move program shared slot (.calls (.log level :: calls) :: rest)
      shared slot (.calls calls :: rest)
  | callLog {slot rest level calls} :
    Move program shared slot (.calls (.log level :: calls) :: rest)
      shared slot (.requestTask program.logHandler .writeLog :: .calls calls :: rest)
  | request {slot rest serializer func} :
    Move program shared slot (.requestTask serializer func :: rest)
      (shared.afterRequest serializer) slot
      (.pushEmpty serializer { id := shared.nextId, target := serializer, func := func } :: rest)
  | pushEmpty {slot rest serializer task} :
    Move program shared slot (.pushEmpty serializer task :: rest) shared slot
      (.pushInsert serializer task (shared.taskQueue serializer).isEmpty :: rest)
  | pushInsertEmpty {slot rest serializer task} :
    Move program shared slot (.pushInsert serializer task true :: rest)
      (shared.afterInsert serializer task) slot (.pushHandOver serializer :: rest)
  | pushInsert {slot rest serializer task} :
    Move program shared slot (.pushInsert serializer task false :: rest)
      (shared.afterInsert serializer task) slot rest
  | handOverInline {rest serializer} :
    Move program shared none (.pushHandOver serializer :: rest) shared none
      (.process .enter { distributor := .taskDistributor, serializer := serializer } :: rest)
  | handOverAdd {current rest serializer} :
    Move program shared (some current) (.pushHandOver serializer :: rest)
      (shared.put .taskDistributor serializer) (some current) rest
  | pollNothing {rest} (none_ : shared.serializerQueue .taskDistributor = []) :
    Move program shared none (.poll .taskDistributor :: rest) shared none rest
  | poll {rest serializer others}
    (first : shared.serializerQueue .taskDistributor = serializer :: others) :
    Move program shared none (.poll .taskDistributor :: rest) (shared.afterTake others) none
      (.process .enter { distributor := .taskDistributor, serializer := serializer } :: rest)
  | enter {rest locals} :
    Move program shared none (.process .enter locals :: rest) shared (some locals.serializer)
      (.process .pop locals :: rest)
  | popNothing {rest} {locals : ProcessLocals σ τ}
    (none_ : shared.taskQueue locals.serializer = []) :
    Move program shared (some locals.serializer) (.process .pop locals :: rest)
      (shared.afterDrop locals.task) (some locals.serializer)
      (.process .state { locals with task := none } :: rest)
  | pop {rest} {locals : ProcessLocals σ τ} {task others}
    (first : shared.taskQueue locals.serializer = task :: others) :
    Move program shared (some locals.serializer) (.process .pop locals :: rest)
      ((shared.afterPop locals.serializer others).afterDrop locals.task) (some locals.serializer)
      (.process .invoke
        { locals with task := some { task with refCount := task.refCount + 1 } } :: rest)
  | invoke {slot rest} {locals : ProcessLocals σ τ} {task}
    (popped : locals.task = some task) :
    Move program shared slot (.process .invoke locals :: rest) (shared.afterStart task) slot
      (invokeFrame program task.func ++ .process .running locals :: rest)
  | turn {slot rest} {locals : ProcessLocals σ τ}
    (below : locals.processCount + 1 < maxProcessTaskCount) :
    Move program shared slot (.process .running locals :: rest) shared slot
      (.process .pop { locals with processCount := locals.processCount + 1 } :: rest)
  | turnLast {slot rest} {locals : ProcessLocals σ τ}
    (reached : maxProcessTaskCount ≤ locals.processCount + 1) :
    Move program shared slot (.process .running locals :: rest) shared slot
      (.process .state { locals with processCount := locals.processCount + 1 } :: rest)
  | state {rest} {locals : ProcessLocals σ τ} :
    Move program shared (some locals.serializer) (.process .state locals :: rest)
      shared (some locals.serializer) (.process .empty locals :: rest)
  | emptyExit {rest} {locals : ProcessLocals σ τ}
    (none_ : shared.taskQueue locals.serializer = []) :
    Move program shared (some locals.serializer) (.process .empty locals :: rest)
      shared (some locals.serializer) (.process .exit locals :: rest)
  | emptyRequeue {rest} {locals : ProcessLocals σ τ}
    (some_ : shared.taskQueue locals.serializer ≠ []) :
    Move program shared (some locals.serializer) (.process .empty locals :: rest)
      shared (some locals.serializer) (.process .requeue locals :: rest)
  | requeue {rest} {locals : ProcessLocals σ τ} :
    Move program shared (some locals.serializer) (.process .requeue locals :: rest)
      (shared.put .taskDistributor locals.serializer) (some locals.serializer)
      (.process .exit locals :: rest)
  | exit {rest} {locals : ProcessLocals σ τ} :
    Move program shared (some locals.serializer) (.process .exit locals :: rest)
      (shared.afterDrop locals.task) none rest

/-- Every step of a calm thread is one of the moves, and it changes no other copy of the slot. -/
theorem frameStep_move (linked : program.linkage = oneCopy) (calm : shared.Calm)
    {slot : SourceFile → Option σ} {frame : Frame σ τ} {rest : List (Frame σ τ)}
    (stackCalm : CalmStack (slot .taskDistributor) (frame :: rest)) :
    let result := frameStep program shared ⟨slot, rest⟩ frame
    Move program shared (slot .taskDistributor) (frame :: rest) result.1
      (result.2.slot .taskDistributor) result.2.stack := by
  -- Nothing has been deleted, so the step is the one of the frame itself.
  have untouched : (frame.touched (slot .taskDistributor)).any shared.deleted = false := by
    cases frame.touched (slot .taskDistributor) with
    | none => rfl
    | some serializer => exact calm.alive serializer
  have shape := stackCalm.frames frame (by simp)
  simp only [frameStep, linked, oneCopy, untouched, Bool.false_eq_true, if_false]
  cases frame with
  | calls calls =>
    cases calls with
    | nil => exact .callsDone
    | cons call calls =>
      cases call with
      | requestTask serializer task => exact .callRequest
      | log level =>
        simp only [callStep]
        split
        · exact .callLogFiltered
        · exact .callLog
      | setDestroy serializer => simpa [Call.harmless] using shape (.setDestroy serializer) (by simp)
  | requestTask serializer func =>
    simp only [requestTaskStep, calm.running, ne_eq, not_true_eq_false, if_false]
    exact .request
  | pushEmpty serializer task => exact .pushEmpty
  | pushInsert serializer task wasEmpty =>
    cases wasEmpty with
    | true => exact .pushInsertEmpty
    | false => exact .pushInsert
  | pushHandOver serializer =>
    simp only [pushHandOverStep, linked, oneCopy]
    split
    · rename_i outside; simp only [outside]; exact .handOverInline
    · rename_i current inside; simp only [inside]; exact .handOverAdd
  | poll distributor =>
    subst shape
    have below := stackCalm.alone _ _ rfl
    subst below
    have outside : slot .taskDistributor = none := by simpa [SlotMatches] using stackCalm.inside rfl
    simp only [pollStep, linked, oneCopy, outside, Option.isSome_none, Bool.false_eq_true, if_false]
    split
    · rename_i empty; simp only [outside]; exact .pollNothing empty
    · rename_i serializer others first; simp only [outside]; exact .poll first
  | process point locals =>
    obtain ⟨taken, _⟩ := stackCalm.process
    obtain ⟨distributor, notDelete, notFree, popped, counted⟩ := shape
    cases point with
    | enter =>
      rw [if_pos rfl] at taken
      simp only [processEnterStep, linked, oneCopy, taken, Option.isSome_none, Bool.false_eq_true,
        if_false, Function.update_self]
      exact .enter
    | pop =>
      rw [if_neg (by decide)] at taken
      simp only [taken, processStep]
      split
      · rename_i empty
        simp only [Shared.drop_eq counted, taken]
        exact .popNothing empty
      · rename_i task others first
        simp only [Shared.drop_eq counted, taken]
        exact .pop first
    | invoke =>
      obtain ⟨task, held⟩ := Option.isSome_iff_exists.mp (popped rfl)
      simp only [invokeStep, held]
      exact .invoke held
    | running =>
      simp only [turnStep]
      split
      · rename_i reached; exact .turnLast reached
      · rename_i below; exact .turn (by omega)
    | state =>
      rw [if_neg (by decide)] at taken
      simp only [taken, processStep, calm.running, reduceCtorEq, if_false]
      exact .state
    | delete => exact absurd rfl notDelete
    | free => exact absurd rfl notFree
    | empty =>
      rw [if_neg (by decide)] at taken
      simp only [taken, processStep]
      split
      · rename_i empty; exact .emptyExit (List.isEmpty_iff.mp empty)
      · rename_i some_; exact .emptyRequeue fun empty => some_ (List.isEmpty_iff.mpr empty)
    | requeue =>
      rw [if_neg (by decide)] at taken
      simp only [taken, processStep, distributor]
      exact .requeue
    | exit =>
      rw [if_neg (by decide)] at taken
      simp only [taken, processExitStep, linked, oneCopy, Function.update_self,
        Shared.drop_eq counted]
      exact .exit
  | destroyStore serializer => exact shape.elim
  | clearEmpty serializer => exact shape.elim
  | clearPop serializer => exact shape.elim
  | clearStore serializer => exact shape.elim

/-- Pushing an application task keeps the queues calm. -/
theorem Shared.Calm.insert (calm : shared.Calm) {serializer : σ} {task : ITask σ τ}
    (on : task.On serializer 0) : (shared.afterInsert serializer task).Calm where
  noFault := calm.noFault
  running := calm.running
  alive := calm.alive
  queued := by
    intro other queued member
    rcases Counting.mem_update_append.mp member with before | ⟨rfl, rfl⟩
    · exact calm.queued _ _ before
    · -- The last task of this queue is the new one.
      exact on

/-- Popping a task keeps the queues calm. -/
theorem Shared.Calm.pop (calm : shared.Calm) {serializer : σ} {task : ITask σ τ}
    {others : List (ITask σ τ)} (first : shared.taskQueue serializer = task :: others) :
    (shared.afterPop serializer others).Calm where
  noFault := calm.noFault
  running := calm.running
  alive := calm.alive
  queued other queued member := calm.queued other queued (Counting.mem_update_tail first member)

/-- A move keeps a calm state calm. -/
theorem Move.calm (harmless : program.Harmless) {slot after : Option σ}
    {stack next : List (Frame σ τ)} {shared' : Shared σ τ}
    (move : Move program shared slot stack shared' after next) (calm : shared.Calm)
    (stackCalm : CalmStack slot stack) : shared'.Calm ∧ CalmStack after next := by
  cases move with
  | callsDone => exact ⟨calm, stackCalm.below (stackCalm.inside rfl)⟩
  | callRequest => exact ⟨calm, stackCalm.nextCall.push rfl rfl (by simp) rfl⟩
  | callLogFiltered => exact ⟨calm, stackCalm.nextCall⟩
  | callLog => exact ⟨calm, stackCalm.nextCall.push rfl rfl (by simp) rfl⟩
  -- A request, a push and an insert hand the task on, and it stays one of its serializer.
  | request =>
    have func := stackCalm.top
    exact ⟨calm.congr rfl rfl rfl rfl, stackCalm.replace ⟨rfl, func, rfl⟩ (by simp) stackCalm.slot⟩
  | pushEmpty =>
    have task := stackCalm.top
    exact ⟨calm, stackCalm.replace (by exact task) (by simp) stackCalm.slot⟩
  | pushInsertEmpty =>
    have task := stackCalm.top
    exact ⟨calm.insert task, stackCalm.replace trivial (by simp) stackCalm.slot⟩
  | pushInsert =>
    have task := stackCalm.top
    exact ⟨calm.insert task, stackCalm.below (stackCalm.inside rfl)⟩
  -- The push that was true enters the loop of the serializer itself.
  | handOverInline =>
    have below := stackCalm.outside rfl
    exact ⟨calm, stackCalm.replace ⟨rfl, by simp, by simp, by simp, by simp⟩ (by simp)
      (by simp [Frame.process?, SlotMatches, below])⟩
  | handOverAdd => exact ⟨calm.congr rfl rfl rfl rfl, stackCalm.below (stackCalm.inside rfl)⟩
  | pollNothing => exact ⟨calm, stackCalm.below (stackCalm.inside rfl)⟩
  | poll first =>
    -- A poll is the first call of its thread, so the loop that it enters is the only one.
    have alone := stackCalm.alone _ _ rfl
    subst alone
    exact ⟨calm.congr rfl rfl rfl rfl, stackCalm.replace ⟨rfl, by simp, by simp, by simp, by simp⟩
      (by simp) ⟨rfl, rfl⟩⟩
  | enter =>
    obtain ⟨distributor, _, _, _, counted⟩ := stackCalm.top
    have below := stackCalm.process.2
    exact ⟨calm, stackCalm.replace ⟨distributor, by simp, by simp, by simp, counted⟩ (by simp)
      (by simp [Frame.process?, SlotMatches, below])⟩
  | popNothing =>
    obtain ⟨distributor, _⟩ := stackCalm.top
    exact ⟨calm.congr rfl rfl rfl rfl, stackCalm.advance (by simp)
      ⟨distributor, by simp, by simp, by simp, by simp⟩ (by simp) rfl⟩
  | pop first =>
    obtain ⟨distributor, _⟩ := stackCalm.top
    -- What was queued has no reference yet, and the pop takes the first one.
    obtain ⟨target, application, fresh⟩ := calm.queued _ _ (by rw [first]; exact List.mem_cons_self)
    refine ⟨(calm.pop first).congr rfl rfl rfl rfl, stackCalm.advance (by simp)
      ⟨distributor, by simp, by simp, by simp, ?_⟩ (by simp) rfl⟩
    rintro held ⟨⟩
    exact ⟨target, application, by simp [fresh]⟩
  | invoke popped =>
    obtain ⟨distributor, _, _, _, counted⟩ := stackCalm.top
    -- The loop waits while its task runs.
    have waiting : CalmStack _ (.process .running _ :: _) := stackCalm.advance (by simp)
      ⟨distributor, by simp, by simp, by simp, counted⟩ (by simp) rfl
    exact ⟨calm.congr rfl rfl rfl rfl, waiting.invoke harmless rfl (counted _ popped).2.1⟩
  | turn | turnLast | state | emptyExit | emptyRequeue =>
    -- The loop goes on with the task that it has.
    obtain ⟨distributor, _, _, _, counted⟩ := stackCalm.top
    exact ⟨calm, stackCalm.advance (by simp)
      ⟨distributor, by simp, by simp, by simp, counted⟩ (by simp) rfl⟩
  | requeue =>
    obtain ⟨distributor, _, _, _, counted⟩ := stackCalm.top
    exact ⟨calm.congr rfl rfl rfl rfl, stackCalm.advance (by simp)
      ⟨distributor, by simp, by simp, by simp, counted⟩ (by simp) rfl⟩
  -- The loop gives its slot free, and drops the last task.
  | exit =>
    have below := stackCalm.process.2
    exact ⟨calm.congr rfl rfl rfl rfl, stackCalm.below (by rw [below]; rfl)⟩

end Braid.Task
