import Braid.Library.Counting
import Braid.Task.Ownership
import Braid.Task.Progress

/-! Where the tasks are: on their way to a queue, on it, in the hands of a loop, or destroyed. -/

namespace Braid.Task

open Counting Transition

variable {ι σ τ : Type}

section Machine

/-- What happens to tasks: steps of the program, calls of `clear`, and the end of a distributor. -/
inductive TaskLabel (ι σ τ : Type) where
  | life (label : OwnedLabel ι σ τ)
  | clear (thread : ι) (serializer : σ)
  | deleteQueued (thread : ι) (distributor : SourceFile)
  deriving DecidableEq

/-- The thread that a label is about. -/
def TaskLabel.thread? : TaskLabel ι σ τ → Option ι
  | .life (.program label) => label.thread?
  | .life (.copy thread _) => some thread
  | .life (.drop thread _) => some thread
  | .clear thread _ => some thread
  | .deleteQueued thread _ => some thread

variable [DecidableEq ι] [DecidableEq σ] (program : Program σ τ)

/--
One atomic step, with `clear` among the calls that any code can make.

`~TaskDistributor` deletes the serializers left on its queue, each from a thread outside of every
call. The destructor of a serializer runs `clear` before its memory is given back.
-/
def taskStep (state : Owned ι σ τ) : TaskLabel ι σ τ → Option (Owned ι σ τ)
  | .life label => lifeStep program state label
  | .clear at_ serializer =>
    if state.base.shared.fault.isSome || !state.between at_ then none
    else
      let thread := state.base.thread at_
      some { state with
        base := state.base.withThread at_ state.base.shared
          { thread with stack := .clearEmpty serializer :: thread.stack } }
  | .deleteQueued at_ distributor =>
    let thread := state.base.thread at_
    if state.base.shared.fault.isSome || !state.between at_ || !thread.stack.isEmpty then none
    else match state.base.shared.serializerQueue distributor with
    | [] => none
    | serializer :: rest =>
      some { state with
        base := state.base.withThread at_
          { state.base.shared with
            serializerQueue :=
              Function.update state.base.shared.serializerQueue distributor rest }
          { thread with stack := [.clearEmpty serializer] }
        final := Function.update state.final at_ (⟨serializer, 0⟩ :: state.final at_) }

end Machine

section Holders

/-- How far a task has come that a call holds: not on its queue yet, off it again, or invoked. -/
inductive Stage where
  | unpushed
  | popped
  | begun
  deriving DecidableEq

/-- A task that a call holds. -/
structure Held (σ τ : Type) where
  stage : Stage
  task : ITask σ τ

/-- The tasks that a call holds. -/
@[simp] def Frame.held : Frame σ τ → List (Held σ τ)
  | .pushEmpty _ task => [⟨.unpushed, task⟩]
  | .pushInsert _ task _ => [⟨.unpushed, task⟩]
  -- The loop keeps an invoked task until the next assignment to `task`, or until it returns.
  | .process .invoke locals => (locals.task.map (Held.mk .popped)).toList
  | .process _ locals => (locals.task.map (Held.mk .begun)).toList
  | _ => []

/-- The serializer that a call is pushing a task onto, if any. -/
@[simp] def Frame.pushes : Frame σ τ → List σ
  | .pushEmpty serializer _ => [serializer]
  | .pushInsert serializer _ _ => [serializer]
  | _ => []

/-- The serializer that a call clears. -/
@[simp] def Frame.clears : Frame σ τ → Option σ
  | .clearEmpty serializer => some serializer
  | .clearPop serializer => some serializer
  | .clearStore serializer => some serializer
  | _ => none

/-- The serializer that the call on top clears. -/
def topClears (calls : List (Frame σ τ)) : Option σ := calls.head?.bind Frame.clears

/-- A task on its way to a queue has no reference, and one in the hands of a loop has the loop's. -/
@[simp] def Frame.Counted : Frame σ τ → Prop
  | .pushEmpty serializer task => task.target = serializer ∧ task.refCount = 0
  | .pushInsert serializer task _ => task.target = serializer ∧ task.refCount = 0
  | .process _ locals => ∀ task ∈ locals.task, task.refCount = 1
  | _ => True

/-- The total of a quantity over the tasks that the calls of all threads hold. -/
def State.totalHeld [Fintype ι] (weight : Held σ τ → Nat) (state : State ι σ τ) : Nat :=
  ∑ at_, tally weight ((state.thread at_).stack.flatMap Frame.held)

end Holders

section Moves

/-- No release has failed, neither on a count of zero nor on a task that was never read. -/
def Shared.Sound (shared : Shared σ τ) : Prop :=
  shared.fault ≠ some .releasedAtZero ∧ shared.fault ≠ some .unwrittenTask

/-- A shared state after a step that has neither queued nor invoked nor destroyed a task. -/
structure Shared.SameQueues (shared after : Shared σ τ) : Prop where
  taskQueue : after.taskQueue = shared.taskQueue
  pushed : after.pushed = shared.pushed
  started : after.started = shared.started
  destroyed : after.destroyed = shared.destroyed

/-- A shared state after a step that has done nothing to any task. -/
structure Shared.SameTasks (shared after : Shared σ τ) : Prop extends
    shared.SameQueues after where
  deleted : after.deleted = shared.deleted
  nextId : after.nextId = shared.nextId
  requested : after.requested = shared.requested
  sound : after.Sound

/-- Calls in the place of others that hold the same tasks, none of them a `clear` that goes on. -/
structure Quietly (old new : List (Frame σ τ)) : Prop where
  ended : ∀ frame ∈ old, frame.clears = none ∧ ∀ locals, frame ≠ .process .free locals
  held : new.flatMap Frame.held = old.flatMap Frame.held
  pushes : new.flatMap Frame.pushes = old.flatMap Frame.pushes
  counted : (∀ frame ∈ old, frame.Counted) → ∀ frame ∈ new, frame.Counted
  begun : ∀ frame ∈ new.head?, frame.clears = none ∨ ∃ serializer, frame = .clearEmpty serializer
  waiting : ∀ frame ∈ new.tail, frame.clears = none

variable [DecidableEq σ] (program : Program σ τ)

/--
What one step of a thread does to the tasks, with the calls it ends and the calls it leaves.

There is one constructor for every way in which a task comes to be, changes hands or ends.
-/
inductive TaskMove (shared : Shared σ τ) (slot : Option σ) :
    List (Frame σ τ) → Shared σ τ → List (Frame σ τ) → Prop
  | quiet {old new after} (same : shared.SameTasks after) (quietly : Quietly old new) :
    TaskMove shared slot old after new
  | stopped {frame fault} (sound : (shared.stop fault).Sound)
    (gone : ∀ serializer, frame.clears = some serializer → shared.deleted serializer = true)
    (kept : ∀ locals, frame = .process .free locals → slot = none) :
    TaskMove shared slot [frame] (shared.stop fault) [frame]
  | request {serializer func} (alive : shared.deleted serializer = false) :
    TaskMove shared slot [.requestTask serializer func] (shared.afterRequest serializer)
      [.pushEmpty serializer { id := shared.nextId, target := serializer, func := func }]
  | insert {serializer task wasEmpty new} (alive : shared.deleted serializer = false)
    (onward : new = [] ∨ new = [.pushHandOver serializer]) :
    TaskMove shared slot [.pushInsert serializer task wasEmpty]
      (shared.afterInsert serializer task) new
  | pop {current locals task others} (inside : slot = some current)
    (alive : shared.deleted current = false) (first : shared.taskQueue current = task :: others) :
    TaskMove shared slot [.process .pop locals]
      ((shared.afterPop current others).afterDrop locals.task)
      [.process .invoke { locals with task := some { task with refCount := task.refCount + 1 } }]
  | drop {point locals new} (begun : point ≠ .invoke ∧ point ≠ .free)
    (onward : new = [] ∨ new = [.process .state { locals with task := none }]) :
    TaskMove shared slot [.process point locals] (shared.afterDrop locals.task) new
  | invoke {locals task} (popped : locals.task = some task) :
    TaskMove shared slot [.process .invoke locals] (shared.afterStart task)
      (invokeFrame program task.func ++ [.process .running locals])
  | free {serializer locals} (inside : slot = some serializer) :
    TaskMove shared slot [.process .free locals]
      { shared with deleted := Function.update shared.deleted serializer true }
      [.process .exit locals]
  | clearNothing {serializer} (alive : shared.deleted serializer = false)
    (nothing : shared.taskQueue serializer = []) :
    TaskMove shared slot [.clearEmpty serializer] shared [.clearStore serializer]
  | clearPending {serializer} :
    TaskMove shared slot [.clearEmpty serializer] shared [.clearPop serializer]
  | clearReturn {serializer} (alive : shared.deleted serializer = false) :
    TaskMove shared slot [.clearStore serializer]
      { shared with state := Function.update shared.state serializer .destroyed } []
  | clearRelease {serializer after new} (alive : shared.deleted serializer = false)
    (failed : ¬ after.Sound) : TaskMove shared slot [.clearPop serializer] after new

variable {program : Program σ τ} {shared : Shared σ τ}

omit [DecidableEq σ] in
/-- A shared state in which nothing has failed is one in which nothing has happened to any task. -/
theorem Shared.SameTasks.refl (running : shared.fault = none) : shared.SameTasks shared :=
  ⟨⟨rfl, rfl, rfl, rfl⟩, rfl, rfl, rfl, by simp [Shared.Sound, running]⟩

omit [DecidableEq σ] in
/-- Handing a serializer over does nothing to any task. -/
theorem Shared.SameTasks.put (running : shared.fault = none) (distributor : SourceFile)
    (serializer : σ) : shared.SameTasks (shared.put distributor serializer) :=
  ⟨⟨rfl, rfl, rfl, rfl⟩, rfl, rfl, rfl, (Shared.SameTasks.refl running).sound⟩

/-- Application code that makes its next call does nothing to any task. -/
theorem callStep_tasks (running : shared.fault = none) (slot : SourceFile → Option σ)
    {here : Option σ} (calls : List (Call σ τ)) (rest : List (Frame σ τ)) :
    let result := callStep program shared ⟨slot, rest⟩ calls
    ∃ new, result.2.stack = new ++ rest ∧
      TaskMove program shared here [.calls calls] result.1 new := by
  have same := Shared.SameTasks.refl running
  cases calls with
  | nil => exact ⟨[], rfl, .quiet same (by constructor <;> simp)⟩
  | cons call calls =>
    cases call with
    | requestTask serializer task =>
      refine ⟨[.requestTask serializer (.user task), .calls calls], rfl, .quiet same ?_⟩
      constructor <;> simp
    | log level =>
      simp only [callStep]
      split
      · exact ⟨[.calls calls], rfl, .quiet same (by constructor <;> simp)⟩
      · refine ⟨[.requestTask program.logHandler .writeLog, .calls calls], rfl, .quiet same ?_⟩
        constructor <;> simp
    | setDestroy serializer =>
      -- The request of `clear` comes before the store.
      refine ⟨[.requestTask serializer (.clear serializer), .destroyStore serializer,
        .calls calls], rfl, .quiet same ?_⟩
      constructor <;> simp

/-- A step of the process loop moves at most the task that it holds and the first of the queue. -/
theorem processStep_tasks (running : shared.fault = none) (slot : SourceFile → Option σ)
    {current : σ} {point : ProcessPoint} {locals : ProcessLocals σ τ} (rest : List (Frame σ τ))
    (once : ∀ task ∈ locals.task, task.refCount = 1)
    (alive : (Frame.process point locals).touched (some current) = some current →
      shared.deleted current = false)
    (inside : point ≠ .enter ∧ point ≠ .invoke ∧ point ≠ .running ∧ point ≠ .exit) :
    let result := processStep shared ⟨slot, rest⟩ locals current point
    ∃ new, result.2.stack = new ++ rest ∧
      TaskMove program shared (some current) [.process point locals] result.1 new := by
  have same := Shared.SameTasks.refl running
  cases point with
  | enter => exact absurd rfl inside.1
  | invoke => exact absurd rfl inside.2.1
  | running => exact absurd rfl inside.2.2.1
  | exit => exact absurd rfl inside.2.2.2
  | pop =>
    -- The assignment to `task` drops the task of the turn before.
    simp only [processStep]
    split
    · rw [Shared.drop_once once]
      exact ⟨[_], rfl, .drop (by simp) (.inr rfl)⟩
    · rename_i task others first
      rw [Shared.drop_once once]
      exact ⟨[_], rfl, .pop rfl (alive rfl) first⟩
  | state =>
    simp only [processStep]
    split
    · exact ⟨[.process .delete locals], rfl, .quiet same (by constructor <;> simp)⟩
    · exact ⟨[.process .empty locals], rfl, .quiet same (by constructor <;> simp)⟩
  | delete =>
    -- The destructor begins with the call of `clear` that its `delete` runs.
    refine ⟨[.clearEmpty current, .process .free locals], rfl, .quiet same ?_⟩
    constructor <;> simp
  | free => exact ⟨[.process .exit locals], rfl, .free rfl⟩
  | empty =>
    simp only [processStep]
    split
    · exact ⟨[.process .exit locals], rfl, .quiet same (by constructor <;> simp)⟩
    · exact ⟨[.process .requeue locals], rfl, .quiet same (by constructor <;> simp)⟩
  | requeue =>
    have put := Shared.SameTasks.put running locals.distributor current
    exact ⟨[.process .exit locals], rfl, .quiet put (by constructor <;> simp)⟩

/-- Every step of a thread is one of the moves, whatever is being destroyed meanwhile. -/
theorem frameStep_tasks (program : Program σ τ) (running : shared.fault = none)
    (slot : SourceFile → Option σ) {frame : Frame σ τ} (rest : List (Frame σ τ))
    (counted : frame.Counted)
    (queued : ∀ serializer, ∀ task ∈ shared.taskQueue serializer, task.refCount = 0) :
    let result := frameStep program shared ⟨slot, rest⟩ frame
    ∃ new, result.2.stack = new ++ rest ∧
      TaskMove program shared (slot (program.linkage .taskDistributor)) [frame] result.1 new := by
  have same := Shared.SameTasks.refl running
  have stop (fault : Fault) (harmless : fault ≠ .releasedAtZero ∧ fault ≠ .unwrittenTask) :
      (shared.stop fault).Sound := by
    simpa [Shared.Sound, Shared.stop] using harmless
  simp only [frameStep]
  split
  -- A serializer that has been deleted stops the program.
  · rename_i touched
    refine ⟨[frame], rfl, .stopped (stop .usedAfterDelete (by simp)) ?_ ?_⟩
    · intro serializer clears
      cases frame with
      | clearEmpty | clearPop | clearStore =>
        obtain rfl := Option.some.inj clears
        simpa [Frame.touched] using touched
      | _ => cases clears
    · rintro locals rfl
      simp [Frame.touched] at touched
  · rename_i untouched
    -- Whatever the step touches is still there.
    have alive {serializer : σ}
        (touches : frame.touched (slot (program.linkage .taskDistributor)) = some serializer) :
        shared.deleted serializer = false := by
      simpa [touches] using untouched
    cases frame with
    | calls calls => exact callStep_tasks running slot calls rest
    | requestTask serializer func =>
      simp only [requestTaskStep]
      split
      · exact ⟨[], rfl, .quiet same (by constructor <;> simp)⟩
      · exact ⟨[_], rfl, .request (alive rfl)⟩
    | pushEmpty serializer task =>
      refine ⟨[.pushInsert serializer task (shared.taskQueue serializer).isEmpty], rfl,
        .quiet same ?_⟩
      constructor <;> simp_all
    | pushInsert serializer task wasEmpty =>
      simp only [pushInsertStep]
      -- A queue that was empty is handed over.
      split
      · exact ⟨[.pushHandOver serializer], rfl, .insert (alive rfl) (.inr rfl)⟩
      · exact ⟨[], rfl, .insert (alive rfl) (.inl rfl)⟩
    | pushHandOver serializer =>
      simp only [pushHandOverStep]
      split
      · exact ⟨[_], rfl, .quiet same (by constructor <;> simp)⟩
      · have put := Shared.SameTasks.put running (program.linkage .taskSerializer) serializer
        exact ⟨[], rfl, .quiet put (by constructor <;> simp)⟩
    | poll distributor =>
      simp only [pollStep]
      split
      · exact ⟨[_], rfl, .stopped (stop .slotTaken (by simp)) (by simp) (by simp)⟩
      · split
        · exact ⟨[], rfl, .quiet same (by constructor <;> simp)⟩
        · refine ⟨[_], rfl, .quiet ⟨⟨rfl, rfl, rfl, rfl⟩, rfl, rfl, rfl, same.sound⟩ ?_⟩
          constructor <;> simp
    | process point locals =>
      cases point with
      | enter =>
        simp only [processEnterStep]
        split
        · exact ⟨[_], rfl, .stopped (stop .slotTaken (by simp)) (by simp) (by simp)⟩
        · exact ⟨[.process .pop locals], rfl, .quiet same (by constructor <;> simp)⟩
      | invoke =>
        simp only [invokeStep]
        split
        · -- Without a task there is nothing that the call could hold.
          rename_i nothing
          refine ⟨[.process .running locals], rfl, .quiet same ?_⟩
          constructor <;> simp [nothing]
        · rename_i task popped
          exact ⟨invokeFrame program task.func ++ [.process .running locals], by simp,
            .invoke popped⟩
      | running =>
        simp only [turnStep]
        split
        · exact ⟨[.process .state _], rfl, .quiet same (by constructor <;> simp)⟩
        · exact ⟨[.process .pop _], rfl, .quiet same (by constructor <;> simp)⟩
      | exit =>
        -- The local variable `task` goes out of scope.
        simp only [processExitStep]
        rw [Shared.drop_once counted]
        exact ⟨[], rfl, .drop (by simp) (.inl rfl)⟩
      | pop | state | delete | free | empty | requeue =>
        -- The other places go through the slot.
        cases taken : slot (program.linkage .taskDistributor) with
        | none => exact ⟨[_], rfl, .stopped (stop .nullSlot (by simp)) (by simp) (by simp)⟩
        | some current =>
          exact processStep_tasks running slot rest counted
            (fun touches => alive (by rw [taken]; exact touches)) (by simp)
    | destroyStore serializer =>
      refine ⟨[], rfl, .quiet ⟨⟨rfl, rfl, rfl, rfl⟩, rfl, rfl, rfl, same.sound⟩ ?_⟩
      constructor <;> simp
    | clearEmpty serializer =>
      simp only [clearStep]
      split
      · rename_i nothing
        exact ⟨[_], rfl, .clearNothing (alive rfl) (List.isEmpty_iff.mp nothing)⟩
      · exact ⟨[_], rfl, .clearPending⟩
    | clearPop serializer =>
      -- Either `task` was never written, or its count is the zero it was queued with.
      simp only [clearStep]
      split
      · exact ⟨[_], rfl, .clearRelease (alive rfl) (by simp [Shared.Sound, Shared.stop])⟩
      · rename_i task others first
        have zero := queued serializer task (by rw [first]; exact List.mem_cons_self)
        refine ⟨[_], rfl, .clearRelease (alive rfl) ?_⟩
        simp [Shared.release, zero, Shared.Sound, Shared.stop]
    | clearStore serializer => exact ⟨[], rfl, .clearReturn (alive rfl)⟩

end Moves

end Braid.Task
