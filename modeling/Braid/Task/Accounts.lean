import Braid.Task.Lifetimes

/-! Every task that has been requested is in one place, as far as it has come. -/

namespace Braid.Task

open Counting

variable {ι σ τ : Type}

section Accounts

/-- How often a held task is the one with this number. -/
def Held.numbered (id : Nat) (held : Held σ τ) : Nat := if held.task.id = id then 1 else 0

/-- How often a held task is the one with this number, at this stage. -/
def Held.numberedAt (stage : Stage) (id : Nat) (held : Held σ τ) : Nat :=
  if held.stage = stage ∧ held.task.id = id then 1 else 0

/-- How often a task is on the queue of a serializer. -/
def Shared.queuedCount (shared : Shared σ τ) (serializer : σ) (id : Nat) : Nat :=
  ((shared.taskQueue serializer).map ITask.id).count id

variable [DecidableEq σ] {program : Program σ τ} {shared after : Shared σ τ} {slot : Option σ}
  {old new : List (Frame σ τ)}

omit [DecidableEq σ] in
/-- The calls that an invoked task adds hold no task yet. -/
@[simp] theorem invokeFrame_held (func : Func σ τ) :
    (invokeFrame program func).flatMap Frame.held = [] := by
  cases func <;> rfl

omit [DecidableEq σ] in
/-- What a variable of type `ObjectPtr<ITask>` holds, counted at any stage. -/
theorem tally_slot (id : Nat) (stage : Stage) (task : Option (ITask σ τ)) :
    tally (Held.numbered id) (task.map (Held.mk stage)).toList =
        (task.map ITask.id).toList.count id ∧
      ∀ other, tally (Held.numberedAt other id) (task.map (Held.mk stage)).toList =
        if stage = other then (task.map ITask.id).toList.count id else 0 := by
  cases task with
  | none => simp
  | some task =>
    refine ⟨by simp [Held.numbered, List.count_singleton], fun other => ?_⟩
    by_cases same : stage = other <;> simp [Held.numberedAt, same, List.count_singleton]

/-- What the tasks on the way to a queue, on it, and off it again have in common. -/
structure Shared.Numbered (shared : Shared σ τ) : Prop where
  queued : ∀ serializer, ∀ task ∈ shared.taskQueue serializer,
    task.target = serializer ∧ task.refCount = 0 ∧ task.id ∈ shared.requested serializer
  below : ∀ serializer, ∀ id ∈ shared.requested serializer, id < shared.nextId
  apart : ∀ first second, ∀ id ∈ shared.requested first, id ∈ shared.requested second →
    first = second
  pushed : ∀ serializer, ∀ id ∈ shared.pushed serializer, id ∈ shared.requested serializer
  started : ∀ serializer, ∀ id ∈ shared.started serializer, id ∈ shared.requested serializer
  destroyed : ∀ id ∈ shared.destroyed, id < shared.nextId

/-- The tasks that calls hold have been requested on the serializers that they are aimed at. -/
def Shared.Knows (shared : Shared σ τ) (calls : List (Frame σ τ)) : Prop :=
  ∀ held ∈ calls.flatMap Frame.held, held.task.id ∈ shared.requested held.task.target

/-- A move takes each requested task from one place to another, and through its stages in order. -/
theorem TaskMove.balance (move : TaskMove program shared slot old after new) (sound : after.Sound)
    (numbered : shared.Numbered) (knows : shared.Knows old)
    (counted : ∀ frame ∈ old, frame.Counted) {serializer : σ} {id : Nat}
    (requested : id ∈ shared.requested serializer) :
    (tally (Held.numbered id) (new.flatMap Frame.held) + after.queuedCount serializer id +
        after.destroyed.count id =
      tally (Held.numbered id) (old.flatMap Frame.held) + shared.queuedCount serializer id +
        shared.destroyed.count id) ∧
    ((after.started serializer).count id +
        tally (Held.numberedAt .begun id) (old.flatMap Frame.held) + shared.destroyed.count id =
      (shared.started serializer).count id +
        tally (Held.numberedAt .begun id) (new.flatMap Frame.held) + after.destroyed.count id) ∧
    ((after.pushed serializer).count id +
        tally (Held.numberedAt .unpushed id) (new.flatMap Frame.held) =
      (shared.pushed serializer).count id +
        tally (Held.numberedAt .unpushed id) (old.flatMap Frame.held)) := by
  -- A task with this number is aimed at this serializer.
  have aimed {task : ITask σ τ} (known : task.id ∈ shared.requested task.target)
      (same : task.id = id) : task.target = serializer :=
    numbered.apart _ _ _ known (same ▸ requested)
  cases move with
  | quiet same quietly =>
    -- A quiet move takes hold of no task, and leaves the queues and the records alone.
    simp only [quietly.held, Shared.queuedCount, same.taskQueue, same.destroyed, same.started,
      same.pushed, and_self]
  | stopped => exact ⟨rfl, rfl, rfl⟩
  | request =>
    -- The new task has a number of its own.
    have fresh : shared.nextId ≠ id := (numbered.below _ _ requested).ne'
    simp [Held.numbered, Held.numberedAt, fresh, Shared.afterRequest, Shared.queuedCount]
  | @insert target task wasEmpty _ alive onward =>
    -- From the hands of the call to the queue that the task is aimed at.
    have known : task.id ∈ shared.requested task.target := knows ⟨.unpushed, task⟩ (by simp)
    have here : task.target = target := (counted _ List.mem_cons_self).1
    have onward : new.flatMap Frame.held = [] := by rcases onward with rfl | rfl <;> rfl
    rw [onward]
    -- Only for the task itself does anything change, and only on the queue that it is aimed at.
    by_cases same : task.id = id
    · obtain rfl : target = serializer := here ▸ aimed known same
      simp [Held.numbered, Held.numberedAt, same, Shared.afterInsert, Shared.queuedCount]
      omega
    · by_cases there : serializer = target
      · subst there
        simp [Held.numbered, Held.numberedAt, same, Shared.afterInsert, Shared.queuedCount]
      · simp [Held.numbered, Held.numberedAt, same, there, Shared.afterInsert, Shared.queuedCount]
  | @pop current locals task others inside alive first =>
    -- From the queue to the variable of the loop, which lets go of the task of the turn before.
    obtain ⟨here, -, known⟩ :=
      numbered.queued current task (by rw [first]; exact List.mem_cons_self)
    have before := tally_slot id .begun locals.task
    simp only [List.flatMap_cons, List.flatMap_nil, List.append_nil, Frame.held, before]
    -- The popped task leaves the queue for the hands of the loop.
    by_cases same : task.id = id
    · obtain rfl : current = serializer := here ▸ aimed (here.symm ▸ known) same
      simp [Held.numbered, Held.numberedAt, same, Shared.afterPop, Shared.afterDrop,
        Shared.queuedCount, first]
      omega
    · -- Another task was popped, from this queue or from another one.
      by_cases there : serializer = current
      · subst there
        simp [Held.numbered, Held.numberedAt, same, Shared.afterPop, Shared.afterDrop,
          Shared.queuedCount, first]
        omega
      · simp [Held.numbered, Held.numberedAt, same, there, Shared.afterPop, Shared.afterDrop,
          Shared.queuedCount]
        omega
  | @drop point locals _ begun onward =>
    -- From the variable of the loop to the destructor.
    have before := tally_slot id .begun locals.task
    have here : (Frame.process point locals).held = (locals.task.map (Held.mk .begun)).toList := by
      cases point with
      | invoke => exact absurd rfl begun.1
      | _ => rfl
    have onward : new.flatMap Frame.held = [] := by rcases onward with rfl | rfl <;> rfl
    simp only [onward, List.flatMap_cons, List.flatMap_nil, List.append_nil, here, before]
    simp [Shared.afterDrop, Shared.queuedCount]
    omega
  | @invoke locals task popped =>
    -- The task stays where it is, one stage further.
    have known : task.id ∈ shared.requested task.target :=
      knows ⟨.popped, task⟩ (by simp [popped])
    simp only [List.flatMap_append, invokeFrame_held, List.flatMap_cons, List.flatMap_nil,
      List.append_nil, List.nil_append, Frame.held, popped]
    by_cases same : task.id = id
    · obtain rfl := aimed known same
      simp [Held.numbered, Held.numberedAt, same, Shared.afterStart, Shared.queuedCount]
    · by_cases there : serializer = task.target
      · simp [Held.numbered, Held.numberedAt, same, there, Shared.afterStart, Shared.queuedCount]
      · simp [Held.numbered, Held.numberedAt, same, there, Shared.afterStart, Shared.queuedCount]
  -- Freeing a serializer, and a `clear` up to its release, touch no task.
  | free => simp [Shared.queuedCount]
  | clearNothing => simp
  | clearPending => simp
  | clearReturn => simp [Shared.queuedCount]
  -- A destructor that has failed is what a sound state rules out.
  | clearRelease _ failed => exact absurd sound failed

end Accounts

section Numbers

variable [DecidableEq σ] {program : Program σ τ} {shared after : Shared σ τ} {slot : Option σ}
  {old new : List (Frame σ τ)}

omit [DecidableEq σ] in
/-- Nothing has happened to any task, so what their numbers have in common is as before. -/
theorem Shared.Numbered.congr (numbered : shared.Numbered)
    (taskQueue : after.taskQueue = shared.taskQueue)
    (nextId : after.nextId = shared.nextId) (requested : after.requested = shared.requested)
    (pushed : after.pushed = shared.pushed) (started : after.started = shared.started)
    (destroyed : after.destroyed = shared.destroyed) : after.Numbered where
  queued := by rw [taskQueue, requested]; exact numbered.queued
  below := by rw [requested, nextId]; exact numbered.below
  apart := by rw [requested]; exact numbered.apart
  pushed := by rw [pushed, requested]; exact numbered.pushed
  started := by rw [started, requested]; exact numbered.started
  destroyed := by rw [destroyed, nextId]; exact numbered.destroyed

/-- A request gives its task the next number. -/
theorem Shared.Numbered.request (numbered : shared.Numbered) (serializer : σ) :
    (shared.afterRequest serializer).Numbered where
  queued other task member := by
    -- The tasks on the queues were requested before.
    obtain ⟨here, zero, known⟩ := numbered.queued other task member
    exact ⟨here, zero, mem_update_append.mpr (.inl known)⟩
  below other id member := by
    -- The new number is the one below the next, and all the others are smaller still.
    rcases mem_update_append.mp member with before | ⟨-, rfl⟩
    · exact (numbered.below other id before).trans (Nat.lt_succ_self _)
    · exact Nat.lt_succ_self _
  apart first second id one two := by
    -- Neither of the two can have the new number already.
    rcases mem_update_append.mp one with earlier | ⟨rfl, rfl⟩
    · rcases mem_update_append.mp two with later | ⟨rfl, rfl⟩
      · exact numbered.apart first second id earlier later
      · exact absurd (numbered.below first _ earlier) (Nat.lt_irrefl _)
    · rcases mem_update_append.mp two with later | ⟨rfl, -⟩
      · exact absurd (numbered.below second _ later) (Nat.lt_irrefl _)
      · rfl
  pushed other id member := mem_update_append.mpr (.inl (numbered.pushed other id member))
  started other id member := mem_update_append.mpr (.inl (numbered.started other id member))
  destroyed id member := (numbered.destroyed id member).trans (Nat.lt_succ_self _)

/-- A push puts a task that has been requested on the queue that it is aimed at. -/
theorem Shared.Numbered.insert (numbered : shared.Numbered) {task : ITask σ τ}
    (known : task.id ∈ shared.requested task.target) (zero : task.refCount = 0) :
    (shared.afterInsert task.target task).Numbered where
  queued other queued member := by
    rcases mem_update_append.mp member with before | ⟨rfl, rfl⟩
    · -- The new entry is the last of its queue, and all before it were queued already.
      exact numbered.queued other queued before
    · exact ⟨rfl, zero, known⟩
  below := numbered.below
  apart := numbered.apart
  pushed other id member := by
    -- Pushed now is the requested task itself.
    rcases mem_update_append.mp member with before | ⟨rfl, rfl⟩
    · exact numbered.pushed other id before
    · exact known
  started := numbered.started
  destroyed := numbered.destroyed

/-- A pop leaves tasks that were queued before. -/
theorem Shared.Numbered.pop (numbered : shared.Numbered) {serializer : σ} {task : ITask σ τ}
    {others : List (ITask σ τ)} (first : shared.taskQueue serializer = task :: others) :
    (shared.afterPop serializer others).Numbered where
  -- What is left is the tail of what was queued.
  queued other queued member := numbered.queued other queued (mem_update_tail first member)
  below := numbered.below
  apart := numbered.apart
  pushed := numbered.pushed
  started := numbered.started
  destroyed := numbered.destroyed

omit [DecidableEq σ] in
/-- The task that is destroyed is one that was requested. -/
theorem Shared.Numbered.drop (numbered : shared.Numbered) {task : Option (ITask σ τ)}
    (known : ∀ held ∈ task, held.id ∈ shared.requested held.target) :
    (shared.afterDrop task).Numbered where
  queued := numbered.queued
  below := numbered.below
  apart := numbered.apart
  pushed := numbered.pushed
  started := numbered.started
  destroyed id member := by
    -- Destroyed now is the held task, whose number was given out by its request.
    rcases List.mem_append.mp member with before | last
    · exact numbered.destroyed id before
    · obtain ⟨held, found, rfl⟩ := Option.map_eq_some_iff.mp (Option.mem_toList.mp last)
      exact numbered.below _ _ (known held found)

/-- The task that is invoked is one that was requested. -/
theorem Shared.Numbered.start (numbered : shared.Numbered) {task : ITask σ τ}
    (known : task.id ∈ shared.requested task.target) : (shared.afterStart task).Numbered where
  queued := numbered.queued
  below := numbered.below
  apart := numbered.apart
  pushed := numbered.pushed
  started other id member := by
    -- Started now is the invoked task, which was requested.
    rcases mem_update_append.mp member with before | ⟨rfl, rfl⟩
    · exact numbered.started other id before
    · exact known
  destroyed := numbered.destroyed

omit [DecidableEq σ] in
/-- What a loop holds in its variable is among the tasks that the call holds. -/
theorem Shared.Knows.local {point : ProcessPoint} {locals : ProcessLocals σ τ}
    (knows : shared.Knows [.process point locals]) :
    ∀ task ∈ locals.task, task.id ∈ shared.requested task.target := by
  intro task found
  have found : locals.task = some task := found
  -- A loop about to invoke holds its task as popped, and any other loop as begun.
  cases point with
  | invoke => exact knows ⟨.popped, task⟩ (by simp [found])
  | _ => exact knows ⟨.begun, task⟩ (by simp [found])

/-- A move keeps what the tasks have in common. -/
theorem TaskMove.numbered (move : TaskMove program shared slot old after new) (sound : after.Sound)
    (numbered : shared.Numbered) (knows : shared.Knows old)
    (counted : ∀ frame ∈ old, frame.Counted) : after.Numbered := by
  cases move with
  | quiet same quietly =>
    exact numbered.congr same.taskQueue same.nextId same.requested same.pushed same.started
      same.destroyed
  | stopped | free | clearNothing | clearPending | clearReturn =>
    exact numbered.congr rfl rfl rfl rfl rfl rfl
  -- Only three moves change what the tasks have in common, each through its own operation.
  | request => exact numbered.request _
  | @insert target task =>
    obtain ⟨rfl, zero⟩ : task.target = target ∧ task.refCount = 0 := counted _ List.mem_cons_self
    exact numbered.insert (knows ⟨.unpushed, task⟩ (by simp)) zero
  | pop inside alive first => exact (numbered.pop first).drop knows.local
  | drop => exact numbered.drop knows.local
  | invoke popped => exact numbered.start (knows.local _ popped)
  | clearRelease _ failed => exact absurd sound failed

/-- A move forgets no request. -/
theorem TaskMove.requested (move : TaskMove program shared slot old after new)
    (sound : after.Sound) {serializer : σ} {id : Nat}
    (before : id ∈ shared.requested serializer) : id ∈ after.requested serializer := by
  cases move with
  | quiet same quietly => rwa [same.requested]
  | request => exact mem_update_append.mpr (.inl before)
  | clearRelease _ failed => exact absurd sound failed
  | _ => exact before

/-- What is requested after a move was requested before, or it is what the move requests. -/
theorem TaskMove.news (move : TaskMove program shared slot old after new) (sound : after.Sound)
    {serializer : σ} {id : Nat} (member : id ∈ after.requested serializer) :
    id ∈ shared.requested serializer ∨
      id = shared.nextId ∧ shared.SameQueues after ∧ old.flatMap Frame.held = [] ∧
        ∃ task : ITask σ τ, task.id = shared.nextId ∧
          new.flatMap Frame.held = [⟨.unpushed, task⟩] := by
  cases move with
  -- Only a request adds to what is requested, and what it adds is the task of the next number.
  | quiet same quietly => exact .inl (same.requested ▸ member)
  | request =>
    rcases mem_update_append.mp member with before | ⟨rfl, rfl⟩
    · exact .inl before
    · exact .inr ⟨rfl, ⟨rfl, rfl, rfl, rfl⟩, rfl, _, rfl, rfl⟩
  | clearRelease _ failed => exact absurd sound failed
  | _ => exact .inl member

/-- The calls that a move leaves hold tasks that have been requested. -/
theorem TaskMove.knows (move : TaskMove program shared slot old after new) (sound : after.Sound)
    (numbered : shared.Numbered) (knows : shared.Knows old) : after.Knows new := by
  cases move with
  | quiet same quietly =>
    -- What a quiet move holds is what was held before.
    unfold Shared.Knows at knows ⊢
    rwa [quietly.held, same.requested]
  -- The new task has just been requested.
  | request => simp [Shared.Knows, Shared.afterRequest]
  | insert alive onward => rcases onward with rfl | rfl <;> simp [Shared.Knows]
  | @pop current locals task others inside alive first =>
    -- A popped task was on a queue, and those are all requested.
    obtain ⟨here, -, known⟩ :=
      numbered.queued current task (by rw [first]; exact List.mem_cons_self)
    simpa [Shared.Knows, here, Shared.afterDrop, Shared.afterPop] using known
  | drop begun onward => rcases onward with rfl | rfl <;> simp [Shared.Knows]
  | @invoke locals task popped =>
    -- An invoked task was in the variable of the loop.
    have known := knows.local task popped
    simpa [Shared.Knows, popped, Shared.afterStart] using known
  | @free serializer locals inside => simpa [Shared.Knows] using knows
  | clearRelease _ failed => exact absurd sound failed
  | stopped => exact knows
  | clearNothing | clearPending | clearReturn => simp [Shared.Knows]

/-- The calls that a move leaves hold tasks with the counts that they should have. -/
theorem TaskMove.counted (move : TaskMove program shared slot old after new) (sound : after.Sound)
    (numbered : shared.Numbered) (counted : ∀ frame ∈ old, frame.Counted) :
    ∀ frame ∈ new, frame.Counted := by
  cases move with
  | quiet same quietly => exact quietly.counted counted
  | insert alive onward => rcases onward with rfl | rfl <;> simp
  | pop inside alive first =>
    -- The variable takes the first reference to the task.
    obtain ⟨-, zero, -⟩ := numbered.queued _ _ (by rw [first]; exact List.mem_cons_self)
    simp [zero]
  | drop begun onward => rcases onward with rfl | rfl <;> simp
  | @invoke locals task popped =>
    -- The loop keeps its own reference while the task runs.
    have once : ∀ task ∈ locals.task, task.refCount = 1 := counted _ List.mem_cons_self
    cases func : task.func <;> simpa [invokeFrame] using once
  | @free serializer locals inside =>
    have once : ∀ task ∈ locals.task, task.refCount = 1 := counted _ List.mem_cons_self
    simpa using once
  | clearRelease _ failed => exact absurd sound failed
  | stopped => exact counted
  | request | clearNothing | clearPending | clearReturn => simp

/-- Only the call on top is in the middle of a `clear`. -/
theorem TaskMove.waiting (move : TaskMove program shared slot old after new)
    (sound : after.Sound) : ∀ frame ∈ new.tail, frame.clears = none := by
  cases move with
  | quiet same quietly => exact quietly.waiting
  | insert alive onward => rcases onward with rfl | rfl <;> simp
  | drop begun onward => rcases onward with rfl | rfl <;> simp
  | @invoke locals task popped => cases func : task.func <;> simp [invokeFrame]
  | clearRelease _ failed => exact absurd sound failed
  | _ => simp

/-- A move puts no task on a deleted serializer, and takes none from it. -/
theorem TaskMove.taskless (move : TaskMove program shared slot old after new)
    (sound : after.Sound) {serializer : σ} (gone : shared.deleted serializer = true) :
    after.taskQueue serializer = shared.taskQueue serializer ∧
      (serializer ∈ new.flatMap Frame.pushes ↔ serializer ∈ old.flatMap Frame.pushes) := by
  -- What is pushed or popped is on another serializer, one that is alive.
  have other {target : σ} (alive : shared.deleted target = false) : serializer ≠ target := by
    rintro rfl
    rw [gone] at alive
    cases alive
  cases move with
  | quiet same quietly => exact ⟨by rw [same.taskQueue], by rw [quietly.pushes]⟩
  | request alive => exact ⟨rfl, by simp [other alive]⟩
  | insert alive onward =>
    refine ⟨by simp [Shared.afterInsert, other alive], ?_⟩
    rcases onward with rfl | rfl <;> simp [other alive]
  | pop inside alive first =>
    exact ⟨by simp [Shared.afterDrop, Shared.afterPop, other alive], by simp⟩
  | drop begun onward =>
    refine ⟨rfl, ?_⟩
    rcases onward with rfl | rfl <;> simp
  | @invoke locals task popped =>
    refine ⟨rfl, ?_⟩
    cases func : task.func <;> simp [invokeFrame]
  | clearRelease _ failed => exact absurd sound failed
  | stopped => exact ⟨rfl, .rfl⟩
  | free | clearNothing | clearPending | clearReturn => exact ⟨rfl, by simp⟩

/--
A move begins a `clear` or none, or it takes one a step further, or it returns from one.

It returns with the store, unless the serializer has been deleted meanwhile.
-/
theorem TaskMove.clearing (move : TaskMove program shared slot old after new)
    (sound : after.Sound) :
    (topClears old = none ∧
      (topClears new = none ∨ ∃ serializer, new.head? = some (.clearEmpty serializer))) ∨
    (∃ serializer frame, new = [frame] ∧ topClears old = some serializer ∧
      frame.clears = some serializer ∧ shared.SameQueues after ∧
      (frame = .clearStore serializer →
        old = [.clearStore serializer] ∨ shared.taskQueue serializer = []) ∧
      (old = [.clearStore serializer] → shared.deleted serializer = true)) ∨
    ∃ serializer, old = [.clearStore serializer] ∧ new = [] ∧ shared.SameQueues after ∧
      shared.deleted serializer = false := by
  cases move with
  | quiet same quietly =>
    -- Neither before nor after is anything on top in the middle of a `clear`.
    refine .inl ⟨?_, ?_⟩
    · cases old with
      | nil => rfl
      | cons frame _ => exact (quietly.ended frame List.mem_cons_self).1
    · cases new with
      | nil => exact .inl rfl
      | cons frame _ =>
        rcases quietly.begun frame rfl with other | ⟨serializer, rfl⟩
        · exact .inl other
        · exact .inr ⟨serializer, rfl⟩
  | @stopped frame fault _ gone kept =>
    -- A call that is stopped stays where it is: it was about to use a deleted serializer.
    cases clears : frame.clears with
    | none => exact .inl ⟨clears, .inl clears⟩
    | some serializer =>
      refine .inr (.inl ⟨serializer, frame, rfl, clears, clears, ⟨rfl, rfl, rfl, rfl⟩, ?_, ?_⟩)
      · rintro rfl; exact .inl rfl
      · exact fun _ => gone serializer clears
  | request | pop => exact .inl ⟨rfl, .inl rfl⟩
  | insert alive onward => rcases onward with rfl | rfl <;> exact .inl ⟨rfl, .inl rfl⟩
  | drop begun onward => rcases onward with rfl | rfl <;> exact .inl ⟨rfl, .inl rfl⟩
  | @invoke locals task popped =>
    refine .inl ⟨rfl, ?_⟩
    -- Of the tasks, only one that was requested for a `clear` begins one.
    cases func : task.func with
    | clear serializer => exact .inr ⟨serializer, rfl⟩
    | user | writeLog => exact .inl rfl
  | free => exact .inl ⟨rfl, .inl rfl⟩
  -- The steps of `clear` itself: on to the store, on to the pop, and the return.
  | @clearNothing serializer alive nothing =>
    exact .inr (.inl ⟨serializer, _, rfl, rfl, rfl, ⟨rfl, rfl, rfl, rfl⟩, fun _ => .inr nothing,
      by simp⟩)
  | @clearPending serializer =>
    exact .inr (.inl ⟨serializer, _, rfl, rfl, rfl, ⟨rfl, rfl, rfl, rfl⟩, by simp, by simp⟩)
  | @clearReturn serializer alive =>
    exact .inr (.inr ⟨serializer, rfl, rfl, ⟨rfl, rfl, rfl, rfl⟩, alive⟩)
  | clearRelease _ failed => exact absurd sound failed

/-- Only a release by `clear` can fail. -/
theorem TaskMove.unsound {frame : Frame σ τ} (move : TaskMove program shared slot [frame] after new)
    (before : shared.Sound) (failed : ¬ after.Sound) :
    ∃ serializer, frame = .clearPop serializer ∧ shared.deleted serializer = false := by
  cases move with
  | quiet same quietly => exact absurd same.sound failed
  | stopped sound => exact absurd sound failed
  | clearRelease alive => exact ⟨_, rfl, alive⟩
  | _ => exact absurd before failed

/-- A `clear` that comes to its pop fails there, unless the serializer has been deleted. -/
theorem TaskMove.pops {serializer : σ}
    (move : TaskMove program shared slot [.clearPop serializer] after new) (sound : after.Sound) :
    shared.deleted serializer = true := by
  cases move with
  | quiet same quietly => cases (quietly.ended _ List.mem_cons_self).1
  | stopped _ gone => exact gone serializer rfl
  | clearRelease _ failed => exact absurd sound failed

/-- The only move that gives memory back is the last step of a `delete` in the process loop. -/
theorem TaskMove.frees {frame : Frame σ τ} (move : TaskMove program shared slot [frame] after new)
    (sound : after.Sound) :
    (after.deleted = shared.deleted ∧ ∀ locals, frame = .process .free locals → slot = none) ∨
      ∃ serializer locals, slot = some serializer ∧ frame = .process .free locals ∧
        new = [.process .exit locals] ∧ after.taskQueue = shared.taskQueue ∧
        after.deleted = Function.update shared.deleted serializer true := by
  cases move with
  | quiet same quietly =>
    -- A quiet move is never made by a loop that frees.
    refine .inl ⟨same.deleted, fun locals frees => ?_⟩
    exact absurd frees ((quietly.ended frame List.mem_cons_self).2 locals)
  | stopped _ _ kept => exact .inl ⟨rfl, kept⟩
  | drop begun onward =>
    refine .inl ⟨rfl, fun locals frees => ?_⟩
    -- A loop drops its task where it assigns to it or returns, not where it frees.
    cases frees
    exact absurd rfl begun.2
  -- This is the move that the second alternative describes.
  | @free serializer locals inside => exact .inr ⟨serializer, locals, inside, rfl, rfl, rfl, rfl⟩
  | clearRelease _ failed => exact absurd sound failed
  | _ => exact .inl ⟨rfl, by simp⟩

/-- A move forgets no push. -/
theorem TaskMove.pushed (move : TaskMove program shared slot old after new) (sound : after.Sound)
    {serializer : σ} {id : Nat} (before : id ∈ shared.pushed serializer) :
    id ∈ after.pushed serializer := by
  cases move with
  | quiet same quietly => rwa [same.pushed]
  | insert => exact mem_update_append.mpr (.inl before)
  | clearRelease _ failed => exact absurd sound failed
  | _ => exact before

/-- A task that has left its queue does not come back to it. -/
theorem TaskMove.unqueued (move : TaskMove program shared slot old after new)
    (sound : after.Sound) {serializer : σ} {id : Nat}
    (unpushed : ∀ target task wasEmpty, .pushInsert target task wasEmpty ∈ old →
      task.id ∉ shared.pushed target)
    (pushed : id ∈ shared.pushed serializer) (left : shared.queuedCount serializer id = 0) :
    after.queuedCount serializer id = 0 := by
  rw [Shared.queuedCount, List.count_eq_zero] at left ⊢
  cases move with
  | quiet same quietly => rwa [same.taskQueue]
  | @insert target task wasEmpty _ alive onward =>
    -- What is pushed now was not pushed before.
    have absent := unpushed target task wasEmpty List.mem_cons_self
    intro member
    obtain ⟨queued, inside, rfl⟩ := List.mem_map.mp member
    rcases mem_update_append.mp inside with before | ⟨rfl, rfl⟩
    · exact left (List.mem_map_of_mem before)
    · exact absent pushed
  | pop inside alive first =>
    -- What is left after the pop was queued before it.
    intro member
    obtain ⟨queued, still, rfl⟩ := List.mem_map.mp member
    exact left (List.mem_map_of_mem (mem_update_tail first still))
  | clearRelease _ failed => exact absurd sound failed
  | _ => exact left

end Numbers

section Kept

variable [Fintype ι]

/--
Every task that has been requested is in one place, as far as it has come.

It is held by a call, on the queue of its serializer, or destroyed. The task is invoked when a loop
has it in hand, and not before.
-/
structure State.Kept (state : State ι σ τ) : Prop where
  numbered : state.shared.Numbered
  knows : ∀ at_, state.shared.Knows (state.thread at_).stack
  counted : ∀ at_, ∀ frame ∈ (state.thread at_).stack, frame.Counted
  waiting : ∀ at_, ∀ frame ∈ (state.thread at_).stack.tail, frame.clears = none
  place : ∀ serializer, ∀ id ∈ state.shared.requested serializer,
    state.totalHeld (Held.numbered id) + state.shared.queuedCount serializer id +
      state.shared.destroyed.count id = 1
  begun : ∀ serializer, ∀ id ∈ state.shared.requested serializer,
    (state.shared.started serializer).count id =
      state.totalHeld (Held.numberedAt .begun id) + state.shared.destroyed.count id
  pushed : ∀ serializer, ∀ id ∈ state.shared.requested serializer,
    (state.shared.pushed serializer).count id +
      state.totalHeld (Held.numberedAt .unpushed id) = 1

/-- Nothing has been requested before any call. -/
theorem State.init_kept : (State.init ι σ τ).Kept where
  numbered := by constructor <;> simp [State.init]
  knows := by simp [Shared.Knows, State.init]
  counted := by simp [State.init]
  waiting := by simp [State.init]
  place := by simp [State.init]
  begun := by simp [State.init]
  pushed := by simp [State.init]

variable {state : State ι σ τ}

/-- A held task is counted at no more than one stage. -/
theorem Held.numberedAt_le (stage : Stage) (id : Nat) (held : Held σ τ) :
    held.numberedAt stage id ≤ held.numbered id := by
  unfold Held.numberedAt Held.numbered
  split
  · -- At its own stage the task counts once for both.
    rename_i both
    rw [if_pos both.2]
  · exact Nat.zero_le _

/-- No call holds a task exactly if its total is zero. -/
theorem totalHeld_eq_zero {weight : Held σ τ → Nat} : state.totalHeld weight = 0 ↔
    ∀ at_, ∀ held ∈ (state.thread at_).stack.flatMap Frame.held, weight held = 0 := by
  simp [State.totalHeld, Finset.sum_eq_zero_iff, tally_eq_zero]

/-- The calls hold a task at one stage at most as often as they hold it. -/
theorem totalHeld_numberedAt_le (stage : Stage) (id : Nat) :
    state.totalHeld (Held.numberedAt stage id) ≤ state.totalHeld (Held.numbered id) :=
  Finset.sum_le_sum fun _ _ => List.sum_le_sum fun held _ => held.numberedAt_le stage id

/-- Where no call holds a task, none holds it at any stage. -/
theorem totalHeld_numberedAt {id : Nat} (nowhere : state.totalHeld (Held.numbered id) = 0)
    (stage : Stage) : state.totalHeld (Held.numberedAt stage id) = 0 :=
  Nat.eq_zero_of_le_zero (nowhere ▸ totalHeld_numberedAt_le stage id)

/-- The number of the next task is nowhere in the account of the tasks. -/
theorem State.Kept.fresh (kept : state.Kept) (serializer : σ) :
    state.totalHeld (Held.numbered state.shared.nextId) = 0 ∧
      state.shared.queuedCount serializer state.shared.nextId = 0 ∧
      state.shared.destroyed.count state.shared.nextId = 0 ∧
      (state.shared.started serializer).count state.shared.nextId = 0 ∧
      (state.shared.pushed serializer).count state.shared.nextId = 0 := by
  -- All that the account knows of has been requested, with a number below the next one.
  have later {target : σ} : state.shared.nextId ∉ state.shared.requested target := fun member =>
    Nat.lt_irrefl _ (kept.numbered.below target _ member)
  refine ⟨?_, ?_, ?_, ?_, ?_⟩
  · -- What a call holds has been requested.
    rw [totalHeld_eq_zero]
    intro at_ held member
    refine if_neg fun same => ?_
    exact later (same ▸ kept.knows at_ held member)
  · -- What is queued has been requested.
    refine List.count_eq_zero.mpr fun member => ?_
    obtain ⟨task, queued, same⟩ := List.mem_map.mp member
    exact later (same ▸ (kept.numbered.queued serializer task queued).2.2)
  · -- What has been destroyed, started or pushed has a number that was given out.
    exact List.count_eq_zero.mpr fun member => Nat.lt_irrefl _ (kept.numbered.destroyed _ member)
  · exact List.count_eq_zero.mpr fun member => later (kept.numbered.started serializer _ member)
  · exact List.count_eq_zero.mpr fun member => later (kept.numbered.pushed serializer _ member)

variable [DecidableEq ι]

/-- Replacing the calls on top of a thread's stack changes a total by what these calls hold. -/
theorem totalHeld_withThread (weight : Held σ τ → Nat) {at_ : ι} {old new rest : List (Frame σ τ)}
    (stack : (state.thread at_).stack = old ++ rest) (shared : Shared σ τ)
    (slot : SourceFile → Option σ) :
    (state.withThread at_ shared ⟨slot, new ++ rest⟩).totalHeld weight +
        tally weight (old.flatMap Frame.held) =
      state.totalHeld weight + tally weight (new.flatMap Frame.held) := by
  -- Of the sum over the threads, one summand changes, and in it what the top calls hold.
  have replaced := sum_update Finset.univ state.thread
    (fun thread => tally weight (thread.stack.flatMap Frame.held)) ⟨slot, new ++ rest⟩
    (Finset.mem_univ at_)
  simp only [stack, List.flatMap_append, tally_append] at replaced
  simp only [State.totalHeld, State.withThread]
  omega

variable [DecidableEq σ] {program : Program σ τ} {after : Shared σ τ} {here : Option σ}
  {old new rest : List (Frame σ τ)}

/-- After a move, each task has kept its place in the account, and a new one has begun its own. -/
theorem State.Kept.account (kept : state.Kept) {at_ : ι}
    (stack : (state.thread at_).stack = old ++ rest) (knows : state.shared.Knows old)
    (counted : ∀ frame ∈ old, frame.Counted)
    (move : TaskMove program state.shared here old after new) (sound : after.Sound)
    (slot : SourceFile → Option σ) {serializer : σ} {id : Nat}
    (member : id ∈ after.requested serializer) :
    let next := state.withThread at_ after ⟨slot, new ++ rest⟩
    next.totalHeld (Held.numbered id) + after.queuedCount serializer id +
        after.destroyed.count id = 1 ∧
      (after.started serializer).count id =
        next.totalHeld (Held.numberedAt .begun id) + after.destroyed.count id ∧
      (after.pushed serializer).count id + next.totalHeld (Held.numberedAt .unpushed id) = 1 := by
  intro next
  -- Only what the calls on top hold has changed.
  have totals (weight : Held σ τ → Nat) : next.totalHeld weight +
      tally weight (old.flatMap Frame.held) =
      state.totalHeld weight + tally weight (new.flatMap Frame.held) :=
    totalHeld_withThread weight stack after slot
  have any := totals (Held.numbered id)
  have begun := totals (Held.numberedAt .begun id)
  have unpushed := totals (Held.numberedAt .unpushed id)
  rcases move.news sound member with before | ⟨rfl, same, none_, task, numbered, one⟩
  · -- A task that was there before goes from one place to another.
    obtain ⟨place, invoked, queued⟩ := move.balance sound kept.numbered knows counted before
    have placeBefore := kept.place serializer id before
    have begunBefore := kept.begun serializer id before
    have pushedBefore := kept.pushed serializer id before
    exact ⟨by omega, by omega, by omega⟩
  · -- A new task was nowhere before, and is now on its way to its queue.
    obtain ⟨nowhere, unqueued, alive, unstarted, unpushedBefore⟩ := kept.fresh serializer
    have nowhereAt := totalHeld_numberedAt nowhere
    rw [none_, one] at any begun unpushed
    simp [Held.numbered, Held.numberedAt, numbered, nowhere, nowhereAt] at any begun unpushed
    simp only [Shared.queuedCount, same.taskQueue, same.destroyed, same.started, same.pushed]
      at unqueued alive unstarted unpushedBefore ⊢
    exact ⟨by omega, by omega, by omega⟩

/-- A move of one thread keeps every task in one place. -/
theorem State.Kept.moved (kept : state.Kept) {at_ : ι}
    (stack : (state.thread at_).stack = old ++ rest) (under : ∀ frame ∈ rest, frame.clears = none)
    (move : TaskMove program state.shared here old after new) (sound : after.Sound)
    (slot : SourceFile → Option σ) : (state.withThread at_ after ⟨slot, new ++ rest⟩).Kept := by
  -- The calls that move are among those of the thread, so they know and count as these do.
  have knows : state.shared.Knows old := by
    intro held member
    refine kept.knows at_ held ?_
    rw [stack, List.flatMap_append]
    exact List.mem_append_left _ member
  have counted : ∀ frame ∈ old, frame.Counted := fun frame member =>
    kept.counted at_ frame (by rw [stack]; exact List.mem_append_left _ member)
  -- Below the top, a frame is either a new one that waits or one that was waiting before.
  have under' : ∀ frame ∈ (new ++ rest).tail, frame.clears = none := by
    intro frame member
    cases new with
    | nil => exact under frame (List.mem_of_mem_tail member)
    | cons first others =>
      rcases List.mem_append.mp member with fresh | older
      · exact move.waiting sound frame fresh
      · exact under frame older
  -- A property of the calls of every thread is left to show for the thread that moves.
  have threads (P : List (Frame σ τ) → Prop) (others : ∀ at_, P (state.thread at_).stack)
      (here : P (new ++ rest)) :
      ∀ at_', P ((state.withThread at_ after ⟨slot, new ++ rest⟩).thread at_').stack := by
    intro other
    by_cases same : other = at_
    · subst same; simpa using here
    · rw [State.withThread_other same]; exact others other
  -- The three accounts of every task come together from the balance of the move.
  have account (serializer : σ) (id : Nat) (member : id ∈ after.requested serializer) :=
    kept.account stack knows counted move sound slot member
  exact
    { numbered := move.numbered sound kept.numbered knows counted
      knows := by
        refine threads after.Knows (fun other held member => ?_) ?_
        · exact move.requested sound (kept.knows other held member)
        · intro held member
          rw [List.flatMap_append] at member
          rcases List.mem_append.mp member with top | under
          · exact move.knows sound kept.numbered knows held top
          · refine move.requested sound (kept.knows at_ held ?_)
            rw [stack, List.flatMap_append]
            exact List.mem_append_right _ under
      counted := by
        refine threads (fun stack => ∀ frame ∈ stack, frame.Counted) kept.counted ?_
        intro frame member
        rcases List.mem_append.mp member with top | under
        · exact move.counted sound kept.numbered counted frame top
        · exact kept.counted at_ frame (by rw [stack]; exact List.mem_append_right _ under)
      waiting := threads (fun stack => ∀ frame ∈ stack.tail, frame.clears = none) kept.waiting
        under'
      place := fun serializer id member => (account serializer id member).1
      begun := fun serializer id member => (account serializer id member).2.1
      pushed := fun serializer id member => (account serializer id member).2.2 }

omit [DecidableEq ι] [DecidableEq σ] in
/-- Where nothing happens to any task or to any call, every task stays in its place. -/
theorem State.Kept.still (kept : state.Kept) {next : State ι σ τ}
    (queues : state.shared.SameQueues next.shared)
    (nextId : next.shared.nextId = state.shared.nextId)
    (requested : next.shared.requested = state.shared.requested)
    (threads : next.thread = state.thread) : next.Kept where
  numbered := kept.numbered.congr queues.taskQueue nextId requested queues.pushed queues.started
    queues.destroyed
  knows := by
    unfold Shared.Knows
    rw [requested, threads]
    exact kept.knows
  counted := by rw [threads]; exact kept.counted
  waiting := by rw [threads]; exact kept.waiting
  place := by
    simp only [State.totalHeld, Shared.queuedCount, threads, queues.taskQueue, queues.destroyed,
      requested]
    exact kept.place
  begun := by
    simp only [State.totalHeld, threads, queues.started, queues.destroyed, requested]
    exact kept.begun
  pushed := by
    simp only [State.totalHeld, threads, queues.pushed, requested]
    exact kept.pushed

end Kept

end Braid.Task
