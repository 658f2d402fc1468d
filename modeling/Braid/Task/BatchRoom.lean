import Braid.Task.Machine

/-! What the calls in progress will still pop from a queue, in batches of a limited size. -/

namespace Braid.Task

variable {σ τ : Type}

/-- The serializer of a process loop that has taken the slot. -/
@[simp] def Frame.entered : Frame σ τ → List σ
  | .process .enter _ => []
  | .process _ locals => [locals.serializer]
  | _ => []

/--
How many tasks a process loop at this point will still pop before its batch is full.

Behind its last emptiness test it serves the queue no longer.
-/
@[simp] def ProcessPoint.batch (processCount : Nat) : ProcessPoint → Option Nat
  | .enter => some (maxProcessTaskCount - processCount)
  | .pop => some (maxProcessTaskCount - processCount)
  -- The task in hand counts at the end of its turn.
  | .invoke => some (maxProcessTaskCount - (processCount + 1))
  | .running => some (maxProcessTaskCount - (processCount + 1))
  -- The last pop has been made, and the last test has not.
  | .state => some 0
  | .empty => some 0
  | _ => none

/-- A process loop that is about to put its serializer back onto the distributor. -/
@[simp] def Frame.requeues : Frame σ τ → Bool
  | .process .requeue _ => true
  | _ => false

variable [DecidableEq σ]

/--
How many tasks a call that serves a serializer will still pop from its queue.

A push that has found the queue empty is going to process the serializer, with a batch of its own.
-/
@[simp] def Frame.batch (serializer : σ) : Frame σ τ → Option Nat
  | .pushInsert target _ wasEmpty =>
    if wasEmpty ∧ target = serializer then some maxProcessTaskCount else none
  | .pushHandOver target => if target = serializer then some maxProcessTaskCount else none
  | .process point locals =>
    if locals.serializer = serializer then point.batch locals.processCount else none
  | _ => none

/-- How many tasks the next step of a call adds to the queue of a serializer. -/
@[simp] def Frame.inserts (serializer : σ) : Frame σ τ → Nat
  | .pushInsert target _ _ => if target = serializer then 1 else 0
  | _ => 0

/-- The calls that a step leaves still pop all that waits, if the one before could. -/
structure Serves (shared after : Shared σ τ) (frame : Frame σ τ) (new : List (Frame σ τ))
    (serializer : σ) : Prop where
  longer : (after.taskQueue serializer).length ≤
    (shared.taskQueue serializer).length + frame.inserts serializer
  bounded : ∀ next ∈ new, ∀ left ∈ next.batch serializer,
    (after.taskQueue serializer).length ≤ left
  carried : (frame.batch serializer).isSome → after.taskQueue serializer ≠ [] →
    ∃ next ∈ new, (next.batch serializer).isSome

/-- What a step does to the queues and to its own calls, which go on above those that wait. -/
structure Batched (shared : Shared σ τ) (frame : Frame σ τ) (rest : List (Frame σ τ))
    (result : Shared σ τ × Thread σ τ) : Prop where
  entered : result.2.stack.flatMap Frame.entered = (result.2.slot .taskDistributor).toList
  serves : ∃ new, result.2.stack = new ++ rest ∧ (∀ next ∈ new, next.requeues = false) ∧
    ∀ serializer, Serves shared result.1 frame new serializer

variable {program : Program σ τ} {shared after : Shared σ τ} {frame : Frame σ τ}
  {rest new : List (Frame σ τ)} {slot : SourceFile → Option σ}

omit [DecidableEq σ] in
/-- Releasing a task leaves the queues alone. -/
@[simp] theorem release_taskQueue (task : ITask σ τ) :
    (shared.release task).taskQueue = shared.taskQueue := by
  unfold Shared.release
  split
  · rfl
  · split <;> rfl

omit [DecidableEq σ] in
/-- Dropping the task of a turn leaves the queues alone. -/
@[simp] theorem drop_taskQueue (task : Option (ITask σ τ)) :
    (shared.drop task).taskQueue = shared.taskQueue := by
  cases task <;> simp [Shared.drop]

/-- A step that leaves the queues alone serves, if its calls will pop what they did before. -/
theorem Serves.still {serializer : σ} (same : after.taskQueue = shared.taskQueue)
    (bound : ∀ left ∈ frame.batch serializer, (shared.taskQueue serializer).length ≤ left)
    (batch : new.filterMap (Frame.batch serializer) = (frame.batch serializer).toList) :
    Serves shared after frame new serializer where
  longer := by rw [same]; exact Nat.le_add_right _ _
  bounded next member left has := by
    -- The batch of a new call is the one that the call had before.
    have before : left ∈ (frame.batch serializer).toList :=
      batch ▸ List.mem_filterMap.mpr ⟨next, member, has⟩
    rw [same]
    exact bound left (Option.mem_toList.mp before)
  carried serves _ := by
    -- The batch goes on in one of the calls that the step leaves.
    obtain ⟨left, has⟩ := Option.isSome_iff_exists.mp serves
    have after : left ∈ new.filterMap (Frame.batch serializer) := by
      rw [batch, has]
      exact List.mem_singleton_self left
    obtain ⟨next, member, batch⟩ := List.mem_filterMap.mp after
    exact ⟨next, member, Option.isSome_iff_exists.mpr ⟨left, batch⟩⟩

/-- A step on an empty queue serves, whatever calls it leaves. -/
theorem Serves.nothing {serializer : σ} (nothing : after.taskQueue serializer = []) :
    Serves shared after frame new serializer where
  longer := by rw [nothing]; exact Nat.zero_le _
  bounded _ _ _ _ := by rw [nothing]; exact Nat.zero_le _
  carried _ some_ := absurd nothing some_

/-- A step that leaves the queues and the slot alone. -/
theorem Batched.still {thread : Thread σ τ} (new : List (Frame σ τ))
    (stack : thread.stack = new ++ rest)
    (slots : thread.slot .taskDistributor = slot .taskDistributor)
    (inside : (frame :: rest).flatMap Frame.entered = (slot .taskDistributor).toList)
    (bound : ∀ serializer, ∀ left ∈ frame.batch serializer,
      (shared.taskQueue serializer).length + frame.inserts serializer ≤ left)
    (same : after.taskQueue = shared.taskQueue)
    (entered : new.flatMap Frame.entered = frame.entered)
    (requeues : ∀ next ∈ new, next.requeues = false)
    (batch : ∀ serializer, shared.taskQueue serializer = [] ∨
      new.filterMap (Frame.batch serializer) = (frame.batch serializer).toList) :
    Batched shared frame rest (after, thread) where
  entered := by
    rw [stack, slots, List.flatMap_append, entered, ← inside, List.flatMap_cons]
  serves := by
    refine ⟨new, stack, requeues, fun serializer => ?_⟩
    -- Of an empty queue nothing has to be served, and otherwise the batch is the same.
    rcases batch serializer with nothing | batch
    · exact .nothing (by rw [same, nothing])
    · exact .still same (fun left has => Nat.le_of_add_right_le (bound serializer left has)) batch

/-- The calls of application code pop nothing. -/
theorem callStep_batched (calls : List (Call σ τ))
    (inside : ((.calls calls : Frame σ τ) :: rest).flatMap Frame.entered =
      (slot .taskDistributor).toList) :
    Batched shared (.calls calls) rest (callStep program shared ⟨slot, rest⟩ calls) := by
  have bound : ∀ serializer, ∀ left ∈ (Frame.calls calls : Frame σ τ).batch serializer,
      (shared.taskQueue serializer).length + (Frame.calls calls : Frame σ τ).inserts serializer ≤
        left := by
    simp
  -- What a call of application code leads to serves no queue yet.
  cases calls with
  | nil => exact .still [] rfl rfl inside bound rfl rfl (by simp) (by simp)
  | cons call calls =>
    cases call with
    | requestTask serializer task =>
      exact .still [.requestTask serializer (.user task), .calls calls] rfl rfl inside bound rfl
        rfl (by simp) (by simp)
    | log level =>
      simp only [callStep]
      split
      · exact .still [.calls calls] rfl rfl inside bound rfl rfl (by simp) (by simp)
      · exact .still [.requestTask program.logHandler .writeLog, .calls calls] rfl rfl inside bound
          rfl rfl (by simp) (by simp)
    | setDestroy serializer =>
      exact .still [.requestTask serializer (.clear serializer), .destroyStore serializer,
        .calls calls] rfl rfl inside bound rfl rfl (by simp) (by simp)

/-- A queue that has lost its first task, before a call that goes on to pop one task less. -/
theorem Serves.popped {current : σ} {task : ITask σ τ} {others : List (ITask σ τ)}
    (first : shared.taskQueue current = task :: others)
    (queue : after.taskQueue = Function.update shared.taskQueue current others) (serializer : σ)
    (bounded : ∀ next ∈ new, ∀ left ∈ next.batch serializer,
      (shared.taskQueue serializer).length ≤ left + if serializer = current then 1 else 0)
    (carried : (frame.batch serializer).isSome → ∃ next ∈ new, (next.batch serializer).isSome) :
    Serves shared after frame new serializer := by
  by_cases same : serializer = current
  · subst same
    refine ⟨?_, fun next member left has => ?_, fun serves _ => carried serves⟩
    · rw [queue, Function.update_self, first, List.length_cons]
      omega
    · -- The task that is popped makes up for the place that it takes in the batch.
      have before := bounded next member left has
      rw [if_pos rfl, first, List.length_cons] at before
      rw [queue, Function.update_self]
      omega
  · -- The other queues are as they were.
    refine ⟨?_, fun next member left has => ?_, fun serves _ => carried serves⟩
    · rw [queue, Function.update_of_ne same]
      exact Nat.le_add_right _ _
    · have before := bounded next member left has
      rw [if_neg same] at before
      rw [queue, Function.update_of_ne same]
      exact before

/-- The process loop pops what its batch has room for, and makes its last test on an empty queue. -/
theorem processStep_batched {point : ProcessPoint} {locals : ProcessLocals σ τ}
    (inside : (.process point locals :: rest : List (Frame σ τ)).flatMap Frame.entered =
      (slot .taskDistributor).toList)
    (bound : ∀ serializer, ∀ left ∈ (Frame.process point locals).batch serializer,
      (shared.taskQueue serializer).length + (Frame.process point locals).inserts serializer ≤ left)
    (place : point ≠ .enter ∧ point ≠ .invoke ∧ point ≠ .running ∧ point ≠ .requeue ∧
      point ≠ .exit) :
    Batched shared (.process point locals) rest
      (processStep shared ⟨slot, rest⟩ locals locals.serializer point) := by
  -- Behind its last pop, a loop has found nothing that waits.
  have closed (last : point.batch locals.processCount = some 0) :
      shared.taskQueue locals.serializer = [] := by
    have nothing := bound locals.serializer 0 (by rw [Frame.batch, if_pos rfl, last]; rfl)
    exact List.length_eq_zero_iff.mp (by omega)
  have elsewhere (next : ProcessPoint) (last : point.batch locals.processCount = some 0)
      (serializer : σ) : shared.taskQueue serializer = [] ∨
        [(Frame.process next locals)].filterMap (Frame.batch serializer) =
          ((Frame.process point locals).batch serializer).toList := by
    by_cases own : locals.serializer = serializer
    · subst own
      exact .inl (closed last)
    · simp [own]
  cases point with
  | pop =>
    simp only [processStep]
    split
    · -- Nothing waits, so that the places that are left in the batch are not needed.
      rename_i empty
      refine ⟨by simpa using inside, [.process .state { locals with task := none }], rfl,
        by simp, ?_⟩
      intro serializer
      by_cases own : locals.serializer = serializer
      · subst own
        exact .nothing (by simp [empty])
      · exact .still (drop_taskQueue _) (by simp [own]) (by simp [own])
    · rename_i task others first
      refine ⟨by simpa using inside, [.process .invoke _], rfl, by simp, ?_⟩
      intro serializer
      refine .popped first (drop_taskQueue _) serializer ?_ (by simp)
      intro next member left has
      obtain rfl := List.mem_singleton.mp member
      by_cases own : locals.serializer = serializer
      · subst own
        have before := bound locals.serializer _ (by simp; rfl)
        simp only [Frame.batch, ProcessPoint.batch, if_true, Option.mem_def, Option.some.injEq,
          Frame.inserts, Nat.add_zero] at has before ⊢
        omega
      · simp [own] at has
  | state =>
    simp only [processStep]
    split
    · exact .still [.process .delete locals] rfl rfl inside bound rfl rfl (by simp)
        (elsewhere .delete rfl)
    · exact .still [.process .empty locals] rfl rfl inside bound rfl rfl (by simp)
        (elsewhere .empty rfl)
  | empty =>
    -- The loop has found nothing, and goes on to its exit.
    simp only [processStep, closed rfl, List.isEmpty_nil, if_true]
    exact .still [.process .exit locals] rfl rfl inside bound rfl rfl (by simp)
      (elsewhere .exit rfl)
  | delete =>
    exact .still [.clearEmpty locals.serializer, .process .free locals] rfl rfl inside bound rfl rfl
      (by simp) (by simp)
  | free =>
    exact .still [.process .exit locals] rfl rfl inside bound rfl rfl (by simp) (by simp)
  | enter => exact absurd rfl place.1
  | invoke => exact absurd rfl place.2.1
  | running => exact absurd rfl place.2.2.1
  | requeue => exact absurd rfl place.2.2.2.1
  | exit => exact absurd rfl place.2.2.2.2

/--
A step of a thread pops what its batch has room for, and adds at most what it inserts.

The loop leaves its last test behind with an empty queue, and so it has nothing to requeue.
-/
theorem frameStep_batched (linked : program.linkage = perFile)
    (unpolled : shared.serializerQueue .workerThread = []) (free : slot .taskSerializer = none)
    (own : ∀ distributor, frame = .poll distributor → distributor = .workerThread)
    (inside : (frame :: rest).flatMap Frame.entered = (slot .taskDistributor).toList)
    (bound : ∀ serializer, ∀ left ∈ frame.batch serializer,
      (shared.taskQueue serializer).length + frame.inserts serializer ≤ left)
    (kept : frame.requeues = false) :
    Batched shared frame rest (frameStep program shared ⟨slot, rest⟩ frame) := by
  -- A fault leaves the call where it is.
  have stopped (fault : Fault) : Batched shared frame rest
      (shared.stop fault, ⟨slot, frame :: rest⟩) := by
    refine .still [frame] rfl rfl inside bound rfl (by simp) (by simpa using kept) ?_
    intro serializer
    right
    cases batch : frame.batch serializer with
    | none => rw [List.filterMap_cons_none batch]; rfl
    | some left => rw [List.filterMap_cons_some batch]; rfl
  simp only [frameStep, linked, perFile, id]
  split
  · exact stopped .usedAfterDelete
  cases frame with
  | calls calls => exact callStep_batched calls inside
  | requestTask serializer func =>
    simp only [requestTaskStep]
    split
    · exact .still [] rfl rfl inside bound rfl rfl (by simp) (by simp)
    · exact .still [.pushEmpty serializer _] rfl rfl inside bound rfl rfl (by simp) (by simp)
  | pushEmpty serializer task =>
    -- A push that finds the queue empty begins a batch, and one that does not begins none.
    refine .still [.pushInsert serializer task _] rfl rfl inside bound rfl rfl (by simp) ?_
    intro target
    by_cases empty : shared.taskQueue serializer = []
    · by_cases same : serializer = target
      · exact .inl (same ▸ empty)
      · simp [same]
    · simp [empty]
  | pushInsert serializer task wasEmpty =>
    have longer (target : σ) : (Function.update shared.taskQueue serializer
        (shared.taskQueue serializer ++ [task]) target).length =
        (shared.taskQueue target).length +
          (Frame.pushInsert serializer task wasEmpty : Frame σ τ).inserts target := by
      by_cases same : target = serializer
      · subst same
        simp
      · simp [same, Ne.symm same]
    cases wasEmpty with
    | true =>
      -- The one step that adds a task keeps the batch that its push has begun.
      refine ⟨inside, [.pushHandOver serializer], rfl, by simp, ?_⟩
      intro target
      refine ⟨Nat.le_of_eq (longer target), fun next member left has => ?_,
        fun serves _ => ⟨_, List.mem_singleton_self _, by simpa using serves⟩⟩
      obtain rfl := List.mem_singleton.mp member
      exact Nat.le_trans (Nat.le_of_eq (longer target)) (bound target left (by simpa using has))
    | false =>
      refine ⟨inside, [], rfl, by simp, ?_⟩
      intro target
      exact ⟨Nat.le_of_eq (longer target), by simp, by simp⟩
  | pushHandOver serializer =>
    -- The slot of `TaskSerializer.cc` is never taken, so the push processes the serializer itself.
    simp only [pushHandOverStep, linked, perFile, id, free]
    exact .still [.process .enter _] rfl rfl inside bound rfl rfl (by simp)
      (fun target => .inr (by by_cases same : serializer = target <;> simp [same]))
  | poll distributor =>
    obtain rfl := own distributor rfl
    simp only [pollStep, linked, perFile, id, unpolled]
    split
    · exact stopped .slotTaken
    · exact .still [] rfl rfl inside bound rfl rfl (by simp) (by simp)
  | process point locals =>
    -- A loop that goes on with the same batch serves its queue as before.
    have onward (next : ProcessPoint) (after : ProcessLocals σ τ)
        (same : after.serializer = locals.serializer)
        (batch : next.batch after.processCount = point.batch locals.processCount) (serializer : σ) :
        shared.taskQueue serializer = [] ∨
          [(Frame.process next after)].filterMap (Frame.batch serializer) =
            ((Frame.process point locals).batch serializer).toList := by
      right
      simp only [List.filterMap_cons, List.filterMap_nil, Frame.batch, same, batch]
      split <;> simp_all
    cases point with
    | enter =>
      simp only [processEnterStep, linked, perFile, id]
      split
      · exact stopped .slotTaken
      · -- The slot is free, so that no loop below has taken it.
        rename_i outside
        have none_ : slot .taskDistributor = none := by simpa using outside
        have below : rest.flatMap Frame.entered = [] := by simpa [none_] using inside
        refine ⟨by simp [below], [.process .pop locals], rfl, by simp, ?_⟩
        intro serializer
        refine .still rfl (fun left has => bound serializer left has) ?_
        by_cases same : locals.serializer = serializer <;> simp [same]
    | invoke =>
      simp only [invokeStep]
      split
      · exact .still [.process .running locals] rfl rfl inside bound rfl rfl (by simp)
          (onward .running locals rfl rfl)
      · rename_i task _
        -- What a task does is above its loop, and pops nothing yet.
        have none_ (first : Frame σ τ) (idle : ∀ serializer, first.batch serializer = none)
            (serializer : σ) : shared.taskQueue serializer = [] ∨
              [first, Frame.process .running locals].filterMap (Frame.batch serializer) =
                ((Frame.process .invoke locals).batch serializer).toList := by
          rw [List.filterMap_cons_none (idle serializer)]
          exact onward .running locals rfl rfl serializer
        cases invoked : task.func with
        | user body =>
          exact .still [.calls (program.body body), .process .running locals] rfl rfl inside bound
            rfl rfl (by simp) (none_ _ (by simp))
        | clear target =>
          exact .still [.clearEmpty target, .process .running locals] rfl rfl inside bound rfl rfl
            (by simp) (none_ _ (by simp))
        | writeLog =>
          exact .still [.process .running locals] rfl rfl inside bound rfl rfl (by simp)
            (onward .running locals rfl rfl)
    | running =>
      simp only [turnStep]
      split
      · -- The last place of a full batch has been used.
        rename_i last
        exact .still [.process .state _] rfl rfl inside bound rfl rfl (by simp)
          (onward .state _ rfl (by simpa using (Nat.sub_eq_zero_of_le last).symm))
      · exact .still [.process .pop _] rfl rfl inside bound rfl rfl (by simp)
          (onward .pop _ rfl rfl)
    | exit =>
      -- The loop that leaves is the one that has taken the slot.
      have below : rest.flatMap Frame.entered = [] := by
        cases taken : slot .taskDistributor with
        | none => simp [taken] at inside
        | some current =>
          rw [taken] at inside
          exact (List.cons.inj inside).2
      simp only [processExitStep, linked, perFile, id]
      refine ⟨by simp [below], [], rfl, by simp, ?_⟩
      intro serializer
      exact .still (drop_taskQueue _) (by simp) (by simp)
    | requeue => cases kept
    | pop | state | delete | free | empty =>
      have taken : slot .taskDistributor = some locals.serializer := by
        cases taken : slot .taskDistributor with
        | none => simp [taken] at inside
        | some current =>
          rw [taken] at inside
          exact congrArg some (List.cons.inj inside).1.symm
      simp only [taken]
      exact processStep_batched inside bound (by simp)
  | destroyStore serializer | clearStore serializer =>
    exact .still [] rfl rfl inside bound rfl rfl (by simp) (by simp)
  | clearEmpty serializer =>
    simp only [clearStep]
    split
    · exact .still [.clearStore serializer] rfl rfl inside bound rfl rfl (by simp) (by simp)
    · exact .still [.clearPop serializer] rfl rfl inside bound rfl rfl (by simp) (by simp)
  | clearPop serializer =>
    simp only [clearStep]
    split
    · exact stopped .unwrittenTask
    · rename_i task others first
      refine ⟨by simpa using inside, [.clearEmpty serializer], rfl, by simp, ?_⟩
      intro target
      exact .popped first (release_taskQueue _) target (by simp) (by simp)

end Braid.Task
