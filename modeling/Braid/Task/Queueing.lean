import Braid.Library.Fifo
import Braid.Library.Refinement
import Braid.Task.DestroyedOnce

/-! The order of the tasks of a serializer, in runs where several threads process it at once. -/

namespace Braid.Task

open Counting Transition

variable {ι σ τ : Type} [DecidableEq σ]

/-- What the next step of a frame does to the queue of a serializer. -/
def Frame.queueEvent (shared : Shared σ τ) (slot : Option σ) (serializer : σ)
    (frame : Frame σ τ) : Option (Fifo.Event Nat) :=
  if (frame.touched slot).any shared.deleted then none
  else match frame with
  | .pushInsert at_ task _ => if at_ = serializer then some (.push task.id) else none
  -- A loop pops from the serializer in its slot, and `clear` from its own.
  | .process .pop _ =>
    if slot = some serializer then
      (shared.taskQueue serializer).head?.map fun task => .pop task.id
    else none
  | .clearPop at_ =>
    if at_ = serializer then (shared.taskQueue serializer).head?.map fun task => .pop task.id
    else none
  | _ => none

/-- What a step does to the queue of a serializer. -/
def queueEvent (program : Program σ τ) (serializer : σ) (state : State ι σ τ) :
    Label ι σ τ → Option (Fifo.Event Nat)
  | .run at_ =>
    match (state.thread at_).stack with
    | [] => none
    -- The step is one of the innermost call.
    | frame :: _ =>
      frame.queueEvent state.shared ((state.thread at_).slot (program.linkage .taskDistributor))
        serializer
  | _ => none

/-- The numbers of the tasks on the queue of a serializer. -/
def Shared.queuedIds (shared : Shared σ τ) (serializer : σ) : List Nat :=
  (shared.taskQueue serializer).map ITask.id

variable {program : Program σ τ} {shared : Shared σ τ}

omit [DecidableEq σ] in
/-- Releasing a task takes none off a queue. -/
@[simp] theorem release_queuedIds (task : ITask σ τ) :
    (shared.release task).queuedIds = shared.queuedIds := by
  unfold Shared.release
  split
  · rfl
  · split <;> rfl

omit [DecidableEq σ] in
/-- Dropping the last task of a loop takes none off a queue. -/
@[simp] theorem drop_queuedIds (task : Option (ITask σ τ)) :
    (shared.drop task).queuedIds = shared.queuedIds := by
  cases task <;> simp [Shared.drop]

/-- A queue that has lost its first task, or that is another one than the one asked for. -/
theorem queuedIds_update (current serializer : σ) (tasks : List (ITask σ τ)) :
    Shared.queuedIds { shared with
        taskQueue := Function.update shared.taskQueue current tasks } serializer =
      if serializer = current then tasks.map ITask.id else shared.queuedIds serializer := by
  simp only [Shared.queuedIds, Function.update_apply]
  split <;> rfl

/-- A pop of the first task is one that a queue allows, and no pop takes anything off another one. -/
theorem pop_queued {current : σ} {task : ITask σ τ} {others : List (ITask σ τ)}
    (first : shared.taskQueue current = task :: others) (serializer : σ) :
    exec Fifo.step (shared.queuedIds serializer)
        (if current = serializer then
          (shared.taskQueue serializer).head?.map fun task => Fifo.Event.pop task.id
        else none).toList =
      some (Shared.queuedIds { shared with
        taskQueue := Function.update shared.taskQueue current others } serializer) := by
  rw [queuedIds_update]
  -- The queue is the one that loses its first task, or another one.
  by_cases same : current = serializer
  · subst same
    simp [Shared.queuedIds, first, exec, Fifo.step]
  · rw [if_neg same, if_neg (Ne.symm same)]
    rfl

omit [DecidableEq σ] in
/-- Releasing a task pushes none. -/
@[simp] theorem release_pushed (task : ITask σ τ) :
    (shared.release task).pushed = shared.pushed := by
  unfold Shared.release
  split
  · rfl
  · split <;> rfl

omit [DecidableEq σ] in
/-- Dropping the last task of a loop pushes none. -/
@[simp] theorem drop_pushed (task : Option (ITask σ τ)) :
    (shared.drop task).pushed = shared.pushed := by
  cases task <;> simp [Shared.drop]

omit [DecidableEq σ] in
/-- Making a call changes nothing that the threads share. -/
theorem callStep_shared (thread : Thread σ τ) (calls : List (Call σ τ)) :
    (callStep program shared thread calls).1 = shared := by
  -- Each of the calls only adds a frame.
  unfold callStep
  split
  · rfl
  · rfl
  · split <;> rfl
  · rfl

/-- A step of a frame changes the queue of a serializer as its event says. -/
theorem frameStep_queued (program : Program σ τ) (slot : SourceFile → Option σ)
    (frame : Frame σ τ) (rest : List (Frame σ τ)) (serializer : σ) :
    exec Fifo.step (shared.queuedIds serializer)
        (frame.queueEvent shared (slot (program.linkage .taskDistributor)) serializer).toList =
      some ((frameStep program shared ⟨slot, rest⟩ frame).1.queuedIds serializer) := by
  unfold Frame.queueEvent frameStep
  dsimp only
  split
  · rfl
  -- Three frames reach a queue: the push, the pop of the loop, and that of `clear`.
  cases frame with
  | calls calls =>
    dsimp only
    rw [callStep_shared]
    rfl
  | requestTask at_ func =>
    simp only [requestTaskStep]
    split <;> rfl
  | pushEmpty at_ task => rfl
  | pushInsert at_ task wasEmpty =>
    simp only [pushInsertStep, Shared.queuedIds, Function.update_apply]
    by_cases same : at_ = serializer
    · subst same
      simp [exec, Fifo.step]
    · simp [exec, same, Ne.symm same]
  | pushHandOver at_ =>
    simp only [pushHandOverStep]
    split <;> rfl
  | poll distributor =>
    simp only [pollStep]
    split
    · rfl
    · split <;> rfl
  | process point locals =>
    cases point with
    | enter =>
      simp only [processEnterStep]
      split <;> rfl
    | invoke =>
      simp only [invokeStep]
      split <;> rfl
    | running => rfl
    | exit => simp [processExitStep, exec]
    | pop =>
      dsimp only
      -- A loop whose slot is empty stops the program.
      cases slot (program.linkage .taskDistributor) with
      | none => rfl
      | some current =>
        simp only [processStep, Option.some.injEq]
        cases first : shared.taskQueue current with
        | nil =>
          -- There is nothing to pop, and an event would need a first task.
          dsimp only
          rw [drop_queuedIds]
          split
          · rename_i same
            rw [← same, first]
            rfl
          · rfl
        | cons task others =>
          dsimp only
          rw [drop_queuedIds]
          exact pop_queued first serializer
    | _ =>
      dsimp only
      split <;> rfl
  | destroyStore at_ => rfl
  | clearEmpty at_ =>
    simp only [clearStep]
    split <;> rfl
  | clearPop at_ =>
    simp only [clearStep]
    cases first : shared.taskQueue at_ with
    | nil =>
      dsimp only
      split
      · rename_i same
        subst same
        simp [exec, Shared.queuedIds, Shared.stop, first]
      · rfl
    | cons task others =>
      dsimp only
      rw [release_queuedIds]
      exact pop_queued first serializer
  | clearStore at_ => rfl

omit [DecidableEq σ] in
/-- Popping the first task of a queue pushes none. -/
@[simp] theorem pushes_popped (first : Option (ITask σ τ)) :
    Fifo.pushes (first.map fun task => Fifo.Event.pop task.id).toList = [] := by
  cases first <;> rfl

/-- A step of a frame pushes the task that its event says, or none. -/
theorem frameStep_pushed (program : Program σ τ) (slot : SourceFile → Option σ)
    (frame : Frame σ τ) (rest : List (Frame σ τ)) (serializer : σ) :
    (frameStep program shared ⟨slot, rest⟩ frame).1.pushed serializer =
      shared.pushed serializer ++ Fifo.pushes
        (frame.queueEvent shared (slot (program.linkage .taskDistributor)) serializer).toList := by
  -- Whatever else a step does, it leaves the record of pushes alone.
  have pops (taken : Prop) [Decidable taken] (first : Option (ITask σ τ)) : Fifo.pushes
      (if taken then first.map fun task => Fifo.Event.pop task.id else none).toList = [] := by
    split
    · exact pushes_popped first
    · rfl
  unfold Frame.queueEvent frameStep
  dsimp only
  split
  · simp [Shared.stop, Fifo.pushes]
  cases frame with
  | calls calls =>
    dsimp only
    rw [callStep_shared]
    simp [Fifo.pushes]
  | requestTask at_ func =>
    simp only [requestTaskStep]
    split <;> simp [Fifo.pushes]
  | pushInsert at_ task wasEmpty =>
    simp only [pushInsertStep, Function.update_apply]
    -- The record is kept for each serializer.
    by_cases same : at_ = serializer
    · subst same
      simp [Fifo.pushes, Fifo.Event.pushed?]
    · simp [Fifo.pushes, same, Ne.symm same]
  | pushHandOver at_ =>
    simp only [pushHandOverStep]
    split <;> simp [Shared.put, Fifo.pushes]
  | poll distributor =>
    simp only [pollStep]
    split
    · simp [Shared.stop, Fifo.pushes]
    · split <;> simp [Fifo.pushes]
  | process point locals =>
    cases point with
    | enter =>
      simp only [processEnterStep]
      split <;> simp [Shared.stop, Fifo.pushes]
    | invoke =>
      simp only [invokeStep]
      split <;> simp [Fifo.pushes]
    | running => simp [turnStep, Fifo.pushes]
    | exit => simp [processExitStep, Fifo.pushes]
    | pop =>
      dsimp only
      rw [pops, List.append_nil]
      split
      · rfl
      · simp only [processStep]
        split <;> simp
    | _ =>
      dsimp only
      split <;> simp [Shared.stop, Shared.put, processStep, Fifo.pushes]
  | clearEmpty at_ =>
    simp only [clearStep]
    split <;> simp [Fifo.pushes]
  | clearPop at_ =>
    simp only [clearStep]
    rw [pops, List.append_nil]
    split <;> simp [Shared.stop]
  | _ => simp [clearStep, Fifo.pushes]

variable [DecidableEq ι]

/-- Every step changes the queue of a serializer as its event says. -/
theorem step_queued {state next : State ι σ τ} {label : Label ι σ τ} (serializer : σ)
    (taken : step program state label = some next) :
    exec Fifo.step (state.shared.queuedIds serializer)
        (queueEvent program serializer state label).toList =
      some (next.shared.queuedIds serializer) := by
  unfold step at taken
  split at taken
  · cases taken
  split at taken
  · split at taken <;> cases taken
    rfl
  · split at taken <;> cases taken
    rfl
  · -- Only a step inside of a call reaches a queue.
    rename_i at_
    split at taken <;> cases taken
    rename_i frame rest stack
    simp only [queueEvent, stack]
    exact frameStep_queued program (state.thread at_).slot frame rest serializer
  · cases taken
    rfl

variable [Fintype ι]

/-- As long as no release fails, every step keeps the account of the tasks. -/
theorem step_kept {state next : State ι σ τ} {label : Label ι σ τ} (kept : state.Kept)
    (taken : step program state label = some next) (sound : next.shared.Sound) : next.Kept := by
  unfold step at taken
  split at taken
  · cases taken
  rename_i running
  replace running : state.shared.fault = none := by simpa using running
  have same := Shared.SameTasks.refl running
  split at taken
  · -- A call from outside begins with nothing in hand.
    split at taken <;> cases taken
    rename_i at_ outer _ outside
    have quietly : Quietly [] [Frame.calls [outer]] := by constructor <;> simp
    have move : TaskMove program state.shared none [] state.shared [.calls [outer]] :=
      .quiet same quietly
    exact kept.moved outside (by simp) move same.sound _
  · split at taken <;> cases taken
    rename_i at_ _ outside
    have quietly : Quietly ([] : List (Frame σ τ)) [.poll (program.linkage .workerThread)] := by
      constructor <;> simp
    have move : TaskMove program state.shared none [] state.shared
        [.poll (program.linkage .workerThread)] := .quiet same quietly
    exact kept.moved outside (by simp) move same.sound _
  · split at taken <;> cases taken
    rename_i at_ _ frame rest stack
    -- The tasks of the frame have the counts that the account says.
    have counted := kept.counted at_ frame (by rw [stack]; exact List.mem_cons_self)
    obtain ⟨new, left, move⟩ := frameStep_tasks program running (state.thread at_).slot rest counted
      fun serializer task member => (kept.numbered.queued serializer task member).2.1
    have under : ∀ other ∈ rest, other.clears = none := fun other member =>
      kept.waiting at_ other (by rw [stack]; exact member)
    -- What is left of the thread is its slot, and the new calls over those that wait.
    generalize frameStep program state.shared ⟨(state.thread at_).slot, rest⟩ frame = result
      at left move sound ⊢
    obtain ⟨after, slot, remaining⟩ := result
    simp only at left
    subst left
    exact kept.moved stack under move sound slot
  · cases taken
    exact kept.still ⟨rfl, rfl, rfl, rfl⟩ rfl rfl rfl

omit [Fintype ι] in
/-- Every step pushes the task that its event says, or none. -/
theorem step_pushed {state next : State ι σ τ} {label : Label ι σ τ} (serializer : σ)
    (taken : step program state label = some next) :
    next.shared.pushed serializer = state.shared.pushed serializer ++
      Fifo.pushes (queueEvent program serializer state label).toList := by
  unfold step at taken
  split at taken
  · cases taken
  split at taken
  · split at taken <;> cases taken
    exact (List.append_nil _).symm
  · split at taken <;> cases taken
    exact (List.append_nil _).symm
  · rename_i at_
    split at taken <;> cases taken
    rename_i frame rest stack
    simp only [queueEvent, stack]
    exact frameStep_pushed program (state.thread at_).slot frame rest serializer
  · cases taken
    exact (List.append_nil _).symm

omit [DecidableEq σ] [DecidableEq ι] in
/-- A task that is held at two stages is held twice. -/
theorem totalHeld_stages_le (state : State ι σ τ) {first second : Stage} (other : first ≠ second)
    (id : Nat) : state.totalHeld (Held.numberedAt first id) +
        state.totalHeld (Held.numberedAt second id) ≤ state.totalHeld (Held.numbered id) := by
  have each (held : Held σ τ) :
      held.numberedAt first id + held.numberedAt second id ≤ held.numbered id := by
    unfold Held.numberedAt Held.numbered
    -- A held task is at one stage, so that it counts for one of the two at most.
    by_cases same : held.task.id = id
    · by_cases here : held.stage = first <;> simp [same, here, other]
      split <;> simp
    · simp [same]
  simp only [State.totalHeld, ← Finset.sum_add_distrib, ← tally_add]
  exact Finset.sum_le_sum fun at_ _ => List.sum_le_sum fun held _ => each held

omit [DecidableEq σ] [DecidableEq ι] in
/-- A task that has been started was pushed, is off the queue, and has been started once. -/
theorem State.Kept.started {state : State ι σ τ} (kept : state.Kept) {serializer : σ} {id : Nat}
    (member : id ∈ state.shared.started serializer) :
    (state.shared.started serializer).count id = 1 ∧ id ∈ state.shared.pushed serializer ∧
      id ∉ state.shared.queuedIds serializer := by
  have requested := kept.numbered.started serializer id member
  have place := kept.place serializer id requested
  have begun := kept.begun serializer id requested
  have pushed := kept.pushed serializer id requested
  have started := List.count_pos_iff.mpr member
  -- The loop that has begun it holds it, so that nobody is still pushing it.
  have stages := totalHeld_stages_le state (show Stage.begun ≠ .unpushed by simp) id
  refine ⟨by omega, List.count_pos_iff.mp (by omega), fun queued => ?_⟩
  have here : 0 < state.shared.queuedCount serializer id := List.count_pos_iff.mpr queued
  omega

/--
The tasks of a serializer leave its queue in the order in which they were pushed.

Whatever the linkage of the distributor is, and however many threads process a serializer or clear
it at the same time, the pushes and pops on its queue are those of one queue, so that no task is
popped twice or before one that was pushed earlier. Until the program stops, no task is pushed
twice or started twice, and one that has been started has been popped.
-/
theorem tasks_queued {labels : List (Label ι σ τ)} {finish : State ι σ τ} (serializer : σ)
    {events : List (Fifo.Event Nat)}
    (run : Run (track (step program) (recording (queueEvent program serializer))) anyStep
      (State.init ι σ τ, []) labels (finish, events)) :
    (exec Fifo.step [] events = some (finish.shared.queuedIds serializer) ∧
      Fifo.pushes events = finish.shared.pushed serializer ∧
      ∀ first rest, events = first ++ rest → (Fifo.pops first).IsPrefix (Fifo.pushes first)) ∧
    (finish.shared.fault = none →
      (Fifo.pushes events).Nodup ∧ (finish.shared.started serializer).Nodup ∧
        ∀ id ∈ finish.shared.started serializer, id ∈ Fifo.pops events) := by
  obtain ⟨⟨pushed, kept⟩, executed⟩ : (finish.shared.pushed serializer = Fifo.pushes events ∧
      (finish.shared.Sound → finish.Kept)) ∧
        exec Fifo.step [] events = some (finish.shared.queuedIds serializer) := by
    -- The queue, the pushes and the account are carried along together.
    refine run.invariant (P := fun seen : State ι σ τ × List (Fifo.Event Nat) =>
      (seen.1.shared.pushed serializer = Fifo.pushes seen.2 ∧
        (seen.1.shared.Sound → seen.1.Kept)) ∧
          exec Fifo.step [] seen.2 = some (seen.1.shared.queuedIds serializer))
      ⟨⟨rfl, fun _ => State.init_kept⟩, rfl⟩ ?_
    rintro ⟨state, before⟩ label ⟨next, after⟩ ⟨⟨pushed, kept⟩, executed⟩ _ taken
    obtain ⟨stepped, recorded⟩ := track_eq_some.mp taken
    simp only [recording] at pushed kept executed stepped recorded ⊢
    have running := step_running stepped
    rw [← recorded]
    have sound := (Shared.SameTasks.refl running).sound
    refine ⟨⟨?_, step_kept (kept sound) stepped⟩, ?_⟩
    · rw [step_pushed serializer stepped, pushed, Fifo.pushes, Fifo.pushes, Fifo.pushes,
        List.filterMap_append]
    · rw [exec_append, executed, Option.bind_some]
      exact step_queued serializer stepped
  refine ⟨⟨executed, pushed.symm, fun first rest split => Fifo.pops_prefix_of_exec executed split⟩,
    fun running => ?_⟩
  replace kept := kept (Shared.SameTasks.refl running).sound
  refine ⟨?_, ?_, fun id member => ?_⟩
  · -- A number that was pushed is accounted for once.
    rw [← pushed, List.nodup_iff_count_le_one]
    intro id
    by_cases member : id ∈ finish.shared.pushed serializer
    · have account := kept.pushed serializer id (kept.numbered.pushed serializer id member)
      omega
    · rw [List.count_eq_zero.mpr member]
      exact Nat.zero_le _
  · rw [List.nodup_iff_count_le_one]
    intro id
    by_cases member : id ∈ finish.shared.started serializer
    · exact Nat.le_of_eq (kept.started member).1
    · rw [List.count_eq_zero.mpr member]
      exact Nat.zero_le _
  · -- A started task has been pushed and is not on the queue any more, so it has been popped.
    obtain ⟨-, member, left⟩ := kept.started member
    rw [pushed, Fifo.pushes_of_exec executed] at member
    exact (List.mem_append.mp member).resolve_right left

/-- Two threads request a task each, and one of them begins to process both. -/
def requestBoth : List (Label (Fin 2) Unit Unit) :=
  .call 0 (.requestTask () ()) :: .call 1 (.requestTask () ()) ::
    List.replicate 4 (.run 0) ++ List.replicate 4 (.run 1) ++ List.replicate 9 (.run 0)

/-- Both tasks are pushed, and the loop of the first thread has started them in this order. -/
theorem tasks_queued_requestBoth :
    ∃ (finish : State (Fin 2) Unit Unit) (events : List (Fifo.Event Nat)),
      ((exec Fifo.step [] events = some (finish.shared.queuedIds ()) ∧
        Fifo.pushes events = finish.shared.pushed () ∧
        ∀ first rest, events = first ++ rest →
          (Fifo.pops first).IsPrefix (Fifo.pushes first)) ∧
      (finish.shared.fault = none →
        (Fifo.pushes events).Nodup ∧ (finish.shared.started ()).Nodup ∧
          ∀ id ∈ finish.shared.started (), id ∈ Fifo.pops events)) ∧
      events = [.push 0, .push 1, .pop 0, .pop 1] ∧ finish.shared.started () = [0, 1] := by
  have executed : (exec (track (step onlySerializer) (recording (queueEvent onlySerializer ())))
      (State.init (Fin 2) Unit Unit, []) requestBoth).any fun seen =>
        seen.2 = [.push 0, .push 1, .pop 0, .pop 1] ∧
          seen.1.shared.started () = [0, 1] := by decide +kernel
  obtain ⟨⟨finish, events⟩, reached, values⟩ := (Option.any_eq_true _ _).mp executed
  exact ⟨finish, events, tasks_queued () (.of_exec reached), of_decide_eq_true values⟩

end Braid.Task
