import Braid.Task.Accounts

/-! Whether every task is destroyed once: after its invocation, or by `clear` without one. -/

namespace Braid.Task

open Counting Transition

variable {ι σ τ : Type}

/-- A record of the calls of `clear`, which no step reads. -/
structure Clears (ι : Type) where
  -- The tasks that were on the queue when a thread called `clear` for the last time.
  pending : ι → List Nat
  -- The tasks that were pending at a call of `clear` and not destroyed when it returned.
  late : List Nat
  -- The tasks that `clear` itself has destroyed.
  cleared : List Nat

/-- The record before any call. -/
def Clears.init (ι : Type) : Clears ι := ⟨fun _ => [], [], []⟩

/-- The serializer that a thread is clearing. -/
def Owned.clearing (state : Owned ι σ τ) (at_ : ι) : Option σ :=
  topClears (state.base.thread at_).stack

/-- No task is on the queue of a serializer, and none is on its way to it. -/
def Owned.Taskless (state : Owned ι σ τ) (serializer : σ) : Prop :=
  state.base.shared.taskQueue serializer = [] ∧
    ∀ at_, serializer ∉ (state.base.thread at_).stack.flatMap Frame.pushes

/-- A call of some thread holds the task with this number. -/
def Owned.Holds (state : Owned ι σ τ) (id : Nat) : Prop :=
  ∃ at_, ∃ held ∈ (state.base.thread at_).stack.flatMap Frame.held, held.task.id = id

/-- The record after a step: `clear` is called, goes on, or returns. -/
def watch [DecidableEq ι] (state : Owned ι σ τ) (label : TaskLabel ι σ τ) (next : Owned ι σ τ)
    (record : Clears ι) : Clears ι :=
  match label.thread? with
  | none => record
  | some at_ =>
    let destroyed := next.base.shared.destroyed
    match state.clearing at_, next.clearing at_ with
    | none, none => record
    | none, some serializer =>
      let queue := (state.base.shared.taskQueue serializer).map ITask.id
      { record with pending := Function.update record.pending at_ queue }
    | some _, some _ =>
      let new := destroyed.drop state.base.shared.destroyed.length
      { record with cleared := record.cleared ++ new }
    | some _, none =>
      { record with late := record.late ++ (record.pending at_).filter (· ∉ destroyed) }

/--
What the life of a task promises.

A task that was requested is held by one call, or waits on one queue, or has been destroyed, once.
It has been invoked at most once, and it was destroyed after that or by `clear` instead of it.
No release has failed, every `clear` has returned with all that was pending destroyed, and no task
waits on a serializer whose memory has been given back.
-/
structure EachDestroyedOnce [Fintype ι] (seen : Owned ι σ τ × Clears ι) : Prop where
  place : ∀ serializer, ∀ id ∈ seen.1.base.shared.requested serializer,
    seen.1.base.totalHeld (Held.numbered id) + seen.1.base.shared.queuedCount serializer id +
      seen.1.base.shared.destroyed.count id = 1
  invoked : ∀ serializer id, (seen.1.base.shared.started serializer).count id ≤ 1
  ended : ∀ serializer, ∀ id ∈ seen.1.base.shared.requested serializer,
    id ∈ seen.1.base.shared.destroyed →
      (id ∈ seen.2.cleared ↔ id ∉ seen.1.base.shared.started serializer)
  sound : seen.1.base.shared.Sound
  returned : seen.2.late = []
  buried : ∀ serializer, seen.1.base.shared.deleted serializer = true → seen.1.Taskless serializer

/--
When a step lets no task down.

`clear` does not come to its pop, and it returns when no call holds a task that was pending at its
call. The memory of a serializer is given back when no task waits on it. A `clear` that goes on in
memory that has been given back stops the program instead.
-/
def Spares (program : Program σ τ) (seen : Owned ι σ τ × Clears ι) : TaskLabel ι σ τ → Prop
  | .life (.program (.run at_)) =>
    match seen.1.due at_ with
    | some serializer => seen.1.Taskless serializer
    | none =>
      match (seen.1.base.thread at_).stack with
      | .clearPop serializer :: _ => seen.1.base.shared.deleted serializer = true
      | .clearStore serializer :: _ =>
        seen.1.base.shared.deleted serializer = true ∨
          ∀ id ∈ seen.2.pending at_, ¬ seen.1.Holds id
      | .process .free _ :: _ =>
        ∀ serializer ∈ (seen.1.base.thread at_).slot (program.linkage .taskDistributor),
          seen.1.Taskless serializer
      | _ => True
  | _ => True

section Decide

variable [Fintype ι] [DecidableEq σ]

instance (state : Owned ι σ τ) (serializer : σ) : Decidable (state.Taskless serializer) :=
  inferInstanceAs (Decidable (_ ∧ _))

instance (state : Owned ι σ τ) (id : Nat) : Decidable (state.Holds id) :=
  inferInstanceAs (Decidable (∃ _, _))

instance (program : Program σ τ) (seen : Owned ι σ τ × Clears ι) (label : TaskLabel ι σ τ) :
    Decidable (Spares program seen label) := by
  unfold Spares
  split
  · split
    · infer_instance
    · split <;> infer_instance
  · infer_instance

end Decide

section Steps

variable [DecidableEq ι] [DecidableEq σ]

/-- What one step does to the tasks: a thread goes on, calls, gives memory back, or none of this. -/
inductive TaskStep (program : Program σ τ) (state : Owned ι σ τ) :
    TaskLabel ι σ τ → Owned ι σ τ → Prop
  | ran {at_ frame rest new after slot next} (due : state.due at_ = none)
    (stack : (state.base.thread at_).stack = frame :: rest)
    (move : TaskMove program state.base.shared
      ((state.base.thread at_).slot (program.linkage .taskDistributor)) [frame] after new)
    (base : next.base = state.base.withThread at_ after ⟨slot, new ++ rest⟩) :
    TaskStep program state (.life (.program (.run at_))) next
  | called {label at_ new after next} (about : label.thread? = some at_)
    (other : ∀ thread, label ≠ .life (.program (.run thread)))
    (outside : state.clearing at_ = none) (same : state.base.shared.SameTasks after)
    (quietly : Quietly [] new)
    (base : next.base = state.base.withThread at_ after
      ⟨(state.base.thread at_).slot, new ++ (state.base.thread at_).stack⟩) :
    TaskStep program state label next
  | freed {at_ serializer next} (due : state.due at_ = some serializer)
    (base : next.base = { state.base with shared := { state.base.shared with
      deleted := Function.update state.base.shared.deleted serializer true } }) :
    TaskStep program state (.life (.program (.run at_))) next
  | still {label next} (other : ∀ thread, label ≠ .life (.program (.run thread)))
    (same : state.base.shared.SameTasks next.base.shared)
    (threads : next.base.thread = state.base.thread) : TaskStep program state label next

variable {program : Program σ τ} {state next : Owned ι σ τ} {label : TaskLabel ι σ τ}

omit [DecidableEq ι] [DecidableEq σ] in
/-- A thread between its calls is not clearing anything. -/
theorem Owned.between_clearing {at_ : ι} (between : state.between at_ = true) :
    state.clearing at_ = none := by
  simp only [Owned.between, Bool.and_eq_true] at between
  unfold Owned.clearing
  cases stack : (state.base.thread at_).stack with
  | nil => rfl
  | cons frame rest =>
    rw [stack] at between
    -- The frames of a `clear` are those that rule out being between two calls.
    cases frame with
    | clearEmpty | clearPop | clearStore => cases between.2
    | _ => rfl

omit [DecidableEq ι] [DecidableEq σ] in
/-- A thread outside of every call is not clearing anything. -/
theorem Owned.outside_clearing {at_ : ι} (outside : (state.base.thread at_).stack = []) :
    state.clearing at_ = none := by
  rw [Owned.clearing, outside]
  rfl

omit [DecidableEq σ] in
/-- A call of `clear` holds no task. -/
theorem quietly_clear (serializer : σ) :
    Quietly ([] : List (Frame σ τ)) [.clearEmpty serializer] := by
  constructor <;> simp

/-- A program that has stopped takes no steps. -/
theorem step_running {base after : State ι σ τ} {label : Label ι σ τ}
    (taken : step program base label = some after) : base.shared.fault = none := by
  simp only [step] at taken
  split at taken
  · cases taken
  · rename_i running
    simpa using running

omit [DecidableEq ι] [DecidableEq σ] in
/-- A use of deleted memory stops the program, and does nothing to any task. -/
theorem stopped_same {shared : Shared σ τ} :
    shared.SameTasks (shared.stop .usedAfterDelete) :=
  ⟨⟨rfl, rfl, rfl, rfl⟩, rfl, rfl, rfl, by simp [Shared.Sound, Shared.stop]⟩

variable [Fintype ι]

/-- A step of a thread in the program is of one of these kinds. -/
theorem lifeStep_program_cases (kept : state.base.Kept) {at_ : ι} {label : Label ι σ τ}
    (about : label.thread? = some at_)
    (taken : lifeStep program state (.program label) = some next) :
    TaskStep program state (.life (.program label)) next := by
  simp only [lifeStep, about] at taken
  cases due : state.due at_ with
  | some serializer =>
    -- The destructor has returned, and the memory is given back.
    cases label with
    | run thread =>
      obtain rfl := Option.some.inj about
      simp only [due] at taken
      split at taken
      · cases taken
      · cases taken
        exact .freed due rfl
    | _ => simp [due] at taken
  | none =>
    simp only [due] at taken
    obtain ⟨base, changed, rfl⟩ := Option.map_eq_some_iff.mp taken
    have running := step_running changed
    have same := Shared.SameTasks.refl running
    cases label with
    | call thread outer =>
      obtain rfl := Option.some.inj about
      simp only [step, running, Option.isSome_none, Bool.false_eq_true, if_false] at changed
      split at changed
      · rename_i outside
        cases changed
        have quietly : Quietly [] [Frame.calls [outer]] := by constructor <;> simp
        exact .called about (by simp) (state.outside_clearing outside) same quietly
          (by simp [Owned.record, outside])
      · cases changed
    | poll thread =>
      obtain rfl := Option.some.inj about
      simp only [step, running, Option.isSome_none, Bool.false_eq_true, if_false] at changed
      split at changed
      · rename_i outside
        cases changed
        have quietly : Quietly ([] : List (Frame σ τ)) [.poll (program.linkage .workerThread)] := by
          constructor <;> simp
        exact .called about (by simp) (state.outside_clearing outside) same quietly
          (by simp [Owned.record, outside])
      · cases changed
    | run thread =>
      obtain rfl := Option.some.inj about
      simp only [step, running, Option.isSome_none, Bool.false_eq_true, if_false] at changed
      split at changed
      · cases changed
      · rename_i frame rest stack
        cases changed
        have counted := kept.counted thread frame (by rw [stack]; exact List.mem_cons_self)
        obtain ⟨new, left, move⟩ := frameStep_tasks program running
          (state.base.thread thread).slot rest counted
          fun serializer task member => (kept.numbered.queued serializer task member).2.1
        exact .ran due stack move (by rw [← left]; rfl)
    | setMinLevel level => cases about

/-- Every step is of one of these kinds. -/
theorem taskStep_cases (kept : state.base.Kept) (taken : taskStep program state label = some next) :
    TaskStep program state label next := by
  cases label with
  | life label =>
    cases label with
    | program label =>
      cases about : label.thread? with
      | some at_ => exact lifeStep_program_cases kept about taken
      | none =>
        -- The level is all that changes without a thread.
        cases label with
        | setMinLevel level =>
          obtain ⟨base, changed, rfl⟩ := Option.map_eq_some_iff.mp taken
          have running := step_running changed
          simp only [step, running, Option.isSome_none, Bool.false_eq_true, if_false] at changed
          cases changed
          exact .still (by simp)
            ⟨⟨rfl, rfl, rfl, rfl⟩, rfl, rfl, rfl, by simp [Shared.Sound]⟩ rfl
        | _ => cases about
    | copy at_ serializer =>
      simp only [taskStep, lifeStep] at taken
      split at taken
      · cases taken
      · rename_i allowed
        cases taken
        simp only [Bool.or_eq_true, Bool.not_eq_eq_eq_not, Bool.not_true, not_or] at allowed
        have running : state.base.shared.fault = none := by simpa using allowed.1
        -- A count of references is no part of any task.
        simp only [Owned.copyStep]
        split
        · exact .still (by simp) (stopped_same) rfl
        · exact .still (by simp) (.refl running) rfl
    | drop at_ serializer =>
      simp only [taskStep, lifeStep] at taken
      split at taken
      · cases taken
      · rename_i allowed
        cases taken
        simp only [Bool.or_eq_true, Bool.not_eq_eq_eq_not, Bool.not_true, not_or] at allowed
        have running : state.base.shared.fault = none := by simpa using allowed.1.1
        simp only [Owned.dropStep]
        split
        · exact .still (by simp) (stopped_same) rfl
        · split
          -- With the last reference, the destructor calls `clear`.
          · exact .called rfl (by simp) (state.between_clearing (by simpa using allowed.1.2))
              (.refl running) (quietly_clear serializer) rfl
          · exact .still (by simp) (.refl running) rfl
  | clear at_ serializer =>
    simp only [taskStep] at taken
    split at taken
    · cases taken
    · -- The call is made between two calls of the thread.
      rename_i allowed
      cases taken
      simp only [Bool.or_eq_true, Bool.not_eq_eq_eq_not, Bool.not_true, not_or] at allowed
      obtain ⟨running, between⟩ := allowed
      exact .called rfl (by simp) (state.between_clearing (by simpa using between))
        (.refl (by simpa using running)) (quietly_clear serializer) rfl
  | deleteQueued at_ distributor =>
    simp only [taskStep] at taken
    split at taken
    · cases taken
    · rename_i allowed
      simp only [Bool.or_eq_true, Bool.not_eq_eq_eq_not, Bool.not_true, not_or] at allowed
      have running : state.base.shared.fault = none := by simpa using allowed.1.1
      have outside : (state.base.thread at_).stack = [] := by simpa using allowed.2
      split at taken
      · cases taken
      · -- The first serializer is taken off the queue, and its destructor calls `clear`.
        rename_i serializer rest first
        cases taken
        have same : state.base.shared.SameTasks { state.base.shared with
            serializerQueue :=
              Function.update state.base.shared.serializerQueue distributor rest } :=
          ⟨⟨rfl, rfl, rfl, rfl⟩, rfl, rfl, rfl, by simp [Shared.Sound, running]⟩
        exact .called rfl (by simp) (state.outside_clearing outside) same
          (quietly_clear serializer) (by simp [outside])

end Steps

section Accounted

variable [Fintype ι]

/--
Every task is in its place, and what was pending at a `clear` has been pushed.

When the `clear` is about to return, none of it is left on the queue.
-/
structure Accounted (seen : Owned ι σ τ × Clears ι) : Prop where
  kept : seen.1.base.Kept
  cleared : seen.2.cleared = []
  pending : ∀ at_, ∀ frame ∈ (seen.1.base.thread at_).stack.head?, ∀ serializer,
    frame.clears = some serializer → ∀ id ∈ seen.2.pending at_,
      id ∈ seen.1.base.shared.pushed serializer ∧
        (frame = .clearStore serializer → seen.1.base.shared.queuedCount serializer id = 0)

/-- Everything is accounted for before any call. -/
theorem Accounted.init : Accounted (Owned.init ι σ τ, Clears.init ι) where
  kept := State.init_kept
  cleared := rfl
  pending := by simp [Owned.init, State.init]

variable {state next : Owned ι σ τ} {record : Clears ι}

/-- No call holds a task exactly if its total is zero. -/
theorem Owned.totalHeld_eq_zero {id : Nat} :
    state.base.totalHeld (Held.numbered id) = 0 ↔ ¬ state.Holds id := by
  rw [Task.totalHeld_eq_zero]
  simp [Owned.Holds, Held.numbered]

/-- A task that is on its way to a queue has not been pushed yet. -/
theorem State.Kept.unpushed {state : State ι σ τ} (kept : state.Kept) {at_ : ι} {held : Held σ τ}
    (member : held ∈ (state.thread at_).stack.flatMap Frame.held)
    (stage : held.stage = .unpushed) :
    held.task.id ∉ state.shared.pushed held.task.target := by
  have known := kept.knows at_ held member
  have account := kept.pushed held.task.target held.task.id known
  -- The call that holds the task counts for all of it.
  have counts : state.totalHeld (Held.numberedAt .unpushed held.task.id) ≠ 0 := by
    rw [Ne, Task.totalHeld_eq_zero]
    intro none_
    simpa [Held.numberedAt, stage] using none_ at_ held member
  rw [← List.count_eq_zero]
  omega

/-- A task that has been pushed and is not on the queue any more is destroyed or in some hand. -/
theorem State.Kept.destroyed_iff (kept : state.base.Kept) {serializer : σ} {id : Nat}
    (pushed : id ∈ state.base.shared.pushed serializer)
    (left : state.base.shared.queuedCount serializer id = 0) :
    id ∈ state.base.shared.destroyed ↔ ¬ state.Holds id := by
  have place := kept.place serializer id (kept.numbered.pushed serializer id pushed)
  rw [← state.totalHeld_eq_zero, ← List.count_pos_iff]
  omega

/-- The tasks on a queue have been pushed. -/
theorem State.Kept.pushed_of_queued {state : State ι σ τ} (kept : state.Kept) {serializer : σ}
    {id : Nat} (queued : id ∈ (state.shared.taskQueue serializer).map ITask.id) :
    id ∈ state.shared.pushed serializer := by
  obtain ⟨task, member, rfl⟩ := List.mem_map.mp queued
  have known := (kept.numbered.queued serializer task member).2.2
  have place := kept.place serializer task.id known
  have account := kept.pushed serializer task.id known
  have here : 0 < state.shared.queuedCount serializer task.id := List.count_pos_iff.mpr queued
  -- A task on the queue is in no call, so in none that is still pushing it.
  have nowhere := totalHeld_numberedAt (by omega : state.totalHeld (Held.numbered task.id) = 0)
    .unpushed
  rw [← List.count_pos_iff]
  omega

/-- While everything is accounted for, the promise is about what `clear` and a delete leave. -/
theorem Accounted.eachDestroyedOnce_iff {seen : Owned ι σ τ × Clears ι} (accounted : Accounted seen)
    (sound : seen.1.base.shared.Sound) : EachDestroyedOnce seen ↔ seen.2.late = [] ∧
      ∀ serializer, seen.1.base.shared.deleted serializer = true → seen.1.Taskless serializer := by
  constructor
  · intro each
    exact ⟨each.returned, each.buried⟩
  · rintro ⟨returned, buried⟩
    have kept := accounted.kept
    -- A task that has begun is in the hand that began it, or destroyed.
    have begun (serializer : σ) (id : Nat)
        (known : id ∈ seen.1.base.shared.requested serializer) :
        (seen.1.base.shared.started serializer).count id ≤ 1 ∧
          seen.1.base.shared.destroyed.count id ≤
            (seen.1.base.shared.started serializer).count id := by
      have place := kept.place serializer id known
      have account := kept.begun serializer id known
      have most : seen.1.base.totalHeld (Held.numberedAt .begun id) ≤
          seen.1.base.totalHeld (Held.numbered id) := totalHeld_numberedAt_le .begun id
      omega
    refine ⟨kept.place, fun serializer id => ?_, fun serializer id known destroyed => ?_, sound,
      returned, buried⟩
    · by_cases known : id ∈ seen.1.base.shared.requested serializer
      · exact (begun serializer id known).1
      · -- Only what has been requested is ever invoked.
        have never : id ∉ seen.1.base.shared.started serializer := fun started =>
          known (kept.numbered.started serializer id started)
        rw [List.count_eq_zero.mpr never]
        exact Nat.zero_le 1
    · -- So far `clear` has destroyed nothing, and all that is destroyed has been invoked.
      rw [accounted.cleared]
      have started := (begun serializer id known).2
      have gone : 0 < seen.1.base.shared.destroyed.count id := List.count_pos_iff.mpr destroyed
      have member : id ∈ seen.1.base.shared.started serializer := by
        rw [← List.count_pos_iff]
        omega
      simpa using member

omit [Fintype ι] in
/-- The calls below the top are not in the middle of a `clear`. -/
theorem topClears_append {calls rest : List (Frame σ τ)}
    (under : ∀ frame ∈ rest, frame.clears = none) :
    topClears (calls ++ rest) = topClears calls := by
  cases calls with
  | cons frame calls => rfl
  -- With no call on top, the one below decides, and it waits.
  | nil =>
    cases rest with
    | nil => rfl
    | cons frame rest => exact under frame List.mem_cons_self

variable [DecidableEq ι] [DecidableEq σ] {program : Program σ τ} {label : TaskLabel ι σ τ}
  {after : Shared σ τ} {here : Option σ} {old new rest : List (Frame σ τ)}

/-- A move of one thread leaves what is pending for the other threads as it was. -/
theorem Accounted.elsewhere (accounted : Accounted (state, record)) {at_ : ι}
    (stack : (state.base.thread at_).stack = old ++ rest)
    (move : TaskMove program state.base.shared here old after new) (sound : after.Sound)
    {slot : SourceFile → Option σ}
    (base : next.base = state.base.withThread at_ after ⟨slot, new ++ rest⟩) {other : ι}
    (different : other ≠ at_) :
    ∀ frame ∈ (next.base.thread other).stack.head?, ∀ serializer,
      frame.clears = some serializer → ∀ id ∈ record.pending other,
        id ∈ next.base.shared.pushed serializer ∧
          (frame = .clearStore serializer → next.base.shared.queuedCount serializer id = 0) := by
  have kept := accounted.kept
  -- A task that the move pushes has not been pushed before.
  have unpushed (target : σ) (task : ITask σ τ) (wasEmpty : Bool)
      (member : .pushInsert target task wasEmpty ∈ old) :
      task.id ∉ state.base.shared.pushed target := by
    have inside : Frame.pushInsert target task wasEmpty ∈ (state.base.thread at_).stack := by
      rw [stack]
      exact List.mem_append_left _ member
    have aimed : task.target = target := (kept.counted at_ _ inside).1
    have absent := kept.unpushed (List.mem_flatMap.mpr ⟨_, inside, List.mem_singleton_self _⟩) rfl
    rwa [aimed] at absent
  intro frame top serializer clears id pending
  rw [base, State.withThread_other different] at top
  obtain ⟨pushed, left⟩ := accounted.pending other frame top serializer clears id pending
  rw [base, State.withThread_shared]
  refine ⟨move.pushed sound pushed, fun stores => ?_⟩
  -- So it is none of those that have left the queue which is being cleared.
  exact move.unqueued sound unpushed pushed (left stores)

/--
A move of a thread keeps everything accounted for.

It leaves a task behind exactly if it returns from a `clear` while a call holds what was pending.
-/
theorem Accounted.moved (accounted : Accounted (state, record)) {at_ : ι}
    (about : label.thread? = some at_) (stack : (state.base.thread at_).stack = old ++ rest)
    (under : ∀ frame ∈ rest, frame.clears = none)
    (move : TaskMove program state.base.shared here old after new) (sound : after.Sound)
    {slot : SourceFile → Option σ}
    (base : next.base = state.base.withThread at_ after ⟨slot, new ++ rest⟩) :
    Accounted (next, watch state label next record) ∧
      ((watch state label next record).late = [] ↔ record.late = [] ∧
        ∀ serializer, old = [.clearStore serializer] →
          state.base.shared.deleted serializer = false →
            ∀ id ∈ record.pending at_, ¬ state.Holds id) := by
  have kept := accounted.kept
  have keptNext : next.base.Kept := base ▸ kept.moved stack under move sound slot
  have before : state.clearing at_ = topClears old := by
    rw [Owned.clearing, stack, topClears_append under]
  have afterwards : next.clearing at_ = topClears new := by
    rw [Owned.clearing, base, State.withThread_self, topClears_append under]
  have shared : next.base.shared = after := by rw [base, State.withThread_shared]
  -- What is on top of this thread's stack now is on top of the new calls, or has waited below.
  have top (frame : Frame σ τ) (member : frame ∈ (next.base.thread at_).stack.head?) :
      frame ∈ (new ++ rest).head? ∧ topClears new = frame.clears := by
    rw [base, State.withThread_self] at member
    refine ⟨member, ?_⟩
    rw [← topClears_append under, topClears, Option.mem_def.mp member, Option.bind_some]
  -- Where this thread stands in its own `clear` is all that is left to be said.
  have every {pending : ι → List Nat}
      (kept : ∀ other, other ≠ at_ → pending other = record.pending other)
      (own : ∀ frame ∈ (next.base.thread at_).stack.head?, ∀ serializer,
        frame.clears = some serializer → ∀ id ∈ pending at_,
          id ∈ next.base.shared.pushed serializer ∧
            (frame = .clearStore serializer → next.base.shared.queuedCount serializer id = 0))
      (late : List Nat) : Accounted (next, { record with pending := pending, late := late }) := by
    refine ⟨keptNext, accounted.cleared, fun other => ?_⟩
    by_cases same : other = at_
    · subst same
      exact own
    · intro frame member serializer clears id inside
      have pending : id ∈ record.pending other := kept other same ▸ inside
      exact accounted.elsewhere stack move sound base same frame member serializer clears id pending
  rcases move.clearing sound with ⟨idle, none_ | ⟨target, begins⟩⟩ |
    ⟨target, frame, rfl, clears, clearsNext, same, left, gone⟩ | ⟨target, rfl, rfl, same, alive⟩
  · -- No `clear` is begun.
    have recorded : watch state label next record = record := by
      simp [watch, about, before, afterwards, idle, none_]
    rw [recorded]
    refine ⟨every (fun _ _ => rfl) (fun frame member serializer clears => ?_) record.late, ?_⟩
    · rw [← (top frame member).2, none_] at clears
      cases clears
    · refine (and_iff_left ?_).symm
      rintro serializer rfl
      cases idle
  · -- A `clear` is begun, and what is pending is what the queue holds now.
    have starts : topClears new = some target := by rw [topClears, begins]; rfl
    have recorded : watch state label next record = { record with
        pending := Function.update record.pending at_
          ((state.base.shared.taskQueue target).map ITask.id) } := by
      simp [watch, about, before, afterwards, idle, starts]
    rw [recorded]
    refine ⟨every (fun other different => Function.update_of_ne different ..) ?_ record.late, ?_⟩
    · intro frame member serializer clears id queued
      rw [Function.update_self] at queued
      rw [← (top frame member).2, starts] at clears
      obtain rfl := Option.some.inj clears
      refine ⟨shared ▸ move.pushed sound (kept.pushed_of_queued queued), ?_⟩
      -- A `clear` that has just been called is not about to return.
      rintro rfl
      have other := (top _ member).1
      cases new with
      | nil => cases starts
      | cons first others =>
        cases begins
        cases other
    · refine (and_iff_left ?_).symm
      rintro serializer rfl
      cases idle
  · -- The `clear` goes on, and destroys nothing.
    have goes : topClears [frame] = some target := clearsNext
    rw [clears] at before
    rw [goes] at afterwards
    have recorded : watch state label next record = record := by
      simp [watch, about, before, afterwards, shared, same.destroyed]
    rw [recorded]
    refine ⟨every (fun _ _ => rfl) (fun frame' member serializer clears' id pending => ?_)
      record.late, ?_⟩
    · -- It is still about the same serializer, and it leaves the loop when the queue is empty.
      obtain rfl : frame = frame' := Option.some.inj (top frame' member).1
      obtain rfl : target = serializer := Option.some.inj (clearsNext.symm.trans clears')
      obtain ⟨first, found, firstClears⟩ := Option.bind_eq_some_iff.mp clears
      have member : first ∈ (state.base.thread at_).stack.head? := by
        rw [stack, List.head?_append_of_ne_nil _ (by rintro rfl; cases found)]
        exact found
      obtain ⟨pushed, unqueued⟩ := accounted.pending at_ first member target firstClears id pending
      rw [shared, Shared.queuedCount, same.pushed, same.taskQueue]
      refine ⟨pushed, fun stores => ?_⟩
      rcases left stores with rfl | empty
      · exact unqueued (Option.some.inj found).symm
      · simp [empty]
    · refine (and_iff_left ?_).symm
      -- A call that stays before its return has been stopped on a deleted serializer.
      rintro serializer rfl alive
      obtain rfl : serializer = target := Option.some.inj clears
      rw [gone rfl] at alive
      cases alive
  · -- The `clear` returns, and leaves behind what is not destroyed by now.
    have returns : topClears [(.clearStore target : Frame σ τ)] = some target := rfl
    have over_ : topClears ([] : List (Frame σ τ)) = none := rfl
    rw [returns] at before
    rw [over_] at afterwards
    have recorded : watch state label next record = { record with
        late := record.late ++
          (record.pending at_).filter (· ∉ state.base.shared.destroyed) } := by
      simp [watch, about, before, afterwards, shared, same.destroyed]
    rw [recorded]
    refine ⟨every (fun _ _ => rfl) (fun frame member serializer clears => ?_) _, ?_⟩
    · rw [← (top frame member).2] at clears
      cases clears
    · -- What was pending has left the queue, so it is destroyed or in the hand of some loop.
      have finds (id : Nat) (pending : id ∈ record.pending at_) :
          id ∈ state.base.shared.destroyed ↔ ¬ state.Holds id := by
        obtain ⟨pushed, unqueued⟩ := accounted.pending at_ (.clearStore target)
          (by rw [stack]; rfl) target rfl id pending
        exact kept.destroyed_iff pushed (unqueued rfl)
      rw [List.append_eq_nil_iff, List.filter_eq_nil_iff]
      refine and_congr_right fun _ => ⟨?_, ?_⟩
      · intro destroyed _ _ _ id pending
        exact (finds id pending).mp (by simpa using destroyed id pending)
      · intro free id pending
        simpa using (finds id pending).mpr (free target rfl alive id pending)

omit [Fintype ι] [DecidableEq σ] in
/-- Whether a task waits on a serializer depends on its queue and on the calls that push onto it. -/
theorem Owned.taskless_moved {at_ : ι} (stack : (state.base.thread at_).stack = old ++ rest)
    {slot : SourceFile → Option σ}
    (base : next.base = state.base.withThread at_ after ⟨slot, new ++ rest⟩) {serializer : σ}
    (queue : after.taskQueue serializer = state.base.shared.taskQueue serializer)
    (pushes : serializer ∈ new.flatMap Frame.pushes ↔ serializer ∈ old.flatMap Frame.pushes) :
    next.Taskless serializer ↔ state.Taskless serializer := by
  -- The calls below the top are the same.
  have each (other : ι) : serializer ∈ (next.base.thread other).stack.flatMap Frame.pushes ↔
      serializer ∈ (state.base.thread other).stack.flatMap Frame.pushes := by
    rw [base]
    by_cases same : other = at_
    · subst same
      rw [State.withThread_self, stack, List.flatMap_append, List.flatMap_append, List.mem_append,
        List.mem_append, pushes]
    · rw [State.withThread_other same]
  simp only [Owned.Taskless, each]
  rw [base, State.withThread_shared, queue]

omit [Fintype ι] [DecidableEq ι] [DecidableEq σ] in
/-- A step that spares the tasks, as a condition on the call that makes it. -/
theorem spares_run {at_ : ι} {frame : Frame σ τ} (due : state.due at_ = none)
    (stack : (state.base.thread at_).stack = frame :: rest) :
    Spares program (state, record) (.life (.program (.run at_))) ↔
      (∀ serializer, frame = .clearPop serializer →
        state.base.shared.deleted serializer = true) ∧
      (∀ serializer, frame = .clearStore serializer →
        state.base.shared.deleted serializer = false →
          ∀ id ∈ record.pending at_, ¬ state.Holds id) ∧
      ∀ locals, frame = .process .free locals →
        ∀ serializer ∈ (state.base.thread at_).slot (program.linkage .taskDistributor),
          state.Taskless serializer := by
  simp only [Spares, due, stack]
  -- The condition is about three places, and each of them is one case of the frame.
  cases frame with
  | clearPop serializer => simp
  | clearStore serializer =>
    by_cases gone : state.base.shared.deleted serializer = true <;> simp [gone]
  | process point locals => cases point <;> simp
  | _ => simp

omit [Fintype ι] [DecidableEq ι] [DecidableEq σ] in
/-- The steps that do not go on in a call spare the tasks. -/
theorem spares_other (other : ∀ thread, label ≠ .life (.program (.run thread))) :
    Spares program (state, record) label := by
  unfold Spares
  -- The condition is only about steps that go on in a call.
  split
  · exact absurd rfl (other _)
  · trivial

omit [Fintype ι] [DecidableEq σ] in
/-- Where nothing happens to any call, there is nothing new to record. -/
theorem watch_still (threads : next.base.thread = state.base.thread)
    (destroyed : next.base.shared.destroyed = state.base.shared.destroyed) :
    watch state label next record = record := by
  cases about : label.thread? with
  | none => simp only [watch, about]
  | some at_ =>
    -- The record changes only with what the thread is clearing.
    have same : next.clearing at_ = state.clearing at_ := by simp only [Owned.clearing, threads]
    simp only [watch, about, same]
    cases state.clearing at_ <;> simp [destroyed]

omit [DecidableEq ι] [DecidableEq σ] in
/-- Where no call changes and no task does, everything stays accounted for. -/
theorem Accounted.still (accounted : Accounted (state, record))
    (queues : state.base.shared.SameQueues next.base.shared)
    (nextId : next.base.shared.nextId = state.base.shared.nextId)
    (requested : next.base.shared.requested = state.base.shared.requested)
    (threads : next.base.thread = state.base.thread) : Accounted (next, record) where
  kept := accounted.kept.still queues nextId requested threads
  cleared := accounted.cleared
  pending := by
    simp only [threads, Shared.queuedCount, queues.pushed, queues.taskQueue]
    exact accounted.pending

/-- A step of a thread lets a task down exactly if it does not spare it. -/
theorem Accounted.ran (accounted : Accounted (state, record)) {at_ : ι} {frame : Frame σ τ}
    (due : state.due at_ = none) (stack : (state.base.thread at_).stack = frame :: rest)
    (move : TaskMove program state.base.shared
      ((state.base.thread at_).slot (program.linkage .taskDistributor)) [frame] after new)
    (sound : after.Sound) {slot : SourceFile → Option σ}
    (base : next.base = state.base.withThread at_ after ⟨slot, new ++ rest⟩) :
    let label : TaskLabel ι σ τ := .life (.program (.run at_))
    Accounted (next, watch state label next record) ∧
      ((watch state label next record).late = [] ∧
          (∀ serializer, after.deleted serializer = true → next.Taskless serializer) ↔
        (record.late = [] ∧
          ∀ serializer, state.base.shared.deleted serializer = true → state.Taskless serializer) ∧
        Spares program (state, record) label) := by
  intro label
  have under : ∀ frame ∈ rest, frame.clears = none := by
    have waiting := accounted.kept.waiting at_
    rw [stack] at waiting
    exact waiting
  have about : label.thread? = some at_ := rfl
  obtain ⟨next_, late⟩ := accounted.moved about stack under move sound base
  refine ⟨next_, ?_⟩
  rw [late, spares_run due stack]
  -- As nothing has failed, no `clear` that came to its pop is on a serializer that is alive.
  have pops (serializer : σ) (same : frame = .clearPop serializer) :
      state.base.shared.deleted serializer = true := by
    subst same
    exact move.pops sound
  have stays (serializer : σ) (gone : state.base.shared.deleted serializer = true) :
      next.Taskless serializer ↔ state.Taskless serializer := by
    obtain ⟨queue, pushes⟩ := move.taskless sound gone
    exact state.taskless_moved stack base queue pushes
  rcases move.frees sound with ⟨same, kept⟩ | ⟨serializer, locals, inside, rfl, rfl, queue, more⟩
  · -- Nothing is given back, and no task comes to what was.
    rw [same]
    constructor
    · rintro ⟨⟨returned, holds⟩, buried⟩
      refine ⟨⟨returned, fun other gone => (stays other gone).mp (buried other gone)⟩, pops,
        fun serializer stores => holds serializer (by rw [stores]), ?_⟩
      intro locals frees serializer inside
      rw [kept locals frees] at inside
      cases inside
    · rintro ⟨⟨returned, buried⟩, -, holds, -⟩
      refine ⟨⟨returned, fun serializer stores => holds serializer (List.cons.inj stores).1⟩, ?_⟩
      exact fun serializer gone => (stays serializer gone).mpr (buried serializer gone)
  · -- The memory is given back, and what waits on it is what waited on it before.
    have same (other : σ) : next.Taskless other ↔ state.Taskless other :=
      Owned.taskless_moved (show _ = [.process .free locals] ++ rest from stack) base
        (by rw [queue]) (by simp)
    have gone (other : σ) : after.deleted other = true ↔
        other = serializer ∨ state.base.shared.deleted other = true := by
      rw [more]
      by_cases here : other = serializer <;> simp [here]
    simp only [gone, same]
    constructor
    · rintro ⟨⟨returned, -⟩, buried⟩
      refine ⟨⟨returned, fun other before => buried other (.inr before)⟩, by simp, by simp, ?_⟩
      intro _ _ other inside'
      rw [inside] at inside'
      exact buried other (.inl (Option.some.inj inside').symm)
    · rintro ⟨⟨returned, buried⟩, -, -, frees⟩
      refine ⟨⟨returned, by simp⟩, fun other deleted => ?_⟩
      rcases deleted with rfl | before
      · exact frees locals rfl other inside
      · exact buried other before

/-- A task is let down by a step exactly if the step does not spare it. -/
theorem TaskStep.each (accounted : Accounted (state, record)) (sound : state.base.shared.Sound)
    (step : TaskStep program state label next) :
    (¬ next.base.shared.Sound ∨ Accounted (next, watch state label next record)) ∧
      (EachDestroyedOnce (next, watch state label next record) ↔
        EachDestroyedOnce (state, record) ∧ Spares program (state, record) label) := by
  cases step with
  | @ran at_ frame rest new after slot _ due stack move base =>
    have shared : next.base.shared = after := by rw [base, State.withThread_shared]
    by_cases safe : after.Sound
    · obtain ⟨next_, promise⟩ := accounted.ran due stack move safe base
      refine ⟨.inr next_, ?_⟩
      rw [next_.eachDestroyedOnce_iff (shared ▸ safe), accounted.eachDestroyedOnce_iff sound,
        shared]
      exact promise
    · -- The release in `clear` has failed.
      rw [← shared] at safe
      refine ⟨.inl safe, fun each => absurd each.sound safe, fun ⟨_, spares⟩ => ?_⟩
      obtain ⟨serializer, rfl, alive⟩ := move.unsound sound (shared ▸ safe)
      have gone := ((spares_run due stack).mp spares).1 serializer rfl
      rw [alive] at gone
      cases gone
  | @called _ at_ new after _ about other outside same quietly base =>
    have shared : next.base.shared = after := by rw [base, State.withThread_shared]
    -- The new call is put on top of calls none of which is in the middle of a `clear`.
    have under : ∀ frame ∈ (state.base.thread at_).stack, frame.clears = none := by
      have waiting := accounted.kept.waiting at_
      unfold Owned.clearing at outside
      cases stack : (state.base.thread at_).stack with
      | nil => simp
      | cons frame rest =>
        rw [stack] at waiting outside
        exact List.forall_mem_cons.mpr ⟨outside, waiting⟩
    have move : TaskMove program state.base.shared none [] after new := .quiet same quietly
    have stack : (state.base.thread at_).stack = [] ++ (state.base.thread at_).stack := rfl
    obtain ⟨next_, late⟩ := accounted.moved about stack under move same.sound base
    refine ⟨.inr next_, ?_⟩
    rw [next_.eachDestroyedOnce_iff (shared ▸ same.sound), accounted.eachDestroyedOnce_iff sound]
    have stays (serializer : σ) : next.Taskless serializer ↔ state.Taskless serializer :=
      state.taskless_moved stack base (by rw [same.taskQueue]) (by rw [quietly.pushes])
    simp [late, stays, shared, same.deleted, spares_other other]
  | @freed at_ serializer _ due base =>
    -- The memory of the serializer is given back behind its destructor.
    have threads : next.base.thread = state.base.thread := by rw [base]
    have queues : state.base.shared.SameQueues next.base.shared := by
      rw [base]; exact ⟨rfl, rfl, rfl, rfl⟩
    have safe : next.base.shared.Sound := by rw [base]; exact sound
    have next_ := accounted.still queues (by rw [base]) (by rw [base]) threads
    have gone (other : σ) : next.base.shared.deleted other = true ↔
        other = serializer ∨ state.base.shared.deleted other = true := by
      rw [base]
      by_cases here : other = serializer <;> simp [here]
    have same (other : σ) : next.Taskless other ↔ state.Taskless other := by
      simp only [Owned.Taskless, threads, queues.taskQueue]
    rw [watch_still threads queues.destroyed]
    refine ⟨.inr next_, ?_⟩
    rw [next_.eachDestroyedOnce_iff safe, accounted.eachDestroyedOnce_iff sound]
    simp only [gone, same, Spares, due, forall_eq_or_imp]
    tauto
  | still other same threads =>
    have recorded : watch state label next record = record :=
      watch_still threads same.destroyed
    have next_ := accounted.still same.toSameQueues same.nextId same.requested threads
    rw [recorded]
    refine ⟨.inr next_, ?_⟩
    rw [next_.eachDestroyedOnce_iff same.sound, accounted.eachDestroyedOnce_iff sound]
    simp [Owned.Taskless, threads, same.taskQueue, same.deleted, spares_other other]

omit [Fintype ι] in
/-- A program that has stopped takes none of these steps either. -/
theorem taskStep_running (taken : taskStep program state label = some next) :
    state.base.shared.fault = none := by
  by_contra failed
  -- Every kind of step asks for a running program first.
  have stopped : state.base.shared.fault.isSome = true := Option.isSome_iff_ne_none.mpr failed
  have none_ (label : Label ι σ τ) : step program state.base label = none := by
    simp [step, stopped]
  cases label with
  | life label =>
    cases label with
    | program label =>
      simp only [taskStep, lifeStep, none_, Option.map_none] at taken
      split at taken
      · cases taken
      · split at taken <;> simp [stopped] at taken
    | copy | drop => simp [taskStep, lifeStep, stopped] at taken
  | clear | deleteQueued => simp [taskStep, stopped] at taken

/--
Every task is destroyed once exactly in the runs whose steps all spare the tasks.

The run has any number of threads, any program, and any calls, deletes and backlogs.
-/
theorem each_destroyed_once_iff {labels : List (TaskLabel ι σ τ)} {finish : Owned ι σ τ × Clears ι}
    (run : Run (track (taskStep program) watch) anyStep (Owned.init ι σ τ, Clears.init ι) labels
      finish) :
    EachDestroyedOnce finish ↔
      Run (track (taskStep program) watch) (Spares program) (Owned.init ι σ τ, Clears.init ι) labels
        finish := by
  have soundInit : (Owned.init ι σ τ).base.shared.Sound := by
    simp [Shared.Sound, Owned.init, State.init]
  -- Nothing has been requested or deleted yet.
  have init : EachDestroyedOnce (Owned.init ι σ τ, Clears.init ι) := by
    refine (Accounted.init.eachDestroyedOnce_iff soundInit).mpr ⟨rfl, ?_⟩
    simp [Owned.init, State.init]
  -- A step from a state in which something has failed is not taken.
  have each (seen : Owned ι σ τ × Clears ι) (label : TaskLabel ι σ τ)
      (next : Owned ι σ τ × Clears ι)
      (invariant : ¬ seen.1.base.shared.Sound ∨ Accounted seen)
      (taken : track (taskStep program) watch seen label = some next) :
      (¬ next.1.base.shared.Sound ∨ Accounted next) ∧
        (EachDestroyedOnce next ↔ EachDestroyedOnce seen ∧ Spares program seen label) := by
    obtain ⟨stepped, recorded⟩ := track_eq_some.mp taken
    have running := taskStep_running stepped
    have sound : seen.1.base.shared.Sound := by simp [Shared.Sound, running]
    have accounted := invariant.resolve_left (not_not_intro sound)
    have step := (taskStep_cases accounted.kept stepped).each accounted sound
    rwa [recorded] at step
  exact run.restrict_iff (.inr .init) init (fun _ _ _ => trivial)
    (fun seen label next invariant _ taken => (each seen label next invariant taken).1)
    (fun seen label next invariant _ taken => (each seen label next invariant taken).2)

/-- A program over one serializer whose tasks make no calls, linked as the header is written. -/
def onlySerializer : Program Unit Unit where
  body := fun _ => []
  logHandler := ()
  linkage := perFile

/-- A task is requested, invoked and destroyed, and then its serializer goes with its last owner. -/
theorem each_destroyed_once_iff_deleted :
    ∃ finish : Owned (Fin 1) Unit Unit × Clears (Fin 1), EachDestroyedOnce finish ∧
      finish.1.base.shared.destroyed = [0] ∧ finish.1.base.shared.deleted () = true := by
  -- No `clear` is called, and the queue is empty when the last owner lets go.
  have executed : (execWhile (track (taskStep onlySerializer) watch) (Spares onlySerializer)
      (Owned.init (Fin 1) Unit Unit, Clears.init (Fin 1))
      (.life (.copy 0 ()) :: .life (.program (.call 0 (.requestTask () ()))) ::
        List.replicate 15 (.life (.program (.run 0))) ++
        .life (.drop 0 ()) :: List.replicate 3 (.life (.program (.run 0))))).any
        fun finish => finish.1.base.shared.destroyed = [0] ∧
          finish.1.base.shared.deleted () = true := by decide +kernel
  obtain ⟨finish, reached, facts⟩ := (Option.any_eq_true _ _).mp executed
  have spared := Run.of_execWhile reached
  have run : Run (track (taskStep onlySerializer) watch) anyStep
      (Owned.init (Fin 1) Unit Unit, Clears.init (Fin 1)) _ finish :=
    spared.mono fun _ _ _ => trivial
  exact ⟨finish, (each_destroyed_once_iff run).mpr spared, of_decide_eq_true facts⟩

/--
`set_destroy` releases a pending task with a count of zero.

The task was accepted while the serializer was running, and it is pushed behind the task that runs
`clear`.
-/
theorem pending_task_fails :
    ∃ (labels : List (TaskLabel (Fin 2) Unit Unit))
      (finish : Owned (Fin 2) Unit Unit × Clears (Fin 2)),
      Run (track (taskStep onlySerializer) watch) anyStep
        (Owned.init (Fin 2) Unit Unit, Clears.init (Fin 2)) labels finish ∧
      finish.1.base.shared.fault = some .releasedAtZero ∧ ¬ EachDestroyedOnce finish := by
  -- The task is pushed after the emptiness test of the `clear`, which then pops and releases it.
  have executed : (exec (track (taskStep onlySerializer) watch)
      (Owned.init (Fin 2) Unit Unit, Clears.init (Fin 2))
      (.life (.program (.call 1 (.requestTask () ()))) ::
        List.replicate 3 (.life (.program (.run 1))) ++
        .life (.program (.call 0 (.setDestroy ()))) ::
        List.replicate 8 (.life (.program (.run 0))) ++
        .life (.program (.run 1)) :: List.replicate 2 (.life (.program (.run 0))))).any
        fun finish => finish.1.base.shared.fault = some .releasedAtZero := by decide +kernel
  obtain ⟨finish, reached, stopped⟩ := (Option.any_eq_true _ _).mp executed
  have failed := of_decide_eq_true stopped
  exact ⟨_, finish, .of_exec reached, failed, fun each => each.sound.1 failed⟩

end Accounted

end Braid.Task
