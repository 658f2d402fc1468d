import Braid.Task.BatchRoom
import Braid.Task.Polling
import Braid.Task.Queueing

/-! Backlogs when every file has its own distributor: who pops the tasks, what the workers get. -/

namespace Braid.Task

open Transition

variable {ι σ τ : Type}

/-- A call that belongs to the distributor its file names. -/
def Frame.Local : Frame σ τ → Prop
  | .process _ locals => locals.distributor = .taskSerializer
  | .poll distributor => distributor = .workerThread
  | _ => True

/-- The serializer that the next step of a call puts back onto a distributor, and its tasks. -/
def requeued (shared : Shared σ τ) (slot : Option σ) : Frame σ τ → List (Put σ)
  | .process .requeue _ =>
    (slot.map fun current =>
      ⟨.taskSerializer, current, !(shared.taskQueue current).isEmpty⟩).toList
  | _ => []

/-- The distributors and the record of what was put on them are the same. -/
def SamePuts (before after : Shared σ τ) : Prop :=
  after.serializerQueue = before.serializerQueue ∧ after.puts = before.puts

/-- A step that puts nothing, over calls that belong to the distributors of their files. -/
def Keeps (shared : Shared σ τ) (result : Shared σ τ × Thread σ τ) : Prop :=
  SamePuts shared result.1 ∧ result.2.slot .taskSerializer = none ∧
    ∀ frame ∈ result.2.stack, frame.Local

/-- Releasing a task puts nothing. -/
theorem SamePuts.release {before after : Shared σ τ} (same : SamePuts before after)
    (task : ITask σ τ) : SamePuts before (after.release task) := by
  unfold Shared.release
  -- Whatever becomes of the count, only the task and the fault are touched.
  split
  · exact same
  · split <;> exact same

/-- Dropping a task puts nothing. -/
theorem SamePuts.drop {before after : Shared σ τ} (same : SamePuts before after)
    (task : Option (ITask σ τ)) : SamePuts before (after.drop task) := by
  cases task with
  | none => exact same
  | some task => exact same.release task

variable {program : Program σ τ} {shared : Shared σ τ} {slot : SourceFile → Option σ}
  {rest : List (Frame σ τ)}

/-- The calls of application code put nothing. -/
theorem callStep_keeps (free : slot .taskSerializer = none) (below : ∀ frame ∈ rest, frame.Local)
    (calls : List (Call σ τ)) : Keeps shared (callStep program shared ⟨slot, rest⟩ calls) := by
  cases calls with
  | nil => exact ⟨⟨rfl, rfl⟩, free, below⟩
  | cons call calls =>
    -- Each call leaves frames on the stack that go to no other distributor.
    cases call with
    | requestTask serializer task =>
      exact ⟨⟨rfl, rfl⟩, free, by simpa [callStep, Frame.Local] using below⟩
    | log level =>
      simp only [callStep]
      split <;> exact ⟨⟨rfl, rfl⟩, free, by simpa [Frame.Local] using below⟩
    | setDestroy serializer =>
      exact ⟨⟨rfl, rfl⟩, free, by simpa [callStep, Frame.Local] using below⟩

/-- What holds of every state when each file has its own distributor. -/
structure State.Local (state : State ι σ τ) : Prop where
  unpolled : state.shared.serializerQueue .workerThread = []
  free : ∀ at_, (state.thread at_).slot .taskSerializer = none
  frames : ∀ at_, ∀ frame ∈ (state.thread at_).stack, frame.Local

/-- The serializer that a step puts back onto a distributor, and its tasks. -/
def State.puts (state : State ι σ τ) : Label ι σ τ → List (Put σ)
  | .run at_ =>
    (state.thread at_).stack.head?.toList.flatMap
      (requeued state.shared ((state.thread at_).slot .taskDistributor))
  | _ => []

variable [DecidableEq σ]

/-- The process loop puts nothing but in its requeue. -/
theorem processStep_keeps (free : slot .taskSerializer = none)
    (below : ∀ frame ∈ rest, frame.Local) {locals : ProcessLocals σ τ}
    (inline : locals.distributor = .taskSerializer) (current : σ) {point : ProcessPoint}
    (other : point ≠ .requeue) :
    Keeps shared (processStep shared ⟨slot, rest⟩ locals current point) := by
  cases point with
  | requeue => exact absurd rfl other
  -- The pop drops the task of the turn before, which puts nothing.
  | pop =>
    simp only [processStep]
    split
    · exact ⟨SamePuts.drop ⟨rfl, rfl⟩ _, free, by simpa [Frame.Local, inline] using below⟩
    · exact ⟨SamePuts.drop ⟨rfl, rfl⟩ _, free, by simpa [Frame.Local, inline] using below⟩
  | _ => exact ⟨⟨rfl, rfl⟩, free, by simpa [processStep, Frame.Local, inline] using below⟩

/--
A step of a thread puts a serializer only where it requeues it, on the distributor of
`TaskSerializer.cc`.
-/
theorem frameStep_puts (linked : program.linkage = perFile)
    (unpolled : shared.serializerQueue .workerThread = []) (free : slot .taskSerializer = none)
    {frame : Frame σ τ} (local_ : ∀ other ∈ frame :: rest, other.Local) :
    let result := frameStep program shared ⟨slot, rest⟩ frame
    result.1.serializerQueue .workerThread = [] ∧ result.2.slot .taskSerializer = none ∧
      (∀ other ∈ result.2.stack, other.Local) ∧
      result.1.puts = shared.puts ++ requeued shared (slot .taskDistributor) frame := by
  have top : frame.Local := local_ frame List.mem_cons_self
  have below : ∀ other ∈ rest, other.Local := fun other member => local_ other (by simp [member])
  by_cases requeue : ∃ locals, frame = .process .requeue locals
  · obtain ⟨locals, rfl⟩ := requeue
    have inline : locals.distributor = .taskSerializer := top
    simp only [frameStep, Frame.touched, Option.any_none, Bool.false_eq_true, if_false, linked,
      perFile, id]
    cases taken : slot .taskDistributor with
    | none => exact ⟨unpolled, free, local_, by simp [requeued, Shared.stop]⟩
    | some current =>
      refine ⟨by simp [processStep, Shared.put, inline, unpolled], free, ?_,
        by simp [processStep, Shared.put, requeued, inline]⟩
      simpa [processStep, Frame.Local, inline] using below
  · have nothing : requeued shared (slot .taskDistributor) frame = [] := by
      unfold requeued
      split
      · exact absurd ⟨_, rfl⟩ requeue
      · rfl
    suffices keeps : Keeps shared (frameStep program shared ⟨slot, rest⟩ frame) by
      obtain ⟨⟨queues, puts⟩, free', local'⟩ := keeps
      exact ⟨queues ▸ unpolled, free', local', by rw [puts, nothing, List.append_nil]⟩
    simp only [frameStep, linked, perFile, id]
    split
    · exact ⟨⟨rfl, rfl⟩, free, local_⟩
    cases frame with
    | calls calls => exact callStep_keeps free below calls
    | requestTask serializer func =>
      simp only [requestTaskStep]
      split
      · exact ⟨⟨rfl, rfl⟩, free, below⟩
      · exact ⟨⟨rfl, rfl⟩, free, by simpa [Frame.Local] using below⟩
    | pushInsert serializer task wasEmpty =>
      cases wasEmpty with
      | true => exact ⟨⟨rfl, rfl⟩, free, by simpa [pushInsertStep, Frame.Local] using below⟩
      | false => exact ⟨⟨rfl, rfl⟩, free, by simpa [pushInsertStep] using below⟩
    | pushHandOver serializer =>
      -- The slot of `TaskSerializer.cc` is never taken: the push processes the serializer itself.
      simp only [pushHandOverStep, linked, perFile, id, free]
      exact ⟨⟨rfl, rfl⟩, free, by simpa [Frame.Local] using below⟩
    | poll distributor =>
      obtain rfl : distributor = .workerThread := top
      simp only [pollStep, linked, perFile, id, unpolled]
      split
      · exact ⟨⟨rfl, rfl⟩, free, local_⟩
      · exact ⟨⟨rfl, rfl⟩, free, below⟩
    | process point locals =>
      have inline : locals.distributor = .taskSerializer := top
      cases point with
      | enter =>
        simp only [processEnterStep, linked, perFile, id]
        split
        · exact ⟨⟨rfl, rfl⟩, free, local_⟩
        · exact ⟨⟨rfl, rfl⟩, by simpa using free, by simpa [Frame.Local, inline] using below⟩
      | invoke =>
        simp only [invokeStep]
        split
        · exact ⟨⟨rfl, rfl⟩, free, by simpa [Frame.Local, inline] using below⟩
        · rename_i task _
          refine ⟨⟨rfl, rfl⟩, free, ?_⟩
          generalize task.func = func
          cases func <;> simpa [invokeFrame, Frame.Local, inline] using below
      | running => exact ⟨⟨rfl, rfl⟩, free, by simpa [turnStep, Frame.Local, inline] using below⟩
      | exit =>
        simp only [processExitStep, linked, perFile, id]
        exact ⟨SamePuts.drop ⟨rfl, rfl⟩ _, by simpa using free, below⟩
      | requeue => exact absurd ⟨_, rfl⟩ requeue
      | pop | state | delete | free | empty =>
        simp only
        split
        · exact ⟨⟨rfl, rfl⟩, free, local_⟩
        · exact processStep_keeps free below inline _ (by simp)
    | clearPop serializer =>
      simp only [clearStep]
      split
      · exact ⟨⟨rfl, rfl⟩, free, local_⟩
      · exact ⟨SamePuts.release ⟨rfl, rfl⟩ _, free, by simpa [Frame.Local] using below⟩
    | clearEmpty serializer =>
      simp only [clearStep]
      split <;> exact ⟨⟨rfl, rfl⟩, free, by simpa [Frame.Local] using below⟩
    | pushEmpty serializer task => exact ⟨⟨rfl, rfl⟩, free, by simpa [Frame.Local] using below⟩
    | destroyStore serializer | clearStore serializer => exact ⟨⟨rfl, rfl⟩, free, below⟩

variable [DecidableEq ι] {state next : State ι σ τ} {label : Label ι σ τ}

/-- A step puts what its thread requeues, and each file keeps to its own distributor. -/
theorem step_puts (linked : program.linkage = perFile) (own : state.Local)
    (taken : step program state label = some next) :
    next.Local ∧ next.shared.puts = state.shared.puts ++ state.puts label := by
  -- The file-local state is kept for the thread that moves and for all others.
  have replace : ∀ (at_ : ι) (shared' : Shared σ τ) (thread : Thread σ τ),
      shared'.serializerQueue .workerThread = [] → thread.slot .taskSerializer = none →
      (∀ frame ∈ thread.stack, frame.Local) → (state.withThread at_ shared' thread).Local := by
    intro at_ shared' thread unpolled free frames
    refine ⟨unpolled, fun other => ?_, fun other => ?_⟩
    all_goals
      by_cases same : other = at_
      · subst same; simpa [State.withThread]
      · simpa [State.withThread, same] using
          (by first | exact own.free other | exact own.frames other)
  unfold step at taken
  split at taken
  · cases taken
  cases label with
  | call at_ outer =>
    simp only at taken
    split at taken
    · cases taken
      -- A call of application code starts with no put.
      exact ⟨replace _ _ _ own.unpolled (own.free at_) (by simp [Frame.Local]), by
        simp [State.puts, State.withThread]⟩
    · cases taken
  | poll at_ =>
    simp only at taken
    split at taken
    · cases taken
      exact ⟨replace _ _ _ own.unpolled (own.free at_) (by simp [Frame.Local, linked, perFile]), by
        simp [State.puts, State.withThread]⟩
    · cases taken
  | run at_ =>
    simp only at taken
    split at taken
    · cases taken
    · rename_i frame rest stack
      cases taken
      -- What a step puts is read off the frame on top.
      obtain ⟨unpolled, free, frames, puts⟩ :=
        frameStep_puts linked own.unpolled (own.free at_) (stack ▸ own.frames at_)
      exact ⟨replace _ _ _ unpolled free frames, by
        simpa [State.puts, State.withThread, stack] using puts⟩
  | setMinLevel level =>
    cases taken
    exact ⟨⟨own.unpolled, own.free, own.frames⟩, by simp [State.puts]⟩


/-- A thread that only polls starts no task. -/
theorem Reached.started (linked : program.linkage = perFile) (own : state.Local) {at_ : ι}
    (outside : (state.thread at_).stack = []) {serializer : σ} {id : Nat}
    (reached : Reached program at_ state serializer id) :
    id ∈ state.shared.started serializer := by
  obtain ⟨labels, later, run, started⟩ := reached
  -- All that the thread is ever in is a poll, of a queue with nothing on it.
  have idle : later.shared.started = state.shared.started ∧
      later.shared.serializerQueue .workerThread = [] ∧
      ((later.thread at_).stack = [] ∨ (later.thread at_).stack = [.poll .workerThread]) := by
    refine run.invariant (P := fun later : State ι σ τ =>
      later.shared.started = state.shared.started ∧
        later.shared.serializerQueue .workerThread = [] ∧
        ((later.thread at_).stack = [] ∨ (later.thread at_).stack = [.poll .workerThread]))
      ⟨rfl, own.unpolled, .inl outside⟩ ?_
    rintro before label after ⟨same, nothing, place⟩ polling taken
    unfold step at taken
    split at taken
    · cases taken
    rcases polling with rfl | rfl
    · -- A poll begins where the thread is outside of every call.
      simp only at taken
      split at taken <;> cases taken
      exact ⟨same, nothing, .inr (by simp [linked, perFile])⟩
    · simp only at taken
      split at taken <;> cases taken
      rename_i frame rest stack
      rcases place with none_ | poll
      · rw [stack] at none_
        cases none_
      · obtain ⟨rfl, rfl⟩ := List.cons.inj (stack.symm.trans poll)
        simp only [frameStep, Frame.touched, Option.any_none, Bool.false_eq_true, if_false, pollStep,
          nothing]
        split
        · exact ⟨same, nothing, .inr (by simp)⟩
        · exact ⟨same, nothing, .inl (by simp)⟩
  rwa [idle.1] at started

/--
A task is added only where a call in progress will pop it, within the batch of that call.

When a push adds its task to a serializer, some call is serving the serializer, be it that of the
push itself, and every such call will still pop more tasks than wait.
-/
def State.WithinBatch (state : State ι σ τ) : Label ι σ τ → Prop
  | .run at_ =>
    match (state.thread at_).stack with
    | .pushInsert serializer _ _ :: _ =>
      (∃ other, ∃ frame ∈ (state.thread other).stack, (frame.batch serializer).isSome = true) ∧
        ∀ other, ∀ frame ∈ (state.thread other).stack, ∀ left ∈ frame.batch serializer,
          (state.shared.taskQueue serializer).length < left
    | _ => True
  | _ => True

instance [Fintype ι] (state : State ι σ τ) (label : Label ι σ τ) :
    Decidable (state.WithinBatch label) := by
  unfold State.WithinBatch
  split
  · split <;> infer_instance
  · infer_instance

/-- What holds throughout while every push keeps within the batches. -/
structure State.Covered (state : State ι σ τ) : Prop where
  local_ : state.Local
  entered : ∀ at_, (state.thread at_).stack.flatMap Frame.entered =
    ((state.thread at_).slot .taskDistributor).toList
  bounded : ∀ at_, ∀ frame ∈ (state.thread at_).stack, ∀ serializer,
    ∀ left ∈ frame.batch serializer, (state.shared.taskQueue serializer).length ≤ left
  served : ∀ serializer, state.shared.taskQueue serializer ≠ [] →
    ∃ at_, ∃ frame ∈ (state.thread at_).stack, (frame.batch serializer).isSome = true
  kept : ∀ at_, ∀ frame ∈ (state.thread at_).stack, frame.requeues = false
  unput : state.shared.puts = []

omit [DecidableEq ι] in
/-- Nothing waits before any call. -/
theorem State.init_covered : (State.init ι σ τ).Covered where
  local_ := ⟨rfl, fun _ => rfl, by simp [State.init]⟩
  entered _ := rfl
  bounded := by simp [State.init]
  served _ some_ := absurd rfl some_
  kept := by simp [State.init]
  unput := rfl

omit [DecidableEq ι] in
/-- Where no call is in progress, a covered state has nothing that waits. -/
theorem State.Covered.quiet (covered : state.Covered) (quiet : state.Quiet) (serializer : σ) :
    state.shared.taskQueue serializer = [] := by
  by_contra some_
  obtain ⟨at_, frame, member, serves⟩ := covered.served serializer some_
  -- The call that would serve the queue is not one of those that a quiet state may have.
  have idle := List.all_eq_true.mp (quiet at_) frame member
  cases frame with
  | calls | requestTask => simp at serves
  | _ => cases idle

/-- Where one thread moves, what waits stays covered if the calls of all threads still cover it. -/
theorem State.Covered.moved (covered : state.Covered) {at_ : ι} {shared' : Shared σ τ}
    {thread : Thread σ τ} (old new rest : List (Frame σ τ))
    (stack : (state.thread at_).stack = old ++ rest) (onward : thread.stack = new ++ rest)
    (local_ : (state.withThread at_ shared' thread).Local) (unput : shared'.puts = [])
    (entered : thread.stack.flatMap Frame.entered = (thread.slot .taskDistributor).toList)
    (requeues : ∀ frame ∈ new, frame.requeues = false)
    (before : ∀ other, ∀ frame ∈ (state.thread other).stack, ∀ serializer,
      ∀ left ∈ frame.batch serializer, (shared'.taskQueue serializer).length ≤ left)
    (bounded : ∀ frame ∈ new, ∀ serializer, ∀ left ∈ frame.batch serializer,
      (shared'.taskQueue serializer).length ≤ left)
    (served : ∀ serializer, shared'.taskQueue serializer ≠ [] →
      ∃ other, ∃ frame ∈ (state.thread other).stack, (frame.batch serializer).isSome = true)
    (carried : ∀ serializer, shared'.taskQueue serializer ≠ [] →
      ∀ frame ∈ old, (frame.batch serializer).isSome = true →
        ∃ next ∈ new, (next.batch serializer).isSome = true) :
    (state.withThread at_ shared' thread).Covered := by
  have below : ∀ frame ∈ rest, frame ∈ (state.thread at_).stack := fun frame member => by
    rw [stack]
    exact List.mem_append_right _ member
  -- A call of the thread that moves is one that the step has left, or it was waiting below.
  have threads (P : Frame σ τ → Prop) (others : ∀ other, ∀ frame ∈ (state.thread other).stack,
      P frame) (here : ∀ frame ∈ new, P frame) :
      ∀ other, ∀ frame ∈ ((state.withThread at_ shared' thread).thread other).stack, P frame := by
    intro other frame member
    by_cases same : other = at_
    · subst same
      rw [State.withThread_self, onward] at member
      rcases List.mem_append.mp member with fresh | waiting
      · exact here frame fresh
      · exact others other frame (below frame waiting)
    · rw [State.withThread_other same] at member
      exact others other frame member
  refine ⟨local_, fun other => ?_, ?_, fun serializer some_ => ?_, ?_, unput⟩
  · by_cases same : other = at_
    · subst same
      rw [State.withThread_self]
      exact entered
    · rw [State.withThread_other same]
      exact covered.entered other
  · exact threads (fun frame => ∀ serializer, ∀ left ∈ frame.batch serializer,
      (shared'.taskQueue serializer).length ≤ left) before bounded
  · -- The call that served the queue does so still, or it has left one that does.
    obtain ⟨other, frame, member, serves⟩ := served serializer some_
    by_cases same : other = at_
    · subst same
      rw [stack] at member
      rcases List.mem_append.mp member with top | waiting
      · obtain ⟨next, fresh, serves⟩ := carried serializer some_ frame top serves
        exact ⟨other, next,
          by rw [State.withThread_self, onward]; exact List.mem_append_left _ fresh,
          serves⟩
      · exact ⟨other, frame,
          by rw [State.withThread_self, onward]; exact List.mem_append_right _ waiting, serves⟩
    · exact ⟨other, frame, by rw [State.withThread_other same]; exact member, serves⟩
  · exact threads (fun frame => frame.requeues = false) covered.kept requeues

/-- Every step that keeps within the batches keeps what waits covered by the calls in progress. -/
theorem step_covered (linked : program.linkage = perFile) (covered : state.Covered)
    (within : state.WithinBatch label) (taken : step program state label = some next) :
    next.Covered := by
  obtain ⟨local_, unput⟩ := step_puts linked covered.local_ taken
  -- Nothing is put, since no loop has got to its requeue.
  have nothing : state.puts label = [] := by
    cases label with
    | run at_ =>
      simp only [State.puts]
      cases stack : (state.thread at_).stack with
      | nil => rfl
      | cons frame rest =>
        have kept := covered.kept at_ frame (by rw [stack]; exact List.mem_cons_self)
        simp only [List.head?_cons, Option.toList_some, List.flatMap_cons, List.flatMap_nil,
          List.append_nil, requeued]
        split
        · cases kept
        · rfl
    | _ => rfl
  rw [covered.unput, nothing, List.append_nil] at unput
  -- A call from outside begins with an empty stack, and so outside of the slot.
  have begin_ {at_ : ι} {frame : Frame σ τ} (outside : (state.thread at_).stack = [])
      (entered : frame.entered = []) (idle : ∀ serializer, frame.batch serializer = none)
      (kept : frame.requeues = false)
      (local_ : (state.withThread at_ state.shared
        { state.thread at_ with stack := [frame] }).Local) :
      (state.withThread at_ state.shared { state.thread at_ with stack := [frame] }).Covered := by
    have free := covered.entered at_
    rw [outside] at free
    refine covered.moved [] [frame] [] outside rfl local_ covered.unput
      ?_ (by simpa using kept) covered.bounded ?_ covered.served (by simp)
    · rw [List.flatMap_cons, entered]
      exact free
    · intro call member serializer left has
      rw [List.mem_singleton.mp member, idle serializer] at has
      cases has
  unfold step at taken
  split at taken
  · cases taken
  cases label with
  | call at_ outer =>
    simp only at taken
    split at taken <;> cases taken
    rename_i outside
    exact begin_ outside rfl (by simp) rfl local_
  | poll at_ =>
    simp only at taken
    split at taken <;> cases taken
    rename_i outside
    exact begin_ outside rfl (by simp) rfl local_
  | run at_ =>
    simp only at taken
    split at taken <;> cases taken
    rename_i frame rest stack
    have top : frame ∈ (state.thread at_).stack := by rw [stack]; exact List.mem_cons_self
    -- Every batch has room for what waits, and for the task that is being added.
    have room : ∀ other, ∀ call ∈ (state.thread other).stack, ∀ serializer,
        ∀ left ∈ call.batch serializer,
          (state.shared.taskQueue serializer).length + frame.inserts serializer ≤ left := by
      intro other call member serializer left has
      have before := covered.bounded other call member serializer left has
      cases frame with
      | pushInsert target task wasEmpty =>
        simp only [State.WithinBatch, stack] at within
        by_cases same : target = serializer
        · subst same
          have less := within.2 other call member left has
          rw [Frame.inserts, if_pos rfl]
          exact less
        · simpa [Frame.inserts, same] using before
      | _ => exact before
    have entered := covered.entered at_
    rw [stack] at entered
    obtain ⟨entered', new, onward, requeues, serves⟩ := frameStep_batched linked
      covered.local_.unpolled (covered.local_.free at_)
      (fun distributor poll => by
        have own := covered.local_.frames at_ frame top
        rw [poll] at own
        exact own)
      entered (room at_ frame top) (covered.kept at_ frame top)
    refine covered.moved [frame] new rest stack onward local_ unput entered' requeues
      ?_ (fun next fresh serializer left has => (serves serializer).bounded next fresh left has)
      ?_ ?_
    · intro other call member serializer left has
      exact ((serves serializer).longer).trans (room other call member serializer left has)
    · intro serializer some_
      -- What waits has waited before, or the push was told who serves it.
      by_cases waited : state.shared.taskQueue serializer = []
      · cases frame with
        | pushInsert target task wasEmpty =>
          by_cases same : target = serializer
          · subst same
            simp only [State.WithinBatch, stack] at within
            exact within.1
          · have longer := (serves serializer).longer
            rw [waited] at longer
            simp only [Frame.inserts, same, if_false, List.length_nil] at longer
            exact absurd (List.length_eq_zero_iff.mp (Nat.le_zero.mp longer)) some_
        | _ =>
          have longer := (serves serializer).longer
          rw [waited] at longer
          exact absurd (List.length_eq_zero_iff.mp (Nat.le_zero.mp longer)) some_
      · exact covered.served serializer waited
    · intro serializer some_ call member has
      obtain rfl := List.mem_singleton.mp member
      exact (serves serializer).carried has some_
  | setMinLevel level =>
    cases taken
    exact ⟨local_, covered.entered, covered.bounded, covered.served, covered.kept, unput⟩

variable [Fintype ι]

/-- A step by which a release fails stays inside of the `clear` that has made it. -/
theorem step_unsound (kept : state.Kept) (taken : step program state label = some next)
    (failed : ¬ next.shared.Sound) : ¬ next.Quiet := by
  have running := step_running taken
  have sound := (Shared.SameTasks.refl running).sound
  unfold step at taken
  split at taken
  · cases taken
  cases label with
  | call at_ outer =>
    simp only at taken
    split at taken <;> cases taken
    exact absurd sound failed
  | poll at_ =>
    simp only at taken
    split at taken <;> cases taken
    exact absurd sound failed
  | run at_ =>
    simp only at taken
    split at taken <;> cases taken
    rename_i frame rest stack
    have counted := kept.counted at_ frame (by rw [stack]; exact List.mem_cons_self)
    obtain ⟨new, onward, move⟩ := frameStep_tasks program running (state.thread at_).slot rest
      counted fun serializer task member => (kept.numbered.queued serializer task member).2.1
    obtain ⟨serializer, rfl, alive⟩ := move.unsound sound failed
    -- The loop of `clear` goes on to its next test, or it stays at its pop.
    intro quiet
    have top := quiet at_
    rw [State.withThread_self] at top
    simp only [frameStep, Frame.touched, Option.any_some, alive, Bool.false_eq_true, if_false,
      clearStep] at top
    split at top <;> cases top
  | setMinLevel level =>
    cases taken
    exact absurd sound failed

omit [DecidableEq ι] in
/-- In a covered and quiet state, every task that was accepted has been started. -/
theorem State.Covered.started (covered : state.Covered) (kept : state.Kept) (quiet : state.Quiet)
    {serializer : σ} {id : Nat} (pushed : id ∈ state.shared.pushed serializer) :
    id ∈ state.shared.started serializer := by
  have requested := kept.numbered.pushed serializer id pushed
  have place := kept.place serializer id requested
  have begun := kept.begun serializer id requested
  -- No call holds the task, and it is on no queue, so it has been destroyed behind its turn.
  have unheld : state.totalHeld (Held.numbered id) = 0 := by
    rw [totalHeld_eq_zero]
    intro at_ held member
    obtain ⟨frame, inside, holds⟩ := List.mem_flatMap.mp member
    have idle := List.all_eq_true.mp (quiet at_) frame inside
    cases frame with
    | calls | requestTask => cases holds
    | _ => cases idle
  have unqueued : state.shared.queuedCount serializer id = 0 := by
    simp [Shared.queuedCount, covered.quiet quiet serializer]
  have unbegun := totalHeld_numberedAt unheld .begun
  exact List.count_pos_iff.mp (by omega)

omit [Fintype ι] in
/-- The tasks that are accepted are started, by the push that accepts them or by later polls. -/
structure State.BacklogsReach (program : Program σ τ) (state : State ι σ τ) : Prop where
  polled : ∀ put ∈ state.shared.puts, put.pending = true →
    put.distributor = program.linkage .workerThread
  invoked : state.Quiet → ∀ serializer, ∀ id ∈ state.shared.pushed serializer,
    id ∈ state.shared.started serializer ∨
      ∃ at_, (state.thread at_).stack = [] ∧ Reached program at_ state serializer id

/--
Backlogs reach the workers while every push finds room in the batches in progress.

The distributor that `push` and the requeue use is the copy of `TaskSerializer.cc`, and the one
that the workers poll is never put anything. So what is left behind a full batch is lost, and no
task is lost while nothing is left.
-/
theorem backlogs_reach_workers (linked : program.linkage = perFile)
    {labels : List (Label ι σ τ)} {finish : State ι σ τ}
    (run : Run (step program) State.WithinBatch (State.init ι σ τ) labels finish) :
    finish.BacklogsReach program := by
  -- The batches cover what waits, and each task keeps its place, until a release fails.
  obtain ⟨covered, kept, stopped⟩ : finish.Covered ∧ (finish.shared.Sound → finish.Kept) ∧
      (¬ finish.shared.Sound → ¬ finish.Quiet) := by
    refine run.invariant (P := fun state : State ι σ τ => state.Covered ∧
      (state.shared.Sound → state.Kept) ∧ (¬ state.shared.Sound → ¬ state.Quiet))
      ⟨State.init_covered, fun _ => State.init_kept, fun failed => ?_⟩ ?_
    · exact absurd (Shared.SameTasks.refl rfl).sound failed
    · intro state label next before within taken
      have kept := before.2.1 (Shared.SameTasks.refl (step_running taken)).sound
      exact ⟨step_covered linked before.1 within taken, step_kept kept taken,
        step_unsound kept taken⟩
  refine ⟨fun put member => ?_, fun quiet serializer id pushed => .inl ?_⟩
  · rw [covered.unput] at member
    cases member
  · exact covered.started (kept (not_not.mp fun failed => stopped failed quiet)) quiet pushed

/-- A program over one serializer whose tasks make no calls, with the names as in the header. -/
def ownCopies : Program Unit Unit where
  body := fun _ => []
  logHandler := ()
  linkage := perFile

/-- A thread requests a task of the one serializer, and takes steps. -/
def requestsOf (thread : Fin 2) (steps : Nat) : List (Label (Fin 2) Unit Unit) :=
  .call thread (.requestTask () ()) :: List.replicate steps (.run thread)

/-- A backlog of two tasks is processed in one batch. -/
theorem backlogs_reach_workers_two :
    ∃ finish : State (Fin 2) Unit Unit,
      finish.BacklogsReach ownCopies ∧ finish.Quiet ∧ finish.shared.started () = [0, 1] := by
  -- The second request comes while the first task is processed, and the batch takes both.
  have executed : (execWhile (step ownCopies) State.WithinBatch (State.init (Fin 2) Unit Unit)
      (requestsOf 0 4 ++ requestsOf 1 5 ++ List.replicate 15 (.run 0))).any fun finish =>
        ((finish.thread 0).stack.isEmpty && (finish.thread 1).stack.isEmpty) &&
          finish.shared.started () = [0, 1] := by decide
  obtain ⟨finish, reached, left⟩ := (Option.any_eq_true _ _).mp executed
  simp only [Bool.and_eq_true, List.isEmpty_iff, decide_eq_true_eq] at left
  obtain ⟨⟨first, second⟩, started⟩ := left
  exact ⟨finish, backlogs_reach_workers rfl (.of_execWhile reached),
    Fin.forall_fin_two.mpr ⟨by simp [first], by simp [second]⟩, started⟩

/--
A backlog of thirty-one tasks leaves its last one behind.

While the first thread is about to process its task, the second one pushes thirty more. The first
thread stops after thirty tasks, and requeues the serializer where no worker polls, so that none of
them ever starts the last task.
-/
theorem backlog_fails :
    ∃ (labels : List (Label (Fin 2) Unit Unit)) (finish : State (Fin 2) Unit Unit),
      Run (step ownCopies) anyStep (State.init (Fin 2) Unit Unit) labels finish ∧
      (∃ put ∈ finish.shared.puts, put.pending = true ∧
        put.distributor ≠ ownCopies.linkage .workerThread) ∧
      (finish.Quiet ∧ 30 ∈ finish.shared.pushed () ∧ 30 ∉ finish.shared.started () ∧
        ∀ at_, (finish.thread at_).stack = [] → ¬ Reached ownCopies at_ finish () 30) ∧
      ¬ finish.BacklogsReach ownCopies := by
  -- After a full batch, tasks are left, and the loop of the push requeues its serializer.
  have executed : (exec (step ownCopies) (State.init (Fin 2) Unit Unit)
      (requestsOf 0 4 ++ (List.replicate 30 (requestsOf 1 5)).flatten ++
        List.replicate 127 (.run 0))).any fun finish =>
          ((finish.thread 0).stack.isEmpty && (finish.thread 1).stack.isEmpty) &&
          (finish.shared.pushed ()).contains 30 && !(finish.shared.started ()).contains 30 &&
          finish.shared.puts.any fun put => put.pending && put.distributor ≠ .workerThread := by
    decide +kernel
  obtain ⟨finish, reached, left⟩ := (Option.any_eq_true _ _).mp executed
  simp only [Bool.and_eq_true, List.isEmpty_iff, Bool.not_eq_true', List.contains_iff_mem,
    List.any_eq_true, decide_eq_true_eq] at left
  obtain ⟨⟨⟨⟨first, second⟩, pushed⟩, unstarted⟩, put, member, pending, elsewhere⟩ := left
  replace unstarted : 30 ∉ finish.shared.started () := by
    intro started
    rw [List.contains_iff_mem.mpr started] at unstarted
    cases unstarted
  have run := Run.of_exec reached
  have own : finish.Local := run.invariant State.init_covered.local_
    fun _ _ _ own _ taken => (step_puts rfl own taken).1
  -- A free thread that goes on polling starts nothing more.
  have unreached (at_ : Fin 2) (outside : (finish.thread at_).stack = []) :
      ¬ Reached ownCopies at_ finish () 30 := fun later =>
    unstarted (later.started rfl own outside)
  have quiet : finish.Quiet := Fin.forall_fin_two.mpr ⟨by simp [first], by simp [second]⟩
  refine ⟨_, finish, run, ⟨put, member, pending, elsewhere⟩, ⟨quiet, pushed, unstarted, unreached⟩,
    fun reach => ?_⟩
  exact elsewhere (reach.polled put member pending)

end Braid.Task
