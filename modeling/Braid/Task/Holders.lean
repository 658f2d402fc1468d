import Braid.Task.Lifetimes
import Braid.Task.Tame

/-! Who is still going to use a serializer, and when its end has begun. -/

namespace Braid.Task

open Counting

variable {ι σ τ : Type}

/-- The serializer that a task clears when it is invoked. -/
@[simp] def Func.cleared : Func σ τ → Option σ
  | .clear serializer => some serializer
  | _ => none

/-- The serializer that a call clears, or whose `clear` it has taken off the queue. -/
@[simp] def Frame.ends : Frame σ τ → Option σ
  | .process _ locals => locals.task.bind fun task => task.func.cleared
  | frame => frame.clears

/-- The serializer in which a call is about to store `DESTROYING`. -/
@[simp] def Frame.stores : Frame σ τ → Option σ
  | .destroyStore serializer => some serializer
  | _ => none

/-- The next step of a call makes another call on a serializer. -/
@[simp] def Frame.Calls (program : Program σ τ) (serializer : σ) : Frame σ τ → Prop
  | .calls (call :: _) => call.serializer program = serializer
  | _ => False

/-- The next step of a process loop pops the task that clears its serializer. -/
@[simp] def Frame.Pops (shared : Shared σ τ) (serializer : σ) : Frame σ τ → Prop
  | .process .pop locals =>
    locals.serializer = serializer ∧
      ∃ task ∈ (shared.taskQueue serializer).head?, task.func.cleared = some serializer
  | _ => False

variable [DecidableEq σ]

/-- Whether a call is going to use a serializer. A `clear` belongs to the call that runs it. -/
def Frame.holds (serializer : σ) (frame : Frame σ τ) : Nat :=
  if frame.clears = none ∧ frame.uses = some serializer then 1 else 0

/--
What a step of a thread does to the calls and entries that are still going to use a serializer.

They are handed on, and none is added but by a call from application code. A `clear` is run by
the loop that waits below it, and it is run where its task was popped or where a loop deletes.
-/
structure Steered (program : Program σ τ) (shared : Shared σ τ) (frame : Frame σ τ)
    (rest : List (Frame σ τ)) (result : Shared σ τ × Thread σ τ) (new : List (Frame σ τ)) :
    Prop where
  stack : result.2.stack = new ++ rest
  holds : ∀ serializer, ¬ frame.Calls program serializer →
    tally (Frame.holds serializer) new +
        (result.1.serializerQueue .taskDistributor).count serializer ≤
      frame.holds serializer + (shared.serializerQueue .taskDistributor).count serializer
  ends : ∀ next ∈ new, ∀ serializer, next.ends = some serializer →
    frame.ends = some serializer ∨ frame.condemns = some serializer ∨ frame.Pops shared serializer
  stores : ∀ next ∈ new, ∀ serializer, next.stores = some serializer →
    frame.stores = some serializer ∨ frame.Calls program serializer
  clears : ∀ next ∈ new, ∀ serializer, next.clears = some serializer →
    new = [next] ∧ frame.clears = some serializer ∨
      ∃ holder, new = [next, holder] ∧ holder.holds serializer = 1

variable {program : Program σ τ} {shared after : Shared σ τ} {frame : Frame σ τ}
  {rest new : List (Frame σ τ)} {slot : SourceFile → Option σ}

omit [DecidableEq σ] in
/-- Releasing a task queues no serializer. -/
@[simp] theorem release_serializerQueue (task : ITask σ τ) :
    (shared.release task).serializerQueue = shared.serializerQueue := by
  unfold Shared.release
  split
  · rfl
  · split <;> rfl

omit [DecidableEq σ] in
/-- Dropping the task of a turn queues no serializer. -/
@[simp] theorem drop_serializerQueue (task : Option (ITask σ τ)) :
    (shared.drop task).serializerQueue = shared.serializerQueue := by
  cases task <;> simp [Shared.drop]

/-- A step that queues no serializer and leaves a call in the place of another one. -/
theorem Steered.onward {thread : Thread σ τ} {next : Frame σ τ}
    (same : after.serializerQueue = shared.serializerQueue) (stack : thread.stack = next :: rest)
    (uses : next.uses = none ∨ next.uses = frame.uses)
    (others : next.clears = frame.clears ∧ next.stores = frame.stores)
    (ends : ∀ serializer, next.ends = some serializer →
      frame.ends = some serializer ∨ frame.Pops shared serializer) :
    Steered program shared frame rest (after, thread) [next] where
  stack := stack
  holds serializer _ := by
    rw [same]
    refine Nat.add_le_add_right ?_ _
    -- The call that goes on holds what it held before, or nothing any more.
    rw [tally_cons, tally_nil, Nat.add_zero, Frame.holds, Frame.holds, others.1]
    rcases uses with none_ | same
    · simp [none_]
    · rw [same]
  ends other member serializer ended := by
    obtain rfl := List.mem_singleton.mp member
    exact (ends serializer ended).imp_right .inr
  stores other member serializer stored := by
    obtain rfl := List.mem_singleton.mp member
    exact .inl (others.2 ▸ stored)
  clears other member serializer cleared := by
    obtain rfl := List.mem_singleton.mp member
    exact .inl ⟨rfl, others.1 ▸ cleared⟩

/-- A step that queues no serializer and leaves nothing in the place of its call. -/
theorem Steered.over {thread : Thread σ τ} (same : after.serializerQueue = shared.serializerQueue)
    (stack : thread.stack = rest) : Steered program shared frame rest (after, thread) [] where
  stack := stack
  holds serializer _ := by
    rw [same]
    exact Nat.add_le_add_right (Nat.zero_le _) _
  ends other member := absurd member List.not_mem_nil
  stores other member := absurd member List.not_mem_nil
  clears other member := absurd member List.not_mem_nil

/-- A step that queues no serializer, and calls a function above its own call. -/
theorem Steered.above {thread : Thread σ τ} {callee own : Frame σ τ}
    (same : after.serializerQueue = shared.serializerQueue)
    (stack : thread.stack = callee :: own :: rest) (kept : own.uses = frame.uses)
    (unheld : callee.clears = none → callee.uses = none)
    (clears : frame.clears = none ∧ own.clears = none)
    (ends : own.ends = frame.ends) (stores : callee.stores = none ∧ own.stores = none)
    (begun : ∀ serializer, callee.clears = some serializer → frame.uses = some serializer ∧
      (frame.ends = some serializer ∨ frame.condemns = some serializer))
    (other : callee.ends = callee.clears) :
    Steered program shared frame rest (after, thread) [callee, own] where
  stack := stack
  holds serializer _ := by
    rw [same]
    refine Nat.add_le_add_right ?_ _
    -- The callee holds nothing: it is a `clear`, or it uses no serializer.
    have none_ : callee.holds serializer = 0 := by
      rw [Frame.holds, if_neg]
      rintro ⟨quiet, uses⟩
      rw [unheld quiet] at uses
      cases uses
    rw [tally_cons, tally_cons, tally_nil, none_, Frame.holds, Frame.holds, clears.1, clears.2,
      kept]
    omega
  ends next member serializer ended := by
    rcases List.mem_cons.mp member with rfl | member
    · -- What the callee clears is what the call was about to end.
      rcases (begun serializer (other ▸ ended)).2 with ends | condemns
      · exact .inl ends
      · exact .inr (.inl condemns)
    · obtain rfl := List.mem_singleton.mp member
      exact .inl (ends ▸ ended)
  stores next member serializer stored := by
    rcases List.mem_cons.mp member with rfl | member
    · rw [stores.1] at stored
      cases stored
    · obtain rfl := List.mem_singleton.mp member
      rw [stores.2] at stored
      cases stored
  clears next member serializer cleared := by
    rcases List.mem_cons.mp member with rfl | member
    · -- The call below the callee is the one that holds what is cleared.
      refine .inr ⟨own, rfl, ?_⟩
      rw [Frame.holds, if_pos ⟨clears.2, kept.trans (begun serializer cleared).1⟩]
    · obtain rfl := List.mem_singleton.mp member
      rw [clears.2] at cleared
      cases cleared

/-- A call from application code adds what uses its own serializer, and no other. -/
theorem Steered.made {call : Call σ τ} {calls : List (Call σ τ)} {thread : Thread σ τ}
    (stack : thread.stack = new ++ rest)
    (uses : ∀ next ∈ new, ∀ serializer, next.uses = some serializer →
      call.serializer program = serializer)
    (clears : ∀ next ∈ new, next.clears = none ∧ next.ends = none) :
    Steered program shared (.calls (call :: calls)) rest (shared, thread) new where
  stack := stack
  holds serializer other := by
    refine Nat.add_le_add_right ?_ _
    -- What is new uses the serializer of the call, and this is another one.
    have none_ : tally (Frame.holds serializer) new = 0 := by
      rw [tally_eq_zero]
      intro next member
      rw [Frame.holds, if_neg]
      rintro ⟨-, used⟩
      exact other (uses next member serializer used)
    omega
  ends next member serializer ended := by
    rw [(clears next member).2] at ended
    cases ended
  stores next member serializer stored := by
    -- A store that is still to be made is one on the serializer of the call.
    refine .inr (uses next member serializer ?_)
    cases next with
    | destroyStore => exact stored
    | _ => cases stored
  clears next member serializer cleared := by
    rw [(clears next member).1] at cleared
    cases cleared

/-- The calls of application code hold only what they are made on. -/
theorem callStep_steered (calls : List (Call σ τ)) :
    ∃ new, Steered program shared (.calls calls) rest (callStep program shared ⟨slot, rest⟩ calls)
      new := by
  -- One case for each kind of call that application code makes next.
  cases calls with
  | nil => exact ⟨[], .over rfl rfl⟩
  | cons call calls =>
    cases call with
    | requestTask serializer task =>
      exact ⟨[.requestTask serializer (.user task), .calls calls],
        .made rfl (by simp [Frame.uses, Call.serializer]) (by simp)⟩
    | log level =>
      simp only [callStep]
      split
      · exact ⟨[.calls calls], .made rfl (by simp [Frame.uses]) (by simp)⟩
      · exact ⟨[.requestTask program.logHandler .writeLog, .calls calls],
          .made rfl (by simp [Frame.uses, Call.serializer]) (by simp)⟩
    | setDestroy serializer =>
      exact ⟨[.requestTask serializer (.clear serializer), .destroyStore serializer, .calls calls],
        .made rfl (by simp [Frame.uses, Call.serializer]) (by simp)⟩

/-- A serializer that is put on the queue was held by the call that puts it. -/
theorem put_steered {current : σ} {distributor : SourceFile} {new : List (Frame σ τ)}
    {thread : Thread σ τ}
    (stack : thread.stack = new ++ rest) (uses : frame.uses = some current)
    (clears : frame.clears = none) (released : ∀ next ∈ new, next.uses = none)
    (cleared : ∀ next ∈ new, next.clears = none ∧ next.stores = none)
    (ends : ∀ next ∈ new, next.ends = frame.ends) :
    Steered program shared frame rest (shared.put distributor current, thread) new where
  stack := stack
  holds serializer _ := by
    have none_ : tally (Frame.holds serializer) new = 0 := by
      rw [tally_eq_zero]
      intro next member
      rw [Frame.holds, released next member, if_neg (by simp)]
    -- The call gives up its hold, and the entry is the hold that comes in its place.
    by_cases there : distributor = .taskDistributor
    · simp only [none_, Frame.holds, uses, clears, Shared.put, there, Function.update_self,
        List.count_append, List.count_singleton, true_and, Option.some.injEq, beq_iff_eq]
      omega
    · simp only [none_, Shared.put, Function.update_of_ne (Ne.symm there)]
      omega
  ends next member serializer ended := .inl (ends next member ▸ ended)
  stores next member serializer stored := by
    rw [(cleared next member).2] at stored
    cases stored
  clears next member serializer clear := by
    rw [(cleared next member).1] at clear
    cases clear

/-- A step of the process loop through its slot hands on what the loop holds. -/
theorem processStep_steered {point : ProcessPoint} {locals : ProcessLocals σ τ}
    (place : point ≠ .enter ∧ point ≠ .invoke ∧ point ≠ .running ∧ point ≠ .exit)
    (own : shared.OwnTasks) :
    ∃ new, Steered program shared (.process point locals) rest
      (processStep shared ⟨slot, rest⟩ locals locals.serializer point) new := by
  -- The places of the loop in the order of the source; only the pop may begin an end.
  cases point with
  | pop =>
    simp only [processStep]
    split
    · exact ⟨[.process .state { locals with task := none }], .onward (drop_serializerQueue _) rfl
        (.inr (by simp [Frame.uses])) ⟨rfl, rfl⟩ (by simp)⟩
    · rename_i task others first
      refine ⟨[.process .invoke _], .onward (drop_serializerQueue _) rfl
        (.inr (by simp [Frame.uses])) ⟨rfl, rfl⟩ fun serializer ended => .inr ?_⟩
      -- A `clear` comes from the queue of the serializer that it clears.
      have cleared : task.func.cleared = some serializer := by simpa using ended
      have same : serializer = locals.serializer := by
        have clears := own locals.serializer task (by rw [first]; exact List.mem_cons_self)
        cases func : task.func with
        | clear target =>
          rw [func] at clears cleared
          exact (Option.some.inj cleared).symm.trans clears
        | _ => rw [func] at cleared; cases cleared
      subst same
      exact ⟨rfl, task, by simp [first], cleared⟩
  | state =>
    simp only [processStep]
    split
    · exact ⟨[.process .delete locals], .onward rfl rfl (.inr (by simp [Frame.uses])) ⟨rfl, rfl⟩
        fun _ => .inl⟩
    · exact ⟨[.process .empty locals], .onward rfl rfl (.inr (by simp [Frame.uses])) ⟨rfl, rfl⟩
        fun _ => .inl⟩
  | delete =>
    -- The destructor runs `clear` above the loop that is about to free.
    exact ⟨[.clearEmpty locals.serializer, .process .free locals], .above rfl rfl
      (by simp [Frame.uses]) (by simp) (by simp) rfl (by simp)
      (by simp [Frame.uses, Frame.condemns]) rfl⟩
  | free =>
    exact ⟨[.process .exit locals], .onward rfl rfl (.inl (by simp [Frame.uses])) ⟨rfl, rfl⟩
      fun _ => .inl⟩
  | empty =>
    simp only [processStep]
    -- With an empty queue the loop lets go of the serializer, and otherwise it will queue it.
    split
    · exact ⟨[.process .exit locals], .onward rfl rfl (.inl (by simp [Frame.uses])) ⟨rfl, rfl⟩
        fun _ => .inl⟩
    · exact ⟨[.process .requeue locals], .onward rfl rfl (.inr (by simp [Frame.uses])) ⟨rfl, rfl⟩
        fun _ => .inl⟩
  | requeue =>
    exact ⟨[.process .exit locals], put_steered rfl (by simp [Frame.uses]) rfl
      (by simp [Frame.uses]) (by simp) (by simp)⟩
  | enter => exact absurd rfl place.1
  | invoke => exact absurd rfl place.2.1
  | running => exact absurd rfl place.2.2.1
  | exit => exact absurd rfl place.2.2.2

/-- Every step of a thread hands on what its call holds, and begins a `clear` where it may. -/
theorem frameStep_steered (linked : program.linkage = oneCopy)
    (shape : Shape (slot .taskDistributor) (frame :: rest)) (own : frame.Own)
    (tasks : shared.OwnTasks) :
    ∃ new, Steered program shared frame rest (frameStep program shared ⟨slot, rest⟩ frame) new := by
  have ownCopy : program.linkage .taskDistributor = .taskDistributor := by rw [linked]; rfl
  have slotCopy : program.linkage .taskSerializer = .taskDistributor := by rw [linked]; rfl
  -- A fault leaves the call where it is.
  have stopped (fault : Fault) : ∃ new, Steered program shared frame rest
      (shared.stop fault, ⟨slot, frame :: rest⟩) new :=
    ⟨[frame], .onward rfl rfl (.inr rfl) ⟨rfl, rfl⟩ fun _ => .inl⟩
  simp only [frameStep, ownCopy]
  split
  · exact stopped .usedAfterDelete
  cases frame with
  | calls calls => exact callStep_steered calls
  | requestTask serializer func =>
    simp only [requestTaskStep]
    split
    · exact ⟨[], .over rfl rfl⟩
    · exact ⟨[.pushEmpty serializer _], .onward rfl rfl (.inr rfl) ⟨rfl, rfl⟩ fun _ => .inl⟩
  | pushEmpty serializer task =>
    exact ⟨[.pushInsert serializer task _], .onward rfl rfl (.inr rfl) ⟨rfl, rfl⟩ fun _ => .inl⟩
  | pushInsert serializer task wasEmpty =>
    cases wasEmpty with
    | true =>
      exact ⟨[.pushHandOver serializer], .onward rfl rfl (.inr rfl) ⟨rfl, rfl⟩ fun _ => .inl⟩
    | false => exact ⟨[], .over rfl rfl⟩
  | pushHandOver serializer =>
    -- With a free slot the thread processes the serializer itself, and otherwise it queues it.
    simp only [pushHandOverStep, slotCopy]
    split
    · exact ⟨[.process .enter _], .onward rfl rfl (.inr (by simp [Frame.uses])) ⟨rfl, rfl⟩
        (by simp)⟩
    · exact ⟨[], put_steered rfl rfl rfl (by simp) (by simp) (by simp)⟩
  | poll distributor =>
    obtain rfl : distributor = .taskDistributor := own
    simp only [pollStep, ownCopy]
    split
    · exact stopped .slotTaken
    · split
      · exact ⟨[], .over rfl rfl⟩
      · rename_i serializer others queue
        refine ⟨[.process .enter { distributor := .taskDistributor, serializer := serializer }],
          rfl, fun target _ => ?_, by simp, by simp, by simp⟩
        -- The entry that comes off the queue is held by the loop from now on.
        simp only [tally_cons, tally_nil, Frame.holds, Frame.clears, Frame.uses,
          Function.update_self, queue, List.count_cons, beq_iff_eq, true_and]
        by_cases same : serializer = target
        · simp [same]; omega
        · simp [same]
  | process point locals =>
    obtain ⟨taken, -⟩ := shape.process
    cases point with
    | enter =>
      simp only [processEnterStep, ownCopy]
      split
      · exact stopped .slotTaken
      · exact ⟨[.process .pop locals], .onward rfl rfl (.inr (by simp [Frame.uses])) ⟨rfl, rfl⟩
          fun _ => .inl⟩
    | invoke =>
      simp only [invokeStep]
      split
      · exact ⟨[.process .running locals], .onward rfl rfl (.inr (by simp [Frame.uses])) ⟨rfl, rfl⟩
          fun _ => .inl⟩
      · rename_i task popped
        have clears := own task popped
        -- What the task runs is called above the loop, and only a `clear` ends a serializer.
        cases invoked : task.func with
        | user body =>
          exact ⟨[.calls (program.body body), .process .running locals], .above rfl rfl
            (by simp [Frame.uses]) (by simp [Frame.uses]) (by simp) rfl (by simp) (by simp) rfl⟩
        | clear target =>
          -- The task that is invoked is the one that the loop holds.
          rw [invoked] at clears
          obtain rfl : target = locals.serializer := clears
          exact ⟨[.clearEmpty locals.serializer, .process .running locals], .above rfl rfl
            (by simp [Frame.uses]) (by simp) (by simp) rfl (by simp)
            (by simp [Frame.uses, popped, invoked]) rfl⟩
        | writeLog =>
          exact ⟨[.process .running locals], .onward rfl rfl (.inr (by simp [Frame.uses]))
            ⟨rfl, rfl⟩ fun _ => .inl⟩
    | running =>
      simp only [turnStep]
      split
      · exact ⟨[.process .state _], .onward rfl rfl (.inr (by simp [Frame.uses])) ⟨rfl, rfl⟩
          fun _ => .inl⟩
      · exact ⟨[.process .pop _], .onward rfl rfl (.inr (by simp [Frame.uses])) ⟨rfl, rfl⟩
          fun _ => .inl⟩
    | exit => exact ⟨[], .over (drop_serializerQueue _) rfl⟩
    | pop | state | delete | free | empty | requeue =>
      simp only [reduceCtorEq, if_false] at taken
      simp only [taken]
      exact processStep_steered (by simp) tasks
  | destroyStore serializer => exact ⟨[], .over rfl rfl⟩
  | clearEmpty serializer =>
    simp only [clearStep]
    split
    · exact ⟨[.clearStore serializer], .onward rfl rfl (.inr rfl) ⟨rfl, rfl⟩ fun _ => .inl⟩
    · exact ⟨[.clearPop serializer], .onward rfl rfl (.inr rfl) ⟨rfl, rfl⟩ fun _ => .inl⟩
  | clearPop serializer =>
    simp only [clearStep]
    split
    · exact stopped .unwrittenTask
    · exact ⟨[.clearEmpty serializer], .onward (release_serializerQueue _) rfl (.inr rfl) ⟨rfl, rfl⟩
        fun _ => .inl⟩
  | clearStore serializer => exact ⟨[], .over rfl rfl⟩

end Braid.Task
