import Braid.Memory.ThreadLocalCache
import Mathlib.Logic.Function.Basic

/-! The object pool, as threads that acquire and release slots one atomic step at a time. -/

namespace Braid.Memory

/-- `ObjectPool::Config`. -/
structure Config where
  initialCount : Nat := 128
  chunkSize : Nat := 128
  tlsCacheSize : Nat := 32
  batchSize : Nat := 16
  deriving DecidableEq, Repr

/-- `DEFAULT_BATCH_SIZE`, the size of the local arrays. -/
def defaultBatchSize : Nat := 16

/-- What `allocate_chunk` was called by, and returns to. -/
inductive Caller where
  | constructor
  | acquire
  deriving DecidableEq, Repr

/-- The place of a thread inside of a call, with the local variables that are still read. -/
inductive Place where
  -- `acquire`: the cache, the free queue, and the construction of the object.
  | tryAcquire
  | pop
  | construct (obj : Slot)
  | pushUnconstructed (obj : Slot)
  -- `batch_steal_from_central`: the loop of pops, and the rest of the batch.
  | steal (i : Nat) (batch : List Slot)
  | addBatch (result : Slot) (objects : List Slot)
  -- `allocate_chunk`, one place for each of its atomic steps.
  | testAndSet (count : Nat) (caller : Caller)
  | newChunk (count : Nat) (caller : Caller)
  | clearFailed (caller : Caller)
  | pushSlot (chunk : MemoryChunk) (i : Nat) (caller : Caller)
  | loadHead (chunk : MemoryChunk) (caller : Caller)
  | exchange (chunk : MemoryChunk) (oldHead : List MemoryChunk) (caller : Caller)
  | addTotal (chunk : MemoryChunk) (caller : Caller)
  | clear (caller : Caller)
  -- `acquire`, after `allocate_chunk` returned true or false.
  | popAllocated
  | retry (n : Nat)
  -- `release`: the cache, the free queue, and `batch_return_to_central`.
  | tryRelease (obj : Slot)
  | pushReleased (obj : Slot)
  | shouldBatchReturn
  | extract
  | pushBatch (batch : List Slot)
  deriving DecidableEq, Repr

/-- Whether the pool may be used yet: the threads wait for the one that constructs it. -/
inductive Lifetime where
  | unborn
  | constructing
  | ready
  deriving DecidableEq, Repr

/-- Why the program stops: a write past the end of the local array of a batch. -/
inductive Fault where
  | batchOverflow
  deriving DecidableEq, Repr

/--
What the threads share.

A pointer to a chunk stands for the list of the chunks from it on, since a chunk is never changed
once it is published and no two chunks are the same.
-/
structure Shared where
  freeQueue : List Slot
  chunkHead : List MemoryChunk
  totalAllocated : Nat
  allocating : Bool
  lifetime : Lifetime
  -- Every chunk that `operator new` has delivered, and the slots that callers hold.
  chunks : List MemoryChunk
  held : List Slot
  -- What the calls of `acquire` have returned, a null pointer being `none`.
  returned : List (Option Slot)
  fault : Option Fault

/-- A thread: its cache, and its place inside of a call. -/
structure Thread where
  cache : ThreadLocalCache
  place : Option Place

/-- A state of the pool and of the threads that use it. -/
structure State (ι : Type) where
  shared : Shared
  thread : ι → Thread

/-- The state before the pool is constructed. -/
def State.init (ι : Type) (config : Config) : State ι where
  shared :=
    { freeQueue := []
      chunkHead := []
      totalAllocated := 0
      allocating := false
      lifetime := .unborn
      chunks := []
      held := []
      returned := []
      fault := none }
  -- A cache is made at the first call of its thread, with the sizes of the pool.
  thread := fun _ => ⟨⟨config.tlsCacheSize, config.batchSize, []⟩, none⟩

variable (config : Config)

/-- `acquire` returns to its caller, with a slot that the caller holds from now on or with null. -/
def acquired (shared : Shared) (thread : Thread) (result : Option Slot) : Shared × Thread :=
  ({ shared with
      held := result.toList ++ shared.held
      returned := shared.returned ++ [result] },
    { thread with place := none })

/-- `allocate_chunk` returns to its caller. -/
def allocated (shared : Shared) (thread : Thread) (result : Bool) : Caller → Shared × Thread
  -- The constructor ignores the result, and the pool is ready for use.
  | .constructor => ({ shared with lifetime := .ready }, { thread with place := none })
  | .acquire =>
    (shared, { thread with place := some (if result then .popAllocated else .retry 0) })

/-- The end of the loop of pops in `batch_steal_from_central`. -/
def stealEnd : List Slot → Place
  | [] => .testAndSet config.chunkSize .acquire
  | [result] => .construct result
  | result :: objects => .addBatch result objects

/-- The atomic steps of `acquire` and of the batch it steals. -/
def acquireStep (shared : Shared) (thread : Thread) (fails : Bool) :
    Place → Shared × Thread
  | .tryAcquire =>
    let taken := thread.cache.tryAcquire
    (shared, ⟨taken.2, some (match taken.1 with | some obj => .construct obj | none => .pop)⟩)
  | .pop =>
    match shared.freeQueue with
    | [] => (shared, { thread with place := some (.steal 0 []) })
    | obj :: rest => ({ shared with freeQueue := rest }, { thread with place := some (.construct obj) })
  | .steal i batch =>
    if i < config.batchSize then
      match shared.freeQueue with
      | [] => (shared, { thread with place := some (stealEnd config batch) })
      | obj :: rest =>
        -- The pop writes to the next element of the local array.
        if batch.length < defaultBatchSize then
          ({ shared with freeQueue := rest },
            { thread with place := some (.steal (i + 1) (batch ++ [obj])) })
        else ({ shared with fault := some .batchOverflow }, thread)
    else (shared, { thread with place := some (stealEnd config batch) })
  | .addBatch result objects =>
    (shared, ⟨thread.cache.addBatch objects, some (.construct result)⟩)
  | .popAllocated =>
    match shared.freeQueue with
    | [] => acquired shared thread none
    | obj :: rest => ({ shared with freeQueue := rest }, { thread with place := some (.construct obj) })
  | .retry n =>
    if n < 20 then
      match shared.freeQueue with
      | [] => (shared, { thread with place := some (.retry (n + 1)) })
      | obj :: rest =>
        ({ shared with freeQueue := rest }, { thread with place := some (.construct obj) })
    else acquired shared thread none
  | .construct obj =>
    -- The constructor of the object may throw, and then the slot goes back to the free queue.
    if fails then (shared, { thread with place := some (.pushUnconstructed obj) })
    else acquired shared thread (some obj)
  | .pushUnconstructed obj =>
    acquired { shared with freeQueue := shared.freeQueue ++ [obj] } thread none
  | place => (shared, { thread with place := some place })

/-- The atomic steps of `allocate_chunk`. -/
def allocateStep (shared : Shared) (thread : Thread) (fails : Bool) : Place → Shared × Thread
  | .testAndSet count caller =>
    if shared.allocating then allocated shared thread false caller
    else ({ shared with allocating := true }, { thread with place := some (.newChunk count caller) })
  | .newChunk count caller =>
    -- `operator new` may throw, and then the flag is cleared again.
    if fails then (shared, { thread with place := some (.clearFailed caller) })
    else
      let chunk : MemoryChunk := ⟨shared.chunks.length, count⟩
      ({ shared with chunks := shared.chunks ++ [chunk] },
        { thread with place := some (.pushSlot chunk 0 caller) })
  | .clearFailed caller =>
    allocated { shared with allocating := false } thread false caller
  | .pushSlot chunk i caller =>
    if i < chunk.count then
      ({ shared with freeQueue := shared.freeQueue ++ (chunk.getSlot i).toList },
        { thread with place := some (.pushSlot chunk (i + 1) caller) })
    else (shared, { thread with place := some (.loadHead chunk caller) })
  | .loadHead chunk caller =>
    (shared, { thread with place := some (.exchange chunk shared.chunkHead caller) })
  | .exchange chunk oldHead caller =>
    -- The weak exchange may fail for no reason, and reloads the head when it fails.
    if fails ∨ shared.chunkHead ≠ oldHead then
      (shared, { thread with place := some (.exchange chunk shared.chunkHead caller) })
    else ({ shared with chunkHead := chunk :: oldHead },
      { thread with place := some (.addTotal chunk caller) })
  | .addTotal chunk caller =>
    ({ shared with totalAllocated := shared.totalAllocated + chunk.count },
      { thread with place := some (.clear caller) })
  | .clear caller =>
    allocated { shared with allocating := false } thread true caller
  | place => (shared, { thread with place := some place })

/-- The atomic steps of `release` and of the batch it returns. -/
def releaseStep (shared : Shared) (thread : Thread) : Place → Shared × Thread
  | .tryRelease obj =>
    let kept := thread.cache.tryRelease obj
    (shared, ⟨kept.2, some (if kept.1 then .shouldBatchReturn else .pushReleased obj)⟩)
  | .pushReleased obj =>
    ({ shared with freeQueue := shared.freeQueue ++ [obj] },
      { thread with place := some .shouldBatchReturn })
  | .shouldBatchReturn =>
    (shared, { thread with place := if thread.cache.shouldBatchReturn then some .extract else none })
  | .extract =>
    let extracted := thread.cache.extractBatch defaultBatchSize
    (shared, ⟨extracted.2, some (.pushBatch extracted.1)⟩)
  | .pushBatch [] => (shared, { thread with place := none })
  | .pushBatch (obj :: rest) =>
    ({ shared with freeQueue := shared.freeQueue ++ [obj] },
      { thread with place := some (.pushBatch rest) })
  | place => (shared, { thread with place := some place })

/-- The next atomic step of a thread. -/
def placeStep (shared : Shared) (thread : Thread) (fails : Bool) (place : Place) :
    Shared × Thread :=
  match place with
  | .testAndSet .. | .newChunk .. | .clearFailed .. | .pushSlot .. | .loadHead .. | .exchange ..
  | .addTotal .. | .clear .. => allocateStep shared thread fails place
  | .tryRelease .. | .pushReleased .. | .shouldBatchReturn | .extract | .pushBatch .. =>
    releaseStep shared thread place
  | _ => acquireStep config shared thread fails place

/--
What can happen next: the pool is constructed, a thread makes a call, or a thread takes a step.

A step says whether what can fail in it does: `operator new`, the constructor of an object, or a
weak exchange.
-/
inductive Label (ι : Type) where
  | construct (thread : ι)
  | acquire (thread : ι)
  | release (thread : ι) (obj : Slot)
  | run (thread : ι) (fails : Bool)
  deriving DecidableEq

variable {ι : Type} [DecidableEq ι]

/-- A thread of the state is replaced. -/
def State.withThread (state : State ι) (at_ : ι) (shared : Shared) (thread : Thread) : State ι :=
  ⟨shared, Function.update state.thread at_ thread⟩

/-- One atomic step of the program. -/
def step (state : State ι) (label : Label ι) : Option (State ι) :=
  -- A program that has stopped takes no steps.
  if state.shared.fault.isSome then none
  else match label with
  | .construct at_ =>
    if state.shared.lifetime ≠ .unborn ∨ (state.thread at_).place.isSome then none
    else some (state.withThread at_ { state.shared with lifetime := .constructing }
      { state.thread at_ with place := some (.testAndSet config.initialCount .constructor) })
  | .acquire at_ =>
    if state.shared.lifetime ≠ .ready ∨ (state.thread at_).place.isSome then none
    else some (state.withThread at_ state.shared
      { state.thread at_ with place := some .tryAcquire })
  | .release at_ obj =>
    -- Callers release only what they hold, from whatever thread.
    if (state.thread at_).place.isSome ∨ obj ∉ state.shared.held then none
    else some (state.withThread at_ { state.shared with held := state.shared.held.erase obj }
      { state.thread at_ with place := some (.tryRelease obj) })
  | .run at_ fails =>
    (state.thread at_).place.map fun place =>
      let result := placeStep config state.shared (state.thread at_) fails place
      state.withThread at_ result.1 result.2

variable {config} {state : State ι} {at_ : ι}

/-- The thread that was replaced. -/
@[simp] theorem State.withThread_self (shared : Shared) (thread : Thread) :
    (state.withThread at_ shared thread).thread at_ = thread := Function.update_self ..

/-- The shared part of a state in which a thread was replaced. -/
@[simp] theorem State.withThread_shared (shared : Shared) (thread : Thread) :
    (state.withThread at_ shared thread).shared = shared := rfl

/-- A thread inside of a call of a program that has not stopped takes the step of its place. -/
theorem step_place {place : Place} {fails : Bool} {result : Shared × Thread}
    (running : state.shared.fault = none) (inside : (state.thread at_).place = some place)
    (does : placeStep config state.shared (state.thread at_) fails place = result) :
    step config state (.run at_ fails) = some (state.withThread at_ result.1 result.2) := by
  simp only [step, running, Option.isSome_none, Bool.false_eq_true, if_false, inside,
    Option.map_some, does]

end Braid.Memory
