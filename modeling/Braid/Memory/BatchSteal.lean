import Braid.Memory.Partition

/-! Batches that a thread steals from the free queue, and the configurations that they fit. -/

namespace Braid.Memory

open Transition

/--
No batch does harm.

No local array is overrun, a batch that a thread is about to keep fits its cache whole, and every
slot is in one place.
-/
structure State.BatchSafe {ι : Type} [Fintype ι] (state : State ι) : Prop where
  inArray : state.shared.fault = none
  kept : ∀ at_ result objects, (state.thread at_).place = some (.addBatch result objects) →
    ((state.thread at_).cache.addBatch objects).cache = (state.thread at_).cache.cache ++ objects
  noneLost : state.Partitioned

/-- The books of a configuration whose batches fit say that no batch does harm. -/
theorem State.Accounted.batchSafe {ι : Type} [Fintype ι] {config : Config} {state : State ι}
    (fits : config.Fits) (accounted : state.Accounted config) : state.BatchSafe := by
  refine ⟨accounted.noFault, fun at_ result objects place => ?_, accounted.everywhere⟩
  obtain ⟨sized, tidy⟩ := accounted.tidy at_
  rw [place] at tidy
  obtain ⟨empty, short⟩ := tidy
  -- The cache is empty when a batch is stolen, so a batch but for one slot fits.
  have room := fits.2
  exact ThreadLocalCache.addBatch_fits (by rw [empty, sized, List.length_nil]; omega)

section Thread

variable {ι : Type} [DecidableEq ι] {config : Config}

/-- The next step of a thread, with the state that it shares with the others. -/
def threadStep (config : Config) (state : Shared × Thread) (fails : Bool) :
    Option (Shared × Thread) :=
  if state.1.fault.isSome then none
  else state.2.place.map (placeStep config state.1 state.2 fails)

/-- A thread that is replaced twice is replaced once. -/
@[simp] theorem State.withThread_withThread (state : State ι) (at_ : ι) (first second : Shared)
    (before after : Thread) :
    (state.withThread at_ first before).withThread at_ second after =
      state.withThread at_ second after := by
  simp only [State.withThread, Function.update_idem]

/-- What a thread does on its own is a run of the program, in which the others stand still. -/
theorem run_thread (state : State ι) (at_ : ι) (fails : List Bool) :
    ∀ {start finish : Shared × Thread}, exec (threadStep config) start fails = some finish →
      Run (step config) anyStep (state.withThread at_ start.1 start.2) (fails.map (.run at_))
        (state.withThread at_ finish.1 finish.2) := by
  induction fails with
  | nil =>
    intro start finish executed
    cases executed
    exact .refl
  | cons fails rest ih =>
    intro start finish executed
    obtain ⟨middle, taken, remaining⟩ := Option.bind_eq_some_iff.mp executed
    simp only [threadStep] at taken
    split at taken
    · cases taken
    · next running =>
      obtain ⟨place, inside, does⟩ := Option.map_eq_some_iff.mp taken
      -- The program takes the step of the thread, and then those of the rest.
      have stepped : step config (state.withThread at_ start.1 start.2) (.run at_ fails) =
          some ((state.withThread at_ start.1 start.2).withThread at_ middle.1 middle.2) :=
        step_place (by simpa using running) (by simpa using inside) (by simpa using does)
      rw [State.withThread_withThread] at stepped
      exact (Run.single trivial stepped).trans (ih remaining)

end Thread

section Steal

variable {ι : Type} [DecidableEq ι] {config : Config}

/-- A thread steals a batch from the queue, into an array that still has room. -/
structure Stealing (config : Config) (state : State ι) (at_ : ι) (batch queue : List Slot) :
    Prop where
  running : state.shared.fault = none
  place : (state.thread at_).place = some (.steal batch.length batch)
  empty : (state.thread at_).cache.cache = []
  sized : (state.thread at_).cache.maxCacheSize = config.tlsCacheSize
  queue : state.shared.freeQueue = queue

variable {state : State ι} {at_ : ι} {batch rest : List Slot}

/-- One more pop of the loop. -/
theorem Stealing.pop {obj : Slot} (stealing : Stealing config state at_ batch (obj :: rest))
    (more : batch.length < config.batchSize) (room : batch.length < defaultBatchSize) :
    ∃ next, step config state (.run at_ false) = some next ∧
      Stealing config next at_ (batch ++ [obj]) rest := by
  obtain ⟨running, place, empty, sized, queue⟩ := stealing
  -- The slot is written behind the batch, which has room for it.
  have popped : placeStep config state.shared (state.thread at_) false (.steal batch.length batch) =
      ({ state.shared with freeQueue := rest },
        { state.thread at_ with place := some (.steal (batch.length + 1) (batch ++ [obj])) }) := by
    simp only [placeStep, acquireStep, if_pos more, queue, if_pos room]
  refine ⟨_, step_place running place popped, ?_⟩
  exact ⟨running, by simp, by simpa using empty, by simpa using sized, rfl⟩

/-- As many pops as the loop and the array allow. -/
theorem Stealing.pops (taken : List Slot) :
    ∀ {state : State ι} {batch : List Slot}, Stealing config state at_ batch (taken ++ rest) →
      batch.length + taken.length ≤ config.batchSize →
      batch.length + taken.length ≤ defaultBatchSize →
      ∃ labels next, Run (step config) anyStep state labels next ∧
        Stealing config next at_ (batch ++ taken) rest := by
  -- The induction is on the slots taken, and each of them is one turn of the loop.
  induction taken with
  | nil =>
    intro state batch stealing _ _
    exact ⟨[], state, .refl, by simpa using stealing⟩
  | cons obj taken ih =>
    intro state batch stealing more room
    rw [List.length_cons] at more room
    obtain ⟨next, popped, still⟩ := stealing.pop (by omega) (by omega)
    have length : (batch ++ [obj]).length = batch.length + 1 := List.length_append
    obtain ⟨labels, last, run, stealing⟩ := ih still (by omega) (by omega)
    rw [List.append_assoc, List.singleton_append] at stealing
    exact ⟨_, last, (Run.single trivial popped).trans run, stealing⟩

/-- A pop behind a full array overruns it. -/
theorem Stealing.overrun {obj : Slot} (stealing : Stealing config state at_ batch (obj :: rest))
    (more : batch.length < config.batchSize) (full : ¬ batch.length < defaultBatchSize) :
    ∃ next, step config state (.run at_ false) = some next ∧
      next.shared.fault = some .batchOverflow := by
  obtain ⟨running, place, empty, sized, queue⟩ := stealing
  -- The slot is written behind the end of the array.
  have overruns : placeStep config state.shared (state.thread at_) false
      (.steal batch.length batch) =
        ({ state.shared with fault := some .batchOverflow }, state.thread at_) := by
    simp only [placeStep, acquireStep, if_pos more, queue, if_neg full]
  exact ⟨_, step_place running place overruns, rfl⟩

/-- A loop that has come to its end is about to keep all slots but one. -/
theorem Stealing.finish {result object : Slot} {objects : List Slot}
    (stealing : Stealing config state at_ (result :: object :: objects) rest)
    (done : ¬ (result :: object :: objects).length < config.batchSize) :
    ∃ next, step config state (.run at_ false) = some next ∧
      (next.thread at_).place = some (.addBatch result (object :: objects)) ∧
      (next.thread at_).cache.cache = [] ∧
      (next.thread at_).cache.maxCacheSize = config.tlsCacheSize := by
  obtain ⟨running, place, empty, sized, queue⟩ := stealing
  -- The first slot is the result, and the others are to be cached.
  have ended : placeStep config state.shared (state.thread at_) false
      (.steal (result :: object :: objects).length (result :: object :: objects)) =
        (state.shared,
          { state.thread at_ with place := some (.addBatch result (object :: objects)) }) := by
    simp only [placeStep, acquireStep, if_neg done, stealEnd]
  refine ⟨_, step_place running place ended, ?_⟩
  exact ⟨by simp, by simpa using empty, by simpa using sized⟩

end Steal

section Grown

variable {ι : Type} [DecidableEq ι] {config : Config}

/-- What the threads share after the construction of a pool without slots. -/
def bareShared : Shared := ⟨[], [⟨0, 0⟩], 0, false, .ready, [⟨0, 0⟩], [], [], none⟩

/-- An empty cache. -/
def Config.bareCache (config : Config) : ThreadLocalCache :=
  ⟨config.tlsCacheSize, config.batchSize, []⟩

/-- A pool whose first chunk has no slots becomes ready without one. -/
theorem construct_bare (noSlots : config.initialCount = 0) (at_ : ι) :
    ∃ labels next, Run (step config) anyStep (State.init ι config) labels next ∧
      next.shared = bareShared ∧ ∀ other, next.thread other = ⟨config.bareCache, none⟩ := by
  obtain ⟨initialCount, chunkSize, tlsCacheSize, batchSize⟩ := config
  subst noSlots
  -- The seven steps are those of `allocate_chunk`, without a turn of its loop.
  have alone : exec (threadStep ⟨0, chunkSize, tlsCacheSize, batchSize⟩)
      (⟨[], [], 0, false, .constructing, [], [], [], none⟩,
        ⟨⟨tlsCacheSize, batchSize, []⟩, some (.testAndSet 0 .constructor)⟩)
      (List.replicate 7 false) = some (bareShared, ⟨⟨tlsCacheSize, batchSize, []⟩, none⟩) := rfl
  have allocates := run_thread (State.init ι ⟨0, chunkSize, tlsCacheSize, batchSize⟩) at_ _ alone
  let begun : List (Label ι) := [.construct at_]
  refine ⟨begun ++ _, _, (Run.single trivial rfl).trans allocates, rfl, ?_⟩
  intro other
  by_cases same : other = at_
  · subst same
    exact State.withThread_self ..
  · simp only [State.withThread, Function.update_of_ne same, State.init, Config.bareCache]

/-- The loop of `allocate_chunk` pushes the slots of its chunk from some index on. -/
theorem exec_pushSlot {chunk : MemoryChunk} {caller : Caller} (left : Nat) :
    ∀ {i : Nat} {shared : Shared} {cache : ThreadLocalCache}, i + left = chunk.count →
      shared.fault = none →
      exec (threadStep config) (shared, ⟨cache, some (.pushSlot chunk i caller)⟩)
          (List.replicate left false) =
        some ({ shared with freeQueue := shared.freeQueue ++ chunk.slotsFrom i },
          ⟨cache, some (.pushSlot chunk chunk.count caller)⟩) := by
  -- The induction is on the number of slots that are left.
  induction left with
  | zero =>
    intro i shared cache index running
    obtain rfl : i = chunk.count := by omega
    rw [MemoryChunk.slotsFrom_end (Nat.le_refl _), List.append_nil]
    rfl
  | succ left ih =>
    intro i shared cache index running
    have inside : i < chunk.count := by omega
    have slot : chunk.getSlot i = some ⟨chunk.id, i⟩ := by
      rw [MemoryChunk.getSlot, if_neg (by omega)]
    have taken : threadStep config (shared, ⟨cache, some (.pushSlot chunk i caller)⟩) false =
        some ({ shared with freeQueue := shared.freeQueue ++ [⟨chunk.id, i⟩] },
          ⟨cache, some (.pushSlot chunk (i + 1) caller)⟩) := by
      simp only [threadStep, running, Option.isSome_none, Bool.false_eq_true, if_false,
        Option.map_some, placeStep, allocateStep, if_pos inside, slot, Option.toList_some]
    have later : i + 1 + left = chunk.count := by omega
    have pushes := @ih _ { shared with freeQueue := shared.freeQueue ++ [⟨chunk.id, i⟩] } cache
      later running
    rw [List.replicate_succ, exec, taken, Option.bind_some, pushes,
      MemoryChunk.slotsFrom_next inside, List.append_assoc, List.singleton_append]

/-- A thread that is in no call may acquire from a pool that is ready. -/
theorem step_acquire {state : State ι} {at_ : ι} {cache : ThreadLocalCache}
    (running : state.shared.fault = none) (ready : state.shared.lifetime = .ready)
    (outside : state.thread at_ = ⟨cache, none⟩) :
    step config state (.acquire at_) =
      some (state.withThread at_ state.shared ⟨cache, some .tryAcquire⟩) := by
  simp only [step, running, ready, outside, Option.isSome_none, Bool.false_eq_true, ne_eq,
    not_true_eq_false, or_self, if_false]

/-- A thread looks into its cache and into the queue, and finds nothing. -/
theorem run_look {state : State ι} {at_ : ι} (shared : state.shared = bareShared)
    (outside : state.thread at_ = ⟨config.bareCache, none⟩) :
    Run (step config) anyStep state [.acquire at_, .run at_ false, .run at_ false]
      (state.withThread at_ bareShared ⟨config.bareCache, some (.steal 0 [])⟩) := by
  have acquires : step config state (.acquire at_) = _ :=
    step_acquire (by rw [shared]; rfl) (by rw [shared]; rfl) outside
  -- The cache is empty, so the call goes on to the queue.
  have looks : exec (threadStep config)
      (bareShared, ⟨config.bareCache, some .tryAcquire⟩) [false, false] =
        some (bareShared, ⟨config.bareCache, some (.steal 0 [])⟩) := rfl
  rw [shared] at acquires
  exact (Run.single trivial acquires).trans (run_thread state at_ _ looks)

/-- A thread that finds nothing adds a chunk, and is about to publish it. -/
theorem run_grow {state : State ι} {at_ : ι} (shared : state.shared = bareShared)
    (outside : state.thread at_ = ⟨config.bareCache, none⟩) :
    ∃ labels next thread, Run (step config) anyStep state labels (state.withThread at_ next thread) ∧
      next.fault = none ∧ next.freeQueue = (⟨1, config.chunkSize⟩ : MemoryChunk).slots := by
  let chunk : MemoryChunk := ⟨1, config.chunkSize⟩
  let growing : Shared := { bareShared with allocating := true, chunks := [⟨0, 0⟩, chunk] }
  -- The loop of the steal ends at once, because it has no turns or finds the queue empty.
  have ends : threadStep config (bareShared, ⟨config.bareCache, some (.steal 0 [])⟩) false =
      some (bareShared, ⟨config.bareCache, some (.testAndSet config.chunkSize .acquire)⟩) := by
    by_cases turns : 0 < config.batchSize
    · simp only [threadStep, placeStep, acquireStep, bareShared, if_pos turns, stealEnd,
        Option.isSome_none, Bool.false_eq_true, if_false, Option.map_some]
    · simp only [threadStep, placeStep, acquireStep, bareShared, if_neg turns, stealEnd,
        Option.isSome_none, Bool.false_eq_true, if_false, Option.map_some]
  have allocates : exec (threadStep config)
      (bareShared, ⟨config.bareCache, some (.testAndSet config.chunkSize .acquire)⟩)
      [false, false] =
        some (growing, ⟨config.bareCache, some (.pushSlot chunk 0 .acquire)⟩) := rfl
  have pushes : exec (threadStep config)
      (growing, ⟨config.bareCache, some (.pushSlot chunk 0 .acquire)⟩)
      (List.replicate config.chunkSize false) =
        some ({ growing with freeQueue := chunk.slots },
          ⟨config.bareCache, some (.pushSlot chunk chunk.count .acquire)⟩) :=
    exec_pushSlot config.chunkSize (Nat.zero_add _) rfl
  have stolen : exec (threadStep config) (bareShared, ⟨config.bareCache, some (.steal 0 [])⟩)
      [false] = some (bareShared,
        ⟨config.bareCache, some (.testAndSet config.chunkSize .acquire)⟩) := by
    rw [exec, ends]
    rfl
  have looks := (run_look shared outside).trans (run_thread state at_ _ stolen)
  have grows := (run_thread state at_ _ allocates).trans (run_thread state at_ _ pushes)
  exact ⟨_, _, _, looks.trans grows, rfl, rfl⟩

/-- A thread finds the queue empty, and before it steals another one adds a chunk to the queue. -/
theorem run_stealing (noSlots : config.initialCount = 0) {at_ other : ι} (distinct : other ≠ at_) :
    ∃ labels next, Run (step config) anyStep (State.init ι config) labels next ∧
      Stealing config next at_ [] (⟨1, config.chunkSize⟩ : MemoryChunk).slots := by
  obtain ⟨constructs, ready, constructed, shared, outside⟩ := construct_bare noSlots at_
  have looks := run_look shared (outside at_)
  -- From here on the first thread waits, at the head of its loop.
  let looking := ready.withThread at_ bareShared ⟨config.bareCache, some (.steal 0 [])⟩
  have still : looking.thread other = ⟨config.bareCache, none⟩ := by
    simp only [looking, State.withThread, Function.update_of_ne distinct]
    exact outside other
  -- The other thread finds nothing either, and adds a chunk.
  obtain ⟨grows, next, thread, grown, running, queue⟩ := run_grow (rfl : looking.shared = _) still
  refine ⟨_, _, (constructed.trans looks).trans grown, running, ?_, ?_, ?_, queue⟩
  all_goals simp only [looking, State.withThread, Function.update_of_ne distinct.symm,
    Function.update_self]
  all_goals rfl

end Grown

/-- No run of any number of threads does harm under a configuration. -/
def Config.Safe (config : Config) : Prop :=
  ∀ (threads : Nat) (labels : List (Label (Fin threads))) (finish : State (Fin threads)),
    Run (step config) anyStep (State.init (Fin threads) config) labels finish → finish.BatchSafe

/-- A configuration whose batches fit is safe. -/
theorem Config.Fits.safe {config : Config} (fits : config.Fits) : config.Safe := by
  intro threads labels finish run
  -- The books are kept in every run, and they contain what safety asks for.
  have accounted := run.invariant (init_accounted config) fun state label next accounted _ taken =>
    step_accounted fits.1 (fun _ _ _ _ => fits.2) accounted taken
  exact accounted.batchSafe fits

section Harm

variable {tlsCacheSize batchSize : Nat}

/-- No batch is larger than the local arrays where no run does harm. -/
theorem Config.Safe.arrays (safe : (⟨0, 17, tlsCacheSize, batchSize⟩ : Config).Safe) :
    batchSize ≤ defaultBatchSize := by
  by_contra large
  have large : 16 < batchSize := Nat.lt_of_not_le large
  obtain ⟨found, state, finds, stealing⟩ :=
    @run_stealing (Fin 2) _ ⟨0, 17, tlsCacheSize, batchSize⟩ rfl 1 0 (by decide)
  -- Sixteen slots fill the local array, and the seventeenth is written past its end.
  obtain ⟨popped, full, pops, stealing⟩ := Stealing.pops
    ((List.range' 0 16).map (Slot.mk 1)) stealing (by simpa using large.le) (by decide)
  obtain ⟨next, overruns, fault⟩ := stealing.overrun (by simpa using large) (by decide)
  have inArray := (safe 2 _ next ((finds.trans pops).snoc trivial overruns)).inArray
  rw [fault] at inArray
  cases inArray

/-- No batch but for its first slot is larger than a cache where no run does harm. -/
theorem Config.Safe.caches (safe : (⟨0, 17, tlsCacheSize, batchSize⟩ : Config).Safe) :
    batchSize ≤ tlsCacheSize + 1 := by
  by_contra large
  have arrays : batchSize ≤ 16 := safe.arrays
  let slots := (⟨1, 17⟩ : MemoryChunk).slots
  have length : (slots.take batchSize).length = batchSize := by
    rw [List.length_take, show slots.length = 17 from rfl]
    omega
  obtain ⟨found, state, finds, stealing⟩ :=
    @run_stealing (Fin 2) _ ⟨0, 17, tlsCacheSize, batchSize⟩ rfl 1 0 (by decide)
  obtain ⟨popped, full, pops, stealing⟩ := Stealing.pops
    (slots.take batchSize) (by rwa [List.take_append_drop])
      (by rw [length, List.length_nil, Nat.zero_add]) (by rwa [length, List.length_nil, Nat.zero_add])
  rw [List.nil_append] at stealing
  -- The batch has a first slot, which is returned, and at least one behind it.
  match batch : slots.take batchSize, length with
  | [], length => simp at length; omega
  | [_], length => simp at length; omega
  | result :: object :: objects, length =>
    rw [batch] at stealing
    obtain ⟨next, ends, place, empty, sized⟩ := stealing.finish (by simp [length])
    have kept := (safe 2 _ next ((finds.trans pops).snoc trivial ends)).kept _ _ _ place
    have kept := congrArg List.length kept
    rw [ThreadLocalCache.addBatch, empty, sized] at kept
    simp at kept length
    omega

end Harm

/--
When batches can be stolen without harm: for every size of a cache and of a batch.

The batch must fit the local array, and all of it but for the slot that is returned must fit the
cache.
-/
theorem batchSafe_iff (tlsCacheSize batchSize : Nat) :
    (∀ initialCount chunkSize, (⟨initialCount, chunkSize, tlsCacheSize, batchSize⟩ : Config).Safe) ↔
      batchSize ≤ defaultBatchSize ∧ batchSize ≤ tlsCacheSize + 1 := by
  constructor
  · -- A pool without slots that grows by seventeen tells the safe sizes from all others.
    intro safe
    exact ⟨(safe 0 17).arrays, (safe 0 17).caches⟩
  · rintro ⟨arrays, caches⟩ initialCount chunkSize
    exact Config.Fits.safe ⟨arrays, by dsimp only; omega⟩

/-- A thread finds the queue empty, another one adds 17 slots to it, and the first one steals them. -/
def stealsAdded : List (Label (Fin 2)) :=
  [.construct 0] ++ List.replicate 7 (.run 0 false) ++
    [.acquire 1, .run 1 false, .run 1 false] ++
    [.acquire 0] ++ List.replicate 22 (.run 0 false) ++ List.replicate 17 (.run 1 false)

/-- A batch of 17 slots is written past the end of the local array. -/
theorem batch_steal_fails :
    (exec (step ⟨0, 17, 32, 17⟩) (State.init (Fin 2) ⟨0, 17, 32, 17⟩) stealsAdded).map
        (·.shared.fault) = some (some .batchOverflow) ∧
      ¬ ∀ config : Config, config.Safe := by
  have overruns : (exec (step ⟨0, 17, 32, 17⟩) (State.init (Fin 2) ⟨0, 17, 32, 17⟩) stealsAdded).map
      (·.shared.fault) = some (some .batchOverflow) := by decide +kernel
  refine ⟨overruns, fun safe => ?_⟩
  obtain ⟨finish, executed, fault⟩ := Option.map_eq_some_iff.mp overruns
  -- Safety would say that the write past the end has not happened.
  have inArray := (safe _ 2 _ finish (Run.of_exec executed)).inArray
  rw [fault] at inArray
  cases inArray

end Braid.Memory
