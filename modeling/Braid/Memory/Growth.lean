import Braid.Memory.Partition
import Mathlib.Algebra.Group.Action.Defs

/-! How far the pool grows when its calls are made one at a time. -/

namespace Braid.Memory

open Counting Transition

/-- What a cache keeps when its thread is in no call: three quarters of its size. -/
def Config.keeps (config : Config) : Nat := config.tlsCacheSize * 3 / 4

/-- How far the pool may grow for a number of threads and of objects that are held at a time. -/
def Config.limit (config : Config) (threads peak : Nat) : Nat :=
  max config.initialCount (peak + (threads - 1) * config.keeps + config.chunkSize - 1)

/-- The limit grows with the number of objects that are held. -/
theorem Config.limit_mono (config : Config) (threads : Nat) {low high : Nat} (le : low ≤ high) :
    config.limit threads low ≤ config.limit threads high := by
  simp only [limit]
  omega

/-- One more object that is held raises the limit by one at most. -/
theorem Config.limit_succ (config : Config) (threads peak : Nat) :
    config.limit threads (peak + 1) ≤ config.limit threads peak + 1 := by
  simp only [limit]
  omega

/-- The number of slots that a call of `allocate_chunk` asks for. -/
def Caller.count (config : Config) : Caller → Nat
  | .constructor => config.initialCount
  | .acquire => config.chunkSize

/-- What a call of `allocate_chunk` finds: `acquire` makes it when cache and queue are empty. -/
def Caller.Finds (config : Config) (shared : Shared) (cache : List Slot) (queued : Nat) :
    Caller → Prop
  | .constructor => cache.length ≤ config.keeps ∧ shared.totalAllocated = 0
  | .acquire => cache = [] ∧ shared.freeQueue.length = queued

/-- What a call of `allocate_chunk` returns to: `acquire` finds slots in the queue, or none. -/
def Caller.Returns (config : Config) (shared : Shared) (cache : List Slot) (result : Bool) :
    Caller → Prop
  | .constructor => cache.length ≤ config.keeps
  | .acquire => cache = [] ∧ (result = true ↔ shared.freeQueue ≠ [])

/-- What a thread that is alone in a call finds at a place of it. -/
def Place.Alone (config : Config) (shared : Shared) (cache : List Slot) : Place → Prop
  | .tryAcquire => cache.length ≤ config.keeps
  | .pop => cache = []
  | .steal _ batch => cache = [] ∧ batch = [] ∧ shared.freeQueue = []
  | .testAndSet count caller =>
    count = caller.count config ∧ caller.Finds config shared cache 0
  | .newChunk count caller => count = caller.count config ∧ caller.Finds config shared cache 0
  | .clearFailed caller => caller.Finds config shared cache 0
  | .pushSlot chunk i caller =>
    chunk.count = caller.count config ∧ i ≤ chunk.count ∧ caller.Finds config shared cache i
  | .loadHead chunk caller =>
    chunk.count = caller.count config ∧ caller.Finds config shared cache chunk.count
  | .exchange chunk _ caller =>
    chunk.count = caller.count config ∧ caller.Finds config shared cache chunk.count
  | .addTotal chunk caller =>
    chunk.count = caller.count config ∧ caller.Finds config shared cache chunk.count
  | .clear caller => caller.Returns config shared cache true
  | .popAllocated => cache = [] ∧ shared.freeQueue ≠ []
  | .retry _ => cache = [] ∧ shared.freeQueue = []
  | .construct _ => cache.length ≤ config.keeps
  | .tryRelease _ => cache.length ≤ config.keeps
  | .pushReleased _ => cache.length ≤ config.keeps
  -- A release may put one slot more into the cache before it returns a batch.
  | .shouldBatchReturn => cache.length ≤ config.keeps + 1
  | .extract => cache.length ≤ config.keeps + 1
  | .pushBatch _ => cache.length ≤ config.keeps
  -- No batch is stolen from a queue that was empty, and no constructor throws.
  | .addBatch .. => False
  | .pushUnconstructed _ => False

/-- What a thread finds that is alone in its call, or in no call. -/
def Thread.Alone (config : Config) (shared : Shared) (thread : Thread) : Prop :=
  match thread.place with
  | none => thread.cache.cache.length ≤ config.keeps
  | some place => place.Alone config shared thread.cache.cache

/-- The call is about to return an object that it has fetched, or that it has made a chunk for. -/
def Place.fetches : Place → Nat
  | .clear .acquire => 1
  | .popAllocated => 1
  | .construct _ => 1
  | _ => 0

/-- A call fetches one object at most. -/
theorem Place.fetches_le_one (place : Place) : place.fetches ≤ 1 := by
  unfold fetches
  split <;> omega

/-- A place of `release`. -/
def Place.releases : Place → Bool
  | .tryRelease _ | .pushReleased _ | .shouldBatchReturn | .extract | .pushBatch _ => true
  | _ => false

/-- What a step of a thread that is alone in its call does to the growth of the pool. -/
structure Grows (config : Config) (shared : Shared) (thread : Thread) (place : Place)
    (result : Shared × Thread) : Prop where
  alone : result.2.Alone config result.1
  fetched : shared.held.length + place.fetches ≤
    result.1.held.length + result.2.at_ Place.fetches
  batch : result.2.cache.batchSize = thread.cache.batchSize
  total : result.1.totalAllocated = shared.totalAllocated ∨
    ∃ chunk caller, place = .addTotal chunk caller ∧
      result.1.totalAllocated = shared.totalAllocated + chunk.count ∧
      result.2.place = some (.clear caller) ∧ result.1.held = shared.held
  born : shared.lifetime ≠ .unborn → result.1.lifetime ≠ .unborn
  released : place.releases = true → result.1.lifetime = shared.lifetime ∧
    ∀ next, result.2.place = some next → next.releases = true

variable {config : Config} {shared : Shared}

/-- A step that allocates nothing. -/
theorem Grows.plain {thread : Thread} {place : Place} {result : Shared × Thread}
    (alone : result.2.Alone config result.1)
    (fetched : shared.held.length + place.fetches ≤
      result.1.held.length + result.2.at_ Place.fetches)
    (batch : result.2.cache.batchSize = thread.cache.batchSize)
    (total : result.1.totalAllocated = shared.totalAllocated)
    (born : shared.lifetime ≠ .unborn → result.1.lifetime ≠ .unborn)
    (other : place.releases = false) : Grows config shared thread place result :=
  ⟨alone, fetched, batch, .inl total, born,
    fun releases => by rw [other] at releases; cases releases⟩

/-- A step of `acquire` allocates nothing, and fetches an object where there is one. -/
theorem acquireStep_grows {tls : ThreadLocalCache} {place : Place} {fails : Bool}
    (alone : place.Alone config shared tls.cache) (other : place.releases = false)
    (succeeds : ∀ obj, place = .construct obj → fails = false) :
    Grows config shared ⟨tls, some place⟩ place
      (acquireStep config shared ⟨tls, some place⟩ fails place) := by
  cases place with
  -- A hit shortens the cache; a miss goes on to the shared queue with an empty one.
  | tryAcquire =>
    simp only [acquireStep]
    have shorter : tls.tryAcquire.2.cache.length ≤ config.keeps := by
      simp only [Place.Alone] at alone
      simp only [ThreadLocalCache.tryAcquire, List.length_dropLast]
      omega
    cases found : tls.tryAcquire.1 with
    | none =>
      have empty : tls.cache = [] := List.getLast?_eq_none_iff.mp found
      refine .plain ?_ (Nat.le_refl _) rfl rfl id rfl
      simp [Thread.Alone, Place.Alone, ThreadLocalCache.tryAcquire, empty]
    | some obj => exact .plain shorter (Nat.le_add_right ..) rfl rfl id rfl
  | pop =>
    simp only [acquireStep]
    cases queue : shared.freeQueue with
    -- Nothing to steal and nothing queued is what leads to a chunk.
    | nil => exact .plain ⟨alone, rfl, queue⟩ (Nat.le_refl _) rfl rfl id rfl
    | cons obj rest =>
      have empty : tls.cache.length ≤ config.keeps := by simp [show tls.cache = [] from alone]
      exact .plain empty (Nat.le_add_right ..) rfl rfl id rfl
  -- Nothing changes the queue while the call runs alone, so there is nothing to steal.
  | steal i batch =>
    obtain ⟨empty, none, queue⟩ := alone
    subst none
    simp only [acquireStep, queue]
    split <;> exact .plain ⟨rfl, empty, by rw [queue]; rfl⟩ (Nat.le_refl _) rfl rfl id rfl
  -- The chunk that was just made has put slots on the queue.
  | popAllocated =>
    obtain ⟨empty, some⟩ := alone
    simp only [acquireStep]
    cases queue : shared.freeQueue with
    | nil => exact absurd queue some
    | cons obj rest =>
      exact .plain (by simp [Thread.Alone, Place.Alone, empty]) (Nat.le_refl _) rfl rfl id rfl
  -- The queue stays empty, so the retries run out.
  | retry n =>
    obtain ⟨empty, queue⟩ := alone
    simp only [acquireStep, queue]
    split
    · exact .plain ⟨empty, queue⟩ (Nat.le_refl _) rfl rfl id rfl
    · exact .plain (by simp [acquired, Thread.Alone, empty]) (Nat.le_refl _) rfl rfl id rfl
  -- The constructor does not throw, and the object goes to the caller.
  | construct obj =>
    simp only [acquireStep, succeeds obj rfl]
    refine .plain alone ?_ rfl rfl id rfl
    simp [acquired, Place.fetches, Thread.at_]
  -- A call that runs alone comes to neither of these.
  | addBatch | pushUnconstructed => exact alone.elim
  | _ => exact .plain alone (Nat.le_refl _) rfl rfl id other

/-- A step of `release` leaves the cache with what it keeps, or on its way there. -/
theorem releaseStep_grows {tls : ThreadLocalCache} {place : Place}
    (sized : tls.maxCacheSize = config.tlsCacheSize) (positive : 1 ≤ tls.batchSize)
    (alone : place.Alone config shared tls.cache) (releases : place.releases = true) :
    Grows config shared ⟨tls, some place⟩ place (releaseStep shared ⟨tls, some place⟩ place) := by
  cases place with
  -- A cache with room takes the slot; a full one leaves it to the shared queue.
  | tryRelease obj =>
    simp only [Place.Alone] at alone
    simp only [releaseStep, ThreadLocalCache.tryRelease]
    split
    · refine ⟨?_, Nat.le_refl _, rfl, .inl rfl, id, fun _ => ⟨rfl, ?_⟩⟩
      · simp only [Thread.Alone, Place.Alone, if_true, List.length_append, List.length_singleton]
        omega
      · rintro _ ⟨⟩
        rfl
    · refine ⟨alone, Nat.le_refl _, rfl, .inl rfl, id, fun _ => ⟨rfl, ?_⟩⟩
      rintro _ ⟨⟩
      rfl
  | pushReleased obj =>
    refine ⟨Nat.le_succ_of_le alone, Nat.le_refl _, rfl, .inl rfl, id, fun _ => ⟨rfl, ?_⟩⟩
    rintro _ ⟨⟩
    rfl
  | shouldBatchReturn =>
    simp only [releaseStep]
    split
    · refine ⟨alone, Nat.le_refl _, rfl, .inl rfl, id, fun _ => ⟨rfl, ?_⟩⟩
      rintro _ ⟨⟩
      rfl
    · -- Below the threshold the cache keeps what it has, which is what it may keep.
      rename_i full
      refine ⟨?_, Nat.le_refl _, rfl, .inl rfl, id, fun _ => ⟨rfl, (by simp)⟩⟩
      simp only [ThreadLocalCache.shouldBatchReturn, sized, decide_eq_true_eq, Nat.not_lt] at full
      exact full
  | extract =>
    refine ⟨?_, Nat.le_refl _, rfl, .inl rfl, id, fun _ => ⟨rfl, ?_⟩⟩
    · -- At least one slot is taken out of a cache that has any.
      simp only [Place.Alone] at alone
      simp only [releaseStep, Thread.Alone, Place.Alone, ThreadLocalCache.extractBatch,
        List.length_take, defaultBatchSize]
      omega
    · rintro _ ⟨⟩
      rfl
  | pushBatch batch =>
    cases batch with
    -- The batch is on the queue, and the release returns.
    | nil => exact ⟨alone, Nat.le_refl _, rfl, .inl rfl, id, fun _ => ⟨rfl, by rintro _ ⟨⟩⟩⟩
    | cons obj rest =>
      refine ⟨alone, Nat.le_refl _, rfl, .inl rfl, id, fun _ => ⟨rfl, ?_⟩⟩
      rintro _ ⟨⟩
      rfl
  | _ => cases releases

/-- Returning from `allocate_chunk` without a chunk, the caller finds what it found before. -/
theorem allocated_grows {tls : ThreadLocalCache} {place : Place} {flag result : Bool}
    {caller : Caller} (other : place.releases = false)
    (fetches : place.fetches = if result = true ∧ caller = .acquire then 1 else 0)
    (returns : caller.Returns config shared tls.cache result) :
    Grows config shared ⟨tls, some place⟩ place
      (allocated { shared with allocating := flag } ⟨tls, some place⟩ result caller) := by
  cases caller with
  -- The constructor of the pool goes on to its next chunk whatever the result.
  | constructor =>
    refine .plain returns ?_ rfl rfl (fun _ => (by rintro ⟨⟩)) other
    simp only [fetches, reduceCtorEq, and_false, if_false]
    exact Nat.le_refl _
  -- An acquire goes back to the queue, which has slots exactly when a chunk was made.
  | acquire =>
    obtain ⟨empty, some⟩ := returns
    cases result with
    | false =>
      have none : shared.freeQueue = [] := by simpa using some
      exact .plain ⟨empty, none⟩ (by rw [fetches]; exact Nat.le_refl _) rfl rfl id other
    | true =>
      exact .plain ⟨empty, some.mp rfl⟩ (by rw [fetches]; exact Nat.le_refl _) rfl rfl id other

/-- A call of `allocate_chunk` that makes no chunk leaves the queue empty. -/
theorem Caller.Finds.failed {cache : List Slot} {caller : Caller}
    (finds : caller.Finds config shared cache 0) : caller.Returns config shared cache false := by
  cases caller with
  | constructor => exact finds.1
  | acquire => exact ⟨finds.1, by simp [List.eq_nil_of_length_eq_zero finds.2]⟩

/-- A step of `allocate_chunk` adds to the total where the chunk is counted, and there alone. -/
theorem allocateStep_grows {tls : ThreadLocalCache} {place : Place} (fails : Bool)
    (chunks : 1 ≤ config.chunkSize) (alone : place.Alone config shared tls.cache)
    (other : place.releases = false) :
    Grows config shared ⟨tls, some place⟩ place
      (allocateStep shared ⟨tls, some place⟩ fails place) := by
  cases place with
  -- The flag is free unless an earlier call was left in the middle.
  | testAndSet count caller =>
    simp only [allocateStep]
    split
    · exact allocated_grows rfl (by simp [Place.fetches]) alone.2.failed
    · exact .plain alone (Nat.le_refl _) rfl rfl id rfl
  -- The new chunk has no slot on the queue yet.
  | newChunk count caller =>
    simp only [allocateStep]
    split
    · exact .plain alone.2 (Nat.le_refl _) rfl rfl id rfl
    · exact .plain ⟨alone.1, Nat.zero_le _, alone.2⟩ (Nat.le_refl _) rfl rfl id rfl
  | clearFailed caller => exact allocated_grows rfl (by simp [Place.fetches]) alone.failed
  | pushSlot chunk i caller =>
    obtain ⟨count, before, finds⟩ := alone
    simp only [allocateStep]
    split
    · -- One more slot of the chunk is on the queue.
      rename_i inside
      refine .plain ⟨count, inside, ?_⟩ (Nat.le_refl _) rfl rfl id rfl
      cases caller with
      | constructor => exact finds
      | acquire =>
        refine ⟨finds.1, ?_⟩
        simp [MemoryChunk.getSlot, Nat.not_le.mpr inside, finds.2]
    · -- All slots of the chunk are on the queue.
      rename_i outside
      have last : i = chunk.count := by omega
      exact .plain ⟨count, last ▸ finds⟩ (Nat.le_refl _) rfl rfl id rfl
  | loadHead chunk caller => exact .plain alone (Nat.le_refl _) rfl rfl id rfl
  | exchange chunk oldHead caller =>
    simp only [allocateStep]
    split <;> exact .plain alone (Nat.le_refl _) rfl rfl id rfl
  -- This is the one place where the total goes up, by the slots of the chunk.
  | addTotal chunk caller =>
    obtain ⟨count, finds⟩ := alone
    refine ⟨?_, ?_, rfl, .inr ⟨chunk, caller, rfl, rfl, rfl, rfl⟩, id, (by rintro ⟨⟩)⟩
    · cases caller with
      | constructor => exact finds.1
      -- A chunk has at least one slot, so the queue is not empty.
      | acquire =>
        refine ⟨finds.1, iff_of_true rfl fun empty => ?_⟩
        have queued := finds.2
        rw [show shared.freeQueue = [] from empty] at queued
        simp only [List.length_nil, Caller.count] at queued count
        omega
    · exact Nat.le_add_right ..
  | clear caller => exact allocated_grows rfl (by cases caller <;> rfl) alone
  | _ => exact .plain alone (Nat.le_refl _) rfl rfl id other

/-- A step of a call that runs alone does what it is said to do to the growth of the pool. -/
theorem placeStep_grows {tls : ThreadLocalCache} {place : Place} (fails : Bool)
    (chunks : 1 ≤ config.chunkSize) (sized : tls.maxCacheSize = config.tlsCacheSize)
    (positive : 1 ≤ tls.batchSize) (alone : place.Alone config shared tls.cache)
    (succeeds : ∀ obj, place = .construct obj → fails = false) :
    Grows config shared ⟨tls, some place⟩ place
      (placeStep config shared ⟨tls, some place⟩ fails place) := by
  cases place with
  -- The places are those of the three calls: growing, releasing and acquiring.
  | testAndSet | newChunk | clearFailed | pushSlot | loadHead | exchange | addTotal | clear =>
    exact allocateStep_grows fails chunks alone rfl
  | tryRelease | pushReleased | shouldBatchReturn | extract | pushBatch =>
    exact releaseStep_grows sized positive alone rfl
  | _ => exact acquireStep_grows alone rfl succeeds

variable {ι : Type} [Fintype ι]

/-- What is remembered of a run: the largest number of objects that callers have held so far. -/
def recordPeak (_ : State ι) (_ : Label ι) (next : State ι) (peak : Nat) : Nat :=
  max peak next.shared.held.length

/-- The call is about to construct an object. -/
def Place.constructs : Place → Bool
  | .construct _ => true
  | _ => false

/-- Calls are made one at a time, and no constructor throws. -/
def OneCall (state : State ι) : Label ι → Prop
  | .run at_ fails => (state.thread at_).place.any Place.constructs = true → fails = false
  | _ => state.Quiet

instance (state : State ι) (label : Label ι) : Decidable (OneCall state label) :=
  match label with
  | .run .. => inferInstanceAs (Decidable (_ = true → _ = false))
  | .construct _ | .acquire _ | .release .. =>
    inferInstanceAs (Decidable (∀ at_, (state.thread at_).place = none))

/-- What holds of the growth of the pool while its calls are made one at a time. -/
structure Grown (config : Config) (state : State ι) (peak : Nat) : Prop where
  accounted : state.Accounted config
  single : ∀ first second, (state.thread first).place ≠ none →
    (state.thread second).place ≠ none → first = second
  alone : ∀ at_, (state.thread at_).Alone config state.shared
  batch : ∀ at_, (state.thread at_).cache.batchSize = config.batchSize
  unborn : state.shared.lifetime = .unborn → state.shared.totalAllocated = 0 ∧
    ∀ at_ place, (state.thread at_).place = some place → place.releases = true
  held : state.shared.held.length ≤ peak
  total : state.shared.totalAllocated ≤ config.limit (Fintype.card ι)
    (max peak (state.shared.held.length + ∑ at_, (state.thread at_).at_ Place.fetches))

variable {state next : State ι} {label : Label ι} {peak : Nat}

/-- Between two calls, the limit is that of the objects held so far. -/
theorem Grown.quiet (grown : Grown config state peak) (quiet : state.Quiet) :
    state.shared.totalAllocated ≤ config.limit (Fintype.card ι) peak := by
  -- Nobody is in a call, so nothing is about to be made.
  have total := grown.total
  simp only [Thread.at_, quiet _, Option.elim_none, Finset.sum_const_zero, Nat.add_zero,
    max_eq_left grown.held] at total
  exact total

/-- Where the other threads are in no call, a total over the threads is that of one place. -/
theorem sum_alone {at_ : ι} (others : ∀ other, other ≠ at_ → (state.thread other).place = none)
    (quantity : Place → Nat) :
    ∑ other, (state.thread other).at_ quantity = (state.thread at_).at_ quantity := by
  refine Finset.sum_eq_single at_ (fun other _ different => ?_) fun absent => ?_
  · simp [Thread.at_, others other different]
  · exact absurd (Finset.mem_univ at_) absent

/-- While a thread is in a call, the other threads are in none. -/
theorem Grown.others (grown : Grown config state peak) {at_ : ι} {place : Place}
    (inside : (state.thread at_).place = some place) :
    ∀ other, other ≠ at_ → (state.thread other).place = none := by
  intro other different
  -- Two threads in a call at once are the same thread.
  by_contra busy
  exact different (grown.single other at_ busy (by simp [inside]))

/-- When a chunk is about to be counted, callers and the other threads have all other slots. -/
theorem Grown.before_chunk [DecidableEq ι] (grown : Grown config state peak) {at_ : ι}
    {chunk : MemoryChunk}
    (inside : (state.thread at_).place = some (.addTotal chunk .acquire)) :
    state.shared.totalAllocated ≤
      state.shared.held.length + (Fintype.card ι - 1) * config.keeps := by
  -- What is allocated is in caches, on the queue, with callers or in the chunk.
  have idle := grown.others inside
  have total := grown.accounted.total
  rw [sum_alone idle, sum_alone idle] at total
  have alone := grown.alone at_
  simp only [Thread.Alone, inside] at alone
  obtain ⟨count, empty, queued⟩ := alone
  -- The thread itself has no slot, and every other thread has what its cache keeps.
  have own : (state.thread at_).slots.length = 0 := by
    simp [Thread.slots, inside, empty, Place.locals]
  have others : ∑ other ∈ Finset.univ.erase at_, (state.thread other).slots.length ≤
      (Fintype.card ι - 1) * config.keeps := by
    have each : ∀ other ∈ Finset.univ.erase at_,
        (state.thread other).slots.length ≤ config.keeps := by
      intro other member
      have none := idle other (Finset.ne_of_mem_erase member)
      have keeps := grown.alone other
      simp only [Thread.Alone, none] at keeps
      simpa [Thread.slots, none] using keeps
    have bound := Finset.sum_le_card_nsmul _ _ _ each
    rwa [Finset.card_erase_of_mem (Finset.mem_univ at_), Finset.card_univ, smul_eq_mul] at bound
  have split := Finset.sum_erase_add Finset.univ
    (fun other => (state.thread other).slots.length) (Finset.mem_univ at_)
  simp only [Thread.at_, inside, Option.elim_some, Place.unpublished, Place.uncounted] at total
  omega

/-- Inside of a call, one more object may be on its way to the caller. -/
theorem Grown.anywhere (grown : Grown config state peak) :
    state.shared.totalAllocated ≤ config.limit (Fintype.card ι) peak + 1 := by
  by_cases quiet : state.Quiet
  · exact Nat.le_succ_of_le (grown.quiet quiet)
  · obtain ⟨at_, busy⟩ := not_forall.mp quiet
    obtain ⟨place, inside⟩ := Option.ne_none_iff_exists'.mp busy
    -- The one call that is going on has at most one object for its caller.
    have one := place.fetches_le_one
    have total := grown.total
    rw [sum_alone (grown.others inside)] at total
    simp only [Thread.at_, inside, Option.elim_some] at total
    have held := grown.held
    exact total.trans ((config.limit_mono _ (by omega)).trans (config.limit_succ ..))

variable [DecidableEq ι]

/-- A thread that is alone in its call takes a step, or begins one. -/
theorem Grown.withThread (grown : Grown config state peak) {at_ : ι} {shared' : Shared}
    {thread' : Thread} {peak' : Nat}
    (accounted : (state.withThread at_ shared' thread').Accounted config)
    (others : ∀ other, other ≠ at_ → (state.thread other).place = none)
    (alone : thread'.Alone config shared') (batch : thread'.cache.batchSize = config.batchSize)
    (unborn : shared'.lifetime = .unborn → shared'.totalAllocated = 0 ∧
      ∀ place, thread'.place = some place → place.releases = true)
    (held : shared'.held.length ≤ peak')
    (total : shared'.totalAllocated ≤ config.limit (Fintype.card ι)
      (max peak' (shared'.held.length + thread'.at_ Place.fetches))) :
    Grown config (state.withThread at_ shared' thread') peak' := by
  have itself : (state.withThread at_ shared' thread').thread at_ = thread' :=
    Function.update_self ..
  have rest (other : ι) (different : other ≠ at_) :
      (state.withThread at_ shared' thread').thread other = state.thread other :=
    Function.update_of_ne different ..
  have idle (other : ι) (different : other ≠ at_) :
      ((state.withThread at_ shared' thread').thread other).place = none := by
    rw [rest other different]
    exact others other different
  -- Whoever is in a call is this thread.
  have one (other : ι) (busy : ((state.withThread at_ shared' thread').thread other).place ≠ none) :
      other = at_ := by
    by_contra different
    exact busy (idle other different)
  refine ⟨accounted, fun first second firstBusy secondBusy =>
    (one first firstBusy).trans (one second secondBusy).symm, fun other => ?_, fun other => ?_,
    fun fresh => ⟨(unborn fresh).1, fun other place inside => ?_⟩, held, ?_⟩
  · -- The other threads are outside of every call, where only their caches count.
    by_cases same : other = at_
    · rw [same, itself]
      exact alone
    · have before := grown.alone other
      rw [rest other same]
      simp only [Thread.Alone, others other same] at before ⊢
      exact before
  · by_cases same : other = at_
    · rw [same, itself]
      exact batch
    · rw [rest other same]
      exact grown.batch other
  · have same := one other (by rw [inside]; simp)
    rw [same, itself] at inside
    exact (unborn fresh).2 place inside
  · rw [sum_alone idle, itself]
    exact total

/-- Every step that the condition permits keeps the pool within its limit. -/
theorem step_grown (chunks : 1 ≤ config.chunkSize) (positive : 1 ≤ config.batchSize)
    (arrays : config.batchSize ≤ defaultBatchSize) (grown : Grown config state peak)
    (permitted : OneCall state label) (taken : step config state label = some next) :
    Grown config next (max peak next.shared.held.length) := by
  -- The cursor of a batch is never in use while the call runs alone.
  have room : ∀ at_, config.Room (state.thread at_).place := by
    intro at_ result objects inside
    have alone := grown.alone at_
    simp only [Thread.Alone, inside] at alone
    exact alone.elim
  have accounted := step_accounted arrays room grown.accounted taken
  unfold step at taken
  rw [if_neg (by simp [grown.accounted.noFault])] at taken
  cases label with
  -- Nothing is allocated before the pool is constructed.
  | construct at_ =>
    simp only at taken
    split at taken
    · cases taken
    · rename_i enabled
      simp only [not_or, not_not] at enabled
      cases taken
      have keeps := grown.alone at_
      simp only [Thread.Alone, permitted at_] at keeps
      refine grown.withThread accounted (fun other _ => permitted other)
        ⟨rfl, keeps, (grown.unborn enabled.1).1⟩ (grown.batch at_) (by simp) (le_max_right ..) ?_
      exact (grown.quiet permitted).trans (config.limit_mono _ (by omega))
  | acquire at_ =>
    simp only at taken
    split at taken
    · cases taken
    · rename_i enabled
      simp only [not_or, not_not] at enabled
      cases taken
      have keeps := grown.alone at_
      simp only [Thread.Alone, permitted at_] at keeps
      refine grown.withThread accounted (fun other _ => permitted other) keeps (grown.batch at_)
        (fun fresh => by rw [enabled.1] at fresh; cases fresh) (le_max_right ..) ?_
      exact (grown.quiet permitted).trans (config.limit_mono _ (by omega))
  -- A release takes the object from the caller, whose peak stays.
  | release at_ obj =>
    simp only at taken
    split at taken
    · cases taken
    · cases taken
      have keeps := grown.alone at_
      simp only [Thread.Alone, permitted at_] at keeps
      refine grown.withThread accounted (fun other _ => permitted other) keeps (grown.batch at_)
        (fun fresh => ⟨(grown.unborn fresh).1, ?_⟩) (le_max_right ..) ?_
      · rintro _ ⟨⟩
        rfl
      · exact (grown.quiet permitted).trans (config.limit_mono _ (by omega))
  | run at_ fails =>
    obtain ⟨place, inside, rfl⟩ := Option.map_eq_some_iff.mp taken
    have others := grown.others inside
    have thread : state.thread at_ = ⟨(state.thread at_).cache, some place⟩ := by rw [← inside]
    have alone := grown.alone at_
    simp only [Thread.Alone, inside] at alone
    have grows : Grows config state.shared ⟨_, some place⟩ place _ :=
      placeStep_grows fails chunks (grown.accounted.tidy at_).1
        (by rw [grown.batch at_]; exact positive) alone
        fun obj here => permitted (by rw [inside, here]; rfl)
    rw [← thread] at grows
    -- What is on its way to callers is what this one call has.
    have fetching := sum_alone others Place.fetches
    simp only [Thread.at_, inside, Option.elim_some] at fetching
    have total := grown.total
    simp only [Thread.at_] at total
    rw [fetching] at total
    refine grown.withThread accounted others grows.alone (grows.batch.trans (grown.batch at_))
      ?_ (le_max_right ..) ?_
    · -- Before the pool is ready, only a release may be going on, and it allocates nothing.
      intro fresh
      have before : state.shared.lifetime = .unborn := by
        by_contra born
        exact grows.born born fresh
      obtain ⟨nothing, releasing⟩ := grown.unborn before
      have releases := releasing at_ place inside
      refine ⟨?_, (grows.released releases).2⟩
      rcases grows.total with same | ⟨chunk, caller, rfl, -⟩
      · exact same.trans nothing
      · cases releases
    · rcases grows.total with same | ⟨chunk, caller, rfl, more, after, held⟩
      · -- The object that is about to be returned is counted already.
        have fetched := grows.fetched
        rw [same]
        exact total.trans (config.limit_mono _ (by omega))
      · obtain ⟨count, finds⟩ := alone
        rw [more, count]
        cases caller with
        -- The first chunk is the initial one.
        | constructor =>
          rw [show state.shared.totalAllocated = 0 from finds.2, Nat.zero_add]
          exact Nat.le_max_left ..
        -- A chunk is made for an object that nobody else could supply.
        | acquire =>
          have before := grown.before_chunk inside
          simp only [Thread.at_, after, held, Option.elim_some, Place.fetches, Config.limit,
            Caller.count]
          omega

/--
The pool grows no further than its callers make it.

Between two calls the total is within the limit of the largest number of objects held so far.
Inside of a call it may be one more, for the object that `acquire` is about to return.
-/
theorem growth_bounded (chunks : 1 ≤ config.chunkSize)
    (batches : 1 ≤ config.batchSize ∧ config.batchSize ≤ 16) {labels : List (Label ι)}
    (run : Run (track (step config) recordPeak) (fun seen => OneCall seen.1)
      (State.init ι config, 0) labels (state, peak)) :
    (state.Quiet → state.shared.totalAllocated ≤ max config.initialCount
      (peak + (Fintype.card ι - 1) * (3 * config.tlsCacheSize / 4) + config.chunkSize - 1)) ∧
    state.shared.totalAllocated ≤ max config.initialCount
      (peak + (Fintype.card ι - 1) * (3 * config.tlsCacheSize / 4) + config.chunkSize - 1) + 1 := by
  have start : Grown config (State.init ι config) 0 := by
    refine ⟨init_accounted config, fun _ _ busy => absurd rfl busy, fun _ => Nat.zero_le _,
      fun _ => rfl, fun _ => ⟨rfl, by rintro _ _ ⟨⟩⟩, Nat.le_refl _, Nat.zero_le _⟩
  -- The peak is a record beside the run, so the invariant is about both.
  have grown := run.invariant (P := fun seen => Grown config seen.1 seen.2) start
    fun seen label next grown permitted stepped => by
      obtain ⟨taken, kept⟩ := track_eq_some.mp stepped
      rw [← kept]
      exact step_grown chunks batches.1 batches.2 grown permitted taken
  rw [Nat.mul_comm 3]
  exact ⟨grown.quiet, grown.anywhere⟩

/-- A pool that grows by one slot at a time, with caches that keep three slots. -/
def tightConfig : Config where
  initialCount := 0
  chunkSize := 1
  tlsCacheSize := 4
  batchSize := 1

/-- The first thread acquires an object. -/
def acquireFirst : List (Label (Fin 2)) := .acquire 0 :: List.replicate 13 (.run 0 false)

/-- The second thread releases the object of a chunk. -/
def releaseSecond (chunk : Nat) : List (Label (Fin 2)) :=
  .release 1 ⟨chunk, 0⟩ :: List.replicate 2 (.run 1 false)

/-- The limit is reached: one object is held at a time, and the other cache has three slots. -/
theorem growth_bounded_tight :
    ∃ (state : State (Fin 2)) (peak : Nat), peak = 1 ∧ state.shared.totalAllocated = 4 ∧
      state.shared.totalAllocated ≤ max 0 (peak + (2 - 1) * (3 * 4 / 4) + 1 - 1) := by
  -- Three slots are released by the second thread, and stay in its cache.
  have executed : (execWhile (track (step tightConfig) recordPeak) (fun seen => OneCall seen.1)
      (State.init (Fin 2) tightConfig, 0) (.construct 0 :: List.replicate 7 (.run 0 false) ++
        acquireFirst ++ releaseSecond 1 ++ acquireFirst ++ releaseSecond 2 ++
        acquireFirst ++ releaseSecond 3 ++ acquireFirst)).any fun seen =>
      seen.2 = 1 ∧ seen.1.shared.totalAllocated = 4 ∧
        ∀ at_, (seen.1.thread at_).place = none := by decide +kernel
  obtain ⟨⟨state, peak⟩, reached, facts⟩ := (Option.any_eq_true _ _).mp executed
  obtain ⟨one, four, quiet⟩ := of_decide_eq_true facts
  exact ⟨state, peak, one, four,
    (growth_bounded (by decide) (by decide) (.of_execWhile reached)).1 quiet⟩

end Braid.Memory
