import Braid.Library.Counting
import Braid.Library.Transition
import Braid.Memory.ObjectPool

/-! Every slot of the pool is in one place at every moment, and the pool's books balance. -/

namespace Braid.Memory

open Counting

/-- The slots that the local variables of a call refer to, or that it has not pushed yet. -/
def Place.locals : Place → List Slot
  | .construct obj => [obj]
  | .pushUnconstructed obj => [obj]
  | .steal _ batch => batch
  | .addBatch result objects => result :: objects
  | .pushSlot chunk i _ => chunk.slotsFrom i
  | .tryRelease obj => [obj]
  | .pushReleased obj => [obj]
  | .pushBatch batch => batch
  | _ => []

/-- A call between the acquisition of the allocating flag and its clearing. -/
def Place.locks : Place → Nat
  | .newChunk .. | .clearFailed .. | .pushSlot .. | .loadHead .. | .exchange .. | .addTotal ..
  | .clear .. => 1
  | _ => 0

/-- The size of a chunk that a call has allocated and not yet published. -/
def Place.unpublished : Place → Nat
  | .pushSlot chunk _ _ => chunk.count
  | .loadHead chunk _ => chunk.count
  | .exchange chunk _ _ => chunk.count
  | _ => 0

/-- The size of a chunk that a call has published and not yet added to the total. -/
def Place.uncounted : Place → Nat
  | .addTotal chunk _ => chunk.count
  | _ => 0

/-- A quantity of the place of a thread, which is nothing outside of every call. -/
def Thread.at_ (quantity : Place → Nat) (thread : Thread) : Nat := thread.place.elim 0 quantity

/-- The slots of a thread: those in its cache, and those of its local variables. -/
def Thread.slots (thread : Thread) : List Slot :=
  thread.cache.cache ++ thread.place.elim [] Place.locals

/-- The allocating flag as a number. -/
def Shared.flag (shared : Shared) : Nat := if shared.allocating then 1 else 0

/-- The slots of all chunks. -/
def Shared.slots (shared : Shared) : List Slot := shared.chunks.flatMap MemoryChunk.slots

/-- A configuration whose batches fit the local arrays, and an empty cache but for one slot. -/
def Config.Fits (config : Config) : Prop :=
  config.batchSize ≤ defaultBatchSize ∧ config.batchSize ≤ config.tlsCacheSize + 1

/-- A batch that a thread is about to keep fits an empty cache, where a thread is about to. -/
def Config.Room (config : Config) (place : Option Place) : Prop :=
  ∀ result objects, place = some (.addBatch result objects) →
    config.batchSize ≤ config.tlsCacheSize + 1

/-- A thread that steals a batch has found its cache empty, and keeps within its array. -/
def Thread.Tidy (config : Config) (thread : Thread) : Prop :=
  thread.cache.maxCacheSize = config.tlsCacheSize ∧
  match thread.place with
  | some .pop => thread.cache.cache = []
  | some (.steal i batch) => thread.cache.cache = [] ∧ batch.length = i ∧ i ≤ config.batchSize
  | some (.addBatch _ objects) => thread.cache.cache = [] ∧ objects.length < config.batchSize
  | _ => True

/-- What a step of one thread keeps: its slots and those shared, and the books of the chunks. -/
structure Kept (config : Config) (shared : Shared) (thread : Thread) (result : Shared × Thread) :
    Prop where
  slots : ∀ quantity, tally quantity result.1.held + tally quantity result.1.freeQueue +
      tally quantity result.2.slots + tally quantity shared.slots =
    tally quantity shared.held + tally quantity shared.freeQueue + tally quantity thread.slots +
      tally quantity result.1.slots
  locks : result.2.at_ Place.locks + shared.flag = thread.at_ Place.locks + result.1.flag
  published : tally MemoryChunk.count result.1.chunks + tally MemoryChunk.count shared.chunkHead +
      thread.at_ Place.unpublished =
    tally MemoryChunk.count shared.chunks + tally MemoryChunk.count result.1.chunkHead +
      result.2.at_ Place.unpublished
  counted : result.1.totalAllocated + tally MemoryChunk.count shared.chunkHead +
      result.2.at_ Place.uncounted =
    shared.totalAllocated + tally MemoryChunk.count result.1.chunkHead +
      thread.at_ Place.uncounted
  numbered : result.1.chunks = shared.chunks ∨
    ∃ count, result.1.chunks = shared.chunks ++ [⟨shared.chunks.length, count⟩]
  tidy : result.2.Tidy config
  noFault : result.1.fault = shared.fault

namespace ThreadLocalCache

/-- Acquiring from a cache moves a slot out of it. -/
theorem tally_tryAcquire (quantity : Slot → Nat) (tls : ThreadLocalCache) :
    tally quantity tls.tryAcquire.1.toList + tally quantity tls.tryAcquire.2.cache =
      tally quantity tls.cache := by
  rcases List.eq_nil_or_concat tls.cache with empty | ⟨below, top, filled⟩
  · simp [tryAcquire, empty]
  · simp [tryAcquire, filled, Nat.add_comm]

/-- Extracting from a cache moves slots out of it. -/
theorem tally_extractBatch (quantity : Slot → Nat) (tls : ThreadLocalCache) (bufferSize : Nat) :
    tally quantity (tls.extractBatch bufferSize).1 +
        tally quantity (tls.extractBatch bufferSize).2.cache = tally quantity tls.cache := by
  -- Seen from the top, the cache is the batch followed by what stays.
  simp only [extractBatch]
  generalize min tls.batchSize (min bufferSize tls.cache.length) = count
  have split := tally_take_drop quantity count tls.cache.reverse
  rw [List.drop_reverse, tally_reverse, tally_reverse] at split
  exact split

/-- A batch that fits is kept whole. -/
theorem addBatch_fits {tls : ThreadLocalCache} {objects : List Slot}
    (fits : objects.length + tls.cache.length ≤ tls.maxCacheSize) :
    (tls.addBatch objects).cache = tls.cache ++ objects := by
  rw [addBatch, List.take_of_length_le (by omega)]

end ThreadLocalCache

variable {config : Config} {shared : Shared} {thread : Thread}

/-- A call that holds no chunk and no flag. -/
def Place.Plain (place : Option Place) : Prop :=
  place.elim 0 Place.locks = 0 ∧ place.elim 0 Place.unpublished = 0 ∧
    place.elim 0 Place.uncounted = 0

/-- A step between plain places keeps the books, and needs to keep only the slots. -/
theorem Kept.plain {queue held : List Slot} {returned : List (Option Slot)} {thread' : Thread}
    (before : Place.Plain thread.place) (after : Place.Plain thread'.place)
    (slots : ∀ quantity, tally quantity held + tally quantity queue + tally quantity thread'.slots =
      tally quantity shared.held + tally quantity shared.freeQueue + tally quantity thread.slots)
    (tidy : thread'.Tidy config) :
    Kept config shared thread
      ({ shared with freeQueue := queue, held := held, returned := returned }, thread') where
  slots := by
    intro quantity
    have moved := slots quantity
    simp only [Shared.slots]
    omega
  -- A plain place neither holds the flag nor is about to publish or to count.
  locks := by simp [Thread.at_, before.1, after.1, Shared.flag]
  published := by simp [Thread.at_, before.2.1, after.2.1]
  counted := by simp [Thread.at_, before.2.2, after.2.2]
  numbered := .inl rfl
  tidy := tidy
  noFault := rfl

/-- The place where the loop of pops goes on has the slots of the batch. -/
theorem stealEnd_kept (config : Config) {tls : ThreadLocalCache} {batch : List Slot}
    (sized : tls.maxCacheSize = config.tlsCacheSize) (empty : tls.cache = [])
    (short : batch.length ≤ config.batchSize) :
    Place.Plain (some (stealEnd config batch)) ∧ (stealEnd config batch).locals = batch ∧
      Thread.Tidy config ⟨tls, some (stealEnd config batch)⟩ := by
  -- With no slot the call looks again, with one it returns it, with more it caches the others.
  match batch with
  | [] => exact ⟨⟨rfl, rfl, rfl⟩, rfl, sized, trivial⟩
  | [result] => exact ⟨⟨rfl, rfl, rfl⟩, rfl, sized, trivial⟩
  | result :: object :: objects =>
    refine ⟨⟨rfl, rfl, rfl⟩, rfl, sized, empty, ?_⟩
    simp only [List.length_cons] at short ⊢
    omega

/-- A step of `acquire` keeps the slots and the books. -/
theorem acquireStep_kept (arrays : config.batchSize ≤ defaultBatchSize) {tls : ThreadLocalCache}
    {place : Place} (enough : config.Room (some place))
    (tidy : Thread.Tidy config ⟨tls, some place⟩) (fails : Bool)
    (plain : Place.Plain (some place)) :
    Kept config shared ⟨tls, some place⟩
      (acquireStep config shared ⟨tls, some place⟩ fails place) := by
  obtain ⟨sized, tidy⟩ := tidy
  cases place with
  | tryAcquire =>
    have moved := fun quantity => tls.tally_tryAcquire quantity
    simp only [acquireStep]
    cases found : tls.tryAcquire.1 with
    | none =>
      have empty : tls.cache = [] := List.getLast?_eq_none_iff.mp found
      refine .plain plain ⟨rfl, rfl, rfl⟩ (fun quantity => ?_) ⟨sized, ?_⟩
      · simpa [Thread.slots, Place.locals, found] using moved quantity
      · simp [ThreadLocalCache.tryAcquire, empty]
    | some obj =>
      refine .plain plain ⟨rfl, rfl, rfl⟩ (fun quantity => ?_) ⟨sized, trivial⟩
      have moved := moved quantity
      simp [Thread.slots, Place.locals, found] at moved ⊢
      omega
  | pop =>
    simp only [acquireStep]
    cases queue : shared.freeQueue with
    | nil =>
      refine .plain plain ⟨rfl, rfl, rfl⟩ (fun quantity => ?_) ⟨sized, tidy, rfl, Nat.zero_le _⟩
      simp [Thread.slots, Place.locals]
    | cons obj rest =>
      refine .plain plain ⟨rfl, rfl, rfl⟩ (fun quantity => ?_) ⟨sized, trivial⟩
      simp [Thread.slots, Place.locals, queue]
      omega
  | steal i batch =>
    obtain ⟨empty, length, bound⟩ := tidy
    simp only [acquireStep]
    obtain ⟨after, locals, tidy'⟩ := stealEnd_kept config sized empty (length ▸ bound)
    split
    · rename_i more
      cases queue : shared.freeQueue with
      | nil =>
        refine .plain plain after (fun quantity => ?_) tidy'
        simp only [Thread.slots, Option.elim_some, locals, queue]
        rfl
      | cons obj rest =>
        -- As many slots as turns have been taken, so the array has room for one more.
        have room : batch.length < defaultBatchSize := by omega
        simp only [if_pos room]
        refine .plain plain ⟨rfl, rfl, rfl⟩ (fun quantity => ?_) ⟨sized, empty, ?_, more⟩
        · simp [Thread.slots, Place.locals, queue]; omega
        · simp [length]
    · refine .plain plain after (fun quantity => ?_) tidy'
      simp only [Thread.slots, Option.elim_some, locals]
      rfl
  | addBatch result objects =>
    obtain ⟨empty, short⟩ := tidy
    have room : objects.length + tls.cache.length ≤ tls.maxCacheSize := by
      have := enough result objects rfl
      rw [empty, sized]
      simp only [List.length_nil]
      omega
    have kept := ThreadLocalCache.addBatch_fits room
    refine .plain plain ⟨rfl, rfl, rfl⟩ (fun quantity => ?_) ⟨sized, trivial⟩
    simp [Thread.slots, Place.locals, kept]
    omega
  | popAllocated =>
    simp only [acquireStep]
    cases queue : shared.freeQueue with
    | nil =>
      refine .plain plain ⟨rfl, rfl, rfl⟩ (fun quantity => ?_) ⟨sized, trivial⟩
      simp [Thread.slots, Place.locals]
    | cons obj rest =>
      refine .plain plain ⟨rfl, rfl, rfl⟩ (fun quantity => ?_) ⟨sized, trivial⟩
      simp [Thread.slots, Place.locals, queue]
      omega
  | retry n =>
    simp only [acquireStep]
    split
    · cases queue : shared.freeQueue with
      | nil =>
        refine .plain plain ⟨rfl, rfl, rfl⟩ (fun quantity => ?_) ⟨sized, trivial⟩
        simp [Thread.slots, Place.locals]
      | cons obj rest =>
        refine .plain plain ⟨rfl, rfl, rfl⟩ (fun quantity => ?_) ⟨sized, trivial⟩
        simp [Thread.slots, Place.locals, queue]
        omega
    · refine .plain plain ⟨rfl, rfl, rfl⟩ (fun quantity => ?_) ⟨sized, trivial⟩
      simp [Thread.slots, Place.locals]
  | construct obj =>
    simp only [acquireStep]
    split
    · exact .plain plain ⟨rfl, rfl, rfl⟩ (fun quantity => rfl) ⟨sized, trivial⟩
    · refine .plain plain ⟨rfl, rfl, rfl⟩ (fun quantity => ?_) ⟨sized, trivial⟩
      simp [Thread.slots, Place.locals]
      omega
  | pushUnconstructed obj =>
    refine .plain plain ⟨rfl, rfl, rfl⟩ (fun quantity => ?_) ⟨sized, trivial⟩
    simp [Thread.slots, Place.locals]
    omega
  | _ => exact .plain plain plain (fun _ => rfl) ⟨sized, tidy⟩

/-- A step of `release` keeps the slots and the books. -/
theorem releaseStep_kept {tls : ThreadLocalCache} {place : Place}
    (tidy : Thread.Tidy config ⟨tls, some place⟩) (plain : Place.Plain (some place)) :
    Kept config shared ⟨tls, some place⟩ (releaseStep shared ⟨tls, some place⟩ place) := by
  obtain ⟨sized, tidy⟩ := tidy
  cases place with
  | tryRelease obj =>
    simp only [releaseStep, ThreadLocalCache.tryRelease]
    -- The cache takes the slot if it has room for it.
    split
    · refine .plain plain ⟨rfl, rfl, rfl⟩ (fun quantity => ?_) ⟨sized, trivial⟩
      simp [Thread.slots, Place.locals]
    · exact .plain plain ⟨rfl, rfl, rfl⟩ (fun quantity => rfl) ⟨sized, trivial⟩
  -- The slot goes from the caller's hands to the queue.
  | pushReleased obj =>
    refine .plain plain ⟨rfl, rfl, rfl⟩ (fun quantity => ?_) ⟨sized, trivial⟩
    simp [Thread.slots, Place.locals]
    omega
  | shouldBatchReturn =>
    simp only [releaseStep]
    split
    · exact .plain plain ⟨rfl, rfl, rfl⟩ (fun quantity => rfl) ⟨sized, trivial⟩
    · exact .plain plain ⟨rfl, rfl, rfl⟩ (fun quantity => rfl) ⟨sized, trivial⟩
  | extract =>
    refine .plain plain ⟨rfl, rfl, rfl⟩ (fun quantity => ?_) ⟨sized, trivial⟩
    -- The batch leaves the cache for the local variable of the call.
    have moved := tls.tally_extractBatch quantity defaultBatchSize
    simp [Thread.slots, Place.locals]
    omega
  | pushBatch batch =>
    cases batch with
    | nil =>
      refine .plain plain ⟨rfl, rfl, rfl⟩ (fun quantity => ?_) ⟨sized, trivial⟩
      simp [Thread.slots, Place.locals]
    -- One slot of the batch goes to the queue, and the others follow.
    | cons obj rest =>
      refine .plain plain ⟨rfl, rfl, rfl⟩ (fun quantity => ?_) ⟨sized, trivial⟩
      simp [Thread.slots, Place.locals]
      omega
  | _ => exact .plain plain plain (fun _ => rfl) ⟨sized, tidy⟩

/-- Returning from `allocate_chunk` keeps the slots, and the books but for the flag. -/
theorem allocated_kept {tls : ThreadLocalCache} {place : Place} {flag : Bool}
    (sized : tls.maxCacheSize = config.tlsCacheSize) (locals : place.locals = [])
    (unpublished : place.unpublished = 0) (uncounted : place.uncounted = 0)
    (released : shared.flag = place.locks + if flag then 1 else 0) (result : Bool)
    (caller : Caller) :
    Kept config shared ⟨tls, some place⟩
      (allocated { shared with allocating := flag } ⟨tls, some place⟩ result caller) := by
  -- The place where the caller goes on has no slots and no chunk either.
  have returned : ∀ (lifetime : Lifetime) (place' : Option Place), Place.Plain place' →
      place'.elim [] Place.locals = [] → Thread.Tidy config ⟨tls, place'⟩ →
      Kept config shared ⟨tls, some place⟩
        ({ shared with allocating := flag, lifetime := lifetime }, ⟨tls, place'⟩) := by
    intro lifetime place' plain nothing tidy
    refine ⟨fun quantity => ?_, ?_, ?_, ?_, .inl rfl, tidy, rfl⟩
    · simp only [Thread.slots, Option.elim_some, locals, nothing]
      rfl
    · simp only [Thread.at_, Option.elim_some, plain.1, Nat.zero_add]
      exact released
    · simp only [Thread.at_, Option.elim_some, plain.2.1, unpublished]
    · simp only [Thread.at_, Option.elim_some, plain.2.2, uncounted]
  cases caller with
  | constructor => exact returned _ _ ⟨rfl, rfl, rfl⟩ rfl ⟨sized, trivial⟩
  | acquire => cases result <;> exact returned _ _ ⟨rfl, rfl, rfl⟩ rfl ⟨sized, trivial⟩

/-- A step of `allocate_chunk` keeps the slots and the books. -/
theorem allocateStep_kept {tls : ThreadLocalCache} {place : Place}
    (tidy : Thread.Tidy config ⟨tls, some place⟩) (fails : Bool)
    (locked : place.locks ≤ shared.flag) :
    Kept config shared ⟨tls, some place⟩
      (allocateStep shared ⟨tls, some place⟩ fails place) := by
  have sized : tls.maxCacheSize = config.tlsCacheSize := tidy.1
  -- A thread that has taken the flag finds it set.
  have taken : place.locks = 1 → shared.allocating = true := by
    intro locks
    by_contra free
    simp [Shared.flag, locks, free] at locked
  cases place with
  | testAndSet count caller =>
    simp only [allocateStep]
    split
    · exact allocated_kept sized rfl rfl rfl (by simp [Place.locks, Shared.flag]) _ _
    · rename_i free
      refine ⟨fun quantity => rfl, ?_, rfl, rfl, .inl rfl, ⟨sized, trivial⟩, rfl⟩
      simp [Thread.at_, Place.locks, Shared.flag, free]
  | newChunk count caller =>
    simp only [allocateStep]
    split
    · exact ⟨fun quantity => rfl, rfl, rfl, rfl, .inl rfl, ⟨sized, trivial⟩, rfl⟩
    · refine ⟨fun quantity => ?_, rfl, ?_, rfl, .inr ⟨count, rfl⟩, ⟨sized, trivial⟩, rfl⟩
      · simp [Thread.slots, Place.locals, Shared.slots, MemoryChunk.slots]
        omega
      · simp [Thread.at_, Place.unpublished]
        omega
  | clearFailed caller | clear caller =>
    have flag := taken rfl
    exact allocated_kept sized rfl rfl rfl (by simp [Place.locks, Shared.flag, flag]) _ _
  | pushSlot chunk i caller =>
    simp only [allocateStep]
    split
    · rename_i inside
      refine ⟨fun quantity => ?_, rfl, rfl, rfl, .inl rfl, ⟨sized, trivial⟩, rfl⟩
      have next := MemoryChunk.slotsFrom_next inside
      simp [Thread.slots, Place.locals, next, MemoryChunk.getSlot, Nat.not_le.mpr inside,
        Shared.slots]
      omega
    · rename_i outside
      refine ⟨fun quantity => ?_, rfl, rfl, rfl, .inl rfl, ⟨sized, trivial⟩, rfl⟩
      have none_ := MemoryChunk.slotsFrom_end (Nat.le_of_not_lt outside)
      simp [Thread.slots, Place.locals, none_]
  | loadHead chunk caller =>
    exact ⟨fun quantity => rfl, rfl, rfl, rfl, .inl rfl, ⟨sized, trivial⟩, rfl⟩
  | exchange chunk oldHead caller =>
    simp only [allocateStep]
    split
    · exact ⟨fun quantity => rfl, rfl, rfl, rfl, .inl rfl, ⟨sized, trivial⟩, rfl⟩
    · rename_i same
      simp only [not_or, not_not] at same
      refine ⟨fun quantity => rfl, rfl, ?_, ?_, .inl rfl, ⟨sized, trivial⟩, rfl⟩
      · simp [Thread.at_, Place.unpublished, same.2]
        omega
      · simp [Thread.at_, Place.uncounted, same.2]
        omega
  | addTotal chunk caller =>
    refine ⟨fun quantity => rfl, rfl, rfl, ?_, .inl rfl, ⟨sized, trivial⟩, rfl⟩
    simp [allocateStep, Thread.at_, Place.uncounted]
    omega
  | _ => exact ⟨fun quantity => rfl, rfl, rfl, rfl, .inl rfl, tidy, rfl⟩

/-- A step of a call keeps the slots and the books. -/
theorem placeStep_kept (arrays : config.batchSize ≤ defaultBatchSize) {tls : ThreadLocalCache}
    {place : Place} (enough : config.Room (some place))
    (tidy : Thread.Tidy config ⟨tls, some place⟩) (fails : Bool)
    (locked : place.locks ≤ shared.flag) :
    Kept config shared ⟨tls, some place⟩
      (placeStep config shared ⟨tls, some place⟩ fails place) := by
  cases place with
  -- The places are those of the three calls: growing, releasing and acquiring.
  | testAndSet | newChunk | clearFailed | pushSlot | loadHead | exchange | addTotal | clear =>
    exact allocateStep_kept tidy fails locked
  | tryRelease | pushReleased | shouldBatchReturn | extract | pushBatch =>
    exact releaseStep_kept tidy ⟨rfl, rfl, rfl⟩
  | _ => exact acquireStep_kept arrays enough tidy fails ⟨rfl, rfl, rfl⟩

variable {ι : Type} [Fintype ι]

/-- The books of the whole pool: every slot of a chunk is somewhere, and every chunk is counted. -/
structure State.Accounted (config : Config) (state : State ι) : Prop where
  slots : ∀ quantity, tally quantity state.shared.held + tally quantity state.shared.freeQueue +
    ∑ at_, tally quantity (state.thread at_).slots = tally quantity state.shared.slots
  locks : ∑ at_, (state.thread at_).at_ Place.locks = state.shared.flag
  published : tally MemoryChunk.count state.shared.chunkHead +
    ∑ at_, (state.thread at_).at_ Place.unpublished = tally MemoryChunk.count state.shared.chunks
  counted : state.shared.totalAllocated + ∑ at_, (state.thread at_).at_ Place.uncounted =
    tally MemoryChunk.count state.shared.chunkHead
  numbered : state.shared.chunks.map MemoryChunk.id = List.range state.shared.chunks.length
  tidy : ∀ at_, (state.thread at_).Tidy config
  noFault : state.shared.fault = none

variable {state next : State ι} {label : Label ι}

/-- A slot of a chunk that `operator new` has delivered. -/
def State.Allocated (state : State ι) (slot : Slot) : Prop :=
  ∃ chunk ∈ state.shared.chunks, slot.chunk = chunk.id ∧ slot.index < chunk.count

/-- How often a slot occurs: with the callers, in the free queue, in caches and in running calls. -/
def State.places (state : State ι) (slot : Slot) : Nat :=
  state.shared.held.count slot + state.shared.freeQueue.count slot +
    ∑ at_, ((state.thread at_).cache.cache.count slot +
      ((state.thread at_).place.elim [] Place.locals).count slot)

/-- Every slot of a chunk is in exactly one place, and nothing else is in any. -/
def State.Partitioned (state : State ι) : Prop :=
  ∀ slot, (state.Allocated slot → state.places slot = 1) ∧
    (¬ state.Allocated slot → state.places slot = 0)

/-- No thread is inside of a call. -/
def State.Quiet (state : State ι) : Prop := ∀ at_, (state.thread at_).place = none

/-- The total is what callers, free queue and caches have, and what the published chunks have. -/
def State.Balanced (state : State ι) : Prop :=
  state.shared.totalAllocated = state.shared.held.length + state.shared.freeQueue.length +
      ∑ at_, (state.thread at_).cache.cache.length ∧
    state.shared.totalAllocated = (state.shared.chunkHead.map MemoryChunk.count).sum ∧
    state.shared.allocating = false

/-- The slots of a chunk are those with its number and an index below its count. -/
theorem MemoryChunk.mem_slots {chunk : MemoryChunk} {slot : Slot} :
    slot ∈ chunk.slots ↔ slot.chunk = chunk.id ∧ slot.index < chunk.count := by
  cases slot with
  | mk id index =>
    simp only [slots, slotsFrom, List.mem_map, List.mem_range'_1, Slot.mk.injEq]
    -- The indices run from zero to the count.
    constructor
    · rintro ⟨other, inside, rfl, rfl⟩
      exact ⟨rfl, by omega⟩
    · rintro ⟨rfl, inside⟩
      exact ⟨index, by omega, rfl, rfl⟩

/-- The slots of different chunks differ, and so do those of one chunk. -/
theorem State.Accounted.nodup (accounted : state.Accounted config) : state.shared.slots.Nodup := by
  -- Chunks are numbered in the order in which they were made.
  have numbers : (state.shared.chunks.map MemoryChunk.id).Nodup := by
    rw [accounted.numbered]
    exact List.nodup_range
  refine List.nodup_flatMap.mpr ⟨fun chunk _ => ?_, ?_⟩
  · -- Inside of a chunk, the indices tell the slots apart.
    refine (List.nodup_range' ..).map ?_
    intro first second same
    exact (Slot.mk.inj same).2
  · refine (List.pairwise_map.mp numbers).imp ?_
    -- Across two chunks, their numbers do.
    intro first second different slot inFirst inSecond
    exact different ((MemoryChunk.mem_slots.mp inFirst).1.symm.trans
      (MemoryChunk.mem_slots.mp inSecond).1)

/-- In a state whose books are kept, every slot is in exactly one place. -/
theorem State.Accounted.everywhere (accounted : state.Accounted config) : state.Partitioned := by
  intro slot
  -- The places of a slot are its occurrences among the slots of the chunks.
  have total : state.places slot = state.shared.slots.count slot := by
    have counted := accounted.slots fun other => if other = slot then 1 else 0
    simp only [← count_eq_tally] at counted
    rw [← counted]
    simp only [State.places, Thread.slots, List.count_append]
  have member : slot ∈ state.shared.slots ↔ state.Allocated slot := by
    simp only [Shared.slots, List.mem_flatMap, MemoryChunk.mem_slots, State.Allocated]
  rw [total, ← member]
  exact ⟨List.count_eq_one_of_mem accounted.nodup, List.count_eq_zero.mpr⟩

/-- The slots with callers, queue and threads are those counted, and those about to be counted. -/
theorem State.Accounted.total (accounted : state.Accounted config) :
    state.shared.totalAllocated + ∑ at_, (state.thread at_).at_ Place.unpublished +
        ∑ at_, (state.thread at_).at_ Place.uncounted =
      state.shared.held.length + state.shared.freeQueue.length +
        ∑ at_, (state.thread at_).slots.length := by
  have slots := accounted.slots fun _ => 1
  have published := accounted.published
  have counted := accounted.counted
  -- The slots of a chunk are as many as it counts.
  have size : tally (fun _ => 1) state.shared.slots =
      tally MemoryChunk.count state.shared.chunks := by
    rw [← length_eq_tally, Shared.slots, List.length_flatMap, tally]
    simp [MemoryChunk.slots, MemoryChunk.slotsFrom]
  simp only [← length_eq_tally] at slots size
  omega

/-- Between two calls, the books balance. -/
theorem State.Accounted.balanced (accounted : state.Accounted config) (quiet : state.Quiet) :
    state.Balanced := by
  -- Nobody is in a call, so nobody holds slots, and no chunk waits to be counted.
  have total := accounted.total
  have locks := accounted.locks
  have counted := accounted.counted
  simp only [Thread.slots, Thread.at_, quiet _, Option.elim_none, List.append_nil,
    Finset.sum_const_zero, Nat.add_zero] at total locks counted
  refine ⟨total, counted, ?_⟩
  -- The flag would have to be held by some thread.
  by_contra set
  simp [Shared.flag, set] at locks

/-- The books of a pool that has no chunk yet are kept. -/
theorem init_accounted (config : Config) : (State.init ι config).Accounted config := by
  refine ⟨fun quantity => ?_, ?_, ?_, ?_, rfl, fun _ => ⟨rfl, trivial⟩, rfl⟩ <;>
    simp [State.init, Thread.slots, Shared.slots, Thread.at_, Shared.flag]

variable [DecidableEq ι]

/-- A step of one thread that keeps its part of the books keeps all of them. -/
theorem State.Accounted.withThread (accounted : state.Accounted config) {at_ : ι}
    {shared' : Shared} {thread' : Thread}
    (kept : Kept config state.shared (state.thread at_) (shared', thread')) :
    (state.withThread at_ shared' thread').Accounted config := by
  -- In every sum over the threads, only the term of this one changes.
  have changed : ∀ quantity : Thread → Nat,
      (∑ other, quantity ((state.withThread at_ shared' thread').thread other)) +
        quantity (state.thread at_) = (∑ other, quantity (state.thread other)) + quantity thread' :=
    fun quantity => sum_update Finset.univ state.thread quantity thread' (Finset.mem_univ at_)
  refine ⟨fun quantity => ?_, ?_, ?_, ?_, ?_, fun other => ?_, kept.noFault.trans accounted.noFault⟩
  · have moved := kept.slots quantity
    have before := accounted.slots quantity
    have sums := changed fun thread => tally quantity thread.slots
    simp only [State.withThread] at moved sums ⊢
    omega
  · have moved := kept.locks
    have before := accounted.locks
    have sums := changed fun thread => thread.at_ Place.locks
    simp only [State.withThread] at moved sums ⊢
    omega
  · have moved := kept.published
    have before := accounted.published
    have sums := changed fun thread => thread.at_ Place.unpublished
    simp only [State.withThread] at moved sums ⊢
    omega
  · have moved := kept.counted
    have before := accounted.counted
    have sums := changed fun thread => thread.at_ Place.uncounted
    simp only [State.withThread] at moved sums ⊢
    omega
  · have numbered := accounted.numbered
    rcases kept.numbered with same | ⟨count, added⟩
    · simp only at same
      simp only [State.withThread, same, numbered]
    · simp only at added
      simp only [State.withThread, added, List.map_append, numbered, List.length_append,
        List.map_cons, List.map_nil, List.length_cons, List.length_nil, List.range_succ]
  · by_cases same : other = at_
    · subst same; simpa [State.withThread] using kept.tidy
    · simpa [State.withThread, same] using accounted.tidy other

/-- Every step is one of a single thread, which keeps its part of the books. -/
theorem step_withThread (arrays : config.batchSize ≤ defaultBatchSize)
    (enough : ∀ at_, config.Room (state.thread at_).place)
    (tidy : ∀ at_, (state.thread at_).Tidy config)
    (locked : ∑ at_, (state.thread at_).at_ Place.locks = state.shared.flag)
    (noFault : state.shared.fault = none) (taken : step config state label = some next) :
    ∃ at_ shared' thread', next = state.withThread at_ shared' thread' ∧
      Kept config state.shared (state.thread at_) (shared', thread') := by
  unfold step at taken
  rw [if_neg (by simp [noFault])] at taken
  cases label with
  | construct at_ =>
    simp only at taken
    split at taken
    · cases taken
    · rename_i enabled
      simp only [not_or, not_not, Bool.not_eq_true, Option.isSome_eq_false_iff,
        Option.isNone_iff_eq_none] at enabled
      cases taken
      refine ⟨at_, _, _, rfl, ⟨fun quantity => ?_, ?_, ?_, ?_, .inl rfl, ?_, rfl⟩⟩
      · simp [Thread.slots, enabled.2, Place.locals, Shared.slots]
      · simp [Thread.at_, enabled.2, Place.locks, Shared.flag]
      · simp [Thread.at_, enabled.2, Place.unpublished]
      · simp [Thread.at_, enabled.2, Place.uncounted]
      · exact ⟨(tidy at_).1, trivial⟩
  | acquire at_ =>
    simp only at taken
    split at taken
    · cases taken
    · rename_i enabled
      simp only [not_or, not_not, Bool.not_eq_true, Option.isSome_eq_false_iff,
        Option.isNone_iff_eq_none] at enabled
      cases taken
      refine ⟨at_, _, _, rfl, .plain (by rw [enabled.2]; exact ⟨rfl, rfl, rfl⟩)
        ⟨rfl, rfl, rfl⟩ (fun quantity => ?_) ⟨(tidy at_).1, trivial⟩⟩
      simp [Thread.slots, enabled.2, Place.locals]
  | release at_ obj =>
    simp only at taken
    split at taken
    · cases taken
    · rename_i enabled
      simp only [not_or, not_not, Bool.not_eq_true, Option.isSome_eq_false_iff,
        Option.isNone_iff_eq_none] at enabled
      cases taken
      refine ⟨at_, _, _, rfl, .plain (by rw [enabled.1]; exact ⟨rfl, rfl, rfl⟩)
        ⟨rfl, rfl, rfl⟩ (fun quantity => ?_) ⟨(tidy at_).1, trivial⟩⟩
      have erased := tally_erase quantity enabled.2
      simp [Thread.slots, enabled.1, Place.locals]
      omega
  | run at_ fails =>
    obtain ⟨place, inside, rfl⟩ := Option.map_eq_some_iff.mp taken
    have thread : state.thread at_ = ⟨(state.thread at_).cache, some place⟩ := by rw [← inside]
    have tidy := tidy at_
    -- A thread that holds the flag is one of those that the flag counts.
    have locks : place.locks ≤ state.shared.flag := by
      have term := Finset.single_le_sum (f := fun other => (state.thread other).at_ Place.locks)
        (fun _ _ => Nat.zero_le _) (Finset.mem_univ at_)
      rw [locked] at term
      simpa [Thread.at_, inside] using term
    rw [thread] at tidy
    have kept : Kept config state.shared ⟨_, _⟩ _ :=
      placeStep_kept arrays (inside ▸ enough at_) tidy fails locks
    rw [← thread] at kept
    exact ⟨at_, _, _, rfl, kept⟩

/-- Every step keeps the books. -/
theorem step_accounted (arrays : config.batchSize ≤ defaultBatchSize)
    (enough : ∀ at_, config.Room (state.thread at_).place) (accounted : state.Accounted config)
    (taken : step config state label = some next) : next.Accounted config := by
  obtain ⟨at_, shared', thread', rfl, kept⟩ :=
    step_withThread arrays enough accounted.tidy accounted.locks accounted.noFault taken
  exact accounted.withThread kept

/--
Every slot of every chunk is in exactly one place at every moment of every run.

No batch overruns its array, and whenever no call is running the total is that of the slots
with callers, in the free queue and in the caches, and that of the published chunks.
-/
theorem partitioned {labels : List (Label ι)} {finish : State ι}
    (run : Transition.Run (step {}) Transition.anyStep (State.init ι {}) labels finish) :
    finish.shared.fault = none ∧ finish.Partitioned ∧ (finish.Quiet → finish.Balanced) := by
  -- The default configuration leaves enough room in the arrays.
  have fits : Config.Fits {} := ⟨by decide, by decide⟩
  have accounted : finish.Accounted {} :=
    run.invariant (init_accounted {}) fun _ _ _ holds _ taken =>
      step_accounted fits.1 (fun _ _ _ _ => fits.2) holds taken
  exact ⟨accounted.noFault, accounted.everywhere, accounted.balanced⟩

/-- The first thread constructs the pool and acquires a slot, which the second one releases. -/
theorem partitioned_handedOver :
    ∃ finish : State (Fin 2),
      (finish.shared.fault = none ∧ finish.Partitioned ∧ (finish.Quiet → finish.Balanced)) ∧
        (finish.thread 1).cache.cache = [⟨0, 0⟩] := by
  -- The steps are those of the construction, of one acquire and of one release.
  have executed : (Transition.exec (step {}) (State.init (Fin 2) {})
      (.construct 0 :: List.replicate 135 (.run 0 false) ++
        .acquire 0 :: List.replicate 3 (.run 0 false) ++
        .release 1 ⟨0, 0⟩ :: List.replicate 2 (.run 1 false))).any
        fun finish => (finish.thread 1).cache.cache = [⟨0, 0⟩] := by decide +kernel
  obtain ⟨finish, reached, kept⟩ := (Option.any_eq_true _ _).mp executed
  exact ⟨finish, partitioned (.of_exec reached), by simpa using kept⟩

end Braid.Memory
