import Braid.Memory.Growth

/-! How far a pool grows when any number of its calls run at the same time. -/

namespace Braid.Memory

open Counting Transition

/-- The most slots that a chunk has, and that a call has in its local variables. -/
def Config.most (config : Config) : Nat :=
  max (max config.initialCount config.chunkSize) (max config.batchSize 1)

/-- How far the pool may grow for a number of threads and of objects that are held at a time. -/
def Config.crowd (config : Config) (threads peak : Nat) : Nat :=
  peak + threads * (config.tlsCacheSize + config.most) + (threads + 1) * config.most

/-- A call that is about to make a chunk, for the pool or for want of slots. -/
def Place.allocates : Place → Nat
  | .testAndSet .. | .newChunk .. => 1
  | _ => 0

/-- What a call at a place may have, next to what is in the cache of its thread. -/
def Place.Small (config : Config) (cached : Nat) : Place → Prop
  | .testAndSet count _ | .newChunk count _ => count ≤ config.most
  | .pushSlot chunk _ _ => chunk.count ≤ config.most
  | .pushBatch batch => batch.length + cached ≤ config.tlsCacheSize
  | _ => True

/-- A thread has no more slots than its cache may keep, and than a call may have. -/
structure Thread.Small (config : Config) (thread : Thread) : Prop where
  cache : thread.cache.cache.length ≤ config.tlsCacheSize
  place : ∀ place, thread.place = some place → place.Small config thread.cache.cache.length

/--
What a step does to the chunks.

A chunk is made by a call that was about to, and a call is about to when it has found the free
queue empty.
-/
structure Adds (config : Config) (shared : Shared) (place : Place) (result : Shared × Thread) :
    Prop where
  small : result.2.Small config
  chunks : ∃ more, result.1.chunks = shared.chunks ++ more ∧
    (tally MemoryChunk.count more + config.most * result.2.at_ Place.allocates ≤
        config.most * place.allocates ∨
      more = [] ∧ shared.freeQueue = [])
  born : shared.lifetime ≠ .unborn → result.1.lifetime ≠ .unborn

section Steps

variable {config : Config} {shared : Shared} {thread : Thread} {fails : Bool} {place : Place}

/-- A call has one slot, or a batch of them, or those of a chunk that it has not pushed yet. -/
theorem Thread.Small.length_slots (small : thread.Small config) (tidy : thread.Tidy config) :
    thread.slots.length ≤ config.tlsCacheSize + config.most := by
  obtain ⟨cached, placed⟩ := small
  obtain ⟨-, tidy⟩ := tidy
  have one : 1 ≤ config.most := by simp [Config.most]
  have batch : config.batchSize ≤ config.most := by simp [Config.most]
  rw [Thread.slots, List.length_append]
  -- Besides its cache, a thread has what the local variables of its call hold.
  cases inside : thread.place with
  | none => simpa using Nat.le_add_right_of_le cached
  | some place =>
    have placed := placed place inside
    rw [inside] at tidy
    rw [Option.elim_some]
    cases place <;> simp only [Place.Small, Place.locals, MemoryChunk.slotsFrom, List.length_map,
      List.length_range', List.length_cons, List.length_nil] at placed tidy ⊢ <;> omega

/-- A step that makes no chunk, and is not followed by one that does unless the queue is empty. -/
theorem Adds.none {result : Shared × Thread}
    (cached : result.2.cache.cache.length ≤ config.tlsCacheSize)
    (placed : ∀ place', result.2.place = some place' →
      place'.Small config result.2.cache.cache.length)
    (chunks : result.1.chunks = shared.chunks)
    (fewer : result.2.at_ Place.allocates ≤ place.allocates ∨ shared.freeQueue = [])
    (born : shared.lifetime ≠ .unborn → result.1.lifetime ≠ .unborn) :
    Adds config shared place result where
  small := ⟨cached, placed⟩
  chunks := by
    refine ⟨[], by rw [chunks, List.append_nil], ?_⟩
    -- No chunk is made, whether or not one is about to be.
    rcases fewer with fewer | empty
    · refine .inl ?_
      rw [tally_nil, Nat.zero_add]
      exact Nat.mul_le_mul_left _ fewer
    · exact .inr ⟨rfl, empty⟩
  born := born

/-- A step of `acquire` makes no chunk, and goes on to make one if it has found no slot. -/
theorem acquireStep_adds (positive : 1 ≤ config.batchSize) (fails : Bool)
    {tls : ThreadLocalCache} (sized : tls.maxCacheSize = config.tlsCacheSize)
    (tidy : Thread.Tidy config ⟨tls, some place⟩)
    (cached : tls.cache.length ≤ config.tlsCacheSize)
    (placed : place.Small config tls.cache.length) :
    Adds config shared place (acquireStep config shared ⟨tls, some place⟩ fails place) := by
  obtain ⟨-, tidy⟩ := tidy
  cases place with
  | tryAcquire =>
    simp only [acquireStep]
    refine .none ?_ ?_ rfl (.inl ?_) id
    · simp only [ThreadLocalCache.tryAcquire, List.length_dropLast]
      omega
    · rintro _ ⟨⟩
      split <;> trivial
    · cases tls.tryAcquire.1 <;> exact Nat.le_refl _
  | pop =>
    simp only [acquireStep]
    split <;> exact .none cached (by rintro _ ⟨⟩; trivial) rfl (.inl (Nat.le_refl _)) id
  | steal i batch =>
    obtain ⟨_, length, bound⟩ := tidy
    -- The loop is followed by a chunk if it has got nothing.
    have ends : ∀ place', some (stealEnd config batch) = some place' →
        place'.Small config tls.cache.length := by
      rintro _ ⟨⟩
      rcases batch with _ | ⟨_, _ | _⟩
      · simp [stealEnd, Place.Small, Config.most]
      · trivial
      · trivial
    simp only [acquireStep]
    split
    · split
      · rename_i empty
        exact .none cached ends rfl (.inr empty) id
      · split
        · exact .none cached (by rintro _ ⟨⟩; trivial) rfl (.inl (Nat.le_refl _)) id
        · exact .none cached (by rintro _ ⟨⟩; trivial) rfl (.inl (Nat.le_refl _)) id
    · -- At the end of the loop the batch is full, so that it has a slot.
      refine .none cached ends rfl (.inl ?_) id
      rcases batch with _ | ⟨_, _ | _⟩
      · simp only [List.length_nil] at length
        omega
      · exact Nat.le_refl _
      · exact Nat.le_refl _
  | addBatch result objects =>
    refine .none ?_ (by rintro _ ⟨⟩; trivial) rfl (.inl (Nat.le_refl _)) id
    simp only [acquireStep, ThreadLocalCache.addBatch, List.length_append, List.length_take]
    omega
  | popAllocated =>
    simp only [acquireStep]
    split
    · exact .none cached (by rintro _ ⟨⟩) rfl (.inl (Nat.le_refl _)) id
    · exact .none cached (by rintro _ ⟨⟩; trivial) rfl (.inl (Nat.le_refl _)) id
  | retry n =>
    simp only [acquireStep]
    split
    · split <;> exact .none cached (by rintro _ ⟨⟩; trivial) rfl (.inl (Nat.le_refl _)) id
    · exact .none cached (by rintro _ ⟨⟩) rfl (.inl (Nat.le_refl _)) id
  | construct obj =>
    simp only [acquireStep]
    split
    · exact .none cached (by rintro _ ⟨⟩; trivial) rfl (.inl (Nat.le_refl _)) id
    · exact .none cached (by rintro _ ⟨⟩) rfl (.inl (Nat.le_refl _)) id
  | pushUnconstructed obj =>
    exact .none cached (by rintro _ ⟨⟩) rfl (.inl (Nat.le_refl _)) id
  | _ => exact .none cached (by rintro _ ⟨⟩; exact placed) rfl (.inl (Nat.le_refl _)) id

/-- A step of `release` makes no chunk. -/
theorem releaseStep_adds {tls : ThreadLocalCache} (sized : tls.maxCacheSize = config.tlsCacheSize)
    (cached : tls.cache.length ≤ config.tlsCacheSize)
    (placed : place.Small config tls.cache.length) :
    Adds config shared place (releaseStep shared ⟨tls, some place⟩ place) := by
  cases place with
  | tryRelease obj =>
    simp only [releaseStep, ThreadLocalCache.tryRelease]
    split
    · rename_i room
      refine .none ?_ (by rintro _ ⟨⟩; trivial) rfl (.inl (Nat.le_refl _)) id
      simp only [List.length_append, List.length_singleton]
      omega
    · exact .none cached (by rintro _ ⟨⟩; trivial) rfl (.inl (Nat.le_refl _)) id
  | pushReleased obj =>
    exact .none cached (by rintro _ ⟨⟩; trivial) rfl (.inl (Nat.le_refl _)) id
  | shouldBatchReturn =>
    simp only [releaseStep]
    split
    · exact .none cached (by rintro _ ⟨⟩; trivial) rfl (.inl (Nat.le_refl _)) id
    · exact .none cached (by rintro _ ⟨⟩) rfl (.inl (Nat.le_refl _)) id
  | extract =>
    -- What is taken out of the cache is on its way to the queue.
    simp only [releaseStep]
    refine .none ?_ ?_ rfl (.inl (Nat.le_refl _)) id
    · simp only [ThreadLocalCache.extractBatch, List.length_take]
      omega
    · rintro _ ⟨⟩
      simp only [Place.Small, ThreadLocalCache.extractBatch, List.length_take, List.length_reverse]
      omega
  | pushBatch batch =>
    cases batch with
    | nil => exact .none cached (by rintro _ ⟨⟩) rfl (.inl (Nat.le_refl _)) id
    | cons obj rest =>
      refine .none cached ?_ rfl (.inl (Nat.le_refl _)) id
      rintro _ ⟨⟩
      simp only [releaseStep, Place.Small, List.length_cons] at placed ⊢
      omega
  | _ => exact .none cached (by rintro _ ⟨⟩; exact placed) rfl (.inl (Nat.le_refl _)) id

/-- A step of `allocate_chunk` makes a chunk if the call was about to. -/
theorem allocateStep_adds (fails : Bool) {tls : ThreadLocalCache}
    (cached : tls.cache.length ≤ config.tlsCacheSize)
    (placed : place.Small config tls.cache.length) :
    Adds config shared place (allocateStep shared ⟨tls, some place⟩ fails place) := by
  -- Whatever the call goes back to makes no chunk.
  have returns (flag result : Bool) (caller : Caller) : Adds config shared place
      (allocated { shared with allocating := flag } ⟨tls, some place⟩ result caller) := by
    cases caller with
    | constructor =>
      exact .none cached (by rintro _ ⟨⟩) rfl (.inl (Nat.zero_le _)) fun _ => by rintro ⟨⟩
    | acquire =>
      cases result <;>
        exact .none cached (by rintro _ ⟨⟩; trivial) rfl (.inl (Nat.zero_le _)) id
  cases place with
  | testAndSet count caller =>
    simp only [allocateStep]
    split
    · exact returns _ _ _
    · exact .none cached (by rintro _ ⟨⟩; exact placed) rfl (.inl (Nat.le_refl _)) id
  | newChunk count caller =>
    simp only [allocateStep]
    split
    · exact .none cached (by rintro _ ⟨⟩; trivial) rfl (.inl (Nat.zero_le _)) id
    · refine ⟨⟨cached, by rintro _ ⟨⟩; exact placed⟩, ⟨_, rfl, .inl ?_⟩, id⟩
      simpa [Thread.at_, Place.allocates, Place.Small] using placed
  | clearFailed caller => exact returns _ _ _
  | pushSlot chunk i caller =>
    simp only [allocateStep]
    split
    · exact .none cached (by rintro _ ⟨⟩; exact placed) rfl (.inl (Nat.le_refl _)) id
    · exact .none cached (by rintro _ ⟨⟩; trivial) rfl (.inl (Nat.le_refl _)) id
  | loadHead chunk caller =>
    exact .none cached (by rintro _ ⟨⟩; trivial) rfl (.inl (Nat.le_refl _)) id
  | exchange chunk oldHead caller =>
    simp only [allocateStep]
    split <;> exact .none cached (by rintro _ ⟨⟩; trivial) rfl (.inl (Nat.le_refl _)) id
  | addTotal chunk caller =>
    exact .none cached (by rintro _ ⟨⟩; trivial) rfl (.inl (Nat.le_refl _)) id
  | clear caller => exact returns _ _ _
  | _ => exact .none cached (by rintro _ ⟨⟩; exact placed) rfl (.inl (Nat.le_refl _)) id

/-- A step of a call makes a chunk if the call was about to. -/
theorem placeStep_adds (positive : 1 ≤ config.batchSize) (fails : Bool) {tls : ThreadLocalCache}
    (tidy : Thread.Tidy config ⟨tls, some place⟩) (small : Thread.Small config ⟨tls, some place⟩) :
    Adds config shared place (placeStep config shared ⟨tls, some place⟩ fails place) := by
  have cached := small.cache
  have placed := small.place place rfl
  cases place with
  -- The places are those of the three calls: growing, releasing and acquiring.
  | testAndSet | newChunk | clearFailed | pushSlot | loadHead | exchange | addTotal | clear =>
    exact allocateStep_adds fails cached placed
  | tryRelease | pushReleased | shouldBatchReturn | extract | pushBatch =>
    exact releaseStep_adds tidy.1 cached placed
  | _ => exact acquireStep_adds positive fails tidy.1 tidy cached placed

/-- A call is about to make one chunk at most. -/
theorem Thread.at_allocates_le_one (thread : Thread) : thread.at_ Place.allocates ≤ 1 := by
  unfold Thread.at_ Place.allocates
  -- A thread is at one place at most.
  cases thread.place with
  | none => exact Nat.zero_le _
  | some place => cases place <;> simp

end Steps

/-- One for a pool that is still to be constructed, which will make a chunk of its own accord. -/
def Shared.unborn (shared : Shared) : Nat := if shared.lifetime = .unborn then 1 else 0

variable {ι : Type} [Fintype ι]

/--
What holds of the growth of a pool, whatever its threads do at the same time.

The chunks that have been made and those that are about to be are within the limit.
-/
structure Crowded (config : Config) (peak own : Nat) (state : State ι) : Prop where
  small : ∀ at_, (state.thread at_).Small config
  held : state.shared.held.length ≤ peak
  chunks : own + config.most *
      (∑ at_, (state.thread at_).at_ Place.allocates + state.shared.unborn) ≤
    config.crowd (Fintype.card ι) peak

variable [DecidableEq ι] {config : Config} {peak own : Nat} {state next : State ι} {label : Label ι}

/-- The limit grows with the number of objects that are held. -/
theorem Config.crowd_mono (config : Config) (threads : Nat) {low high : Nat} (le : low ≤ high) :
    config.crowd threads low ≤ config.crowd threads high := by
  simp only [crowd]
  omega

/-- A thread does something to the chunks that a step of it may do. -/
theorem Crowded.withThread (crowded : Crowded config peak own state)
    (tidy : ∀ at_, (state.thread at_).Tidy config)
    (total : state.shared.held.length + state.shared.freeQueue.length +
      ∑ at_, (state.thread at_).slots.length = own) {at_ : ι} {shared' : Shared}
    {thread' : Thread} {more peak' : Nat} (small : thread'.Small config)
    (adds : more + config.most * (thread'.at_ Place.allocates + shared'.unborn) ≤
        config.most * ((state.thread at_).at_ Place.allocates + state.shared.unborn) ∨
      more = 0 ∧ state.shared.freeQueue = [])
    (held : shared'.held.length ≤ peak') (higher : peak ≤ peak') :
    Crowded config peak' (own + more) (state.withThread at_ shared' thread') := by
  have itself : (state.withThread at_ shared' thread').thread = Function.update state.thread at_
      thread' := rfl
  refine ⟨fun other => ?_, held, ?_⟩
  · rw [itself]
    by_cases same : other = at_
    · rw [same, Function.update_self]
      exact small
    · rw [Function.update_of_ne same]
      exact crowded.small other
  · refine Nat.le_trans ?_ (config.crowd_mono _ higher)
    have sums := sum_update Finset.univ state.thread (Thread.at_ Place.allocates) thread'
      (Finset.mem_univ at_)
    simp only [itself, State.withThread_shared]
    rcases adds with fewer | ⟨rfl, empty⟩
    · -- Only what this thread is about to make has changed.
      have before := crowded.chunks
      simp only [Nat.mul_add] at before fewer ⊢
      have scaled := congrArg (config.most * ·) sums
      simp only [Nat.mul_add] at scaled
      omega
    · -- The queue is empty, so that all slots are held or with the threads.
      have slots : ∑ other, (state.thread other).slots.length ≤
          Fintype.card ι * (config.tlsCacheSize + config.most) := by
        have bound := Finset.sum_le_card_nsmul Finset.univ _ _ fun other _ =>
          (crowded.small other).length_slots (tidy other)
        rwa [Finset.card_univ, smul_eq_mul] at bound
      have about : ∑ other, (Function.update state.thread at_ thread' other).at_ Place.allocates ≤
          Fintype.card ι := by
        have bound := Finset.sum_le_card_nsmul Finset.univ _ 1 fun other _ =>
          (Function.update state.thread at_ thread' other).at_allocates_le_one
        rwa [Finset.card_univ, smul_eq_mul, Nat.mul_one] at bound
      have unborn : shared'.unborn ≤ 1 := by
        unfold Shared.unborn
        split <;> omega
      have scaled := Nat.mul_le_mul_left config.most (Nat.add_le_add about unborn)
      have few := crowded.held
      rw [empty, List.length_nil] at total
      simp only [Config.crowd, Nat.mul_comm (Fintype.card ι + 1)]
      omega

/-- Every step keeps the chunks within the limit. -/
theorem step_crowded (positive : 1 ≤ config.batchSize) (crowded : Crowded config peak own state)
    (tidy : ∀ at_, (state.thread at_).Tidy config)
    (total : state.shared.held.length + state.shared.freeQueue.length +
      ∑ at_, (state.thread at_).slots.length = own)
    (taken : step config state label = some next) :
    ∃ more, next.shared.chunks = state.shared.chunks ++ more ∧
      Crowded config (max peak next.shared.held.length) (own + tally MemoryChunk.count more)
        next := by
  unfold step at taken
  split at taken
  · cases taken
  cases label with
  | construct at_ =>
    simp only [Option.ite_none_left_eq_some, not_or, not_not, Option.some.injEq] at taken
    obtain ⟨⟨unborn, outside⟩, rfl⟩ := taken
    refine ⟨[], (List.append_nil _).symm, crowded.withThread tidy total
      ⟨(crowded.small at_).cache, ?_⟩ (.inl ?_) (le_max_right ..) (le_max_left ..)⟩
    · rintro _ ⟨⟩
      simp [Place.Small, Config.most]
    · -- The chunk that the pool was to make is the one that the call is about to make.
      have outside : (state.thread at_).place = none := by simpa using outside
      simp [Shared.unborn, unborn, Thread.at_, outside, Place.allocates]
  | acquire at_ =>
    simp only [Option.ite_none_left_eq_some, not_or, not_not, Option.some.injEq] at taken
    obtain ⟨-, rfl⟩ := taken
    refine ⟨[], (List.append_nil _).symm, crowded.withThread tidy total
      ⟨(crowded.small at_).cache, by rintro _ ⟨⟩; trivial⟩ (.inl ?_) (le_max_right ..)
      (le_max_left ..)⟩
    -- A call that begins is not about to make a chunk yet.
    exact (Nat.zero_add _).trans_le (Nat.mul_le_mul_left _ (Nat.add_le_add_right (Nat.zero_le _) _))
  | release at_ obj =>
    simp only [Option.ite_none_left_eq_some, not_or, not_not, Option.some.injEq] at taken
    obtain ⟨-, rfl⟩ := taken
    refine ⟨[], (List.append_nil _).symm, crowded.withThread tidy total
      ⟨(crowded.small at_).cache, by rintro _ ⟨⟩; trivial⟩ (.inl ?_) (le_max_right ..)
      (le_max_left ..)⟩
    exact (Nat.zero_add _).trans_le (Nat.mul_le_mul_left _ (Nat.add_le_add_right (Nat.zero_le _) _))
  | run at_ fails =>
    obtain ⟨place, inside, rfl⟩ := Option.map_eq_some_iff.mp taken
    have thread : state.thread at_ = ⟨(state.thread at_).cache, some place⟩ := by rw [← inside]
    -- The step of a call that goes on makes a chunk, or prepares to make one.
    have adds : Adds config state.shared place
        (placeStep config state.shared ⟨(state.thread at_).cache, some place⟩ fails place) :=
      placeStep_adds positive fails (thread ▸ tidy at_) (thread ▸ crowded.small at_)
    rw [← thread] at adds
    obtain ⟨more, chunks, made⟩ := adds.chunks
    refine ⟨more, chunks, crowded.withThread tidy total adds.small ?_ (le_max_right ..)
      (le_max_left ..)⟩
    -- A pool that has been constructed stays constructed.
    have unborn : (placeStep config state.shared (state.thread at_) fails place).1.unborn ≤
        state.shared.unborn := by
      unfold Shared.unborn
      split
      · rename_i fresh
        rw [if_pos (by by_contra born; exact adds.born born fresh)]
      · exact Nat.zero_le _
    rcases made with fewer | ⟨rfl, empty⟩
    · refine .inl ?_
      have scaled := Nat.mul_le_mul_left config.most unborn
      rw [Nat.mul_add, Nat.mul_add, show (state.thread at_).at_ Place.allocates = place.allocates by
        simp [Thread.at_, inside]]
      omega
    · exact .inr ⟨rfl, empty⟩

omit [DecidableEq ι] in
/-- Nothing has been made for a pool that is still to be constructed. -/
theorem init_crowded (config : Config) : Crowded config 0 0 (State.init ι config) := by
  refine ⟨fun at_ => ⟨Nat.zero_le _, by rintro _ ⟨⟩⟩, Nat.le_refl _, ?_⟩
  simp only [State.init, Thread.at_, Option.elim_none, Finset.sum_const_zero, Shared.unborn,
    if_true, Config.crowd]
  -- The one chunk of the construction is allowed to any number of threads.
  have := Nat.mul_le_mul_right config.most (Nat.le_add_left 1 (Fintype.card ι))
  omega

/--
A pool does not grow without bound, whatever its threads do at the same time.

Whatever is released goes back to it, so that a chunk is made only when what is held at the moment
and what the threads have are all of its slots.
-/
theorem growth_crowded (positive : 1 ≤ config.batchSize) (fits : config.Fits)
    {labels : List (Label ι)}
    (run : Run (track (step config) recordPeak) anyStep (State.init ι config, 0) labels
      (state, peak)) :
    state.shared.totalAllocated ≤ config.crowd (Fintype.card ι) peak := by
  have kept := run.invariant (P := fun seen => seen.1.Accounted config ∧
      Crowded config seen.2 (tally MemoryChunk.count seen.1.shared.chunks) seen.1)
    ⟨init_accounted config, init_crowded config⟩ (by
      rintro seen label after ⟨accounted, crowded⟩ _ taken
      obtain ⟨taken, recorded⟩ := track_eq_some.mp taken
      -- The slots that are accounted for are those of the chunks.
      have total := accounted.total
      have published := accounted.published
      have counted := accounted.counted
      obtain ⟨more, chunks, grown⟩ := step_crowded positive crowded accounted.tidy (by omega) taken
      refine ⟨step_accounted fits.1 (fun _ _ _ _ => fits.2) accounted taken, ?_⟩
      rw [← recorded, chunks, tally_append]
      exact grown)
  obtain ⟨accounted, crowded⟩ := kept
  have bound := crowded.chunks
  have published := accounted.published
  have counted := accounted.counted
  simp only at bound published counted
  omega

end Braid.Memory
