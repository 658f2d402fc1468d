import Braid.Memory.Partition

/-! Several pools of one type, and the one cache through which a thread reaches all of them. -/

namespace Braid.Memory

open Transition

/-- The places of the calls that make use of `get_tls_cache`. -/
def Place.getsTlsCache : Place → Bool
  | .tryAcquire | .addBatch .. | .tryRelease _ | .shouldBatchReturn | .extract => true
  | _ => false

/-- `get_tls_cache`: the cache is made at the first call, with the sizes of the pool that is called. -/
def getTlsCache (config : Config) (tlsCache : Option ThreadLocalCache) : ThreadLocalCache :=
  tlsCache.getD ⟨config.tlsCacheSize, config.batchSize, []⟩

/-- What a thread in a call of one pool reads and writes. -/
structure Call (π : Type) where
  -- Every chunk that `operator new` has delivered, with the pool that it was for.
  chunks : List (π × MemoryChunk)
  shared : Shared
  -- The function-local static, which is null before the first call of the thread.
  tlsCache : Option ThreadLocalCache
  place : Option Place
  fault : Option Fault

/-- The next atomic step of a call. -/
def callStep {π : Type} (config : Config) (pool : π) (call : Call π) (fails : Bool)
    (place : Place) : Call π :=
  -- Chunks are numbered through all pools, so that no two slots are the same.
  let shared := { call.shared with chunks := call.chunks.map Prod.snd, fault := call.fault }
  let result := placeStep config shared ⟨getTlsCache config call.tlsCache, some place⟩ fails place
  { chunks := call.chunks ++ (result.1.chunks.drop call.chunks.length).map (pool, ·)
    shared := result.1
    tlsCache := if place.getsTlsCache then some result.2.cache else call.tlsCache
    place := result.2.place
    fault := result.1.fault }

/-- The pools of a type, and the threads that call them. -/
structure Pools (π ι : Type) where
  chunks : List (π × MemoryChunk)
  shared : π → Shared
  destroyed : π → Bool
  tlsCache : ι → Option ThreadLocalCache
  -- The pool that a thread has called, and its place inside of the call.
  place : ι → Option (π × Place)
  fault : Option Fault

namespace Pools

variable {π ι : Type}

/-- The state before the first pool is constructed. -/
def init (π ι : Type) (config : π → Config) : Pools π ι where
  chunks := []
  shared := fun pool => (State.init ι (config pool)).shared
  destroyed := fun _ => false
  tlsCache := fun _ => none
  place := fun _ => none
  fault := none

/-- What a thread sees that calls a pool. -/
def call (state : Pools π ι) (at_ : ι) (pool : π) (place : Option Place) : Call π :=
  ⟨state.chunks, state.shared pool, state.tlsCache at_, place, state.fault⟩

variable [DecidableEq π] [DecidableEq ι]

/-- A thread has done something in a call of a pool. -/
def withCall (state : Pools π ι) (at_ : ι) (pool : π) (call : Call π) : Pools π ι where
  chunks := call.chunks
  shared := Function.update state.shared pool call.shared
  destroyed := state.destroyed
  tlsCache := Function.update state.tlsCache at_ call.tlsCache
  place := Function.update state.place at_ (call.place.map (pool, ·))
  fault := call.fault

/--
What can happen next.

A pool is constructed or destroyed, a thread calls a pool, or a thread takes a step.
-/
inductive Label (π ι : Type) where
  | construct (thread : ι) (pool : π)
  | acquire (thread : ι) (pool : π)
  | release (thread : ι) (pool : π) (obj : Slot)
  | run (thread : ι) (fails : Bool)
  | destroy (pool : π)
  deriving DecidableEq

/-- The pool may be called: it has been constructed, and it has not been destroyed. -/
def Callable (state : Pools π ι) (pool : π) : Prop :=
  (state.shared pool).lifetime = .ready ∧ state.destroyed pool = false

instance (state : Pools π ι) (pool : π) : Decidable (state.Callable pool) :=
  inferInstanceAs (Decidable (_ ∧ _))

/-- One atomic step of the program. -/
def step [Fintype ι] (config : π → Config) (state : Pools π ι) (label : Label π ι) :
    Option (Pools π ι) :=
  if state.fault.isSome then none
  else match label with
  | .construct at_ pool =>
    if (state.shared pool).lifetime ≠ .unborn ∨ (state.place at_).isSome then none
    else
      let call := state.call at_ pool (some (.testAndSet (config pool).initialCount .constructor))
      some (state.withCall at_ pool
        { call with shared := { call.shared with lifetime := .constructing } })
  | .acquire at_ pool =>
    if ¬ state.Callable pool ∨ (state.place at_).isSome then none
    else some (state.withCall at_ pool (state.call at_ pool (some .tryAcquire)))
  | .release at_ pool obj =>
    -- An object goes back to the pool that it was acquired from.
    if (state.place at_).isSome ∨ obj ∉ (state.shared pool).held then none
    else
      let call := state.call at_ pool (some (.tryRelease obj))
      some (state.withCall at_ pool
        { call with shared := { call.shared with held := call.shared.held.erase obj } })
  | .run at_ fails =>
    (state.place at_).map fun inside =>
      let call := state.call at_ inside.1 (some inside.2)
      state.withCall at_ inside.1 (callStep (config inside.1) inside.1 call fails inside.2)
  | .destroy pool =>
    -- The destructor frees the chunks, when no object is out and no thread is in a call.
    if state.Callable pool ∧ (state.shared pool).held = [] ∧
        ∀ at_, (state.place at_).map Prod.fst ≠ some pool then
      some { state with destroyed := Function.update state.destroyed pool true }
    else none

/-- A slot of a chunk of the pool. -/
def Own (chunks : List (π × MemoryChunk)) (pool : π) (slot : Slot) : Prop :=
  ∃ chunk, (pool, chunk) ∈ chunks ∧ slot ∈ chunk.slots

/--
The pools are separate.

What callers have from a pool are slots of chunks that the pool has and has not freed, and a call
of a pool that makes use of the cache finds the sizes of that pool in it.
-/
structure Separate (config : π → Config) (state : Pools π ι) : Prop where
  slots : ∀ pool, ∀ slot ∈ (state.shared pool).held,
    state.destroyed pool = false ∧ Own state.chunks pool slot
  limits : ∀ at_ pool place, state.place at_ = some (pool, place) → place.getsTlsCache = true →
    (getTlsCache (config pool) (state.tlsCache at_)).maxCacheSize = (config pool).tlsCacheSize ∧
      (getTlsCache (config pool) (state.tlsCache at_)).batchSize = (config pool).batchSize

/-- Every thread calls only the pools that it uses. -/
def Within (uses : ι → π → Prop) (_ : Pools π ι) : Label π ι → Prop
  | .acquire at_ pool => uses at_ pool
  | .release at_ pool _ => uses at_ pool
  | _ => True

end Pools

section Slots

variable {config : Config} {shared : Shared} {thread : Thread} {fails : Bool} {place : Place}

/-- Whatever slots a call can come to hand out satisfy a predicate. -/
structure AllSlots (Q : Slot → Prop) (shared : Shared) (cache : ThreadLocalCache)
    (place : Option Place) (caches : Bool) : Prop where
  queue : ∀ slot ∈ shared.freeQueue, Q slot
  held : ∀ slot ∈ shared.held, Q slot
  cache : caches = true → ∀ slot ∈ cache.cache, Q slot
  locals : ∀ slot ∈ place.elim [] Place.locals, Q slot

/-- Where the loop of pops goes on, the call has the slots of the batch. -/
theorem stealEnd_locals (config : Config) (batch : List Slot) :
    (stealEnd config batch).locals = batch := by
  rcases batch with _ | ⟨result, _ | ⟨object, objects⟩⟩ <;> rfl

/-- A step hands slots on, and `operator new` is the only source of new ones. -/
theorem placeStep_slots {Q : Slot → Prop} {cache : ThreadLocalCache}
    (all : AllSlots Q shared cache (some place) place.getsTlsCache)
    (fresh : ∀ count caller, place = .newChunk count caller → fails = false →
      ∀ slot ∈ (⟨shared.chunks.length, count⟩ : MemoryChunk).slots, Q slot) :
    AllSlots Q (placeStep config shared ⟨cache, some place⟩ fails place).1
      (placeStep config shared ⟨cache, some place⟩ fails place).2.cache
      (placeStep config shared ⟨cache, some place⟩ fails place).2.place place.getsTlsCache := by
  obtain ⟨queue, held, cached, locals⟩ := all
  simp only [Option.elim_some] at locals
  cases place with
  | tryAcquire =>
    have cached := cached rfl
    simp only [placeStep, acquireStep, ThreadLocalCache.tryAcquire]
    refine ⟨queue, held, fun _ slot member => cached slot (List.dropLast_subset _ member), ?_⟩
    cases found : cache.cache.getLast? with
    | none => simp [Place.locals]
    | some obj => simpa [Place.locals] using cached obj (List.mem_of_getLast? found)
  | pop =>
    simp only [placeStep, acquireStep]
    split
    · exact ⟨queue, held, cached, by simp [Place.locals]⟩
    · rename_i obj rest nonempty
      simp only [nonempty, List.forall_mem_cons] at queue
      exact ⟨queue.2, held, cached, by simpa [Place.locals] using queue.1⟩
  | steal i batch =>
    have goesOn : ∀ slot ∈ (some (stealEnd config batch)).elim [] Place.locals, Q slot := by
      rw [Option.elim_some, stealEnd_locals]
      exact locals
    simp only [placeStep, acquireStep]
    split
    · split
      · exact ⟨queue, held, cached, goesOn⟩
      · rename_i obj rest nonempty
        simp only [nonempty, List.forall_mem_cons] at queue
        split
        · refine ⟨queue.2, held, cached, ?_⟩
          simpa [Place.locals, or_imp, forall_and, queue.1] using locals
        · exact ⟨by simpa [nonempty] using queue, held, cached, locals⟩
    · exact ⟨queue, held, cached, goesOn⟩
  | addBatch result objects =>
    have cached := cached rfl
    simp only [Place.locals, List.forall_mem_cons] at locals
    refine ⟨queue, held, fun _ slot member => ?_, by simpa [placeStep, acquireStep, Place.locals]
      using locals.1⟩
    -- The cache keeps slots of the batch, as many as it has room for.
    rcases List.mem_append.mp member with old | added
    · exact cached slot old
    · exact locals.2 slot (List.mem_of_mem_take added)
  | popAllocated =>
    simp only [placeStep, acquireStep]
    split
    · exact ⟨queue, held, cached, by simp [acquired]⟩
    · rename_i obj rest nonempty
      simp only [nonempty, List.forall_mem_cons] at queue
      exact ⟨queue.2, held, cached, by simpa [Place.locals] using queue.1⟩
  | retry n =>
    simp only [placeStep, acquireStep]
    split
    · split
      · exact ⟨queue, held, cached, by simp [Place.locals]⟩
      · rename_i obj rest nonempty
        simp only [nonempty, List.forall_mem_cons] at queue
        exact ⟨queue.2, held, cached, by simpa [Place.locals] using queue.1⟩
    · exact ⟨queue, held, cached, by simp [acquired]⟩
  | construct obj =>
    simp only [Place.locals, List.mem_singleton, forall_eq] at locals
    simp only [placeStep, acquireStep]
    split
    · exact ⟨queue, held, cached, by simpa [Place.locals] using locals⟩
    · exact ⟨queue, by simpa [acquired] using ⟨locals, held⟩, cached, by simp [acquired]⟩
  | pushUnconstructed obj =>
    simp only [Place.locals, List.mem_singleton, forall_eq] at locals
    refine ⟨?_, held, cached, by simp [placeStep, acquireStep, acquired]⟩
    simpa [placeStep, acquireStep, acquired, or_imp, forall_and, locals] using queue
  | testAndSet count caller =>
    simp only [placeStep, allocateStep]
    split
    · cases caller <;> exact ⟨queue, held, cached, by simp [allocated, Place.locals]⟩
    · exact ⟨queue, held, cached, by simp [Place.locals]⟩
  | newChunk count caller =>
    simp only [placeStep, allocateStep]
    split
    · exact ⟨queue, held, cached, by simp [Place.locals]⟩
    · rename_i succeeds
      exact ⟨queue, held, cached, fresh count caller rfl (by simpa using succeeds)⟩
  | clearFailed caller =>
    cases caller <;>
      exact ⟨queue, held, cached, by simp [placeStep, allocateStep, allocated, Place.locals]⟩
  | pushSlot chunk i caller =>
    simp only [placeStep, allocateStep]
    split
    · rename_i inside
      have outside : ¬ chunk.count ≤ i := by omega
      simp only [Place.locals, MemoryChunk.slotsFrom_next inside, List.forall_mem_cons] at locals
      refine ⟨?_, held, cached, by simpa [Place.locals] using locals.2⟩
      simpa [MemoryChunk.getSlot, outside, or_imp, forall_and, locals.1] using queue
    · exact ⟨queue, held, cached, by simp [Place.locals]⟩
  | loadHead chunk caller =>
    exact ⟨queue, held, cached, by simp [placeStep, allocateStep, Place.locals]⟩
  | exchange chunk oldHead caller =>
    simp only [placeStep, allocateStep]
    split <;> exact ⟨queue, held, cached, by simp [Place.locals]⟩
  | addTotal chunk caller =>
    exact ⟨queue, held, cached, by simp [placeStep, allocateStep, Place.locals]⟩
  | clear caller =>
    cases caller <;>
      exact ⟨queue, held, cached, by simp [placeStep, allocateStep, allocated, Place.locals]⟩
  | tryRelease obj =>
    have cached := cached rfl
    simp only [Place.locals, List.mem_singleton, forall_eq] at locals
    simp only [placeStep, releaseStep, ThreadLocalCache.tryRelease]
    split
    · refine ⟨queue, held, fun _ => ?_, by simp [Place.locals]⟩
      simpa [or_imp, forall_and, locals] using cached
    · exact ⟨queue, held, fun _ => cached, by simpa [Place.locals] using locals⟩
  | pushReleased obj =>
    simp only [Place.locals, List.mem_singleton, forall_eq] at locals
    refine ⟨?_, held, cached, by simp [placeStep, releaseStep, Place.locals]⟩
    simpa [placeStep, releaseStep, or_imp, forall_and, locals] using queue
  | shouldBatchReturn =>
    simp only [placeStep, releaseStep]
    split <;> exact ⟨queue, held, cached, by simp [Place.locals]⟩
  | extract =>
    have cached := cached rfl
    simp only [placeStep, releaseStep, ThreadLocalCache.extractBatch]
    refine ⟨queue, held, fun _ slot member => cached slot (List.mem_of_mem_take member), ?_⟩
    intro slot member
    exact cached slot (List.mem_reverse.mp (List.mem_of_mem_take member))
  | pushBatch batch =>
    cases batch with
    | nil => exact ⟨queue, held, cached, by simp [placeStep, releaseStep]⟩
    | cons obj rest =>
      simp only [Place.locals, List.forall_mem_cons] at locals
      refine ⟨?_, held, cached, by simpa [placeStep, releaseStep, Place.locals] using locals.2⟩
      simpa [placeStep, releaseStep, or_imp, forall_and, locals.1] using queue

/-- No step changes the sizes that a cache was made with. -/
theorem placeStep_sizes (place : Place) (cache : ThreadLocalCache) :
    (placeStep config shared ⟨cache, some place⟩ fails place).2.cache.maxCacheSize =
        cache.maxCacheSize ∧
      (placeStep config shared ⟨cache, some place⟩ fails place).2.cache.batchSize =
        cache.batchSize := by
  -- A call that returns from an allocation has its cache as it was.
  have returns (result : Bool) (caller : Caller) (shared : Shared) (place : Option Place) :
      (allocated shared ⟨cache, place⟩ result caller).2.cache = cache := by
    cases caller <;> rfl
  cases place <;>
    simp only [placeStep, acquireStep, allocateStep, releaseStep, ThreadLocalCache.tryAcquire,
      ThreadLocalCache.tryRelease, ThreadLocalCache.extractBatch, ThreadLocalCache.addBatch] <;>
    (repeat' split) <;> simp [returns, acquired]

/-- A call of `allocate_chunk` by the constructor of a pool. -/
def Place.inConstructor : Place → Bool
  | .testAndSet _ caller | .newChunk _ caller | .clearFailed caller | .pushSlot _ _ caller
  | .loadHead _ caller | .exchange _ _ caller | .addTotal _ caller | .clear caller =>
    caller = .constructor
  | _ => false

/-- A constructor calls nothing but `allocate_chunk`, up to its end. -/
theorem placeStep_inConstructor (constructs : place.inConstructor = true)
    {cache : ThreadLocalCache} : ∀ after,
       (placeStep config shared ⟨cache, some place⟩ fails place).2.place = some after →
        after.inConstructor = true := by
  intro after goesOn
  cases place <;>
    simp only [Place.inConstructor, decide_eq_true_eq, Bool.false_eq_true] at constructs <;>
    subst constructs <;> simp only [placeStep, allocateStep, allocated] at goesOn <;>
    (repeat' split at goesOn) <;> cases goesOn <;> rfl

end Slots

namespace Pools

variable {π ι : Type}

/-- A pool keeps its slots when chunks are added. -/
theorem Own.mono {chunks more : List (π × MemoryChunk)} {pool : π} {slot : Slot}
    (own : Own chunks pool slot) : Own (chunks ++ more) pool slot := by
  obtain ⟨chunk, member, inside⟩ := own
  exact ⟨chunk, List.mem_append_left _ member, inside⟩

variable {uses : ι → π → Prop} {config : π → Config} {state next : Pools π ι}

/-- A cache is filled with slots of a pool, and has the sizes of the pool. -/
structure CacheOf (config : π → Config) (chunks : List (π × MemoryChunk)) (pool : π)
    (cache : ThreadLocalCache) : Prop where
  slots : ∀ slot ∈ cache.cache, Own chunks pool slot
  maxCacheSize : cache.maxCacheSize = (config pool).tlsCacheSize
  batchSize : cache.batchSize = (config pool).batchSize

/-- What holds of the pools while every thread calls only the pools that it uses. -/
structure Kept (uses : ι → π → Prop) (config : π → Config) (state : Pools π ι) : Prop where
  queue : ∀ pool, ∀ slot ∈ (state.shared pool).freeQueue, Own state.chunks pool slot
  held : ∀ pool, ∀ slot ∈ (state.shared pool).held, Own state.chunks pool slot
  locals : ∀ at_ pool place, state.place at_ = some (pool, place) →
    ∀ slot ∈ place.locals, Own state.chunks pool slot
  called : ∀ at_ pool place, state.place at_ = some (pool, place) →
    place.inConstructor = false → uses at_ pool
  caches : ∀ at_ pool, uses at_ pool → ∀ cache, state.tlsCache at_ = some cache →
    CacheOf config state.chunks pool cache
  destroyed : ∀ pool, state.destroyed pool = true → (state.shared pool).lifetime = .ready ∧
    (state.shared pool).held = [] ∧ ∀ at_ place, state.place at_ ≠ some (pool, place)

/-- A cache is still that of a pool when chunks are added. -/
theorem CacheOf.mono {chunks more : List (π × MemoryChunk)} {pool : π} {cache : ThreadLocalCache}
    (of : CacheOf config chunks pool cache) : CacheOf config (chunks ++ more) pool cache :=
  ⟨fun slot member => (of.slots slot member).mono, of.maxCacheSize, of.batchSize⟩

/-- A pool that a thread is in a call of has not been destroyed. -/
theorem Kept.alive (kept : Kept uses config state) {at_ : ι} {pool : π} {place : Place}
    (inside : state.place at_ = some (pool, place)) : state.destroyed pool = false := by
  by_contra gone
  exact (kept.destroyed pool (by simpa using gone)).2.2 at_ place inside

/-- The cache that a call finds is that of its pool, or is made for it. -/
theorem Kept.cacheOf (kept : Kept uses config state) {at_ : ι} {pool : π} (used : uses at_ pool) :
    CacheOf config state.chunks pool (getTlsCache (config pool) (state.tlsCache at_)) := by
  cases found : state.tlsCache at_ with
  | none => exact ⟨by simp [getTlsCache], rfl, rfl⟩
  | some cache => exact kept.caches at_ pool used cache found

/-- Where every thread uses one pool at most, the pools are separate throughout. -/
theorem Kept.separate (kept : Kept uses config state) : Separate config state := by
  refine ⟨fun pool slot member => ⟨?_, kept.held pool slot member⟩, ?_⟩
  · -- A pool that was destroyed holds no slot.
    by_contra gone
    rw [(kept.destroyed pool (by simpa using gone)).2.1] at member
    cases member
  · intro at_ pool place inside gets
    -- A thread that is in a call of the pool uses it, and so made its cache for it.
    have used := kept.called at_ pool place inside (by cases place <;> first | rfl | cases gets)
    exact ⟨(kept.cacheOf used).maxCacheSize, (kept.cacheOf used).batchSize⟩

variable [DecidableEq π] [DecidableEq ι]

/-- What a thread does in a call of a pool concerns this pool and the cache of the thread. -/
theorem Kept.withCall (kept : Kept uses config state) {at_ : ι} {pool : π} {call : Call π}
    {more : List (π × MemoryChunk)} (chunks : call.chunks = state.chunks ++ more)
    (alive : state.destroyed pool = false)
    (queue : ∀ slot ∈ call.shared.freeQueue, Own call.chunks pool slot)
    (held : ∀ slot ∈ call.shared.held, Own call.chunks pool slot)
    (locals : ∀ place, call.place = some place → ∀ slot ∈ place.locals, Own call.chunks pool slot)
    (called : ∀ place, call.place = some place → place.inConstructor = false → uses at_ pool)
    (caches : ∀ other, uses at_ other → ∀ cache, call.tlsCache = some cache →
      CacheOf config call.chunks other cache) :
    Kept uses config (state.withCall at_ pool call) := by
  have grown {other : π} {slot : Slot} (own : Own state.chunks other slot) :
      Own call.chunks other slot := chunks ▸ own.mono
  -- Nothing is said of another pool or of another thread but that its chunks may have grown.
  have elsewhere {other : π} (different : other ≠ pool) :
      (state.withCall at_ pool call).shared other = state.shared other :=
    Function.update_of_ne different ..
  have placed {thread : ι} {other : π} {place : Place}
      (inside : (state.withCall at_ pool call).place thread = some (other, place)) :
      thread = at_ ∧ other = pool ∧ call.place = some place ∨
        thread ≠ at_ ∧ state.place thread = some (other, place) := by
    by_cases same : thread = at_
    · subst same
      simp only [Pools.withCall, Function.update_self, Option.map_eq_some_iff, Prod.mk.injEq] at inside
      obtain ⟨_, found, rfl, rfl⟩ := inside
      exact .inl ⟨rfl, rfl, found⟩
    · simp only [Pools.withCall, Function.update_of_ne same] at inside
      exact .inr ⟨same, inside⟩
  constructor
  · intro other
    by_cases same : other = pool
    · subst same
      simpa only [Pools.withCall, Function.update_self] using queue
    · rw [elsewhere same]
      exact fun slot member => grown (kept.queue other slot member)
  · intro other
    by_cases same : other = pool
    · subst same
      simpa only [Pools.withCall, Function.update_self] using held
    · rw [elsewhere same]
      exact fun slot member => grown (kept.held other slot member)
  · intro thread other place inside
    rcases placed inside with ⟨rfl, rfl, found⟩ | ⟨-, old⟩
    · exact locals place found
    · exact fun slot member => grown (kept.locals thread other place old slot member)
  · intro thread other place inside
    rcases placed inside with ⟨rfl, rfl, found⟩ | ⟨-, old⟩
    · exact called place found
    · exact kept.called thread other place old
  · intro thread other used cache found
    by_cases same : thread = at_
    · subst same
      simp only [Pools.withCall, Function.update_self] at found
      exact caches other used cache found
    · simp only [Pools.withCall, Function.update_of_ne same] at found
      have old : CacheOf config call.chunks other cache := by
        rw [chunks]
        exact (kept.caches thread other used cache found).mono
      exact old
  · intro other gone
    have gone : state.destroyed other = true := gone
    obtain ⟨ready, empty, outside⟩ := kept.destroyed other gone
    -- A pool that has been destroyed is not the one that is called.
    have different : other ≠ pool := by
      rintro rfl
      exact absurd (alive.symm.trans gone) (by decide)
    rw [elsewhere different]
    refine ⟨ready, empty, fun thread place inside => ?_⟩
    rcases placed inside with ⟨-, same, -⟩ | ⟨-, old⟩
    · exact different same
    · exact outside thread place old

/-- A step inside of a call keeps the slots of every pool apart. -/
theorem Kept.run (kept : Kept uses config state) (single : ∀ at_ p q, uses at_ p → uses at_ q → p = q)
    {at_ : ι} {pool : π} {place : Place} {fails : Bool}
    (inside : state.place at_ = some (pool, place)) :
    Kept uses config (state.withCall at_ pool
      (callStep (config pool) pool (state.call at_ pool (some place)) fails place)) := by
  let cache := getTlsCache (config pool) (state.tlsCache at_)
  let shared : Shared :=
    { state.shared pool with chunks := state.chunks.map Prod.snd, fault := state.fault }
  let after := callStep (config pool) pool (state.call at_ pool (some place)) fails place
  have chunks : ∃ more, after.chunks = state.chunks ++ more := ⟨_, rfl⟩
  obtain ⟨more, chunks⟩ := chunks
  have grown {slot : Slot} (own : Own state.chunks pool slot) : Own after.chunks pool slot :=
    chunks ▸ own.mono
  -- A thread that makes use of its cache is in a call of the one pool that it uses.
  have using_ (gets : place.getsTlsCache = true) : uses at_ pool :=
    kept.called at_ pool place inside (by cases place <;> first | rfl | cases gets)
  have before : AllSlots (Own after.chunks pool) shared cache (some place) place.getsTlsCache :=
    ⟨fun slot member => grown (kept.queue pool slot member),
      fun slot member => grown (kept.held pool slot member),
      fun gets slot member => grown ((kept.cacheOf (using_ gets)).slots slot member),
      fun slot member => grown (kept.locals at_ pool place inside slot member)⟩
  have moved := @placeStep_slots (config pool) shared fails place _ cache before (by
    rintro count caller rfl rfl slot member
    refine ⟨_, ?_, member⟩
    simp [after, callStep, Pools.call, placeStep, allocateStep, shared])
  refine kept.withCall chunks (kept.alive inside) moved.queue moved.held ?_ ?_ ?_
  · intro place' goesOn slot member
    have goesOn : (placeStep (config pool) shared ⟨cache, some place⟩ fails place).2.place =
        some place' := goesOn
    exact moved.locals slot (by rwa [goesOn])
  · intro place' goesOn outside
    refine kept.called at_ pool place inside ?_
    by_contra constructs
    have still := placeStep_inConstructor (by simpa using constructs) place' goesOn
    rw [still] at outside
    cases outside
  · intro other used cache' found
    by_cases gets : place.getsTlsCache = true
    · obtain rfl := single at_ other pool used (using_ gets)
      simp only [callStep, gets, if_true, Option.some.injEq] at found
      subst found
      have sizes := @placeStep_sizes (config other) shared fails place cache
      have own := kept.cacheOf used
      exact ⟨moved.cache gets, sizes.1.trans own.maxCacheSize, sizes.2.trans own.batchSize⟩
    · simp only [callStep, gets, Bool.false_eq_true, if_false] at found
      rw [chunks]
      exact (kept.caches at_ other used cache' found).mono

variable [Fintype ι]

/-- Every step keeps the slots of every pool apart. -/
theorem step_kept (single : ∀ at_ p q, uses at_ p → uses at_ q → p = q)
    {label : Label π ι} (kept : Kept uses config state) (permitted : Within uses state label)
    (taken : step config state label = some next) : Kept uses config next := by
  have known {pool : π} (lifetime : (state.shared pool).lifetime ≠ .ready ∨
      state.destroyed pool = false) : state.destroyed pool = false := by
    rcases lifetime with unready | alive
    · by_contra gone
      exact unready (kept.destroyed pool (by simpa using gone)).1
    · exact alive
  -- A call that begins leaves the cache of its thread as it is.
  have cached (at_ : ι) (other : π) (used : uses at_ other) (cache : ThreadLocalCache)
      (found : state.tlsCache at_ = some cache) : CacheOf config state.chunks other cache :=
    kept.caches at_ other used cache found
  unfold step at taken
  split at taken
  · cases taken
  · cases label with
    | construct at_ pool =>
      simp only [Option.ite_none_left_eq_some, not_or, Option.some.injEq, ne_eq, not_not] at taken
      obtain ⟨⟨unborn, -⟩, rfl⟩ := taken
      refine kept.withCall (List.append_nil _).symm (known (.inl (by simp [unborn])))
        (kept.queue pool) (kept.held pool) ?_ ?_ (cached at_)
      · rintro _ ⟨⟩ slot member
        cases member
      · rintro _ ⟨⟩ outside
        cases outside
    | acquire at_ pool =>
      simp only [Option.ite_none_left_eq_some, not_or, not_not, Option.some.injEq] at taken
      obtain ⟨⟨callable, -⟩, rfl⟩ := taken
      refine kept.withCall (List.append_nil _).symm callable.2
        (kept.queue pool) (kept.held pool) ?_ ?_ (cached at_)
      · rintro _ ⟨⟩ slot member
        cases member
      · exact fun _ _ _ => permitted
    | release at_ pool obj =>
      simp only [Option.ite_none_left_eq_some, not_or, not_not, Option.some.injEq] at taken
      obtain ⟨⟨-, out⟩, rfl⟩ := taken
      -- A pool that an object is out of has not been destroyed.
      have alive : state.destroyed pool = false := by
        by_contra gone
        rw [(kept.destroyed pool (by simpa using gone)).2.1] at out
        cases out
      refine kept.withCall (List.append_nil _).symm alive (kept.queue pool) ?_ ?_ ?_ (cached at_)
      · exact fun slot member => kept.held pool slot (List.mem_of_mem_erase member)
      · rintro _ ⟨⟩ slot member
        obtain rfl := List.mem_singleton.mp member
        exact kept.held pool slot out
      · exact fun _ _ _ => permitted
    | run at_ fails =>
      obtain ⟨⟨pool, place⟩, inside, rfl⟩ := Option.map_eq_some_iff.mp taken
      exact kept.run single inside
    | destroy pool =>
      simp only [Option.ite_none_right_eq_some, Option.some.injEq] at taken
      obtain ⟨⟨callable, empty, outside⟩, rfl⟩ := taken
      refine ⟨kept.queue, kept.held, kept.locals, kept.called, kept.caches, fun other gone => ?_⟩
      by_cases same : other = pool
      · subst same
        exact ⟨callable.1, empty, fun at_ place inside => outside at_ (by rw [inside]; rfl)⟩
      · exact kept.destroyed other (by simpa [Function.update_of_ne same] using gone)

section Needed

/-- The next step of a thread in a call of a pool, with what it reads and writes. -/
def threadStep (config : Config) (pool : π) (call : Call π) (fails : Bool) : Option (Call π) :=
  if call.fault.isSome then none else call.place.map (callStep config pool call fails)

omit [Fintype ι] in
/-- A thread that is replaced twice in the same call is replaced once. -/
theorem withCall_withCall (state : Pools π ι) (at_ : ι) (pool : π) (first second : Call π) :
    (state.withCall at_ pool first).withCall at_ pool second = state.withCall at_ pool second := by
  simp only [Pools.withCall, Function.update_idem]

/-- What a thread does in a call is a run, in which other threads and other pools stand still. -/
theorem run_call (state : Pools π ι) (at_ : ι) (pool : π) (fails : List Bool) :
    ∀ {start finish : Call π}, exec (threadStep (config pool) pool) start fails = some finish →
      Run (step config) (Within uses) (state.withCall at_ pool start)
        (fails.map (.run at_)) (state.withCall at_ pool finish) := by
  induction fails with
  | nil =>
    intro start finish executed
    cases executed
    exact .refl
  | cons fails rest ih =>
    intro start finish executed
    obtain ⟨middle, taken, remaining⟩ := Option.bind_eq_some_iff.mp executed
    simp only [threadStep] at taken
    split at taken
    · cases taken
    · next running =>
      obtain ⟨place, inside, rfl⟩ := Option.map_eq_some_iff.mp taken
      -- The thread finds its call as it was, and takes the step of its place.
      have same : (state.withCall at_ pool start).call at_ pool (some place) = start := by
        simp [Pools.call, Pools.withCall, ← inside]
      have stepped : step config (state.withCall at_ pool start) (.run at_ fails) =
          some (state.withCall at_ pool (callStep (config pool) pool start fails place)) := by
        have running : (state.withCall at_ pool start).fault.isSome = false :=
          Bool.eq_false_of_not_eq_true running
        have entered : (state.withCall at_ pool start).place at_ = some (pool, place) := by
          simp [Pools.withCall, inside]
        simp only [step, running, Bool.false_eq_true, if_false, entered, Option.map_some, same,
          withCall_withCall]
      exact (Run.single trivial stepped).trans (ih remaining)

/-- Pools of one slot each, and caches that keep one slot of the first pool and two of others. -/
def oneSlot (first : π) (pool : π) : Config := ⟨1, 1, if pool = first then 1 else 2, 1⟩

/-- A pool in which a slot is free, after the chunks that are given. -/
def oneFree (before : List MemoryChunk) : Shared :=
  ⟨[⟨before.length, 0⟩], [⟨before.length, 1⟩], 1, false, .ready, before ++ [⟨before.length, 1⟩],
    [], [], none⟩

omit [DecidableEq π] [DecidableEq ι] [Fintype ι] in
/-- The constructor of a pool adds a chunk of one slot. -/
theorem exec_construct (config : Config) (pool : π) (before : List (π × MemoryChunk))
    (tlsCache : Option ThreadLocalCache) :
    exec (threadStep config pool)
        ⟨before, ⟨[], [], 0, false, .constructing, [], [], [], none⟩, tlsCache,
          some (.testAndSet 1 .constructor), none⟩ (List.replicate 8 false) =
      some ⟨before ++ [(pool, ⟨before.length, 1⟩)], oneFree (before.map Prod.snd), tlsCache,
        none, none⟩ := by
  simp [exec, threadStep, callStep, placeStep, allocateStep, allocated, MemoryChunk.getSlot, oneFree,
    Place.getsTlsCache, List.replicate, ← List.map_drop]

omit [DecidableEq π] [DecidableEq ι] [Fintype ι] in
/-- The first call of a thread makes the cache, with the sizes of the pool that it calls. -/
theorem exec_acquire (config : Config) (pool : π) (chunks : List (π × MemoryChunk)) :
    exec (threadStep config pool)
        ⟨chunks, oneFree [], none, some .tryAcquire, none⟩ (List.replicate 3 false) =
      some ⟨chunks, ⟨[], [⟨0, 1⟩], 1, false, .ready, chunks.map Prod.snd, [⟨0, 0⟩],
        [some ⟨0, 0⟩], none⟩, some ⟨config.tlsCacheSize, config.batchSize, []⟩, none, none⟩ := by
  simp [exec, threadStep, callStep, placeStep, acquireStep, acquired, oneFree, getTlsCache,
    ThreadLocalCache.tryAcquire, Place.getsTlsCache, List.replicate, ← List.map_drop]

/-- A thread that uses two pools finds the sizes of the first one in its cache. -/
theorem not_separate {at_ : ι} {p q : π} (usesP : uses at_ p) (usesQ : uses at_ q)
    (different : q ≠ p) :
    ∃ labels finish, Run (step (oneSlot p)) (Within uses) (init π ι (oneSlot p)) labels finish ∧
      ¬ Separate (oneSlot p) finish := by
  -- Both pools are constructed.
  let both : List (π × MemoryChunk) := [(p, ⟨0, 1⟩), (q, ⟨1, 1⟩)]
  let first := (init π ι (oneSlot p)).withCall at_ p ⟨[(p, ⟨0, 1⟩)], oneFree [], none, none, none⟩
  let second := first.withCall at_ q ⟨both, oneFree [⟨0, 1⟩], none, none, none⟩
  have constructsP : step (oneSlot p) (init π ι (oneSlot p)) (.construct at_ p) =
      some ((init π ι (oneSlot p)).withCall at_ p
        ⟨[], ⟨[], [], 0, false, .constructing, [], [], [], none⟩, none,
          some (.testAndSet 1 .constructor), none⟩) := rfl
  have constructsQ : step (oneSlot p) first (.construct at_ q) =
      some (first.withCall at_ q
        ⟨[(p, ⟨0, 1⟩)], ⟨[], [], 0, false, .constructing, [], [], [], none⟩, none,
          some (.testAndSet 1 .constructor), none⟩) := by
    simp [step, first, Pools.withCall, Pools.call, Pools.init, State.init, oneSlot, different]
  -- The thread acquires from the first pool, and then goes to the second one.
  let third := second.withCall at_ p ⟨both, ⟨[], [⟨0, 1⟩], 1, false, .ready, [⟨0, 1⟩, ⟨1, 1⟩],
    [⟨0, 0⟩], [some ⟨0, 0⟩], none⟩, some ⟨1, 1, []⟩, none, none⟩
  have acquiresP : step (oneSlot p) second (.acquire at_ p) =
      some (second.withCall at_ p ⟨both, oneFree [], none, some .tryAcquire, none⟩) := by
    simp [step, second, first, Pools.withCall, Pools.call, Pools.init, Callable, oneFree,
      different.symm]
  have acquiresQ : step (oneSlot p) third (.acquire at_ q) =
      some (third.withCall at_ q
        ⟨both, oneFree [⟨0, 1⟩], some ⟨1, 1, []⟩, some .tryAcquire, none⟩) := by
    simp [step, third, second, first, Pools.withCall, Pools.call, Pools.init, Callable, oneFree,
      different]
  have sizes : oneSlot p p = ⟨1, 1, 1, 1⟩ := by simp [oneSlot]
  have madeP := @run_call _ _ uses (oneSlot p) _ _ _ (init π ι (oneSlot p)) at_ p _ _ _
    (exec_construct (oneSlot p p) p [] none)
  have madeQ := @run_call _ _ uses (oneSlot p) _ _ _ first at_ q _ _ _
    (exec_construct (oneSlot p q) q [(p, ⟨0, 1⟩)] none)
  have used := @run_call _ _ uses (oneSlot p) _ _ _ second at_ p _ _ _
    (exec_acquire (oneSlot p p) p both)
  rw [sizes] at used
  -- The guard permits the constructors, and the calls of the two pools that are used.
  have beginsP : Within uses (init π ι (oneSlot p)) (.construct at_ p) := trivial
  have beginsQ : Within uses first (.construct at_ q) := trivial
  have callsP : Within uses second (.acquire at_ p) := usesP
  have callsQ : Within uses third (.acquire at_ q) := usesQ
  have constructed := (((Run.single beginsP constructsP).trans madeP).trans
    (Run.single beginsQ constructsQ)).trans madeQ
  have acquired := (constructed.trans (Run.single callsP acquiresP)).trans used
  refine ⟨_, _, acquired.trans (Run.single callsQ acquiresQ), fun separate => ?_⟩
  have limits := (separate.limits at_ q .tryAcquire (by simp [Pools.withCall]) rfl).1
  simp [Pools.withCall, getTlsCache, oneSlot, different] at limits

end Needed

/--
When the pools of a type are separate: exactly if no thread uses two of them.

A thread uses a pool when it acquires from it or releases to it. The cache belongs to the thread
and to the type, and to no pool.
-/
theorem separate_iff (uses : ι → π → Prop) :
    (∀ (config : π → Config) (labels : List (Label π ι)) (finish : Pools π ι),
      Run (step config) (Within uses) (init π ι config) labels finish → Separate config finish) ↔
    ∀ at_ p q, uses at_ p → uses at_ q → p = q := by
  constructor
  · intro separate at_ p q usesP usesQ
    -- A thread that uses two pools can mix them up.
    by_contra different
    obtain ⟨labels, finish, run, mixed⟩ := not_separate usesP usesQ (Ne.symm different)
    exact mixed (separate _ labels finish run)
  · intro single config labels finish run
    -- Nothing has been used when the pools are still to be constructed.
    have start : Kept uses config (init π ι config) := by
      refine ⟨fun _ => ?_, fun _ => ?_, ?_, ?_, ?_, ?_⟩ <;> simp [init, State.init]
    exact (run.invariant start fun _ _ _ kept permitted taken =>
      step_kept single kept permitted taken).separate

/-- An object of the first pool is released, and the second pool hands its slot out. -/
def handsOver : List (Label (Fin 2) (Fin 1)) :=
  .construct 0 0 :: List.replicate 8 (.run 0 false) ++
    .construct 0 1 :: List.replicate 8 (.run 0 false) ++
    .acquire 0 0 :: List.replicate 3 (.run 0 false) ++
    .release 0 0 ⟨0, 0⟩ :: List.replicate 2 (.run 0 false) ++
    .destroy 0 :: .acquire 0 1 :: List.replicate 2 (.run 0 false)

/-- A slot of a pool that has been destroyed is acquired from another pool of the type. -/
theorem separation_fails :
    ((exec (step fun _ => ⟨1, 1, 32, 16⟩) (init (Fin 2) (Fin 1) fun _ => ⟨1, 1, 32, 16⟩)
      handsOver).map fun state => ((state.shared 1).held, state.destroyed 0, state.chunks)) =
        some ([⟨0, 0⟩], true, [(0, ⟨0, 1⟩), (1, ⟨1, 1⟩)]) ∧
      ¬ ∀ (pools threads : Nat) (config : Fin pools → Config)
        (labels : List (Label (Fin pools) (Fin threads))) (finish : Pools (Fin pools) (Fin threads)),
        Run (step config) anyStep (init (Fin pools) (Fin threads) config) labels finish →
          Separate config finish := by
  have executed : ((exec (step fun _ => ⟨1, 1, 32, 16⟩)
      (init (Fin 2) (Fin 1) fun _ => ⟨1, 1, 32, 16⟩) handsOver).map
        fun state => ((state.shared 1).held, state.destroyed 0, state.chunks)) =
          some ([⟨0, 0⟩], true, [(0, ⟨0, 1⟩), (1, ⟨1, 1⟩)]) := by decide +kernel
  refine ⟨executed, fun separate => ?_⟩
  obtain ⟨finish, reached, facts⟩ := Option.map_eq_some_iff.mp executed
  obtain ⟨held, destroyed, chunks⟩ := by simpa only [Prod.mk.injEq] using facts
  have own := ((separate 2 1 _ _ finish (Run.of_exec reached)).slots 1 ⟨0, 0⟩ (by simp [held])).2
  obtain ⟨chunk, member, inside⟩ := own
  -- The only chunk of the second pool is another one.
  rw [chunks] at member
  obtain rfl : chunk = ⟨1, 1⟩ := by simpa using member
  exact absurd inside (by decide)

end Pools

end Braid.Memory
