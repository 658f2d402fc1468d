import Mathlib.Init

/-! Memory chunks, and the cache of free slots that a thread keeps for itself. -/

namespace Braid.Memory

/-- A slot of a chunk, which is what a pool hands out. -/
structure Slot where
  chunk : Nat
  index : Nat
  deriving DecidableEq, Repr

/-- A block of memory for a number of objects. -/
structure MemoryChunk where
  id : Nat
  count : Nat
  deriving DecidableEq, Repr

/-- `MemoryChunk::get_slot`. -/
def MemoryChunk.getSlot (chunk : MemoryChunk) (index : Nat) : Option Slot :=
  -- An index outside of the block is answered by a null pointer.
  if chunk.count ≤ index then none else some ⟨chunk.id, index⟩

/-- The slots of a chunk from some index on. -/
def MemoryChunk.slotsFrom (chunk : MemoryChunk) (index : Nat) : List Slot :=
  (List.range' index (chunk.count - index)).map (Slot.mk chunk.id)

/-- The slots of a chunk. -/
def MemoryChunk.slots (chunk : MemoryChunk) : List Slot := chunk.slotsFrom 0

/-- The slots of a chunk from one of its indices on, by the first of them. -/
theorem MemoryChunk.slotsFrom_next {chunk : MemoryChunk} {index : Nat} (inside : index < chunk.count) :
    chunk.slotsFrom index = ⟨chunk.id, index⟩ :: chunk.slotsFrom (index + 1) := by
  -- The range of the remaining indices begins with this one.
  have length : chunk.count - index = chunk.count - (index + 1) + 1 := by omega
  rw [slotsFrom, length, List.range'_succ, List.map_cons, slotsFrom]

/-- No slots remain behind the last index. -/
theorem MemoryChunk.slotsFrom_end {chunk : MemoryChunk} {index : Nat} (outside : chunk.count ≤ index) :
    chunk.slotsFrom index = [] := by
  rw [slotsFrom, Nat.sub_eq_zero_of_le outside]
  rfl

/-- `ThreadLocalCache`: the slots that one thread keeps, the last one on top. -/
structure ThreadLocalCache where
  maxCacheSize : Nat
  batchSize : Nat
  cache : List Slot
  deriving DecidableEq, Repr

namespace ThreadLocalCache

/-- `try_acquire`: takes the slot on top, if there is one. -/
def tryAcquire (tls : ThreadLocalCache) : Option Slot × ThreadLocalCache :=
  (tls.cache.getLast?, { tls with cache := tls.cache.dropLast })

/-- `try_release`: keeps a slot unless the cache is full. -/
def tryRelease (tls : ThreadLocalCache) (obj : Slot) : Bool × ThreadLocalCache :=
  if tls.cache.length < tls.maxCacheSize then (true, { tls with cache := tls.cache ++ [obj] })
  else (false, tls)

/-- `should_batch_return`: the cache is more than three quarters full. -/
def shouldBatchReturn (tls : ThreadLocalCache) : Bool :=
  tls.maxCacheSize * 3 / 4 < tls.cache.length

/-- `extract_batch`: takes slots from the top into an array of the given size. -/
def extractBatch (tls : ThreadLocalCache) (bufferSize : Nat) : List Slot × ThreadLocalCache :=
  -- The array is filled from the top of the cache downwards.
  let count := min tls.batchSize (min bufferSize tls.cache.length)
  (tls.cache.reverse.take count, { tls with cache := tls.cache.take (tls.cache.length - count) })

/-- `add_batch`: keeps slots as long as the cache is not full, and forgets the others. -/
def addBatch (tls : ThreadLocalCache) (objects : List Slot) : ThreadLocalCache :=
  { tls with cache := tls.cache ++ objects.take (tls.maxCacheSize - tls.cache.length) }

end ThreadLocalCache

end Braid.Memory
