import Braid.Library.Allocation
import Braid.Library.Refinement
import Braid.Memory.Partition

/-! The pool as an allocator of objects, and the list of chunks that its destructor walks. -/

namespace Braid.Memory

open Counting Transition

variable {config : Config} {ι : Type} [DecidableEq ι] {state next : State ι} {label : Label ι}

/-- The object that a step constructs in a slot, or the one that it destroys. -/
def objectEvent (state : State ι) : Label ι → Option (Allocation.Event Slot)
  -- The object is destroyed at the call, before its slot is put anywhere.
  | .release _ obj => some (.free obj)
  | .run at_ fails =>
    match (state.thread at_).place with
    -- An object whose constructor throws has never been there.
    | some (.construct obj) => if fails then none else some (.allocate obj)
    | _ => none
  | _ => none

/-- A step that constructs no object leaves the slots that callers hold as they are. -/
theorem placeStep_held {shared : Shared} {thread : Thread} {fails : Bool} {place : Place}
    (other : ∀ obj, place = .construct obj → fails = true) :
    (placeStep config shared thread fails place).1.held = shared.held := by
  have allocated (shared : Shared) (result : Bool) (caller : Caller) :
      (allocated shared thread result caller).1.held = shared.held := by
    cases caller <;> rfl
  -- Only the end of `acquire` changes what callers hold, and most of its ends return null.
  cases place with
  | construct obj =>
    have thrown := other obj rfl
    simp [placeStep, acquireStep, thrown]
  | pop | popAllocated =>
    simp only [placeStep, acquireStep]
    cases shared.freeQueue <;> rfl
  | steal i batch =>
    simp only [placeStep, acquireStep]
    split
    · cases shared.freeQueue with
      | nil => rfl
      | cons obj rest =>
        simp only
        split <;> rfl
    · rfl
  | retry n =>
    simp only [placeStep, acquireStep]
    split
    · cases shared.freeQueue <;> rfl
    · rfl
  | testAndSet count caller =>
    simp only [placeStep, allocateStep]
    split
    · exact allocated _ _ _
    · rfl
  | newChunk count caller =>
    simp only [placeStep, allocateStep]
    split <;> rfl
  | pushSlot chunk i caller =>
    simp only [placeStep, allocateStep]
    split <;> rfl
  | exchange chunk oldHead caller =>
    simp only [placeStep, allocateStep]
    split <;> rfl
  | clearFailed caller => exact allocated _ _ _
  | clear caller => exact allocated _ _ _
  | pushBatch batch => cases batch <;> rfl
  | _ => rfl

variable [Fintype ι]

omit [DecidableEq ι] in
/-- A slot that a thread is about to construct an object in is held by no caller. -/
theorem State.Accounted.unheld (accounted : state.Accounted config) {at_ : ι} {obj : Slot}
    (place : (state.thread at_).place = some (.construct obj)) : obj ∉ state.shared.held := by
  intro held
  -- The slot would be in two places.
  have own := Finset.single_le_sum (f := fun other => (state.thread other).cache.cache.count obj +
    ((state.thread other).place.elim [] Place.locals).count obj) (fun _ _ => Nat.zero_le _)
    (Finset.mem_univ at_)
  simp only [place, Option.elim_some, Place.locals, List.count_singleton_self] at own
  have caller := List.count_pos_iff.mpr held
  obtain ⟨once, never⟩ := accounted.everywhere obj
  simp only [State.places] at once never
  -- A slot of a chunk is in one place, and any other one is in none.
  by_cases allocated : state.Allocated obj
  · have := once allocated
    omega
  · have := never allocated
    omega

/-- Every step hands out a slot, takes one back, or leaves what callers hold as it is. -/
theorem step_allocates (accounted : state.Accounted config)
    (taken : step config state label = some next) :
    exec Allocation.step state.shared.held (objectEvent state label).toList =
      some next.shared.held := by
  unfold step at taken
  rw [if_neg (by simp [accounted.noFault])] at taken
  cases label with
  | construct at_ =>
    simp only at taken
    split at taken <;> cases taken
    rfl
  | acquire at_ =>
    simp only at taken
    split at taken <;> cases taken
    rfl
  | release at_ obj =>
    simp only at taken
    split at taken <;> cases taken
    rename_i enabled
    -- Callers release what they hold.
    have held : obj ∈ state.shared.held := by
      by_contra missing
      exact enabled (.inr missing)
    simp [objectEvent, exec, Allocation.step, held]
  | run at_ fails =>
    obtain ⟨place, inside, rfl⟩ := Option.map_eq_some_iff.mp taken
    -- The one step that hands out a slot constructs an object in it, and does not fail.
    by_cases constructs : ∃ obj, place = .construct obj ∧ fails = false
    · obtain ⟨obj, rfl, rfl⟩ := constructs
      have unheld := accounted.unheld inside
      simp [objectEvent, inside, exec, Allocation.step, unheld, placeStep, acquireStep, acquired]
    · have kept : (placeStep config state.shared (state.thread at_) fails place).1.held =
          state.shared.held := placeStep_held fun obj same => by
        by_contra succeeds
        exact constructs ⟨obj, same, by simpa using succeeds⟩
      have none_ : objectEvent state (.run at_ fails) = none := by
        simp only [objectEvent, inside]
        split
        · rename_i obj same
          cases same
          rw [if_pos (by by_contra succeeds; exact constructs ⟨obj, rfl, by simpa using succeeds⟩)]
        · rfl
      rw [none_, State.withThread_shared, kept]
      rfl

/-- A chunk that a call has allocated and not yet put into the list of chunks. -/
def Place.unlinked : Place → List MemoryChunk
  | .pushSlot chunk _ _ => [chunk]
  | .loadHead chunk _ => [chunk]
  | .exchange chunk _ _ => [chunk]
  | _ => []

/-- The chunks that a thread has allocated and not yet put into the list. -/
def Thread.unlinked (thread : Thread) : List MemoryChunk := thread.place.elim [] Place.unlinked

/-- Every chunk is in the list, or in the hands of the thread that has allocated it. -/
structure State.Linked (state : State ι) : Prop where
  linked : ∀ quantity, tally quantity state.shared.chunkHead +
    ∑ at_, tally quantity (state.thread at_).unlinked = tally quantity state.shared.chunks
  numbered : state.shared.chunks.map MemoryChunk.id = List.range state.shared.chunks.length

/-- A step of one thread moves chunks, but neither loses nor doubles them. -/
structure Links (shared : Shared) (thread : Thread) (result : Shared × Thread) : Prop where
  linked : ∀ quantity, tally quantity result.1.chunkHead + tally quantity result.2.unlinked +
      tally quantity shared.chunks =
    tally quantity shared.chunkHead + tally quantity thread.unlinked +
      tally quantity result.1.chunks
  numbered : result.1.chunks = shared.chunks ∨
    ∃ count, result.1.chunks = shared.chunks ++ [⟨shared.chunks.length, count⟩]

omit [DecidableEq ι] [Fintype ι] in
/-- A step that touches neither the list nor a chunk in the hands of its thread. -/
theorem Links.aside {shared after : Shared} {thread thread' : Thread}
    (head : after.chunkHead = shared.chunkHead) (chunks : after.chunks = shared.chunks)
    (unlinked : thread'.unlinked = thread.unlinked) : Links shared thread (after, thread') where
  linked quantity := by rw [head, chunks, unlinked]
  numbered := .inl chunks

omit [DecidableEq ι] [Fintype ι] in
/-- Wherever the loop of pops ends, no chunk is in the hands of its thread. -/
theorem stealEnd_unlinked (config : Config) (batch : List Slot) :
    (stealEnd config batch).unlinked = [] := by
  match batch with
  | [] | [_] | _ :: _ :: _ => rfl

/-- A step of a call moves chunks, but neither loses nor doubles them. -/
theorem placeStep_links {shared : Shared} {tls : ThreadLocalCache} {place : Place} {fails : Bool} :
    Links shared ⟨tls, some place⟩ (placeStep config shared ⟨tls, some place⟩ fails place) := by
  -- Chunks move in two steps only: when one is made, and when the head is exchanged.
  cases place with
  | tryAcquire =>
    simp only [placeStep, acquireStep]
    cases tls.tryAcquire.1 <;> exact .aside rfl rfl rfl
  | pop | popAllocated =>
    simp only [placeStep, acquireStep]
    cases shared.freeQueue <;> exact .aside rfl rfl rfl
  | steal i batch =>
    simp only [placeStep, acquireStep]
    split
    · cases shared.freeQueue with
      | nil => exact .aside rfl rfl (stealEnd_unlinked config batch)
      | cons obj rest =>
        simp only
        split <;> exact .aside rfl rfl rfl
    · exact .aside rfl rfl (stealEnd_unlinked config batch)
  | retry n =>
    simp only [placeStep, acquireStep]
    split
    · cases shared.freeQueue <;> exact .aside rfl rfl rfl
    · exact .aside rfl rfl rfl
  | construct obj =>
    simp only [placeStep, acquireStep]
    split <;> exact .aside rfl rfl rfl
  | testAndSet count caller =>
    simp only [placeStep, allocateStep]
    split
    · cases caller <;> exact .aside rfl rfl rfl
    · exact .aside rfl rfl rfl
  | newChunk count caller =>
    simp only [placeStep, allocateStep]
    split
    · exact .aside rfl rfl rfl
    · -- The new chunk is in the hands of the thread.
      refine ⟨fun quantity => ?_, .inr ⟨count, rfl⟩⟩
      simp [Thread.unlinked, Place.unlinked]
      omega
  | pushSlot chunk i caller =>
    simp only [placeStep, allocateStep]
    split <;> exact .aside rfl rfl rfl
  | exchange chunk oldHead caller =>
    simp only [placeStep, allocateStep]
    split
    · exact .aside rfl rfl rfl
    · rename_i succeeds
      -- The head is still the one that the chunk has been linked to.
      have same : shared.chunkHead = oldHead := by
        by_contra changed
        exact succeeds (.inr changed)
      refine ⟨fun quantity => ?_, .inl rfl⟩
      simp [Thread.unlinked, Place.unlinked, same]
      omega
  | clearFailed caller | clear caller => cases caller <;> exact .aside rfl rfl rfl
  | shouldBatchReturn =>
    simp only [placeStep, releaseStep]
    split <;> exact .aside rfl rfl rfl
  | tryRelease obj =>
    simp only [placeStep, releaseStep]
    split <;> exact .aside rfl rfl rfl
  | pushBatch batch => cases batch <;> exact .aside rfl rfl rfl
  | _ => exact .aside rfl rfl rfl

/-- Every step keeps every chunk in the list or in the hands of one thread. -/
theorem step_linked (linked : state.Linked) (taken : step config state label = some next) :
    next.Linked := by
  -- In the sum over the threads, only the term of the one that takes the step changes.
  have changed {at_ : ι} {shared' : Shared} {thread' : Thread}
      (links : Links state.shared (state.thread at_) (shared', thread')) :
      (state.withThread at_ shared' thread').Linked := by
    refine ⟨fun quantity => ?_, ?_⟩
    · have before := linked.linked quantity
      have moved := links.linked quantity
      have sums := sum_update Finset.univ state.thread
        (fun thread => tally quantity thread.unlinked) thread' (Finset.mem_univ at_)
      simp only [State.withThread] at moved sums ⊢
      omega
    · have numbered := linked.numbered
      rcases links.numbered with same | ⟨count, added⟩
      · simp only at same
        simp only [State.withThread, same, numbered]
      · simp only at added
        simp only [State.withThread, added, List.map_append, numbered, List.length_append,
          List.map_cons, List.map_nil, List.length_cons, List.length_nil, List.range_succ]
  -- A thread that makes a call has no chunk, before and after it.
  have enters {at_ : ι} {shared' : Shared} {place : Place}
      (outside : (state.thread at_).place = none) (plain : place.unlinked = [])
      (same : shared'.chunkHead = state.shared.chunkHead ∧
        shared'.chunks = state.shared.chunks) :
      (state.withThread at_ shared' { state.thread at_ with place := some place }).Linked :=
    changed (.aside same.1 same.2 (by simp [Thread.unlinked, outside, plain]))
  unfold step at taken
  split at taken
  · cases taken
  -- The three calls begin outside of every other one, and the last case is a step inside.
  cases label with
  | construct at_ =>
    simp only at taken
    split at taken <;> cases taken
    rename_i enabled
    simp only [not_or, Bool.not_eq_true, Option.isSome_eq_false_iff,
      Option.isNone_iff_eq_none] at enabled
    exact enters enabled.2 rfl ⟨rfl, rfl⟩
  | acquire at_ =>
    simp only at taken
    split at taken <;> cases taken
    rename_i enabled
    simp only [not_or, Bool.not_eq_true, Option.isSome_eq_false_iff,
      Option.isNone_iff_eq_none] at enabled
    exact enters enabled.2 rfl ⟨rfl, rfl⟩
  | release at_ obj =>
    simp only at taken
    split at taken <;> cases taken
    rename_i enabled
    simp only [not_or, Bool.not_eq_true, Option.isSome_eq_false_iff,
      Option.isNone_iff_eq_none] at enabled
    exact enters enabled.1 rfl ⟨rfl, rfl⟩
  | run at_ fails =>
    obtain ⟨place, inside, rfl⟩ := Option.map_eq_some_iff.mp taken
    have thread : state.thread at_ = ⟨(state.thread at_).cache, some place⟩ := by rw [← inside]
    refine changed ?_
    rw [thread]
    exact placeStep_links

omit [DecidableEq ι] in
/-- A pool that has no chunk yet has an empty list. -/
theorem init_linked (config : Config) : (State.init ι config).Linked :=
  ⟨fun quantity => by simp [State.init, Thread.unlinked], rfl⟩

/--
The pool hands out memory as an allocator does, in every run.

An object is constructed only in a slot that has none, and destroyed only where there is one.
So the constructions and the destructions in a slot come in turn at every moment, however the
threads are interleaved, whichever of them releases an object, and whatever fails.
A slot with an object is memory of one of the chunks, and is neither free nor cached.
-/
theorem pool_allocates (fits : config.Fits) {labels : List (Label ι)} {finish : State ι}
    {events : List (Allocation.Event Slot)}
    (run : Run (track (step config) (recording objectEvent)) anyStep (State.init ι config, [])
      labels (finish, events)) :
    exec Allocation.step [] events = some finish.shared.held ∧
      (∀ first rest, events = first ++ rest → ∀ slot,
        first.count (.free slot) ≤ first.count (.allocate slot) ∧
          first.count (.allocate slot) ≤ first.count (.free slot) + 1) ∧
      ∀ slot ∈ finish.shared.held, finish.Allocated slot ∧ slot ∉ finish.shared.freeQueue ∧
        ∀ at_, slot ∉ (finish.thread at_).cache.cache := by
  have kept (state : State ι) (label : Label ι) (next : State ι)
      (accounted : state.Accounted config) (taken : step config state label = some next) :
      next.Accounted config :=
    step_accounted fits.1 (fun _ _ _ _ => fits.2) accounted taken
  -- The account of the slots is the invariant under which every step is one of an allocator.
  obtain ⟨accounted, executed⟩ := run.refines (init_accounted config) kept
    fun state _ next accounted taken => step_allocates accounted taken
  refine ⟨executed, fun first rest split slot => Allocation.alternates_of_exec executed split slot,
    fun slot held => ?_⟩
  -- The slot is with its caller, and so it is in no other place.
  obtain ⟨once, never⟩ := accounted.everywhere slot
  have caller := List.count_pos_iff.mpr held
  simp only [State.places] at once never
  have allocated : finish.Allocated slot := by
    by_contra foreign
    have := never foreign
    omega
  have only := once allocated
  refine ⟨allocated, fun queued => ?_, fun at_ cached => ?_⟩
  · have := List.count_pos_iff.mpr queued
    omega
  · have own := Finset.single_le_sum (f := fun other => (finish.thread other).cache.cache.count slot +
      ((finish.thread other).place.elim [] Place.locals).count slot) (fun _ _ => Nat.zero_le _)
      (Finset.mem_univ at_)
    have := List.count_pos_iff.mpr cached
    omega

/-- A pool of two slots, whose caches keep one each. -/
def twoSlots : Config := ⟨2, 1, 1, 1⟩

/-- The first thread constructs the pool and an object, and the second one destroys the object. -/
def passOn : List (Label (Fin 2)) :=
  .construct 0 :: List.replicate 9 (.run 0 false) ++
    .acquire 0 :: List.replicate 3 (.run 0 false) ++
    .release 1 ⟨0, 0⟩ :: List.replicate 5 (.run 1 false)

/-- The slot of the object is handed out and taken back, and no caller holds one in the end. -/
theorem pool_allocates_passOn :
    ∃ (finish : State (Fin 2)) (events : List (Allocation.Event Slot)),
      events = [.allocate ⟨0, 0⟩, .free ⟨0, 0⟩] ∧
      (exec Allocation.step [] events = some finish.shared.held ∧
        (∀ first rest, events = first ++ rest → ∀ slot,
          first.count (.free slot) ≤ first.count (.allocate slot) ∧
            first.count (.allocate slot) ≤ first.count (.free slot) + 1) ∧
        ∀ slot ∈ finish.shared.held, finish.Allocated slot ∧ slot ∉ finish.shared.freeQueue ∧
          ∀ at_, slot ∉ (finish.thread at_).cache.cache) ∧
      finish.shared.held = [] := by
  have executed : (exec (track (step twoSlots) (recording objectEvent))
      (State.init (Fin 2) twoSlots, []) passOn).any fun seen =>
        seen.2 = [.allocate ⟨0, 0⟩, .free ⟨0, 0⟩] ∧ seen.1.shared.held = [] := by decide +kernel
  obtain ⟨seen, reached, values⟩ := (Option.any_eq_true _ _).mp executed
  obtain ⟨events, held⟩ := of_decide_eq_true values
  have run : Run (track (step twoSlots) (recording objectEvent)) anyStep
      (State.init (Fin 2) twoSlots, []) passOn (seen.1, seen.2) := .of_exec reached
  exact ⟨seen.1, seen.2, events, pool_allocates ⟨by decide, by decide⟩ run, held⟩

/--
The list of chunks that the destructor walks has every chunk once.

Whatever threads allocate chunks at the same time, however often an exchange of the head fails and
whichever allocations throw, no chunk is lost or linked twice, and when no call is running the
destructor deletes exactly the chunks that `operator new` has delivered.
-/
theorem chunks_linked {labels : List (Label ι)} {finish : State ι}
    (run : Run (step config) anyStep (State.init ι config) labels finish) :
    finish.shared.chunkHead.Nodup ∧
      (∀ chunk ∈ finish.shared.chunkHead, chunk ∈ finish.shared.chunks) ∧
      (finish.Quiet → finish.shared.chunkHead.Perm finish.shared.chunks) := by
  have linked : finish.Linked := run.invariant (init_linked config)
    fun _ _ _ holds _ taken => step_linked holds taken
  -- The chunks are numbered, so none is there twice.
  have nodup : finish.shared.chunks.Nodup :=
    List.Nodup.of_map MemoryChunk.id (by rw [linked.numbered]; exact List.nodup_range)
  have counted (chunk : MemoryChunk) : finish.shared.chunkHead.count chunk +
      ∑ at_, (finish.thread at_).unlinked.count chunk = finish.shared.chunks.count chunk := by
    simpa only [count_eq_tally] using linked.linked fun other => if other = chunk then 1 else 0
  refine ⟨List.nodup_iff_count_le_one.mpr fun chunk => ?_, fun chunk member => ?_, fun quiet => ?_⟩
  · -- A chunk is in the list at most as often as it was delivered.
    have := List.nodup_iff_count_le_one.mp nodup chunk
    have := counted chunk
    omega
  · have := counted chunk
    have := List.count_pos_iff.mpr member
    exact List.count_pos_iff.mp (by omega)
  · -- When no call is running, no chunk is in the hands of a thread.
    refine List.perm_iff_count.mpr fun chunk => ?_
    have all := counted chunk
    simp only [Thread.unlinked, quiet _, Option.elim_none, List.count_nil,
      Finset.sum_const_zero, Nat.add_zero] at all
    exact all

/-- Both slots are acquired, and two threads find nothing and allocate one chunk after another. -/
def growTwice : List (Label (Fin 2)) :=
  .construct 0 :: List.replicate 9 (.run 0 false) ++
    .acquire 0 :: List.replicate 3 (.run 0 false) ++ .acquire 0 :: List.replicate 3 (.run 0 false) ++
    .acquire 0 :: List.replicate 13 (.run 0 false) ++
    .acquire 1 :: List.replicate 8 (.run 1 false) ++ .run 1 true :: List.replicate 5 (.run 1 false)

/-- Three chunks are in the list in the end, although one exchange of the head has failed. -/
theorem chunks_linked_growTwice :
    ∃ finish : State (Fin 2),
      (finish.shared.chunkHead.Nodup ∧
        (∀ chunk ∈ finish.shared.chunkHead, chunk ∈ finish.shared.chunks) ∧
        (finish.Quiet → finish.shared.chunkHead.Perm finish.shared.chunks)) ∧
      finish.shared.chunkHead = [⟨2, 1⟩, ⟨1, 1⟩, ⟨0, 2⟩] := by
  have executed : (exec (step twoSlots) (State.init (Fin 2) twoSlots) growTwice).any fun finish =>
      finish.shared.chunkHead = [⟨2, 1⟩, ⟨1, 1⟩, ⟨0, 2⟩] := by decide +kernel
  obtain ⟨finish, reached, chunks⟩ := (Option.any_eq_true _ _).mp executed
  exact ⟨finish, chunks_linked (.of_exec reached), of_decide_eq_true chunks⟩

end Braid.Memory
