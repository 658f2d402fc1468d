import Braid.Memory.Crowd

/-! The pools of event operations: where their slots come from, and where they go back to. -/

namespace Braid

open Counting Memory Transition

/-- The classes of event operations: `IOOperationNop` itself, and those derived from it. -/
inductive OperationClass (κ : Type) where
  | nop
  | derived (cls : κ)
  deriving DecidableEq

namespace IOPool

/-- Where an event operation is on its way from its request to its completion. -/
inductive Phase where
  | acquired
  | queued
  | submitted
  | completed
  deriving DecidableEq, Repr

/-- An event operation that has been constructed in a slot. -/
structure Operation where
  refCount : Nat
  phase : Phase
  deriving DecidableEq, Repr

end IOPool

/--
`IOPool`: one pool for each class, a static of `get_io_pool<T>`, and the operations in the slots.

Each pool has its own cache in every thread, and the sizes by default.
-/
structure IOPool (κ ι : Type) where
  -- Every chunk that `operator new` has delivered, with the class that its pool is for.
  chunks : List (OperationClass κ × MemoryChunk)
  shared : OperationClass κ → Memory.Shared
  thread : OperationClass κ → ι → Thread
  operation : κ → Slot → IOPool.Operation
  -- The operations whose last reference has been released, which no step reads.
  released : List (κ × Slot)

namespace IOPool

variable {κ ι : Type}

/-- The state before the first use of any pool. -/
def init (κ ι : Type) : IOPool κ ι where
  chunks := []
  shared := fun _ => (State.init ι {}).shared
  thread := fun _ => (State.init ι {}).thread
  operation := fun _ _ => ⟨0, .acquired⟩
  released := []

/-- `get_io_pool<T>`. Chunks are numbered through all pools, so that no two slots are the same. -/
def getIoPool (state : IOPool κ ι) (cls : OperationClass κ) : State ι :=
  ⟨{ state.shared cls with chunks := state.chunks.map Prod.snd }, state.thread cls⟩

/-- The slots of the chunks that the pool of a class has made. -/
def own [DecidableEq κ] (state : IOPool κ ι) (cls : OperationClass κ) : List Slot :=
  (state.chunks.filter fun entry => entry.1 = cls).flatMap fun entry => entry.2.slots

/--
What can happen next.

The first use of a pool constructs it. `request` is `Service::request_io<D>` up to its call of
`acquire`, and `push` what it does with the operation that it has got. A `submit` is that of the
worker that flushes its queue, and a `complete` that of the worker that gets the completion. Whoever
has a reference may take another one, or release it.
-/
inductive Label (κ ι : Type) where
  | construct (thread : ι) (cls : OperationClass κ)
  | request (thread : ι) (cls : κ)
  | run (thread : ι) (cls : OperationClass κ) (fails : Bool)
  | push (cls : κ) (obj : Slot)
  | submit (cls : κ) (obj : Slot)
  | complete (cls : κ) (obj : Slot)
  | addRef (cls : κ) (obj : Slot)
  | release (thread : ι) (cls : κ) (obj : Slot)
  deriving DecidableEq

/-- What is out of a pool is changed. -/
def withHeld (pool : State ι) (held : List Slot) : State ι :=
  { pool with shared := { pool.shared with held := held } }

section Steps

variable [DecidableEq κ]

/-- A thread has taken a step in the pool of a class. -/
def withPool (state : IOPool κ ι) (cls : OperationClass κ) (pool : State ι) : IOPool κ ι :=
  { state with
    chunks := state.chunks ++ (pool.shared.chunks.drop state.chunks.length).map (cls, ·)
    shared := Function.update state.shared cls pool.shared
    thread := Function.update state.thread cls pool.thread }

/-- An operation is changed. -/
def withOperation (state : IOPool κ ι) (cls : κ) (obj : Slot) (operation : Operation) :
    IOPool κ ι :=
  { state with operation :=
      Function.update state.operation cls (Function.update (state.operation cls) obj operation) }

/-- A constructor that has not thrown leaves an operation that nobody refers to. -/
def constructed (state : IOPool κ ι) (fails : Bool) :
    OperationClass κ → Option Place → IOPool κ ι
  | .derived cls, some (.construct obj) =>
    if fails then state else state.withOperation cls obj ⟨0, .acquired⟩
  | _, _ => state

variable [DecidableEq ι]

/--
`IOOperationNop::on_zero_ref`, which no derived class overrides: `g_io_pool.release(this)`.

The type of `this` is `IOOperationNop*`, whatever class the object is of. So it is the pool of
`IOOperationNop` whose `release` is called, with a slot that its `acquire` has not returned.
-/
def onZeroRef (state : IOPool κ ι) (at_ : ι) (cls : κ) (obj : Slot) : Option (IOPool κ ι) :=
  let own := state.getIoPool (.derived cls)
  let left := state.withPool (.derived cls) (withHeld own (own.shared.held.erase obj))
  let pool := left.getIoPool .nop
  if pool.shared.lifetime ≠ .ready then none
  else
    (Memory.step {} (withHeld pool (obj :: pool.shared.held)) (.release at_ obj)).map fun pool =>
      { left.withPool .nop pool with released := state.released ++ [(cls, obj)] }

/-- One atomic step of the program. -/
def step (state : IOPool κ ι) : Label κ ι → Option (IOPool κ ι)
  | .construct at_ cls =>
    (Memory.step {} (state.getIoPool cls) (.construct at_)).map (state.withPool cls)
  | .request at_ cls =>
    (Memory.step {} (state.getIoPool (.derived cls)) (.acquire at_)).map
      (state.withPool (.derived cls))
  | .run at_ cls fails =>
    (Memory.step {} (state.getIoPool cls) (.run at_ fails)).map fun pool =>
      (state.withPool cls pool).constructed fails cls (state.thread cls at_).place
  | .push cls obj =>
    -- `add_ref`, for the request queue and the ring, and then the queue.
    if obj ∈ (state.shared (.derived cls)).held ∧ (state.operation cls obj).phase = .acquired then
      some (state.withOperation cls obj ⟨(state.operation cls obj).refCount + 1, .queued⟩)
    else none
  | .submit cls obj =>
    if (state.operation cls obj).phase = .queued then
      some (state.withOperation cls obj { state.operation cls obj with phase := .submitted })
    else none
  | .complete cls obj =>
    if (state.operation cls obj).phase = .submitted then
      some (state.withOperation cls obj { state.operation cls obj with phase := .completed })
    else none
  | .addRef cls obj =>
    let operation := state.operation cls obj
    if operation.refCount = 0 then none
    else some (state.withOperation cls obj { operation with refCount := operation.refCount + 1 })
  | .release at_ cls obj =>
    let operation := state.operation cls obj
    let after := state.withOperation cls obj { operation with refCount := operation.refCount - 1 }
    -- The reference of the queue and the ring is not released before the completion.
    if obj ∉ (state.shared (.derived cls)).held ∨ operation.refCount = 0 ∨
        operation.refCount = 1 ∧ operation.phase ≠ .completed then none
    else if operation.refCount = 1 then after.onZeroRef at_ cls obj
    else some after

end Steps

/-- The last reference to an operation of a class is released. -/
def LastRelease (cls : κ) (state : IOPool κ ι) : Label κ ι → Prop
  | .release _ other obj => other = cls ∧ (state.operation other obj).refCount = 1
  | _ => False

instance [DecidableEq κ] (cls : κ) (state : IOPool κ ι) (label : Label κ ι) :
    Decidable (LastRelease cls state label) :=
  match label with
  | .release .. => inferInstanceAs (Decidable (_ ∧ _))
  | .construct .. | .request .. | .run .. | .push .. | .submit .. | .complete .. | .addRef .. =>
    instDecidableFalse

/-- What is remembered of a run: the most operations of a class that were in flight so far. -/
def recordPeak (cls : κ) (_ : IOPool κ ι) (_ : Label κ ι) (next : IOPool κ ι) (peak : Nat) : Nat :=
  max peak (next.shared (.derived cls)).held.length

/--
The operations of a class go back to their own pool.

The slots of the pool are those of the operations in flight and those that are free in it: on its
queue, in its caches, and in its running calls. And the pool has no more of them than the most
operations in flight at a time call for.
-/
structure OwnPool [DecidableEq κ] [Fintype ι] (cls : κ) (state : IOPool κ ι) (peak : Nat) :
    Prop where
  slots : ∀ slot, (state.own (.derived cls)).count slot =
    (state.shared (.derived cls)).held.count slot +
      (state.shared (.derived cls)).freeQueue.count slot +
      ∑ at_, (state.thread (.derived cls) at_).slots.count slot
  growth : (state.own (.derived cls)).length ≤ ({} : Config).crowd (Fintype.card ι) peak

/-- The slots of operations of a class whose last reference has been released. -/
def lost [DecidableEq κ] (released : List (κ × Slot)) : OperationClass κ → List Slot
  | .nop => []
  | .derived cls => (released.filter fun entry => entry.1 = cls).map Prod.snd

/-- The slots that have come to a pool from other ones. -/
def found (released : List (κ × Slot)) : OperationClass κ → List Slot
  | .nop => released.map Prod.snd
  | .derived _ => []

section Books

variable [Fintype ι]

/-- Every slot of a pool is with the callers, on its queue or with a thread, or has been lost. -/
structure Balanced (own lost : List Slot) (pool : State ι) : Prop where
  slots : ∀ quantity, tally quantity pool.shared.held + tally quantity pool.shared.freeQueue +
    ∑ at_, tally quantity (pool.thread at_).slots + tally quantity lost = tally quantity own
  locks : ∑ at_, (pool.thread at_).at_ Place.locks = pool.shared.flag
  tidy : ∀ at_, (pool.thread at_).Tidy {}
  noFault : pool.shared.fault = none

/-- The books of all pools, with the slots that one of them has lost to another one. -/
def Books [DecidableEq κ] (state : IOPool κ ι) : Prop :=
  ∀ cls, Balanced (state.own cls ++ found state.released cls) (lost state.released cls)
    (state.getIoPool cls)

variable [DecidableEq ι] {own gone : List Slot} {pool next : State ι} {label : Memory.Label ι}

/-- A step of a pool keeps its books, with the slots of the chunk that it may have made. -/
theorem Balanced.step (balanced : Balanced own gone pool)
    (taken : Memory.step {} pool label = some next) :
    ∃ more, next.shared.chunks = pool.shared.chunks ++ more ∧
      Balanced (own ++ more.flatMap MemoryChunk.slots) gone next := by
  obtain ⟨at_, shared', thread', rfl, kept⟩ := step_withThread (by decide)
    (fun _ _ _ _ => by decide) balanced.tidy balanced.locks balanced.noFault taken
  have grown : ∃ more, shared'.chunks = pool.shared.chunks ++ more := by
    rcases kept.numbered with same | ⟨count, added⟩
    · exact ⟨[], by rw [List.append_nil]; exact same⟩
    · exact ⟨_, added⟩
  obtain ⟨more, chunks⟩ := grown
  refine ⟨more, chunks, ?_⟩
  -- In every sum over the threads, only the term of this one changes.
  have changed (quantity : Thread → Nat) := sum_update Finset.univ pool.thread quantity thread'
    (Finset.mem_univ at_)
  refine ⟨fun quantity => ?_, ?_, fun other => ?_, kept.noFault.trans balanced.noFault⟩
  · have moved := kept.slots quantity
    have before := balanced.slots quantity
    have sums := changed fun thread => tally quantity thread.slots
    simp only [Memory.Shared.slots, chunks, List.flatMap_append, tally_append] at moved
    simp only [State.withThread, tally_append] at sums ⊢
    omega
  · have moved := kept.locks
    have before := balanced.locks
    have sums := changed fun thread => thread.at_ Place.locks
    simp only [State.withThread] at moved sums ⊢
    omega
  · by_cases same : other = at_
    · subst same
      simpa [State.withThread] using kept.tidy
    · simpa [State.withThread, same] using balanced.tidy other

omit [DecidableEq ι] in
/-- The books say nothing of the chunks but by their slots, in whatever order. -/
theorem Balanced.congr {own' gone' : List Slot} {chunks : List MemoryChunk}
    (balanced : Balanced own gone pool)
    (same : ∀ quantity, tally quantity own' + tally quantity gone =
      tally quantity own + tally quantity gone') :
    Balanced own' gone' ⟨{ pool.shared with chunks := chunks }, pool.thread⟩ := by
  refine ⟨fun quantity => ?_, balanced.locks, balanced.tidy, balanced.noFault⟩
  -- Both sides of the balance change by what the books say.
  have slots := balanced.slots quantity
  have same := same quantity
  simp only at slots ⊢
  omega

omit [DecidableEq ι] in
/-- A slot that is out of a pool is taken from its books. -/
theorem Balanced.erase {obj : Slot} (balanced : Balanced own gone pool)
    (held : obj ∈ pool.shared.held) :
    Balanced own (gone ++ [obj]) (withHeld pool (pool.shared.held.erase obj)) := by
  refine ⟨fun quantity => ?_, balanced.locks, balanced.tidy, balanced.noFault⟩
  have slots := balanced.slots quantity
  -- The slot goes from what the pool holds to what it has lost.
  have fewer := tally_erase quantity held
  simp only [withHeld, tally_append, tally_cons, tally_nil] at slots ⊢
  omega

omit [DecidableEq ι] in
/-- A slot that a pool is given is entered in its books. -/
theorem Balanced.cons (balanced : Balanced own gone pool) (obj : Slot) :
    Balanced (own ++ [obj]) gone (withHeld pool (obj :: pool.shared.held)) := by
  refine ⟨fun quantity => ?_, balanced.locks, balanced.tidy, balanced.noFault⟩
  -- The slot comes into the books together with being held.
  have slots := balanced.slots quantity
  simp only [withHeld, tally_append, tally_cons, tally_nil] at slots ⊢
  omega

variable [DecidableEq κ] {state after : IOPool κ ι} {cls : OperationClass κ}

omit [Fintype ι] [DecidableEq ι] in
/-- A chunk that a step has made is one of the pool that the step was taken in. -/
theorem withPool_own_self {pool : State ι} {more : List MemoryChunk}
    (chunks : pool.shared.chunks = (state.getIoPool cls).shared.chunks ++ more) :
    (state.withPool cls pool).own cls = state.own cls ++ more.flatMap MemoryChunk.slots := by
  have made : pool.shared.chunks.drop state.chunks.length = more := by simp [chunks, getIoPool]
  simp [IOPool.own, withPool, made, List.filter_map, Function.comp_def, List.flatMap_map]

omit [Fintype ι] [DecidableEq ι] in
/-- No chunk that a step has made is one of another pool. -/
theorem withPool_own_of_ne (pool : State ι) {other : OperationClass κ} (different : other ≠ cls) :
    (state.withPool cls pool).own other = state.own other := by
  -- All new chunks carry the mark of the class whose pool has grown.
  have none_ : (((pool.shared.chunks.drop state.chunks.length).map (cls, ·)).filter fun entry =>
      entry.1 = other) = [] := by
    refine List.filter_eq_nil_iff.mpr fun entry member => ?_
    obtain ⟨chunk, -, rfl⟩ := List.mem_map.mp member
    simpa using different.symm
  rw [IOPool.own, withPool, List.filter_append, none_, List.append_nil]
  rfl

omit [Fintype ι] [DecidableEq ι] in
/-- The pool that a step was taken in, with all chunks that there are now. -/
theorem withPool_getIoPool_self (pool : State ι) :
    (state.withPool cls pool).getIoPool cls =
      ⟨{ pool.shared with chunks := (state.withPool cls pool).chunks.map Prod.snd },
        pool.thread⟩ := by
  simp [getIoPool, withPool]

omit [Fintype ι] [DecidableEq ι] in
/-- Another pool than the one that a step was taken in, with all chunks that there are now. -/
theorem withPool_getIoPool_of_ne (pool : State ι) {other : OperationClass κ}
    (different : other ≠ cls) :
    (state.withPool cls pool).getIoPool other =
      ⟨{ (state.getIoPool other).shared with
          chunks := (state.withPool cls pool).chunks.map Prod.snd },
        (state.getIoPool other).thread⟩ := by
  simp [getIoPool, withPool, different]

/-- A step that is taken in one of the pools keeps the books of all. -/
theorem Books.withPool (books : Books state)
    (taken : Memory.step {} (state.getIoPool cls) label = some next) :
    Books (state.withPool cls next) := by
  obtain ⟨more, chunks, balanced⟩ := (books cls).step taken
  intro other
  by_cases same : other = cls
  · -- The pool has got the slots of the chunk.
    subst same
    rw [withPool_own_self chunks, withPool_getIoPool_self]
    refine balanced.congr fun quantity => ?_
    simp only [tally_append, IOPool.withPool]
    omega
  · -- The other pools have neither changed nor grown.
    rw [withPool_own_of_ne _ same, withPool_getIoPool_of_ne _ same]
    exact (books other).congr fun quantity => rfl

omit [Fintype ι] [DecidableEq ι] in
/-- What happens to the operations is not in the books of the slots. -/
theorem constructed_getIoPool (state : IOPool κ ι) (cls : OperationClass κ) (fails : Bool)
    (place : Option Place) (other : OperationClass κ) :
    (state.constructed fails cls place).getIoPool other = state.getIoPool other ∧
      (state.constructed fails cls place).own other = state.own other ∧
      (state.constructed fails cls place).released = state.released := by
  unfold constructed
  -- The outcome of the call only starts an operation, or starts none.
  split
  · split <;> exact ⟨rfl, rfl, rfl⟩
  · exact ⟨rfl, rfl, rfl⟩

/-- A last release moves the slot from the books of one pool to those of another one. -/
theorem Books.onZeroRef (books : Books state) {at_ : ι} {cls : κ} {obj : Slot}
    (held : obj ∈ (state.shared (.derived cls)).held)
    (taken : state.onZeroRef at_ cls obj = some after) : Books after := by
  unfold IOPool.onZeroRef at taken
  simp only [Option.ite_none_left_eq_some, Option.map_eq_some_iff] at taken
  obtain ⟨-, pool, taken, rfl⟩ := taken
  -- The pool of the class has lost the slot, and made no chunk.
  have erased := (books (.derived cls)).erase held
  have none_ : (withHeld (state.getIoPool (.derived cls))
      ((state.getIoPool (.derived cls)).shared.held.erase obj)).shared.chunks =
      (state.getIoPool (.derived cls)).shared.chunks ++ [] := (List.append_nil _).symm
  generalize withHeld (state.getIoPool (.derived cls)) _ = own at taken erased none_ ⊢
  have same (other : OperationClass κ) : (state.withPool (.derived cls) own).own other =
      state.own other := by
    by_cases itself : other = .derived cls
    · rw [itself, withPool_own_self none_, List.flatMap_nil, List.append_nil]
    · exact withPool_own_of_ne _ itself
  -- The pool of the base class has got it, and its release goes on from there.
  have nop : Balanced (state.own .nop ++ found state.released .nop) []
      ((state.withPool (.derived cls) own).getIoPool .nop) := by
    rw [withPool_getIoPool_of_ne _ (by simp)]
    exact (books .nop).congr fun quantity => rfl
  obtain ⟨more, chunks, given⟩ := (nop.cons obj).step taken
  intro other
  show Balanced (((state.withPool (.derived cls) own).withPool .nop pool).own other ++ _) _
    (((state.withPool (.derived cls) own).withPool .nop pool).getIoPool other)
  cases other with
  | nop =>
    rw [withPool_own_self chunks, same, withPool_getIoPool_self]
    refine given.congr fun quantity => ?_
    simp only [tally_append, lost, found, List.map_append, List.map_singleton]
    omega
  | derived other =>
    rw [withPool_own_of_ne _ (by simp), same, withPool_getIoPool_of_ne _ (by simp)]
    by_cases itself : other = cls
    · subst itself
      rw [withPool_getIoPool_self]
      refine erased.congr fun quantity => ?_
      simp [lost, found]
    · -- The pools of other classes have nothing to do with it.
      rw [withPool_getIoPool_of_ne _ (by simpa using itself)]
      refine (books (.derived other)).congr fun quantity => ?_
      simp [found, lost, Ne.symm itself]

/-- Every step keeps the books of all pools. -/
theorem step_books (books : Books state) {label : Label κ ι}
    (taken : step state label = some after) : Books after := by
  cases label with
  | construct at_ cls =>
    obtain ⟨pool, moved, rfl⟩ := Option.map_eq_some_iff.mp taken
    exact books.withPool moved
  | request at_ cls =>
    obtain ⟨pool, moved, rfl⟩ := Option.map_eq_some_iff.mp taken
    exact books.withPool moved
  | run at_ cls fails =>
    obtain ⟨pool, moved, rfl⟩ := Option.map_eq_some_iff.mp taken
    intro other
    obtain ⟨same, own, released⟩ := constructed_getIoPool (state.withPool cls pool) cls fails
      (state.thread cls at_).place other
    rw [same, own, released]
    exact books.withPool moved other
  | push cls obj | submit cls obj | complete cls obj =>
    -- The operations are not in the books.
    simp only [step, Option.ite_none_right_eq_some, Option.some.injEq] at taken
    obtain ⟨-, rfl⟩ := taken
    exact books
  | addRef cls obj =>
    simp only [step, Option.ite_none_left_eq_some, Option.some.injEq] at taken
    obtain ⟨-, rfl⟩ := taken
    exact books
  | release at_ cls obj =>
    simp only [step, Option.ite_none_left_eq_some, not_or, not_not] at taken
    obtain ⟨⟨held, -⟩, taken⟩ := taken
    split at taken
    · exact Books.onZeroRef (show Books (state.withOperation cls obj _) from books) held taken
    · cases taken
      exact books

/-- A step that leaves a pool as it is. -/
structure Aside (cls : OperationClass κ) (state after : IOPool κ ι) : Prop where
  own : after.own cls = state.own cls
  shared : after.shared cls = state.shared cls
  thread : after.thread cls = state.thread cls

omit [Fintype ι] [DecidableEq ι] in
/-- A step that is taken in a pool leaves the other ones as they are. -/
theorem Aside.withPool (state : IOPool κ ι) (cls : OperationClass κ) (pool : State ι)
    {other : OperationClass κ} (different : other ≠ cls) :
    Aside other state (state.withPool cls pool) where
  own := withPool_own_of_ne pool different
  shared := Function.update_of_ne different ..
  thread := Function.update_of_ne different ..

omit [Fintype ι] [DecidableEq ι] [DecidableEq κ] in
/-- Two steps that leave a pool as it is. -/
theorem Aside.trans [DecidableEq κ] {first second third : IOPool κ ι} (one : Aside cls first second)
    (two : Aside cls second third) : Aside cls first third :=
  ⟨two.own.trans one.own, two.shared.trans one.shared, two.thread.trans one.thread⟩

omit [Fintype ι] in
/-- A last release leaves all pools but those of the class and of its base class as they are. -/
theorem Aside.onZeroRef {at_ : ι} {other cls : κ} {obj : Slot} (different : other ≠ cls)
    (taken : state.onZeroRef at_ cls obj = some after) : Aside (.derived other) state after := by
  unfold IOPool.onZeroRef at taken
  simp only [Option.ite_none_left_eq_some, Option.map_eq_some_iff] at taken
  obtain ⟨-, pool, -, rfl⟩ := taken
  -- The slot leaves the pool of its class, and arrives in the pool of the base class.
  have elsewhere : OperationClass.derived other ≠ .derived cls := by simpa using different
  have derived : OperationClass.derived other ≠ .nop := by simp
  let without := withHeld (state.getIoPool (.derived cls))
    ((state.getIoPool (.derived cls)).shared.held.erase obj)
  have left := Aside.withPool state (.derived cls) without elsewhere
  have given := Aside.withPool (state.withPool (.derived cls) without) .nop pool derived
  exact left.trans ⟨given.own, given.shared, given.thread⟩

omit [Fintype ι] in
/-- What a step does to the pool of a class, if it is not a last release of the class. -/
theorem step_pool {label : Label κ ι} {cls : κ} (kept : ¬ LastRelease cls state label)
    (taken : step state label = some after) :
    Aside (.derived cls) state after ∨ ∃ label pool,
      Memory.step {} (state.getIoPool (.derived cls)) label = some pool ∧
        Aside (.derived cls) (state.withPool (.derived cls) pool) after := by
  -- A step in a pool is one in the pool of the class, or leaves it as it is.
  have inside {other : OperationClass κ} {label : Memory.Label ι} {pool : State ι}
      (moved : Memory.step {} (state.getIoPool other) label = some pool)
      (same : Aside (.derived cls) (state.withPool other pool) after) :
      Aside (.derived cls) state after ∨ ∃ label pool,
        Memory.step {} (state.getIoPool (.derived cls)) label = some pool ∧
          Aside (.derived cls) (state.withPool (.derived cls) pool) after := by
    by_cases itself : other = .derived cls
    · subst itself
      exact .inr ⟨_, _, moved, same⟩
    · exact .inl ((Aside.withPool state other pool (Ne.symm itself)).trans same)
  cases label with
  | construct at_ other =>
    obtain ⟨pool, moved, rfl⟩ := Option.map_eq_some_iff.mp taken
    exact inside moved ⟨rfl, rfl, rfl⟩
  | request at_ other =>
    obtain ⟨pool, moved, rfl⟩ := Option.map_eq_some_iff.mp taken
    exact inside moved ⟨rfl, rfl, rfl⟩
  | run at_ other fails =>
    obtain ⟨pool, moved, rfl⟩ := Option.map_eq_some_iff.mp taken
    refine inside moved ?_
    unfold constructed
    split
    · split <;> exact ⟨rfl, rfl, rfl⟩
    · exact ⟨rfl, rfl, rfl⟩
  | push other obj | submit other obj | complete other obj =>
    simp only [step, Option.ite_none_right_eq_some, Option.some.injEq] at taken
    obtain ⟨-, rfl⟩ := taken
    exact .inl ⟨rfl, rfl, rfl⟩
  | addRef other obj =>
    simp only [step, Option.ite_none_left_eq_some, Option.some.injEq] at taken
    obtain ⟨-, rfl⟩ := taken
    exact .inl ⟨rfl, rfl, rfl⟩
  | release at_ other obj =>
    simp only [step, Option.ite_none_left_eq_some, not_or, not_not] at taken
    obtain ⟨-, taken⟩ := taken
    split at taken
    · -- The last release is one of another class.
      rename_i last
      have aside := Aside.onZeroRef (fun same => kept ⟨same.symm, last⟩) taken
      exact .inl ⟨aside.own, aside.shared, aside.thread⟩
    · cases taken
      exact .inl ⟨rfl, rfl, rfl⟩

omit [Fintype ι] in
/-- A last release is remembered. -/
theorem onZeroRef_released {at_ : ι} {cls : κ} {obj : Slot}
    (taken : state.onZeroRef at_ cls obj = some after) :
    after.released = state.released ++ [(cls, obj)] := by
  unfold IOPool.onZeroRef at taken
  simp only [Option.ite_none_left_eq_some, Option.map_eq_some_iff] at taken
  obtain ⟨-, pool, -, rfl⟩ := taken
  rfl

omit [Fintype ι] in
/-- A slot of a class is lost by a last release of the class, and by no other step. -/
theorem step_lost {label : Label κ ι} {cls : κ} (taken : step state label = some after) :
    lost after.released (.derived cls) = [] ↔
      lost state.released (.derived cls) = [] ∧ ¬ LastRelease cls state label := by
  -- Where nothing new is remembered, the step is no last release.
  have unchanged (same : after.released = state.released) (other : ¬ LastRelease cls state label) :
      lost after.released (.derived cls) = [] ↔
        lost state.released (.derived cls) = [] ∧ ¬ LastRelease cls state label := by
    rw [same]
    exact (and_iff_left other).symm
  cases label with
  | construct at_ other | request at_ other =>
    obtain ⟨pool, -, rfl⟩ := Option.map_eq_some_iff.mp taken
    exact unchanged rfl id
  | run at_ other fails =>
    obtain ⟨pool, -, rfl⟩ := Option.map_eq_some_iff.mp taken
    exact unchanged (constructed_getIoPool _ other fails _ other).2.2 id
  | push other obj | submit other obj | complete other obj =>
    simp only [step, Option.ite_none_right_eq_some, Option.some.injEq] at taken
    obtain ⟨-, rfl⟩ := taken
    exact unchanged rfl id
  | addRef other obj =>
    simp only [step, Option.ite_none_left_eq_some, Option.some.injEq] at taken
    obtain ⟨-, rfl⟩ := taken
    exact unchanged rfl id
  | release at_ other obj =>
    simp only [step, Option.ite_none_left_eq_some, not_or, not_not] at taken
    obtain ⟨-, taken⟩ := taken
    split at taken
    · rename_i last
      have released := onZeroRef_released taken
      change after.released = state.released ++ [(other, obj)] at released
      by_cases same : other = cls
      · subst same
        simp [released, lost, LastRelease, last]
      · simp [released, lost, LastRelease, same]
    · rename_i more
      cases taken
      exact unchanged rfl fun last => more last.2

omit [DecidableEq ι] in
/-- The slots of a pool that has lost none are held, on its queue or with a thread. -/
theorem Books.total (books : Books state) {cls : κ}
    (none_ : lost state.released (.derived cls) = []) :
    (state.getIoPool (.derived cls)).shared.held.length +
        (state.getIoPool (.derived cls)).shared.freeQueue.length +
        ∑ at_, ((state.getIoPool (.derived cls)).thread at_).slots.length =
      (state.own (.derived cls)).length := by
  have slots := (books (.derived cls)).slots fun _ => 1
  rw [none_] at slots
  simpa only [found, List.append_nil, ← length_eq_tally, List.length_nil, Nat.add_zero] using slots

/-- A pool that loses no slot stays within the limit of its growth. -/
theorem step_growth {label : Label κ ι} {cls : κ} {peak : Nat} (books : Books state)
    (none_ : lost state.released (.derived cls) = [])
    (crowded : Crowded {} peak (state.own (.derived cls)).length (state.getIoPool (.derived cls)))
    (kept : ¬ LastRelease cls state label) (taken : step state label = some after) :
    Crowded {} (recordPeak cls state label after peak) (after.own (.derived cls)).length
      (after.getIoPool (.derived cls)) := by
  rcases step_pool kept taken with aside | ⟨label, pool, moved, aside⟩
  · -- The peak is that of before, since what is held is the same.
    have high : recordPeak cls state label after peak = peak := by
      rw [recordPeak, aside.shared]
      exact max_eq_left crowded.held
    rw [high, aside.own, getIoPool, aside.shared, aside.thread]
    exact ⟨crowded.small, crowded.held, crowded.chunks⟩
  · -- The step is one of this pool, so the bound on the crowd carries over.
    obtain ⟨more, chunks, grown⟩ := step_crowded (by decide) crowded
      (books (.derived cls)).tidy (books.total none_) moved
    -- A chunk brings as many slots as it counts.
    have size : (more.flatMap MemoryChunk.slots).length = tally MemoryChunk.count more := by
      rw [List.length_flatMap, tally]
      simp [MemoryChunk.slots, MemoryChunk.slotsFrom]
    have shared : after.shared (.derived cls) = pool.shared :=
      aside.shared.trans (Function.update_self ..)
    have thread : after.thread (.derived cls) = pool.thread :=
      aside.thread.trans (Function.update_self ..)
    rw [aside.own, withPool_own_self chunks, List.length_append, size, recordPeak, getIoPool,
      shared, thread]
    exact ⟨grown.small, grown.held, grown.chunks⟩

omit [DecidableEq ι] in
/-- The books of pools that have not been used yet are kept. -/
theorem init_books : Books (init κ ι) := by
  intro cls
  refine ⟨fun quantity => ?_, ?_, fun _ => ⟨rfl, trivial⟩, rfl⟩
  · -- There are no chunks yet, and no slots anywhere.
    cases cls <;> simp [init, getIoPool, IOPool.own, found, lost, State.init, Thread.slots]
  · simp [init, getIoPool, State.init, Thread.at_, Memory.Shared.flag]

/--
When the operations of a class go back to their own pool: as long as none of them is released.

The class inherits `on_zero_ref`, where `this` has the type of the base class. So the slot goes to
the pool of the base class, whose objects nobody acquires, and the pool of the class has to make a
new one.
-/
theorem ownPool_iff (cls : κ) {labels : List (Label κ ι)} {finish : IOPool κ ι} {peak : Nat}
    (run : Run (track step (recordPeak cls)) anyStep (init κ ι, 0) labels (finish, peak)) :
    OwnPool cls finish peak ↔
      Run (track step (recordPeak cls)) (fun seen label => ¬ LastRelease cls seen.1 label)
        (init κ ι, 0) labels (finish, peak) := by
  constructor
  · intro own
    have books : Books finish := run.invariant (P := fun seen => Books seen.1) init_books
      fun seen label after books _ taken => step_books books (track_eq_some.mp taken).1
    -- A slot that has been lost is one of the pool that is nowhere in it.
    have none_ : lost finish.released (.derived cls) = [] := by
      refine List.eq_nil_iff_forall_not_mem.mpr fun slot member => ?_
      have slots := (books (.derived cls)).slots fun other => if other = slot then 1 else 0
      have counted := own.slots slot
      have positive := List.count_pos_iff.mpr member
      simp only [← count_eq_tally, found, List.append_nil] at slots
      simp only [getIoPool] at slots
      omega
    exact run.restrict (I := fun _ => True)
      (P := fun seen => lost seen.1.released (.derived cls) = []) trivial (fun _ _ _ _ _ _ => trivial)
      (fun seen label after _ _ taken => (step_lost (track_eq_some.mp taken).1).mp) none_
  · intro guarded
    -- The books, and the limit of the growth, are kept by all steps that lose nothing.
    obtain ⟨books, none_, crowded⟩ := guarded.invariant (P := fun seen => Books seen.1 ∧
        lost seen.1.released (.derived cls) = [] ∧
        Crowded {} seen.2 (seen.1.own (.derived cls)).length (seen.1.getIoPool (.derived cls)))
      ⟨init_books, rfl, init_crowded {}⟩ (by
        rintro seen label after ⟨books, none_, crowded⟩ kept taken
        obtain ⟨taken, recorded⟩ := track_eq_some.mp taken
        refine ⟨step_books books taken, (step_lost taken).mpr ⟨none_, kept⟩, ?_⟩
        rw [← recorded]
        exact step_growth books none_ crowded kept taken)
    refine ⟨fun slot => ?_, Nat.le_trans (Nat.le_add_right ..) crowded.chunks⟩
    have slots := (books (.derived cls)).slots fun other => if other = slot then 1 else 0
    rw [none_] at slots
    simp only [← count_eq_tally, found, List.append_nil, List.count_nil] at slots
    exact slots.symm

/-- Every operation of a class that has been released has cost the pool of the class a slot. -/
theorem released_le (cls : κ) {labels : List (Label κ ι)} {finish : IOPool κ ι}
    (run : Run step anyStep (init κ ι) labels finish) :
    (lost finish.released (.derived cls)).length ≤ (finish.own (.derived cls)).length := by
  have books : Books finish :=
    run.invariant init_books fun _ _ _ books _ taken => step_books books taken
  -- Weighing every slot by one counts the slots on both sides.
  have slots := (books (.derived cls)).slots fun _ => 1
  simp only [found, List.append_nil, ← length_eq_tally] at slots
  omega

end Books

/-- The one thread constructs the pool of a class. -/
def constructPool (cls : OperationClass Unit) : List (Label Unit (Fin 1)) :=
  .construct 0 cls :: List.replicate 135 (.run 0 cls false)

/-- The one thread acquires an operation, whose slot is known, and pushes it. -/
def requestIo (obj : Slot) : List (Label Unit (Fin 1)) :=
  .request 0 () :: List.replicate 3 (.run 0 (.derived ()) false) ++ [.push () obj]

/-- An operation that is in flight is one of the slots of its pool. -/
theorem ownPool_iff_request :
    ∃ finish : IOPool Unit (Fin 1), (finish.shared (.derived ())).held = [⟨0, 0⟩] ∧
      OwnPool () finish 1 := by
  -- A single request, which only takes its slot, is within the condition.
  have executed : (execWhile (track step (recordPeak ())) (fun seen label =>
      ¬ LastRelease () seen.1 label) (init Unit (Fin 1), 0)
      (constructPool (.derived ()) ++ requestIo ⟨0, 0⟩)).any fun seen =>
        (seen.1.shared (.derived ())).held = [⟨0, 0⟩] ∧ seen.2 = 1 := by decide +kernel
  obtain ⟨⟨finish, peak⟩, reached, facts⟩ := (Option.any_eq_true _ _).mp executed
  obtain ⟨held, rfl⟩ := of_decide_eq_true facts
  have guarded := Run.of_execWhile reached
  exact ⟨finish, held, (ownPool_iff () (guarded.mono fun _ _ _ => trivial)).mpr guarded⟩

/--
An operation that has completed leaves its slot in the cache of the pool of the base class.

The slot is on no list of its own pool any more, and no caller has it.
-/
theorem ownPool_fails :
    ∃ (labels : List (Label Unit (Fin 1))) (finish : IOPool Unit (Fin 1)),
      Run (track step (recordPeak ())) anyStep (init Unit (Fin 1), 0) labels (finish, 1) ∧
        (finish.thread .nop 0).cache.cache = [⟨1, 0⟩] ∧ ⟨1, 0⟩ ∈ finish.own (.derived ()) ∧
        ¬ OwnPool () finish 1 := by
  have executed : (exec (track step (recordPeak ())) (init Unit (Fin 1), 0)
      (constructPool .nop ++ constructPool (.derived ()) ++ requestIo ⟨1, 0⟩ ++
        [.submit () ⟨1, 0⟩, .complete () ⟨1, 0⟩, .release 0 () ⟨1, 0⟩] ++
        List.replicate 2 (.run 0 .nop false))).any fun seen => seen.2 = 1 ∧
          (seen.1.thread .nop 0).cache.cache = [⟨1, 0⟩] ∧ ⟨1, 0⟩ ∈ seen.1.own (.derived ()) ∧
          (seen.1.own (.derived ())).count ⟨1, 0⟩ ≠
            (seen.1.shared (.derived ())).held.count ⟨1, 0⟩ +
            (seen.1.shared (.derived ())).freeQueue.count ⟨1, 0⟩ +
            ∑ at_, (seen.1.thread (.derived ()) at_).slots.count ⟨1, 0⟩ := by decide +kernel
  obtain ⟨⟨finish, peak⟩, reached, facts⟩ := (Option.any_eq_true _ _).mp executed
  obtain ⟨rfl, cached, own, nowhere⟩ := of_decide_eq_true facts
  exact ⟨_, finish, .of_exec reached, cached, own, fun balanced => nowhere (balanced.slots _)⟩

end IOPool

end Braid
