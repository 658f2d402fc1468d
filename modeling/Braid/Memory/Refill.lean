import Braid.Library.Transition
import Braid.Memory.ObjectPool

/-! How often a thread that acquires on its own goes to the free queue, and with how many slots. -/

namespace Braid.Memory

open Transition

section Calls

variable {ι : Type} [DecidableEq ι] (config : Config) (at_ : ι)

/-- The places of a call from which it goes to the free queue. -/
def Place.visitsQueue : Place → Bool
  | .pop | .steal .. | .popAllocated | .retry _ | .pushUnconstructed _ | .pushSlot .. => true
  | _ => false

/-- Whether a step goes to the free queue, as a record of those before it. -/
def recordVisit (state : State ι) (label : Label ι) (_ : State ι) (visited : Bool) : Bool :=
  match label with
  | .run at_ _ => visited || (state.thread at_).place.any Place.visitsQueue
  | _ => visited

/--
A whole call of `acquire` that nothing disturbs, and whether it goes to the free queue.

The thread takes all steps, and no constructor throws in any of them.
-/
def AcquireCall (start finish : State ι) (visited : Bool) : Prop :=
  ∃ count, exec (track (step config) recordVisit) (start, false)
      (.acquire at_ :: List.replicate count (.run at_ false)) = some (finish, visited) ∧
    (finish.thread at_).place = none

/-- Calls of `acquire` one after another, with the number of those that go to the free queue. -/
inductive AcquireRun (start : State ι) : Nat → State ι → Nat → Prop
  | none : AcquireRun start 0 start 0
  | snoc {calls visits : Nat} {middle finish : State ι} {visited : Bool} :
    AcquireRun start calls middle visits → AcquireCall config at_ middle finish visited →
      AcquireRun start (calls + 1) finish (visits + visited.toNat)

/--
What the refill of the thread cache promises.

With an empty cache, `acquire` takes a batch of slots from the free queue, or all that there are:
it returns one of them, and leaves the others in the cache. So it goes to the free queue once for
every batch of the slots that it finds free.
-/
structure Refills (state : State ι) : Prop where
  batch : (state.thread at_).cache.cache = [] → state.shared.freeQueue ≠ [] →
    ∃ finish obj, AcquireCall config at_ state finish true ∧
      finish.shared.freeQueue = state.shared.freeQueue.drop config.batchSize ∧
      obj ∈ state.shared.freeQueue.take config.batchSize ∧
      finish.shared.returned = state.shared.returned ++ [some obj] ∧
      (finish.thread at_).cache.cache.Perm
        ((state.shared.freeQueue.take config.batchSize).erase obj)
  visits : ∀ calls ≤ (state.thread at_).cache.cache.length + state.shared.freeQueue.length,
    ∀ finish visits, AcquireRun config at_ state calls finish visits →
      visits ≤ (calls + config.batchSize - 1) / config.batchSize

end Calls

section Alone

variable {ι : Type} [DecidableEq ι] {config : Config} {at_ : ι} {state finish : State ι}

/-- A thread that is about to call a pool which is ready for use. -/
structure Idle (at_ : ι) (state : State ι) : Prop where
  running : state.shared.fault = none
  ready : state.shared.lifetime = .ready
  outside : (state.thread at_).place = none

/-- The state behind a call that has returned a slot, with what is left of the cache and the queue. -/
def State.served (state : State ι) (at_ : ι) (obj : Slot) (cache queue : List Slot) : State ι :=
  state.withThread at_
    { state.shared with
      freeQueue := queue
      held := obj :: state.shared.held
      returned := state.shared.returned ++ [some obj] }
    { state.thread at_ with cache := { (state.thread at_).cache with cache := cache }, place := none }

/-- A thread in no call takes no step of one. -/
theorem track_idle {visited : Bool} (outside : (finish.thread at_).place = none) :
    track (step config) recordVisit (finish, visited) (.run at_ false) = none := by
  -- There is no place that the step could be taken from.
  simp only [track, step, outside, Option.map_none]
  split <;> rfl

/-- A call has one outcome. -/
theorem AcquireCall.unique {first second : State ι} {one two : Bool}
    (call : AcquireCall config at_ state first one)
    (again : AcquireCall config at_ state second two) : first = second ∧ one = two := by
  obtain ⟨short, executed, outside⟩ := call
  obtain ⟨long, executed', outside'⟩ := again
  -- Both executions stop where the thread is in no call any more.
  have same : (first, one) = (second, two) :=
    exec_unique (show exec _ (state, false) ([.acquire at_] ++ _) = _ from executed) executed'
      (track_idle outside) (track_idle outside')
  exact Prod.mk.inj same

/-- A call begins at its first place, with nothing visited. -/
theorem exec_begin (idle : Idle at_ state) (labels : List (Label ι)) :
    exec (track (step config) recordVisit) (state, false) (.acquire at_ :: labels) =
      exec (track (step config) recordVisit)
        (state.withThread at_ state.shared ⟨(state.thread at_).cache, some .tryAcquire⟩, false)
        labels := by
  -- The pool is ready, and the thread is in no other call.
  simp [exec, track, step, idle.running, idle.ready, idle.outside, recordVisit]

/-- A call goes on with the step of its place, which visits the queue or not. -/
theorem exec_place {shared after : Shared} {cache cache' : ThreadLocalCache} {place : Place}
    {place' : Option Place} (visited : Bool) (count : Nat) (running : shared.fault = none)
    (does : placeStep config shared ⟨cache, some place⟩ false place = (after, ⟨cache', place'⟩)) :
    exec (track (step config) recordVisit)
        (state.withThread at_ shared ⟨cache, some place⟩, visited)
        (List.replicate (count + 1) (.run at_ false)) =
      exec (track (step config) recordVisit)
        (state.withThread at_ after ⟨cache', place'⟩, visited || place.visitsQueue)
        (List.replicate count (.run at_ false)) := by
  -- The record is brought up to date from the place before the step.
  simp [List.replicate_succ, exec, track, step, running, does, recordVisit, State.withThread]

/-- A call that finds a slot in the cache returns the one on top, and leaves the queue alone. -/
theorem acquireCall_cached (idle : Idle at_ state) {below : List Slot} {obj : Slot}
    (cached : (state.thread at_).cache.cache = below ++ [obj]) :
    AcquireCall config at_ state (state.served at_ obj below state.shared.freeQueue) false := by
  refine ⟨2, ?_, by simp [State.served]⟩
  have tries : placeStep config state.shared ⟨(state.thread at_).cache, some .tryAcquire⟩ false
      .tryAcquire = (state.shared,
        ⟨{ (state.thread at_).cache with cache := below }, some (.construct obj)⟩) := by
    simp [placeStep, acquireStep, ThreadLocalCache.tryAcquire, cached]
  -- The slot is taken out of the cache, and the object is constructed in it.
  rw [exec_begin idle, exec_place false 1 idle.running tries,
    exec_place _ 0 idle.running (show _ = acquired _ _ _ from rfl)]
  rfl

/-- A call that finds the cache empty takes the first slot of the queue, and no other one. -/
theorem acquireCall_queued (idle : Idle at_ state) {obj : Slot} {rest : List Slot}
    (empty : (state.thread at_).cache.cache = []) (queue : state.shared.freeQueue = obj :: rest) :
    AcquireCall config at_ state (state.served at_ obj [] rest) true := by
  refine ⟨3, ?_, by simp [State.served]⟩
  have tries : placeStep config state.shared ⟨(state.thread at_).cache, some .tryAcquire⟩ false
      .tryAcquire = (state.shared,
        ⟨{ (state.thread at_).cache with cache := [] }, some .pop⟩) := by
    simp [placeStep, acquireStep, ThreadLocalCache.tryAcquire, empty]
  have pops (thread : Thread) : placeStep config state.shared thread false .pop =
      ({ state.shared with freeQueue := rest }, { thread with place := some (.construct obj) }) := by
    simp only [placeStep, acquireStep, queue]
  -- The pop comes before the steal of a batch, which is tried only when the pop has failed.
  rw [exec_begin idle, exec_place false 2 idle.running tries, exec_place _ 1 idle.running (pops _),
    exec_place _ 0 (show ({ state.shared with freeQueue := rest } : Shared).fault = none from
      idle.running) (show _ = acquired _ _ _ from rfl)]
  rfl

/-- The thread is free again when a call has returned. -/
theorem Idle.served (idle : Idle at_ state) (obj : Slot) (cache queue : List Slot) :
    Idle at_ (state.served at_ obj cache queue) :=
  ⟨idle.running, idle.ready, by simp [State.served]⟩

/-- What the thread can get without a new chunk: the slots in its cache, and those in the queue. -/
def State.reach (state : State ι) (at_ : ι) : Nat :=
  (state.thread at_).cache.cache.length + state.shared.freeQueue.length

/--
A call that finds a slot in the cache or in the queue.

It goes to the queue exactly if the cache is empty, and takes one slot from where it finds one.
-/
theorem exists_call (config : Config) (idle : Idle at_ state) (some_ : 0 < state.reach at_) :
    ∃ finish visited, AcquireCall config at_ state finish visited ∧ Idle at_ finish ∧
      (finish.thread at_).cache.cache.length = (state.thread at_).cache.cache.length - 1 ∧
      finish.reach at_ + 1 = state.reach at_ ∧
      visited.toNat = 1 - (state.thread at_).cache.cache.length := by
  unfold State.reach at some_ ⊢
  rcases List.eq_nil_or_concat (state.thread at_).cache.cache with empty | ⟨below, obj, cached⟩
  · -- The cache is empty, so that a slot is in the queue.
    cases queue : state.shared.freeQueue with
    | nil => simp [empty, queue] at some_
    | cons obj rest =>
      refine ⟨_, _, acquireCall_queued idle empty queue, idle.served .., ?_⟩
      simp [State.served, empty]
  · -- The cache has a slot, and the call does not go to the queue.
    rw [List.concat_eq_append] at cached
    refine ⟨_, _, acquireCall_cached idle cached, idle.served .., ?_⟩
    simp [State.served, cached]
    omega

/-- Calls of `acquire` one after another, as many as slots can be got. -/
theorem exists_run (config : Config) (idle : Idle at_ state) {calls : Nat}
    (enough : calls ≤ state.reach at_) :
    ∃ finish visits, AcquireRun config at_ state calls finish visits ∧ Idle at_ finish ∧
      finish.reach at_ + calls = state.reach at_ := by
  induction calls with
  | zero => exact ⟨state, 0, .none, idle, rfl⟩
  | succ calls ih =>
    -- Each call before this one has taken one slot.
    obtain ⟨middle, visits, run, free, left⟩ := ih (by omega)
    obtain ⟨finish, visited, call, free, -, taken, -⟩ := exists_call config free (by omega)
    exact ⟨finish, _, run.snoc call, free, by omega⟩

/-- A run of calls goes to the queue once for every slot that the cache did not have. -/
theorem AcquireRun.visits_eq {calls visits : Nat}
    (run : AcquireRun config at_ state calls finish visits) (idle : Idle at_ state)
    (enough : calls ≤ state.reach at_) :
    visits = calls - (state.thread at_).cache.cache.length ∧ Idle at_ finish ∧
      (finish.thread at_).cache.cache.length = (state.thread at_).cache.cache.length - calls ∧
      finish.reach at_ + calls = state.reach at_ := by
  -- The induction is on the run, with the last call taken off.
  induction run with
  | none => exact ⟨(Nat.zero_sub _).symm, idle, rfl, rfl⟩
  | snoc _ call ih =>
    obtain ⟨same, free, cached, left⟩ := ih (by omega)
    obtain ⟨_, _, own, free, fewer, taken, visited⟩ := exists_call config free (by omega)
    -- The call has one outcome, which is the one that there is.
    obtain ⟨rfl, rfl⟩ := call.unique own
    exact ⟨by omega, free, by omega, by omega⟩

/-- One more call raises the number of batches by one at most. -/
theorem batches_add (positive : 1 ≤ config.batchSize) (calls more : Nat) :
    (calls + more + config.batchSize - 1) / config.batchSize ≤
      (calls + config.batchSize - 1) / config.batchSize + more := by
  -- Each further slot is counted as a batch of its own.
  have least : calls + more + config.batchSize - 1 ≤
      calls + config.batchSize - 1 + config.batchSize * more := by
    have := Nat.le_mul_of_pos_left more positive
    omega
  calc (calls + more + config.batchSize - 1) / config.batchSize
      ≤ (calls + config.batchSize - 1 + config.batchSize * more) / config.batchSize :=
        Nat.div_le_div_right least
    _ = (calls + config.batchSize - 1) / config.batchSize + more :=
        Nat.add_mul_div_left _ _ positive

/-- Where the queue has no more slots than batches, the first batch is the first slot. -/
theorem take_batch {obj : Slot} {rest : List Slot} (positive : 1 ≤ config.batchSize)
    (few : (obj :: rest).length ≤
      ((obj :: rest).length + config.batchSize - 1) / config.batchSize) :
    (obj :: rest).take config.batchSize = [obj] ∧ (obj :: rest).drop config.batchSize = rest := by
  rw [Nat.le_div_iff_mul_le positive, List.length_cons, Nat.succ_mul] at few
  -- Either there is one slot, or a batch is one.
  rcases Nat.eq_zero_or_pos rest.length with none_ | some_
  · obtain rfl := List.eq_nil_of_length_eq_zero none_
    obtain ⟨size, same⟩ := Nat.exists_eq_add_of_le' positive
    simp [same]
  · have one : config.batchSize ≤ 1 := by
      refine Nat.le_of_mul_le_mul_left (c := rest.length) ?_ some_
      omega
    have same : config.batchSize = 1 := by omega
    simp [same]

/--
When the cache of a thread is refilled in batches: exactly if no batch could be more than a slot.

The single pop comes before the steal of a batch, which is reached only when the queue was found
empty. So each call that finds the cache empty goes to the queue for one slot, and the cache gets
nothing from it.
-/
theorem refills_iff (positive : 1 ≤ config.batchSize) (idle : Idle at_ state) :
    Refills config at_ state ↔ state.shared.freeQueue.length ≤
      ((state.thread at_).cache.cache.length + state.shared.freeQueue.length +
        config.batchSize - 1) / config.batchSize := by
  constructor
  · intro refills
    -- A run that takes all slots goes to the queue for each that is in it.
    obtain ⟨finish, visits, run, -⟩ := exists_run config idle (Nat.le_refl (state.reach at_))
    have most := refills.visits _ (Nat.le_refl _) finish visits run
    obtain ⟨same, -⟩ := run.visits_eq idle (Nat.le_refl _)
    have each : visits = state.shared.freeQueue.length := by
      rw [same, State.reach, Nat.add_sub_cancel_left]
    rwa [each] at most
  · intro few
    refine ⟨fun empty some_ => ?_, fun calls enough finish visits run => ?_⟩
    · -- Here a batch is one slot, which is what the pop takes.
      cases queue : state.shared.freeQueue with
      | nil => exact absurd queue some_
      | cons obj rest =>
        rw [empty, queue, List.length_nil, Nat.zero_add] at few
        obtain ⟨taken, left⟩ := take_batch positive few
        refine ⟨_, obj, acquireCall_queued idle empty queue, ?_, ?_, rfl, ?_⟩
        · rw [left]
          rfl
        · rw [taken]
          exact List.mem_cons_self
        · simp [State.served, taken]
    · -- A shorter run saves at most one batch for each slot that it leaves in the queue.
      obtain ⟨same, -⟩ := run.visits_eq idle enough
      obtain ⟨more, all⟩ := Nat.exists_eq_add_of_le enough
      have saved := batches_add positive calls more
      rw [← all] at saved
      generalize (calls + config.batchSize - 1) / config.batchSize = batches at saved ⊢
      omega

/-- A pool of two slots, with batches of one. -/
def pairConfig : Config where
  initialCount := 2
  batchSize := 1

/-- The first thread constructs a pool with some slots. -/
def constructPool (slots : Nat) : List (Label (Fin 1)) :=
  .construct 0 :: List.replicate (slots + 7) (.run 0 false)

/-- With batches of one slot, each of two calls goes to the queue for one. -/
theorem refills_iff_single :
    ∃ state : State (Fin 1), state.shared.freeQueue = [⟨0, 0⟩, ⟨0, 1⟩] ∧
      (state.thread 0).cache.cache = [] ∧ Refills pairConfig 0 state := by
  -- The pool is constructed with two slots, and nothing has been cached.
  have executed : (exec (step pairConfig) (State.init (Fin 1) pairConfig) (constructPool 2)).any
      fun state => state.shared.freeQueue = [⟨0, 0⟩, ⟨0, 1⟩] ∧
        (state.thread 0).cache.cache = [] ∧ state.shared.fault = none ∧
        state.shared.lifetime = .ready ∧ (state.thread 0).place = none := by decide +kernel
  obtain ⟨state, reached, facts⟩ := (Option.any_eq_true _ _).mp executed
  obtain ⟨queue, empty, running, ready, outside⟩ := of_decide_eq_true facts
  refine ⟨state, queue, empty, (refills_iff (by decide) ⟨running, ready, outside⟩).mpr ?_⟩
  rw [queue, empty]
  decide

/-- With the sizes by default, each of two calls goes to the queue, although one batch has both. -/
theorem refill_fails :
    ∃ (labels : List (Label (Fin 1))) (state : State (Fin 1)),
      Run (step {}) anyStep (State.init (Fin 1) {}) labels state ∧
      state.shared.freeQueue.length = 128 ∧ (state.thread 0).cache.cache = [] ∧
      ¬ Refills {} 0 state := by
  have executed : (exec (step {}) (State.init (Fin 1) {}) (constructPool 128)).any
      fun state => state.shared.freeQueue.length = 128 ∧
        (state.thread 0).cache.cache = [] ∧ state.shared.fault = none ∧
        state.shared.lifetime = .ready ∧ (state.thread 0).place = none := by decide +kernel
  obtain ⟨state, reached, facts⟩ := (Option.any_eq_true _ _).mp executed
  obtain ⟨queue, empty, running, ready, outside⟩ := of_decide_eq_true facts
  refine ⟨_, state, .of_exec reached, queue, empty, fun refills => ?_⟩
  have idle : Idle 0 state := ⟨running, ready, outside⟩
  have enough : 2 ≤ state.reach 0 := by
    rw [State.reach, queue]
    omega
  -- Two slots would be one batch.
  obtain ⟨finish, visits, run, -⟩ := exists_run {} idle enough
  have most := refills.visits 2 enough finish visits run
  obtain ⟨same, -⟩ := run.visits_eq idle enough
  rw [empty] at same
  rw [same] at most
  exact absurd most (by decide)

end Alone

end Braid.Memory
