import Braid.Service.IORequestQueue
import Braid.Service.Sessions
import Mathlib.Data.Int.CardIntervalMod

/-! Which worker a request goes to, over any number of requests. -/

namespace Braid.Service

open Counting Transition
open Memory (Slot)

variable {m n k : Nat} {ω : Type}

section Route

/-- A request goes to a worker exactly if the signed remainder of the index is its number. -/
theorem routeIndex_eq_some {requestIndex : BitVec 32} {worker : Fin n} :
    routeIndex n requestIndex = some worker ↔ requestIndex.toInt.tmod n = (worker.val : Int) := by
  -- The range check turns away a remainder that is no number of a worker, a negative one above all.
  simp only [routeIndex]
  split
  · simp only [Option.some_inj, Fin.ext_iff]
    omega
  · rename_i outside
    constructor
    · simp
    · intro same
      exact absurd ⟨by omega, by omega⟩ outside

/-- The call with this number goes to the worker whose turn it is. -/
def RightTurn (n : Nat) (i : Nat) (target : Option (Fin n)) : Prop :=
  ∃ worker, target = some worker ∧ worker.val = i % n

/-- The signed remainder decides whether a call goes to the worker whose turn it is. -/
theorem rightTurn_iff (workers : 1 ≤ n) (i : Nat) :
    RightTurn n i (routeIndex n (BitVec.ofNat 32 i)) ↔
      (BitVec.ofNat 32 i).toInt.tmod n = ((i % n : Nat) : Int) := by
  constructor
  · -- The worker whose turn it is has the number that the remainder gives.
    rintro ⟨worker, target, turn⟩
    rw [routeIndex_eq_some.mp target, turn]
  · intro same
    exact ⟨⟨i % n, Nat.mod_lt _ workers⟩, routeIndex_eq_some.mpr same, rfl⟩

/-- Until the counter wraps, it is the number of the call. -/
theorem rightTurn_early (workers : 1 ≤ n) {i : Nat} (early : i < 2 ^ 31) :
    RightTurn n i (routeIndex n (BitVec.ofNat 32 i)) := by
  -- Below the wrap the signed word is the number itself.
  have value : (BitVec.ofNat 32 i).toInt = (i : Int) := by
    rw [BitVec.toInt_ofNat', Int.bmod_def]
    omega
  rw [rightTurn_iff workers, value, Int.ofNat_tmod]

/-- One worker has every turn, whatever the sign of the counter. -/
theorem rightTurn_one (i : Nat) : RightTurn 1 i (routeIndex 1 (BitVec.ofNat 32 i)) := by
  rw [rightTurn_iff (Nat.le_refl 1)]
  simp [Nat.mod_one]

/-- The first call behind the wrap has its turn if the number of workers divides the wrap. -/
theorem rightTurn_wrap (workers : 1 ≤ n) :
    RightTurn n (2 ^ 31) (routeIndex n (BitVec.ofNat 32 (2 ^ 31))) ↔ n ∣ 2 ^ 31 := by
  -- At the wrap the counter is the smallest signed word, whose remainder is zero or negative.
  have value : (BitVec.ofNat 32 (2 ^ 31)).toInt = -((2 ^ 31 : Nat) : Int) := by decide
  rw [rightTurn_iff workers, value, Int.neg_tmod, ← Int.ofNat_tmod, Nat.dvd_iff_mod_eq_zero]
  omega

/-- The second call behind the wrap has its turn only if there is one worker. -/
theorem rightTurn_late (workers : 1 ≤ n)
    (turn : RightTurn n (2 ^ 31 + 1) (routeIndex n (BitVec.ofNat 32 (2 ^ 31 + 1)))) : n = 1 := by
  have value : (BitVec.ofNat 32 (2 ^ 31 + 1)).toInt = -((2 ^ 31 - 1 : Nat) : Int) := by decide
  rw [rightTurn_iff workers, value, Int.neg_tmod, ← Int.ofNat_tmod] at turn
  -- A remainder and the opposite of one agree only at zero.
  have before : n ∣ 2 ^ 31 - 1 := Nat.dvd_of_mod_eq_zero (by omega)
  have behind : n ∣ 2 ^ 31 + 1 := Nat.dvd_of_mod_eq_zero (by omega)
  have two : n ∣ 2 := (Nat.dvd_sub behind before)
  have one : n ∣ 1 := (Nat.dvd_add_right (two.trans (by decide : 2 ∣ 2 ^ 31 - 2))).mp before
  exact Nat.dvd_one.mp one

/--
The calls of a run have their turns exactly as long as the counter has not wrapped.

With one worker the counter does not matter, and where the number of workers divides the wrap, the
first call behind it is still in turn.
-/
theorem turns_iff (workers : 1 ≤ n) (calls : Nat) :
    (∀ i < calls, RightTurn n i (routeIndex n (BitVec.ofNat 32 i))) ↔
      n = 1 ∨ calls ≤ 2 ^ 31 ∨ calls = 2 ^ 31 + 1 ∧ n ∣ 2 ^ 31 := by
  -- A call behind the first two of the wrap has its turn with one worker only.
  constructor
  · intro turns
    by_cases early : calls ≤ 2 ^ 31
    · exact .inr (.inl early)
    by_cases wrap : calls = 2 ^ 31 + 1
    · exact .inr (.inr ⟨wrap, (rightTurn_wrap workers).mp (turns _ (by omega))⟩)
    · exact .inl (rightTurn_late workers (turns _ (by omega)))
  · rintro (rfl | early | ⟨rfl, divides⟩) i before
    · exact rightTurn_one i
    · exact rightTurn_early workers (by omega)
    · rcases Nat.lt_succ_iff_lt_or_eq.mp before with early | rfl
      · exact rightTurn_early workers early
      · exact (rightTurn_wrap workers).mpr divides

/-- In turn, no worker is given more than one request more than another. -/
theorem turns_balanced (workers : 1 ≤ n) (calls : Nat) (first second : Fin n) :
    (List.range calls).countP (fun i => i % n = first.val) ≤
      (List.range calls).countP (fun i => i % n = second.val) + 1 := by
  -- Each worker has had a turn in every whole round.
  have share (worker : Fin n) :
      (List.range calls).countP (fun i => i % n = worker.val) =
        calls / n + if worker.val < calls % n then 1 else 0 := by
    have counted := Nat.count_modEq_card calls workers worker.val
    rw [Nat.mod_eq_of_lt worker.isLt] at counted
    rw [← counted, Nat.count]
    refine List.countP_congr fun i _ => ?_
    simp [Nat.ModEq, Nat.mod_eq_of_lt worker.isLt]
  rw [share, share]
  split <;> split <;> omega

end Route

section Requests

/-- What is remembered of the requests of a run. -/
structure Requests (m n : Nat) where
  -- The calls of `request_io(operation)` in order, each with the worker that it leads to.
  routed : List (Handle m × Option (Fin n)) := []
  -- The operations put on the queue of a worker, and those that a push had no memory for.
  queued : List (Handle m × Fin n) := []
  failed : List (Handle m × Fin n) := []

/-- What is remembered when a step has been taken. -/
def Requests.after (state : State m n k ω) (label : Label n k ω) (_ : State m n k ω)
    (requests : Requests m n) : Requests m n :=
  match label with
  | .run context _ fails =>
    match state.todo context with
    | .route handle :: _ =>
      { requests with
        routed := requests.routed ++ [(handle, routeIndex n state.shared.requestIndex)] }
    | .push handle worker :: _ =>
      if fails then { requests with failed := requests.failed ++ [(handle, worker)] }
      else { requests with queued := requests.queued ++ [(handle, worker)] }
    | _ => requests
  | _ => requests

/-- The operations put on the queue of a worker, in order. -/
def Requests.queuedTo (requests : Requests m n) (worker : Fin n) : List (Handle m) :=
  (requests.queued.filter fun request => request.2 = worker).map Prod.fst

/-- The number of calls that lead to a worker. -/
def Requests.given (requests : Requests m n) (worker : Fin n) : Nat :=
  requests.routed.countP fun call => call.2 = some worker

/-- How many calls are about to push an operation to the queue of a worker. -/
def State.pushing (state : State m n k ω) (handle : Handle m) (worker : Fin n) : Nat :=
  ∑ context, (state.todo context).count (.push handle worker)

/--
The requests of a run are delivered in turn.

The call with number i leads to worker i mod n; the operation of every call is on its way to the
queue of that worker and of no other, which hands out what was put there in order; and no worker
is given more than one request more than another.
-/
structure RoundRobin (state : State m n k ω) (requests : Requests m n) : Prop where
  inTurn : ∀ i handle target, requests.routed[i]? = some (handle, target) → RightTurn n i target
  reached : ∀ handle worker,
    requests.queued.count (handle, worker) + state.pushing handle worker =
      requests.routed.count (handle, some worker)
  fifo : ∀ worker, ∃ popped,
    requests.queuedTo worker = popped ++ (state.worker worker).requestQueue
  balanced : ∀ first second, requests.given first ≤ requests.given second + 1

/-- What is remembered agrees with the counter, with the calls and with the queues. -/
structure Recorded (state : State m n k ω) (requests : Requests m n) : Prop where
  index : state.shared.requestIndex = BitVec.ofNat 32 requests.routed.length
  targets : requests.routed.map Prod.snd =
    (List.range requests.routed.length).map fun i => routeIndex n (BitVec.ofNat 32 i)
  accounted : ∀ handle worker,
    requests.queued.count (handle, worker) + requests.failed.count (handle, worker) +
      state.pushing handle worker = requests.routed.count (handle, some worker)
  fifo : ∀ worker, ∃ popped,
    requests.queuedTo worker = popped ++ (state.worker worker).requestQueue

variable {config : Config ω} {state next : State m n k ω} {requests : Requests m n}

/-- Replacing what a context has to do changes the pushes by the difference. -/
theorem pushing_setTodo (state : State m n k ω) (context : Context n k) (todo : List (Todo m n))
    (handle : Handle m) (worker : Fin n) :
    (state.setTodo context todo).pushing handle worker +
        (state.todo context).count (.push handle worker) =
      state.pushing handle worker + todo.count (.push handle worker) :=
  sum_update Finset.univ state.todo
    (fun todo : List (Todo m n) => todo.count (Todo.push handle worker)) todo
    (Finset.mem_univ context)

/-- What is put on the queue of a worker comes behind what is there already. -/
theorem queuedTo_append (requests : Requests m n) (handle : Handle m) (worker target : Fin n) :
    Requests.queuedTo { requests with queued := requests.queued ++ [(handle, worker)] } target =
      requests.queuedTo target ++ if worker = target then [handle] else [] := by
  -- Whether the new operation is seen depends on the worker that it was put to.
  simp only [Requests.queuedTo, List.filter_append, List.map_append, List.filter_singleton]
  by_cases same : worker = target <;> simp [same]

/-- A step inside of a call changes the pushes of its own thread only. -/
theorem pushing_run {context : Context n k} {todo : Todo m n} {rest : List (Todo m n)}
    (head : state.todo context = todo :: rest) (after : Shared m ω) (more : List (Todo m n))
    (pushed : Option (Fin n × Handle m)) (handle : Handle m) (worker : Fin n) :
    (((state.setShared after).setTodo context (more ++ rest)).pushRequest pushed).pushing
        handle worker + [todo].count (.push handle worker) =
      state.pushing handle worker + more.count (.push handle worker) := by
  -- The calls behind the first one are counted on both sides, and cancel.
  have replaced := pushing_setTodo (state.setShared after) context (more ++ rest) handle worker
  have before : (state.setShared after).todo context = [todo] ++ rest := head
  rw [before, List.count_append, List.count_append] at replaced
  have same : (state.setShared after).pushing handle worker = state.pushing handle worker := rfl
  have pushed : (((state.setShared after).setTodo context (more ++ rest)).pushRequest
      pushed).pushing handle worker =
        ((state.setShared after).setTodo context (more ++ rest)).pushing handle worker := by
    simp only [State.pushing, pushRequest_todo]
  omega

/-- A step that routes nothing, pushes nothing and leaves the queues alone is not recorded. -/
theorem Recorded.keep (recorded : Recorded state requests)
    (index : next.shared.requestIndex = state.shared.requestIndex)
    (pushing : ∀ handle worker, next.pushing handle worker = state.pushing handle worker)
    (queue : ∀ worker, ∃ popped, (state.worker worker).requestQueue =
      popped ++ (next.worker worker).requestQueue) : Recorded next requests where
  index := index.trans recorded.index
  targets := recorded.targets
  accounted handle worker := by rw [pushing]; exact recorded.accounted handle worker
  fifo worker := by
    -- What has been popped now comes behind what was popped before.
    obtain ⟨popped, queued⟩ := recorded.fifo worker
    obtain ⟨more, shorter⟩ := queue worker
    exact ⟨popped ++ more, by rw [queued, shorter, List.append_assoc]⟩

/-- A call that is routed is recorded with the worker that the counter gives it. -/
theorem Recorded.route (recorded : Recorded state requests) {handle : Handle m}
    (index : next.shared.requestIndex = state.shared.requestIndex + 1)
    (pushing : ∀ other worker, next.pushing other worker = state.pushing other worker +
      if other = handle ∧ routeIndex n state.shared.requestIndex = some worker then 1 else 0)
    (queue : ∀ worker, (next.worker worker).requestQueue = (state.worker worker).requestQueue) :
    Recorded next { requests with
      routed := requests.routed ++ [(handle, routeIndex n state.shared.requestIndex)] } where
  index := by
    -- The counter is the number of routed calls, and one more has been routed.
    rw [index, recorded.index, List.length_append, List.length_singleton, BitVec.ofNat_add]
    rfl
  targets := by
    simp only [List.map_append, List.length_append, List.length_singleton, List.range_succ,
      List.map_cons, List.map_nil, recorded.targets, recorded.index]
  accounted other worker := by
    -- The call is on its way to the worker that it was given to.
    have before := recorded.accounted other worker
    rw [pushing, List.count_append, List.count_singleton]
    simp only [beq_iff_eq, Prod.mk.injEq, @eq_comm _ handle]
    omega
  fifo worker := by rw [queue]; exact recorded.fifo worker

/-- What a step inside of a call does is recorded. -/
theorem run_recorded {context : Context n k} {slot : Option Slot} {fails : Bool}
    {todo : Todo m n} {rest more : List (Todo m n)} {after : Shared m ω}
    {pushed : Option (Fin n × Handle m)} (workers : 1 ≤ n) (recorded : Recorded state requests)
    (head : state.todo context = todo :: rest)
    (call : CallStep state.shared fails todo after more pushed) :
    Recorded (((state.setShared after).setTodo context (more ++ rest)).pushRequest pushed)
      (Requests.after state (.run context slot fails) next requests) := by
  -- What the thread is about to push changes by what the step consumes and leaves behind.
  have pushing := pushing_run head after more pushed
  -- Only a route and a push are recorded; each other step is shown to leave the record as it is.
  cases call with
  | ask waits aside ends =>
    have same : Requests.after state (.run context slot fails) next requests = requests := by
      cases todo <;> first | (simp [Requests.after, head]; done) | cases waits
    rw [same]
    refine recorded.keep aside.requestIndex (fun handle worker => ?_) fun worker => ⟨[], rfl⟩
    -- Before its acquisition a call has no operation to push, and neither has what it leaves.
    have pushes := pushing handle worker
    have before : [todo].count (.push handle worker) = 0 := by
      cases todo <;> first | rfl | cases waits
    have behind : more.count (.push handle worker) = 0 := by
      rcases ends with rfl | ⟨operation, rfl, -⟩ <;> rfl
    omega
  | acquire acquired submissions requestIndex =>
    have same : Requests.after state (.run context slot fails) next requests = requests := by
      simp [Requests.after, head]
    rw [same]
    exact recorded.keep requestIndex (fun handle worker => pushing handle worker)
      fun worker => ⟨[], rfl⟩
  | addRef aside =>
    have same : Requests.after state (.run context slot fails) next requests = requests := by
      simp [Requests.after, head]
    rw [same]
    exact recorded.keep aside.requestIndex (fun handle worker => pushing handle worker)
      fun worker => ⟨[], rfl⟩
  | stop aside unrouted unpushed =>
    have same : Requests.after state (.run context slot fails) next requests = requests := by
      -- A call that stops was not about to push, and with a worker it is not about to be routed.
      cases todo with
      | route handle => have none := unrouted handle rfl; omega
      | push handle worker => exact absurd rfl (unpushed handle worker)
      | _ => simp [Requests.after, head]
    rw [same]
    exact recorded.keep aside.requestIndex
      (fun handle worker => Nat.add_right_cancel (pushing handle worker)) fun worker => ⟨[], rfl⟩
  | @route handle worker inside =>
    have same : Requests.after state (.run context slot fails) next requests =
        { requests with
          routed := requests.routed ++ [(handle, routeIndex n state.shared.requestIndex)] } := by
      simp [Requests.after, head]
    rw [same]
    -- The operation is routed once more, and one more push of it is on its way.
    refine recorded.route rfl (fun other target => ?_) fun _ => rfl
    have pushes := pushing other target
    rw [List.count_singleton, List.count_singleton] at pushes
    simp only [beq_iff_eq, Todo.push.injEq, reduceCtorEq, if_false, Nat.add_zero] at pushes
    simp only [pushes, inside, Option.some_inj, @eq_comm _ handle]
  | @turnAway handle _ outside acquisitions submissions requestIndex =>
    have same : Requests.after state (.run context slot fails) next requests =
        { requests with
          routed := requests.routed ++ [(handle, routeIndex n state.shared.requestIndex)] } := by
      simp [Requests.after, head]
    rw [same]
    -- The counter goes on, and no push comes of this call.
    refine recorded.route requestIndex (fun other target => ?_) fun _ => rfl
    rw [outside]
    simpa using pushing other target
  | @push handle worker succeeds =>
    have same : Requests.after state (.run context slot fails) next requests =
        { requests with queued := requests.queued ++ [(handle, worker)] } := by
      simp [Requests.after, head, succeeds]
    rw [same]
    refine ⟨recorded.index, recorded.targets, fun other target => ?_, fun target => ?_⟩
    · -- The push is on its way no more, and stands on the queue instead.
      have before := recorded.accounted other target
      have pushes := pushing other target
      rw [List.count_singleton, List.count_nil] at pushes
      rw [List.count_append, List.count_singleton]
      simp only [beq_iff_eq, Prod.mk.injEq, Todo.push.injEq] at pushes ⊢
      omega
    · obtain ⟨popped, queued⟩ := recorded.fifo target
      refine ⟨popped, ?_⟩
      rw [queuedTo_append, pushRequest_requestQueue, queued]
      exact List.append_assoc ..
  | @failPush handle worker failed =>
    have same : Requests.after state (.run context slot fails) next requests =
        { requests with failed := requests.failed ++ [(handle, worker)] } := by
      simp [Requests.after, head, failed]
    rw [same]
    refine ⟨recorded.index, recorded.targets, fun other target => ?_, recorded.fifo⟩
    -- The push is on its way no more, and has failed instead.
    have before := recorded.accounted other target
    have pushes := pushing other target
    rw [List.count_singleton, List.count_nil] at pushes
    rw [List.count_append, List.count_singleton]
    simp only [beq_iff_eq, Prod.mk.injEq, Todo.push.injEq] at pushes ⊢
    omega

/-- A thread that had no call to make begins none that pushes at once. -/
theorem pushing_begin {context : Context n k} {more : List (Todo m n)}
    (idle : state.todo context = []) (waiting : ∀ todo ∈ more, todo.requesting = false)
    (handle : Handle m) (worker : Fin n) :
    (state.setTodo context more).pushing handle worker = state.pushing handle worker := by
  -- A push is a step inside of a request, and none of these calls has begun one.
  have none : more.count (.push handle worker) = 0 :=
    List.count_eq_zero.mpr fun member => by cases waiting _ member
  have replaced := pushing_setTodo state context more handle worker
  rw [idle, List.count_nil, none] at replaced
  exact replaced

/-- A step that is not one of a call is not recorded. -/
theorem after_other {label : Label n k ω}
    (uncalled : ∀ context slot fails, label ≠ .run context slot fails) :
    Requests.after state label next requests = requests := by
  cases label with
  | run context slot fails => exact absurd rfl (uncalled context slot fails)
  | _ => rfl

/-- Every step is recorded. -/
theorem step_recorded {label : Label n k ω} (workers : 1 ≤ n) (recorded : Recorded state requests)
    (stepped : step config state label = some next) :
    Recorded next (Requests.after state label next requests) := by
  -- Only the steps inside of calls are recorded; a worker may pop from its queue.
  cases step_queue stepped with
  | run head call => exact run_recorded workers recorded head call
  | @work at_ interrupted after worker more idle queue waiting =>
    refine Recorded.keep recorded ?_ (pushing_begin idle waiting) fun other => ?_
    · cases queue with
      | stay aside => exact aside.requestIndex
      | _ => rfl
    · by_cases same : other = at_
      · subst same
        have itself : ((((state.setShared after).setWorker other worker).setTodo (.worker other)
            more).worker other) = worker := Function.update_self ..
        rw [itself]
        cases queue with
        | stay _ queue => exact ⟨[], queue.symm⟩
        | pop _ queue => exact ⟨[_], queue⟩
        | _ => exact ⟨[], rfl⟩
      · exact ⟨[], (congrArg Worker.requestQueue (Function.update_of_ne same _ _)).symm⟩
  | begin idle elsewhere uncalled =>
    rw [after_other uncalled]
    exact recorded.keep rfl (pushing_begin idle (by simp [Todo.requesting])) fun _ => ⟨[], rfl⟩
  | outside aside todo queue prepared place elsewhere uncalled =>
    rw [after_other uncalled]
    exact recorded.keep aside.requestIndex (fun _ _ => by simp only [State.pushing, todo])
      fun worker => ⟨[], (queue worker).symm⟩

/-- In every run, what is remembered agrees with the counter, the calls and the queues. -/
theorem run_recorded_all {world : ω} {labels : List (Label n k ω)} (workers : 1 ≤ n)
    (run : Run (track (step config) Requests.after) anyStep
      (State.init m n k config world, {}) labels (state, requests)) :
    Recorded state requests := by
  -- The induction is on the run, and carries the record of its requests.
  refine run.invariant (P := fun seen => Recorded seen.1 seen.2) ?_
    fun seen label next recorded _ stepped => ?_
  · refine ⟨rfl, rfl, fun handle worker => ?_, fun worker => ⟨[], rfl⟩⟩
    have idle : (State.init m n k config world).pushing handle worker = 0 := by
      refine Finset.sum_eq_zero fun context _ => List.count_eq_zero.mpr fun member => ?_
      cases context <;> simp [State.init] at member
    simp [idle]
  · obtain ⟨taken, kept⟩ := track_eq_some.mp stepped
    rw [← kept]
    exact step_recorded workers recorded taken

/-- A call leads to the worker that the counter gives it. -/
theorem Recorded.target (recorded : Recorded state requests) {i : Nat} {handle : Handle m}
    {target : Option (Fin n)} (call : requests.routed[i]? = some (handle, target)) :
    target = routeIndex n (BitVec.ofNat 32 i) := by
  obtain ⟨inside, -⟩ := List.getElem?_eq_some_iff.mp call
  -- The targets are those of the numbers of the calls, so that the i-th is the one of i.
  have found := congrArg (fun targets => targets[i]?) recorded.targets
  simp only [List.getElem?_map, call, Option.map_some, List.getElem?_range inside] at found
  exact Option.some_inj.mp found

/-- In turn, the number of calls that lead to a worker is the number of its turns. -/
theorem Recorded.given_eq (recorded : Recorded state requests)
    (turns : ∀ i < requests.routed.length, RightTurn n i (routeIndex n (BitVec.ofNat 32 i)))
    (worker : Fin n) : requests.given worker =
      (List.range requests.routed.length).countP fun i => i % n = worker.val := by
  -- Counting the calls of a worker is counting the numbers whose turn is its own.
  have mapped : requests.given worker =
      (requests.routed.map Prod.snd).countP fun target => target = some worker := by
    rw [List.countP_map]
    rfl
  rw [mapped, recorded.targets, List.countP_map]
  refine List.countP_congr fun i member => ?_
  obtain ⟨target, leads, turn⟩ := turns i (List.mem_range.mp member)
  simp [leads, ← turn, Fin.ext_iff]

/--
Requests are delivered in turn exactly as long as the counter has not wrapped.

The counter is a signed word, and behind its wrap the remainder is negative: the range check then
turns the request away, and where the remainder is zero the turn is another worker's.
-/
theorem roundRobin_iff (workers : 1 ≤ n) {world : ω} {labels : List (Label n k ω)}
    (run : Run (track (step config) Requests.after) anyStep
      (State.init m n k config world, {}) labels (state, requests)) :
    RoundRobin state requests ↔
      requests.failed = [] ∧ (n = 1 ∨ requests.routed.length ≤ 2 ^ 31 ∨
        requests.routed.length = 2 ^ 31 + 1 ∧ n ∣ 2 ^ 31) := by
  have recorded := run_recorded_all workers run
  rw [← turns_iff workers]
  constructor
  · intro robin
    refine ⟨?_, fun i inside => ?_⟩
    · -- A failed push would be missing where its call leads.
      refine List.eq_nil_iff_forall_not_mem.mpr fun ⟨handle, worker⟩ member => ?_
      have counted := List.count_pos_iff.mpr member
      have reached := robin.reached handle worker
      have accounted := recorded.accounted handle worker
      omega
    · -- The record says where each call went, and round-robin says where it should.
      have call := List.getElem?_eq_getElem inside
      have turn := robin.inTurn i _ _ call
      rwa [recorded.target call] at turn
  · -- Without failed pushes, what was routed is what is on its way or queued.
    rintro ⟨none, turns⟩
    refine ⟨fun i handle target call => ?_, fun handle worker => ?_, recorded.fifo,
      fun first second => ?_⟩
    · rw [recorded.target call]
      exact turns i (List.getElem?_eq_some_iff.mp call).1
    · have accounted := recorded.accounted handle worker
      rw [none, List.count_nil, Nat.add_zero] at accounted
      exact accounted
    · rw [recorded.given_eq turns, recorded.given_eq turns]
      exact turns_balanced workers _ first second

end Requests

section Runs

/-- The small service with two workers, which requests its two accepts. -/
def requestTwo : List (Label 2 1 Unit) :=
  [.run .main none false, .run .main (some ⟨0, 0⟩) false, .run .main none false,
    .run .main none false, .run .main none false, .run .main none false,
    .run .main (some ⟨0, 1⟩) false, .run .main none false, .run .main none false,
    .run .main none false]

/-- Two accepts go to one worker each. -/
theorem roundRobin_iff_two :
    ∃ (state : State 2 2 1 Unit) (requests : Requests 2 2),
      RoundRobin state requests ∧ requests.routed.map Prod.snd = [some 0, some 1] ∧
        (state.worker 0).requestQueue.length = 1 ∧ (state.worker 1).requestQueue.length = 1 := by
  -- The first two calls are within every bound.
  have executed : (exec (track (step smallConfig) Requests.after)
      (State.init 2 2 1 smallConfig (), {}) requestTwo).any fun seen =>
        seen.2.failed = [] ∧ seen.2.routed.length ≤ 2 ^ 31 ∧
        seen.2.routed.map Prod.snd = [some 0, some 1] ∧
        (seen.1.worker 0).requestQueue.length = 1 ∧
        (seen.1.worker 1).requestQueue.length = 1 := by decide +kernel
  obtain ⟨⟨state, requests⟩, reached, facts⟩ := (Option.any_eq_true _ _).mp executed
  obtain ⟨none, few, values⟩ := of_decide_eq_true facts
  exact ⟨state, requests, (roundRobin_iff (by decide) (.of_exec reached)).mpr
    ⟨none, .inr (.inl few)⟩, values⟩

variable {config : Config ω} {state : State m n k ω} {requests : Requests m n}

/-- A thread of the application holds an actor, and has no call to make. -/
structure Holding (state : State m n k ω) (thread : Fin k) (actor : Nat) : Prop where
  running : state.shared.fault = none
  idle : state.todo (.application thread) = []
  held : actor < state.shared.actors.length

/-- The pool is not bounded, so that there is always a slot that is not in use. -/
theorem exists_free (used : List Slot) : ∃ slot, slot ∉ used := by
  have numbered : Function.Injective fun index : Nat => (⟨0, index⟩ : Slot) := by
    intro first second same
    cases same
    rfl
  -- There are infinitely many slots, and only finitely many of them are in use.
  have infinite : Infinite Slot := .of_injective _ numbered
  obtain ⟨slot, free⟩ := Infinite.exists_notMem_finset used.toFinset
  exact ⟨slot, fun member => free (List.mem_toFinset.mpr member)⟩

/-- The labels of a send of no bytes, up to the routing of its operation. -/
def sendNothing (thread : Fin k) (actor : Nat) (slot : Slot) : List (Label n k ω) :=
  [.call thread (.requestSend actor []), .run (.application thread) none false,
    .run (.application thread) (some slot) false, .run (.application thread) none false,
    .run (.application thread) none false]

/-- A thread that holds an actor can always request one more send. -/
theorem Holding.send {thread : Fin k} {actor : Nat} (workers : 1 ≤ n)
    (holding : Holding state thread actor) (requests : Requests m n) :
    ∃ labels next after,
      Run (track (step config) Requests.after) anyStep (state, requests) labels (next, after) ∧
      Holding next thread actor ∧ after.routed.length = requests.routed.length + 1 := by
  -- The pool answers with a slot that is not in use, and no push fails.
  obtain ⟨slot, free⟩ := exists_free (state.shared.held .sendBuffer)
  have behind := List.getElem?_eq_getElem holding.held
  have positive : n ≠ 0 := by omega
  -- Where the counter gives a worker, the operation is pushed as well.
  let push : List (Label n k ω) :=
    if (routeIndex n state.shared.requestIndex).isSome then
      [.run (.application thread) none false]
    else []
  have executed : ∃ next after,
      exec (track (step config) Requests.after) (state, requests)
        (sendNothing thread actor slot ++ push) = some (next, after) ∧
      Holding next thread actor ∧ after.routed.length = requests.routed.length + 1 := by
    cases target : routeIndex n state.shared.requestIndex <;>
      simp [push, sendNothing, exec, track, step, holding.running, holding.idle, todoStep, behind,
        free, target, positive, State.setTodo, State.setShared, State.pushRequest,
        State.setWorker, ActorCall.operation, Shared.setCell, Shared.setHeld, Shared.record,
        Operation.kind, ActorCall.actor, Requests.after] <;>
      exact ⟨rfl, Function.update_self .., holding.held⟩
  obtain ⟨next, after, reached, facts⟩ := executed
  exact ⟨_, next, after, .of_exec reached, facts⟩

/-- A thread that holds an actor can request any number of sends. -/
theorem Holding.sends {thread : Fin k} {actor : Nat} (workers : 1 ≤ n)
    (holding : Holding state thread actor) (requests : Requests m n) (count : Nat) :
    ∃ labels next after,
      Run (track (step config) Requests.after) anyStep (state, requests) labels (next, after) ∧
      Holding next thread actor ∧ after.routed.length = requests.routed.length + count := by
  -- The induction is on the number of sends, and carries that the thread still holds the actor.
  induction count with
  | zero => exact ⟨[], state, requests, .refl, holding, rfl⟩
  | succ count ih =>
    obtain ⟨labels, between, middle, before, still, length⟩ := ih
    obtain ⟨more, next, after, last, holds, longer⟩ := still.send workers middle
    exact ⟨labels ++ more, next, after, before.trans last, holds, by omega⟩

/-- The first of the two workers accepts a connection, and makes an actor for its session. -/
def acceptTwo : List (Label 2 1 Unit) :=
  requestTwo ++ List.replicate 9 (.work 0 false) ++ [.start 0 0, .complete 0 0 5 []] ++
    List.replicate 2 (.work 0 false)

/-- Behind the wrap of the counter, two workers are no longer given the requests in turn. -/
theorem round_robin_fails :
    ∃ (labels : List (Label 2 1 Unit)) (state : State 2 2 1 Unit) (requests : Requests 2 2),
      Run (track (step smallConfig) Requests.after) anyStep
        (State.init 2 2 1 smallConfig (), {}) labels (state, requests) ∧
      requests.routed.length = 2 ^ 31 + 2 ∧ ¬ RoundRobin state requests := by
  -- The two accepts are executed, and the sends up to the wrap are made by the general lemma.
  have executed : (exec (track (step smallConfig) Requests.after)
      (State.init 2 2 1 smallConfig (), {}) acceptTwo).any fun seen =>
        seen.1.shared.fault = none ∧ seen.1.todo (.application 0) = [] ∧
        0 < seen.1.shared.actors.length ∧ seen.2.routed.length = 2 := by decide +kernel
  obtain ⟨⟨start, early⟩, reached, facts⟩ := (Option.any_eq_true _ _).mp executed
  obtain ⟨running, idle, held, two⟩ := of_decide_eq_true facts
  have holding : Holding start 0 0 := ⟨running, idle, held⟩
  obtain ⟨labels, state, requests, sent, -, length⟩ :=
    holding.sends (by decide) early (2 ^ 31)
  have run := (Run.of_exec reached).trans sent
  have recorded := run_recorded_all (by decide) run
  rw [two] at length
  refine ⟨_, state, requests, run, by omega, fun robin => ?_⟩
  -- The second call behind the wrap has its turn only if there is one worker.
  have call := List.getElem?_eq_getElem (show 2 ^ 31 + 1 < requests.routed.length by omega)
  have turn := robin.inTurn (2 ^ 31 + 1) _ _ call
  rw [recorded.target call] at turn
  have one := rightTurn_late (by decide) turn
  cases one

end Runs

end Braid.Service
