import Braid.Library.Transition
import Braid.Service.Completions

/-! The request queue of a worker: what the calls push to it, and how a flush empties it. -/

namespace Braid.Service

open Memory (Slot)

variable {m n k : Nat} {ω : Type}

/-- The acquisition that is remembered. -/
def Event.acquisition : Event m → Option (Handle m)
  | .acquired handle _ => some handle
  | _ => none

/-- The submission that is remembered. -/
def Event.submission : Event m → Option (Handle m)
  | .submitted handle => some handle
  | _ => none

namespace Shared

/-- The operations acquired so far, in order. -/
def acquisitions (shared : Shared m ω) : List (Handle m) := shared.log.filterMap Event.acquisition

/-- The operations submitted to the kernel so far, in order. -/
def submissions (shared : Shared m ω) : List (Handle m) := shared.log.filterMap Event.submission

/-- A step that the request queues do not see: nothing is acquired, routed or submitted. -/
structure Aside (shared after : Shared m ω) : Prop where
  acquisitions : after.acquisitions = shared.acquisitions
  submissions : after.submissions = shared.submissions
  requestIndex : after.requestIndex = shared.requestIndex
  fault : after.fault = some .nullEntry → shared.fault = some .nullEntry

/-- Events of another kind are remembered aside of the request queues. -/
theorem Aside.of_log {shared after : Shared m ω} {events : List (Event m)}
    (log : after.log = shared.log ++ events)
    (other : ∀ event ∈ events, event.acquisition = none ∧ event.submission = none)
    (requestIndex : after.requestIndex = shared.requestIndex)
    (fault : after.fault = some .nullEntry → shared.fault = some .nullEntry) :
    shared.Aside after := by
  -- The new events add neither an acquisition nor a submission to what is read from the log.
  have acquired : events.filterMap Event.acquisition = [] :=
    List.filterMap_eq_nil_iff.mpr fun event member => (other event member).1
  have submitted : events.filterMap Event.submission = [] :=
    List.filterMap_eq_nil_iff.mpr fun event member => (other event member).2
  refine ⟨?_, ?_, requestIndex, fault⟩
  · simp [Shared.acquisitions, log, acquired]
  · simp [Shared.submissions, log, submitted]

/-- A step that remembers nothing is one aside of the request queues. -/
theorem Aside.of_same {shared after : Shared m ω} (log : after.log = shared.log)
    (requestIndex : after.requestIndex = shared.requestIndex)
    (fault : after.fault = some .nullEntry → shared.fault = some .nullEntry) :
    shared.Aside after :=
  .of_log (log.trans (List.append_nil _).symm) (by simp) requestIndex fault

/-- What is remembered behind a step aside of the request queues may be aside of them as well. -/
theorem Aside.record {shared after : Shared m ω} (aside : shared.Aside after)
    (events : List (Event m))
    (other : ∀ event ∈ events, event.acquisition = none ∧ event.submission = none) :
    shared.Aside (after.record events) := by
  have last : after.Aside (after.record events) := .of_log rfl other rfl id
  exact ⟨last.acquisitions.trans aside.acquisitions, last.submissions.trans aside.submissions,
    aside.requestIndex, aside.fault⟩

/-- An operation that reaches no request queue is remembered aside of them. -/
theorem Aside.dropped (shared : Shared m ω) (handle : Handle m) :
    shared.Aside (shared.record [.dropped handle]) :=
  .of_log rfl (by simp [Event.acquisition, Event.submission]) rfl id

end Shared

section Calls

/-- The operation that a call inside of `request_io` is about to push. -/
def Todo.inCall : Todo m n → List (Handle m)
  | .addRef handle => [handle]
  | .route handle => [handle]
  | .push handle _ => [handle]
  | _ => []

/-- What a step inside of a call does, as the request queues see it. -/
inductive CallStep (shared : Shared m ω) (fails : Bool) :
    Todo m n → Shared m ω → List (Todo m n) → Option (Fin n × Handle m) → Prop
  -- Before the operation is acquired: the call ends, or it goes on to the pool.
  | ask {todo : Todo m n} {after : Shared m ω} {more : List (Todo m n)} (waits : todo.inCall = [])
      (aside : shared.Aside after)
      (ends : more = [] ∨ ∃ operation, more = [.acquire operation] ∧
        ∀ session sendBuffer, operation = .sendBuffer session sendBuffer →
          ∃ actor, todo = .call (.requestSend actor sendBuffer) ∧
            shared.actors[actor]? = some session) :
    CallStep shared fails todo after more none
  | acquire {operation : Operation m} {after : Shared m ω}
      (acquired : after.acquisitions =
        shared.acquisitions ++ [⟨shared.nextOperation, operation⟩])
      (submissions : after.submissions = shared.submissions)
      (requestIndex : after.requestIndex = shared.requestIndex) :
    CallStep shared fails (.acquire operation) after
      [.addRef ⟨shared.nextOperation, operation⟩] none
  | addRef {handle : Handle m} {after : Shared m ω} (aside : shared.Aside after) :
    CallStep shared fails (.addRef handle) after [.route handle] none
  -- The program stops inside of the call.
  | stop {todo : Todo m n} {after : Shared m ω} (aside : shared.Aside after)
      (unrouted : ∀ handle, todo = .route handle → n = 0)
      (unpushed : ∀ handle worker, todo ≠ .push handle worker) :
    CallStep shared fails todo after [todo] none
  | route {handle : Handle m} {worker : Fin n}
      (inside : routeIndex n shared.requestIndex = some worker) :
    CallStep shared fails (.route handle)
      { shared with requestIndex := shared.requestIndex + 1 } [.push handle worker] none
  | turnAway {handle : Handle m} {after : Shared m ω}
      (outside : routeIndex n shared.requestIndex = none)
      (acquisitions : after.acquisitions = shared.acquisitions)
      (submissions : after.submissions = shared.submissions)
      (requestIndex : after.requestIndex = shared.requestIndex + 1) :
    CallStep shared fails (.route handle) after [] none
  | push {handle : Handle m} {worker : Fin n} (succeeds : fails = false) :
    CallStep shared fails (.push handle worker) shared [] (some (worker, handle))
  | failPush {handle : Handle m} {worker : Fin n} (failed : fails = true) :
    CallStep shared fails (.push handle worker) (shared.record [.dropped handle]) [] none

variable {config : Config ω}

/-- A step inside of a call does what it is said to do. -/
theorem todoStep_call {shared after : Shared m ω} {slot : Option Slot} {fails : Bool}
    {todo : Todo m n} {more : List (Todo m n)} {pushed : Option (Fin n × Handle m)}
    (stepped : todoStep config shared slot fails todo = some (after, more, pushed)) :
    CallStep shared fails todo after more pushed := by
  -- One case for each place inside of a call, with the branches of the source in their order.
  cases todo with
  | acceptOne =>
    simp only [todoStep] at stepped
    -- There is no session to accept for, or the accept goes on to the pool.
    split at stepped <;> cases stepped
    · exact .ask rfl (.of_same rfl rfl id) (.inl rfl)
    · exact .ask rfl (.of_same rfl rfl id) (.inr ⟨_, rfl, (by simp)⟩)
  | call call =>
    simp only [todoStep] at stepped
    -- The actor is not known to the service, or the call goes on to the pool.
    split at stepped
    · cases stepped
      exact .ask rfl (.of_same rfl rfl id) (.inl rfl)
    · rename_i behind
      cases stepped
      refine .ask rfl (.of_same rfl rfl id) (.inr ⟨_, rfl, fun session sendBuffer same => ?_⟩)
      cases call with
      | requestSend actor bytes => cases same; exact ⟨actor, rfl, behind⟩
      | requestClose actor => cases same
  | receive session =>
    cases stepped
    exact .ask rfl (.of_same rfl rfl id) (.inr ⟨_, rfl, (by simp)⟩)
  | acquire operation =>
    simp only [todoStep] at stepped
    -- The pool has nothing left, or hands out the slot of the step.
    split at stepped
    · cases stepped
      exact .ask rfl (.of_log rfl (by simp [Event.acquisition, Event.submission]) rfl id) (.inl rfl)
    · split at stepped
      · cases stepped
      · cases stepped
        refine .acquire ?_ ?_ rfl <;>
          simp [Shared.acquisitions, Shared.submissions, Shared.record, Shared.setHeld,
            Shared.setCell, Event.acquisition, Event.submission]
  | addRef handle =>
    simp only [todoStep] at stepped
    -- The reference is added to a live operation, or the program stops on a dead one.
    split at stepped <;> cases stepped
    · exact .stop (.of_same rfl rfl (by rintro ⟨⟩)) (by simp) (by simp)
    · exact .addRef (.of_same rfl rfl id)
  | route handle =>
    simp only [todoStep] at stepped
    -- Without workers the remainder is by zero; otherwise the index may be past the workers.
    split at stepped
    · rename_i none
      cases stepped
      exact .stop (.of_same rfl rfl (by rintro ⟨⟩)) (fun _ _ => none) (by simp)
    · split at stepped
      · rename_i outside
        cases stepped
        have aside := Shared.Aside.dropped
          { shared with requestIndex := shared.requestIndex + 1 } handle
        exact .turnAway outside aside.acquisitions aside.submissions aside.requestIndex
      · rename_i inside
        cases stepped
        exact .route inside
  | push handle worker =>
    simp only [todoStep] at stepped
    -- The push allocates, which may fail.
    split at stepped
    · rename_i failed
      cases stepped
      exact .failPush failed
    · rename_i succeeds
      cases stepped
      exact .push (by simpa using succeeds)

end Calls

section Flush

/-- The operation that a flush has popped and that has no entry yet. -/
def Place.inHand : Place m → List (Handle m)
  | .requestIo handle => [handle]
  | .prepareClose handle => [handle]
  | _ => []

/-- A flush is under way: entries may be prepared that are not submitted. -/
def Place.flushing : Place m → Bool
  | .flushPop | .requestIo _ | .prepareClose _ | .submitClose | .submit => true
  | _ => false

variable (config : Config ω)

/-- What a step of a worker does to its request queue and to its ring. -/
inductive QueueStep (shared : Shared m ω) (worker : Worker m) :
    Shared m ω → Worker m → Prop
  | stay {after : Shared m ω} {next : Worker m} (aside : shared.Aside after)
      (queue : next.requestQueue = worker.requestQueue) (prepared : next.prepared = worker.prepared)
      (submitted : next.submitted = worker.submitted)
      (hand : next.place.inHand = worker.place.inHand)
      (entryless : worker.place ≠ .submitClose ∧ next.place ≠ .submitClose)
      (outside : next.place.flushing = false → worker.place.flushing = false)
      (entering : next.place.flushing = true →
        worker.place.flushing = true ∨ worker.place = .flushEmpty)
      (closing : ∀ handle, next.place = .prepareClose handle →
        worker.place = next.place ∨ handle.operation.kind = .close) :
    QueueStep shared worker after next
  | pop {handle : Handle m} {rest : List (Handle m)} (place : worker.place = .flushPop)
      (queue : worker.requestQueue = handle :: rest) :
    QueueStep shared worker shared
      { worker with requestQueue := rest, place := .requestIo handle }
  | write {handle : Handle m} {place : Place m} (hand : worker.place.inHand = [handle])
      (room : worker.prepared.length < submissionEntries config.queueDepthPerThread)
      (goesOn : worker.place = .prepareClose handle ∧ place = .submitClose ∨
        handle.operation.kind ≠ .close ∧ place = .flushPop) :
    QueueStep shared worker
      (shared.record [.prepared handle (shared.descriptors (handle.operation.fd shared))])
      { worker with
        prepared := worker.prepared ++ [⟨handle, handle.operation.fd shared⟩]
        place := place }
  | nullEntry {handle : Handle m} (hand : worker.place.inHand = [handle])
      (full : ¬ worker.prepared.length < submissionEntries config.queueDepthPerThread) :
    QueueStep shared worker (shared.stop .nullEntry) worker
  | submit {place : Place m} (empty : worker.place.inHand = []) (hand : place.inHand = [])
      (goesOn : worker.place = .submitClose ∧ place = .flushPop ∨
        worker.place = .submit ∧ place = .processTasks) :
    QueueStep shared worker (submitEntries shared worker place).1
      (submitEntries shared worker place).2

variable {config}

/-- A step of a worker that is not in a flush, and does not begin one, leaves its ring alone. -/
theorem QueueStep.routine {shared after : Shared m ω} {worker next : Worker m}
    (aside : shared.Aside after) (queue : next.requestQueue = worker.requestQueue)
    (prepared : next.prepared = worker.prepared) (submitted : next.submitted = worker.submitted)
    (before : worker.place.flushing = false) (behind : next.place.flushing = false) :
    QueueStep config shared worker after next := by
  -- Outside of a flush there is nothing in hand and no close under way.
  have outside (place : Place m) (idle : place.flushing = false) :
      place.inHand = [] ∧ place ≠ .submitClose ∧ ∀ handle, place ≠ .prepareClose handle := by
    cases place <;> first | (cases idle; done) | exact ⟨rfl, by simp, by simp⟩
  obtain ⟨handBefore, closeBefore, -⟩ := outside _ before
  obtain ⟨handBehind, closeBehind, unclosed⟩ := outside _ behind
  exact .stay aside queue prepared submitted (handBehind.trans handBefore.symm)
    ⟨closeBefore, closeBehind⟩ (fun _ => before)
    (fun begins => by rw [behind] at begins; cases begins)
    fun handle close => absurd close (unclosed handle)

/-- A step at which the program stops leaves the worker where it is. -/
theorem QueueStep.stopped {shared after : Shared m ω} {worker : Worker m}
    (aside : shared.Aside after) (entryless : worker.place ≠ .submitClose) :
    QueueStep config shared worker after worker :=
  .stay aside rfl rfl rfl rfl ⟨entryless, entryless⟩ id .inl fun _ _ => .inl rfl

/-- An entry is taken for the operation in hand, or there is none. -/
theorem prepare_queue {shared : Shared m ω} {worker : Worker m} {handle : Handle m}
    {place : Place m} (hand : worker.place.inHand = [handle])
    (goesOn : worker.place = .prepareClose handle ∧ place = .submitClose ∨
      handle.operation.kind ≠ .close ∧ place = .flushPop) :
    QueueStep config shared worker (prepare config shared worker handle place).1
      (prepare config shared worker handle place).2 := by
  -- `io_uring_get_sqe` returns null for a full ring, and the source does not check for it.
  unfold prepare
  split
  · rename_i room
    exact .write hand room goesOn
  · rename_i full
    exact .nullEntry hand full

/-- A step inside of `flush_requests` does what it is said to do. -/
theorem flushStep_queue (shared : Shared m ω) (worker : Worker m)
    (flush : worker.place.flushing = true ∨ worker.place = .flushEmpty) :
    QueueStep config shared worker (flushStep config shared worker worker.place).1
      (flushStep config shared worker worker.place).2 := by
  cases place : worker.place with
  | flushEmpty =>
    -- An empty queue goes back to the tasks, and another one to the loop of pops.
    refine .stay (.of_same rfl rfl id) rfl rfl rfl ?_ ?_ ?_ ?_ ?_ <;>
      simp only [flushStep, place] <;> split <;> simp [Place.inHand, Place.flushing]
  | flushPop =>
    -- The loop ends with a submission when the queue is empty, and pops otherwise.
    simp only [flushStep]
    split
    · exact .stay (.of_same rfl rfl id) rfl rfl rfl (by simp [place, Place.inHand])
        (by simp [place]) (by simp [Place.flushing]) (by simp [place, Place.flushing]) (by simp)
    · rename_i queue
      exact .pop place queue
  | requestIo handle =>
    -- A close goes through its own two steps, and every other kind takes an entry at once.
    simp only [flushStep]
    split
    · exact .stopped (.of_same rfl rfl (by rintro ⟨⟩)) (by simp [place])
    · split
      · rename_i session close
        refine .stay (.of_log rfl (by simp [Event.acquisition, Event.submission]) rfl id) rfl rfl
          rfl ?_ ?_ ?_ ?_ ?_ <;>
          simp [place, Place.inHand, Place.flushing, close, Operation.kind]
      · rename_i other
        refine prepare_queue (by simp [place, Place.inHand]) (.inr ⟨?_, rfl⟩)
        cases operation : handle.operation with
        | close session => exact absurd operation (other session)
        | _ => simp [Operation.kind]
  | prepareClose handle =>
    simp only [flushStep]
    split
    · exact .stopped (.of_same rfl rfl (by rintro ⟨⟩)) (by simp [place])
    · exact prepare_queue (by simp [place, Place.inHand]) (.inl ⟨place, rfl⟩)
  | submitClose => exact .submit (by simp [place, Place.inHand]) rfl (.inl ⟨place, rfl⟩)
  | submit => exact .submit (by simp [place, Place.inHand]) rfl (.inr ⟨place, rfl⟩)
  | _ => simp [place, Place.flushing] at flush

end Flush

section Work

/-- The call has begun to request its operation. -/
def Todo.requesting : Todo m n → Bool
  | .acquire _ | .addRef _ | .route _ | .push _ _ => true
  | _ => false

/-- A call that has not begun has no operation to push. -/
theorem Todo.inCall_of_requesting {todo : Todo m n} (waits : todo.requesting = false) :
    todo.inCall = [] := by
  cases todo <;> first | rfl | cases waits

variable {config : Config ω}

/-- What handles a completion is aside of the request queues, and leads to calls that begin. -/
theorem handleIoCompletion_aside {shared after : Shared m ω} {result : Int}
    {operation : Operation m} {more : List (Todo m n)}
    (handled : handleIoCompletion config shared result operation = (after, more)) :
    shared.Aside after ∧ ∀ todo ∈ more, todo.requesting = false := by
  -- Handling an operation acquires nothing itself; the calls that it leads to do.
  cases handleIoCompletion_handled handled with
  | nothing calls => exact ⟨.of_same rfl rfl id, by simp [Todo.requesting]⟩
  | accepted => exact ⟨.of_same rfl rfl id, by simp [Todo.requesting]⟩
  | received =>
    refine ⟨.of_same rfl rfl id, fun todo member => ?_⟩
    simp only [List.mem_append, List.mem_map, List.mem_singleton] at member
    rcases member with ⟨call, _, rfl⟩ | rfl <;> rfl
  | stopped => exact ⟨.of_same rfl rfl (by rintro ⟨⟩), (by simp)⟩

/-- What the kernel completes is aside of the request queues. -/
theorem completeStarted_aside {shared after : Shared m ω} {started : Started m} {result : Int}
    {data : List Byte}
    (done : completeStarted config shared started result data = some after) :
    shared.Aside after := by
  cases completeStarted_completed done with
  | stopped => exact .of_same rfl rfl (by rintro ⟨⟩)
  | _ => exact .of_same rfl rfl id

/-- The destructor of an `IOCompletion` is aside of the request queues. -/
theorem destroyStep_queue (shared : Shared m ω) {worker : Worker m}
    (place : worker.place = .destroy) :
    QueueStep config shared worker (destroyStep shared worker).1 (destroyStep shared worker).2 := by
  -- Each way out leaves the queue and the ring as they are.
  unfold destroyStep
  split
  · exact .routine (.of_same rfl rfl id) rfl rfl rfl (by rw [place]; rfl) rfl
  · dsimp only
    split
    · exact .stopped (.of_same rfl rfl (by rintro ⟨⟩)) (by simp [place])
    · split
      · exact .stopped (.of_same rfl rfl (by rintro ⟨⟩)) (by simp [place])
      · split
        · exact .routine (.of_log rfl (by simp [Event.acquisition, Event.submission]) rfl id) rfl
            rfl rfl (by rw [place]; rfl) rfl
        · exact .routine (.of_same rfl rfl id) rfl rfl rfl (by rw [place]; rfl) rfl

/-- Giving an operation back is aside of the request queues. -/
theorem onZeroRef_queue (shared : Shared m ω) {worker : Worker m} {handle : Handle m}
    (place : worker.place = .onZeroRef handle) :
    QueueStep config shared worker (onZeroRef shared worker handle).1
      (onZeroRef shared worker handle).2 := by
  unfold onZeroRef
  -- The operation is gone and stops the program, or it is given back.
  split
  · exact .stopped (.of_same rfl rfl (by rintro ⟨⟩)) (by simp [place])
  · exact .routine (.of_log rfl (by simp [Event.acquisition, Event.submission]) rfl id) rfl rfl rfl
      (by rw [place]; rfl) rfl

/-- A step of a worker does what it is said to do, and the calls it leads to have not begun. -/
theorem workStep_queue {shared after : Shared m ω} {worker next : Worker m} {interrupted : Bool}
    {more : List (Todo m n)}
    (stepped : workStep config shared worker interrupted = (after, next, more)) :
    QueueStep config shared worker after next ∧ ∀ todo ∈ more, todo.requesting = false := by
  -- The places of the loop outside of a flush are routine; the rest are those of the flush.
  cases place : worker.place with
  | waitOne =>
    simp only [workStep, place] at stepped
    split at stepped <;> cases stepped <;>
      exact ⟨.routine (.of_same rfl rfl id) rfl rfl rfl (by rw [place]; rfl) rfl, (by simp)⟩
  | handleCompletion =>
    simp only [workStep, place] at stepped
    split at stepped
    · cases stepped
      exact ⟨.routine (.of_same rfl rfl id) rfl rfl rfl (by rw [place]; rfl) rfl, (by simp)⟩
    · rename_i handle result found
      split at stepped
      · cases stepped
        exact ⟨.stopped (.of_same rfl rfl (by rintro ⟨⟩)) (by simp [place]), (by simp)⟩
      · cases stepped
        obtain ⟨aside, waiting⟩ := handleIoCompletion_aside (n := n)
          (rfl : handleIoCompletion config shared result handle.operation = _)
        have recorded := aside.record [.handled handle result]
          (by simp [Event.acquisition, Event.submission])
        exact ⟨.routine recorded rfl rfl rfl (by rw [place]; rfl) rfl, waiting⟩
  | processTasks =>
    simp only [workStep, place] at stepped
    cases stepped
    exact ⟨.routine (.of_same rfl rfl id) rfl rfl rfl (by rw [place]; rfl) rfl, (by simp)⟩
  | destroy =>
    simp only [workStep, place] at stepped
    cases stepped
    exact ⟨destroyStep_queue shared place, (by simp)⟩
  | onZeroRef handle =>
    simp only [workStep, place] at stepped
    cases stepped
    exact ⟨onZeroRef_queue shared place, (by simp)⟩
  | _ =>
    simp only [workStep, place] at stepped
    cases stepped
    rw [← place]
    exact ⟨flushStep_queue shared worker (by simp [place, Place.flushing]), (by simp)⟩

end Work

section Step

variable {config : Config ω} {state next : State m n k ω}

@[simp] theorem setTodo_self (state : State m n k ω) (context : Context n k)
    (todo : List (Todo m n)) : (state.setTodo context todo).todo context = todo :=
  Function.update_self ..

theorem setTodo_of_ne (state : State m n k ω) {context other : Context n k}
    (different : other ≠ context) (todo : List (Todo m n)) :
    (state.setTodo context todo).todo other = state.todo other :=
  Function.update_of_ne different ..

@[simp] theorem setWorker_self (state : State m n k ω) (at_ : Fin n) (worker : Worker m) :
    (state.setWorker at_ worker).worker at_ = worker :=
  Function.update_self ..

theorem setWorker_of_ne (state : State m n k ω) {at_ other : Fin n} (different : other ≠ at_)
    (worker : Worker m) : (state.setWorker at_ worker).worker other = state.worker other :=
  Function.update_of_ne different ..

/-- Pushing to a queue is not a change of what the contexts have to do. -/
@[simp] theorem pushRequest_todo (state : State m n k ω) (pushed : Option (Fin n × Handle m)) :
    (state.pushRequest pushed).todo = state.todo := by
  cases pushed <;> rfl

/-- An operation is pushed to the end of the queue of its worker. -/
theorem pushRequest_requestQueue (state : State m n k ω) (handle : Handle m)
    (worker target : Fin n) :
    ((state.pushRequest (some (worker, handle))).worker target).requestQueue =
      (state.worker target).requestQueue ++ if worker = target then [handle] else [] := by
  -- The queues of the other workers stay.
  by_cases same : worker = target
  · subst same
    simp [State.pushRequest, State.setWorker]
  · simp [State.pushRequest, State.setWorker, same, Function.update_of_ne (Ne.symm same)]

/-- What a step of the service does, as the request queues see it. -/
inductive QueueMove (config : Config ω) (state : State m n k ω) :
    Label n k ω → State m n k ω → Prop
  | run {context : Context n k} {slot : Option Slot} {fails : Bool} {todo : Todo m n}
      {rest more : List (Todo m n)} {after : Shared m ω} {pushed : Option (Fin n × Handle m)}
      (head : state.todo context = todo :: rest)
      (call : CallStep state.shared fails todo after more pushed) :
    QueueMove config state (.run context slot fails)
      (((state.setShared after).setTodo context (more ++ rest)).pushRequest pushed)
  | work {at_ : Fin n} {interrupted : Bool} {after : Shared m ω} {worker : Worker m}
      {more : List (Todo m n)} (idle : state.todo (.worker at_) = [])
      (queue : QueueStep config state.shared (state.worker at_) after worker)
      (waiting : ∀ todo ∈ more, todo.requesting = false) :
    QueueMove config state (.work at_ interrupted)
      (((state.setShared after).setWorker at_ worker).setTodo (.worker at_) more)
  -- A call of application code begins.
  | begin {label : Label n k ω} {context : Context n k} {call : ActorCall}
      (idle : state.todo context = [])
      (elsewhere : ∀ at_ interrupted, label ≠ .work at_ interrupted)
      (uncalled : ∀ context slot fails, label ≠ .run context slot fails) :
    QueueMove config state label (state.setTodo context [.call call])
  -- The application changes its state, or the kernel takes a step.
  | outside {label : Label n k ω} {next : State m n k ω} (aside : state.shared.Aside next.shared)
      (todo : next.todo = state.todo)
      (queue : ∀ at_, (next.worker at_).requestQueue = (state.worker at_).requestQueue)
      (prepared : ∀ at_, (next.worker at_).prepared = (state.worker at_).prepared)
      (place : ∀ at_, (next.worker at_).place = (state.worker at_).place)
      (elsewhere : ∀ at_ interrupted, label ≠ .work at_ interrupted)
      (uncalled : ∀ context slot fails, label ≠ .run context slot fails) :
    QueueMove config state label next

/-- A step of the kernel leaves the queue, the preparation and the place of the worker alone. -/
theorem QueueMove.kernel {label : Label n k ω} {after : Shared m ω} {at_ : Fin n}
    {worker : Worker m} (aside : state.shared.Aside after)
    (queue : worker.requestQueue = (state.worker at_).requestQueue)
    (prepared : worker.prepared = (state.worker at_).prepared)
    (place : worker.place = (state.worker at_).place)
    (elsewhere : ∀ at_ interrupted, label ≠ .work at_ interrupted)
    (uncalled : ∀ context slot fails, label ≠ .run context slot fails) :
    QueueMove config state label ((state.setShared after).setWorker at_ worker) := by
  -- The other workers are not touched at all.
  have either (other : Fin n) : other = at_ ∨
      ((state.setShared after).setWorker at_ worker).worker other = state.worker other := by
    by_cases same : other = at_
    · exact .inl same
    · exact .inr (setWorker_of_ne _ same _)
  have itself := setWorker_self (state.setShared after) at_ worker
  refine .outside aside rfl ?_ ?_ ?_ elsewhere uncalled <;> intro other <;>
    rcases either other with rfl | same
  · rw [itself, queue]
  · rw [same]
  · rw [itself, prepared]
  · rw [same]
  · rw [itself, place]
  · rw [same]

/-- Every step of the service does what it is said to do. -/
theorem step_queue {label : Label n k ω} (stepped : step config state label = some next) :
    QueueMove config state label next := by
  -- One case for each label, in the order of `step`.
  unfold step at stepped
  split at stepped
  · cases stepped
  · split at stepped
    · split at stepped
      · cases stepped
      · rename_i head
        obtain ⟨⟨after, more, pushed⟩, called, rfl⟩ := Option.map_eq_some_iff.mp stepped
        exact .run head (todoStep_call called)
    · split at stepped
      · rename_i at_ interrupted ready
        cases stepped
        obtain ⟨queue, waiting⟩ := workStep_queue
          (rfl : workStep (n := n) config state.shared (state.worker at_) interrupted = _)
        exact .work ready.2 queue waiting
      · cases stepped
    · split at stepped
      · rename_i idle
        cases stepped
        exact .begin idle (by simp) (by simp)
      · cases stepped
    · split at stepped
      · rename_i ready
        cases stepped
        exact .begin ready.2 (by simp) (by simp)
      · cases stepped
    · cases stepped
      exact .outside (.of_same rfl rfl id) rfl (fun _ => rfl) (fun _ => rfl) (fun _ => rfl)
        (by simp) (by simp)
    · obtain ⟨entry, found, rfl⟩ := Option.map_eq_some_iff.mp stepped
      refine .kernel ?_ rfl rfl rfl (by simp) (by simp)
      rw [startEntry_frame]
      exact .of_log rfl (by simp [Event.acquisition, Event.submission]) rfl id
    · obtain ⟨started, found, completed⟩ := Option.bind_eq_some_iff.mp stepped
      obtain ⟨shared, done, rfl⟩ := Option.map_eq_some_iff.mp completed
      exact .kernel ((completeStarted_aside done).record _
        (by simp [Event.acquisition, Event.submission])) rfl rfl rfl (by simp) (by simp)

end Step

end Braid.Service
