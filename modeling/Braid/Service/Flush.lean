import Braid.Library.Refinement
import Braid.Net.FlushRequests
import Braid.Service.IORequestQueue

/-! The workers of the service flush their request queues as a request queue on its own does. -/

namespace Braid.Service

open Transition

variable {m n k : Nat} {ω : Type}

/-- The operation behind a pointer of the service, as one of all operation classes. -/
def deref (handle : Handle m) : IOOperation (Fin m) :=
  match handle.operation with
  | .accept session listenFd => .accept (some session) listenFd
  | .recv session buffer => .recv (some session) buffer
  | .sendBuffer session sendBuffer => .sendBuffer (some session) (some sendBuffer)
  | .close session => .close (some session)

/-- The entry with all that the operation fills in. -/
def Entry.filled (entry : Entry m) : Braid.Entry (Handle m) :=
  (deref entry.handle).entry entry.fd entry.handle

/-- The place in `flush_requests`, if the worker is inside of it. -/
def Place.inFlush : Place m → IORequestQueue.Place (Handle m) (Fin m)
  | .flushPop => .pop
  | .requestIo handle => .requestIo handle
  | .prepareClose handle => .shutDown handle handle.operation.session
  | .submitClose => .submitClose
  | .submit => .submit
  | _ => .outside

/-- The worker of a service and a request queue on its own are in the same state. -/
structure Shows (shared : Shared m ω) (worker : Worker m)
    (queue : IORequestQueue (Handle m) (Fin m)) : Prop where
  requestQueue : queue.requestQueue = worker.requestQueue
  ring : queue.ring = worker.prepared.map Entry.filled
  place : queue.place = worker.place.inFlush
  running : shared.fault = none → queue.fault = none
  -- Only a close is behind a `shutdown`.
  closing : ∀ handle, worker.place = .prepareClose handle → handle.operation.kind = .close

/-- The service requests only operations that have all they need. -/
theorem deref_present (handle : Handle m) : (deref handle).Present := by
  -- One case for each class, with its session and, for a send, with its buffer.
  unfold deref
  cases handle.operation <;> first | rfl | exact ⟨rfl, rfl⟩

variable {config : Config ω} {shared after : Shared m ω} {worker : Worker m}
  {queue : IORequestQueue (Handle m) (Fin m)}

variable (config) in
/-- The operation in hand of a worker takes an entry as that of the request queue does. -/
theorem Shows.prepare (shows : Shows shared worker queue) (running : shared.fault = none)
    (handle : Handle m) (place : Place m) {following : IORequestQueue.Place (Handle m) (Fin m)}
    (goesOn : following = place.inFlush) (calls : ∀ handle, place ≠ .prepareClose handle) :
    Shows (prepare config shared worker handle place).1
      (prepare config shared worker handle place).2
      (queue.prepare config.queueDepthPerThread
        ((deref handle).entry (handle.operation.fd shared) handle) following) := by
  have length : queue.ring.length = worker.prepared.length := by rw [shows.ring, List.length_map]
  unfold Service.prepare IORequestQueue.prepare
  rw [length]
  -- Both rings are full, or neither is.
  split
  · refine ⟨shows.requestQueue, ?_, goesOn, fun _ => shows.running running,
      fun handle closes => absurd closes (calls handle)⟩
    simp [shows.ring, Entry.filled]
  · exact ⟨shows.requestQueue, shows.ring, shows.place, (fun goes => by cases goes), shows.closing⟩

/-- A submission hands over the entries of both rings. -/
theorem Shows.submit (shows : Shows shared worker queue) (place : Place m)
    {following : IORequestQueue.Place (Handle m) (Fin m)} (goesOn : following = place.inFlush)
    (calls : ∀ handle, place ≠ .prepareClose handle) :
    Shows (submitEntries shared worker place).1 (submitEntries shared worker place).2
      (queue.submit following) :=
  ⟨shows.requestQueue, rfl, goesOn, shows.running,
    fun handle closes => absurd closes (calls handle)⟩

/-- A step of the request queue in the place of the worker is taken. -/
theorem Shows.run (shows : Shows shared worker queue) (running : shared.fault = none)
    (following : IORequestQueue (Handle m) (Fin m))
    (stepped : queue.flushStep config.queueDepthPerThread deref shared.socketFd =
      some following) :
    Run (IORequestQueue.step config.queueDepthPerThread deref) anyStep queue
      [.run shared.socketFd] following :=
  .single trivial (by simp [IORequestQueue.step, shows.running running, stepped])

/-- An operation that is popped enters `request_io` in the request queue as well. -/
theorem Shows.requestIo (shows : Shows shared worker queue) (running : shared.fault = none)
    {handle : Handle m} (alive : shared.memory handle.id ≠ none) :
    Shows (flushStep config shared worker (.requestIo handle)).1
      (flushStep config shared worker (.requestIo handle)).2
      (queue.requestIo config.queueDepthPerThread deref shared.socketFd handle) := by
  simp only [flushStep, if_neg alive]
  -- A close goes through its own two steps, and every other class takes an entry at once.
  cases operation : handle.operation with
  | close session =>
    have calls : Shows
        (shared.record [.shutdown handle (shared.descriptors (shared.socketFd session))])
        { worker with place := .prepareClose handle }
        { queue with place := .shutDown handle session } :=
      ⟨shows.requestQueue, shows.ring, by simp [Place.inFlush, operation, Operation.session],
        shows.running, fun other same => by cases same; rw [operation]; rfl⟩
    simpa [IORequestQueue.requestIo, deref, operation] using calls
  | _ =>
    have prepared := shows.prepare config running handle .flushPop rfl (by simp)
    simpa [IORequestQueue.requestIo, deref, operation, Operation.fd, Operation.session,
      Place.inFlush] using prepared

variable (config) in
/-- A step of a worker inside of `flush_requests` is at most one step of the request queue. -/
theorem flushStep_shows (shows : Shows shared worker queue) (running : shared.fault = none)
    (inside : worker.place.flushing = true ∨ worker.place = .flushEmpty) :
    ∃ labels following,
      Run (IORequestQueue.step config.queueDepthPerThread deref) anyStep queue labels following ∧
      Shows (flushStep config shared worker worker.place).1
        (flushStep config shared worker worker.place).2 following := by
  have at_ := shows.place
  -- Where the operation is gone, the program stops.
  have stops : Shows (shared.stop .usedAfterRelease) worker queue :=
    ⟨shows.requestQueue, shows.ring, shows.place, (fun stopped => by cases stopped),
      shows.closing⟩
  cases place : worker.place with
  | flushEmpty =>
    refine ⟨[.flush], queue.flushRequests, .single trivial ?_, shows.requestQueue, shows.ring, ?_,
      shows.running, ?_⟩
    · simp [IORequestQueue.step, shows.running running, at_, place, Place.inFlush]
    · simp only [IORequestQueue.flushRequests, flushStep, shows.requestQueue, List.isEmpty_iff]
      split <;> rfl
    · simp only [flushStep]
      split <;> simp
  | flushPop =>
    rw [place] at at_
    have queued := shows.requestQueue
    simp only [flushStep]
    -- The loop ends with a submission when the queue is empty, and pops otherwise.
    split
    · rename_i empty
      refine ⟨_, _, shows.run running { queue with place := .submit } ?_,
        queued, shows.ring, rfl, shows.running, by simp⟩
      simp [IORequestQueue.flushStep, at_, Place.inFlush, queued, empty]
    · rename_i handle rest front
      refine ⟨_, _, shows.run running { queue with
          requestQueue := rest
          place := .requestIo handle
          flush := { queue.flush with popped := queue.flush.popped ++ [handle] } } ?_,
        rfl, shows.ring, rfl, shows.running, by simp⟩
      simp [IORequestQueue.flushStep, at_, Place.inFlush, queued, front]
  | requestIo handle =>
    by_cases gone : shared.memory handle.id = none
    · refine ⟨[], queue, .refl, ?_⟩
      simpa [flushStep, gone] using stops
    · refine ⟨_, _, shows.run running _ ?_, shows.requestIo running gone⟩
      simp [IORequestQueue.flushStep, at_, place, Place.inFlush]
  | prepareClose handle =>
    by_cases gone : shared.memory handle.id = none
    · refine ⟨[], queue, .refl, ?_⟩
      simpa [flushStep, gone] using stops
    · -- The descriptor that the entry of a close names is read again.
      have close := shows.closing handle place
      have named : handle.operation.fd shared = shared.socketFd handle.operation.session := by
        cases operation : handle.operation <;> rw [operation] at close <;>
          first | rfl | cases close
      have prepared := shows.prepare config running handle .submitClose rfl (by simp)
      rw [named] at prepared
      refine ⟨_, _, shows.run running _ ?_, by simpa [flushStep, gone] using prepared⟩
      simp [IORequestQueue.flushStep, at_, place, Place.inFlush]
  | submitClose =>
    refine ⟨_, _, shows.run running _ ?_, shows.submit .flushPop rfl (by simp)⟩
    simp [IORequestQueue.flushStep, at_, place, Place.inFlush]
  | submit =>
    refine ⟨_, _, shows.run running _ ?_, shows.submit .processTasks rfl (by simp)⟩
    simp [IORequestQueue.flushStep, at_, place, Place.inFlush]
  | _ => simp [place, Place.flushing] at inside

/-- Outside of `flush_requests`, the request queue rests. -/
theorem Place.inFlush_eq_outside {place : Place m} (idle : place.flushing = false) :
    place.inFlush = .outside := by
  cases place <;> first | rfl | cases idle

/-- A worker with an operation in hand is in a flush. -/
theorem flushing_of_inHand {place : Place m} {handle : Handle m}
    (hand : place.inHand = [handle]) : place.flushing = true := by
  -- The places without an operation in hand are refuted by the premise.
  cases place <;> first | rfl | cases hand

/-- A step of a worker is at most one step of the request queue. -/
theorem workStep_shows (shows : Shows shared worker queue) (running : shared.fault = none)
    {next : Worker m} {interrupted : Bool} {more : List (Todo m n)}
    (stepped : workStep config shared worker interrupted = (after, next, more)) :
    ∃ labels following,
      Run (IORequestQueue.step config.queueDepthPerThread deref) anyStep queue labels following ∧
      Shows after next following := by
  by_cases inside : worker.place.flushing = true ∨ worker.place = .flushEmpty
  · -- The worker takes a step of the flush.
    have flushed := flushStep_shows config shows running inside
    cases place : worker.place <;> simp only [workStep, place] at stepped <;>
      first
      | (simp [place, Place.flushing] at inside; done)
      | (cases stepped; rw [place] at flushed; exact flushed)
  · -- A step elsewhere in the routine leaves the queue and the ring alone.
    obtain ⟨elsewhere, entry⟩ := not_or.mp inside
    have idle : worker.place.flushing = false := by simpa using elsewhere
    refine ⟨[], queue, .refl, ?_⟩
    cases (workStep_queue stepped).1 with
    | stay aside queued prepared submitted hand entryless outside entering closes =>
      have still : next.place.flushing = false := by
        by_contra begins
        exact inside (entering (by simpa using begins))
      refine ⟨shows.requestQueue.trans queued.symm, shows.ring.trans (by rw [prepared]), ?_,
        fun _ => shows.running running, fun handle close => ?_⟩
      · rw [shows.place, Place.inFlush_eq_outside idle, Place.inFlush_eq_outside still]
      · rw [close] at still
        cases still
    -- The other steps are those of a flush, in which the worker is not.
    | pop place _ => exact absurd (by rw [place]; rfl) elsewhere
    | write hand _ _ => exact absurd (flushing_of_inHand hand) elsewhere
    | nullEntry hand _ => exact absurd (flushing_of_inHand hand) elsewhere
    | submit _ _ goesOn =>
      rcases goesOn with ⟨place, -⟩ | ⟨place, -⟩ <;> exact absurd (by rw [place]; rfl) elsewhere

variable {state next : State m n k ω} {at_ : Fin n}

variable (config after) in
/-- A push to the request queue of the worker is one to the request queue on its own. -/
theorem Shows.push (shows : Shows shared worker queue) (running : shared.fault = none)
    (handle : Handle m) :
    ∃ labels following,
      Run (IORequestQueue.step config.queueDepthPerThread deref) anyStep queue labels following ∧
      Shows after { worker with requestQueue := worker.requestQueue ++ [handle] } following := by
  have goes := shows.running running
  -- The push of the service is one that the lock-free queue does not refuse.
  refine ⟨[.push handle 0], queue.pushRequest handle 0, .single trivial ?_, ?_⟩
  · simp [IORequestQueue.step, goes]
  · refine ⟨?_, shows.ring, shows.place, fun _ => goes, shows.closing⟩
    rw [← shows.requestQueue]
    rfl

/-- A step of the service is at most one step of the request queue of each worker. -/
theorem step_shows {label : Label n k ω}
    (shows : Shows state.shared (state.worker at_) queue)
    (stepped : step config state label = some next) :
    ∃ labels following,
      Run (IORequestQueue.step config.queueDepthPerThread deref) anyStep queue labels following ∧
      Shows next.shared (next.worker at_) following := by
  have running := (step_moved config stepped).1
  have goes := shows.running running
  -- A step that leaves the worker alone, as far as the flush goes.
  have rests (queued : (next.worker at_).requestQueue = (state.worker at_).requestQueue)
      (prepared : (next.worker at_).prepared = (state.worker at_).prepared)
      (place : (next.worker at_).place = (state.worker at_).place) :
      ∃ labels following,
        Run (IORequestQueue.step config.queueDepthPerThread deref) anyStep queue labels following ∧
        Shows next.shared (next.worker at_) following :=
    ⟨[], queue, .refl, shows.requestQueue.trans queued.symm, shows.ring.trans (by rw [prepared]),
      shows.place.trans (by rw [place]), fun _ => goes, by rw [place]; exact shows.closing⟩
  by_cases own : ∃ interrupted, label = .work at_ interrupted
  · obtain ⟨interrupted, rfl⟩ := own
    simp only [step, running, Option.isSome_none, Bool.false_eq_true, if_false] at stepped
    -- The step of the worker itself is matched, whatever it leads to.
    generalize worked : workStep (n := n) config state.shared (state.worker at_) interrupted =
      result at stepped
    split at stepped
    · cases stepped
      have itself := setWorker_self (state.setShared result.1) at_ result.2.1
      obtain ⟨labels, following, reached, shown⟩ := workStep_shows shows running worked
      refine ⟨labels, following, reached, ?_⟩
      rw [← itself] at shown
      exact shown
    · cases stepped
  cases step_queue stepped with
  | @run context slot fails todo rest more after pushed head call =>
    -- A call that pushes does so to the queue of one worker, which may be this one or another.
    cases pushed with
    | none => exact rests rfl rfl rfl
    | some push =>
      by_cases same : at_ = push.1
      · subst same
        have pushed := shows.push config after running push.2
        simpa [State.pushRequest, State.setTodo, State.setShared, State.setWorker] using pushed
      · have other := setWorker_of_ne ((state.setShared after).setTodo context (more ++ rest)) same
          { state.worker push.1 with
            requestQueue := (state.worker push.1).requestQueue ++ [push.2] }
        apply rests <;> exact congrArg _ other
  | @work other interrupted after worker more idle queue waiting =>
    have same : at_ ≠ other := fun same => own ⟨interrupted, by rw [same]⟩
    have unmoved := setWorker_of_ne (state.setShared after) same worker
    apply rests <;> exact congrArg _ unmoved
  | begin => exact rests rfl rfl rfl
  | outside aside todo queue prepared place elsewhere =>
    exact rests (queue at_) (prepared at_) (place at_)

/--
In every run of the service, each worker is in a state of a run of a request queue on its own.

What holds in every run of a request queue so holds of the workers.
-/
theorem run_shows {world : ω} {labels : List (Label n k ω)}
    (run : Run (step config) anyStep (State.init m n k config world) labels state) (at_ : Fin n) :
    ∃ events queue,
      Run (IORequestQueue.step config.queueDepthPerThread deref) anyStep {} events queue ∧
      Shows state.shared (state.worker at_) queue := by
  apply run.simulates (R := fun state queue => Shows state.shared (state.worker at_) queue)
  · -- At the beginning, the request queue and the ring of every worker are empty.
    exact ⟨rfl, rfl, rfl, fun _ => rfl, by simp [State.init]⟩
  · intro state label next queue shows stepped
    exact step_shows shows stepped

/-- The operation in hand of a worker is the one in hand of the request queue. -/
theorem Place.inFlush_inHand (place : Place m) : place.inFlush.inHand = place.inHand := by
  cases place <;> rfl

/--
The flush of a worker submits everything exactly if no more is popped between two submissions than
its ring has entries for: the operations of the service have all they need.
-/
theorem workers_flush {world : ω} {labels : List (Label n k ω)}
    (run : Run (step config) anyStep (State.init m n k config world) labels state)
    (between : (state.worker at_).place.inHand = []) :
    ∃ queue : IORequestQueue (Handle m) (Fin m),
      Shows state.shared (state.worker at_) queue ∧
      (IORequestQueue.FlushSound deref queue ↔ IORequestQueue.Fits deref
        (submissionEntries config.queueDepthPerThread) queue.flush.popped) := by
  obtain ⟨events, queue, flushed, shows⟩ := run_shows run at_
  have idle : queue.place.inHand = [] := by rw [shows.place, Place.inFlush_inHand, between]
  refine ⟨queue, shows, ?_⟩
  -- The invariant of the request queue is that of its own run.
  rw [(IORequestQueue.run_flushing flushed).sound_iff (.inl idle)]
  exact and_iff_right fun handle _ => deref_present handle

end Braid.Service
