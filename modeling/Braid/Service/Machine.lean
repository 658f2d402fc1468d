import Braid.Net.IORequestQueue
import Braid.Service.OnReceived
import Braid.Memory.ThreadLocalCache
import Mathlib.Data.Fintype.Sum
import Mathlib.Tactic.DeriveFintype

/-! The service: its workers and their rings, the kernel, and the calls of the application. -/

namespace Braid.Service

open Memory (Slot)

/--
The operation classes that the service requests, each with an `ObjectPool` of its own in
`g_io_pool`.

No call of `request_io` is for an `IOOperationSend` or an `IOOperationNop`.
-/
inductive Kind where
  | accept
  | recv
  | sendBuffer
  | close
  deriving DecidableEq, Repr

/--
An `IOOperation` of these classes with the fields it is constructed with, for one of `m` sessions.

The service never passes a null object. A null send buffer, which application code could pass, is
left out here.
-/
inductive Operation (m : Nat) where
  | accept (session : Fin m) (listenFd : Int)
  | recv (session : Fin m) (buffer : Span)
  | sendBuffer (session : Fin m) (sendBuffer : List Byte)
  | close (session : Fin m)
  deriving DecidableEq

/-- The class of an operation, which its virtual functions are called by. -/
def Operation.kind {m : Nat} : Operation m → Kind
  | .accept .. => .accept
  | .recv .. => .recv
  | .sendBuffer .. => .sendBuffer
  | .close .. => .close

/-- The session behind `io_object_`. -/
def Operation.session {m : Nat} : Operation m → Fin m
  | .accept session _ => session
  | .recv session _ => session
  | .sendBuffer session _ => session
  | .close session => session

/--
A pointer to an operation.

Operations are numbered as they are acquired, so that a pointer to a released one can be told from
a pointer to the next one in the same slot. The fields of an operation never change, and the
pointer carries them.
-/
structure Handle (m : Nat) where
  id : Nat
  operation : Operation m
  deriving DecidableEq

/-- The memory of an operation: the pool and the slot it comes from, and `ref_count_`. -/
structure Cell where
  kind : Kind
  slot : Slot
  refCount : Int
  deriving DecidableEq

/-- A connection that the kernel has accepted, and the session it was accepted for. -/
structure Connection (m : Nat) where
  number : Nat
  owner : Fin m
  deriving DecidableEq

/-- A submission entry: the operation in its user data, and the descriptor that it names. -/
structure Entry (m : Nat) where
  handle : Handle m
  fd : Int
  deriving DecidableEq

/-- An entry the kernel works on, with the connection that its descriptor named at the start. -/
structure Started (m : Nat) where
  handle : Handle m
  connection : Option (Connection m)
  deriving DecidableEq

/-- A completion entry, and the `IOCompletion` made from it. -/
structure Completion (m : Nat) where
  handle : Handle m
  result : Int
  deriving DecidableEq

/-- A call of application code on an actor that it holds. -/
inductive ActorCall where
  | requestSend (actor : Nat) (sendBuffer : List Byte)
  | requestClose (actor : Nat)
  deriving DecidableEq

/-- The actor that is called. -/
def ActorCall.actor : ActorCall → Nat
  | .requestSend actor _ => actor
  | .requestClose actor => actor

/-- The operation that a call requests from the session of its actor. -/
def ActorCall.operation {m : Nat} (session : Fin m) : ActorCall → Operation m
  | .requestSend _ sendBuffer => .sendBuffer session sendBuffer
  | .requestClose _ => .close session

/-- What a thread has still to do inside of the calls it is in, one atomic step at a time. -/
inductive Todo (m n : Nat) where
  -- `Service::request_accept_one`.
  | acceptOne
  -- `Actor::request_send` and `Actor::request_close`.
  | call (call : ActorCall)
  -- `ServiceSession::request_receive`.
  | receive (session : Fin m)
  -- `Service::request_io<T>`: the pool, the reference, the index, and the queue of the worker.
  | acquire (operation : Operation m)
  | addRef (handle : Handle m)
  | route (handle : Handle m)
  | push (handle : Handle m) (worker : Fin n)
  deriving DecidableEq

/-- The place of a worker in `WorkerThread::routine`. -/
inductive Place (m : Nat) where
  | waitOne
  | handleCompletion
  -- `flush_requests`, with the operation that the loop has popped.
  | flushEmpty
  | flushPop
  | requestIo (handle : Handle m)
  -- `IOOperationClose::request_io`, behind the call of `shutdown`.
  | prepareClose (handle : Handle m)
  | submitClose
  | submit
  | processTasks
  -- The destructor of the `IOCompletion`, and `on_zero_ref`.
  | destroy
  | onZeroRef (handle : Handle m)
  deriving DecidableEq

/-- The place takes an entry from the ring of its worker. -/
def Place.takesEntry {m : Nat} : Place m → Bool
  | .requestIo handle => handle.operation.kind ≠ .close
  | .prepareClose _ => true
  | _ => false

/-- A worker: its request queue, the two sides of its ring, and its place. -/
structure Worker (m : Nat) where
  requestQueue : List (Handle m) := []
  -- Entries that are prepared, submitted, and worked on by the kernel.
  prepared : List (Entry m) := []
  submitted : List (Entry m) := []
  started : List (Started m) := []
  completed : List (Completion m) := []
  -- The operation and the result of the `IOCompletion` in `routine`.
  completion : Option (Completion m) := none
  place : Place m := .waitOne
  deriving DecidableEq

/-- A session: the receive buffer and the descriptor, and the actor made for the connection. -/
structure ServiceSession where
  object : IOUringObject := IOUringObject.new
  mainActor : Option Nat := none
  deriving DecidableEq

/-- What is remembered of a run, in the order in which it happened. -/
inductive Event (m : Nat) where
  | acquired (handle : Handle m) (slot : Slot)
  -- A request that the pool had no slot for, and one that reached no request queue.
  | refused (operation : Operation m)
  | dropped (handle : Handle m)
  -- A use of a descriptor, with the connection that it named at that moment.
  | shutdown (handle : Handle m) (connection : Option (Connection m))
  | prepared (handle : Handle m) (connection : Option (Connection m))
  | submitted (handle : Handle m)
  | started (handle : Handle m) (connection : Option (Connection m))
  | completed (handle : Handle m) (result : Int)
  | handled (handle : Handle m) (result : Int)
  | zeroed (handle : Handle m)
  | returned (handle : Handle m) (slot : Slot)
  deriving DecidableEq

/-- Why the program stops. -/
inductive Fault where
  -- `io_uring_get_sqe` returned null, and the null entry is written to.
  | nullEntry
  -- An operation is used whose memory has gone back to its pool.
  | usedAfterRelease
  -- The assertion `0 < ref_count_` fails.
  | releasedAtZero
  | divisionByZero
  | receive (failure : Failure)
  deriving DecidableEq

/-- A thread that makes calls: the one that runs the service, one of the application, a worker. -/
inductive Context (n k : Nat) where
  | main
  | application (thread : Fin k)
  | worker (worker : Fin n)
  deriving DecidableEq, Fintype

/-- What the threads and the kernel share. -/
structure Shared (m : Nat) (ω : Type) where
  sessionsQueue : List (Fin m)
  sessions : Fin m → ServiceSession
  -- The session behind every actor made so far.
  actors : List (Fin m)
  requestIndex : BitVec 32
  -- The operations acquired so far, their memory, and the slots in use of each pool.
  nextOperation : Nat
  memory : Nat → Option Cell
  held : Kind → List Slot
  -- The kernel's table of descriptors, and the number of connections it has accepted.
  descriptors : Int → Option (Connection m)
  connections : Nat
  -- The state of the application.
  world : ω
  log : List (Event m)
  fault : Option Fault

/-- A state of the service with `n` workers and `k` threads of the application. -/
structure State (m n k : Nat) (ω : Type) where
  shared : Shared m ω
  todo : Context n k → List (Todo m n)
  worker : Fin n → Worker m

/-- What the service is built and run with. -/
structure Config (ω : Type) where
  backlog : Nat
  queueDepthPerThread : Nat
  listenFd : Int
  -- The handlers change the application's state, and the calls they make are collected.
  dispatcher : MessageDispatcher (Option Nat) (ω × List ActorCall)
  -- The turns granted to the loop in `on_received`.
  turns : Nat

variable {m n k : Nat} {ω : Type}

/-- `Service::initialize` in the main thread, before the first accept is requested. -/
def State.init (m n k : Nat) {ω : Type} (config : Config ω) (world : ω) : State m n k ω where
  shared :=
    { sessionsQueue := List.finRange m
      sessions := fun _ => {}
      actors := []
      requestIndex := 0
      nextOperation := 0
      memory := fun _ => none
      held := fun _ => []
      descriptors := fun _ => none
      connections := 0
      world := world
      log := []
      fault := none }
  todo
    | .main => List.replicate config.backlog .acceptOne
    | _ => []
  worker := fun _ => {}

namespace Shared

/-- Something is remembered of the run. -/
def record (shared : Shared m ω) (events : List (Event m)) : Shared m ω :=
  { shared with log := shared.log ++ events }

/-- The program stops. -/
def stop (shared : Shared m ω) (fault : Fault) : Shared m ω := { shared with fault := some fault }

/-- `get_socket_fd` of a session. -/
def socketFd (shared : Shared m ω) (session : Fin m) : Int :=
  (shared.sessions session).object.socketFd

/-- A session is replaced. -/
def setSession (shared : Shared m ω) (at_ : Fin m) (session : ServiceSession) : Shared m ω :=
  { shared with sessions := Function.update shared.sessions at_ session }

/-- The memory of an operation is replaced, or goes back to its pool. -/
def setCell (shared : Shared m ω) (id : Nat) (cell : Option Cell) : Shared m ω :=
  { shared with memory := Function.update shared.memory id cell }

/-- The slots in use of a pool are replaced. -/
def setHeld (shared : Shared m ω) (kind : Kind) (slots : List Slot) : Shared m ω :=
  { shared with held := Function.update shared.held kind slots }

/-- The kernel opens a descriptor for a connection, or closes one. -/
def setDescriptor (shared : Shared m ω) (fd : Int) (connection : Option (Connection m)) :
    Shared m ω :=
  { shared with descriptors := Function.update shared.descriptors fd connection }

end Shared

variable (config : Config ω)

/-- `Service::request_io`: the next index, which the range check may turn away. -/
def routeIndex (n : Nat) (requestIndex : BitVec 32) : Option (Fin n) :=
  let threadIndex := requestIndex.toInt.tmod n
  if inside : 0 ≤ threadIndex ∧ threadIndex < n then some ⟨threadIndex.toNat, by omega⟩ else none

/--
The next atomic step of a call: the shared state, what the call has to do now, and an operation
that is pushed to the request queue of a worker.

The pool answers with a slot that is not in use or with none, and a push may fail.
-/
def todoStep (shared : Shared m ω) (slot : Option Slot) (fails : Bool) :
    Todo m n → Option (Shared m ω × List (Todo m n) × Option (Fin n × Handle m))
  | .acceptOne =>
    match shared.sessionsQueue with
    | [] => some (shared, [], none)
    | session :: rest =>
      some ({ shared with sessionsQueue := rest },
        [.acquire (.accept session config.listenFd)], none)
  | .call call =>
    match shared.actors[call.actor]? with
    | none => some (shared, [], none)
    | some session => some (shared, [.acquire (call.operation session)], none)
  | .receive session =>
    -- The span is taken when the recv is requested.
    some (shared, [.acquire (.recv session (shared.sessions session).object.remainSpan)], none)
  | .acquire operation =>
    match slot with
    -- A null pointer from the pool ends the request without a word.
    | none => some (shared.record [.refused operation], [], none)
    | some slot =>
      if slot ∈ shared.held operation.kind then none
      else
        let handle : Handle m := ⟨shared.nextOperation, operation⟩
        let acquired := shared.setCell handle.id (some ⟨operation.kind, slot, 0⟩)
        some ({ (acquired.setHeld operation.kind (slot :: shared.held operation.kind)).record
            [.acquired handle slot] with nextOperation := shared.nextOperation + 1 },
          [.addRef handle], none)
  | .addRef handle =>
    match shared.memory handle.id with
    | none => some (shared.stop .usedAfterRelease, [.addRef handle], none)
    | some cell =>
      some (shared.setCell handle.id (some { cell with refCount := cell.refCount + 1 }),
        [.route handle], none)
  | .route handle =>
    if n = 0 then some (shared.stop .divisionByZero, [.route handle], none)
    else
      let next := { shared with requestIndex := shared.requestIndex + 1 }
      match routeIndex n shared.requestIndex with
      | none => some (next.record [.dropped handle], [], none)
      | some worker => some (next, [.push handle worker], none)
  | .push handle worker =>
    if fails then some (shared.record [.dropped handle], [], none)
    else some (shared, [], some (worker, handle))

/-- `handle_io_completion` of each operation class, and what it leads the worker to do. -/
def handleIoCompletion (shared : Shared m ω) (result : Int) :
    Operation m → Shared m ω × List (Todo m n)
  | .accept at_ _ =>
    -- `on_accept_failed` does nothing.
    if result < 0 then (shared, [])
    else
      let session := shared.sessions at_
      let accepted := { session with object := session.object.setSocketFd result }
      -- `on_accepted` makes an actor if the session has none.
      match session.mainActor with
      | none =>
        ({ shared.setSession at_ { accepted with mainActor := some shared.actors.length } with
            actors := shared.actors ++ [at_] }, [.receive at_, .acceptOne])
      | some _ => (shared.setSession at_ accepted, [.receive at_, .acceptOne])
  | .recv at_ _ =>
    let session := shared.sessions at_
    -- `on_receive_failed` asks the actor for a close.
    if result < 0 then
      (shared, session.mainActor.toList.map fun actor => .call (.requestClose actor))
    else
      match ServiceSession.onReceivedLoop config.dispatcher session.mainActor config.turns
          { object := session.object.commit result, world := (shared.world, []) } with
      | .error failure => (shared.stop (.receive failure), [])
      | .ok receiver =>
        -- The calls of the handlers come before the next recv.
        ({ shared.setSession at_ { session with object := receiver.object } with
            world := receiver.world.1 },
          receiver.world.2.map .call ++ [.receive at_])
  -- `on_sent` does nothing, and a failed send is passed over.
  | .sendBuffer .. => (shared, [])
  | .close _ => (shared, [])

/-- The descriptor that an operation names when it is flushed. -/
def Operation.fd (shared : Shared m ω) : Operation m → Int
  | .accept _ listenFd => listenFd
  | operation => shared.socketFd operation.session

/-- An entry of the ring is prepared, or a null pointer is written to when the ring is full. -/
def prepare (shared : Shared m ω) (worker : Worker m) (handle : Handle m) (place : Place m) :
    Shared m ω × Worker m :=
  if worker.prepared.length < submissionEntries config.queueDepthPerThread then
    let fd := handle.operation.fd shared
    (shared.record [.prepared handle (shared.descriptors fd)],
      { worker with prepared := worker.prepared ++ [⟨handle, fd⟩], place := place })
  else (shared.stop .nullEntry, worker)

/-- `io_uring_submit`: the prepared entries are handed to the kernel. -/
def submitEntries (shared : Shared m ω) (worker : Worker m) (place : Place m) :
    Shared m ω × Worker m :=
  (shared.record (worker.prepared.map fun entry => .submitted entry.handle),
    { worker with
      prepared := []
      submitted := worker.submitted ++ worker.prepared
      place := place })

/-- The steps of a worker inside of `flush_requests`. -/
def flushStep (shared : Shared m ω) (worker : Worker m) : Place m → Shared m ω × Worker m
  | .flushEmpty =>
    (shared, { worker with place := if worker.requestQueue = [] then .processTasks else .flushPop })
  | .flushPop =>
    match worker.requestQueue with
    | [] => (shared, { worker with place := .submit })
    | handle :: rest => (shared, { worker with requestQueue := rest, place := .requestIo handle })
  | .requestIo handle =>
    if shared.memory handle.id = none then (shared.stop .usedAfterRelease, worker)
    else
      match handle.operation with
      | .close session =>
        -- `shutdown` acts at once, and the descriptor is read again for the entry.
        (shared.record [.shutdown handle (shared.descriptors (shared.socketFd session))],
          { worker with place := .prepareClose handle })
      | _ => prepare config shared worker handle .flushPop
  | .prepareClose handle =>
    if shared.memory handle.id = none then (shared.stop .usedAfterRelease, worker)
    else prepare config shared worker handle .submitClose
  | .submitClose => submitEntries shared worker .flushPop
  | .submit => submitEntries shared worker .processTasks
  | _ => (shared, worker)

/-- The destructor of the `IOCompletion`, which gives up the one reference to the operation. -/
def destroyStep (shared : Shared m ω) (worker : Worker m) : Shared m ω × Worker m :=
  match worker.completion with
  | none => (shared, { worker with place := .waitOne })
  | some completion =>
    let handle := completion.handle
    match shared.memory handle.id with
    | none => (shared.stop .usedAfterRelease, worker)
    | some cell =>
      if cell.refCount ≤ 0 then (shared.stop .releasedAtZero, worker)
      else
        let next := shared.setCell handle.id (some { cell with refCount := cell.refCount - 1 })
        if cell.refCount = 1 then
          (next.record [.zeroed handle],
            { worker with completion := none, place := .onZeroRef handle })
        else (next, { worker with completion := none, place := .waitOne })

/-- `on_zero_ref` gives the memory of the operation back to the pool of its class. -/
def onZeroRef (shared : Shared m ω) (worker : Worker m) (handle : Handle m) :
    Shared m ω × Worker m :=
  match shared.memory handle.id with
  | none => (shared.stop .usedAfterRelease, worker)
  | some cell =>
    let kind := handle.operation.kind
    (((shared.setCell handle.id none).setHeld kind ((shared.held kind).erase cell.slot)).record
        [.returned handle cell.slot],
      { worker with place := .waitOne })

/-- The next step of a worker in its routine, and the calls that the step leads into. -/
def workStep (shared : Shared m ω) (worker : Worker m) (interrupted : Bool) :
    Shared m ω × Worker m × List (Todo m n) :=
  match worker.place with
  | .waitOne =>
    -- The wait has no time to spend, and returns without a completion when there is none.
    match worker.completed, interrupted with
    | completion :: rest, false =>
      (shared, { worker with
        completed := rest, completion := some completion, place := .handleCompletion }, [])
    | _, _ => (shared, { worker with completion := none, place := .handleCompletion }, [])
  | .handleCompletion =>
    match worker.completion with
    | none => (shared, { worker with place := .flushEmpty }, [])
    | some ⟨handle, result⟩ =>
      if shared.memory handle.id = none then (shared.stop .usedAfterRelease, worker, [])
      else
        let handled := handleIoCompletion config shared result handle.operation
        (handled.1.record [.handled handle result], { worker with place := .flushEmpty }, handled.2)
  | .processTasks => (shared, { worker with place := .destroy }, [])
  | .destroy =>
    let destroyed := destroyStep shared worker
    (destroyed.1, destroyed.2, [])
  | .onZeroRef handle =>
    let returned := onZeroRef shared worker handle
    (returned.1, returned.2, [])
  | place =>
    let flushed := flushStep config shared worker place
    (flushed.1, flushed.2, [])

/-- The kernel starts on an entry: it looks up the descriptor, and a close takes effect. -/
def startEntry (shared : Shared m ω) (entry : Entry m) : Shared m ω × Started m :=
  let connection := shared.descriptors entry.fd
  let next := match entry.handle.operation with
    | .close _ => shared.setDescriptor entry.fd none
    | _ => shared
  (next.record [.started entry.handle connection], ⟨entry.handle, connection⟩)

/-- The length that a recv is prepared with: the size of the span as an unsigned word. -/
def Span.length (span : Span) : Nat := (BitVec.ofInt 32 span.size).toNat

/-- The kernel completes an operation, with every result that the operation can have. -/
def completeStarted (shared : Shared m ω) (started : Started m) (result : Int)
    (data : List Byte) : Option (Shared m ω) :=
  match started.handle.operation with
  | .accept session _ =>
    if result < 0 then some shared
    -- A descriptor that is not open, which may have been open before.
    else if shared.descriptors result = none ∧ result ≠ config.listenFd then
      some { shared.setDescriptor result (some ⟨shared.connections, session⟩) with
        connections := shared.connections + 1 }
    else none
  | .recv session buffer =>
    if result < 0 then some shared
    else if started.connection.isSome ∧ result = data.length ∧
        data.length ≤ Span.length buffer then
      match (shared.sessions session).object.write buffer.offset data with
      | .ok object =>
        some (shared.setSession session { shared.sessions session with object := object })
      | .error failure => some (shared.stop (.receive failure))
    else none
  | .sendBuffer _ sendBuffer =>
    if result < 0 ∨ started.connection.isSome ∧ result ≤ sendBuffer.length then some shared
    else none
  | .close _ => some shared

/--
What can happen next.

A thread takes a step inside of a call or of its routine, application code calls an actor or
changes its own state, or the kernel starts on an entry or completes one.
-/
inductive Label (n k : Nat) (ω : Type) where
  | run (context : Context n k) (slot : Option Slot) (fails : Bool)
  | work (worker : Fin n) (interrupted : Bool)
  | call (thread : Fin k) (call : ActorCall)
  | task (worker : Fin n) (call : ActorCall)
  | application (world : ω)
  | start (worker : Fin n) (i : Nat)
  | complete (worker : Fin n) (i : Nat) (result : Int) (data : List Byte)

namespace State

/-- What a context has to do is replaced. -/
def setTodo (state : State m n k ω) (context : Context n k) (todo : List (Todo m n)) :
    State m n k ω :=
  { state with todo := Function.update state.todo context todo }

/-- A worker is replaced. -/
def setWorker (state : State m n k ω) (at_ : Fin n) (worker : Worker m) : State m n k ω :=
  { state with worker := Function.update state.worker at_ worker }

/-- The shared state is replaced. -/
def setShared (state : State m n k ω) (shared : Shared m ω) : State m n k ω :=
  { state with shared := shared }

/-- `push_request` of a worker, where there is an operation to push. -/
def pushRequest (state : State m n k ω) : Option (Fin n × Handle m) → State m n k ω
  | none => state
  | some (at_, handle) =>
    let worker := state.worker at_
    state.setWorker at_ { worker with requestQueue := worker.requestQueue ++ [handle] }

end State

/-- One atomic step of the service or of the kernel. -/
def step (state : State m n k ω) (label : Label n k ω) : Option (State m n k ω) :=
  if state.shared.fault.isSome then none
  else match label with
  | .run context slot fails =>
    match state.todo context with
    | [] => none
    | todo :: rest =>
      (todoStep config state.shared slot fails todo).map fun result =>
        ((state.setShared result.1).setTodo context (result.2.1 ++ rest)).pushRequest result.2.2
  | .work at_ interrupted =>
    -- The workers run once `initialize` has returned, and go on when the calls they make return.
    if state.todo .main = [] ∧ state.todo (.worker at_) = [] then
      let result := workStep config state.shared (state.worker at_) interrupted
      some (((state.setShared result.1).setWorker at_ result.2.1).setTodo (.worker at_) result.2.2)
    else none
  | .call thread call =>
    if state.todo (.application thread) = [] then
      some (state.setTodo (.application thread) [.call call])
    else none
  | .task at_ call =>
    if (state.worker at_).place = .processTasks ∧ state.todo (.worker at_) = [] then
      some (state.setTodo (.worker at_) [.call call])
    else none
  | .application world => some (state.setShared { state.shared with world := world })
  | .start at_ i =>
    let worker := state.worker at_
    worker.submitted[i]?.map fun entry =>
      let result := startEntry state.shared entry
      (state.setShared result.1).setWorker at_ { worker with
        submitted := worker.submitted.eraseIdx i
        started := worker.started ++ [result.2] }
  | .complete at_ i result data =>
    let worker := state.worker at_
    worker.started[i]?.bind fun started =>
      (completeStarted config state.shared started result data).map fun shared =>
        let next := state.setShared (shared.record [.completed started.handle result])
        next.setWorker at_ { worker with
          started := worker.started.eraseIdx i
          completed := worker.completed ++ [⟨started.handle, result⟩] }

end Braid.Service
