import Braid.Service.Moves

/-! What handling, starting and completing an operation change, and what they leave alone. -/

namespace Braid.Service

open Memory (Slot)

variable {m n k : Nat} {ω : Type} {config : Config ω}

section Receive

variable {α : Type} {dispatcher : MessageDispatcher α ω} {actor : α}

/-- Shifting the buffer does not touch the descriptor. -/
theorem processCompleted_socketFd {object after : IOUringObject} {size : Int}
    (processed : object.processCompleted size = .ok after) : after.socketFd = object.socketFd := by
  -- The bytes are moved to the front, or all of them are dropped, or the move is out of bounds.
  unfold IOUringObject.processCompleted IOUringObject.memmoveToFront at processed
  split at processed
  · split at processed
    · cases processed; rfl
    · cases processed
  · cases processed; rfl

/-- Writing to the buffer does not touch the descriptor. -/
theorem write_socketFd {object after : IOUringObject} {offset : Int} {bytes : List Byte}
    (wrote : object.write offset bytes = .ok after) : after.socketFd = object.socketFd := by
  unfold IOUringObject.write at wrote
  split at wrote <;> cases wrote
  rfl

/-- A turn of the receive loop does not touch the descriptor, whatever the handler does. -/
theorem onReceivedTurn_socketFd {receiver next : Receiver ω}
    (turned : ServiceSession.onReceivedTurn dispatcher actor receiver = .ok (some next)) :
    next.object.socketFd = receiver.object.socketFd := by
  -- The turn goes on only behind its three tests, with a write and a shift that both succeed.
  simp only [ServiceSession.onReceivedTurn, bind, Except.bind] at turned
  split at turned
  · cases turned
  · split at turned
    · cases turned
    · split at turned
      · cases turned
      · split at turned
        · cases turned
        · rename_i wrote
          split at turned
          · cases turned
          · rename_i processed
            cases turned
            exact (processCompleted_socketFd processed).trans (write_socketFd wrote)

/-- The receive loop does not touch the descriptor, whatever the handlers do. -/
theorem onReceivedLoop_socketFd {turns : Nat} {receiver finish : Receiver ω}
    (looped : ServiceSession.onReceivedLoop dispatcher actor turns receiver = .ok finish) :
    finish.object.socketFd = receiver.object.socketFd := by
  -- The induction is on the turns granted, and each of them hands on the descriptor.
  induction turns generalizing receiver with
  | zero => cases looped
  | succ turns ih =>
    simp only [ServiceSession.onReceivedLoop, bind, Except.bind] at looped
    split at looped
    · cases looped
    · rename_i turned
      split at looped
      · cases looped; rfl
      · exact (ih looped).trans (onReceivedTurn_socketFd turned)

end Receive

/-- What a completion that is handled changes, case by case. -/
inductive Handled (shared : Shared m ω) (result : Int) :
    Operation m → Shared m ω → List (Todo m n) → Prop
  -- A failure, or the end of a send or a close.
  | nothing {operation : Operation m} (calls : List ActorCall) :
    Handled shared result operation shared (calls.map .call)
  | accepted {session : Fin m} {listenFd : Int} {accepted : ServiceSession} {actors : List (Fin m)}
      (positive : 0 ≤ result)
      (object : accepted.object = (shared.sessions session).object.setSocketFd result)
      (made : actors = shared.actors ∨ actors = shared.actors ++ [session]) :
    Handled shared result (.accept session listenFd)
      { shared.setSession session accepted with actors := actors } [.receive session, .acceptOne]
  | received {session : Fin m} {buffer : Span} {object : IOUringObject} {world : ω}
      {calls : List ActorCall} (positive : 0 ≤ result)
      (socketFd : object.socketFd = shared.socketFd session) :
    Handled shared result (.recv session buffer)
      { shared.setSession session { shared.sessions session with object := object } with
        world := world } (calls.map .call ++ [.receive session])
  | stopped {session : Fin m} {buffer : Span} (failure : Failure) :
    Handled shared result (.recv session buffer) (shared.stop (.receive failure)) []

/-- Handling a completion changes what it is said to change. -/
theorem handleIoCompletion_handled {shared after : Shared m ω} {result : Int}
    {operation : Operation m} {more : List (Todo m n)}
    (handled : handleIoCompletion config shared result operation = (after, more)) :
    Handled shared result operation after more := by
  -- An accept and a recv branch on the sign of the result; the others end here.
  cases operation with
  | accept session listenFd =>
    simp only [handleIoCompletion] at handled
    split at handled
    · cases handled; exact .nothing []
    · split at handled <;> cases handled
      · exact .accepted (by omega) rfl (.inr rfl)
      · exact .accepted (by omega) rfl (.inl rfl)
  | recv session buffer =>
    simp only [handleIoCompletion] at handled
    split at handled
    · cases handled
      have calls : Handled shared result (.recv session buffer) shared
          (((shared.sessions session).mainActor.toList.map ActorCall.requestClose).map
            (Todo.call : ActorCall → Todo m n)) := .nothing _
      rwa [List.map_map] at calls
    · split at handled <;> cases handled
      · exact .stopped _
      · rename_i looped
        exact .received (by omega) (onReceivedLoop_socketFd looped)
  | _ => cases handled; exact .nothing []

/-- What a completion in the kernel changes, case by case. -/
inductive Completed (config : Config ω) (shared : Shared m ω) (result : Int) :
    Started m → Shared m ω → Prop
  | nothing {started : Started m} : Completed config shared result started shared
  | accepted {session : Fin m} {listenFd : Int} {id : Nat} {connection : Option (Connection m)}
      (positive : 0 ≤ result) (unused : shared.descriptors result = none) :
    Completed config shared result ⟨⟨id, .accept session listenFd⟩, connection⟩
      { shared.setDescriptor result (some ⟨shared.connections, session⟩) with
        connections := shared.connections + 1 }
  | received {session : Fin m} {buffer : Span} {id : Nat} {connection : Option (Connection m)}
      {object : IOUringObject} (positive : 0 ≤ result)
      (socketFd : object.socketFd = shared.socketFd session) :
    Completed config shared result ⟨⟨id, .recv session buffer⟩, connection⟩
      (shared.setSession session { shared.sessions session with object := object })
  | stopped {session : Fin m} {buffer : Span} {id : Nat} {connection : Option (Connection m)}
      (failure : Failure) :
    Completed config shared result ⟨⟨id, .recv session buffer⟩, connection⟩
      (shared.stop (.receive failure))

/-- Completing an operation changes what it is said to change. -/
theorem completeStarted_completed {shared after : Shared m ω} {started : Started m} {result : Int}
    {data : List Byte}
    (done : completeStarted config shared started result data = some after) :
    Completed config shared result started after := by
  obtain ⟨⟨id, operation⟩, connection⟩ := started
  -- Only an accept and a recv that do not fail change anything.
  cases operation with
  | accept session listenFd =>
    simp only [completeStarted] at done
    split at done
    · cases done; exact .nothing
    · split at done
      · rename_i fresh
        cases done
        exact .accepted (by omega) fresh.1
      · cases done
  | recv session buffer =>
    simp only [completeStarted] at done
    split at done
    · cases done; exact .nothing
    · split at done
      · split at done <;> cases done
        · rename_i wrote
          exact .received (by omega) (write_socketFd wrote)
        · exact .stopped _
      · cases done
  | sendBuffer session sendBuffer =>
    simp only [completeStarted] at done
    split at done <;> cases done
    exact .nothing
  | close session => cases done; exact .nothing

/-- An accept that is handled has failed, or it connects its session. -/
theorem handleIoCompletion_accept {shared after : Shared m ω} {result : Int} {session : Fin m}
    {listenFd : Int} {more : List (Todo m n)}
    (handled : handleIoCompletion config shared result (.accept session listenFd) =
      (after, more)) :
    (result < 0 ∧ after = shared) ∨
      (0 ≤ result ∧ ∃ accepted : ServiceSession, ∃ actors,
        accepted.object = (shared.sessions session).object.setSocketFd result ∧
          after = { shared.setSession session accepted with actors := actors }) := by
  simp only [handleIoCompletion] at handled
  split at handled
  · -- `on_accept_failed` does nothing.
    rename_i failed
    cases handled
    exact .inl ⟨failed, rfl⟩
  · rename_i positive
    -- A successful one sets the socket, and makes an actor if the session has none.
    refine .inr ⟨by omega, ?_⟩
    split at handled <;> cases handled <;> exact ⟨_, _, rfl, rfl⟩

/-- Handling a completion that is not an accept touches no descriptor. -/
theorem handleIoCompletion_socketFd {shared after : Shared m ω} {result : Int}
    {operation : Operation m} {more : List (Todo m n)}
    (handled : handleIoCompletion config shared result operation = (after, more))
    (other : operation.kind ≠ .accept) (session : Fin m) :
    after.socketFd session = shared.socketFd session := by
  -- A recv replaces the object of its session by one with the same descriptor.
  cases handleIoCompletion_handled handled with
  | accepted positive object made => exact absurd rfl other
  | @received owner buffer object world calls positive socketFd =>
    by_cases same : session = owner
    · subst same
      simpa [Shared.socketFd, Shared.setSession] using socketFd
    · simp [Shared.socketFd, Shared.setSession, same]
  | _ => rfl

/-- Completing an operation touches no descriptor of a session. -/
theorem completeStarted_socketFd {shared after : Shared m ω} {started : Started m} {result : Int}
    {data : List Byte}
    (done : completeStarted config shared started result data = some after) (session : Fin m) :
    after.socketFd session = shared.socketFd session := by
  -- A recv writes into the object of its session, which keeps its descriptor.
  cases completeStarted_completed done with
  | @received owner buffer id connection object positive socketFd =>
    by_cases same : session = owner
    · subst same
      simpa [Shared.socketFd, Shared.setSession] using socketFd
    · simp [Shared.socketFd, Shared.setSession, same]
  | _ => rfl

/-- An accept that completes has failed, or it opens a descriptor that was not open. -/
theorem completeStarted_accept {shared after : Shared m ω} {id : Nat} {session : Fin m}
    {listenFd : Int} {connection : Option (Connection m)} {result : Int} {data : List Byte}
    (done : completeStarted config shared ⟨⟨id, .accept session listenFd⟩, connection⟩ result data =
      some after) :
    (result < 0 ∧ after = shared) ∨
      (0 ≤ result ∧ shared.descriptors result = none ∧
        after = { shared.setDescriptor result (some ⟨shared.connections, session⟩) with
          connections := shared.connections + 1 }) := by
  simp only [completeStarted] at done
  split at done
  · rename_i failed
    cases done
    exact .inl ⟨failed, rfl⟩
  · split at done
    · -- The kernel gives out a descriptor that is not in use.
      rename_i positive fresh
      cases done
      exact .inr ⟨by omega, fresh.1, rfl⟩
    · cases done

/-- A completion is handled without a change to the memory, the pools and what is remembered. -/
theorem handleIoCompletion_frame {shared after : Shared m ω} {result : Int}
    {operation : Operation m} {more : List (Todo m n)}
    (handled : handleIoCompletion config shared result operation = (after, more)) :
    after.memory = shared.memory ∧ after.log = shared.log ∧
      after.nextOperation = shared.nextOperation ∧ after.held = shared.held ∧
      after.sessionsQueue = shared.sessionsQueue ∧ after.descriptors = shared.descriptors := by
  cases handleIoCompletion_handled handled <;> exact ⟨rfl, rfl, rfl, rfl, rfl, rfl⟩

/-- The calls that a completion leads to carry no operation. -/
theorem handleIoCompletion_tokens {shared after : Shared m ω} {result : Int}
    {operation : Operation m} {more : List (Todo m n)}
    (handled : handleIoCompletion config shared result operation = (after, more)) :
    ∀ token ∈ more.flatMap Todo.tokens, token = .receive operation.session := by
  cases handleIoCompletion_handled handled <;> simp [Todo.tokens, Operation.session]

/-- Handling a completion stops the program only where the receive path fails. -/
theorem handleIoCompletion_fault {shared after : Shared m ω} {result : Int}
    {operation : Operation m} {more : List (Todo m n)}
    (handled : handleIoCompletion config shared result operation = (after, more)) :
    after.fault = shared.fault ∨ ∃ failure, after.fault = some (.receive failure) := by
  cases handleIoCompletion_handled handled with
  | stopped failure => exact .inr ⟨failure, rfl⟩
  | _ => exact .inl rfl

/-- An operation is completed without a change to the memory, the pools and what is remembered. -/
theorem completeStarted_frame {shared after : Shared m ω} {started : Started m} {result : Int}
    {data : List Byte}
    (done : completeStarted config shared started result data = some after) :
    after.memory = shared.memory ∧ after.log = shared.log ∧
      after.nextOperation = shared.nextOperation ∧ after.held = shared.held ∧
      after.sessionsQueue = shared.sessionsQueue ∧ after.actors = shared.actors := by
  cases completeStarted_completed done <;> exact ⟨rfl, rfl, rfl, rfl, rfl, rfl⟩

/-- Completing an operation stops the program only where its bytes leave the buffer. -/
theorem completeStarted_fault {shared after : Shared m ω} {started : Started m} {result : Int}
    {data : List Byte}
    (done : completeStarted config shared started result data = some after) :
    after.fault = shared.fault ∨ ∃ failure, after.fault = some (.receive failure) := by
  cases completeStarted_completed done with
  | stopped failure => exact .inr ⟨failure, rfl⟩
  | _ => exact .inl rfl

/-- Starting on an entry changes the table of descriptors, and nothing else but the log. -/
theorem startEntry_frame (shared : Shared m ω) (entry : Entry m) :
    (startEntry shared entry).1 = { shared with
      descriptors := (startEntry shared entry).1.descriptors
      log := shared.log ++ [.started entry.handle (shared.descriptors entry.fd)] } := by
  -- Only a close takes effect at once.
  simp only [startEntry]
  split <;> rfl

section Routine

/-- The event belongs to a step of a worker at this place, if it is a handling or a shutdown. -/
def Event.FitsPlace (shared : Shared m ω) (place : Place m) : Event m → Prop
  | .handled .. => place = .handleCompletion
  | .shutdown close _ =>
    place = .requestIo close ∧ close.operation.kind = .close ∧ shared.memory close.id ≠ none
  | _ => True

/-- What a step inside of a call remembers, and which queue and calls it leaves alone. -/
structure CallFrame (shared : Shared m ω) (todo : Todo m n) (after : Shared m ω)
    (more : List (Todo m n)) : Prop where
  log : ∃ events, after.log = shared.log ++ events ∧
    ∀ event ∈ events, ∀ place, event.FitsPlace shared place
  queue : todo ≠ .acceptOne → after.sessionsQueue = shared.sessionsQueue
  calls : .acceptOne ∉ more

/-- A step inside of a call remembers no handling and no shutdown. -/
theorem todoStep_frame {shared after : Shared m ω} {slot : Option Slot} {fails : Bool}
    {todo : Todo m n} {more : List (Todo m n)} {pushed : Option (Fin n × Handle m)}
    (stepped : todoStep config shared slot fails todo = some (after, more, pushed)) :
    CallFrame shared todo after more := by
  have same (log : after.log = shared.log) : ∃ events, after.log = shared.log ++ events ∧
      ∀ event ∈ events, ∀ place, event.FitsPlace shared place := ⟨[], by simp [log]⟩
  -- The places inside of a call, with the branches of the source in their order.
  cases todo <;> simp only [todoStep] at stepped
  case acceptOne =>
    split at stepped <;> cases stepped <;> exact ⟨same rfl, fun other => absurd rfl other, by simp⟩
  case call | addRef => split at stepped <;> cases stepped <;> exact ⟨same rfl, fun _ => rfl, by simp⟩
  case receive => cases stepped; exact ⟨same rfl, fun _ => rfl, by simp⟩
  case acquire =>
    split at stepped
    · cases stepped
      exact ⟨⟨_, rfl, by simp [Event.FitsPlace]⟩, fun _ => rfl, by simp⟩
    · split at stepped <;> cases stepped
      exact ⟨⟨_, rfl, by simp [Event.FitsPlace]⟩, fun _ => rfl, by simp⟩
  case route =>
    split at stepped
    · cases stepped
      exact ⟨same rfl, fun _ => rfl, by simp⟩
    · split at stepped <;> cases stepped
      · exact ⟨⟨_, rfl, by simp [Event.FitsPlace]⟩, fun _ => rfl, by simp⟩
      · exact ⟨same rfl, fun _ => rfl, by simp⟩
  case push =>
    split at stepped <;> cases stepped
    · exact ⟨⟨_, rfl, by simp [Event.FitsPlace]⟩, fun _ => rfl, by simp⟩
    · exact ⟨same rfl, fun _ => rfl, by simp⟩

/-- What a step of a worker remembers at its place, and which queue it leaves alone. -/
structure WorkFrame (shared : Shared m ω) (worker : Worker m) (after : Shared m ω) : Prop where
  log : ∃ events, after.log = shared.log ++ events ∧
    ∀ event ∈ events, event.FitsPlace shared worker.place
  queue : after.sessionsQueue = shared.sessionsQueue

/-- A step that remembers nothing fits every place. -/
theorem WorkFrame.of_same {shared after : Shared m ω} {worker : Worker m}
    (log : after.log = shared.log) (queue : after.sessionsQueue = shared.sessionsQueue) :
    WorkFrame shared worker after :=
  ⟨⟨[], by simp [log]⟩, queue⟩

/-- What is remembered in other words than a handling or a shutdown fits every place. -/
theorem WorkFrame.record {shared : Shared m ω} {worker : Worker m} {events : List (Event m)}
    (other : ∀ event ∈ events, ∀ place, event.FitsPlace shared place) :
    WorkFrame shared worker (shared.record events) :=
  ⟨⟨events, rfl, fun event member => other event member _⟩, rfl⟩

/-- Taking an entry from the ring remembers its preparation, or nothing. -/
theorem prepare_frame (shared : Shared m ω) (worker : Worker m) (handle : Handle m)
    (place : Place m) : WorkFrame shared worker (prepare config shared worker handle place).1 := by
  unfold prepare
  -- A free entry is written and recorded, and a full ring stops the program.
  split
  · exact .record (by simp [Event.FitsPlace])
  · exact .of_same rfl rfl

/-- A step inside of `flush_requests` remembers a shutdown only for the close in hand. -/
theorem flushStep_frame (shared : Shared m ω) (worker : Worker m) :
    WorkFrame shared worker (flushStep config shared worker worker.place).1 := by
  cases place : worker.place with
  | flushPop => simp only [flushStep]; split <;> exact .of_same rfl rfl
  | requestIo handle =>
    simp only [flushStep]
    split
    · exact .of_same rfl rfl
    · rename_i alive
      split
      · rename_i session close
        -- The shutdown is for the operation in hand, which is a close.
        refine ⟨⟨_, rfl, fun event member => ?_⟩, rfl⟩
        cases List.mem_singleton.mp member
        exact ⟨place, by rw [close]; rfl, alive⟩
      · exact prepare_frame ..
  | prepareClose handle =>
    simp only [flushStep]
    split
    · exact .of_same rfl rfl
    · exact prepare_frame ..
  | submitClose | submit => exact .record (by simp [Event.FitsPlace])
  | _ => exact .of_same rfl rfl

/-- A step of a worker remembers a handling and a shutdown only at their places. -/
theorem workStep_frame (shared : Shared m ω) (worker : Worker m) (interrupted : Bool) :
    WorkFrame shared worker (workStep (n := n) config shared worker interrupted).1 := by
  cases place : worker.place with
  | waitOne => simp only [workStep, place]; split <;> exact .of_same rfl rfl
  | handleCompletion =>
    simp only [workStep, place]
    split
    · exact .of_same rfl rfl
    · rename_i handle result found
      split
      · exact .of_same rfl rfl
      · -- The handler records nothing itself, and the handling is recorded behind it.
        have frame : _ ∧ _ := handleIoCompletion_frame
          (rfl : handleIoCompletion (n := n) config shared result handle.operation = _)
        refine ⟨⟨_, congrArg (· ++ _) frame.2.1, fun event member => ?_⟩, frame.2.2.2.2.1⟩
        cases List.mem_singleton.mp member
        exact place
  | processTasks => simp only [workStep, place]; exact .of_same rfl rfl
  -- The destructor and the last release record the end of an operation.
  | destroy =>
    simp only [workStep, place, destroyStep]
    split
    · exact .of_same rfl rfl
    · split
      · exact .of_same rfl rfl
      · split
        · exact .of_same rfl rfl
        · split
          · exact ⟨⟨_, rfl, by simp [Event.FitsPlace]⟩, rfl⟩
          · exact .of_same rfl rfl
  | onZeroRef handle =>
    simp only [workStep, place, onZeroRef]
    split
    · exact .of_same rfl rfl
    · exact ⟨⟨_, rfl, by simp [Event.FitsPlace]⟩, rfl⟩
  | _ =>
    simp only [workStep, place]
    rw [← place]
    exact flushStep_frame ..

end Routine

end Braid.Service
