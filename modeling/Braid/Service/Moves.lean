import Braid.Library.Counting
import Braid.Library.Transition
import Braid.Service.Machine
import Mathlib.Algebra.BigOperators.Fin

/-! What a step of the service moves: the requests that are made, and the operations on their way. -/

namespace Braid.Service

open Counting
open Memory (Slot)

/-- How far an operation has come on its way through a request queue, a ring and a completion. -/
inductive Phase (m : Nat) where
  -- Inside of `request_io`, before and after the reference is taken.
  | acquired
  | counted
  -- In the request queue of a worker, and in the hands of its flush.
  | queued
  | popped
  -- In a ring: prepared, submitted, worked on by the kernel, and completed.
  | prepared (fd : Int)
  | submitted (fd : Int)
  | started (connection : Option (Connection m))
  | completed (result : Int)
  -- In an `IOCompletion`, before and after its handling.
  | delivered (result : Int)
  | handled
  -- Inside of `on_zero_ref`.
  | zeroed
  deriving DecidableEq

/-- What the threads, the rings and the kernel carry. -/
inductive Token (m : Nat) where
  | receive (session : Fin m)
  | requested (operation : Operation m)
  | carried (phase : Phase m) (handle : Handle m)
  deriving DecidableEq

variable {m n k : Nat} {ω : Type}

/-- What a thread carries in a call that it is in. -/
def Todo.tokens : Todo m n → List (Token m)
  | .receive session => [.receive session]
  | .acquire operation => [.requested operation]
  | .addRef handle => [.carried .acquired handle]
  | .route handle => [.carried .counted handle]
  | .push handle _ => [.carried .counted handle]
  | _ => []

/-- Calls that are still to be made carry nothing yet. -/
@[simp] theorem calls_tokens (calls : List ActorCall) :
    (calls.map (Todo.call : ActorCall → Todo m n)).flatMap Todo.tokens = [] := by
  simp [Todo.tokens]

/-- What a worker carries in the local variables of its routine. -/
def Place.tokens : Place m → List (Token m)
  | .requestIo handle => [.carried .popped handle]
  | .prepareClose handle => [.carried .popped handle]
  | .onZeroRef handle => [.carried .zeroed handle]
  | _ => []

/-- What the `IOCompletion` of a routine carries while the routine is at a place. -/
def Completion.tokens (completion : Completion m) : Place m → List (Token m)
  | .waitOne => []
  | .onZeroRef _ => []
  | .handleCompletion => [.carried (.delivered completion.result) completion.handle]
  | _ => [.carried .handled completion.handle]

/-- What a worker carries in its queue, its ring and its routine. -/
def Worker.tokens (worker : Worker m) : List (Token m) :=
  worker.requestQueue.map (.carried .queued) ++
  worker.prepared.map (fun entry => .carried (.prepared entry.fd) entry.handle) ++
  worker.submitted.map (fun entry => .carried (.submitted entry.fd) entry.handle) ++
  worker.started.map (fun started => .carried (.started started.connection) started.handle) ++
  worker.completed.map (fun done => .carried (.completed done.result) done.handle) ++
  worker.completion.toList.flatMap (fun done => done.tokens worker.place) ++
  worker.place.tokens

/-- The total of a quantity over everything that is carried in a state. -/
def State.total (weight : Token m → Nat) (state : State m n k ω) : Nat :=
  (∑ context, tally weight ((state.todo context).flatMap Todo.tokens)) +
    ∑ worker, tally weight (state.worker worker).tokens

/-- A phase of an operation that is followed by the next one with no effect elsewhere. -/
inductive Phase.Advances : Phase m → Phase m → Prop
  | push : Phase.Advances .counted .queued
  | pop : Phase.Advances .queued .popped
  | wait (result : Int) : Phase.Advances (.completed result) (.delivered result)

variable (config : Config ω)

/--
What a step takes away, what it puts in its place, and what is shared afterwards.

Where it matters which step it was, the label and what it has found are kept.
-/
inductive Move (state : State m n k ω) (label : Label n k ω) :
    List (Token m) → List (Token m) → Shared m ω → Prop
  | quiet (world : ω) : Move state label [] [] { state.shared with world := world }
  -- What is requested: an accept for a popped session, or what a call wants of its actor's one.
  | popSession {session : Fin m} {rest : List (Fin m)}
      (queue : state.shared.sessionsQueue = session :: rest) :
    Move state label [] [.requested (.accept session config.listenFd)]
      { state.shared with sessionsQueue := rest }
  | call {context : Context n k} {slot : Option Slot} {fails : Bool} {call : ActorCall}
      {rest : List (Todo m n)} {session : Fin m} (cause : label = .run context slot fails)
      (head : state.todo context = .call call :: rest)
      (behind : state.shared.actors[call.actor]? = some session) :
    Move state label [] [.requested (call.operation session)] state.shared
  | receive (session : Fin m) (span : Span) :
    Move state label [.receive session] [.requested (.recv session span)] state.shared
  -- Inside of `request_io`: the acquisition, the reference, the route and the push.
  | refuse {context : Context n k} {fails : Bool} {operation : Operation m}
      {rest : List (Todo m n)} (cause : label = .run context none fails)
      (head : state.todo context = .acquire operation :: rest) :
    Move state label [.requested operation] [] (state.shared.record [.refused operation])
  | acquire {operation : Operation m} {slot : Slot}
      (free : slot ∉ state.shared.held operation.kind) :
    Move state label [.requested operation]
      [.carried .acquired ⟨state.shared.nextOperation, operation⟩]
      { ((state.shared.setCell state.shared.nextOperation
            (some ⟨operation.kind, slot, 0⟩)).setHeld operation.kind
              (slot :: state.shared.held operation.kind)).record
          [.acquired ⟨state.shared.nextOperation, operation⟩ slot] with
        nextOperation := state.shared.nextOperation + 1 }
  | addRef {handle : Handle m} {cell : Cell}
      (found : state.shared.memory handle.id = some cell) :
    Move state label [.carried .acquired handle] [.carried .counted handle]
      (state.shared.setCell handle.id (some { cell with refCount := cell.refCount + 1 }))
  | route : Move state label [] []
      { state.shared with requestIndex := state.shared.requestIndex + 1 }
  | turnAway {context : Context n k} {slot : Option Slot} {fails : Bool} {handle : Handle m}
      {rest : List (Todo m n)} (cause : label = .run context slot fails)
      (head : state.todo context = .route handle :: rest) (workers : n ≠ 0)
      (outside : routeIndex n state.shared.requestIndex = none) :
    Move state label [.carried .counted handle] []
      (Shared.record { state.shared with requestIndex := state.shared.requestIndex + 1 }
        [.dropped handle])
  | failPush {context : Context n k} {slot : Option Slot} {handle : Handle m} {worker : Fin n}
      {rest : List (Todo m n)} (cause : label = .run context slot true)
      (head : state.todo context = .push handle worker :: rest) :
    Move state label [.carried .counted handle] [] (state.shared.record [.dropped handle])
  | advance {before after : Phase m} (plain : before.Advances after) (handle : Handle m) :
    Move state label [.carried before handle] [.carried after handle] state.shared
  -- The routine of a worker: what it handles, and what its flush prepares and submits.
  | handle {at_ : Fin n} {interrupted : Bool} {handle : Handle m} {result : Int}
      (cause : label = .work at_ interrupted)
      (place : (state.worker at_).place = .handleCompletion)
      (found : (state.worker at_).completion = some ⟨handle, result⟩)
      (alive : state.shared.memory handle.id ≠ none) (shared : Shared m ω) (more : List (Todo m n))
      (handled : handleIoCompletion config state.shared result handle.operation = (shared, more)) :
    Move state label [.carried (.delivered result) handle]
      (.carried .handled handle :: more.flatMap Todo.tokens)
      (shared.record [.handled handle result])
  | shutdown {handle : Handle m} {session : Fin m} (close : handle.operation = .close session) :
    Move state label [.carried .popped handle] [.carried .popped handle]
      (state.shared.record
        [.shutdown handle (state.shared.descriptors (state.shared.socketFd session))])
  | prepare (handle : Handle m) :
    Move state label [.carried .popped handle]
      [.carried (.prepared (handle.operation.fd state.shared)) handle]
      (state.shared.record
        [.prepared handle (state.shared.descriptors (handle.operation.fd state.shared))])
  | submit (entries : List (Entry m)) :
    Move state label (entries.map fun entry => .carried (.prepared entry.fd) entry.handle)
      (entries.map fun entry => .carried (.submitted entry.fd) entry.handle)
      (state.shared.record (entries.map fun entry => .submitted entry.handle))
  -- The kernel: starting on an entry, and completing it.
  | start {at_ : Fin n} {i : Nat} {entry : Entry m} (cause : label = .start at_ i)
      (found : (state.worker at_).submitted[i]? = some entry) :
    Move state label [.carried (.submitted entry.fd) entry.handle]
      [.carried (.started (state.shared.descriptors entry.fd)) entry.handle]
      (startEntry state.shared entry).1
  | complete {at_ : Fin n} {i : Nat} {result : Int} {data : List Byte} {started : Started m}
      {shared : Shared m ω} (cause : label = .complete at_ i result data)
      (found : (state.worker at_).started[i]? = some started)
      (done : completeStarted config state.shared started result data = some shared) :
    Move state label [.carried (.started started.connection) started.handle]
      [.carried (.completed result) started.handle]
      (shared.record [.completed started.handle result])
  -- The end of an operation, when its last reference is released.
  | zero {handle : Handle m} {cell : Cell} (found : state.shared.memory handle.id = some cell)
      (last : cell.refCount = 1) :
    Move state label [.carried .handled handle] [.carried .zeroed handle]
      ((state.shared.setCell handle.id (some { cell with refCount := cell.refCount - 1 })).record
        [.zeroed handle])
  | decrement (handle : Handle m) {cell : Cell}
      (found : state.shared.memory handle.id = some cell) (more : 1 < cell.refCount) :
    Move state label [.carried .handled handle] []
      (state.shared.setCell handle.id (some { cell with refCount := cell.refCount - 1 }))
  | giveBack {handle : Handle m} {cell : Cell}
      (found : state.shared.memory handle.id = some cell) :
    Move state label [.carried .zeroed handle] []
      (((state.shared.setCell handle.id none).setHeld handle.operation.kind
        ((state.shared.held handle.operation.kind).erase cell.slot)).record
          [.returned handle cell.slot])
  -- The ways in which the program stops.
  | useAfterRelease (phase : Phase m) {handle : Handle m}
      (missing : state.shared.memory handle.id = none) :
    Move state label [.carried phase handle] [.carried phase handle]
      (state.shared.stop .usedAfterRelease)
  | releaseAtZero {handle : Handle m} {cell : Cell}
      (found : state.shared.memory handle.id = some cell) (zero : cell.refCount ≤ 0) :
    Move state label [.carried .handled handle] [.carried .handled handle]
      (state.shared.stop .releasedAtZero)
  | nullEntry {at_ : Fin n} {interrupted : Bool} (cause : label = .work at_ interrupted)
      (takes : (state.worker at_).place.takesEntry)
      (full : ¬ (state.worker at_).prepared.length <
        submissionEntries config.queueDepthPerThread) :
    Move state label [] [] (state.shared.stop .nullEntry)
  | divide : Move state label [] [] (state.shared.stop .divisionByZero)

section Total

variable (state : State m n k ω)

/-- Only what the threads carry matters for a total. -/
@[simp] theorem total_setShared (weight : Token m → Nat) (shared : Shared m ω) :
    (state.setShared shared).total weight = state.total weight := rfl

/-- Replacing what a context has to do changes the total by the difference. -/
theorem total_setTodo (weight : Token m → Nat) (context : Context n k) (todo : List (Todo m n)) :
    (state.setTodo context todo).total weight +
        tally weight ((state.todo context).flatMap Todo.tokens) =
      state.total weight + tally weight (todo.flatMap Todo.tokens) := by
  -- The sum differs in the one summand that has been replaced.
  have replaced := sum_update Finset.univ state.todo
    (fun todo => tally weight (todo.flatMap Todo.tokens)) todo (Finset.mem_univ context)
  simp only [State.total, State.setTodo] at *
  omega

/-- Replacing a worker changes the total by the difference of what it carries. -/
theorem total_setWorker (weight : Token m → Nat) (at_ : Fin n) (worker : Worker m) :
    (state.setWorker at_ worker).total weight + tally weight (state.worker at_).tokens =
      state.total weight + tally weight worker.tokens := by
  -- The sum differs in the one summand that has been replaced.
  have replaced := sum_update Finset.univ state.worker (fun worker => tally weight worker.tokens)
    worker (Finset.mem_univ at_)
  simp only [State.total, State.setWorker] at *
  omega

/-- What a context carries is part of the total. -/
theorem todo_le_total (weight : Token m → Nat) (context : Context n k) :
    tally weight ((state.todo context).flatMap Todo.tokens) ≤ state.total weight := by
  have part := Finset.single_le_sum (f := fun context =>
    tally weight ((state.todo context).flatMap Todo.tokens)) (fun _ _ => Nat.zero_le _)
    (Finset.mem_univ context)
  simp only [State.total]
  omega

/-- What a worker carries is part of the total. -/
theorem worker_le_total (weight : Token m → Nat) (at_ : Fin n) :
    tally weight (state.worker at_).tokens ≤ state.total weight := by
  have part := Finset.single_le_sum (f := fun worker =>
    tally weight (state.worker worker).tokens) (fun _ _ => Nat.zero_le _) (Finset.mem_univ at_)
  simp only [State.total]
  omega

/-- Nothing is carried when the service starts. -/
theorem init_total (config : Config ω) (world : ω) (weight : Token m → Nat) :
    (State.init m n k config world).total weight = 0 := by
  -- The accepts that are still to be requested carry nothing yet.
  have todo (context : Context n k) :
      ((State.init m n k config world).todo context).flatMap Todo.tokens = [] := by
    cases context <;> simp [State.init, Todo.tokens]
  have worker (at_ : Fin n) : ((State.init m n k config world).worker at_).tokens = [] := rfl
  simp [State.total, todo, worker]

end Total

section Step

variable {state : State m n k ω} {label : Label n k ω}

/-- The move that a step of a thread or of the kernel makes, with what is carried there. -/
structure Moves (state : State m n k ω) (label : Label n k ω) (before after : List (Token m))
    (shared : Shared m ω) (lost gained : List (Token m)) : Prop where
  move : Move config state label lost gained shared
  total : ∀ weight,
    tally weight after + tally weight lost = tally weight before + tally weight gained ∧
      tally weight lost ≤ tally weight before

/-- A move that takes nothing away and adds nothing. -/
theorem Moves.still {before after : List (Token m)} {shared : Shared m ω}
    (move : Move config state label [] [] shared)
    (same : ∀ weight, tally weight after = tally weight before) :
    Moves config state label before after shared [] [] :=
  ⟨move, fun weight => ⟨by rw [same], Nat.zero_le _⟩⟩

/-- A move that leaves everything where it is, such as one that stops the program. -/
theorem Moves.stay {before lost : List (Token m)} {shared : Shared m ω}
    (move : Move config state label lost lost shared)
    (within : ∀ weight, tally weight lost ≤ tally weight before) :
    Moves config state label before before shared lost lost :=
  ⟨move, fun weight => ⟨rfl, within weight⟩⟩

/-- What an operation is carried in when it has been pushed. -/
def pushedTokens (pushed : Option (Fin n × Handle m)) : List (Token m) :=
  pushed.toList.map fun push => .carried .queued push.2

/-- A step inside of a call is one of the moves. -/
theorem todoStep_move {context : Context n k} {slot : Option Slot} {fails : Bool}
    {todo : Todo m n} {rest more : List (Todo m n)} {shared : Shared m ω}
    {pushed : Option (Fin n × Handle m)} (cause : label = .run context slot fails)
    (head : state.todo context = todo :: rest)
    (stepped : todoStep config state.shared slot fails todo = some (shared, more, pushed)) :
    ∃ lost gained, Moves config state label todo.tokens
      (more.flatMap Todo.tokens ++ pushedTokens pushed) shared lost gained := by
  -- One case for each call, and within it one for each way that the call can go on.
  cases todo with
  | acceptOne =>
    simp only [todoStep] at stepped
    split at stepped
    · -- No session is left to accept for.
      cases stepped
      exact ⟨_, _, .quiet state.shared.world, by simp [pushedTokens, Todo.tokens]⟩
    · rename_i queue
      cases stepped
      exact ⟨_, _, .popSession queue, by simp [pushedTokens, Todo.tokens]⟩
  | call call =>
    simp only [todoStep] at stepped
    split at stepped
    · -- The actor has no session behind it.
      cases stepped
      exact ⟨_, _, .quiet state.shared.world, by simp [pushedTokens, Todo.tokens]⟩
    · rename_i behind
      cases stepped
      exact ⟨_, _, .call cause head behind, by simp [pushedTokens, Todo.tokens]⟩
  | receive session =>
    -- The receive turns into a request for the room that the session has left.
    cases stepped
    exact ⟨_, _, .receive session (state.shared.sessions session).object.remainSpan,
      by simp [pushedTokens, Todo.tokens, Nat.add_comm]⟩
  | acquire operation =>
    simp only [todoStep] at stepped
    split at stepped
    · -- The pool has no slot to give.
      cases stepped
      exact ⟨_, _, .refuse cause head, by simp [pushedTokens, Todo.tokens]⟩
    · split at stepped
      · -- A slot that is already held would not have been given.
        cases stepped
      · rename_i free
        cases stepped
        exact ⟨_, _, .acquire free, by simp [pushedTokens, Todo.tokens, Nat.add_comm]⟩
  | addRef handle =>
    simp only [todoStep] at stepped
    split at stepped
    · -- The operation is gone, which stops the program.
      rename_i missing
      cases stepped
      exact ⟨_, _, .useAfterRelease .acquired missing, by simp [pushedTokens, Todo.tokens]⟩
    · rename_i found
      cases stepped
      exact ⟨_, _, .addRef found, by simp [pushedTokens, Todo.tokens, Nat.add_comm]⟩
  | route handle =>
    simp only [todoStep] at stepped
    split at stepped
    · -- Without workers, the remainder is a division by zero.
      cases stepped
      exact ⟨_, _, .divide, by simp [pushedTokens, Todo.tokens]⟩
    · rename_i workers
      split at stepped
      · -- The index has gone negative, and its remainder names no worker.
        rename_i outside
        cases stepped
        exact ⟨_, _, .turnAway cause head workers outside, by simp [pushedTokens, Todo.tokens]⟩
      · cases stepped
        exact ⟨_, _, .route, by simp [pushedTokens, Todo.tokens]⟩
  | push handle worker =>
    simp only [todoStep] at stepped
    split at stepped
    · -- The push itself failed, and nobody keeps the operation.
      rename_i failed
      cases stepped
      subst failed
      exact ⟨_, _, .failPush cause head, by simp [pushedTokens, Todo.tokens]⟩
    · cases stepped
      exact ⟨_, _, .advance .push handle, by simp [pushedTokens, Todo.tokens, Nat.add_comm]⟩

/-- The total over what a worker carries, part by part. -/
theorem tally_tokens (weight : Token m → Nat) (worker : Worker m) :
    tally weight worker.tokens =
      tally (fun handle => weight (.carried .queued handle)) worker.requestQueue +
      tally (fun entry => weight (.carried (.prepared entry.fd) entry.handle)) worker.prepared +
      tally (fun entry => weight (.carried (.submitted entry.fd) entry.handle)) worker.submitted +
      tally (fun started => weight (.carried (.started started.connection) started.handle))
        worker.started +
      tally (fun done => weight (.carried (.completed done.result) done.handle)) worker.completed +
      tally weight (worker.completion.toList.flatMap fun done => done.tokens worker.place) +
      tally weight worker.place.tokens := by
  simp only [Worker.tokens, tally_append, tally_map]

/-- Nothing is carried by the `IOCompletion` of the last turn of a routine. -/
theorem waitOne_tokens (completion : Option (Completion m)) :
    (completion.toList.flatMap fun done => done.tokens .waitOne) = [] := by
  cases completion <;> rfl

/-- A completion that has just been waited for carries its operation and its result. -/
theorem handleCompletion_tokens (done : Completion m) :
    done.tokens .handleCompletion = [.carried (.delivered done.result) done.handle] := rfl

/-- Taking an entry from the ring is one of the moves, whatever place it is done at. -/
theorem prepare_move {at_ : Fin n} {interrupted : Bool} (cause : label = .work at_ interrupted)
    {handle : Handle m} {after : Place m}
    (takes : (state.worker at_).place.takesEntry)
    (holds : (state.worker at_).place.tokens = [.carried .popped handle])
    (empty : after.tokens = [])
    (same : ∀ done : Completion m,
      done.tokens after = done.tokens (state.worker at_).place) :
    ∃ lost gained, Moves config state label (state.worker at_).tokens
      (prepare config state.shared (state.worker at_) handle after).2.tokens
      (prepare config state.shared (state.worker at_) handle after).1 lost gained := by
  unfold prepare
  split
  · -- There is a free entry, and the operation moves from the hands of the flush into the ring.
    refine ⟨_, _, .prepare handle, fun weight => ?_⟩
    simp only [tally_tokens, holds, empty, same, tally_append, tally_cons, tally_nil]
    omega
  · -- The ring is full, and the null entry is written to.
    rename_i full
    exact ⟨_, _, .still config (.nullEntry cause takes full) fun weight => rfl⟩

/-- Submitting what is prepared is one of the moves, whatever place it is done at. -/
theorem submitEntries_move {worker : Worker m} {after : Place m}
    (before : worker.place.tokens = []) (empty : after.tokens = [])
    (same : ∀ done : Completion m, done.tokens after = done.tokens worker.place) :
    ∃ lost gained, Moves config state label worker.tokens
      (submitEntries state.shared worker after).2.tokens
      (submitEntries state.shared worker after).1 lost gained := by
  refine ⟨_, _, .submit worker.prepared, fun weight => ?_⟩
  simp only [submitEntries, tally_tokens, before, empty, same, tally_append, tally_map, tally_nil]
  omega

/-- A step inside of `flush_requests` is one of the moves. -/
theorem flushStep_move {at_ : Fin n} {interrupted : Bool} (cause : label = .work at_ interrupted) :
    ∃ lost gained, Moves config state label (state.worker at_).tokens
      (flushStep config state.shared (state.worker at_) (state.worker at_).place).2.tokens
      (flushStep config state.shared (state.worker at_) (state.worker at_).place).1
      lost gained := by
  cases place : (state.worker at_).place with
  | flushEmpty =>
    -- The emptiness test changes only the place, to one that carries as little.
    refine ⟨_, _, .still config (.quiet state.shared.world) fun weight => ?_⟩
    simp only [flushStep, tally_tokens, place]
    split <;> rfl
  | flushPop =>
    simp only [flushStep]
    split
    · -- Nothing is queued any more, and the flush goes on to its submission.
      refine ⟨_, _, .still config (.quiet state.shared.world) fun weight => ?_⟩
      simp only [tally_tokens, place]
      rfl
    · -- The first request is taken off the queue into the hands of the flush.
      rename_i handle rest queue
      refine ⟨_, _, .advance .pop handle, fun weight => ?_⟩
      simp only [tally_tokens, place, queue, Place.tokens, tally_cons, tally_nil]
      simp only [Completion.tokens]
      omega
  | requestIo handle =>
    simp only [flushStep]
    split
    · -- The operation that was popped is gone already.
      rename_i missing
      refine ⟨_, _, .stay config (.useAfterRelease .popped missing) fun weight => ?_⟩
      rw [tally_tokens, place]
      exact Nat.le_add_left _ _
    · split
      · -- A close is shut down first, and stays in hand for its entry.
        rename_i session close
        refine ⟨_, _, .shutdown close, fun weight => ⟨?_, ?_⟩⟩
        · simp only [tally_tokens, place]
          rfl
        · rw [tally_tokens, place]
          exact Nat.le_add_left _ _
      · -- Any other operation takes its entry right here.
        rename_i other
        refine prepare_move config cause ?_ (by rw [place]; rfl) rfl fun done => by rw [place]; rfl
        rw [place]
        cases operation : handle.operation with
        | close session => exact absurd operation (other session)
        | _ => simp [Place.takesEntry, operation, Operation.kind]
  | prepareClose handle =>
    simp only [flushStep]
    split
    · -- The operation that was popped is gone already.
      rename_i missing
      refine ⟨_, _, .stay config (.useAfterRelease .popped missing) fun weight => ?_⟩
      rw [tally_tokens, place]
      exact Nat.le_add_left _ _
    · exact prepare_move config cause (by rw [place]; rfl) (by rw [place]; rfl) rfl
        fun done => by rw [place]; rfl
  | submitClose =>
    exact submitEntries_move config (by rw [place]; rfl) rfl fun done => by rw [place]; rfl
  | submit =>
    exact submitEntries_move config (by rw [place]; rfl) rfl fun done => by rw [place]; rfl
  | _ => exact ⟨_, _, .still config (.quiet state.shared.world) fun weight => rfl⟩

/-- The destructor of an `IOCompletion` is one of the moves. -/
theorem destroyStep_move {worker : Worker m} (place : worker.place = .destroy) :
    ∃ lost gained, Moves config state label worker.tokens
      (destroyStep state.shared worker).2.tokens (destroyStep state.shared worker).1
      lost gained := by
  unfold destroyStep
  split
  · -- The routine has waited for nothing, so there is nothing to destroy.
    rename_i nothing
    refine ⟨_, _, .still config (.quiet state.shared.world) fun weight => ?_⟩
    simp only [tally_tokens, place, nothing]
    rfl
  · rename_i done holds
    dsimp only
    -- Whatever stops the program, the handled operation stays where it is.
    have holding : ∀ weight,
        tally weight [.carried .handled done.handle] ≤ tally weight worker.tokens := by
      intro weight
      simp only [tally_tokens, place, holds, Option.toList_some, List.flatMap_cons,
        List.flatMap_nil, List.append_nil, Completion.tokens]
      omega
    split
    · -- The operation is gone already.
      rename_i missing
      exact ⟨_, _, .stay config (.useAfterRelease .handled missing) holding⟩
    · rename_i cell found
      split
      · -- Its reference count has been used up already.
        rename_i zero
        exact ⟨_, _, .stay config (.releaseAtZero found zero) holding⟩
      · split
        · -- This is the last reference, and the operation goes on to `on_zero_ref`.
          rename_i last
          refine ⟨_, _, .zero found last, fun weight => ?_⟩
          simp only [tally_tokens, place, holds, Option.toList_some, Option.toList_none,
            List.flatMap_cons, List.flatMap_nil, Completion.tokens, Place.tokens, tally_append,
            tally_cons, tally_nil]
          omega
        · -- Other references are left, and this one is all that goes away.
          rename_i positive more
          refine ⟨_, _, .decrement done.handle found (by omega), fun weight => ?_⟩
          simp only [tally_tokens, place, holds, Option.toList_some, Option.toList_none,
            List.flatMap_cons, List.flatMap_nil, Completion.tokens, Place.tokens, tally_append,
            tally_cons, tally_nil]
          omega

/-- A step of a worker in its routine is one of the moves. -/
theorem workStep_move {at_ : Fin n} {interrupted : Bool} {shared : Shared m ω} {worker : Worker m}
    {more : List (Todo m n)} (cause : label = .work at_ interrupted)
    (stepped : workStep config state.shared (state.worker at_) interrupted =
      (shared, worker, more)) :
    ∃ lost gained, Moves config state label (state.worker at_).tokens
      (worker.tokens ++ more.flatMap Todo.tokens) shared lost gained := by
  -- Most places make no calls, so what the worker carries is the whole of it.
  have alone {result : Shared m ω × Worker m} (same : (result.1, result.2, []) = (shared, worker, more))
      (moved : ∃ lost gained, Moves config state label (state.worker at_).tokens result.2.tokens
        result.1 lost gained) :
      ∃ lost gained, Moves config state label (state.worker at_).tokens
        (worker.tokens ++ more.flatMap Todo.tokens) shared lost gained := by
    cases same
    simpa using moved
  cases place : (state.worker at_).place with
  | waitOne =>
    simp only [workStep, place] at stepped
    split at stepped
    · -- A completion is there, and its result is taken out of the ring.
      rename_i done rest completed
      cases stepped
      refine ⟨_, _, .advance (.wait done.result) done.handle, fun weight => ?_⟩
      simp [tally_tokens, place, completed, waitOne_tokens, handleCompletion_tokens, Place.tokens]
      omega
    · -- Nothing has been completed, or the wait was interrupted.
      cases stepped
      refine ⟨_, _, .still config (.quiet state.shared.world) fun weight => ?_⟩
      simp [tally_tokens, place, waitOne_tokens, Place.tokens]
  | handleCompletion =>
    simp only [workStep, place] at stepped
    split at stepped
    · -- The turn began without a completion, so there is nothing to handle.
      rename_i nothing
      cases stepped
      refine ⟨_, _, .still config (.quiet state.shared.world) fun weight => ?_⟩
      simp [tally_tokens, place, nothing, Place.tokens]
    · rename_i handle result holds
      split at stepped
      · -- The operation was released before its completion is handled.
        rename_i missing
        cases stepped
        refine ⟨_, _, .useAfterRelease (.delivered result) missing, fun weight => ?_⟩
        simp [tally_tokens, place, holds, Completion.tokens, Place.tokens]
      · -- The handler runs, and the calls that it makes are carried from here on.
        rename_i alive
        cases stepped
        let result : Shared m ω × List (Todo m n) :=
          handleIoCompletion config state.shared result handle.operation
        refine ⟨_, _, .handle cause place holds alive result.1 result.2 rfl, fun weight => ?_⟩
        simp [tally_tokens, place, holds, Completion.tokens, Place.tokens, result]
        omega
  | processTasks =>
    simp only [workStep, place] at stepped
    cases stepped
    refine ⟨_, _, .still config (.quiet state.shared.world) fun weight => ?_⟩
    simp [tally_tokens, place, Completion.tokens, Place.tokens]
  | destroy =>
    simp only [workStep, place] at stepped
    exact alone stepped (destroyStep_move config place)
  | onZeroRef handle =>
    simp only [workStep, place] at stepped
    refine alone stepped ?_
    unfold onZeroRef
    split
    · -- The operation is gone already.
      rename_i missing
      refine ⟨_, _, .stay config (.useAfterRelease .zeroed missing) fun weight => ?_⟩
      rw [tally_tokens, place]
      exact Nat.le_add_left _ _
    · -- The slot goes back to its pool, and the operation with it.
      rename_i cell found
      refine ⟨_, _, .giveBack found, fun weight => ?_⟩
      simp only [tally_tokens, place, Place.tokens, tally_cons, tally_nil]
      simp only [Completion.tokens]
      omega
  | _ =>
    -- The other places are those of the flush.
    simp only [workStep, place] at stepped
    refine alone stepped ?_
    rw [← place]
    exact flushStep_move config cause

/-- Pushing an operation to the queue of a worker adds it to what is carried. -/
theorem total_pushRequest (weight : Token m → Nat) (pushed : Option (Fin n × Handle m)) :
    (state.pushRequest pushed).total weight =
      state.total weight + tally weight (pushedTokens pushed) := by
  cases pushed with
  | none => rfl
  | some push =>
    -- A push lengthens the queue of one worker by one entry.
    have changed := total_setWorker state weight push.1
      { state.worker push.1 with
        requestQueue := (state.worker push.1).requestQueue ++ [push.2] }
    simp only [tally_tokens, tally_append, tally_cons, tally_nil] at changed
    simp only [State.pushRequest, pushedTokens, Option.toList_some, List.map_cons, List.map_nil,
      tally_cons, tally_nil]
    omega

/-- A step is one of the moves, and what is carried changes by what the move says. -/
def Moved (state : State m n k ω) (label : Label n k ω) (next : State m n k ω) : Prop :=
  ∃ lost gained, Move config state label lost gained next.shared ∧
    ∀ weight,
      next.total weight + tally weight lost = state.total weight + tally weight gained ∧
        tally weight lost ≤ state.total weight

/-- A step inside of a call changes what its thread carries, and the queue it pushes to. -/
theorem run_moved {context : Context n k} {slot : Option Slot} {fails : Bool} {todo : Todo m n}
    {rest more : List (Todo m n)} {shared : Shared m ω} {pushed : Option (Fin n × Handle m)}
    (cause : label = .run context slot fails) (head : state.todo context = todo :: rest)
    (stepped : todoStep config state.shared slot fails todo = some (shared, more, pushed)) :
    Moved config state label
      (((state.setShared shared).setTodo context (more ++ rest)).pushRequest pushed) := by
  obtain ⟨lost, gained, move, total⟩ := todoStep_move config cause head stepped
  -- The push happens after the call, and touches the queue of a worker but nothing shared.
  refine ⟨lost, gained, by cases pushed <;> exact move, fun weight => ?_⟩
  -- What the thread had to do splits into this call and the rest, which stays.
  have total := total weight
  have part := todo_le_total state weight context
  have changed : ((state.setShared shared).setTodo context (more ++ rest)).total weight + _ =
      state.total weight + _ := total_setTodo _ weight context (more ++ rest)
  simp only [State.setShared, head, List.flatMap_cons, List.flatMap_append,
    tally_append] at total changed part
  simp only [total_pushRequest, State.setShared]
  omega

/-- A move of a worker alone is a move of the state. -/
theorem Moves.worker {at_ : Fin n} {worker : Worker m} {shared : Shared m ω}
    {lost gained : List (Token m)}
    (moves : Moves config state label (state.worker at_).tokens worker.tokens shared lost gained) :
    Moved config state label ((state.setShared shared).setWorker at_ worker) := by
  refine ⟨lost, gained, moves.move, fun weight => ?_⟩
  -- The total over the state changes by just what the total over the worker does.
  have total := moves.total weight
  have part := worker_le_total state weight at_
  have replaced : ((state.setShared shared).setWorker at_ worker).total weight + _ =
      state.total weight + _ := total_setWorker _ weight at_ worker
  simp only [State.setShared] at replaced ⊢
  omega

/-- A step of a worker changes what the worker carries, and leaves it with calls to make. -/
theorem work_moved {at_ : Fin n} {interrupted : Bool} {shared : Shared m ω} {worker : Worker m}
    {more : List (Todo m n)} (cause : label = .work at_ interrupted)
    (idle : state.todo (.worker at_) = [])
    (stepped : workStep config state.shared (state.worker at_) interrupted =
      (shared, worker, more)) :
    Moved config state label
      (((state.setShared shared).setWorker at_ worker).setTodo (.worker at_) more) := by
  obtain ⟨lost, gained, move, total⟩ := workStep_move config cause stepped
  refine ⟨lost, gained, move, fun weight => ?_⟩
  -- First the worker is replaced, then it gets the calls to make, of which it had none before.
  have total := total weight
  have part := worker_le_total state weight at_
  have replaced : ((state.setShared shared).setWorker at_ worker).total weight + _ =
      state.total weight + _ := total_setWorker _ weight at_ worker
  have called := total_setTodo ((state.setShared shared).setWorker at_ worker)
    weight (.worker at_) more
  simp only [State.setWorker, State.setShared, idle, List.flatMap_nil, tally_nil,
    tally_append] at replaced called total ⊢
  omega

/-- A call that application code makes carries nothing yet. -/
theorem called_moved {context : Context n k} {call : ActorCall} (idle : state.todo context = []) :
    Moved config state label (state.setTodo context [.call call]) := by
  refine ⟨_, _, .quiet state.shared.world, fun weight => ⟨?_, Nat.zero_le _⟩⟩
  have called := total_setTodo state weight context [.call call]
  simp only [idle, List.flatMap_nil, tally_nil] at called
  exact called

/-- Starting on an entry takes it from those submitted to those that the kernel works on. -/
theorem start_moved {at_ : Fin n} {i : Nat} {entry : Entry m} (cause : label = .start at_ i)
    (found : (state.worker at_).submitted[i]? = some entry) :
    Moved config state label
      ((state.setShared (startEntry state.shared entry).1).setWorker at_ { state.worker at_ with
        submitted := (state.worker at_).submitted.eraseIdx i
        started := (state.worker at_).started ++ [(startEntry state.shared entry).2] }) := by
  refine Moves.worker config ⟨.start cause found, fun weight => ?_⟩
  -- The entry is erased at its index and appended to the others, so its weight only moves.
  have erased := tally_eraseIdx
    (fun entry => weight (.carried (.submitted entry.fd) entry.handle)) found
  simp only [tally_tokens, tally_append, tally_cons, tally_nil, startEntry] at erased ⊢
  omega

/-- Completing an operation takes it from those worked on to those completed. -/
theorem complete_moved {at_ : Fin n} {i : Nat} {result : Int} {data : List Byte}
    {started : Started m} {shared : Shared m ω} (cause : label = .complete at_ i result data)
    (found : (state.worker at_).started[i]? = some started)
    (done : completeStarted config state.shared started result data = some shared) :
    Moved config state label
      ((state.setShared (shared.record [.completed started.handle result])).setWorker at_
        { state.worker at_ with
          started := (state.worker at_).started.eraseIdx i
          completed := (state.worker at_).completed ++ [⟨started.handle, result⟩] }) := by
  refine Moves.worker config ⟨.complete cause found done, fun weight => ?_⟩
  -- The operation is erased at its index and appended to the others, so its weight only moves.
  have erased := tally_eraseIdx
    (fun started => weight (.carried (.started started.connection) started.handle)) found
  simp only [tally_tokens, tally_append, tally_cons, tally_nil] at erased ⊢
  omega

/-- Every step of the service is one of the moves. -/
theorem step_moved {next : State m n k ω} (taken : step config state label = some next) :
    state.shared.fault = none ∧ Moved config state label next := by
  unfold step at taken
  split at taken
  · -- A stopped program takes no step.
    cases taken
  · rename_i running
    refine ⟨by simpa using running, ?_⟩
    split at taken
    · -- A thread goes on in the call that it is in.
      split at taken
      · cases taken
      · rename_i head
        obtain ⟨⟨shared, more, pushed⟩, stepped, rfl⟩ := Option.map_eq_some_iff.mp taken
        exact run_moved config rfl head stepped
    · -- A worker goes on in its routine, once it has made all its calls.
      split at taken
      · rename_i ready
        cases taken
        exact work_moved config rfl ready.2 rfl
      · cases taken
    · -- Application code makes a call, from a thread of its own or in a task of a worker.
      split at taken
      · rename_i idle
        cases taken
        exact called_moved config idle
      · cases taken
    · split at taken
      · rename_i ready
        cases taken
        exact called_moved config ready.2
      · cases taken
    · -- The world changes by itself.
      rename_i world
      cases taken
      exact ⟨_, _, .quiet world, fun weight => ⟨rfl, Nat.zero_le _⟩⟩
    · -- The kernel starts on an entry, or completes one.
      obtain ⟨entry, found, rfl⟩ := Option.map_eq_some_iff.mp taken
      exact start_moved config rfl found
    · obtain ⟨started, found, completed⟩ := Option.bind_eq_some_iff.mp taken
      obtain ⟨shared, done, rfl⟩ := Option.map_eq_some_iff.mp completed
      exact complete_moved config rfl found done

end Step

end Braid.Service
