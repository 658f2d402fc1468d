import Braid.Service.ReceiveBuffer

/-! What every session makes of its stream of bytes, while many workers handle the completions. -/

namespace Braid.Service

open Counting Transition
open Memory (Slot)

/--
What is remembered of the bytes of a session.

The bytes that `on_received` has been run for, those of a recv that is completed and still to be
handled, and the calls of `dispatch`.
-/
structure Stream where
  handled : List Byte := []
  waiting : List Byte := []
  dispatched : List (Int × List Byte) := []
  deriving DecidableEq

/-- The bytes that the kernel has put into the buffer of the session. -/
def Stream.arrived (stream : Stream) : List Byte := stream.handled ++ stream.waiting

variable {m n k : Nat} {ω : Type}

/-- The kernel completes a recv of the session with these bytes. -/
def Stream.fill (data : List Byte) (stream : Stream) : Stream :=
  { stream with waiting := stream.waiting ++ data }

/-- `on_received` is run for the bytes that wait, and makes these calls of `dispatch`. -/
def Stream.handle (calls : List (Int × List Byte)) (stream : Stream) : Stream where
  handled := stream.handled ++ stream.waiting
  waiting := []
  dispatched := stream.dispatched ++ calls

/-- The calls of `dispatch` that the loop in `on_received` makes for a completed recv. -/
def dispatchedBy (config : Config ω) (shared : Shared m ω) (session : Fin m) (result : Int) :
    List (Int × List Byte) :=
  match ServiceSession.onReceivedLoop config.dispatcher (shared.sessions session).mainActor
      config.turns (shared.received session result) with
  | .ok receiver => receiver.dispatched
  | .error _ => []

/-- What is remembered of the streams when a recv of a session is completed. -/
def Stream.completed (started : Option (Started m)) (result : Int) (data : List Byte)
    (streams : Fin m → Stream) : Fin m → Stream :=
  match started with
  | some ⟨⟨_, .recv session _⟩, _⟩ =>
    if result < 0 then streams
    else Function.update streams session ((streams session).fill data)
  | _ => streams

/-- What is remembered of the streams when a completion is handled. -/
def Stream.delivered (config : Config ω) (shared : Shared m ω) (completion : Option (Completion m))
    (streams : Fin m → Stream) : Fin m → Stream :=
  match completion with
  | some ⟨⟨id, .recv session _⟩, result⟩ =>
    if result < 0 ∨ shared.memory id = none then streams
    else Function.update streams session
      ((streams session).handle (dispatchedBy config shared session result))
  | _ => streams

/-- What is remembered of the streams when a step has been taken. -/
def Stream.after (config : Config ω) (state : State m n k ω) (label : Label n k ω)
    (_ : State m n k ω) (streams : Fin m → Stream) : Fin m → Stream :=
  match label with
  | .complete at_ i result data => Stream.completed (state.worker at_).started[i]? result data streams
  | .work at_ _ =>
    if (state.worker at_).place = .handleCompletion then
      Stream.delivered config state.shared (state.worker at_).completion streams
    else streams
  | _ => streams

/-- The bytes of a recv of the session that is completed and still to be handled. -/
def Token.landed (session : Fin m) : Token m → Nat
  | .carried (.completed result) handle =>
    if handle.operation.Receives session then result.toNat else 0
  | .carried (.delivered result) handle =>
    if handle.operation.Receives session then result.toNat else 0
  | _ => 0

/-- The buffer of every session agrees with what is remembered of its stream. -/
structure Streaming (state : State m n k ω) (streams : Fin m → Stream) : Prop where
  held : ∀ session, (state.shared.sessions session).object.Holds
    (messageFraming.drain (streams session).handled).2
  waits : ∀ session, (messageFraming.drain (streams session).handled).2 ++
    (streams session).waiting <+: (state.shared.sessions session).object.buffer
  dispatched : ∀ session, (streams session).dispatched =
    (messageFraming.drain (streams session).handled).1.map ServiceSession.callOf
  landed : ∀ session, (streams session).waiting.length = state.total (Token.landed session)

variable {config : Config ω} {state next : State m n k ω} {label : Label n k ω}
  {lost gained : List (Token m)} {after : Shared m ω} {streams : Fin m → Stream}

/-- Bytes land only in a recv that is posted. -/
theorem landed_eq_zero {session : Fin m} {token : Token m} (unposted : token.posted session = 0) :
    token.landed session = 0 := by
  cases token with
  | carried phase handle =>
    -- A recv that has landed is outstanding, and so it counts as posted.
    cases phase <;> simp_all [Token.landed, Token.posted, Phase.outstanding]
  | _ => rfl

/-- A quantity that counts nowhere has no total. -/
theorem total_eq_zero {first second : Token m → Nat} (zero : state.total first = 0)
    (none_ : ∀ token, first token = 0 → second token = 0) : state.total second = 0 := by
  simp only [State.total, Nat.add_eq_zero_iff, Finset.sum_eq_zero_iff, tally_eq_zero] at zero ⊢
  exact ⟨fun context member token listed => none_ token (zero.1 context member token listed),
    fun at_ member token listed => none_ token (zero.2 at_ member token listed)⟩

/-- A step that neither completes a recv nor handles one leaves the buffers as they are. -/
theorem Streaming.aside (streaming : Streaming state streams)
    (same : ∀ session, (next.shared.sessions session).object.buffer =
        (state.shared.sessions session).object.buffer ∧
      (next.shared.sessions session).object.commitedSize =
        (state.shared.sessions session).object.commitedSize)
    (total : ∀ session, next.total (Token.landed session) = state.total (Token.landed session)) :
    Streaming next streams where
  -- The bytes and their number are the same, and so is what has landed.
  held session := by
    obtain ⟨count, front⟩ := streaming.held session
    exact ⟨(same session).2.trans count, by rw [(same session).1]; exact front⟩
  waits session := by rw [(same session).1]; exact streaming.waits session
  dispatched := streaming.dispatched
  landed session := (streaming.landed session).trans (total session).symm

/-- What a worker carries is carried in the state. -/
theorem carries_worker {at_ : Fin n} {token : Token m} (member : token ∈ (state.worker at_).tokens) :
    0 < state.carries token := by
  have part := worker_le_total state (fun other => if other = token then 1 else 0) at_
  rw [← count_eq_tally] at part
  exact Nat.lt_of_lt_of_le (List.count_pos_iff.mpr member) part

/-- The totals of two quantities add up. -/
theorem total_add (first second : Token m → Nat) :
    state.total (fun token => first token + second token) =
      state.total first + state.total second := by
  simp only [State.total, tally_add, Finset.sum_add_distrib]
  omega

/-- Where a recv of a session is worked on by the kernel, no bytes of the session have landed. -/
theorem Receiving.nothing_landed (receiving : Receiving state) {session : Fin m} {id : Nat}
    {buffer : Span} {connection : Option (Connection m)}
    (present : 0 < state.carries (.carried (.started connection) ⟨id, .recv session buffer⟩)) :
    state.total (Token.landed session) = 0 := by
  -- The recv that is worked on and one that has landed would be two that are posted.
  have each (token : Token m) :
      (if token = .carried (.started connection) ⟨id, .recv session buffer⟩ then 1 else 0) +
        (if token.landed session = 0 then 0 else 1) ≤ token.receiving session := by
    have posted := posted_le_receiving session token
    by_cases same : token = .carried (.started connection) ⟨id, .recv session buffer⟩
    · subst same
      simpa [Token.landed, Token.posted, Operation.Receives, Operation.kind, Operation.session,
        Phase.outstanding] using posted
    · rw [if_neg same]
      split
      · exact Nat.zero_le _
      · rename_i landed
        have counts : token.posted session ≠ 0 := fun none_ => landed (landed_eq_zero none_)
        omega
  have both : state.total _ ≤ state.total _ := total_mono each
  have single := receiving.single session
  rw [total_add] at both
  have some_ : 0 < state.total fun token =>
      if token = .carried (.started connection) ⟨id, .recv session buffer⟩ then 1 else 0 := present
  have unlanded : (state.total fun token => if token.landed session = 0 then 0 else 1) = 0 := by
    omega
  refine total_eq_zero unlanded fun token none_ => ?_
  by_contra landed
  simp [landed] at none_

/-- Completing an operation moves what it weighs from the one phase to the other. -/
theorem completed_total {at_ : Fin n} {i : Nat} {started : Started m}
    (found : (state.worker at_).started[i]? = some started) (shared : Shared m ω) (result : Int)
    (weight : Token m → Nat) :
    ((state.setShared shared).setWorker at_ { state.worker at_ with
        started := (state.worker at_).started.eraseIdx i
        completed := (state.worker at_).completed ++ [⟨started.handle, result⟩] }).total weight +
      weight (.carried (.started started.connection) started.handle) =
    state.total weight + weight (.carried (.completed result) started.handle) := by
  have replaced : ((state.setShared shared).setWorker at_ { state.worker at_ with
      started := (state.worker at_).started.eraseIdx i
      completed := (state.worker at_).completed ++ [⟨started.handle, result⟩] }).total weight + _ =
    state.total weight + _ := total_setWorker _ weight at_ _
  -- One entry is taken from those that the kernel works on.
  have erased := tally_eraseIdx
    (fun started => weight (.carried (.started started.connection) started.handle)) found
  simp only [State.setShared, tally_tokens, tally_append, tally_cons, tally_nil] at replaced erased ⊢
  omega

/-- Handling a completion replaces what it weighs by what the calls that follow do. -/
theorem handled_total {at_ : Fin n} {handle : Handle m} {result : Int}
    (place : (state.worker at_).place = .handleCompletion)
    (holds : (state.worker at_).completion = some ⟨handle, result⟩)
    (idle : state.todo (.worker at_) = []) (shared : Shared m ω) (more : List (Todo m n))
    (weight : Token m → Nat) :
    (((state.setShared shared).setWorker at_
        { state.worker at_ with place := .flushEmpty }).setTodo (.worker at_) more).total weight +
      weight (.carried (.delivered result) handle) =
    state.total weight + weight (.carried .handled handle) +
      tally weight (more.flatMap Todo.tokens) := by
  -- First the worker goes on to its flush, and then it gets the calls to make.
  have replaced : ((state.setShared shared).setWorker at_
      { state.worker at_ with place := .flushEmpty }).total weight + _ = state.total weight + _ :=
    total_setWorker _ weight at_ _
  have called := total_setTodo ((state.setShared shared).setWorker at_
    { state.worker at_ with place := .flushEmpty }) weight (.worker at_) more
  simp only [State.setWorker, State.setShared, idle, List.flatMap_nil, tally_nil, tally_tokens,
    place, holds, Option.toList_some, List.flatMap_cons, Completion.tokens, Place.tokens,
    List.append_nil, tally_cons] at replaced called ⊢
  omega

/-- A recv that completes puts its bytes behind those that its session holds. -/
theorem Streaming.fill (receiving : Receiving state) (streaming : Streaming state streams)
    {at_ : Fin n} {i : Nat} {result : Int} {data : List Byte} {id : Nat} {session : Fin m}
    {buffer : Span} {connection : Option (Connection m)} {shared : Shared m ω}
    (found : (state.worker at_).started[i]? = some ⟨⟨id, .recv session buffer⟩, connection⟩)
    (positive : 0 ≤ result)
    (done : completeStarted config state.shared ⟨⟨id, .recv session buffer⟩, connection⟩ result
      data = some shared)
    (sessions : next.shared.sessions = shared.sessions)
    (total : ∀ weight, next.total weight +
        weight (.carried (.started connection) ⟨id, .recv session buffer⟩) =
      state.total weight + weight (.carried (.completed result) ⟨id, .recv session buffer⟩)) :
    Streaming next (Function.update streams session ((streams session).fill data)) := by
  -- The recv is carried by the worker, so its span is the room behind what the session holds.
  have present : 0 < state.carries (.carried (.started connection) ⟨id, .recv session buffer⟩) :=
    carries_worker (show _ ∈ (state.worker at_).tokens by
      simp only [Worker.tokens, List.mem_append, List.mem_map]
      exact .inl (.inl (.inl (.inr ⟨_, List.mem_of_getElem? found, rfl⟩))))
  have span := receiving.carried _ id session buffer present rfl
  have bounded := receiving.bounded session
  have nothing := receiving.nothing_landed present
  have empty : (streams session).waiting = [] :=
    List.eq_nil_of_length_eq_zero ((streaming.landed session).trans nothing)
  simp only [completeStarted] at done
  rw [if_neg (by omega)] at done
  split at done
  · rename_i fits
    obtain ⟨_, count, length⟩ := fits
    have room := remainSpan_length bounded
    rw [← span] at room
    have enough : (data.length : Int) ≤
        (state.shared.sessions session).object.remainSpan.size := by
      simp only [IOUringObject.remainSpan]
      omega
    obtain ⟨filled, wrote, holds⟩ := (streaming.held session).fill enough
    rw [span, wrote] at done
    cases done
    have commited := write_commitedSize wrote
    -- The other sessions are as before, and the one that has received has as many bytes more.
    refine ⟨fun other => ?_, fun other => ?_, fun other => ?_, fun other => ?_⟩ <;>
      by_cases same : other = session
    · subst same
      rw [sessions, Function.update_self]
      simp only [Shared.setSession, Function.update_self, Stream.fill]
      exact ⟨commited.trans (streaming.held other).1,
        (List.prefix_append _ _).trans holds.2⟩
    · rw [sessions, Function.update_of_ne same]
      simpa only [Shared.setSession, Function.update_of_ne same] using streaming.held other
    · subst same
      rw [sessions, Function.update_self]
      simp only [Shared.setSession, Function.update_self, Stream.fill, empty, List.nil_append]
      exact holds.2
    · rw [sessions, Function.update_of_ne same]
      simpa only [Shared.setSession, Function.update_of_ne same] using streaming.waits other
    · subst same
      simpa only [Function.update_self, Stream.fill] using streaming.dispatched other
    · rw [Function.update_of_ne same]
      exact streaming.dispatched other
    · subst same
      have moved := total (Token.landed other)
      simp only [Token.landed, Operation.Receives, Operation.kind, Operation.session, and_self,
        if_true] at moved
      rw [Function.update_self]
      simp only [Stream.fill, empty, List.nil_append]
      omega
    · have moved := total (Token.landed other)
      have foreign : ¬ (Operation.recv session buffer).Receives other := fun receives =>
        same receives.2.symm
      simp only [Token.landed, if_neg foreign] at moved
      rw [Function.update_of_ne same]
      exact (streaming.landed other).trans (by omega)
  · cases done

/-- A recv that is handled extracts the frames from what its session holds and has received. -/
theorem Streaming.handle (careful : ServiceSession.Careful config.dispatcher)
    (enough : ServiceSession.maxTurns < config.turns) (receiving : Receiving state)
    (streaming : Streaming state streams) {result : Int} {id : Nat} {session : Fin m}
    {buffer : Span} {shared : Shared m ω} {more : List (Todo m n)} (positive : 0 ≤ result)
    (handled : handleIoCompletion config state.shared result (.recv session buffer) =
      (shared, more))
    (sessions : next.shared.sessions = shared.sessions)
    (total : ∀ weight, next.total weight +
        weight (.carried (.delivered result) ⟨id, .recv session buffer⟩) =
      state.total weight + weight (.carried .handled ⟨id, .recv session buffer⟩) +
        tally weight (more.flatMap Todo.tokens)) :
    Streaming next (Function.update streams session
      ((streams session).handle (dispatchedBy config state.shared session result))) := by
  -- Nothing of the session is posted any more, and so nothing of it has landed.
  have posted : next.total (Token.posted session) = 0 := by
    have moved := total (Token.posted session)
    rw [posted_calls session handled] at moved
    have atMost : state.total (Token.posted session) ≤ 1 :=
      Nat.le_trans (total_mono (posted_le_receiving session)) (receiving.single session)
    simp [Token.posted, Operation.Receives, Operation.kind, Operation.session,
      Phase.outstanding] at moved
    omega
  have nothing : next.total (Token.landed session) = 0 :=
    total_eq_zero posted fun _ => landed_eq_zero
  have others (other : Fin m) : tally (Token.landed other) (more.flatMap Todo.tokens) = 0 :=
    tally_eq_zero.mpr fun token member => by rw [handleIoCompletion_tokens handled token member]; rfl
  have landed := total (Token.landed session)
  rw [nothing, others] at landed
  simp only [Token.landed, Operation.Receives, Operation.kind, Operation.session, and_self,
    if_true] at landed
  -- The loop starts from what the session holds and the bytes that were waiting.
  obtain ⟨count, -⟩ := streaming.held session
  have waiting := streaming.landed session
  have holds : (state.shared.received session result).object.Holds
      ((messageFraming.drain (streams session).handled).2 ++ (streams session).waiting) := by
    refine ⟨?_, streaming.waits session⟩
    show _ + result = _
    rw [List.length_append, count]
    omega
  have length := holds.length_le
  have sizes := careful.keepsSizes (state.shared.sessions session).mainActor
    ((messageFraming.drain (streams session).handled).2 ++ (streams session).waiting)
    (state.shared.received session result).world
  obtain ⟨object, looped, kept, _⟩ := ServiceSession.onReceivedLoop_kept _ _ config.turns _ holds
    sizes (by
      simp only [ServiceSession.maxTurns, maxReceiveBufferSize, sizeofMessageHeader] at *
      omega)
  have calls : dispatchedBy config state.shared session result =
      (messageFraming.drain ((messageFraming.drain (streams session).handled).2 ++
        (streams session).waiting)).1.map ServiceSession.callOf := by
    simp only [dispatchedBy, looped]
    rfl
  have drained := Framing.drain_append messageFraming (streams session).handled
    (streams session).waiting
  simp only [handleIoCompletion] at handled
  rw [if_neg (by omega)] at handled
  simp only [Shared.received] at looped
  rw [looped] at handled
  cases handled
  refine ⟨fun other => ?_, fun other => ?_, fun other => ?_, fun other => ?_⟩ <;>
    by_cases same : other = session
  · subst same
    rw [sessions, Function.update_self]
    simpa only [Shared.setSession, Function.update_self, Stream.handle, drained] using kept
  · rw [sessions, Function.update_of_ne same]
    simpa only [Shared.setSession, Function.update_of_ne same] using streaming.held other
  · subst same
    rw [sessions, Function.update_self]
    simpa only [Shared.setSession, Function.update_self, Stream.handle, drained,
      List.append_nil] using kept.2
  · rw [sessions, Function.update_of_ne same]
    simpa only [Shared.setSession, Function.update_of_ne same] using streaming.waits other
  · subst same
    rw [Function.update_self]
    simp only [Stream.handle, drained, List.map_append, calls, streaming.dispatched other]
  · rw [Function.update_of_ne same]
    exact streaming.dispatched other
  · subst same
    rw [Function.update_self]
    exact nothing.symm
  · have moved := total (Token.landed other)
    have foreign : ¬ (Operation.recv session buffer).Receives other := fun receives =>
      same receives.2.symm
    rw [others] at moved
    simp only [Token.landed, if_neg foreign] at moved
    rw [Function.update_of_ne same]
    exact (streaming.landed other).trans (by omega)

/-- A step that neither handles a completion nor completes an operation leaves the buffers alone. -/
theorem Move.still (move : Move config state label lost gained after)
    (unhandled : ∀ at_ interrupted handle result, label = .work at_ interrupted →
      (state.worker at_).place = .handleCompletion →
      (state.worker at_).completion = some ⟨handle, result⟩ →
        state.shared.memory handle.id = none)
    (uncompleted : ∀ at_ i result data, label ≠ .complete at_ i result data) (session : Fin m) :
    after.sessions = state.shared.sessions ∧
      tally (Token.landed session) gained = tally (Token.landed session) lost := by
  cases move with
  | handle cause place found alive shared more handled =>
    exact absurd (unhandled _ _ _ _ cause place found) alive
  | complete cause found done => exact absurd cause (uncompleted _ _ _ _)
  | start cause found =>
    rw [startEntry_frame]
    exact ⟨rfl, by simp [Token.landed]⟩
  -- A wait hands the result on, and the other phases have none.
  | advance plain handle => cases plain <;> exact ⟨rfl, by simp [Token.landed]⟩
  | submit entries => exact ⟨rfl, by simp [Token.landed]⟩
  | _ => exact ⟨rfl, by simp [Token.landed]⟩

/-- The bytes and the count of every session are left alone by what only connects it. -/
theorem Handled.still {shared after : Shared m ω} {result : Int} {operation : Operation m}
    {more : List (Todo m n)} (handled : Handled shared result operation after more)
    (other : operation.kind = .recv → result < 0) (session : Fin m) :
    (after.sessions session).object.buffer = (shared.sessions session).object.buffer ∧
      (after.sessions session).object.commitedSize =
        (shared.sessions session).object.commitedSize := by
  -- Of the four results, only a successful recv changes the bytes that count.
  cases handled with
  | nothing calls => exact ⟨rfl, rfl⟩
  | @accepted owner listenFd accepted actors positive object made =>
    -- An accept gives its session a descriptor and nothing else that counts here.
    by_cases same : session = owner
    · subst same
      simp [Shared.setSession, object, IOUringObject.setSocketFd]
    · simp [Shared.setSession, same]
  | received positive socketFd =>
    have negative := other rfl
    omega
  | stopped failure => exact ⟨rfl, rfl⟩

/-- A step of the kernel that completes an operation. -/
theorem step_complete {at_ : Fin n} {i : Nat} {result : Int} {data : List Byte}
    (taken : step config state (.complete at_ i result data) = some next) :
    ∃ started shared, (state.worker at_).started[i]? = some started ∧
      completeStarted config state.shared started result data = some shared ∧
      next = (state.setShared (shared.record [.completed started.handle result])).setWorker at_
        { state.worker at_ with
          started := (state.worker at_).started.eraseIdx i
          completed := (state.worker at_).completed ++ [⟨started.handle, result⟩] } := by
  unfold step at taken
  split at taken
  · cases taken
  · obtain ⟨started, found, completed⟩ := Option.bind_eq_some_iff.mp taken
    obtain ⟨shared, done, rfl⟩ := Option.map_eq_some_iff.mp completed
    exact ⟨started, shared, found, done, rfl⟩

/-- A step of a worker that handles a completion. -/
theorem step_handle {at_ : Fin n} {interrupted : Bool} {handle : Handle m} {result : Int}
    (place : (state.worker at_).place = .handleCompletion)
    (holds : (state.worker at_).completion = some ⟨handle, result⟩)
    (alive : state.shared.memory handle.id ≠ none)
    (taken : step config state (.work at_ interrupted) = some next) :
    ∃ shared more, state.todo (.worker at_) = [] ∧
      handleIoCompletion config state.shared result handle.operation = (shared, more) ∧
      next = ((state.setShared (shared.record [.handled handle result])).setWorker at_
        { state.worker at_ with place := .flushEmpty }).setTodo (.worker at_) more := by
  unfold step at taken
  split at taken
  · cases taken
  · simp only at taken
    split at taken
    · rename_i ready
      cases taken
      obtain ⟨shared, more, handled⟩ : ∃ shared more,
          (handleIoCompletion config state.shared result handle.operation :
            Shared m ω × List (Todo m n)) = (shared, more) := ⟨_, _, rfl⟩
      -- The worker goes on to its flush when its calls have returned.
      refine ⟨shared, more, ready.2, handled, ?_⟩
      simp only [workStep, place, holds, if_neg alive, handled]
    · cases taken

/-- Every step keeps the buffers in agreement with the streams. -/
theorem step_streaming (careful : ServiceSession.Careful config.dispatcher)
    (enough : ServiceSession.maxTurns < config.turns) (receiving : Receiving state)
    (streaming : Streaming state streams) (taken : step config state label = some next) :
    Streaming next (Stream.after config state label next streams) := by
  -- A step that does not handle a completion and completes nothing only moves what is carried.
  have otherwise (same : Stream.after config state label next streams = streams)
      (unhandled : ∀ at_ interrupted handle result, label = .work at_ interrupted →
        (state.worker at_).place = .handleCompletion →
        (state.worker at_).completion = some ⟨handle, result⟩ →
          state.shared.memory handle.id = none)
      (uncompleted : ∀ at_ i result data, label ≠ .complete at_ i result data) :
      Streaming next (Stream.after config state label next streams) := by
    obtain ⟨_, lost, gained, move, total⟩ := step_moved config taken
    rw [same]
    refine streaming.aside (fun session => ?_) fun session => ?_
    · rw [(move.still unhandled uncompleted session).1]
      exact ⟨rfl, rfl⟩
    · have counted := (total (Token.landed session)).1
      have moved := (move.still unhandled uncompleted session).2
      omega
  -- Two kinds of steps reach a stream: a completion, and its handling.
  cases label with
  | complete at_ i result data =>
    obtain ⟨⟨⟨id, operation⟩, connection⟩, shared, found, done, rfl⟩ := step_complete taken
    have total := completed_total found (shared.record [.completed ⟨id, operation⟩ result]) result
    simp only [Stream.after, found]
    by_cases receives : operation.kind = .recv ∧ 0 ≤ result
    · obtain ⟨kind, positive⟩ := receives
      cases operation with
      | recv session buffer =>
        simp only [Stream.completed, if_neg (Int.not_lt.mpr positive)]
        exact streaming.fill receiving found positive done rfl total
      | _ => cases kind
    · -- Bytes arrive only by a recv that does not fail.
      have same : Stream.completed (some ⟨⟨id, operation⟩, connection⟩) result data streams =
          streams := by
        cases operation with
        | recv session buffer =>
          have negative : result < 0 := Int.not_le.mp fun positive => receives ⟨rfl, positive⟩
          simp only [Stream.completed, if_pos negative]
        | _ => rfl
      rw [same]
      refine streaming.aside (fun session => ?_) fun session => ?_
      · cases completeStarted_completed done with
        | received positive socketFd => exact absurd ⟨rfl, positive⟩ receives
        | _ => exact ⟨rfl, rfl⟩
      · have moved := total (Token.landed session)
        have light : (Token.carried (.completed result) ⟨id, operation⟩).landed session = 0 := by
          simp only [Token.landed]
          split
          · rename_i own
            have negative : result < 0 := Int.not_le.mp fun positive => receives ⟨own.1, positive⟩
            omega
          · rfl
        rw [light] at moved
        simpa only [Token.landed, Nat.add_zero] using moved
  | work at_ interrupted =>
    by_cases handles : (state.worker at_).place = .handleCompletion ∧ ∃ handle result,
        (state.worker at_).completion = some ⟨handle, result⟩ ∧
          state.shared.memory handle.id ≠ none
    · obtain ⟨place, ⟨id, operation⟩, result, holds, alive⟩ := handles
      obtain ⟨shared, more, idle, handled, rfl⟩ := step_handle place holds alive taken
      have total := handled_total place holds idle
        (shared.record [.handled ⟨id, operation⟩ result]) more
      generalize finish : State.setTodo _ _ more = next at total ⊢
      have remembered : Stream.after config state (.work at_ interrupted) next streams =
          Stream.delivered config state.shared (some ⟨⟨id, operation⟩, result⟩) streams := by
        simp only [Stream.after, if_pos place, holds]
      have sessions : next.shared.sessions = shared.sessions := by rw [← finish]; rfl
      rw [remembered]
      by_cases receives : operation.kind = .recv ∧ 0 ≤ result
      · obtain ⟨kind, positive⟩ := receives
        cases operation with
        | recv session buffer =>
          simp only [Stream.delivered]
          rw [if_neg (by simp only [not_or]; exact ⟨Int.not_lt.mpr positive, alive⟩)]
          exact streaming.handle careful enough receiving positive handled sessions total
        | _ => cases kind
      · -- What is handled is no recv, or one that has failed.
        have same : Stream.delivered config state.shared (some ⟨⟨id, operation⟩, result⟩) streams =
            streams := by
          cases operation with
          | recv session buffer =>
            have negative : result < 0 := Int.not_le.mp fun positive => receives ⟨rfl, positive⟩
            simp only [Stream.delivered, if_pos (Or.inl negative)]
          | _ => rfl
        rw [same]
        refine streaming.aside (fun session => ?_) fun session => ?_
        · rw [sessions]
          exact (handleIoCompletion_handled handled).still
            (fun kind => Int.not_le.mp fun positive => receives ⟨kind, positive⟩) session
        · have moved := total (Token.landed session)
          have calls : tally (Token.landed session) (more.flatMap Todo.tokens) = 0 :=
            tally_eq_zero.mpr fun token member => by
              rw [handleIoCompletion_tokens handled token member]; rfl
          have light : (Token.carried (.delivered result) ⟨id, operation⟩).landed session = 0 := by
            simp only [Token.landed]
            split
            · rename_i own
              have negative : result < 0 :=
                Int.not_le.mp fun positive => receives ⟨own.1, positive⟩
              omega
            · rfl
          rw [light, calls] at moved
          simpa only [Token.landed, Nat.add_zero] using moved
    · -- The worker is at another place of its routine, or has nothing to handle.
      have unhandled : ∀ other again handle result,
          (Label.work at_ interrupted : Label n k ω) = .work other again →
          (state.worker other).place = .handleCompletion →
          (state.worker other).completion = some ⟨handle, result⟩ →
            state.shared.memory handle.id = none := by
        rintro other again handle result same place holds
        cases same
        by_contra alive
        exact handles ⟨place, handle, result, holds, alive⟩
      refine otherwise ?_ unhandled (fun _ _ _ _ => by simp)
      simp only [Stream.after]
      split
      · rename_i place
        unfold Stream.delivered
        split
        · rename_i id session buffer result holds
          rw [if_pos (.inr (unhandled at_ interrupted _ _ rfl place holds))]
        · rfl
      · rfl
  | _ => exact otherwise rfl (fun _ _ _ _ cause => by cases cause) (fun _ _ _ _ => by simp)

/-- When the service starts, no session has received anything. -/
theorem init_streaming (config : Config ω) (world : ω) :
    Streaming (State.init m n k config world) fun _ => {} where
  held _ := by rw [Framing.drain_stop rfl]; exact IOUringObject.holds_nil rfl
  waits _ := by rw [Framing.drain_stop rfl]; exact List.nil_prefix
  dispatched _ := by rw [Framing.drain_stop rfl]; rfl
  landed _ := (init_total config world _).symm

/-- In every run the buffers agree with the streams. -/
theorem run_streaming (careful : ServiceSession.Careful config.dispatcher)
    (enough : ServiceSession.maxTurns < config.turns) {world : ω} {labels : List (Label n k ω)}
    (run : Run (track (step config) (Stream.after config)) anyStep
      (State.init m n k config world, fun _ => {}) labels (state, streams)) :
    Streaming state streams := by
  -- They do as long as each session has one recv at most.
  have kept := run.invariant
    (P := fun seen => Streaming seen.1 seen.2 ∧ Receiving seen.1 ∧ Settled seen.1)
    ⟨init_streaming config world, init_receiving config world, init_settled config world⟩ (by
      rintro seen label next ⟨streaming, receiving, settled⟩ _ taken
      obtain ⟨stepped, recorded⟩ := track_eq_some.mp taken
      rw [← recorded]
      exact ⟨step_streaming careful enough receiving streaming stepped,
        step_receiving careful enough receiving settled stepped, step_settled settled stepped⟩)
  exact kept.1

/--
What a session has made of the bytes that the kernel has put into its buffer.

The calls of `dispatch` are those for the complete frames of the bytes handled, the bytes committed
are what follows the last of these frames, and no byte is lost, repeated or out of order.
-/
structure Framed (state : State m n k ω) (session : Fin m) (stream : Stream) : Prop where
  frames : stream.dispatched =
    (messageFraming.drain stream.handled).1.map ServiceSession.callOf
  committed : (state.shared.sessions session).object.receivedSpan =
    (messageFraming.drain stream.handled).2
  conserved : (stream.dispatched.map Prod.snd).flatten ++
    (state.shared.sessions session).object.receivedSpan ++ stream.waiting = stream.arrived
  settled : state.total (Token.posted session) = 0 → stream.waiting = []

/--
Every session frames its own stream in every run, whatever the workers and the other sessions do.

The order of the completions, the worker that handles each of them and the cut of the stream into
recvs make no difference: the frames are those of the bytes that have arrived, each dispatched
once and in order.
-/
theorem streams_framed (careful : ServiceSession.Careful config.dispatcher)
    (enough : ServiceSession.maxTurns < config.turns) {world : ω} {labels : List (Label n k ω)}
    (run : Run (track (step config) (Stream.after config)) anyStep
      (State.init m n k config world, fun _ => {}) labels (state, streams)) (session : Fin m) :
    Framed state session (streams session) := by
  have streaming := run_streaming careful enough run
  have committed := (streaming.held session).receivedSpan
  refine ⟨streaming.dispatched session, committed, ?_, fun unposted => ?_⟩
  · -- What is dispatched and what is kept are the bytes handled, cut into frames.
    rw [streaming.dispatched session, committed, List.map_map]
    have messages : Prod.snd ∘ ServiceSession.callOf = id := rfl
    rw [messages, List.map_id, Framing.drain_join, Stream.arrived]
  · -- What has landed belongs to a recv that is posted.
    refine List.eq_nil_of_length_eq_zero ((streaming.landed session).trans ?_)
    exact total_eq_zero unposted fun _ => landed_eq_zero

/-- The first session receives a message and the beginning of another one, in two recvs. -/
def receiveTwice : List (Label 1 1 Unit) :=
  acceptOne ++ [.start 0 0, .complete 0 1 5 [12, 0, 0, 0, 1]] ++ work 2 ++
    request (.worker 0) 1 ++ work 8 ++
    [.start 0 0, .complete 0 1 9 [0, 0, 0, 112, 105, 110, 103, 8, 0]] ++ work 2

/-- The message is dispatched once, and the first bytes of the next one are kept. -/
theorem streams_framed_twice :
    ∃ (state : State 2 1 1 Unit) (streams : Fin 2 → Stream),
      Framed state 0 (streams 0) ∧
      (streams 0).dispatched = [(1, [12, 0, 0, 0, 1, 0, 0, 0, 112, 105, 110, 103])] ∧
      (state.shared.sessions 0).object.receivedSpan = [8, 0] := by
  -- The worker handles both recvs, and dispatches at the second one.
  have executed : (exec (track (step patientConfig) (Stream.after patientConfig))
      (State.init 2 1 1 patientConfig (), fun _ => {}) receiveTwice).any fun seen =>
        (seen.2 0).dispatched = [(1, [12, 0, 0, 0, 1, 0, 0, 0, 112, 105, 110, 103])] ∧
          (seen.1.shared.sessions 0).object.receivedSpan = [8, 0] := by decide +kernel
  obtain ⟨seen, reached, values⟩ := (Option.any_eq_true _ _).mp executed
  exact ⟨seen.1, seen.2, streams_framed (fun _ _ => (by rintro ⟨⟩)) (by decide) (.of_exec reached) 0,
    of_decide_eq_true values⟩

end Braid.Service
