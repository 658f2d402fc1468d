import Braid.Service.MessageFraming
import Braid.Service.Sessions

/-! One recv for each session, with the room of its buffer, and a count that stays inside of it. -/

namespace Braid

open Counting Transition

/-- The count of committed bytes lies inside of the buffer. -/
def IOUringObject.Bounded (object : IOUringObject) : Prop :=
  0 ≤ object.commitedSize ∧ object.commitedSize ≤ maxReceiveBufferSize

/-- An object whose count is inside of the buffer holds the bytes that its received span shows. -/
theorem IOUringObject.Bounded.holds {object : IOUringObject} (bounded : object.Bounded) :
    object.Holds object.receivedSpan := by
  obtain ⟨lower, upper⟩ := bounded
  -- A count inside of the buffer is the length of what is taken from it.
  have length := object.buffer_length
  refine ⟨?_, List.take_prefix _ _⟩
  simp only [receivedSpan, List.length_take]
  omega

/-- An object that holds some bytes has its count inside of the buffer. -/
theorem IOUringObject.Holds.bounded {object : IOUringObject} {bytes : List Byte}
    (holds : object.Holds bytes) : object.Bounded := by
  have upper := holds.length_le
  have count := holds.1
  constructor <;> omega

namespace ServiceSession

variable {α ω : Type} {dispatcher : MessageDispatcher α ω} {actor : α}

/-- The states of the receive path that the loop in `on_received` comes through. -/
inductive Turns (dispatcher : MessageDispatcher α ω) (actor : α) (start : Receiver ω) :
    Receiver ω → Prop
  | refl : Turns dispatcher actor start start
  | turn {receiver next : Receiver ω} (before : Turns dispatcher actor start receiver)
      (turned : onReceivedTurn dispatcher actor receiver = .ok (some next)) :
    Turns dispatcher actor start next

/-- A turn of the loop keeps the count inside of the buffer, whatever the client has sent. -/
theorem onReceivedTurn_bounded (careful : Careful dispatcher) {receiver next : Receiver ω}
    (bounded : receiver.object.Bounded)
    (turned : onReceivedTurn dispatcher actor receiver = .ok (some next)) :
    next.object.Bounded := by
  have holds := bounded.holds
  -- A turn that is not the last one has found a frame in the bytes that are held.
  cases found : messageFraming.next? receiver.object.receivedSpan with
  | none =>
    rw [onReceivedTurn_stop holds found] at turned
    cases turned
  | some split =>
    have sizes := careful.keepsSizes actor receiver.object.receivedSpan receiver.world
    rw [Framing.drain_next found] at sizes
    obtain ⟨object, same, kept, _⟩ := onReceivedTurn_kept actor holds found sizes.1
    rw [same] at turned
    cases turned
    exact kept.bounded

/-- The count stays inside of the buffer at every turn of the loop. -/
theorem Turns.bounded (careful : Careful dispatcher) {start receiver : Receiver ω}
    (turns : Turns dispatcher actor start receiver) (bounded : start.object.Bounded) :
    receiver.object.Bounded := by
  -- The induction is on the turns that the loop has made so far.
  induction turns with
  | refl => exact bounded
  | turn before turned ih => exact onReceivedTurn_bounded careful ih turned

/-- The loop ends, and leaves a count inside of the buffer. -/
theorem onReceivedLoop_bounded (careful : Careful dispatcher) (actor : α) {turns : Nat}
    (enough : maxTurns < turns) {receiver : Receiver ω} (bounded : receiver.object.Bounded) :
    ∃ finish, onReceivedLoop dispatcher actor turns receiver = .ok finish ∧
      finish.object.Bounded := by
  -- What is held extracts to frames and a rest, with fewer turns than the loop is granted.
  have holds := bounded.holds
  have length := holds.length_le
  have few : receiver.object.receivedSpan.length < sizeofMessageHeader * turns := by
    simp only [maxTurns, maxReceiveBufferSize, sizeofMessageHeader] at *
    omega
  obtain ⟨object, looped, kept, _⟩ := onReceivedLoop_kept actor _ turns receiver holds
    (careful.keepsSizes _ _ _) few
  exact ⟨_, looped, kept.bounded⟩

end ServiceSession

namespace Service

open Memory (Slot)

variable {m n k : Nat} {ω : Type}

/-- A recv operation of a session. -/
def Operation.Receives (session : Fin m) (operation : Operation m) : Prop :=
  operation.kind = .recv ∧ operation.session = session

instance (session : Fin m) (operation : Operation m) : Decidable (operation.Receives session) :=
  inferInstanceAs (Decidable (_ ∧ _))

/-- A recv operation of a session, from its request to the end of its handling. -/
def Token.posted (session : Fin m) : Token m → Nat
  | .receive _ => 0
  | .requested operation => if operation.Receives session then 1 else 0
  | .carried phase handle =>
    if handle.operation.Receives session ∧ phase.outstanding then 1 else 0

/-- A recv operation of a session, or one that is still to be requested. -/
def Token.receiving (session : Fin m) : Token m → Nat
  | .receive other => if other = session then 1 else 0
  | token => token.posted session

/-- A thread works on the receive buffer of a session: in a completion, or for the next recv. -/
def State.Receives (state : State m n k ω) (session : Fin m) (context : Context n k) : Prop :=
  .receive session ∈ state.todo context ∨
    ∃ at_, context = .worker at_ ∧ (state.worker at_).place = .handleCompletion ∧
      ∃ done, (state.worker at_).completion = some done ∧ done.handle.operation.Receives session

variable (config : Config ω)

/-- What a session commits and what its receive loop then goes through, in one completion. -/
def Shared.received (shared : Shared m ω) (session : Fin m) (result : Int) :
    Receiver (ω × List ActorCall) where
  object := (shared.sessions session).object.commit result
  world := (shared.world, [])

/--
The receive path of every session is sound.

There is one recv at most, and its span is the room that the buffer has; the count of committed
bytes is inside of the buffer, also at every moment of a completion; and one thread at most works
on the buffer.
-/
structure SoundReceive (state : State m n k ω) : Prop where
  single : ∀ session, state.total (Token.posted session) ≤ 1
  requested : ∀ session buffer, 0 < state.carries (.requested (.recv session buffer)) →
    buffer = (state.shared.sessions session).object.remainSpan
  carried : ∀ phase id session buffer,
    0 < state.carries (.carried phase ⟨id, .recv session buffer⟩) → phase.outstanding →
      buffer = (state.shared.sessions session).object.remainSpan
  bounded : ∀ session, (state.shared.sessions session).object.Bounded
  committed : ∀ result id session buffer,
    0 < state.carries (.carried (.delivered result) ⟨id, .recv session buffer⟩) → 0 ≤ result →
      ∀ receiver, ServiceSession.Turns config.dispatcher (state.shared.sessions session).mainActor
        (state.shared.received session result) receiver → receiver.object.Bounded
  alone : ∀ session first second, state.Receives session first → state.Receives session second →
    first = second

/-- What one step keeps of the receive path, with the room that a completed recv has been given. -/
structure Receiving (state : State m n k ω) : Prop where
  single : ∀ session, state.total (Token.receiving session) ≤ 1
  requested : ∀ session buffer, 0 < state.carries (.requested (.recv session buffer)) →
    buffer = (state.shared.sessions session).object.remainSpan
  carried : ∀ phase id session buffer,
    0 < state.carries (.carried phase ⟨id, .recv session buffer⟩) → phase.outstanding →
      buffer = (state.shared.sessions session).object.remainSpan
  bounded : ∀ session, (state.shared.sessions session).object.Bounded
  room : ∀ phase result id session buffer,
    0 < state.carries (.carried phase ⟨id, .recv session buffer⟩) →
      phase = .completed result ∨ phase = .delivered result → 0 ≤ result →
        ((state.shared.sessions session).object.commit result).Bounded
  noFault : ∀ failure, state.shared.fault ≠ some (.receive failure)

variable {config} {state next : State m n k ω} {label : Label n k ω}
  {lost gained : List (Token m)} {after : Shared m ω}

/-- A recv that is posted is one that a session is receiving with. -/
theorem posted_le_receiving (session : Fin m) (token : Token m) :
    token.posted session ≤ token.receiving session := by
  cases token with
  | receive other => exact Nat.zero_le _
  | _ => exact Nat.le_refl _

/-- A session that receives uses its connection. -/
theorem receiving_le_using (session : Fin m) (token : Token m) :
    token.receiving session ≤ token.using session := by
  cases token with
  | receive other => exact Nat.le_refl _
  | requested operation =>
    -- Of the operations only a recv counts on the left, and on the right it uses its session.
    cases operation <;> simp [Token.receiving, Token.posted, Token.using, Operation.Receives,
      Operation.Uses, Operation.kind, Operation.accepts, Operation.session]
  | carried phase handle =>
    obtain ⟨id, operation⟩ := handle
    cases operation <;> simp [Token.receiving, Token.posted, Token.using, Operation.Receives,
      Operation.Uses, Operation.kind, Operation.accepts, Operation.session]
    split <;> split <;> simp_all

/-- A quantity that is larger everywhere has a larger total. -/
theorem total_mono {first second : Token m → Nat} (larger : ∀ token, first token ≤ second token) :
    state.total first ≤ state.total second := by
  -- A total is a sum over threads and workers, and is compared part by part.
  have part (tokens : List (Token m)) : tally first tokens ≤ tally second tokens :=
    List.sum_le_sum fun token _ => larger token
  exact Nat.add_le_add (Finset.sum_le_sum fun _ _ => part _) (Finset.sum_le_sum fun _ _ => part _)

/-- A request is carried exactly by a thread that has it as a next thing to do. -/
theorem carries_requested {operation : Operation m} :
    0 < state.carries (.requested operation) ↔ ∃ context, .acquire operation ∈ state.todo context := by
  constructor
  · intro present
    by_contra nowhere
    rw [not_exists] at nowhere
    -- Neither the threads nor the workers would carry the request.
    have todo (context : Context n k) :
        tally (fun other => if other = Token.requested operation then 1 else 0)
          ((state.todo context).flatMap Todo.tokens) = 0 := by
      refine tally_eq_zero.mpr fun token member => if_neg ?_
      rintro rfl
      obtain ⟨todo, listed, made⟩ := List.mem_flatMap.mp member
      cases todo with
      | acquire other =>
        simp only [Todo.tokens, List.mem_singleton, Token.requested.injEq] at made
        rw [made] at nowhere
        exact nowhere context listed
      | _ => simp [Todo.tokens] at made
    have worker (at_ : Fin n) :
        tally (fun other => if other = Token.requested operation then 1 else 0)
          (state.worker at_).tokens = 0 := by
      refine tally_eq_zero.mpr fun token member => if_neg ?_
      rintro rfl
      simp only [Worker.tokens, List.mem_append, List.mem_map, List.mem_flatMap] at member
      rcases member with (((((⟨_, _, made⟩ | ⟨_, _, made⟩) | ⟨_, _, made⟩) | ⟨_, _, made⟩) |
        ⟨_, _, made⟩) | ⟨done, _, made⟩) | made
      · cases made
      · cases made
      · cases made
      · cases made
      · cases made
      · cases place : (state.worker at_).place <;> simp [Completion.tokens, place] at made
      · cases place : (state.worker at_).place <;> simp [Place.tokens, place] at made
    simp [State.carries, State.total, todo, worker] at present
  · rintro ⟨context, listed⟩
    have member : Token.requested operation ∈ (state.todo context).flatMap Todo.tokens :=
      List.mem_flatMap.mpr ⟨_, listed, List.mem_singleton_self _⟩
    have part := todo_le_total state (fun other => if other = Token.requested operation then 1 else 0)
      context
    rw [← count_eq_tally] at part
    exact Nat.lt_of_lt_of_le (List.count_pos_iff.mpr member) part

/-- A step of a call asks for a recv only in `request_receive`, with the room that there is. -/
theorem todoStep_recv {slot : Option Slot} {fails : Bool} {todo : Todo m n} {shared : Shared m ω}
    {more : List (Todo m n)} {pushed : Option (Fin n × Handle m)} {session : Fin m} {buffer : Span}
    (stepped : todoStep config state.shared slot fails todo = some (shared, more, pushed))
    (listed : .acquire (.recv session buffer) ∈ more) :
    buffer = (state.shared.sessions session).object.remainSpan := by
  -- Only `request_receive` asks for a recv, and it takes the span as it is at that moment.
  cases todo with
  | receive other =>
    cases stepped
    simp only [List.mem_singleton, Todo.acquire.injEq, Operation.recv.injEq] at listed
    obtain ⟨rfl, rfl⟩ := listed
    rfl
  | acceptOne =>
    simp only [todoStep] at stepped
    split at stepped <;> cases stepped <;> simp at listed
  | call call =>
    simp only [todoStep] at stepped
    split at stepped <;> cases stepped
    · cases listed
    · cases call <;> simp [ActorCall.operation] at listed
  | acquire operation =>
    simp only [todoStep] at stepped
    split at stepped
    · cases stepped; cases listed
    · split at stepped <;> cases stepped
      simp at listed
  | addRef handle =>
    simp only [todoStep] at stepped
    split at stepped <;> cases stepped <;> simp at listed
  | route handle =>
    simp only [todoStep] at stepped
    split at stepped
    · cases stepped; simp at listed
    · split at stepped <;> cases stepped <;> simp at listed
  | push handle worker =>
    simp only [todoStep] at stepped
    split at stepped <;> cases stepped <;> cases listed

/-- A step of a routine leads a worker into no request that has passed `request_io` already. -/
theorem workStep_acquires {worker : Worker m} {interrupted : Bool} {operation : Operation m} :
    .acquire operation ∉
      (workStep config state.shared worker interrupted :
        Shared m ω × Worker m × List (Todo m n)).2.2 := by
  intro listed
  unfold workStep at listed
  split at listed
  · split at listed <;> cases listed
  · split at listed
    · cases listed
    · split at listed
      · cases listed
      · rename_i handle result holds alive
        -- The completion handlers call actors, request the next recv, and accept.
        obtain ⟨id, operation⟩ := handle
        rcases handled : (handleIoCompletion config state.shared result operation :
          Shared m ω × List (Todo m n)) with ⟨after, more⟩
        rw [handled] at listed
        cases handleIoCompletion_handled handled <;> simp at listed
  all_goals cases listed

/-- A recv that is requested after a step was requested before it, or has the room there was. -/
theorem step_requested (taken : step config state label = some next) {session : Fin m}
    {buffer : Span} (present : 0 < next.carries (.requested (.recv session buffer))) :
    0 < state.carries (.requested (.recv session buffer)) ∨
      buffer = (state.shared.sessions session).object.remainSpan := by
  rw [carries_requested] at present ⊢
  obtain ⟨context, listed⟩ := present
  -- What a thread has to do is replaced for one context, and only by a step of a call or a worker.
  have replaced {at_ : Context n k} {todo : List (Todo m n)}
      (same : next.todo = Function.update state.todo at_ todo)
      (given : .acquire (.recv session buffer) ∈ todo →
        .acquire (.recv session buffer) ∈ state.todo at_ ∨
          buffer = (state.shared.sessions session).object.remainSpan) :
      (∃ other, .acquire (.recv session buffer) ∈ state.todo other) ∨
        buffer = (state.shared.sessions session).object.remainSpan := by
    rw [same] at listed
    by_cases here : context = at_
    · subst here
      rw [Function.update_self] at listed
      exact (given listed).imp_left fun before => ⟨_, before⟩
    · rw [Function.update_of_ne here] at listed
      exact .inl ⟨context, listed⟩
  unfold step at taken
  split at taken
  · cases taken
  split at taken
  · split at taken
    · cases taken
    · rename_i head
      obtain ⟨⟨shared, more, pushed⟩, stepped, rfl⟩ := Option.map_eq_some_iff.mp taken
      refine replaced (by cases pushed <;> rfl) fun given => ?_
      rcases List.mem_append.mp given with new | rest
      · exact .inr (todoStep_recv stepped new)
      · exact .inl (by rw [head]; exact List.mem_cons_of_mem _ rest)
  · rename_i at_ interrupted
    split at taken <;> cases taken
    exact replaced rfl fun given => absurd given workStep_acquires
  · split at taken <;> cases taken
    exact replaced rfl fun given => by simp at given
  · split at taken <;> cases taken
    exact replaced rfl fun given => by simp at given
  · cases taken
    exact .inl ⟨context, listed⟩
  · obtain ⟨entry, found, rfl⟩ := Option.map_eq_some_iff.mp taken
    exact .inl ⟨context, listed⟩
  · obtain ⟨started, found, completed⟩ := Option.bind_eq_some_iff.mp taken
    obtain ⟨shared, done, rfl⟩ := Option.map_eq_some_iff.mp completed
    exact .inl ⟨context, listed⟩

/-- A step leaves a session with as many recvs as before, unless it connects the session. -/
theorem Move.receiving (move : Move config state label lost gained after) (session : Fin m) :
    tally (Token.receiving session) gained ≤ tally (Token.receiving session) lost ∨
      tally (Token.receiving session) gained ≤ 1 ∧ ∃ id listenFd result,
        lost = [.carried (.delivered result) ⟨id, .accept session listenFd⟩] := by
  -- A recv goes on as itself, a handled one as the next request, and an accept brings the first.
  cases move with
  | popSession queue => simp [Token.receiving, Token.posted, Operation.Receives, Operation.kind]
  | @call _ _ _ call _ other cause head behind =>
    cases call <;> simp [Token.receiving, Token.posted, Operation.Receives, Operation.kind,
      ActorCall.operation]
  | receive other span =>
    simp [Token.receiving, Token.posted, Operation.Receives, Operation.kind, Operation.session]
  | advance plain handle =>
    cases plain <;> simp [Token.receiving, Token.posted, Phase.outstanding]
  | @handle _ _ moved result _ _ _ _ shared more handled =>
    obtain ⟨id, operation⟩ := moved
    cases handleIoCompletion_handled handled with
    | @accepted other listenFd accepted actors positive object made =>
      by_cases same : other = session
      · subst same
        exact .inr ⟨by simp [Token.receiving, Token.posted, Phase.outstanding, Todo.tokens],
          id, listenFd, result, rfl⟩
      · simp [Token.receiving, Token.posted, Phase.outstanding, Todo.tokens, same]
    | received positive socketFd =>
      simp [Token.receiving, Token.posted, Phase.outstanding, Todo.tokens, Operation.Receives,
        Operation.kind, Operation.session]
    | _ => simp [Token.receiving, Token.posted, Phase.outstanding]
  | submit entries => simp [Token.receiving, Token.posted, Phase.outstanding]
  | _ => simp [Token.receiving, Token.posted, Phase.outstanding]

/-- Writing to the buffer commits nothing. -/
theorem write_commitedSize {object wrote : IOUringObject} {offset : Int} {bytes : List Byte}
    (written : object.write offset bytes = .ok wrote) :
    wrote.commitedSize = object.commitedSize := by
  -- Bytes are written, or the write fails, and in neither case is the count touched.
  unfold IOUringObject.write at written
  split at written <;> cases written
  rfl

/-- The length of the recv for the room of a buffer is what is left of the buffer. -/
theorem remainSpan_length {object : IOUringObject} (bounded : object.Bounded) :
    (Span.length object.remainSpan : Int) = maxReceiveBufferSize - object.commitedSize := by
  obtain ⟨lower, upper⟩ := bounded
  -- The difference is small enough that nothing is lost in the word of the length.
  simp only [Span.length, IOUringObject.remainSpan, BitVec.toNat_ofInt]
  simp only [maxReceiveBufferSize] at *
  omega

/-- A recv that completes commits nothing yet, and its bytes fit into the room it was given. -/
theorem completeStarted_recv {shared : Shared m ω} {id : Nat} {session : Fin m} {buffer : Span}
    {connection : Option (Connection m)} {result : Int} {data : List Byte}
    (span : buffer = (shared.sessions session).object.remainSpan)
    (bounded : (shared.sessions session).object.Bounded)
    (done : completeStarted config shared ⟨⟨id, .recv session buffer⟩, connection⟩ result data =
      some after) :
    after.fault = shared.fault ∧
      (∀ other, (after.sessions other).object.commitedSize =
        (shared.sessions other).object.commitedSize) ∧
      (0 ≤ result → ((shared.sessions session).object.commit result).Bounded) := by
  -- A failure writes nothing, and a success writes as many bytes as it says.
  simp only [completeStarted] at done
  split at done
  · cases done
    exact ⟨rfl, fun _ => rfl, fun positive => by omega⟩
  · split at done
    · rename_i positive fits
      obtain ⟨_, count, length⟩ := fits
      have room := remainSpan_length bounded
      rw [← span] at room
      obtain ⟨lower, upper⟩ := bounded
      -- The bytes are written behind the committed ones, and end inside of the buffer.
      have inside : 0 ≤ buffer.offset ∧ buffer.offset + data.length ≤ maxReceiveBufferSize := by
        rw [span]
        simp only [IOUringObject.remainSpan]
        omega
      split at done <;> cases done
      · rename_i object written
        refine ⟨rfl, fun other => ?_, fun _ => ⟨?_, ?_⟩⟩
        · by_cases same : other = session
          · subst same
            simpa [Shared.setSession] using write_commitedSize written
          · simp [Shared.setSession, same]
        · show 0 ≤ _ + result
          omega
        · show _ + result ≤ _
          omega
      · rename_i written
        rw [IOUringObject.write, dif_pos inside] at written
        cases written
    · cases done

/-- A recv that is handled leaves a count inside of the buffer, and does not stop the program. -/
theorem handleIoCompletion_recv (careful : ServiceSession.Careful config.dispatcher)
    (enough : ServiceSession.maxTurns < config.turns) {shared : Shared m ω} {session : Fin m}
    {buffer : Span} {result : Int} {more : List (Todo m n)}
    (bounded : (shared.sessions session).object.Bounded)
    (room : 0 ≤ result → ((shared.sessions session).object.commit result).Bounded)
    (handled : handleIoCompletion config shared result (.recv session buffer) = (after, more)) :
    after.fault = shared.fault ∧ (∀ other, other ≠ session →
      after.sessions other = shared.sessions other) ∧ (after.sessions session).object.Bounded := by
  -- A negative result asks for a close, and any other is committed before the loop.
  simp only [handleIoCompletion] at handled
  split at handled
  · cases handled
    exact ⟨rfl, fun _ _ => rfl, bounded⟩
  · rename_i positive
    have inside : (shared.received session result).object.Bounded := room (by omega)
    obtain ⟨finish, looped, kept⟩ := ServiceSession.onReceivedLoop_bounded careful
      (shared.sessions session).mainActor enough inside
    simp only [Shared.received] at looped
    rw [looped] at handled
    cases handled
    refine ⟨rfl, fun other different => Function.update_of_ne different _ _, ?_⟩
    simpa [Shared.setSession] using kept

/-- Handling anything but a recv commits nothing, and does not stop the program. -/
theorem handleIoCompletion_commitedSize {shared : Shared m ω} {operation : Operation m}
    {result : Int} {more : List (Todo m n)} (other : operation.kind ≠ .recv)
    (handled : handleIoCompletion config shared result operation = (after, more)) :
    after.fault = shared.fault ∧ ∀ session, (after.sessions session).object.commitedSize =
      (shared.sessions session).object.commitedSize := by
  -- An accept gives its session a descriptor, which leaves the count as it is.
  cases handleIoCompletion_handled handled with
  | @accepted owner listenFd accepted actors positive object made =>
    refine ⟨rfl, fun session => ?_⟩
    by_cases same : session = owner
    · subst same
      simp [Shared.setSession, object, IOUringObject.setSocketFd]
    · simp [Shared.setSession, same]
  | received positive socketFd => exact absurd rfl other
  | stopped failure => exact absurd rfl other
  | nothing calls => exact ⟨rfl, fun _ => rfl⟩

/-- Completing anything but a recv commits nothing, and does not stop the program. -/
theorem completeStarted_commitedSize {shared : Shared m ω} {started : Started m} {result : Int}
    {data : List Byte} (other : started.handle.operation.kind ≠ .recv)
    (done : completeStarted config shared started result data = some after) :
    after.fault = shared.fault ∧ ∀ session, (after.sessions session).object.commitedSize =
      (shared.sessions session).object.commitedSize := by
  -- Of all completions, only that of a recv writes to a buffer.
  cases completeStarted_completed done with
  | received positive socketFd => exact absurd rfl other
  | stopped failure => exact absurd rfl other
  | _ => exact ⟨rfl, fun _ => rfl⟩

/-- A step commits bytes only where a recv is handled, and otherwise the room stays as it is. -/
structure Kept (state : State m n k ω) (gained lost : List (Token m)) (after : Shared m ω)
    (session : Fin m) : Prop where
  bounded : (after.sessions session).object.Bounded
  span : (after.sessions session).object.commitedSize =
    (state.shared.sessions session).object.commitedSize ∨
      tally (Token.posted session) lost = 1 ∧ tally (Token.posted session) gained = 0

/-- The calls that a completion leads to have posted no recv yet. -/
theorem posted_calls {shared : Shared m ω} {operation : Operation m} {result : Int}
    {more : List (Todo m n)} (session : Fin m)
    (handled : handleIoCompletion config shared result operation = (after, more)) :
    tally (Token.posted session) (more.flatMap Todo.tokens) = 0 :=
  tally_eq_zero.mpr fun token member => by
    rw [handleIoCompletion_tokens handled token member]; rfl

/-- Every step keeps the counts of all sessions inside of their buffers, and receives no failure. -/
theorem Move.kept (careful : ServiceSession.Careful config.dispatcher)
    (enough : ServiceSession.maxTurns < config.turns) (receiving : Receiving state)
    (move : Move config state label lost gained after)
    (present : ∀ token ∈ lost, 0 < state.carries token) :
    (∀ failure, after.fault ≠ some (.receive failure)) ∧
      ∀ session, Kept state gained lost after session := by
  -- A step that changes no session and stops for another reason.
  have aside (fault : after.fault = state.shared.fault ∨
        ∃ reason, after.fault = some reason ∧ ∀ failure, reason ≠ .receive failure)
      (same : ∀ session, (after.sessions session).object.commitedSize =
        (state.shared.sessions session).object.commitedSize) :
      (∀ failure, after.fault ≠ some (.receive failure)) ∧
        ∀ session, Kept state gained lost after session := by
    refine ⟨fun failure stopped => ?_, fun session => ⟨?_, .inl (same session)⟩⟩
    · rcases fault with before | ⟨reason, now, other⟩
      · exact receiving.noFault failure (before.symm.trans stopped)
      · rw [now, Option.some.injEq] at stopped
        exact other failure stopped
    · have bounded := receiving.bounded session
      unfold IOUringObject.Bounded at bounded ⊢
      rw [same session]
      exact bounded
  -- The kernel's bytes and the receive loop are what could take the count out of the buffer.
  cases move with
  | @handle at_ interrupted moved result cause place found alive shared more handled =>
    obtain ⟨id, operation⟩ := moved
    by_cases kind : operation.kind = .recv
    · obtain ⟨session, buffer, rfl⟩ : ∃ session buffer, operation = .recv session buffer := by
        cases operation <;> first | exact ⟨_, _, rfl⟩ | cases kind
      have delivered := present _ (List.mem_singleton_self _)
      obtain ⟨fault, others, bounded⟩ := handleIoCompletion_recv careful enough
        (receiving.bounded session) (receiving.room _ result id session buffer delivered (.inr rfl))
        handled
      refine ⟨fun failure => fault ▸ receiving.noFault failure, fun other => ?_⟩
      by_cases same : other = session
      · subst same
        refine ⟨bounded, .inr ⟨?_, ?_⟩⟩
        · simp [Token.posted, Operation.Receives, Operation.kind, Operation.session,
            Phase.outstanding]
        · rw [tally_cons, posted_calls other handled]
          simp [Token.posted, Phase.outstanding]
      · have untouched : shared.sessions other = state.shared.sessions other := others other same
        have bounded := receiving.bounded other
        rw [← untouched] at bounded
        exact ⟨bounded, .inl (congrArg (fun session => session.object.commitedSize) untouched)⟩
    · obtain ⟨fault, same⟩ := handleIoCompletion_commitedSize kind handled
      exact aside (.inl fault) same
  | @complete at_ i result data started shared cause found done =>
    obtain ⟨⟨id, operation⟩, connection⟩ := started
    by_cases kind : operation.kind = .recv
    · obtain ⟨session, buffer, rfl⟩ : ∃ session buffer, operation = .recv session buffer := by
        cases operation <;> first | exact ⟨_, _, rfl⟩ | cases kind
      have worked := present _ (List.mem_singleton_self _)
      obtain ⟨fault, same, _⟩ := completeStarted_recv
        (receiving.carried _ id session buffer worked rfl) (receiving.bounded session) done
      exact aside (.inl fault) same
    · obtain ⟨fault, same⟩ := completeStarted_commitedSize kind done
      exact aside (.inl fault) same
  | start cause found =>
    rw [startEntry_frame] at *
    exact aside (.inl rfl) fun _ => rfl
  | useAfterRelease | releaseAtZero | nullEntry | divide =>
    exact aside (.inr ⟨_, rfl, (by simp)⟩) fun _ => rfl
  | _ => exact aside (.inl rfl) fun _ => rfl

/-- Every step keeps the receive path as it should be. -/
theorem step_receiving (careful : ServiceSession.Careful config.dispatcher)
    (enough : ServiceSession.maxTurns < config.turns) (receiving : Receiving state)
    (settled : Settled state) (taken : step config state label = some next) : Receiving next := by
  -- A step is a move of tokens, and each field is read off what is lost and gained.
  obtain ⟨_, lost, gained, move, total⟩ := step_moved config taken
  obtain ⟨noFault, kept⟩ := move.kept careful enough receiving fun _ => carries_lost total
  -- A recv that is posted after the step leaves the room of its session as it was.
  have span (session : Fin m) (posted : 0 < next.total (Token.posted session)) :
      (next.shared.sessions session).object.remainSpan =
        (state.shared.sessions session).object.remainSpan := by
    rcases (kept session).span with same | ⟨before, behind⟩
    · simp only [IOUringObject.remainSpan, same]
    · -- Otherwise the step has handled the only recv that there was.
      obtain ⟨changed, within⟩ := total (Token.posted session)
      have atMost : state.total (Token.posted session) ≤ state.total (Token.receiving session) :=
        total_mono (posted_le_receiving session)
      have single := receiving.single session
      omega
  refine ⟨fun session => ?_, ?_, ?_, fun session => (kept session).bounded, ?_, noFault⟩
  · obtain ⟨changed, within⟩ := total (Token.receiving session)
    have single := receiving.single session
    rcases move.receiving session with fewer | ⟨one, id, listenFd, result, accepted⟩
    · omega
    · -- A session that is being connected receives nothing yet.
      have delivered := carries_lost total (by rw [accepted]; exact List.mem_singleton_self _)
      have unused := (settled.untouched session
        (settled.unconnected_of_carried delivered rfl rfl)).unused
      have fewer : state.total (Token.receiving session) ≤ state.total (Token.using session) :=
        total_mono (receiving_le_using session)
      omega
  · -- A request that is there was there before, or has just been made with the room of now.
    intro session buffer present
    rw [span session (total_pos _ present (by simp [Token.posted, Operation.Receives,
      Operation.kind, Operation.session]))]
    rcases step_requested taken present with before | same
    · exact receiving.requested session buffer before
    · exact same
  · -- An operation on its way was so before, or has just been acquired for a request.
    intro phase id session buffer present outstanding
    rw [span session (total_pos _ present (by simp [Token.posted, Operation.Receives,
      Operation.kind, Operation.session, outstanding]))]
    rcases carries_next total present with given | before
    · rcases move.gained_outstanding given outstanding with ⟨earlier, still, member⟩ | member
      · exact receiving.carried earlier id session buffer (carries_lost total member) still
      · exact receiving.requested session buffer (carries_lost total member)
    · exact receiving.carried phase id session buffer before outstanding
  · -- A result that waits did so before, or the kernel has just written its bytes.
    intro phase result id session buffer present landed positive
    have room := span session (total_pos _ present (by
      rcases landed with rfl | rfl <;>
        simp [Token.posted, Operation.Receives, Operation.kind, Operation.session,
          Phase.outstanding]))
    have same := congrArg Span.offset room
    simp only [IOUringObject.remainSpan] at same
    have inside : ((state.shared.sessions session).object.commit result).Bounded := by
      rcases carries_next total present with given | before
      · rcases move.gained_result given landed with
          ⟨earlier, still, member⟩ | ⟨connection, data, shared, member, done⟩
        · exact receiving.room earlier result id session buffer (carries_lost total member) still
            positive
        · have worked := receiving.carried _ id session buffer (carries_lost total member) rfl
          exact (completeStarted_recv worked (receiving.bounded session) done).2.2 positive
      · exact receiving.room phase result id session buffer before landed positive
    simp only [IOUringObject.Bounded, IOUringObject.commit] at inside ⊢
    omega

/-- When the service starts, no session receives, and all buffers are empty. -/
theorem init_receiving (config : Config ω) (world : ω) :
    Receiving (State.init m n k config world) where
  single session := by rw [init_total]; exact Nat.zero_le _
  requested session buffer present := by
    rw [State.carries, init_total] at present
    cases present
  carried phase id session buffer present := by
    rw [State.carries, init_total] at present
    cases present
  -- An empty buffer is bounded, and nothing that is carried could be in its way.
  bounded session := ⟨Int.le_refl _, Int.natCast_nonneg maxReceiveBufferSize⟩
  room phase result id session buffer present := by
    rw [State.carries, init_total] at present
    cases present
  noFault _ := by rintro ⟨⟩

/-- A thread that has the next recv of a session to request adds one to the total. -/
theorem receive_mem_total {session : Fin m} {context : Context n k}
    (member : .receive session ∈ state.todo context) :
    0 < tally (Token.receiving session) ((state.todo context).flatMap Todo.tokens) := by
  -- A total of zero would have to count this thread as well.
  by_contra none_
  have zero := tally_eq_zero.mp (Nat.eq_zero_of_not_pos none_) (.receive session)
    (List.mem_flatMap.mpr ⟨_, member, List.mem_singleton_self _⟩)
  simp [Token.receiving] at zero

/-- A worker that handles a recv of a session adds one to the total. -/
theorem handling_mem_total {session : Fin m} {at_ : Fin n} {done : Completion m}
    (place : (state.worker at_).place = .handleCompletion)
    (holds : (state.worker at_).completion = some done)
    (receives : done.handle.operation.Receives session) :
    0 < tally (Token.receiving session) (state.worker at_).tokens := by
  by_contra none_
  -- The completion is one of the tokens of its worker.
  have member : Token.carried (.delivered done.result) done.handle ∈ (state.worker at_).tokens := by
    simp [Worker.tokens, place, holds, Completion.tokens]
  have zero := tally_eq_zero.mp (Nat.eq_zero_of_not_pos none_) _ member
  simp [Token.receiving, Token.posted, receives, Phase.outstanding] at zero

/-- Where a session receives once at most, one thread at most works on its buffer. -/
theorem Receiving.alone (receiving : Receiving state) {session : Fin m}
    {first second : Context n k} (works : state.Receives session first)
    (worksToo : state.Receives session second) : first = second := by
  -- Two threads that receive would be two tokens, and there is one at most.
  by_contra different
  have single := receiving.single session
  simp only [State.total] at single
  have threads (context : Context n k) := Finset.single_le_sum
    (f := fun context => tally (Token.receiving session) ((state.todo context).flatMap Todo.tokens))
    (fun _ _ => Nat.zero_le _) (Finset.mem_univ context)
  have workers (at_ : Fin n) := Finset.single_le_sum
    (f := fun at_ => tally (Token.receiving session) (state.worker at_).tokens)
    (fun _ _ => Nat.zero_le _) (Finset.mem_univ at_)
  rcases works with listed | ⟨at_, rfl, place, done, holds, receives⟩ <;>
    rcases worksToo with listedToo | ⟨other, rfl, placeToo, doneToo, holdsToo, receivesToo⟩
  · -- Two threads with a recv to request would be two recvs.
    have both := add_le_sum Finset.univ
      (fun context => tally (Token.receiving session) ((state.todo context).flatMap Todo.tokens))
      (Finset.mem_univ first) (Finset.mem_univ second) different
    have one := receive_mem_total listed
    have two := receive_mem_total listedToo
    omega
  · have one := receive_mem_total listed
    have two := handling_mem_total placeToo holdsToo receivesToo
    have part := threads first
    have partToo := workers other
    omega
  · have one := handling_mem_total place holds receives
    have two := receive_mem_total listedToo
    have part := workers at_
    have partToo := threads second
    omega
  · have both := add_le_sum Finset.univ
      (fun at_ => tally (Token.receiving session) (state.worker at_).tokens)
      (Finset.mem_univ at_) (Finset.mem_univ other) (fun same => different (by rw [same]))
    have one := handling_mem_total place holds receives
    have two := handling_mem_total placeToo holdsToo receivesToo
    omega

/-- What each step keeps makes the receive path sound. -/
theorem Receiving.sound (careful : ServiceSession.Careful config.dispatcher)
    (receiving : Receiving state) : SoundReceive config state where
  single session := Nat.le_trans (total_mono (posted_le_receiving session))
    (receiving.single session)
  requested := receiving.requested
  carried := receiving.carried
  bounded := receiving.bounded
  -- The handling starts from a bounded buffer with the room for what has arrived.
  committed result id session buffer present positive _ turns :=
    turns.bounded careful (receiving.room _ result id session buffer present (.inr rfl) positive)
  alone _ _ _ := receiving.alone

/--
The receive path of every session is sound in every run.

The handlers write to nothing but the payload of their span, and the loop is granted the turns
that a full buffer can take; then the loop ends, and nothing is read or written outside of the
buffer, whatever the clients send.
-/
theorem receive_sound (careful : ServiceSession.Careful config.dispatcher)
    (enough : ServiceSession.maxTurns < config.turns) {world : ω} {labels : List (Label n k ω)}
    (run : Run (step config) anyStep (State.init m n k config world) labels state) :
    SoundReceive config state ∧ ∀ failure, state.shared.fault ≠ some (.receive failure) := by
  -- That the recv is for a connected session is known from the sessions being settled.
  have both := run.invariant (P := fun state => Receiving state ∧ Settled state)
    ⟨init_receiving config world, init_settled config world⟩
    fun _ _ _ both _ taken => ⟨step_receiving careful enough both.1 both.2 taken,
      step_settled both.2 taken⟩
  exact ⟨both.1.sound careful, both.1.noFault⟩

/-- The small service, with turns for every header that fits into a buffer. -/
def patientConfig : Config Unit := { smallConfig with turns := 513 }

/-- The first session gets the four bytes of a negative size, and its next recv is requested. -/
def receiveFour : List (Label 1 1 Unit) :=
  acceptOne ++ [.start 0 0, .complete 0 1 4 [255, 255, 255, 255]] ++ work 2 ++
    [.run (.worker 0) none false]

/-- Four committed bytes leave the room of the rest to the recv that is requested next. -/
theorem receive_sound_four :
    ∃ state : State 2 1 1 Unit,
      (SoundReceive patientConfig state ∧
        ∀ failure, state.shared.fault ≠ some (.receive failure)) ∧
      (state.shared.sessions 0).object.commitedSize = 4 ∧
      state.todo (.worker 0) = [.acquire (.recv 0 ⟨4, 4092⟩)] := by
  -- A recv of four bytes is handled, and the next one is about to be requested.
  have executed : (exec (step patientConfig) (State.init 2 1 1 patientConfig ())
      receiveFour).any fun state => (state.shared.sessions 0).object.commitedSize = 4 ∧
        state.todo (.worker 0) = [.acquire (.recv 0 ⟨4, 4092⟩)] := by decide +kernel
  obtain ⟨state, reached, values⟩ := (Option.any_eq_true _ _).mp executed
  exact ⟨state, receive_sound (fun _ _ => (by rintro ⟨⟩)) (by decide) (.of_exec reached),
    of_decide_eq_true values⟩

end Service

end Braid
