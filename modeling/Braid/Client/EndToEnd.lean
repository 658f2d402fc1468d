import Braid.Client.TestClient
import Braid.Library.Parallel
import Braid.Service.SentMessages
import Braid.Service.Streams

/-! The test client and the service together: every message is dispatched as it was made. -/

namespace Braid.EndToEnd

open Service TestClient Transition

variable {m n k : Nat} {ω : Type} {config : Config ω}

/-- The service with the streams of its sessions, and the client with those of its sockets. -/
abbrev System (m n k : Nat) (ω : Type) : Type :=
  (State m n k ω × (Fin m → Stream)) × (TestClient × (Nat → Transcript))

/-- A step of the service or of the client. -/
def step (config : Config ω) : System m n k ω → Service.Label n k ω ⊕ TestClient.Label →
    Option (System m n k ω) :=
  parallel (track (Service.step config) (Stream.after config))
    (track TestClient.step TestClient.observe)

/-- The session in which bytes arrive in a step, and these bytes. -/
def arriving (state : State m n k ω) : Service.Label n k ω → Option (Fin m × List Byte)
  | .complete at_ i result data =>
    match (state.worker at_).started[i]? with
    | some ⟨⟨_, .recv session _⟩, _⟩ => if result < 0 then none else some (session, data)
    | _ => none
  | _ => none

/-- The bytes that arrive in a session in a step. -/
def arrivingIn (state : State m n k ω) (label : Service.Label n k ω) (session : Fin m) :
    List Byte :=
  match arriving state label with
  | some (own, data) => if own = session then data else []
  | none => []

/--
The network between the sockets of the client and the sessions that have accepted them.

The bytes that arrive in a session are the next ones of those that its socket has taken: none is
lost, none is repeated, and they are in order.
-/
def Delivers (peer : Fin m → Option Nat) (system : System m n k ω) :
    Service.Label n k ω ⊕ TestClient.Label → Prop
  -- A session without a socket of the client may receive anything.
  | .inl label => ∀ arrival ∈ arriving system.1.1 label, ∀ j ∈ peer arrival.1,
    (system.1.2 arrival.1).arrived ++ arrival.2 <+: (system.2.2 j).taken
  | .inr _ => True

instance (peer : Fin m → Option Nat) (system : System m n k ω) :
    ∀ label, Decidable (Delivers peer system label)
  | .inl label => inferInstanceAs (Decidable (∀ arrival ∈ arriving system.1.1 label, _))
  | .inr _ => instDecidableTrue

/-- The call of `dispatch` that a message of the client leads to. -/
def callFor (message : Message) : Int × List Byte := (1, message.bytes)

variable {state next : State m n k ω} {streams : Fin m → Stream} {label : Service.Label n k ω}
  {client : TestClient} {transcripts : Nat → Transcript} {peer : Fin m → Option Nat}

/-- Handling a recv moves its bytes from those that wait to those that are handled. -/
theorem arrived_delivered (completion : Option (Completion m)) (session : Fin m) :
    (Stream.delivered config state.shared completion streams session).arrived =
      (streams session).arrived := by
  unfold Stream.delivered
  split
  · -- A recv of this session or of another one, of which only the first moves bytes.
    rename_i own _ _
    split
    · rfl
    · rcases eq_or_ne session own with rfl | other
      · simp [Stream.handle, Stream.arrived]
      · rw [Function.update_of_ne other]
  · rfl

/-- Bytes arrive in a session behind those that have arrived before, and otherwise not at all. -/
theorem arrived_after (session : Fin m) :
    (Stream.after config state label next streams session).arrived =
      (streams session).arrived ++ arrivingIn state label session := by
  -- Bytes arrive in the completion of a recv and nowhere else.
  cases label with
  | complete at_ i result data =>
    simp only [Stream.after, arrivingIn, arriving]
    cases (state.worker at_).started[i]? with
    | none => simp [Stream.completed]
    | some started =>
      obtain ⟨⟨id, operation⟩, connection⟩ := started
      cases operation with
      | recv own buffer =>
        simp only [Stream.completed]
        -- A recv that has failed brings no bytes, and one of another session none to this one.
        by_cases failed : result < 0
        · simp [failed]
        · rcases eq_or_ne session own with rfl | other
          · simp [failed, Stream.fill, Stream.arrived]
          · simp [failed, other, other.symm]
      | _ => simp [Stream.completed]
  | work at_ interrupted =>
    simp only [Stream.after, arrivingIn, arriving]
    -- The worker may handle bytes that have arrived before.
    split
    · simp [arrived_delivered]
    · simp
  | _ => simp [Stream.after, arrivingIn, arriving]

/-- A socket never gives back what it has taken. -/
theorem taken_grows (client : TestClient) (label : TestClient.Label) (next : TestClient) (j : Nat) :
    (transcripts j).taken <+: (TestClient.observe client label next transcripts j).taken := by
  -- A socket takes bytes in `write_all` only, and a message that is made leaves them alone.
  have updated (transcript : Transcript) (longer : (transcripts client.i).taken <+: transcript.taken) :
      (transcripts j).taken <+: (Function.update transcripts client.i transcript j).taken := by
    rcases eq_or_ne j client.i with rfl | other
    · rw [Function.update_self]
      exact longer
    · rw [Function.update_of_ne other]
  simp only [TestClient.observe]
  -- Of the places of the client, the two that write to a transcript are looked at.
  cases client.place with
  | build =>
    cases label with
    | build payloadSize =>
      by_cases drawn : InRange payloadSize
      · simp only [dif_pos drawn]
        exact updated _ List.prefix_rfl
      · simp only [dif_neg drawn]
        exact List.prefix_rfl
    | _ => exact List.prefix_rfl
  | writeAll remaining =>
    cases label with
    | send result =>
      cases result with
      | bytes count => exact updated _ (List.prefix_append _ _)
      | _ => exact List.prefix_rfl
    | _ => exact List.prefix_rfl
  | _ => exact List.prefix_rfl

/-- In every run, what has arrived in a session is a beginning of what its socket has taken. -/
theorem run_arrived {world : ω} {socketCount : Nat}
    {labels : List (Service.Label n k ω ⊕ TestClient.Label)} {system : System m n k ω}
    (run : Run (step config) (Delivers peer)
      ((State.init m n k config world, fun _ => {}), ({ socketCount := socketCount }, fun _ => {}))
      labels system) :
    ∀ session, ∀ j ∈ peer session, (system.1.2 session).arrived <+: (system.2.2 j).taken := by
  -- Both sides extend what they have: the service on one, the client on the other.
  refine run.parallel_invariant (P := fun service client => ∀ session, ∀ j ∈ peer session,
    (service.2 session).arrived <+: (client.2 j).taken) (fun _ _ _ => List.nil_prefix) ?_ ?_
  · intro system label next arrived permitted taken session j connected
    obtain ⟨-, recorded⟩ := track_eq_some.mp taken
    rw [← recorded, arrived_after, arrivingIn]
    cases arrives : arriving system.1.1 label with
    | none => simpa using arrived session j connected
    | some arrival =>
      obtain ⟨own, data⟩ := arrival
      by_cases same : own = session
      · -- The network delivers the next bytes that the socket has taken.
        subst same
        simpa using permitted _ arrives j connected
      · simpa [same] using arrived session j connected
  · intro system label next arrived _ taken session j connected
    obtain ⟨-, recorded⟩ := track_eq_some.mp taken
    rw [← recorded]
    exact (arrived session j connected).trans (taken_grows _ _ _ j)

/--
What a session that is connected to a socket of the client has dispatched.

Its calls are those for the first messages that were made for the socket, each once and in order.
The buffer never fills up, so that the next recv always has room. When the socket has taken all
of its messages and the session has handled all of these bytes, every message is dispatched.
-/
structure Served (system : System m n k ω) (session : Fin m) (j : Nat) : Prop where
  dispatched : (system.1.2 session).dispatched <+: (system.2.2 j).built.map callFor
  room : (system.1.1.shared.sessions session).object.receivedSpan.length < maxReceiveBufferSize
  complete : system.2.1.IsOpen j → system.2.1.pending j = [] →
    (system.1.2 session).handled = (system.2.2 j).taken →
      (system.1.2 session).dispatched = (system.2.2 j).built.map callFor ∧
        (system.1.1.shared.sessions session).object.receivedSpan = []

/-- The messages made for a socket are frames, and each is dispatched under type one. -/
theorem built_frames {transcript : Transcript} {j : Nat} {isOpen : Prop} {pending : List Byte}
    (agrees : transcript.Agrees j isOpen pending) :
    (∃ frames : List Frame, frames.map Frame.bytes = transcript.built.map Message.bytes) ∧
      (transcript.built.map Message.bytes).map ServiceSession.callOf =
        transcript.built.map callFor := by
  constructor
  · -- The sizes that are drawn leave a message below the size of the buffer.
    refine ServiceSession.exists_frames _ fun built member => ?_
    obtain ⟨payloadSize, drawn, rfl⟩ := agrees.built built member
    exact message_fits _ _ _ drawn
  · -- The header of each message names the type one.
    rw [List.map_map]
    refine List.map_congr_left fun built member => ?_
    obtain ⟨payloadSize, drawn, rfl⟩ := agrees.built built member
    simp only [Function.comp, ServiceSession.callOf, Message.parseMessage_eq, callFor]
    rfl

/--
Every session dispatches the messages that the client has made for its socket.

This holds of every run of the service and the client together: the workers, the kernel, the
application and the client take their steps in any order, the network cuts the streams into any
pieces, and calls of `send` may take part of a message, be interrupted or fail.
-/
theorem messages_dispatched (careful : ServiceSession.Careful config.dispatcher)
    (enough : ServiceSession.maxTurns < config.turns) {world : ω} {socketCount : Nat}
    {labels : List (Service.Label n k ω ⊕ TestClient.Label)} {system : System m n k ω}
    (run : Run (step config) (Delivers peer)
      ((State.init m n k config world, fun _ => {}), ({ socketCount := socketCount }, fun _ => {}))
      labels system) {session : Fin m} {j : Nat} (connected : j ∈ peer session) :
    Served system session j := by
  -- The run is one of the service and one of the client, each with what is known of it alone.
  obtain ⟨_, service⟩ := run.ofLeft
  obtain ⟨_, client⟩ := run.ofRight
  have streaming : Streaming system.1.1 system.1.2 := run_streaming careful enough service
  have writing : Writing system.2.1 system.2.2 := run_writing client
  have agrees := writing.agrees j
  obtain ⟨⟨frames, same⟩, calls⟩ := built_frames agrees
  -- What is handled has arrived, what has arrived was taken, and that is a stream of frames.
  have handled : (system.1.2 session).handled <+: (frames.map Frame.bytes).flatten := by
    rw [same]
    exact (List.prefix_append _ _).trans ((run_arrived run session j connected).trans agrees.taken)
  have whole : ∀ frame ∈ frames.map Frame.bytes, messageFraming.IsFrame frame := by
    intro bytes member
    obtain ⟨frame, _, rfl⟩ := List.mem_map.mp member
    exact frame.isFrame
  have committed := (streaming.held session).receivedSpan
  refine ⟨?_, ?_, fun open_ nothing all => ?_⟩
  · -- The calls are those for the frames of the bytes handled.
    rw [streaming.dispatched session, ← calls, ← same]
    exact (Framing.drain_begins whole handled).map _
  · -- What is kept is less than a frame, and a frame fits.
    obtain ⟨more, joined⟩ := handled
    rw [committed]
    exact ServiceSession.drain_space frames (show messageFraming.next? [] = none from rfl) (by decide)
      (joined.trans (List.append_nil _).symm)
  · -- All messages are taken, and all of their bytes are handled.
    have taken := agrees.whole open_
    rw [nothing, List.append_nil] at taken
    have drained := Framing.drain_frames whole (show messageFraming.next? [] = none from rfl)
    rw [List.append_nil] at drained
    rw [streaming.dispatched session, committed, all, taken, Transcript.stream, ← same, drained]
    exact ⟨by rw [same, calls], rfl⟩

/-- The first session is connected, and receives the first five bytes of a message. -/
def receiveFive : List (Service.Label 1 1 Unit) :=
  acceptOne ++ [.start 0 0, .complete 0 1 5 [12, 0, 0, 0, 1]] ++ work 2 ++
    request (.worker 0) 1 ++ work 8

/-- The first session receives the other seven bytes. -/
def receiveSeven : List (Service.Label 1 1 Unit) :=
  [.start 0 0, .complete 0 1 7 [0, 0, 0, 99, 108, 105, 101]] ++ work 2

/-- A socket takes a message in two pieces, and its session receives the bytes in two others. -/
def greet : List (Service.Label 1 1 Unit ⊕ TestClient.Label) :=
  [.inr (.socket (some 4)), .inr (.connect true), .inr (.build 4), .inr (.send (.bytes 7))] ++
    receiveFive.map .inl ++ [.inr (.send (.bytes 5))] ++ receiveSeven.map .inl

/-- The message of the client is dispatched, and nothing of it is left. -/
theorem messages_dispatched_greet :
    ∃ system : System 2 1 1 Unit, Served system 0 0 ∧
      (system.1.2 0).dispatched = [(1, [12, 0, 0, 0, 1, 0, 0, 0, 99, 108, 105, 101])] ∧
      (system.1.1.shared.sessions 0).object.receivedSpan = [] := by
  -- The network delivers five bytes before the client has sent the rest.
  have executed : (execWhile (step patientConfig) (Delivers fun _ => some 0)
      ((State.init 2 1 1 patientConfig (), fun _ => {}), ({ socketCount := 1 }, fun _ => {}))
      greet).any fun system =>
        (system.1.2 0).dispatched = [(1, [12, 0, 0, 0, 1, 0, 0, 0, 99, 108, 105, 101])] ∧
          (system.1.1.shared.sessions 0).object.receivedSpan = [] := by decide +kernel
  obtain ⟨system, reached, values⟩ := (Option.any_eq_true _ _).mp executed
  exact ⟨system, messages_dispatched (fun _ _ => (by rintro ⟨⟩)) (by decide)
    (.of_execWhile reached) rfl, of_decide_eq_true values⟩

end Braid.EndToEnd
