import Braid.Library.Text
import Braid.Library.Transition
import Braid.Message.MessageHeader

/-! The test client: it connects its sockets and sends messages to them, pass after pass. -/

namespace Braid.TestClient

open Transition

/-- The text that the payload of a message starts with. -/
def payloadPrefix (i msgSeq payloadSize : Nat) : List Byte :=
  Text.ofString "client=" ++ Text.ofNat i ++ Text.ofString "; msg=" ++ Text.ofNat msgSeq ++
    Text.ofString "; payload=" ++ Text.ofNat payloadSize ++ Text.ofString "; "

/-- The payload: a letter for each byte, and the text over it as far as there is room. -/
def payload (i msgSeq payloadSize : Nat) : List Byte :=
  let letters := List.replicate payloadSize (UInt8.ofNat (97 + i % 26))
  let prefixCopy := min (payloadPrefix i msgSeq payloadSize).length payloadSize
  (payloadPrefix i msgSeq payloadSize).take prefixCopy ++ letters.drop prefixCopy

/-- The payload has the size that was drawn for it. -/
@[simp] theorem payload_length (i msgSeq payloadSize : Nat) :
    (payload i msgSeq payloadSize).length = payloadSize := by
  simp only [payload, List.length_append, List.length_take, List.length_drop, List.length_replicate]
  omega

/-- The sizes that `size_dist` draws. -/
def InRange (payloadSize : Nat) : Prop := 1 ≤ payloadSize ∧ payloadSize ≤ 4000

instance (payloadSize : Nat) : Decidable (InRange payloadSize) :=
  inferInstanceAs (Decidable (_ ∧ _))

/-- The message in `out`, of type one. -/
def message (i msgSeq payloadSize : Nat) (drawn : InRange payloadSize) : Message where
  messageType := 1
  payload := payload i msgSeq payloadSize
  isInt := by
    rw [payload_length]
    exact Nat.le_trans (Nat.add_le_add_left drawn.2 _) (by decide)

/-- What a call of `send` comes to: the number of bytes taken, `EINTR`, or another error. -/
inductive Sent where
  | bytes (count : Nat)
  | interrupted
  | failed
  deriving DecidableEq

/-- Where `main` is: at a call for a new socket, at a message, or in `write_all`. -/
inductive Place where
  | socket
  | connect (sockFd : Int)
  | build
  | writeAll (remaining : List Byte)
  deriving DecidableEq

end Braid.TestClient

namespace Braid

/-- The variables of `main` in the test client. -/
structure TestClient where
  socketCount : Nat
  sockets : List Int := []
  i : Nat := 0
  msgSeq : BitVec 64 := 0
  place : TestClient.Place := .socket
  deriving DecidableEq

namespace TestClient

open Transition

/-- What can happen next: the results of the calls of the system, and the size that is drawn. -/
inductive Label where
  | socket (result : Option Int)
  | connect (connected : Bool)
  -- The end of a pass over the sockets, and the beginning of the next one.
  | pass
  | build (payloadSize : Nat)
  | send (result : Sent)
  deriving DecidableEq

/-- The sockets are there, and the first pass over them begins. -/
def beginPass (client : TestClient) : TestClient :=
  { client with i := 0, msgSeq := 0, place := .build }

/-- The loop goes on to the next socket. -/
def nextSocket (client : TestClient) : TestClient :=
  { client with i := client.i + 1, place := .build }

/-- `write_all` has failed: the socket is closed and crossed out. -/
def sendFailed (client : TestClient) : TestClient :=
  nextSocket { client with sockets := client.sockets.set client.i (-1) }

/-- The socket that a message is written to, unless it is crossed out. -/
def IsOpen (client : TestClient) (i : Nat) : Prop := ∃ fd ∈ client.sockets[i]?, 0 ≤ fd

instance (client : TestClient) (i : Nat) : Decidable (client.IsOpen i) :=
  inferInstanceAs (Decidable (∃ fd ∈ client.sockets[i]?, 0 ≤ fd))

/-- One step of `main`. -/
def step (client : TestClient) (label : Label) : Option TestClient :=
  match client.place, label with
  | .socket, .socket none => some client.beginPass
  -- A descriptor that the kernel hands out is not open already.
  | .socket, .socket (some sockFd) =>
    if 0 ≤ sockFd ∧ sockFd ∉ client.sockets then some { client with place := .connect sockFd }
    else none
  | .connect _, .connect false => some client.beginPass
  | .connect sockFd, .connect true =>
    let connected := { client with sockets := client.sockets ++ [sockFd] }
    if client.i + 1 < client.socketCount then
      some { connected with i := client.i + 1, place := .socket }
    else some connected.beginPass
  | .build, .pass => if client.sockets.length ≤ client.i then some client.beginPass else none
  | .build, .build payloadSize =>
    if drawn : client.i < client.sockets.length ∧ InRange payloadSize then
      some { client with
        msgSeq := client.msgSeq + 1
        place := .writeAll (message client.i client.msgSeq.toNat payloadSize drawn.2).bytes }
    else none
  | .writeAll _, .send .failed => some client.sendFailed
  -- Nothing but an error comes from a socket that is crossed out.
  | .writeAll _, .send .interrupted => if client.IsOpen client.i then some client else none
  | .writeAll remaining, .send (.bytes count) =>
    if client.IsOpen client.i ∧ count ≤ remaining.length then
      if count = 0 then some client.sendFailed
      else if count = remaining.length then some client.nextSocket
      else some { client with place := .writeAll (remaining.drop count) }
    else none
  | _, _ => none

/-- What is remembered of a socket: the messages made for it, and the bytes that it has taken. -/
structure Transcript where
  built : List Message := []
  taken : List Byte := []
  deriving DecidableEq

/-- What is remembered of the sockets when a step has been taken. -/
def observe (client : TestClient) (label : Label) (_ : TestClient)
    (transcripts : Nat → Transcript) : Nat → Transcript :=
  let own := transcripts client.i
  match client.place, label with
  | .build, .build payloadSize =>
    if drawn : InRange payloadSize then
      Function.update transcripts client.i { own with
        built := own.built ++ [message client.i client.msgSeq.toNat payloadSize drawn] }
    else transcripts
  | .writeAll remaining, .send (.bytes count) =>
    Function.update transcripts client.i { own with taken := own.taken ++ remaining.take count }
  | _, _ => transcripts

/-- The messages made for a socket, one behind the other. -/
def Transcript.stream (transcript : Transcript) : List Byte :=
  (transcript.built.map Message.bytes).flatten

/-- The bytes that `write_all` has still to write to a socket. -/
def pending (client : TestClient) (j : Nat) : List Byte :=
  match client.place with
  | .writeAll remaining => if client.i = j then remaining else []
  | _ => []

/-- The number of the next message, which is that of its socket in every pass. -/
def Numbered (client : TestClient) : Prop :=
  match client.place with
  | .socket | .connect _ => True
  | .build => client.msgSeq = BitVec.ofNat 64 client.i
  | .writeAll _ => client.msgSeq = BitVec.ofNat 64 (client.i + 1)

/-- The number that the messages for a socket have, in every pass. -/
def numberOf (j : Nat) : Nat := (BitVec.ofNat 64 j).toNat

/-- What is remembered of a socket agrees with the bytes that are pending for it. -/
structure Transcript.Agrees (transcript : Transcript) (j : Nat) (isOpen : Prop)
    (pending : List Byte) : Prop where
  built : ∀ built ∈ transcript.built, ∃ payloadSize drawn,
    built = message j (numberOf j) payloadSize drawn
  taken : transcript.taken <+: transcript.stream
  whole : isOpen → transcript.taken ++ pending = transcript.stream

/-- A message that is made for a socket is pending as a whole. -/
theorem Transcript.Agrees.build {transcript : Transcript} {j : Nat} {isOpen : Prop}
    (agrees : transcript.Agrees j isOpen []) {payloadSize : Nat} (drawn : InRange payloadSize) :
    ({ transcript with
      built := transcript.built ++ [message j (numberOf j) payloadSize drawn] } :
      Transcript).Agrees j isOpen (message j (numberOf j) payloadSize drawn).bytes := by
  obtain ⟨built, taken, whole⟩ := agrees
  have longer (more : Message) : ({ transcript with built := transcript.built ++ [more] } :
      Transcript).stream = transcript.stream ++ more.bytes := by
    simp [Transcript.stream]
  -- The new message stands behind the others, of which all bytes are taken.
  refine ⟨fun other member => ?_, ?_, fun open_ => ?_⟩
  · rcases List.mem_append.mp member with earlier | last
    · exact built other earlier
    · rw [List.mem_singleton.mp last]
      exact ⟨payloadSize, drawn, rfl⟩
  · rw [longer]
    exact taken.trans (List.prefix_append _ _)
  · rw [longer, ← whole open_, List.append_nil]

/-- Bytes that an open socket takes are no longer pending. -/
theorem Transcript.Agrees.send {transcript : Transcript} {j : Nat} {isOpen : Prop}
    {remaining : List Byte} (agrees : transcript.Agrees j isOpen remaining) (open_ : isOpen)
    (count : Nat) :
    ({ transcript with taken := transcript.taken ++ remaining.take count } : Transcript).Agrees j
      isOpen (remaining.drop count) := by
  obtain ⟨built, taken, whole⟩ := agrees
  -- What is taken and what remains are still the same bytes.
  have split : transcript.taken ++ remaining.take count ++ remaining.drop count =
      transcript.stream := by
    rw [List.append_assoc, List.take_append_drop, whole open_]
  exact ⟨built, ⟨remaining.drop count, split⟩, fun _ => split⟩

/-- What is remembered of a socket that is no longer open agrees with anything that is pending. -/
theorem Transcript.Agrees.close {transcript : Transcript} {j : Nat} {isOpen closed : Prop}
    {pending : List Byte} (agrees : transcript.Agrees j isOpen pending) (shut : ¬ closed)
    (other : List Byte) : transcript.Agrees j closed other :=
  ⟨agrees.built, agrees.taken, fun open_ => absurd open_ shut⟩

/-- The sockets that the client has agree with what is remembered of them. -/
structure Writing (client : TestClient) (transcripts : Nat → Transcript) : Prop where
  numbered : client.Numbered
  fresh : (client.place = .socket ∨ ∃ sockFd, client.place = .connect sockFd) →
    ∀ j, transcripts j = {}
  agrees : ∀ j, (transcripts j).Agrees j (client.IsOpen j) (client.pending j)

variable {client next : TestClient} {label : Label} {transcripts : Nat → Transcript}

/-- A socket for which nothing has been made agrees with nothing being pending. -/
theorem agrees_empty (j : Nat) (isOpen : Prop) : ({} : Transcript).Agrees j isOpen [] :=
  ⟨fun _ member => (List.not_mem_nil member).elim, List.nil_prefix, fun _ => rfl⟩

/-- Where no message is being written, nothing is pending. -/
theorem pending_eq_nil (idle : ∀ remaining, client.place ≠ .writeAll remaining) (j : Nat) :
    client.pending j = [] := by
  unfold pending
  split
  · rename_i remaining place
    exact absurd place (idle remaining)
  · rfl

/-- A pass begins with nothing pending, over sockets that agree with that. -/
theorem writing_beginPass
    (agrees : ∀ j, (transcripts j).Agrees j (client.IsOpen j) []) :
    Writing client.beginPass transcripts where
  numbered := rfl
  fresh := by rintro (place | ⟨_, place⟩) <;> cases place
  agrees := agrees

/-- The loop goes on to the next socket with nothing pending. -/
theorem writing_nextSocket (numbered : client.msgSeq = BitVec.ofNat 64 (client.i + 1))
    (agrees : ∀ j, (transcripts j).Agrees j (client.IsOpen j) []) :
    Writing client.nextSocket transcripts where
  numbered := numbered
  fresh := by rintro (place | ⟨_, place⟩) <;> cases place
  agrees := agrees

/-- A socket whose write has failed is not open any more, and the others are as before. -/
theorem isOpen_sendFailed (j : Nat) :
    client.sendFailed.IsOpen j ↔ client.IsOpen j ∧ client.i ≠ j := by
  simp only [IsOpen, sendFailed, nextSocket, List.getElem?_set]
  by_cases same : client.i = j
  · -- What stands there now is no descriptor.
    subst same
    simp
  · simp [same]

/-- When a write has failed, what is remembered of the sockets still agrees with them. -/
theorem writing_sendFailed (numbered : client.msgSeq = BitVec.ofNat 64 (client.i + 1))
    (own : ∃ pending, (transcripts client.i).Agrees client.i (client.IsOpen client.i) pending)
    (agrees : ∀ j ≠ client.i, (transcripts j).Agrees j (client.IsOpen j) []) :
    Writing client.sendFailed transcripts where
  numbered := numbered
  fresh := by rintro (place | ⟨_, place⟩) <;> cases place
  agrees j := by
    show (transcripts j).Agrees j (client.sendFailed.IsOpen j) []
    rcases eq_or_ne j client.i with rfl | other
    · obtain ⟨pending, own⟩ := own
      exact own.close (by rw [isOpen_sendFailed]; exact fun both => both.2 rfl) []
    · have same : client.sendFailed.IsOpen j = client.IsOpen j :=
        propext ((isOpen_sendFailed j).trans (and_iff_left (Ne.symm other)))
      rw [same]
      exact agrees j other

/-- A message is made for a socket, with the number of that socket. -/
theorem Writing.build (writing : Writing client transcripts) (place : client.place = .build)
    {payloadSize : Nat} (drawn : InRange payloadSize) :
    Writing { client with
        msgSeq := client.msgSeq + 1
        place := .writeAll (message client.i client.msgSeq.toNat payloadSize drawn).bytes }
      (Function.update transcripts client.i { transcripts client.i with
        built := (transcripts client.i).built ++
          [message client.i client.msgSeq.toNat payloadSize drawn] }) := by
  obtain ⟨numbered, -, agrees⟩ := writing
  simp only [Numbered, place] at numbered
  -- In front of a message nothing is pending for any socket.
  have idle (j : Nat) : client.pending j = [] := pending_eq_nil (by simp [place]) j
  rw [numbered]
  refine ⟨(BitVec.ofNat_add _ _).symm, ?_, fun j => ?_⟩
  · rintro (same | ⟨_, same⟩) <;> cases same
  · have own := agrees j
    rw [idle] at own
    simp only [pending]
    rcases eq_or_ne j client.i with rfl | other
    · rw [Function.update_self, if_pos rfl]
      exact own.build drawn
    · rw [Function.update_of_ne other, if_neg (Ne.symm other)]
      exact own

/-- The bytes of a message that are sent are taken by the socket, and the rest is pending. -/
theorem Writing.send (writing : Writing client transcripts) {remaining : List Byte}
    (place : client.place = .writeAll remaining) (open_ : client.IsOpen client.i) (count : Nat)
    (j : Nat) :
    (Function.update transcripts client.i { transcripts client.i with
      taken := (transcripts client.i).taken ++ remaining.take count } j).Agrees j (client.IsOpen j)
      (if client.i = j then remaining.drop count else []) := by
  have own := writing.agrees j
  simp only [pending, place] at own
  -- The bytes are those of the socket that is written to.
  rcases eq_or_ne j client.i with rfl | other
  · rw [if_pos rfl] at own ⊢
    rw [Function.update_self]
    exact own.send open_ count
  · rw [if_neg (Ne.symm other)] at own ⊢
    rw [Function.update_of_ne other]
    exact own

/-- Every step keeps the sockets in agreement with what is remembered of them. -/
theorem step_writing (writing : Writing client transcripts) (taken : step client label = some next) :
    Writing next (observe client label next transcripts) := by
  have numbered := writing.numbered
  -- Before the first message nothing is remembered, whatever sockets there are.
  have connecting (early : client.place = .socket ∨ ∃ sockFd, client.place = .connect sockFd)
      (other : TestClient) (j : Nat) : (transcripts j).Agrees j (other.IsOpen j) [] := by
    rw [writing.fresh early j]
    exact agrees_empty j _
  -- One case for each row of `step`, in its order.
  unfold step at taken
  split at taken
  · rename_i place
    cases taken
    simp only [observe, place]
    exact writing_beginPass (connecting (.inl place) _)
  · rename_i sockFd place
    simp only [observe, place]
    split at taken
    · cases taken
      exact ⟨trivial, fun _ => writing.fresh (.inl place), connecting (.inl place) _⟩
    · cases taken
  · rename_i sockFd place
    cases taken
    simp only [observe, place]
    exact writing_beginPass (connecting (.inr ⟨_, place⟩) _)
  · rename_i sockFd place
    simp only [observe, place]
    split at taken <;> cases taken
    · exact ⟨trivial, fun _ => writing.fresh (.inr ⟨_, place⟩), connecting (.inr ⟨_, place⟩) _⟩
    · exact writing_beginPass (connecting (.inr ⟨_, place⟩) _)
  · rename_i place
    simp only [observe, place]
    split at taken
    · cases taken
      refine writing_beginPass fun j => ?_
      have own := writing.agrees j
      rwa [pending_eq_nil (by simp [place])] at own
    · cases taken
  · rename_i payloadSize place
    split at taken
    · rename_i drawn
      cases taken
      simp only [observe, place, dif_pos drawn.2]
      exact writing.build place drawn.2
    · cases taken
  · rename_i remaining place
    cases taken
    simp only [observe, place]
    simp only [Numbered, place] at numbered
    refine writing_sendFailed numbered ⟨_, writing.agrees _⟩ fun j other => ?_
    have own := writing.agrees j
    simpa only [pending, place, if_neg (Ne.symm other)] using own
  · rename_i remaining place
    simp only [observe, place]
    split at taken
    · cases taken
      exact writing
    · cases taken
  · rename_i remaining count place
    simp only [Numbered, place] at numbered
    split at taken
    · rename_i possible
      have agrees := writing.send place possible.1 count
      simp only [observe, place]
      -- Nothing may be taken, everything that remains, or some of it.
      split at taken
      · rename_i none_
        cases taken
        refine writing_sendFailed numbered ⟨_, agrees _⟩ fun j other => ?_
        have own := agrees j
        rwa [if_neg (Ne.symm other)] at own
      · split at taken <;> cases taken
        · rename_i all
          have nothing : remaining.drop count = [] := by rw [all, List.drop_length]
          refine writing_nextSocket numbered fun j => ?_
          have own := agrees j
          rwa [nothing, ite_self] at own
        · refine ⟨numbered, ?_, agrees⟩
          rintro (same | ⟨_, same⟩) <;> cases same
    · cases taken
  · cases taken

/-- When the client starts, nothing is remembered of any socket. -/
theorem init_writing (socketCount : Nat) :
    Writing { socketCount := socketCount } fun _ => {} :=
  ⟨trivial, fun _ _ => rfl, fun j => agrees_empty j _⟩

/-- In every run of the client the sockets agree with what is remembered of them. -/
theorem run_writing {socketCount : Nat} {labels : List Label}
    (run : Run (track step observe) anyStep ({ socketCount := socketCount }, fun _ => {}) labels
      (client, transcripts)) : Writing client transcripts := by
  -- What is remembered of the sockets goes along with the client.
  refine run.invariant (P := fun seen => Writing seen.1 seen.2) (init_writing socketCount) ?_
  rintro seen label next writing _ taken
  obtain ⟨stepped, recorded⟩ := track_eq_some.mp taken
  rw [← recorded]
  exact step_writing writing stepped

/-- A message fits in the receive buffer of its peer. -/
theorem message_fits (i msgSeq payloadSize : Nat) (drawn : InRange payloadSize) :
    (message i msgSeq payloadSize drawn).bytes.length ≤ maxReceiveBufferSize := by
  rw [Message.bytes_length, message, payload_length]
  exact Nat.le_trans (Nat.add_le_add_left drawn.2 _) (by decide)

/-- A message is a frame of the stream that it is sent in. -/
theorem message_isFrame (i msgSeq payloadSize : Nat) (drawn : InRange payloadSize) :
    messageFraming.IsFrame (message i msgSeq payloadSize drawn).bytes :=
  ((message i msgSeq payloadSize drawn).frame (message_fits i msgSeq payloadSize drawn)).isFrame

/-- The number of the socket is read back from a payload that has room for the text. -/
theorem readNat?_payload {i msgSeq payloadSize : Nat}
    (room : (payloadPrefix i msgSeq payloadSize).length ≤ payloadSize) :
    Text.readNat? ((payload i msgSeq payloadSize).drop 7) = some i := by
  rw [payload, Nat.min_eq_left room, List.take_length]
  simp only [payloadPrefix, List.append_assoc]
  -- The number stands behind the seven characters of the first word, and a semicolon follows.
  have behind (rest : List Byte) : (Text.ofString "client=" ++ rest).drop 7 = rest := rfl
  rw [behind]
  refine Text.readNat?_ofNat i fun character first => ?_
  cases first
  rfl

/--
What a run of the client has written to a socket.

Its messages have the number of the socket, which can be read back where there is room for it.
The bytes taken are the first ones of their stream, cut nowhere but where `write_all` is or has
failed, so that a reader finds the first of the messages in them, and all if nothing is pending.
-/
structure Written (client : TestClient) (j : Nat) (transcript : Transcript) : Prop where
  messages : ∀ built ∈ transcript.built, ∃ payloadSize drawn,
    built = message j (numberOf j) payloadSize drawn ∧
      ((payloadPrefix j (numberOf j) payloadSize).length ≤ payloadSize →
        Text.readNat? (built.payload.drop 7) = some j)
  frames : (messageFraming.drain transcript.taken).1 <+: transcript.built.map Message.bytes
  whole : client.IsOpen j → transcript.taken ++ client.pending j = transcript.stream
  complete : client.IsOpen j → client.pending j = [] →
    messageFraming.drain transcript.taken = (transcript.built.map Message.bytes, [])

/--
Every socket of the client takes a stream of well-formed messages.

The kernel may take the bytes in any pieces, interrupt any call and fail at any point, on any of
the sockets and in any of the passes, and the messages may have any sizes.
-/
theorem run_written {socketCount : Nat} {labels : List Label}
    (run : Run (track step observe) anyStep ({ socketCount := socketCount }, fun _ => {}) labels
      (client, transcripts)) (j : Nat) : Written client j (transcripts j) := by
  obtain ⟨built, taken, whole⟩ := (run_writing run).agrees j
  have frames : ∀ frame ∈ (transcripts j).built.map Message.bytes,
      messageFraming.IsFrame frame := by
    intro frame member
    obtain ⟨made, listed, rfl⟩ := List.mem_map.mp member
    obtain ⟨payloadSize, drawn, rfl⟩ := built made listed
    exact message_isFrame _ _ _ drawn
  refine ⟨fun made listed => ?_, Framing.drain_begins frames taken, whole,
    fun open_ nothing => ?_⟩
  · -- Each of the messages is one that was made with the number of the socket.
    obtain ⟨payloadSize, drawn, rfl⟩ := built made listed
    exact ⟨payloadSize, drawn, rfl, readNat?_payload⟩
  · -- With nothing pending, the bytes taken are the whole stream.
    have all := whole open_
    rw [nothing, List.append_nil] at all
    have drained := Framing.drain_frames frames (show messageFraming.next? [] = none from rfl)
    rw [List.append_nil] at drained
    rw [all]
    exact drained

/-- Two sockets: one is sent a message in two pieces, and the other one fails. -/
def twoSockets : List Label :=
  [.socket (some 5), .connect true, .socket (some 6), .connect true, .build 40,
    .send (.bytes 20), .send .interrupted, .send (.bytes 28), .build 1, .send (.bytes 4),
    .send .failed, .pass, .build 2, .send (.bytes 3)]

/-- The first socket is written a second message, and the other one is crossed out. -/
theorem run_written_twoSockets :
    ∃ (client : TestClient) (transcripts : Nat → Transcript),
      client.sockets = [5, -1] ∧ Written client 0 (transcripts 0) ∧
      (transcripts 0).taken.length = 51 ∧ (transcripts 0).built.length = 2 ∧
      Written client 1 (transcripts 1) ∧ (transcripts 1).taken = [9, 0, 0, 0] := by
  -- The first message is taken whole, and three bytes of the second one.
  have executed : (exec (track step observe) ({ socketCount := 2 }, fun _ => {}) twoSockets).any
      fun seen => seen.1.sockets = [5, -1] ∧ (seen.2 0).taken.length = 51 ∧
        (seen.2 0).built.length = 2 ∧ (seen.2 1).taken = [9, 0, 0, 0] := by decide +kernel
  obtain ⟨seen, reached, values⟩ := (Option.any_eq_true _ _).mp executed
  obtain ⟨sockets, first, count, second⟩ := of_decide_eq_true values
  have run : Run (track step observe) anyStep ({ socketCount := 2 }, fun _ => {}) twoSockets
      (seen.1, seen.2) := .of_exec reached
  exact ⟨seen.1, seen.2, sockets, run_written run 0, first, count, run_written run 1, second⟩

end TestClient

end Braid
