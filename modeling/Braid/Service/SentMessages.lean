import Braid.Message.MessageHeader
import Braid.Service.MessageFraming

/-! What `SendMessage` puts into send buffers, as the session of a peer dispatches it. -/

namespace Braid

/-- A call of `SendMessage` with a header and what is behind it, over the memory of a new buffer. -/
structure SendCall (α : Type) where
  memory : Vector Byte maxMessageSize
  recipients : Recipients α
  message : Message

/-- Calls of `SendMessage` are made one after another. -/
def sendMessages {α : Type} : List (SendCall α) → Except WriteFault (List (α × SendBuffer))
  | [] => .ok []
  | call :: rest => do
    let requested ← sendMessage call.memory call.message.write call.recipients
    let later ← sendMessages rest
    return requested ++ later

variable {α : Type} [DecidableEq α]

/-- The bytes that an actor is requested to send, in the order of the requests. -/
def requestedBytes (actor : α) (requests : List (α × SendBuffer)) : List Byte :=
  ((requests.filter fun request => request.1 = actor).map fun request =>
    request.2.getBuffer).flatten

/-- The messages that are addressed to an actor and fit in a send buffer, in the order of the calls. -/
def messagesFor (actor : α) (calls : List (SendCall α)) : List Message :=
  calls.flatMap fun call =>
    -- A message that is too long leaves the buffer empty, which adds no byte.
    if call.message.Fits then List.replicate (call.recipients.named.count actor) call.message
    else []

/-- What is requested later is sent behind what is requested earlier. -/
theorem requestedBytes_append (actor : α) (first second : List (α × SendBuffer)) :
    requestedBytes actor (first ++ second) =
      requestedBytes actor first ++ requestedBytes actor second := by
  simp [requestedBytes]

/-- An actor that is named several times sends the buffer as many times. -/
theorem requestedBytes_named (actor : α) (sendBuffer : SendBuffer) (named : List α) :
    requestedBytes actor (named.map fun other => (other, sendBuffer)) =
      (List.replicate (named.count actor) sendBuffer.getBuffer).flatten := by
  induction named with
  | nil => rfl
  | cons other rest ih =>
    -- The first actor is this one or another one, and the rest is the induction.
    have split := requestedBytes_append actor [(other, sendBuffer)]
      (rest.map fun other => (other, sendBuffer))
    rw [List.singleton_append, ih] at split
    rw [List.map_cons, split]
    by_cases same : other = actor
    · subst same
      simp [requestedBytes, List.replicate_succ]
    · simp [requestedBytes, same]

/-- A call requests every actor that it names to send the message, if it fits. -/
theorem sendMessage_named (call : SendCall α) :
    ∃ requested, sendMessage call.memory call.message.write call.recipients = .ok requested ∧
      ∀ actor, requestedBytes actor requested =
        ((messagesFor actor [call]).map Message.bytes).flatten := by
  obtain ⟨sendBuffer, written, shown⟩ := call.message.write_new call.memory
  -- Whoever is named, the requests are for the one buffer.
  have requested : sendMessage call.memory call.message.write call.recipients =
      .ok (call.recipients.named.map fun actor => (actor, sendBuffer)) := by
    rcases call.recipients with (_ | actor) | actorList
    · rfl
    · simp only [sendMessage, written, bind, Except.bind, pure, Except.pure, Recipients.named,
        Option.toList_some, List.map_cons, List.map_nil]
    · simp only [sendMessage, written, bind, Except.bind, pure, Except.pure, Recipients.named,
        List.map_filterMap, id]
  refine ⟨_, requested, fun actor => ?_⟩
  -- An empty buffer is sent as often, with nothing in it.
  rw [requestedBytes_named, shown]
  simp only [messagesFor, List.flatMap_cons, List.flatMap_nil, List.append_nil]
  split
  · rw [List.map_replicate]
  · simp

/-- Every actor is requested to send the messages addressed to it, one behind the other. -/
theorem sendMessages_requested (calls : List (SendCall α)) :
    ∃ requests, sendMessages calls = .ok requests ∧
      ∀ actor, requestedBytes actor requests =
        ((messagesFor actor calls).map Message.bytes).flatten := by
  -- The calls are made from the first one on.
  induction calls with
  | nil => exact ⟨[], rfl, fun _ => rfl⟩
  | cons call rest ih =>
    obtain ⟨requested, sent, own⟩ := sendMessage_named call
    obtain ⟨later, sentLater, behind⟩ := ih
    refine ⟨requested ++ later, ?_, fun actor => ?_⟩
    · simp only [sendMessages, sent, sentLater, bind, Except.bind, pure, Except.pure]
    · rw [requestedBytes_append, own, behind]
      simp [messagesFor]

/-- Every message that is sent to an actor fits in the receive buffer of its peer. -/
theorem messagesFor_fits {actor : α} {calls : List (SendCall α)} {message : Message}
    (member : message ∈ messagesFor actor calls) :
    message.bytes.length ≤ maxReceiveBufferSize := by
  obtain ⟨call, _, addressed⟩ := List.mem_flatMap.mp member
  split at addressed
  · rename_i fits
    rw [(List.mem_replicate.mp addressed).2]
    exact Nat.le_trans fits (by decide)
  · cases addressed

namespace ServiceSession

variable {β ω : Type} {dispatcher : MessageDispatcher β ω}

/-- Messages that fit in the receive buffer are frames. -/
theorem exists_frames (messages : List Message)
    (fits : ∀ message ∈ messages, message.bytes.length ≤ maxReceiveBufferSize) :
    ∃ frames : List Frame, frames.map Frame.bytes = messages.map Message.bytes :=
  ⟨messages.pmap Message.frame fits, by rw [List.map_pmap]; exact List.pmap_eq_map ..⟩

/-- What a handler reads in its span: the header, and what is behind it. -/
def readBack (call : Int × List Byte) : MessageHeader × List Byte :=
  (parseMessage call.2, call.2.drop sizeofMessageHeader)

/--
A peer dispatches the messages that are sent to it, and reads them back as they were sent.

Whatever actors the calls of `SendMessage` name, and whatever their buffers had in them before,
the stream of an actor is the messages addressed to it that fit in a send buffer.
A session that receives this stream in any pieces dispatches each of them once, in the order of
the calls, with the header that was sent and the payload behind it, and keeps no byte.
-/
theorem sendMessages_dispatched (calls : List (SendCall α)) (careful : Careful dispatcher)
    (peer : β) (world : ω) {fuel : Nat} (enough : maxTurns < fuel) :
    ∃ requests, sendMessages calls = .ok requests ∧
      ∀ actor (object : IOUringObject) pieces, object.commitedSize = 0 →
        pieces.flatten = requestedBytes actor requests →
        Fits dispatcher peer fuel (accepted object world) pieces →
        ∃ last, receiveAll dispatcher peer fuel (accepted object world) pieces = .ok last ∧
          last.dispatched = (messagesFor actor calls).map (fun message =>
            (message.messageType.toInt, message.bytes)) ∧
          last.dispatched.map readBack = (messagesFor actor calls).map (fun message =>
            (message.header, message.payload)) ∧
          last.object.commitedSize = 0 := by
  obtain ⟨requests, sent, stream⟩ := sendMessages_requested calls
  refine ⟨requests, sent, fun actor object pieces fresh cut fits => ?_⟩
  -- The stream of the actor is a stream of frames.
  obtain ⟨frames, same⟩ := exists_frames (messagesFor actor calls) fun _ => messagesFor_fits
  have whole : pieces.flatten = (frames.map Frame.bytes).flatten ++ [] := by
    rw [cut, stream, same, List.append_nil]
  have stopped : messageFraming.next? [] = none := rfl
  have sizes := careful.keepsSizes peer ([] ++ pieces.flatten) world
  -- The loop is proved for every stream; here it is one with nothing behind its frames.
  obtain ⟨last, received, holds, _, dispatched, _⟩ :=
    receiveAll_kept peer enough pieces (accepted object world) [] (IOUringObject.holds_nil fresh)
      rfl
      (by
        intro span member
        rw [List.mem_singleton.mp member]
        simp only [IOUringObject.remainSpan, fresh]
        decide)
      (by
        intro arrived more joined
        rw [whole] at joined
        exact drain_space frames stopped (by decide) joined)
      sizes (fits.roomy enough pieces (IOUringObject.holds_nil fresh) rfl sizes)
      (by rw [Framing.drain_stop stopped])
  rw [List.nil_append, whole, drain_stream frames stopped] at holds dispatched
  -- Each frame is dispatched by the type in its header.
  have calledWith : last.dispatched = (messagesFor actor calls).map fun message =>
      (message.messageType.toInt, message.bytes) := by
    rw [dispatched, same, List.map_map]
    refine congrArg ([] ++ ·) (List.map_congr_left fun message _ => ?_)
    simp [callOf, Message.header]
  refine ⟨last, received, calledWith, ?_, holds.1⟩
  rw [calledWith, List.map_map]
  refine List.map_congr_left fun message _ => ?_
  simp only [Function.comp, readBack, message.parseMessage_eq, message.drop_bytes]

/-- A greeting that two actors are sent, one of them twice, and a message that is too long. -/
def greetings : List (SendCall Nat) :=
  [⟨Vector.replicate _ 7, .list [some 0, none, some 1, some 0], ⟨1, [104, 105], by decide⟩⟩,
    ⟨Vector.replicate _ 0, .one (some 0), ⟨2, List.replicate 2041 0, by
      rw [List.length_replicate]; decide⟩⟩,
    ⟨Vector.replicate _ 0, .one (some 0), ⟨3, [], by decide⟩⟩]

/-- The first actor sends the greeting twice, and then the empty message. -/
theorem sendMessages_dispatched_greetings :
    ∃ requests last, sendMessages greetings = .ok requests ∧
      receiveAll ({} : MessageDispatcher Unit Unit) () 513 (accepted IOUringObject.new ())
        [[10, 0, 0, 0, 1, 0, 0, 0, 104], [105, 10, 0, 0, 0, 1, 0, 0, 0, 104, 105, 8],
          [0, 0, 0, 3, 0, 0, 0]] = .ok last ∧
      last.dispatched.map readBack =
        [(⟨10, 1⟩, [104, 105]), (⟨10, 1⟩, [104, 105]), (⟨8, 3⟩, [])] := by
  have none : Careful ({} : MessageDispatcher Unit Unit) := fun _ _ => by rintro ⟨⟩
  obtain ⟨requests, sent, peers⟩ :=
    sendMessages_dispatched greetings none () () (show maxTurns < 513 by decide)
  -- The stream of the first actor is what the pieces are cut from.
  obtain ⟨others, same, stream⟩ := sendMessages_requested greetings
  cases sent.symm.trans same
  have cut : [[10, 0, 0, 0, 1, 0, 0, 0, 104], [105, 10, 0, 0, 0, 1, 0, 0, 0, 104, 105, 8],
      [0, 0, 0, 3, 0, 0, 0]].flatten = requestedBytes 0 requests := by
    rw [stream]
    decide +kernel
  obtain ⟨last, received, -, back, -⟩ :=
    peers 0 IOUringObject.new _ rfl cut (by decide +kernel)
  exact ⟨requests, last, sent, received, back.trans (by decide +kernel)⟩

end ServiceSession

end Braid
