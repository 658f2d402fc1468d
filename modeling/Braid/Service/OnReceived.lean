import Braid.Message.MessageDispatcher

/-! The receive loop of a session: what it dispatches, what it leaves, and that it ends. -/

namespace Braid

/--
The state that the receive path of a session works on.

The dispatched calls and the spans of the requested recv operations are recorded as they happen,
the recv operation that is outstanding first.
-/
structure Receiver (ω : Type) where
  object : IOUringObject
  world : ω
  dispatched : List (Int × List Byte) := []
  posted : List Span := []

namespace ServiceSession

variable {α ω : Type}

/-- `request_receive`: posts a recv for the room that is left in the buffer. -/
def requestReceive (receiver : Receiver ω) : Receiver ω :=
  { receiver with posted := receiver.object.remainSpan :: receiver.posted }

/-- One turn of the loop in `on_received`, or nothing where the loop is left. -/
def onReceivedTurn (dispatcher : MessageDispatcher α ω) (actor : α) (receiver : Receiver ω) :
    Except Failure (Option (Receiver ω)) :=
  if receiver.object.commitedSize < sizeofMessageHeader then .ok none
  else
    let receivedSpan := receiver.object.receivedSpan
    let header := parseMessage receivedSpan
    if header.size < sizeofMessageHeader then .ok none
    else if receivedSpan.length < header.size.toNat then .ok none
    else do
      let messageSpan := receivedSpan.take header.size.toNat
      let messageType := header.messageType.toInt
      let (_, written, world) := dispatcher.dispatch messageType messageSpan actor receiver.world
      let object ← receiver.object.write 0 written
      -- The size is read once more from the buffer, as the handler has left it there.
      let object ← object.processCompleted (parseMessage object.buffer).size
      return some { receiver with
        object := object
        world := world
        dispatched := receiver.dispatched ++ [(messageType, messageSpan)] }

/-- The loop in `on_received`, granted a number of turns. -/
def onReceivedLoop (dispatcher : MessageDispatcher α ω) (actor : α) :
    Nat → Receiver ω → Except Failure (Receiver ω)
  | 0, _ => .error .outOfFuel
  | fuel + 1, receiver => do
    match ← onReceivedTurn dispatcher actor receiver with
    | none => return receiver
    | some next => onReceivedLoop dispatcher actor fuel next

/-- `on_received`: the loop, and then the next recv. -/
def onReceived (dispatcher : MessageDispatcher α ω) (actor : α) (fuel : Nat)
    (receiver : Receiver ω) : Except Failure (Receiver ω) := do
  let receiver ← onReceivedLoop dispatcher actor fuel receiver
  return requestReceive receiver

/--
A recv that completes with some bytes.

The bytes arrive in the span that was posted for them, and the completion handler of the operation
commits them and runs `on_received`.
-/
def receive (dispatcher : MessageDispatcher α ω) (actor : α) (fuel : Nat)
    (receiver : Receiver ω) (piece : List Byte) : Except Failure (Receiver ω) :=
  match receiver.posted with
  | [] => .error .undefined
  | span :: _ => do
    let object ← receiver.object.write span.offset piece
    onReceived dispatcher actor fuel { receiver with object := object.commit piece.length }

/-- A sequence of recv completions. -/
def receiveAll (dispatcher : MessageDispatcher α ω) (actor : α) (fuel : Nat) :
    Receiver ω → List (List Byte) → Except Failure (Receiver ω)
  | receiver, [] => .ok receiver
  | receiver, piece :: rest => do
    let receiver ← receive dispatcher actor fuel receiver piece
    receiveAll dispatcher actor fuel receiver rest

/-- What a message does to the application's state when it is dispatched. -/
def deliver (dispatcher : MessageDispatcher α ω) (actor : α) (world : ω) (message : List Byte) :
    ω :=
  (dispatcher.dispatch (parseMessage message).messageType.toInt message actor world).2.2

/-- The call of `dispatch` that a message causes. -/
def callOf (message : List Byte) : Int × List Byte :=
  ((parseMessage message).messageType.toInt, message)

/-- No handler that the table can find writes into the header of its span. -/
def Careful (dispatcher : MessageDispatcher α ω) : Prop :=
  ∀ wanted entry, dispatcher.find? wanted = some entry → entry.2.KeepsHeader

/-- The bytes of a message as they are when its handler has returned. -/
def writtenBack (dispatcher : MessageDispatcher α ω) (actor : α) (world : ω)
    (message : List Byte) : List Byte :=
  (dispatcher.dispatch (parseMessage message).messageType.toInt message actor world).2.1

/-- Messages whose handlers leave in each header the size that it has come with. -/
def KeepsSizes (dispatcher : MessageDispatcher α ω) (actor : α) : ω → List (List Byte) → Prop
  | _, [] => True
  | world, message :: rest =>
    (parseMessage (writtenBack dispatcher actor world message)).size = message.length ∧
      KeepsSizes dispatcher actor (deliver dispatcher actor world message) rest

variable {dispatcher : MessageDispatcher α ω} {actor : α}

/-- Sizes are kept in messages if they are in the first ones, and then in those behind them. -/
theorem keepsSizes_append {first rest : List (List Byte)} :
    ∀ {world : ω}, KeepsSizes dispatcher actor world (first ++ rest) ↔
      KeepsSizes dispatcher actor world first ∧
        KeepsSizes dispatcher actor (first.foldl (deliver dispatcher actor) world) rest := by
  -- The world of each message is the one that those before it have left.
  induction first with
  | nil => simp [KeepsSizes]
  | cons message first ih => simp [KeepsSizes, ih, and_assoc]

/-- Handlers that write into no header leave the sizes of all frames of a stream as they are. -/
theorem Careful.keepsSizes (careful : Careful dispatcher) (actor : α) (data : List Byte) :
    ∀ world, KeepsSizes dispatcher actor world (messageFraming.drain data).1 := by
  induction data using Framing.drain.induct messageFraming with
  | case1 data stopped =>
    intro world
    rw [Framing.drain_stop stopped]
    trivial
  | case2 data frame rest found ih =>
    intro world
    rw [Framing.drain_next found]
    refine ⟨?_, ih _⟩
    -- The header of the frame is read again as it was, and it declares the length of the frame.
    obtain ⟨_, _, size, _⟩ := messageFraming_next? found
    rw [writtenBack, parseMessage_congr (MessageDispatcher.dispatch_keepsHeader careful _ _ _ _),
      size]

/-- The loop is left in front of bytes that complete no frame. -/
theorem onReceivedTurn_stop {receiver : Receiver ω} {data : List Byte}
    (holds : receiver.object.Holds data) (stopped : messageFraming.next? data = none) :
    onReceivedTurn dispatcher actor receiver = .ok none := by
  simp only [onReceivedTurn, holds.receivedSpan, holds.1]
  simp only [Framing.next?, messageFraming] at stopped
  -- Each test of the loop is one of the reasons for which the framing finds no frame.
  by_cases short : data.length < sizeofMessageHeader
  · rw [if_pos (by omega)]
  · rw [if_neg (by omega)]
    by_cases small : (parseMessage data).size < sizeofMessageHeader
    · rw [if_pos small]
    · rw [if_neg small, if_pos]
      simp only [if_neg short, if_neg small] at stopped
      by_contra enough
      rw [if_pos (by omega)] at stopped
      cases stopped

/--
A complete frame at the front is dispatched, and bytes are removed.

The bytes that the handler has written are in its place, and it is their header that says how many
bytes are removed.
-/
theorem onReceivedTurn_frame (dispatcher : MessageDispatcher α ω) (actor : α)
    {receiver : Receiver ω} {data frame rest : List Byte} (holds : receiver.object.Holds data)
    (found : messageFraming.next? data = some (frame, rest)) :
    ∃ object : IOUringObject,
      object.Holds (writtenBack dispatcher actor receiver.world frame ++ rest) ∧
      object.socketFd = receiver.object.socketFd ∧
      onReceivedTurn dispatcher actor receiver = (do
        let object ← object.processCompleted
          (parseMessage (writtenBack dispatcher actor receiver.world frame)).size
        return some { receiver with
          object := object
          world := deliver dispatcher actor receiver.world frame
          dispatched := receiver.dispatched ++ [callOf frame] }) := by
  obtain ⟨rfl, header, size, parsed⟩ := messageFraming_next? found
  have count := holds.1
  simp only [List.length_append, sizeofMessageHeader] at count header
  obtain ⟨object, wrote, rewritten, sameFd⟩ := holds.rewrite
    (dispatcher.dispatch_length (parseMessage frame).messageType.toInt frame actor receiver.world)
  refine ⟨object, rewritten, sameFd, ?_⟩
  -- What is read from the buffer is the header of the bytes that take the place of the frame.
  have reread : parseMessage object.buffer =
      parseMessage (writtenBack dispatcher actor receiver.world frame) := by
    obtain ⟨_, behind, contents⟩ := rewritten
    rw [← contents, List.append_assoc, parseMessage_append, writtenBack]
    rw [dispatcher.dispatch_length]
    exact header
  simp only [onReceivedTurn, holds.receivedSpan, parsed, size, sizeofMessageHeader]
  rw [if_neg (by omega), if_neg (by omega), if_neg (by simp), Int.toNat_natCast, List.take_left]
  simp only [wrote, bind, Except.bind, reread, deliver, callOf]

/--
A complete frame at the front is dispatched and removed.

The handler may have rewritten the payload, but the size that is read back is that of the frame,
and the bytes behind the frame are untouched.
-/
theorem onReceivedTurn_kept (actor : α) {receiver : Receiver ω} {data frame rest : List Byte}
    (holds : receiver.object.Holds data)
    (found : messageFraming.next? data = some (frame, rest))
    (kept : (parseMessage (writtenBack dispatcher actor receiver.world frame)).size =
      frame.length) :
    ∃ object, onReceivedTurn dispatcher actor receiver = .ok (some { receiver with
        object := object
        world := deliver dispatcher actor receiver.world frame
        dispatched := receiver.dispatched ++ [callOf frame] }) ∧
      object.Holds rest ∧ object.socketFd = receiver.object.socketFd := by
  obtain ⟨object, rewritten, sameFd, turned⟩ := onReceivedTurn_frame dispatcher actor holds found
  -- The handler's bytes are as many as those of the frame, and all of them are removed.
  obtain ⟨after, processed, afterHolds, afterFd⟩ := rewritten.processCompleted
  rw [writtenBack, dispatcher.dispatch_length] at processed
  refine ⟨after, ?_, afterHolds, afterFd.trans sameFd⟩
  rw [turned, kept, processed]
  rfl

/--
The loop extracts exactly the complete frames of the bytes held, and ends.

It is granted one turn for every header that could fit in the bytes, and one more to leave.
-/
theorem onReceivedLoop_kept (actor : α) (data : List Byte) :
    ∀ (fuel : Nat) (receiver : Receiver ω), receiver.object.Holds data →
      KeepsSizes dispatcher actor receiver.world (messageFraming.drain data).1 →
      data.length < sizeofMessageHeader * fuel → ∃ object,
        onReceivedLoop dispatcher actor fuel receiver = .ok { receiver with
          object := object
          world := (messageFraming.drain data).1.foldl (deliver dispatcher actor) receiver.world
          dispatched := receiver.dispatched ++ (messageFraming.drain data).1.map callOf } ∧
        object.Holds (messageFraming.drain data).2 ∧
        object.socketFd = receiver.object.socketFd := by
  -- The induction follows the extraction, which each turn of the loop advances by one frame.
  induction data using Framing.drain.induct messageFraming with
  | case1 data stopped =>
    intro fuel receiver holds _ granted
    cases fuel with
    | zero => omega
    | succ fuel =>
      refine ⟨receiver.object, ?_, ?_, rfl⟩
      · simp only [onReceivedLoop, onReceivedTurn_stop holds stopped, Framing.drain_stop stopped,
          bind, Except.bind, pure, Except.pure, List.map_nil, List.append_nil, List.foldl_nil]
      · rw [Framing.drain_stop stopped]; exact holds
  | case2 data frame rest found ih =>
    intro fuel receiver holds sizes granted
    rw [Framing.drain_next found] at sizes
    cases fuel with
    | zero => omega
    | succ fuel =>
      obtain ⟨object, turned, held, sameFd⟩ := onReceivedTurn_kept actor holds found sizes.1
      obtain ⟨shorter, header, _, _⟩ := messageFraming_next? found
      have lengths : data.length = frame.length + rest.length := by
        rw [shorter, List.length_append]
      obtain ⟨last, looped, lastHolds, lastFd⟩ := ih fuel { receiver with
        object := object
        world := deliver dispatcher actor receiver.world frame
        dispatched := receiver.dispatched ++ [callOf frame] } held sizes.2
        (by simp only [sizeofMessageHeader] at *; omega)
      refine ⟨last, ?_, ?_, lastFd.trans sameFd⟩
      · simp only [onReceivedLoop, turned, looped, Framing.drain_next found, bind, Except.bind,
          List.map_cons, List.foldl_cons, List.append_assoc, List.singleton_append]
      · rw [Framing.drain_next found]; exact lastHolds

end ServiceSession

end Braid
