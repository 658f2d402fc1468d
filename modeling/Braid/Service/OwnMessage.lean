import Braid.Service.MessageFraming
import Mathlib.Data.List.TakeWhile

/-! What a handler reads of the receive buffer, and whether all of it is in its own message. -/

namespace Braid

/--
`parse_message<T>`: the bytes of an object of the given size, lying at the start of a span.

The size of the span is not looked at. The access is undefined where it leaves the buffer.
-/
def parseMessageAs (sizeofT : Nat) (object : IOUringObject) (data : Span) :
    Except Failure (List Byte) :=
  if 0 ≤ data.offset ∧ data.offset + sizeofT ≤ maxReceiveBufferSize then
    .ok ((object.buffer.drop data.offset.toNat).take sizeofT)
  else .error .undefined

/-- `std::string::assign` of a C string: the bytes up to the first zero, undefined without one. -/
def assignString (bytes : List Byte) : Except Failure (List Byte) :=
  if 0 ∈ bytes then .ok (bytes.takeWhile (· ≠ 0)) else .error .undefined

/-- `message_content` of the sample server's handler, or nothing where it refuses the message. -/
def messageContent (object : IOUringObject) (data : Span) :
    Except Failure (Option (List Byte)) := do
  let header := parseMessage (← parseMessageAs sizeofMessageHeader object data)
  if header.size < sizeofMessageHeader ∨ data.size < header.size then return none
  else if sizeofMessageHeader < header.size then
    -- The pointer is passed without a length.
    let content ← assignString (object.buffer.drop (data.offset.toNat + sizeofMessageHeader))
    return some content
  else return some []

namespace ServiceSession

variable {α ω : Type}

/--
The states that a session comes to on its receive path, and whether the loop is running there.

The handlers that a turn finds may be any, so that they may write what they like into their frame,
whatever they have read. A session that is closed is reset, and its buffer is used again.
-/
inductive Reaches (α : Type) (world : ω) : Bool → Receiver ω → Prop
  | accepted : Reaches α world false (accepted .new world)
  | recv {receiver : Receiver ω} {span : Span} {earlier : List Span} {piece : List Byte}
      {object : IOUringObject} (waiting : Reaches α world false receiver)
      (posted : receiver.posted = span :: earlier) (room : (piece.length : Int) ≤ span.size)
      (wrote : receiver.object.write span.offset piece = .ok object) :
      Reaches α world true { receiver with object := object.commit piece.length }
  | turn {receiver next : Receiver ω} {dispatcher : MessageDispatcher α ω} {actor : α}
      (running : Reaches α world true receiver)
      (turned : onReceivedTurn dispatcher actor receiver = .ok (some next)) :
      Reaches α world true next
  | leave {receiver : Receiver ω} {dispatcher : MessageDispatcher α ω} {actor : α}
      (running : Reaches α world true receiver)
      (left : onReceivedTurn dispatcher actor receiver = .ok none) :
      Reaches α world false (requestReceive receiver)
  | reused {receiver : Receiver ω} (waiting : Reaches α world false receiver) :
      Reaches α world false (ServiceSession.accepted receiver.object.reset receiver.world)

/-- The next turn of the loop in a session dispatches a frame, which is what it finds in front. -/
def Dispatches (α : Type) (world : ω) (receiver : Receiver ω) (frame : List Byte) : Prop :=
  Reaches α world true receiver ∧
    ∃ rest, messageFraming.next? receiver.object.receivedSpan = some (frame, rest)

/-- The span that the handler of a frame is given. -/
def messageSpan (frame : List Byte) : Span := ⟨0, frame.length⟩

/--
What a handler obtains of the type that it names is the same in all states that dispatch a frame.

No byte of it is outside of the frame.
-/
def ParsesOwn (α : Type) (world : ω) (sizeofT : Nat) (frame : List Byte) : Prop :=
  ∀ first second, Dispatches α world first frame → Dispatches α world second frame →
    ∃ message, parseMessageAs sizeofT first.object (messageSpan frame) = .ok message ∧
      parseMessageAs sizeofT second.object (messageSpan frame) = .ok message ∧
      message <+: frame

/--
The text that the sample handler extracts is the same in all states that dispatch a frame.

No byte of it is outside of the payload of the frame.
-/
def ReadsOwn (α : Type) (world : ω) (frame : List Byte) : Prop :=
  ∀ first second, Dispatches α world first frame → Dispatches α world second frame →
    ∃ content, messageContent first.object (messageSpan frame) = .ok (some content) ∧
      messageContent second.object (messageSpan frame) = .ok (some content) ∧
      content <+: frame.drop sizeofMessageHeader

variable {world : ω}

/-- A frame that is dispatched lies at the front of the buffer. -/
theorem Dispatches.front {receiver : Receiver ω} {frame : List Byte}
    (dispatches : Dispatches α world receiver frame) :
    ∃ behind, receiver.object.buffer = frame ++ behind := by
  obtain ⟨_, rest, found⟩ := dispatches
  obtain ⟨joined, _⟩ := Framing.next?_split found
  -- What is received is the part of the buffer that is committed.
  have prefix_ : frame <+: receiver.object.buffer := by
    refine List.IsPrefix.trans ⟨rest, joined.symm⟩ ?_
    exact List.take_prefix _ _
  obtain ⟨behind, same⟩ := prefix_
  exact ⟨behind, same.symm⟩

/-- A new session comes to dispatch a frame that is the first thing it receives. -/
theorem exists_dispatches (α : Type) (world : ω) (frame : Frame) (more : List Byte)
    (room : frame.bytes.length + more.length ≤ maxReceiveBufferSize) :
    ∃ receiver, Dispatches α world receiver frame.bytes ∧
      receiver.object.buffer = frame.bytes ++ more ++
        List.replicate (maxReceiveBufferSize - (frame.bytes.length + more.length)) 0 := by
  have start : IOUringObject.new.Holds [] := IOUringObject.holds_nil rfl
  -- The buffer of a new session is empty, so there is room for both.
  have fits : ((frame.bytes ++ more).length : Int) ≤ IOUringObject.new.remainSpan.size := by
    simp only [IOUringObject.remainSpan, IOUringObject.new, List.length_append]
    omega
  obtain ⟨filled, wrote, held⟩ := start.fill fits
  refine ⟨_, ⟨.recv (.accepted) rfl fits wrote, more, ?_⟩, ?_⟩
  · -- The frame is the first one of what was received.
    rw [held.receivedSpan, List.nil_append]
    exact Framing.next?_frame frame.isFrame more
  · -- The bytes are written over the zeros of a new buffer, from its start.
    rw [IOUringObject.write, dif_pos (by simp [IOUringObject.remainSpan, IOUringObject.new]; omega)]
      at wrote
    cases wrote
    simp [IOUringObject.commit, IOUringObject.remainSpan, IOUringObject.new]

/-- A type that is no longer than the frame is read from the frame. -/
theorem parseMessageAs_front {object : IOUringObject} {frame behind : List Byte} {sizeofT : Nat}
    (front : object.buffer = frame ++ behind) (short : sizeofT ≤ frame.length) :
    parseMessageAs sizeofT object (messageSpan frame) = .ok (frame.take sizeofT) := by
  -- The type ends inside of the frame, and so inside of the buffer.
  have length := object.buffer_length
  rw [front, List.length_append] at length
  rw [parseMessageAs, if_pos (by simp only [messageSpan]; omega), front]
  simp only [messageSpan, Int.toNat_zero, List.drop_zero, List.take_append_of_le_length short]

/-- As many bytes are read as the type is long. -/
theorem parseMessageAs_length {object : IOUringObject} {frame message : List Byte} {sizeofT : Nat}
    (parsed : parseMessageAs sizeofT object (messageSpan frame) = .ok message) :
    message.length = sizeofT := by
  unfold parseMessageAs at parsed
  split at parsed
  · -- A read that succeeds is one that the buffer covers.
    rename_i inside
    cases parsed
    have length := object.buffer_length
    simp only [messageSpan] at inside ⊢
    simp only [Int.toNat_zero, List.drop_zero, List.length_take]
    omega
  · cases parsed

/-- A handler obtains its own message only: exactly if its type is no longer than the frame. -/
theorem parsesOwn_iff (α : Type) (world : ω) (sizeofT : Nat) (frame : Frame) :
    ParsesOwn α world sizeofT frame.bytes ↔ sizeofT ≤ frame.bytes.length := by
  constructor
  · intro own
    -- In a new session the frame may be all that has arrived.
    obtain ⟨receiver, dispatches, -⟩ := exists_dispatches α world frame [] frame.length_le
    obtain ⟨message, parsed, _, inside⟩ := own receiver receiver dispatches dispatches
    rw [← parseMessageAs_length parsed]
    exact inside.length_le
  · intro short first second dispatches dispatches'
    obtain ⟨_, front⟩ := dispatches.front
    obtain ⟨_, front'⟩ := dispatches'.front
    exact ⟨_, parseMessageAs_front front short, parseMessageAs_front front' short,
      List.take_prefix _ _⟩

/-- The sample handler takes its text from the payload of the frame and from what is behind it. -/
theorem messageContent_front {object : IOUringObject} {behind : List Byte} {frame : Frame}
    (front : object.buffer = frame.bytes ++ behind) :
    messageContent object (messageSpan frame.bytes) =
      if frame.bytes.drop sizeofMessageHeader = [] then .ok (some [])
      else (assignString (frame.bytes.drop sizeofMessageHeader ++ behind)).map some := by
  have header := frame.header_le
  have parsed := parseMessageAs_front front header
  have size : (parseMessage (frame.bytes.take sizeofMessageHeader)).size = frame.bytes.length := by
    rw [← frame.size_eq]
    exact congrArg MessageHeader.size (parseMessage_congr (by rw [List.take_take, Nat.min_self]))
  -- The header is that of the frame, so that the message is not refused.
  simp only [messageContent, parsed, bind, Except.bind, size]
  rw [if_neg (by simp only [messageSpan]; omega)]
  by_cases empty : frame.bytes.drop sizeofMessageHeader = []
  · have length := List.drop_eq_nil_iff.mp empty
    rw [if_neg (by omega), if_pos empty]
    rfl
  · have length : ¬ frame.bytes.length ≤ sizeofMessageHeader := fun short =>
      empty (List.drop_eq_nil_iff.mpr short)
    rw [if_pos (by omega), if_neg empty, front]
    simp only [messageSpan, Int.toNat_zero, Nat.zero_add, List.drop_append_of_le_length header]
    cases assignString (frame.bytes.drop sizeofMessageHeader ++ behind) <;> rfl

/-- A string that has a zero ends there, whatever is behind it. -/
theorem assignString_zero {bytes : List Byte} (zero : 0 ∈ bytes) (behind : List Byte) :
    assignString (bytes ++ behind) = .ok (bytes.takeWhile (· ≠ 0)) := by
  rw [assignString, if_pos (List.mem_append_left _ zero)]
  -- The zero is met before the end of the first bytes.
  have ends : (bytes.takeWhile (· ≠ 0)).length ≠ bytes.length := by
    intro whole
    have all := List.takeWhile_eq_self_iff.mp
      ((List.takeWhile_prefix fun byte : Byte => decide (byte ≠ 0)).eq_of_length whole)
    exact of_decide_eq_true (all 0 zero) rfl
  rw [List.takeWhile_append, if_neg ends]

/-- Text without a zero goes on with the bytes behind the frame, up to a zero that is there. -/
theorem messageContent_open {object : IOUringObject} {behind content : List Byte} {frame : Frame}
    (front : object.buffer = frame.bytes ++ behind)
    (some_ : frame.bytes.drop sizeofMessageHeader ≠ [])
    (open_ : 0 ∉ frame.bytes.drop sizeofMessageHeader)
    (read : messageContent object (messageSpan frame.bytes) = .ok (some content)) :
    0 ∈ behind ∧
      content = frame.bytes.drop sizeofMessageHeader ++ behind.takeWhile (· ≠ 0) := by
  rw [messageContent_front front, if_neg some_, assignString] at read
  split at read
  · rename_i zero
    cases read
    refine ⟨(List.mem_append.mp zero).resolve_left open_, ?_⟩
    -- All bytes of the payload are passed.
    refine List.takeWhile_append_of_pos fun byte member => ?_
    exact decide_eq_true fun zero => open_ (zero ▸ member)
  · cases read

/--
The sample handler extracts text of its own message only: exactly if the text ends in it.

Either there is no text, or it has a zero in it. The text of any other frame goes on in the bytes
that happen to be behind the frame.
-/
theorem readsOwn_iff (α : Type) (world : ω) (frame : Frame) :
    ReadsOwn α world frame.bytes ↔ frame.bytes.drop sizeofMessageHeader = [] ∨
      0 ∈ frame.bytes.drop sizeofMessageHeader := by
  constructor
  · intro own
    by_contra endless
    obtain ⟨some_, open_⟩ := not_or.mp endless
    have bound := frame.length_le
    by_cases full : frame.bytes.length = maxReceiveBufferSize
    · -- A frame that fills the buffer has nothing behind it, and no zero to stop at.
      obtain ⟨receiver, dispatches, front⟩ := exists_dispatches α world frame [] bound
      obtain ⟨content, read, -⟩ := own receiver receiver dispatches dispatches
      rw [List.append_assoc] at front
      obtain ⟨zero, -⟩ := messageContent_open front some_ open_ read
      simp [full] at zero
    · -- Behind any other frame may be a one, which becomes a part of the text.
      obtain ⟨receiver, dispatches, front⟩ := exists_dispatches α world frame [1]
        (by rw [List.length_singleton]; omega)
      obtain ⟨content, read, _, inside⟩ := own receiver receiver dispatches dispatches
      rw [List.append_assoc] at front
      obtain ⟨-, rfl⟩ := messageContent_open front some_ open_ read
      have longer := inside.length_le
      rw [List.length_append, List.singleton_append, List.takeWhile_cons_of_pos (by decide)]
        at longer
      simp only [List.length_cons] at longer
      omega
  · intro ends first second dispatches dispatches'
    -- Where the text ends in the frame, nothing behind the frame is read.
    obtain ⟨_, front⟩ := dispatches.front
    obtain ⟨_, front'⟩ := dispatches'.front
    rw [messageContent_front front, messageContent_front front']
    by_cases empty : frame.bytes.drop sizeofMessageHeader = []
    · simp [empty]
    · have zero := ends.resolve_left empty
      simp only [if_neg empty, assignString_zero zero]
      exact ⟨_, rfl, rfl, List.takeWhile_prefix _⟩

/--
A handler sees only its own message: exactly if its type and its text end in the frame.

Neither the size of the span nor that of the frame is looked at: the type that a handler names is
read over the end of a shorter frame, and a text without a zero over the end of any frame.
-/
theorem seesOwn_iff (α : Type) (world : ω) (sizeofT : Nat) (frame : Frame) :
    ParsesOwn α world sizeofT frame.bytes ∧ ReadsOwn α world frame.bytes ↔
      sizeofT ≤ frame.bytes.length ∧ (frame.bytes.drop sizeofMessageHeader = [] ∨
        0 ∈ frame.bytes.drop sizeofMessageHeader) :=
  and_congr (parsesOwn_iff α world sizeofT frame) (readsOwn_iff α world frame)

/--
A message of type one that arrives alone, and together with the next one.

The handler that takes eight bytes of payload and the one that takes the text get other bytes.
-/
theorem seesOwn_fails :
    ∃ first second : Receiver Unit, Dispatches Unit () first ping.bytes ∧
      Dispatches Unit () second ping.bytes ∧
      parseMessageAs 16 first.object (messageSpan ping.bytes) =
        .ok [12, 0, 0, 0, 1, 0, 0, 0, 112, 105, 110, 103, 0, 0, 0, 0] ∧
      parseMessageAs 16 second.object (messageSpan ping.bytes) =
        .ok [12, 0, 0, 0, 1, 0, 0, 0, 112, 105, 110, 103, 8, 0, 0, 0] ∧
      messageContent first.object (messageSpan ping.bytes) = .ok (some [112, 105, 110, 103]) ∧
      messageContent second.object (messageSpan ping.bytes) =
        .ok (some [112, 105, 110, 103, 8]) ∧
      ¬ ParsesOwn Unit () 16 ping.bytes ∧ ¬ ReadsOwn Unit () ping.bytes := by
  -- One receiver gets the frame alone, and the other one with a frame behind it.
  obtain ⟨first, alone, front⟩ := exists_dispatches Unit () ping [] (by decide)
  obtain ⟨second, followed, front'⟩ := exists_dispatches Unit () ping bare.bytes (by decide)
  -- The struct is longer than the frame, and takes what is behind it.
  have parsed : parseMessageAs 16 first.object (messageSpan ping.bytes) =
      .ok [12, 0, 0, 0, 1, 0, 0, 0, 112, 105, 110, 103, 0, 0, 0, 0] := by
    rw [parseMessageAs, front]
    decide +kernel
  have parsed' : parseMessageAs 16 second.object (messageSpan ping.bytes) =
      .ok [12, 0, 0, 0, 1, 0, 0, 0, 112, 105, 110, 103, 8, 0, 0, 0] := by
    rw [parseMessageAs, front']
    decide +kernel
  -- The text has no end in the frame, and goes on to the next zero.
  have read : messageContent first.object (messageSpan ping.bytes) =
      .ok (some [112, 105, 110, 103]) := by
    rw [messageContent_front (by rw [front, List.append_assoc])]
    decide +kernel
  have read' : messageContent second.object (messageSpan ping.bytes) =
      .ok (some [112, 105, 110, 103, 8]) := by
    rw [messageContent_front (by rw [front', List.append_assoc])]
    decide +kernel
  refine ⟨first, second, alone, followed, parsed, parsed', read, read',
    fun own => ?_, fun own => ?_⟩
  · obtain ⟨message, same, same', _⟩ := own first second alone followed
    rw [parsed] at same
    rw [parsed'] at same'
    cases same
    simp at same'
  · obtain ⟨content, same, same', _⟩ := own first second alone followed
    rw [read] at same
    rw [read'] at same'
    cases same
    simp at same'

end ServiceSession

end Braid
