import Braid.Message.MessageDispatcher
import Braid.Message.WriteOverloads

/-! Messages as they are put into send buffers, and as they are read back from a stream. -/

namespace Braid

open SendBuffer (objectBytes)

/-- The bytes that a header is represented by: its two fields, one behind the other. -/
def MessageHeader.bytes (header : MessageHeader) : List Byte :=
  -- An `int` is written in two's complement, the lowest byte first.
  objectBytes 4 (BitVec.ofInt 32 header.size).toNat ++ objectBytes 4 header.messageType.toNat

/-- A word lies in memory as its four bytes. -/
theorem objectBytes_word (value : Nat) :
    objectBytes 4 value = [UInt8.ofNat (value / 256 ^ 0), UInt8.ofNat (value / 256 ^ 1),
      UInt8.ofNat (value / 256 ^ 2), UInt8.ofNat (value / 256 ^ 3)] := rfl

/-- An object has as many bytes as its size says. -/
@[simp] theorem objectBytes_length (size value : Nat) : (objectBytes size value).length = size := by
  simp [objectBytes]

/-- A word that lies at the front of some bytes is read as it was written. -/
theorem readWord_objectBytes (value : Nat) (rest : List Byte) :
    readWord (objectBytes 4 value ++ rest) 0 = BitVec.ofNat 32 value := by
  -- Every byte of the value holds eight of its bits.
  have bit (i place : Nat) : (value / 256 ^ i).testBit place = value.testBit (8 * i + place) := by
    rw [show 256 ^ i = 2 ^ (8 * i) by rw [Nat.pow_mul], Nat.testBit_div_two_pow, Nat.add_comm]
  -- A bit of the word is the bit of the one byte that it falls into.
  refine BitVec.eq_of_getLsbD_eq fun place inside => ?_
  simp only [readWord, objectBytes_word, List.cons_append, List.nil_append,
    List.getElem?_cons_succ, List.getElem?_cons_zero, Option.getD_some, BitVec.getLsbD_or,
    BitVec.getLsbD_shiftLeft, BitVec.getLsbD_setWidth, BitVec.getLsbD_ofNat, Nat.zero_add,
    UInt8.toBitVec_ofNat', bit]
  grind

/-- Four bytes are those of the number that they write, which is a word. -/
theorem exists_objectBytes {bytes : List Byte} (long : 4 ≤ bytes.length) :
    ∃ value, value < 2 ^ 32 ∧ objectBytes 4 value = bytes.take 4 := by
  -- The number is the sum of the four bytes, each at its place.
  match bytes, long with
  | b0 :: b1 :: b2 :: b3 :: rest, _ =>
    have small (byte : UInt8) : byte.toNat < 256 := byte.toNat_lt
    have s0 := small b0
    have s1 := small b1
    have s2 := small b2
    have s3 := small b3
    refine ⟨b0.toNat + 256 * (b1.toNat + 256 * (b2.toNat + 256 * b3.toNat)), by omega, ?_⟩
    -- Dividing by a power of 256 drops the lower bytes, and a byte drops the higher ones.
    simp only [objectBytes_word, List.take_succ_cons, List.take_zero, List.cons.injEq, and_true,
      ← UInt8.toNat_inj, UInt8.toNat_ofNat']
    omega

/-- A word that is read lies in memory as the four bytes that it is read from. -/
theorem objectBytes_readWord {bytes : List Byte} (long : 4 ≤ bytes.length) :
    objectBytes 4 (readWord bytes 0).toNat = bytes.take 4 := by
  obtain ⟨value, small, written⟩ := exists_objectBytes long
  have read : readWord bytes 0 = BitVec.ofNat 32 value := by
    rw [← List.take_append_drop 4 bytes, ← written, readWord_objectBytes]
  -- A word has no bits that reading it would cut off.
  rw [read, BitVec.toNat_ofNat, Nat.mod_eq_of_lt small, written]

/-- A word that lies behind some bytes is read as it is read from its own front. -/
theorem readWord_append (front bytes : List Byte) :
    readWord (front ++ bytes) front.length = readWord bytes 0 := by
  simp only [readWord, List.getElem?_append_right (Nat.le_add_right _ _), Nat.add_sub_cancel_left,
    Nat.zero_add]

/-- A header has the eight bytes of its two fields. -/
@[simp] theorem MessageHeader.bytes_length (header : MessageHeader) :
    header.bytes.length = sizeofMessageHeader := by
  simp [MessageHeader.bytes, sizeofMessageHeader]

/-- A header whose size is an `int` is parsed from the front of a span as it was written. -/
theorem parseMessage_bytes {header : MessageHeader}
    (isInt : -2 ^ 31 ≤ header.size ∧ header.size < 2 ^ 31) (rest : List Byte) :
    parseMessage (header.bytes ++ rest) = header := by
  -- The size is at the front, and the type is behind its four bytes.
  have size : readWord (header.bytes ++ rest) 0 = BitVec.ofInt 32 header.size := by
    rw [MessageHeader.bytes, List.append_assoc, readWord_objectBytes, BitVec.ofNat_toNat,
      BitVec.setWidth_eq]
  have type : readWord (header.bytes ++ rest) 4 = header.messageType := by
    have behind := readWord_append (objectBytes 4 (BitVec.ofInt 32 header.size).toNat)
      (objectBytes 4 header.messageType.toNat ++ rest)
    rw [objectBytes_length, readWord_objectBytes, BitVec.ofNat_toNat, BitVec.setWidth_eq] at behind
    rw [MessageHeader.bytes, List.append_assoc]
    exact behind
  simp only [parseMessage, size, type, BitVec.toInt_ofInt]
  rw [Int.bmod_eq_of_le (by omega) (by omega)]

/-- The header that is parsed from a span lies in its first eight bytes. -/
theorem bytes_parseMessage {bytes : List Byte} (arrived : sizeofMessageHeader ≤ bytes.length) :
    (parseMessage bytes).bytes = bytes.take sizeofMessageHeader := by
  simp only [sizeofMessageHeader] at arrived
  have size := objectBytes_readWord (show 4 ≤ bytes.length by omega)
  -- The type is read behind the size, from the front of what follows it.
  have type : objectBytes 4 (readWord bytes 4).toNat = (bytes.drop 4).take 4 := by
    have behind := readWord_append (bytes.take 4) (bytes.drop 4)
    rw [List.take_append_drop, List.length_take, Nat.min_eq_left (by omega)] at behind
    rw [behind, objectBytes_readWord (by simp only [List.length_drop]; omega)]
  simp only [parseMessage, MessageHeader.bytes, BitVec.ofInt_toInt, size, type]
  rw [← List.take_add]
  rfl

/-- A message that is sent: its type, and what is behind its header. Its size is an `int`. -/
structure Message where
  messageType : BitVec 32
  payload : List Byte
  isInt : sizeofMessageHeader + payload.length ≤ intMax
  deriving DecidableEq

namespace Message

/-- The header of a message, which counts itself. -/
def header (message : Message) : MessageHeader :=
  ⟨sizeofMessageHeader + message.payload.length, message.messageType⟩

/-- The bytes of a message. -/
def bytes (message : Message) : List Byte := message.header.bytes ++ message.payload

/-- A message is as long as its header says. -/
@[simp] theorem bytes_length (message : Message) :
    message.bytes.length = sizeofMessageHeader + message.payload.length := by
  simp [bytes]

/-- The header of a message is parsed as it was written, whatever follows the message. -/
theorem parseMessage_append (message : Message) (rest : List Byte) :
    parseMessage (message.bytes ++ rest) = message.header := by
  have isInt := message.isInt
  simp only [intMax, sizeofMessageHeader] at isInt
  rw [bytes, List.append_assoc, parseMessage_bytes]
  simp only [header, sizeofMessageHeader]
  omega

/-- The header of a message is parsed as it was written. -/
@[simp] theorem parseMessage_eq (message : Message) :
    parseMessage message.bytes = message.header := by
  simpa using message.parseMessage_append []

/-- What is behind the header of a message is its payload. -/
@[simp] theorem drop_bytes (message : Message) :
    message.bytes.drop sizeofMessageHeader = message.payload := by
  rw [bytes, ← MessageHeader.bytes_length message.header, List.drop_left]

/-- A message that fits in the receive buffer of a peer is a frame. -/
def frame (message : Message) (fits : message.bytes.length ≤ maxReceiveBufferSize) : Frame where
  bytes := message.bytes
  header_le := by simp
  length_le := fits
  size_eq := by simp [header]

/-- The message that a frame is. -/
def ofFrame (frame : Frame) : Message where
  messageType := (parseMessage frame.bytes).messageType
  payload := frame.bytes.drop sizeofMessageHeader
  isInt := by
    have header := frame.header_le
    have length := frame.length_le
    simp only [maxReceiveBufferSize, sizeofMessageHeader, intMax, List.length_drop] at *
    omega

/-- The bytes of the message that a frame is are its own. -/
theorem bytes_ofFrame (frame : Frame) : (ofFrame frame).bytes = frame.bytes := by
  -- The size in the header of a frame is its length.
  have header : (ofFrame frame).header = parseMessage frame.bytes := by
    have long := frame.header_le
    have size : (parseMessage frame.bytes).size = _ := frame.size_eq
    rw [← Nat.add_sub_cancel' long, Int.natCast_add] at size
    simp only [Message.header, ofFrame, List.length_drop, ← size]
  rw [Message.bytes, header, bytes_parseMessage frame.header_le]
  exact List.take_append_drop _ _

/-- The message of a frame that a message makes is that message. -/
theorem ofFrame_frame (message : Message)
    (fits : message.bytes.length ≤ maxReceiveBufferSize) :
    ofFrame (message.frame fits) = message := by
  obtain ⟨messageType, payload, isInt⟩ := message
  simp [ofFrame, frame, header]

/-- The call of `write` that `SendMessage` makes for a header and what is behind it. -/
def write (message : Message) : SendBuffer.Write :=
  .pack [message.header.bytes, message.payload]

/-- The message fits in a send buffer. -/
def Fits (message : Message) : Prop := message.bytes.length ≤ maxMessageSize

instance (message : Message) : Decidable message.Fits := inferInstanceAs (Decidable (_ ≤ _))

/-- A message is written to a fresh send buffer whole, or not at all. -/
theorem write_new (message : Message) (memory : Vector Byte maxMessageSize) :
    ∃ sendBuffer, (SendBuffer.new memory).write message.write = .ok sendBuffer ∧
      sendBuffer.getBuffer = if message.Fits then message.bytes else [] := by
  have length : ([message.header.bytes, message.payload].flatten).length = message.bytes.length := by
    simp [bytes]
  have isInt := message.isInt
  have fresh : (SendBuffer.new memory).Holds [] := ⟨rfl, List.nil_prefix⟩
  -- The size that `write` tests is the length of the message, as that is an `int`.
  have measured : message.write.Measured [] := by
    have total : SendBuffer.totalSize [message.header.bytes, message.payload] =
        message.bytes.length := by
      rw [SendBuffer.totalSize_eq (by rw [length, bytes_length]; exact isInt), length]
    simp only [write, SendBuffer.Write.Measured, SendBuffer.Write.tested, SendBuffer.Write.bytes,
      total, length, bytes_length, List.length_nil]
    exact ⟨by omega, .inl trivial⟩
  -- The buffer was empty, and now holds what the call adds to nothing.
  obtain ⟨after, written, holds, -⟩ := fresh.writeArgs measured
  refine ⟨after, written, holds.getBuffer.trans ?_⟩
  simp only [SendBuffer.expect, SendBuffer.Write.Fits, SendBuffer.Write.bytes, length, List.length_nil,
    Nat.zero_add, List.nil_append, Fits]
  simp [bytes]

end Message

/-- The actors that `SendMessage` is called with: one of them, or a list. -/
inductive Recipients (α : Type) where
  | one (actor : Option α)
  | list (actorList : List (Option α))

/-- The actors that a message is to be sent to, each as often as it is named. -/
def Recipients.named {α : Type} : Recipients α → List α
  | .one actor => actor.toList
  | .list actorList => actorList.filterMap id

/--
`SendMessage`: the actors that are requested to send, each with the send buffer.

One actor that is null is turned away before there is a buffer, and those of a list are passed over.
-/
def sendMessage {α : Type} (memory : Vector Byte maxMessageSize) (args : SendBuffer.Write) :
    Recipients α → Except WriteFault (List (α × SendBuffer))
  | .one none => .ok []
  | .one (some actor) => do
    let sendBuffer ← (SendBuffer.new memory).write args
    return [(actor, sendBuffer)]
  | .list actorList => do
    let sendBuffer ← (SendBuffer.new memory).write args
    return actorList.filterMap fun actor => actor.map fun actor => (actor, sendBuffer)

end Braid
