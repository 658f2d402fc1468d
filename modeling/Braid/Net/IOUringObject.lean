import Mathlib.Data.List.Basic

/-! The receive buffer of an io_uring object: committed bytes, their spans, and the shift. -/

namespace Braid

/-- A byte of the receive buffer, a `char` of the source. -/
abbrev Byte := UInt8

/-- The size of `buffer_`, `MAX_RECEIVE_BUFFER_SIZE`. -/
def maxReceiveBufferSize : Nat := 4096

/-- Why a call that reads or shifts the buffer does not return. -/
inductive Failure where
  -- An access outside the buffer, for which the source has no meaning.
  | undefined
  -- The loop was still running when the iterations granted to it were used up.
  | outOfFuel
  deriving DecidableEq, Repr

/-- A `std::span<char>` into the receive buffer, as the position of its first byte and its size. -/
structure Span where
  offset : Int
  size : Int
  deriving DecidableEq, Repr

/-- The parts of an `IOUringObject` that the receive path reads and writes. -/
structure IOUringObject where
  buffer : List Byte
  commitedSize : Int
  socketFd : Int
  buffer_length : buffer.length = maxReceiveBufferSize
  deriving DecidableEq

namespace IOUringObject

/-- A new object: a zeroed buffer with nothing committed and no descriptor. -/
def new : IOUringObject where
  buffer := List.replicate maxReceiveBufferSize 0
  commitedSize := 0
  socketFd := -1
  buffer_length := List.length_replicate

/-- `reset`: nothing is committed any more. -/
def reset (object : IOUringObject) : IOUringObject := { object with commitedSize := 0 }

/-- `set_socket_fd`. -/
def setSocketFd (object : IOUringObject) (fd : Int) : IOUringObject := { object with socketFd := fd }

/-- `commit`: counts the bytes a recv has written behind the committed ones. -/
def commit (object : IOUringObject) (size : Int) : IOUringObject :=
  { object with commitedSize := object.commitedSize + size }

/-- `memmove(buffer_, buffer_ + source, count)`, undefined where it leaves the buffer. -/
def memmoveToFront (object : IOUringObject) (source count : Int) :
    Except Failure IOUringObject :=
  if inside : 0 ≤ source ∧ 0 ≤ count ∧ source + count ≤ maxReceiveBufferSize then
    .ok { object with
      buffer := (object.buffer.drop source.toNat).take count.toNat ++
        object.buffer.drop count.toNat
      buffer_length := by
        have := object.buffer_length
        simp only [List.length_append, List.length_take, List.length_drop]
        omega }
  else .error .undefined

/-- `process_completed`: drops the first bytes by shifting the committed rest to the front. -/
def processCompleted (object : IOUringObject) (size : Int) : Except Failure IOUringObject :=
  if 0 < object.commitedSize - size then do
    let shifted ← object.memmoveToFront size (object.commitedSize - size)
    return { shifted with commitedSize := object.commitedSize - size }
  else return { object with commitedSize := object.commitedSize - size }

/-- `get_received_span`, read as the committed bytes themselves. -/
def receivedSpan (object : IOUringObject) : List Byte :=
  object.buffer.take object.commitedSize.toNat

/-- `get_remain_span`: the room behind the committed bytes. -/
def remainSpan (object : IOUringObject) : Span :=
  ⟨object.commitedSize, maxReceiveBufferSize - object.commitedSize⟩

/-- Bytes written over the buffer from a position on, undefined where they leave the buffer. -/
def write (object : IOUringObject) (offset : Int) (bytes : List Byte) :
    Except Failure IOUringObject :=
  if inside : 0 ≤ offset ∧ offset + bytes.length ≤ maxReceiveBufferSize then
    .ok { object with
      buffer := object.buffer.take offset.toNat ++ bytes ++
        object.buffer.drop (offset.toNat + bytes.length)
      buffer_length := by
        have := object.buffer_length
        simp only [List.length_append, List.length_take, List.length_drop]
        omega }
  else .error .undefined

/--
The committed bytes of an object, when its count lies inside the buffer.

This is the state every step of the receive path keeps as long as frames are well formed.
-/
def Holds (object : IOUringObject) (bytes : List Byte) : Prop :=
  object.commitedSize = bytes.length ∧ bytes <+: object.buffer

/-- What an object holds is what its received span shows. -/
theorem Holds.receivedSpan {object : IOUringObject} {bytes : List Byte}
    (holds : object.Holds bytes) : object.receivedSpan = bytes := by
  obtain ⟨count, rest, joined⟩ := holds
  simp [IOUringObject.receivedSpan, count, ← joined]

/-- No more bytes are held than fit in the buffer. -/
theorem Holds.length_le {object : IOUringObject} {bytes : List Byte}
    (holds : object.Holds bytes) : bytes.length ≤ maxReceiveBufferSize := by
  rw [← object.buffer_length]
  exact holds.2.length_le

/-- An object with nothing committed holds the empty string. -/
theorem holds_nil {object : IOUringObject} (empty : object.commitedSize = 0) :
    object.Holds [] := ⟨empty, List.nil_prefix⟩

/-- Dropping a prefix of the held bytes leaves exactly the bytes behind it. -/
theorem Holds.processCompleted {object : IOUringObject} {first rest : List Byte}
    (holds : object.Holds (first ++ rest)) :
    ∃ after, object.processCompleted first.length = .ok after ∧ after.Holds rest ∧
      after.socketFd = object.socketFd := by
  have bound := holds.length_le
  obtain ⟨count, behind, joined⟩ := holds
  simp only [List.length_append] at count bound
  unfold IOUringObject.processCompleted
  by_cases shift : 0 < object.commitedSize - first.length
  · rw [if_pos shift, memmoveToFront, dif_pos (by omega)]
    refine ⟨_, rfl, ⟨?_, ?_⟩, rfl⟩
    · show object.commitedSize - first.length = _
      omega
    · -- The moved region starts right behind the dropped prefix and is as long as the rest.
      have length : (object.commitedSize - first.length).toNat = rest.length := by omega
      refine ⟨object.buffer.drop rest.length, ?_⟩
      simp only [length, Int.toNat_natCast, ← joined, List.append_assoc, List.drop_left,
        List.take_left]
  · -- Nothing is left to move when the dropped prefix is everything that was committed.
    have empty : rest = [] := List.eq_nil_of_length_eq_zero (by omega)
    rw [if_neg shift]
    refine ⟨_, rfl, ⟨?_, ?_⟩, rfl⟩
    · show object.commitedSize - first.length = _
      omega
    · rw [empty]; exact List.nil_prefix

/-- Rewriting the first held bytes in place leaves the bytes behind them held as they were. -/
theorem Holds.rewrite {object : IOUringObject} {first rest written : List Byte}
    (holds : object.Holds (first ++ rest)) (sameLength : written.length = first.length) :
    ∃ after, object.write 0 written = .ok after ∧ after.Holds (written ++ rest) ∧
      after.socketFd = object.socketFd := by
  have bound := holds.length_le
  obtain ⟨count, behind, joined⟩ := holds
  simp only [List.length_append] at count bound
  rw [write, dif_pos (by omega)]
  -- As many bytes are written as there were, so nothing moves.
  refine ⟨_, rfl, ⟨?_, behind, ?_⟩, rfl⟩
  · show object.commitedSize = _
    simp only [List.length_append]
    omega
  · simp [← joined, sameLength]

/-- Bytes written into the room behind the held ones and committed extend what is held. -/
theorem Holds.fill {object : IOUringObject} {bytes piece : List Byte}
    (holds : object.Holds bytes) (room : (piece.length : Int) ≤ object.remainSpan.size) :
    ∃ filled, object.write object.remainSpan.offset piece = .ok filled ∧
      (filled.commit piece.length).Holds (bytes ++ piece) := by
  obtain ⟨count, behind, joined⟩ := holds
  simp only [remainSpan] at room ⊢
  rw [write, dif_pos (by omega)]
  refine ⟨_, rfl, ?_, ?_⟩
  · show object.commitedSize + piece.length = _
    simp only [List.length_append]
    omega
  · -- The room begins right behind the held bytes.
    have position : object.commitedSize.toNat = bytes.length := by omega
    refine ⟨object.buffer.drop (bytes.length + piece.length), ?_⟩
    simp only [commit, position, ← joined, List.take_left]

end IOUringObject

end Braid
