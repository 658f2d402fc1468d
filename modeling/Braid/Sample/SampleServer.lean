import Braid.Library.Text
import Braid.Library.Transition
import Braid.Message.MessageHeader
import Braid.Service.Machine
import Braid.Service.OwnMessage

/-! The sample server: how it numbers the messages that it handles, and what it sends back. -/

namespace Braid.Sample

open SendBuffer (objectBytes)
open Service (ActorCall)
open Transition

/-- `std::stoll`, which throws where there is no number or one that is no `long long`. -/
def stoll (text : List Byte) : Option Int :=
  (Text.readInt? text).filter fun number => -2 ^ 63 ≤ number ∧ number < 2 ^ 63

/-- `seq` of `timestamp_task`: the number behind `seq=` at the start of a message, or -1. -/
def sequenceOf (message : List Byte) : Int :=
  if (Text.ofString "seq=").isPrefixOf message then
    match message.idxOf? 59 with
    | none => -1
    | some firstSep => (stoll ((message.drop 4).take (firstSep - 4))).getD (-1)
  else -1

/-- `header` of `timestamp_task`, with its constant verdict about the sequence. -/
def replyHeader (seq : Int) (totalSendSize : Nat) (message : List Byte) : List Byte :=
  let sequentialOk := false
  (if sequentialOk then Text.ofString "[OK] " else Text.ofString "[ERR] ") ++
    (Text.ofString "seq=" ++ Text.ofInt seq ++ Text.ofString "; ") ++
    (Text.ofString "sequential=" ++
      (if sequentialOk then Text.ofString "true" else Text.ofString "false") ++
      Text.ofString "; ") ++
    (Text.ofString "size=" ++ Text.ofNat totalSendSize ++ Text.ofString "; ") ++ message

/-- `kChunkSize`. -/
def kChunkSize : Nat := 1024

/-- `payload`: a string of `x`, with the part of the header that belongs there laid over it. -/
def payloadAt (header : List Byte) (chunk offset : Nat) : List Byte :=
  let payload := List.replicate chunk (120 : Byte)
  if offset < header.length then
    let copy := min chunk (header.length - offset)
    (header.drop offset).take copy ++ payload.drop copy
  else payload

/-- Where a chunk lies: the memory of its send buffer, and the address of its string. -/
abbrev Allocation := Vector Byte maxMessageSize × BitVec 64

/--
A new send buffer with `write(payload.data(), size)`.

The string is not const, so that `data()` is a `char*`.
-/
def writeChunk (allocation : Allocation) (payload : List Byte) : Option SendBuffer :=
  ((SendBuffer.new allocation.1).writeRange ⟨false, allocation.2, payload⟩
    ⟨false, payload.length⟩).bind Except.toOption

/-- The loop of `timestamp_task`: the strings that it fills, with the send buffers that it makes. -/
def sendChunks (header : List Byte) (allocations : Nat → Allocation) (remaining offset : Nat) :
    Option (List (List Byte × SendBuffer)) :=
  if remaining = 0 then some []
  else
    let chunk := min kChunkSize remaining
    let payload := payloadAt header chunk offset
    (writeChunk (allocations offset) payload).bind fun sendBuffer =>
      (sendChunks header allocations (remaining - chunk) (offset + chunk)).map fun rest =>
        (payload, sendBuffer) :: rest
termination_by remaining
decreasing_by simp only [kChunkSize]; omega

/-- What a reply is sent as: the strings filled for it, and the calls of `request_send`. -/
structure Reply where
  actor : Nat
  totalSendSize : Nat
  message : List Byte
  payloads : List (List Byte)
  requests : List ActorCall

/-- `timestamp_task`, where the size of the reply has been drawn. -/
def timestampTask (actor : Nat) (message : List Byte) (totalSendSize : Nat)
    (allocations : Nat → Allocation) : Option Reply :=
  let header := replyHeader (sequenceOf message) totalSendSize message
  (sendChunks header allocations totalSendSize 0).map fun sent =>
    { actor := actor
      totalSendSize := totalSendSize
      message := message
      payloads := sent.map Prod.fst
      requests := sent.map fun chunk => .requestSend actor chunk.2.getBuffer }

/-- `wrapped_message` of the handler. -/
def wrappedMessage (seq currentTime : Int) (messageContent : List Byte) : List Byte :=
  Text.ofString "seq=" ++ Text.ofInt seq ++ Text.ofString "; ts=" ++ Text.ofInt currentTime ++
    Text.ofString "; " ++ messageContent

/-- A call of the handler: the receive buffer, its message, and what the handler finds around. -/
structure HandlerCall where
  object : IOUringObject
  data : Span
  actor : Nat
  currentTime : BitVec 64
  totalSendSize : Nat
  allocations : Nat → Allocation

/-- `g_seq`, and the replies so far. -/
structure Server where
  gSeq : BitVec 64 := 0
  replies : List Reply := []

/-- The handler of the sample server; a read of the buffer over its end has no meaning. -/
def handle (server : Server) (call : HandlerCall) : Option Server :=
  match messageContent call.object call.data with
  | .error _ => none
  -- The message is refused, and logged.
  | .ok none => some server
  | .ok (some messageContent) =>
    let wrapped := wrappedMessage server.gSeq.toInt call.currentTime.toInt messageContent
    (timestampTask call.actor wrapped call.totalSendSize call.allocations).map fun reply =>
      { gSeq := server.gSeq + 1, replies := server.replies ++ [reply] }

/-- A number that is a `long long` reads back from the text in front of a separator. -/
theorem stoll_ofInt {number : Int} (lower : -2 ^ 63 ≤ number) (upper : number < 2 ^ 63) :
    stoll (Text.ofInt number) = some number := by
  have read : Text.readInt? (Text.ofInt number ++ []) = some number :=
    Text.readInt?_ofInt number (by simp)
  rw [List.append_nil] at read
  rw [stoll, read, Option.filter_some, if_pos (by simpa using ⟨lower, upper⟩)]

/-- The place of the first separator is behind everything that contains none. -/
theorem idxOf?_separator {separator : Byte} {front : List Byte} (free : separator ∉ front)
    (rest : List Byte) : (front ++ separator :: rest).idxOf? separator = some front.length := by
  -- The search passes what is in front, character by character.
  induction front with
  | nil => simp [List.idxOf?_cons]
  | cons first front ih =>
    obtain ⟨other, free⟩ := not_or.mp (fun member => free (List.mem_cons.mpr member))
    rw [List.cons_append, List.idxOf?_cons, ih free, if_neg (by simpa using Ne.symm other)]
    rfl

/-- No character of a number is a separator. -/
theorem separator_notMem_ofInt (number : Int) : (59 : Byte) ∉ Text.ofInt number := by
  have digits (natural : Nat) : (59 : Byte) ∉ Text.ofNat natural := fun member =>
    absurd (Text.isDigit_of_mem_ofNat member) (by decide)
  unfold Text.ofInt
  split
  · exact fun member => (List.mem_cons.mp member).elim (by decide) (digits _)
  · exact digits _

/-- The task finds the number that the handler has put in front of a message. -/
theorem sequenceOf_wrappedMessage {seq : Int} (lower : -2 ^ 63 ≤ seq) (upper : seq < 2 ^ 63)
    (currentTime : Int) (content : List Byte) :
    sequenceOf (wrappedMessage seq currentTime content) = seq := by
  -- A semicolon stands behind the number, and the time behind that.
  obtain ⟨rest, same⟩ : ∃ rest, wrappedMessage seq currentTime content =
      Text.ofString "seq=" ++ (Text.ofInt seq ++ 59 :: rest) := by
    refine ⟨Text.ofString " ts=" ++ Text.ofInt currentTime ++ Text.ofString "; " ++ content, ?_⟩
    simp only [wrappedMessage, List.append_assoc]
    rfl
  have named : (Text.ofString "seq=").isPrefixOf (wrappedMessage seq currentTime content) := by
    rw [same, List.isPrefixOf_iff_prefix]
    exact List.prefix_append _ _
  -- The first separator is the one behind the number.
  have found : (wrappedMessage seq currentTime content).idxOf? 59 =
      some (4 + (Text.ofInt seq).length) := by
    rw [same, ← List.append_assoc, idxOf?_separator]
    · rw [List.length_append]
      rfl
    · rw [List.mem_append, not_or]
      exact ⟨by decide, separator_notMem_ofInt seq⟩
  have number : ((wrappedMessage seq currentTime content).drop 4).take
      (4 + (Text.ofInt seq).length - 4) = Text.ofInt seq := by
    rw [same, Nat.add_sub_cancel_left]
    exact List.take_left
  rw [sequenceOf, if_pos named, found]
  simp only [number, stoll_ofInt lower upper, Option.getD_some]

/-- The text of a reply: the header, filled up with `x`, as far as the drawn size goes. -/
def replyText (header : List Byte) (totalSendSize : Nat) : List Byte :=
  (header ++ List.replicate totalSendSize 120).take totalSendSize

/-- The text of a reply is as long as the size that was drawn. -/
@[simp] theorem replyText_length (header : List Byte) (totalSendSize : Nat) :
    (replyText header totalSendSize).length = totalSendSize := by
  simp [replyText]

/-- The text is what fits of the header, and what is missing behind it. -/
theorem replyText_eq (header : List Byte) (totalSendSize : Nat) :
    replyText header totalSendSize =
      header.take totalSendSize ++ List.replicate (totalSendSize - header.length) 120 := by
  rw [replyText, List.take_append, List.take_replicate, Nat.min_eq_left (Nat.sub_le _ _)]

/-- The string of a chunk is the text that a reply of its size would have from there on. -/
theorem payloadAt_eq (header : List Byte) (chunk offset : Nat) :
    payloadAt header chunk offset = replyText (header.drop offset) chunk := by
  rw [replyText_eq, payloadAt]
  split
  · -- What is laid over the string is what fits of the header.
    dsimp only
    rw [List.drop_replicate, ← List.length_drop, ← List.take_eq_take_min, List.length_drop,
      show chunk - min chunk (header.length - offset) = chunk - (header.length - offset) by omega]
  · rename_i behind
    rw [List.drop_eq_nil_of_le (by omega), List.take_nil, List.length_nil]
    rfl

/-- A text goes on behind its beginning with the text of what is left. -/
theorem replyText_split {header : List Byte} {chunk remaining : Nat} (part : chunk ≤ remaining) :
    replyText header chunk ++ replyText (header.drop chunk) (remaining - chunk) =
      replyText header remaining := by
  obtain ⟨more, rfl⟩ := Nat.exists_eq_add_of_le part
  rw [Nat.add_sub_cancel_left, replyText_eq, replyText_eq, replyText_eq, List.take_add]
  rcases Nat.le_total header.length chunk with short | long
  · -- The header is used up, and only filling follows.
    rw [List.drop_eq_nil_of_le short]
    simp only [List.take_nil, List.length_nil, Nat.sub_zero, List.nil_append, List.append_nil,
      List.append_assoc, List.replicate_append_replicate]
    congr 2
    omega
  · -- The header reaches into the next chunk, and there is no filling yet.
    rw [Nat.sub_eq_zero_of_le long, List.length_drop, List.replicate_zero, List.append_nil,
      List.append_assoc]
    congr 3
    omega

/-- The bytes that a chunk is requested to be sent as: an address, and the length of the chunk. -/
def chunkBytes (address : BitVec 64) (payload : List Byte) : List Byte :=
  objectBytes 8 address.toNat ++ objectBytes 4 payload.length

/-- The call of `write` selects the template, which writes the pointer and the length. -/
theorem writeChunk_eq (allocation : Allocation) (payload : List Byte) :
    ∃ sendBuffer, writeChunk allocation payload = some sendBuffer ∧
      sendBuffer.getBuffer = chunkBytes allocation.2 payload := by
  have fresh : (SendBuffer.new allocation.1).Holds [] := ⟨rfl, List.nil_prefix⟩
  -- A `char*` is no `const char*`, so that the exact match of the template is better.
  have chosen : SendBuffer.selected
      (SendBuffer.rangeTypes ⟨false, allocation.2, payload⟩ ⟨false, payload.length⟩) =
        some .args := by
    change SendBuffer.selected [.charPointer false, .int] = some .args
    decide
  have length : ([objectBytes 8 allocation.2.toNat, objectBytes 4 payload.length].flatten).length
      = 12 := by simp
  have total : SendBuffer.totalSize
      [objectBytes 8 allocation.2.toNat, objectBytes 4 payload.length] = 12 := by
    rw [SendBuffer.totalSize_eq (by rw [length]; decide), length]
    rfl
  have measured : (SendBuffer.Write.pack
      [objectBytes 8 allocation.2.toNat, objectBytes 4 payload.length]).Measured [] := by
    simp only [SendBuffer.Write.Measured, SendBuffer.Write.tested, SendBuffer.Write.bytes, total,
      length]
    decide
  obtain ⟨after, written, holds, -⟩ := fresh.writeArgs measured
  refine ⟨after, ?_, holds.getBuffer.trans ?_⟩
  · simp only [writeChunk, SendBuffer.writeRange, chosen, Option.bind_some]
    exact congrArg Except.toOption written
  · -- Twelve bytes fit in any buffer.
    have fits : (SendBuffer.Write.pack
        [objectBytes 8 allocation.2.toNat, objectBytes 4 payload.length]).Fits [] := by
      simp only [SendBuffer.Write.Fits, SendBuffer.Write.bytes, length]
      decide
    simp only [SendBuffer.expect, if_pos fits, SendBuffer.Write.bytes, chunkBytes]
    simp

/-- What the loop makes of a text from some offset on. -/
structure Cut (allocations : Nat → Allocation) (offset : Nat) (text : List Byte)
    (sent : List (List Byte × SendBuffer)) : Prop where
  joined : (sent.map Prod.fst).flatten = text
  count : sent.length = (text.length + (kChunkSize - 1)) / kChunkSize
  sizes : ∀ chunk ∈ sent, 0 < chunk.1.length ∧ chunk.1.length ≤ kChunkSize
  -- The address is the one of the string that has been filled for the chunk.
  written : ∀ i chunk, sent[i]? = some chunk →
    chunk.2.getBuffer = chunkBytes (allocations (offset + i * kChunkSize)).2 chunk.1

/-- The loop ends, and has then cut the text into chunks. -/
theorem sendChunks_cut (header : List Byte) (allocations : Nat → Allocation)
    (remaining offset : Nat) :
    ∃ sent, sendChunks header allocations remaining offset = some sent ∧
      Cut allocations offset (replyText (header.drop offset) remaining) sent := by
  -- The induction is that of the loop, on what is left to be sent.
  induction remaining using Nat.strongRecOn generalizing offset with
  | _ remaining ih =>
    rw [sendChunks]
    split
    · -- Nothing is left, and the loop ends.
      rename_i none_
      subst none_
      refine ⟨[], rfl, ⟨?_, ?_, by simp, by simp⟩⟩
      · rw [replyText, List.take_zero]
        rfl
      · rw [replyText_length]
        rfl
    · rename_i more
      have positive : 0 < min kChunkSize remaining := by
        simp only [kChunkSize]
        omega
      obtain ⟨sendBuffer, made, bytes⟩ := writeChunk_eq (allocations offset)
        (payloadAt header (min kChunkSize remaining) offset)
      -- The rest of the loop goes on behind this chunk.
      obtain ⟨rest, looped, cut⟩ := ih (remaining - min kChunkSize remaining) (by omega)
        (offset + min kChunkSize remaining)
      refine ⟨(payloadAt header (min kChunkSize remaining) offset, sendBuffer) :: rest, ?_, ?_⟩
      · dsimp only
        rw [made, Option.bind_some, looped, Option.map_some]
      rw [payloadAt_eq] at bytes
      rw [← List.drop_drop] at cut
      constructor
      · rw [List.map_cons, List.flatten_cons, cut.joined, payloadAt_eq]
        exact replyText_split (Nat.min_le_right _ _)
      · rw [List.length_cons, cut.count, replyText_length, replyText_length]
        simp only [kChunkSize]
        omega
      · refine List.forall_mem_cons.mpr ⟨?_, cut.sizes⟩
        rw [payloadAt_eq, replyText_length]
        exact ⟨positive, Nat.min_le_left _ _⟩
      · intro i chunk found
        cases i with
        | zero =>
          cases found
          rw [Nat.zero_mul, Nat.add_zero, payloadAt_eq]
          exact bytes
        | succ i =>
          -- Behind a chunk that is not the last one, the next begins where it ends.
          rw [List.getElem?_cons_succ] at found
          have inside := (List.getElem?_eq_some_iff.mp found).1
          have full : min kChunkSize remaining = kChunkSize := by
            rw [cut.count, replyText_length] at inside
            simp only [kChunkSize] at inside ⊢
            omega
          have next := cut.written i chunk found
          rw [full] at next
          rw [next, Nat.succ_mul, Nat.add_comm (i * kChunkSize), Nat.add_assoc]

/-- A call whose message is accepted, with the text that the handler takes out of it. -/
def HandlerCall.accepted (call : HandlerCall) : Option (HandlerCall × List Byte) :=
  match messageContent call.object call.data with
  | .ok (some content) => some (call, content)
  | .ok none | .error _ => none

/-- The reply to the accepted message with some number. -/
structure Reply.Answers (reply : Reply) (call : HandlerCall) (content : List Byte)
    (number : Nat) : Prop where
  actor : reply.actor = call.actor
  totalSendSize : reply.totalSendSize = call.totalSendSize
  message : reply.message =
    wrappedMessage (BitVec.ofNat 64 number).toInt call.currentTime.toInt content
  -- The number that the task reads from the message is the one that the handler has drawn.
  joined : reply.payloads.flatten = replyText
    (replyHeader (BitVec.ofNat 64 number).toInt reply.totalSendSize reply.message)
    reply.totalSendSize
  count : reply.payloads.length = (reply.totalSendSize + (kChunkSize - 1)) / kChunkSize
  sizes : ∀ payload ∈ reply.payloads, 0 < payload.length ∧ payload.length ≤ kChunkSize
  -- No byte of the text is sent, only where its chunks have been and how long they are.
  requests : reply.requests = reply.payloads.zipIdx.map fun chunk =>
    .requestSend reply.actor (chunkBytes (call.allocations (chunk.2 * kChunkSize)).2 chunk.1)

/-- The task ends, and its reply is the one to the message with the number in front of it. -/
theorem timestampTask_answers (call : HandlerCall) (content : List Byte) (number : Nat) :
    ∃ reply, timestampTask call.actor
        (wrappedMessage (BitVec.ofNat 64 number).toInt call.currentTime.toInt content)
        call.totalSendSize call.allocations = some reply ∧
      reply.Answers call content number := by
  obtain ⟨sent, looped, cut⟩ := sendChunks_cut (replyHeader (BitVec.ofNat 64 number).toInt
    call.totalSendSize
    (wrappedMessage (BitVec.ofNat 64 number).toInt call.currentTime.toInt content))
    call.allocations call.totalSendSize 0
  rw [List.drop_zero] at cut
  -- The task reads the number that the handler has written.
  have read := sequenceOf_wrappedMessage (BitVec.le_toInt (BitVec.ofNat 64 number))
    BitVec.toInt_lt call.currentTime.toInt content
  refine ⟨_, by rw [timestampTask, read, looped, Option.map_some], ?_⟩
  constructor
  · rfl
  · rfl
  · rfl
  · exact cut.joined
  · rw [List.length_map, cut.count, replyText_length]
  · intro payload member
    obtain ⟨chunk, listed, rfl⟩ := List.mem_map.mp member
    exact cut.sizes chunk listed
  · -- Every chunk has its own string and its own buffer.
    apply List.ext_getElem?
    intro i
    rw [List.getElem?_map, List.getElem?_map, List.getElem?_zipIdx, List.getElem?_map, Nat.zero_add]
    cases found : sent[i]? with
    | none => rfl
    | some chunk =>
      have bytes := cut.written i chunk found
      rw [Nat.zero_add] at bytes
      simp only [Option.map_some, bytes]

/-- What the replies so far are to the calls so far. -/
structure Server.Numbered (server : Server) (calls : List HandlerCall) : Prop where
  gSeq : server.gSeq = BitVec.ofNat 64 server.replies.length
  answers : List.Forall₂ (fun reply accepted =>
    Reply.Answers reply accepted.1.1 accepted.1.2 accepted.2)
    server.replies (calls.filterMap HandlerCall.accepted).zipIdx

/-- The handler ends where the text can be read, and answers with the next number. -/
theorem handle_numbered {server : Server} {calls : List HandlerCall}
    (numbered : server.Numbered calls) (call : HandlerCall) :
    (∃ failure, messageContent call.object call.data = .error failure) ∧
        handle server call = none ∨
      ∃ next, handle server call = some next ∧ next.Numbered (calls ++ [call]) := by
  unfold handle
  have same : server.replies.length = (calls.filterMap HandlerCall.accepted).length := by
    rw [numbered.answers.length_eq, List.length_zipIdx]
  split
  · -- The text runs over the end of the buffer.
    rename_i failure read
    exact .inl ⟨⟨failure, read⟩, rfl⟩
  · rename_i read
    -- What is refused is not counted.
    have refused : call.accepted = none := by rw [HandlerCall.accepted, read]
    refine .inr ⟨server, rfl, numbered.gSeq, ?_⟩
    simpa [List.filterMap_append, refused] using numbered.answers
  · -- What is accepted gets the next number and a reply.
    rename_i content read
    have counted : call.accepted = some (call, content) := by rw [HandlerCall.accepted, read]
    obtain ⟨reply, made, answers⟩ := timestampTask_answers call content server.replies.length
    refine .inr ⟨⟨server.gSeq + 1, server.replies ++ [reply]⟩, ?_, ?_, ?_⟩
    · rw [numbered.gSeq]
      dsimp only
      rw [made, Option.map_some]
    · rw [numbered.gSeq, List.length_append, List.length_singleton, BitVec.ofNat_add]
      rfl
    · rw [List.filterMap_append, List.zipIdx_append]
      refine List.rel_append numbered.answers ?_
      simpa [counted, ← same] using answers

/--
The sample server numbers the messages that it accepts, and answers each of them once.

In every run of calls to the handler, `g_seq` is the number of replies, and the replies are to the
accepted messages, in order. Each has the text with its own number, cut into chunks; what is sent is
an address and a length for each chunk. Only a text that cannot be read keeps the handler from
returning.
-/
theorem replies_numbered {calls : List HandlerCall} {finish : Server}
    (run : Run handle anyStep {} calls finish) :
    finish.Numbered calls ∧
      ∀ call, handle finish call = none ↔
        ∃ failure, messageContent call.object call.data = .error failure := by
  have numbered : finish.Numbered calls := by
    induction run with
    | refl => exact ⟨rfl, .nil⟩
    | snoc before _ taken ih =>
      rcases handle_numbered ih _ with ⟨_, stuck⟩ | ⟨next, same, numbered⟩
      · rw [stuck] at taken
        cases taken
      · rw [same] at taken
        exact Option.some.inj taken ▸ numbered
  refine ⟨numbered, fun call => ?_⟩
  -- Whether the handler returns depends on the text alone.
  rcases handle_numbered numbered call with ⟨failed, stuck⟩ | ⟨next, same, _⟩
  · exact iff_of_true stuck failed
  · refine iff_of_false (by rw [same]; exact Option.some_ne_none next) ?_
    rintro ⟨failure, read⟩
    rw [handle, read] at same
    cases same

/-- A message with the text `hi`, which ends in a zero, at the front of a buffer. -/
def hiCall : HandlerCall where
  object :=
    { buffer := [11, 0, 0, 0, 1, 0, 0, 0, 104, 105, 0] ++ List.replicate 4085 0
      commitedSize := 11
      socketFd := 5
      buffer_length := by
        rw [List.length_append, List.length_replicate]
        rfl }
  data := ⟨0, 11⟩
  actor := 3
  currentTime := 7
  totalSendSize := 1500
  allocations := fun offset => (Vector.replicate maxMessageSize 0, BitVec.ofNat 64 offset)

/-- The text of the message is read up to its zero. -/
theorem hiCall_accepted : hiCall.accepted = some (hiCall, Text.ofString "hi") := by
  have read : messageContent hiCall.object hiCall.data = .ok (some (Text.ofString "hi")) := by
    decide +kernel
  rw [HandlerCall.accepted, read]

/-- A message that comes twice is answered with the numbers 0 and 1. -/
theorem replies_numbered_twice :
    ∃ finish, Run handle anyStep {} [hiCall, hiCall] finish ∧
      (finish.Numbered [hiCall, hiCall] ∧
        ∀ call, handle finish call = none ↔
          ∃ failure, messageContent call.object call.data = .error failure) ∧
      finish.replies.map Reply.message =
        [Text.ofString "seq=0; ts=7; hi", Text.ofString "seq=1; ts=7; hi"] := by
  -- The text can be read, so that the handler returns in every state.
  have returns (server : Server) (calls : List HandlerCall) (numbered : server.Numbered calls) :
      ∃ next, handle server hiCall = some next ∧ next.Numbered (calls ++ [hiCall]) := by
    rcases handle_numbered numbered hiCall with ⟨⟨failure, failed⟩, _⟩ | returned
    · have accepted := hiCall_accepted
      rw [HandlerCall.accepted, failed] at accepted
      cases accepted
    · exact returned
  obtain ⟨first, once, numbered⟩ := returns {} [] ⟨rfl, .nil⟩
  obtain ⟨second, twice, _⟩ := returns first [hiCall] numbered
  have run : Run handle anyStep {} [hiCall, hiCall] second :=
    (Run.refl.snoc trivial once).snoc trivial twice
  have result := replies_numbered run
  refine ⟨second, run, result, ?_⟩
  have answers := result.1.answers
  simp only [List.filterMap_cons, hiCall_accepted, List.filterMap_nil] at answers
  -- There are two replies, to the same message with different numbers.
  obtain ⟨reply, others, toFirst, rest, same⟩ := List.forall₂_cons_right_iff.mp answers
  obtain ⟨other, more, toSecond, last, rfl⟩ := List.forall₂_cons_right_iff.mp rest
  obtain rfl := List.forall₂_nil_right_iff.mp last
  rw [same, List.map_cons, List.map_cons, toFirst.message, toSecond.message]
  decide +kernel

end Braid.Sample
