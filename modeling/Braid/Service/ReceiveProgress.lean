import Braid.Service.MessageFraming
import Braid.Service.Machine

/-! When a session goes on receiving: malformed frames that fill the buffer, and the end of a stream. -/

namespace Braid.ServiceSession

open Service

variable {ω : Type} {dispatcher : MessageDispatcher (Option Nat) (ω × List ActorCall)}
  {actor : Option Nat}

/-- The session has been asked to close, through the actor that the handlers are given. -/
def Closing (actor : Option Nat) (world : ω × List ActorCall) : Prop :=
  ∃ own ∈ actor, .requestClose own ∈ world.2

instance (actor : Option Nat) (world : ω × List ActorCall) : Decidable (Closing actor world) :=
  inferInstanceAs (Decidable (∃ own ∈ actor, _))

/-- Every recv result is no longer than the span that was posted for it. -/
def WithinRoom (dispatcher : MessageDispatcher (Option Nat) (ω × List ActorCall))
    (actor : Option Nat) (fuel : Nat) :
    Receiver (ω × List ActorCall) → List (List Byte) → Prop
  | _, [] => True
  | receiver, piece :: rest =>
    (piece.length : Int) ≤ receiver.object.remainSpan.size ∧
      match receive dispatcher actor fuel receiver piece with
      | .ok next => WithinRoom dispatcher actor fuel next rest
      | .error _ => True

instance decidableWithinRoom (dispatcher : MessageDispatcher (Option Nat) (ω × List ActorCall))
    (actor : Option Nat) (fuel : Nat) :
    ∀ (receiver : Receiver (ω × List ActorCall)) (pieces : List (List Byte)),
      Decidable (WithinRoom dispatcher actor fuel receiver pieces)
  | _, [] => isTrue trivial
  | receiver, piece :: rest => by
    unfold WithinRoom
    cases receive dispatcher actor fuel receiver piece with
    | ok next =>
      have := decidableWithinRoom dispatcher actor fuel next rest
      exact inferInstance
    | error => exact inferInstance

/--
No call of `on_received` leaves the session stalled.

After each of them the session has been asked to close, or the recv that it has just posted has
room for at least one byte.
-/
def NeverStalls (dispatcher : MessageDispatcher (Option Nat) (ω × List ActorCall))
    (actor : Option Nat) (fuel : Nat) (start : Receiver (ω × List ActorCall))
    (pieces : List (List Byte)) : Prop :=
  ∀ first rest, pieces = first ++ rest → first ≠ [] →
    ∃ last, receiveAll dispatcher actor fuel start first = .ok last ∧
      (Closing actor last.world ∨ ∃ span ∈ last.posted.head?, 1 ≤ span.size)

/-- A stream is a sequence of whole frames, and bytes behind them that complete no frame. -/
def Splits (stream : List Byte) (frames : List (List Byte)) (tail : List Byte) : Prop :=
  stream = frames.flatten ++ tail ∧ (∀ frame ∈ frames, messageFraming.IsFrame frame) ∧
    messageFraming.next? tail = none

/-- The frames that are extracted from a stream are frames on their own. -/
theorem drain_isFrame (stream : List Byte) :
    ∀ frame ∈ (messageFraming.drain stream).1, messageFraming.IsFrame frame := by
  -- The induction follows the extraction, one frame at a time.
  induction stream using Framing.drain.induct messageFraming with
  | case1 stream stopped =>
    rw [Framing.drain_stop stopped]
    simp
  | case2 stream frame rest found ih =>
    rw [Framing.drain_next found]
    -- The header of an extracted frame declares exactly its own length.
    obtain ⟨_, header, size, _⟩ := messageFraming_next? found
    have whole : messageFraming.IsFrame frame := by
      show (if _ then _ else _) = _
      rw [if_neg (by omega), if_neg (by omega), size, Int.toNat_natCast]
    exact List.forall_mem_cons.mpr ⟨whole, ih⟩

/-- A stream splits into exactly what is extracted from it and what is kept. -/
theorem splits_iff {stream tail : List Byte} {frames : List (List Byte)} :
    Splits stream frames tail ↔ messageFraming.drain stream = (frames, tail) := by
  -- Whole frames are extracted as they are, and what is extracted are whole frames.
  constructor
  · rintro ⟨rfl, whole, stopped⟩
    exact Framing.drain_frames whole stopped
  · intro drained
    have joined := Framing.drain_join messageFraming stream
    have whole := drain_isFrame stream
    have stopped := Framing.next?_drain messageFraming stream
    rw [drained] at joined whole stopped
    exact ⟨joined.symm, whole, stopped⟩

/--
A sequence of recv completions takes the session to what it extracts from the whole stream.

The last recv that it has posted has the room that is left, which may be none.
-/
theorem receiveAll_holds (actor : Option Nat) (careful : Careful dispatcher) {fuel : Nat}
    (enough : maxTurns < fuel) (pieces : List (List Byte)) :
    ∀ (receiver : Receiver (ω × List ActorCall)) (held : List Byte), receiver.object.Holds held →
      receiver.posted.head? = some receiver.object.remainSpan →
      messageFraming.next? held = none → WithinRoom dispatcher actor fuel receiver pieces →
      ∃ last, receiveAll dispatcher actor fuel receiver pieces = .ok last ∧
        last.object.Holds (messageFraming.drain (held ++ pieces.flatten)).2 ∧
        last.world = (messageFraming.drain (held ++ pieces.flatten)).1.foldl
          (deliver dispatcher actor) receiver.world ∧
        last.posted.head? = some last.object.remainSpan ∧
        last.posted.length = receiver.posted.length + pieces.length := by
  -- The induction is on the completions, for every state that a prefix of them can lead to.
  induction pieces with
  | nil =>
    intro receiver held holds outstanding stopped _
    refine ⟨receiver, rfl, ?_, ?_, outstanding, rfl⟩
    · simpa [Framing.drain_stop stopped] using holds
    · simp [Framing.drain_stop stopped]
  | cons piece rest ih =>
    intro receiver held holds outstanding stopped within
    obtain ⟨room, later⟩ := within
    -- One completion extracts the frames of what was held and of the piece.
    obtain ⟨next, received, kept, world, _, posted⟩ :=
      receive_drain actor careful enough holds outstanding room
    rw [received] at later
    obtain ⟨last, finished, lastHolds, lastWorld, lastPosted, count⟩ :=
      ih next (messageFraming.drain (held ++ piece)).2 kept (by simp [posted])
        (Framing.next?_drain _ _) later
    -- What is kept after this piece continues with the following ones as the whole stream does.
    have onward := Framing.drain_append messageFraming (held ++ piece) rest.flatten
    rw [List.append_assoc, ← List.flatten_cons] at onward
    refine ⟨last, ?_, ?_, ?_, lastPosted, ?_⟩
    · simp only [receiveAll, received, finished, bind, Except.bind]
    · rw [onward]
      exact lastHolds
    · rw [onward, List.foldl_append, ← world]
      exact lastWorld
    · rw [count, posted, List.length_cons, List.length_cons]
      omega

/-- Results that fit one after another fit up to any of them, and from it on. -/
theorem withinRoom_append {fuel : Nat} (first : List (List Byte)) :
    ∀ {receiver : Receiver (ω × List ActorCall)} {rest : List (List Byte)},
      WithinRoom dispatcher actor fuel receiver (first ++ rest) →
        WithinRoom dispatcher actor fuel receiver first ∧
          ∀ last, receiveAll dispatcher actor fuel receiver first = .ok last →
            WithinRoom dispatcher actor fuel last rest := by
  induction first with
  | nil =>
    intro receiver rest within
    refine ⟨trivial, fun last received => ?_⟩
    cases received
    exact within
  | cons piece pieces ih =>
    intro receiver rest within
    obtain ⟨room, later⟩ := within
    cases received : receive dispatcher actor fuel receiver piece with
    -- A completion that fails ends the sequence, so nothing is left to fit behind it.
    | error failure =>
      refine ⟨⟨room, by rw [received]; trivial⟩, fun last finished => ?_⟩
      simp only [receiveAll, received, bind, Except.bind] at finished
      cases finished
    | ok next =>
      rw [received] at later
      obtain ⟨before, behind⟩ := ih later
      refine ⟨⟨room, by rw [received]; exact before⟩, fun last finished => ?_⟩
      simp only [receiveAll, received, bind, Except.bind] at finished
      exact behind last finished

/-- A session whose buffer is full of bytes that start no frame gets nothing more. -/
theorem withinRoom_full (careful : Careful dispatcher) {fuel : Nat} (enough : maxTurns < fuel)
    (pieces : List (List Byte)) :
    ∀ {receiver : Receiver (ω × List ActorCall)} {held : List Byte}, receiver.object.Holds held →
      receiver.posted.head? = some receiver.object.remainSpan →
      messageFraming.next? held = none → held.length = maxReceiveBufferSize →
      WithinRoom dispatcher actor fuel receiver pieces → pieces.flatten = [] := by
  -- Each further piece finds no room and must be empty, and leaves the buffer as it was.
  induction pieces with
  | nil => intros; rfl
  | cons piece rest ih =>
    intro receiver held holds outstanding stopped full within
    obtain ⟨room, later⟩ := within
    have count := holds.1
    simp only [IOUringObject.remainSpan] at room
    have empty : piece = [] := List.eq_nil_of_length_eq_zero (by omega)
    subst empty
    obtain ⟨next, received, kept, _, _, posted⟩ :=
      receive_drain actor careful enough holds outstanding
        (by simp only [IOUringObject.remainSpan]; exact room)
    rw [List.append_nil, Framing.drain_stop stopped] at kept
    rw [received] at later
    exact ih kept (by simp [posted]) stopped full later

/--
A session never stalls exactly when its stream is whole frames followed by less than a buffer.

A header that declares less than its own size or more than the buffer is never passed: when as
many bytes as the buffer has arrive from it on, the next recv has no room, and only a close that
a handler of an earlier frame has asked for ends the session.
-/
theorem neverStalls_iff (actor : Option Nat) (careful : Careful dispatcher) {fuel : Nat}
    (enough : maxTurns < fuel) {object : IOUringObject} (fresh : object.commitedSize = 0)
    (world : ω × List ActorCall) (pieces : List (List Byte))
    (within : WithinRoom dispatcher actor fuel (accepted object world) pieces) :
    NeverStalls dispatcher actor fuel (accepted object world) pieces ↔
      ∃ frames tail, Splits pieces.flatten frames tail ∧
        (tail.length < maxReceiveBufferSize ∨
          Closing actor (frames.foldl (deliver dispatcher actor) world)) := by
  have start : (accepted object world).object.Holds [] := IOUringObject.holds_nil fresh
  -- Where a part of the stream has left the session, and what it has posted there.
  have reaches (first rest : List (List Byte)) (cut : pieces = first ++ rest) :
      ∃ last, receiveAll dispatcher actor fuel (accepted object world) first = .ok last ∧
        last.object.Holds (messageFraming.drain first.flatten).2 ∧
        last.world = (messageFraming.drain first.flatten).1.foldl (deliver dispatcher actor) world ∧
        last.posted.head? = some last.object.remainSpan := by
    rw [cut] at within
    obtain ⟨last, received, kept, reached, posted, _⟩ := receiveAll_holds actor careful enough first
      (accepted object world) [] start rfl rfl (withinRoom_append first within).1
    exact ⟨last, received, kept, reached, posted⟩
  constructor
  · intro never
    refine ⟨_, _, splits_iff.mpr rfl, ?_⟩
    cases pieces with
    | nil => exact .inl (by rw [List.flatten_nil, Framing.drain_stop rfl]; decide)
    | cons piece rest =>
      -- The session is asked where the stream ends: its last recv has room, or a close was asked for.
      obtain ⟨last, received, answered⟩ := never (piece :: rest) [] (by simp) (by simp)
      obtain ⟨same, again, kept, reached, posted⟩ := reaches (piece :: rest) [] (by simp)
      rw [received] at again
      cases again
      rcases answered with closing | ⟨span, head, room⟩
      · exact .inr (by rwa [reached] at closing)
      · rw [posted] at head
        cases head
        -- What is committed in the buffer is what has been kept of the stream.
        have count := kept.1
        simp only [IOUringObject.remainSpan] at room
        exact .inl (by omega)
  · rintro ⟨frames, tail, split, answered⟩ first rest cut _
    obtain ⟨last, received, kept, reached, posted⟩ := reaches first rest cut
    refine ⟨last, received, ?_⟩
    have count := kept.1
    by_cases room : (messageFraming.drain first.flatten).2.length < maxReceiveBufferSize
    · refine .inr ⟨_, posted, ?_⟩
      simp only [IOUringObject.remainSpan]
      omega
    · -- A full buffer stays so, and the rest of the stream is empty.
      have bound := kept.length_le
      rw [cut] at within
      have nothing := withinRoom_full careful enough rest kept posted (Framing.next?_drain _ _)
        (by omega) ((withinRoom_append first within).2 last received)
      rw [splits_iff, cut, List.flatten_append, nothing, List.append_nil] at split
      rw [split] at room reached
      exact .inl (by rw [reached]; exact answered.resolve_left room)

/-- No handlers at all. -/
def silent : MessageDispatcher (Option Nat) (Unit × List ActorCall) := {}

/-- Without a handler, none writes into a header. -/
theorem silent_careful : Careful silent := by
  intro wanted entry found
  cases found

/-- A message and a header with a negative size, cut inside of the first header. -/
theorem neverStalls_iff_negative :
    NeverStalls silent none 513 (accepted IOUringObject.new ((), []))
      [[12, 0], [0, 0, 1, 0, 0, 0, 112, 105, 110, 103, 255], [255, 255, 255, 1, 0, 0, 0]] :=
  (neverStalls_iff none silent_careful (by decide) rfl _ _ (by decide +kernel)).mpr
    ⟨[ping.bytes], [255, 255, 255, 255, 1, 0, 0, 0],
      ⟨by decide, by simpa using ping.isFrame, by decide +kernel⟩, .inl (by decide)⟩

/-- A buffer full of zeros, whose first header declares the size zero, stalls the session. -/
theorem progress_fails :
    ∃ pieces : List (List Byte),
      WithinRoom silent none 513 (accepted IOUringObject.new ((), [])) pieces ∧
      ¬ NeverStalls silent none 513 (accepted IOUringObject.new ((), [])) pieces := by
  refine ⟨[List.replicate 4096 0], by decide +kernel, fun never => ?_⟩
  obtain ⟨last, received, answered⟩ := never [List.replicate 4096 0] [] rfl (by rintro ⟨⟩)
  -- The recv that is posted behind the full buffer has no room.
  have posted : (receiveAll silent none 513 (accepted IOUringObject.new ((), []))
      [List.replicate 4096 0]).toOption.any fun last =>
        last.world.2 = [] ∧ last.posted.head? = some ⟨4096, 0⟩ := by decide +kernel
  rw [received] at posted
  obtain ⟨quiet, head⟩ := of_decide_eq_true posted
  rcases answered with ⟨own, _, asked⟩ | ⟨span, here, room⟩
  · rw [quiet] at asked
    cases asked
  · rw [head] at here
    cases here
    exact absurd room (by decide)

/--
The end of a stream ends the session.

However many recv results are zero behind the pieces of the stream, the session asks for a close
behind the first of them, and it has posted one recv for each piece and one more.
-/
def EndsSession (dispatcher : MessageDispatcher (Option Nat) (ω × List ActorCall))
    (actor : Option Nat) (fuel : Nat) (start : Receiver (ω × List ActorCall))
    (pieces : List (List Byte)) : Prop :=
  ∀ zeros, 1 ≤ zeros → ∃ before last,
    receiveAll dispatcher actor fuel start pieces = .ok before ∧
    receiveAll dispatcher actor fuel start (pieces ++ List.replicate zeros []) = .ok last ∧
    (∃ calls, last.world.2 = before.world.2 ++ calls ∧
      ∃ own ∈ actor, .requestClose own ∈ calls) ∧
    last.posted.length ≤ pieces.length + 1

/-- A sequence of recv completions is taken one part after the other. -/
theorem receiveAll_append {fuel : Nat} (first : List (List Byte)) :
    ∀ (receiver : Receiver (ω × List ActorCall)) (second : List (List Byte)),
      receiveAll dispatcher actor fuel receiver (first ++ second) =
        (receiveAll dispatcher actor fuel receiver first).bind fun middle =>
          receiveAll dispatcher actor fuel middle second := by
  induction first with
  | nil => intros; rfl
  | cons piece rest ih =>
    intro receiver second
    -- A completion that fails ends both sides, and any other leads to the rest on both.
    simp only [List.cons_append, receiveAll, bind, Except.bind]
    cases receive dispatcher actor fuel receiver piece with
    | error failure => rfl
    | ok next => exact ih next second

/-- A result of zero fits, whatever room there is. -/
theorem withinRoom_zeros (careful : Careful dispatcher) {fuel : Nat} (enough : maxTurns < fuel)
    (zeros : Nat) :
    ∀ {receiver : Receiver (ω × List ActorCall)} {held : List Byte}, receiver.object.Holds held →
      receiver.posted.head? = some receiver.object.remainSpan →
      messageFraming.next? held = none →
      WithinRoom dispatcher actor fuel receiver (List.replicate zeros []) := by
  -- The induction is on the zeros: each leaves the buffer, and with it the room, as it was.
  induction zeros with
  | zero => intros; trivial
  | succ zeros ih =>
    intro receiver held holds outstanding stopped
    have bound := holds.length_le
    have count := holds.1
    have room : (([] : List Byte).length : Int) ≤ receiver.object.remainSpan.size := by
      simp only [IOUringObject.remainSpan, List.length_nil]
      omega
    obtain ⟨next, received, kept, _, _, posted⟩ :=
      receive_drain actor careful enough holds outstanding room
    rw [List.append_nil, Framing.drain_stop stopped] at kept
    refine ⟨room, ?_⟩
    rw [received]
    exact ih kept (by simp [posted]) stopped

/--
No stream ends its session.

Every result of zero is handled as data: the session asks for no close, its handlers get nothing,
and it posts one more recv, so that the number of recvs grows as long as the peer is gone.
-/
theorem endOfStream_endless (actor : Option Nat) (careful : Careful dispatcher) {fuel : Nat}
    (enough : maxTurns < fuel) {object : IOUringObject} (fresh : object.commitedSize = 0)
    (world : ω × List ActorCall) (pieces : List (List Byte))
    (within : WithinRoom dispatcher actor fuel (accepted object world) pieces) :
    (∀ zeros, ∃ before last,
      receiveAll dispatcher actor fuel (accepted object world) pieces = .ok before ∧
      receiveAll dispatcher actor fuel (accepted object world)
        (pieces ++ List.replicate zeros []) = .ok last ∧
      last.world = before.world ∧ last.posted.length = pieces.length + 1 + zeros) ∧
    ¬ EndsSession dispatcher actor fuel (accepted object world) pieces := by
  -- The session has taken the pieces, and holds what completes no frame.
  obtain ⟨before, received, kept, _, posted, count⟩ := receiveAll_holds actor careful enough pieces
    (accepted object world) [] (IOUringObject.holds_nil fresh) rfl rfl within
  have stopped := Framing.next?_drain messageFraming ([] ++ pieces.flatten)
  have endless (zeros : Nat) : ∃ last,
      receiveAll dispatcher actor fuel (accepted object world)
        (pieces ++ List.replicate zeros []) = .ok last ∧
      last.world = before.world ∧ last.posted.length = pieces.length + 1 + zeros := by
    -- The zeros bring no bytes, so that nothing more can be extracted.
    obtain ⟨last, finished, _, same, _, more⟩ := receiveAll_holds actor careful enough
      (List.replicate zeros []) before _ kept posted stopped
      (withinRoom_zeros careful enough zeros kept posted stopped)
    have nothing : (List.replicate zeros ([] : List Byte)).flatten = [] := by simp
    rw [nothing, List.append_nil, Framing.drain_stop stopped] at same
    refine ⟨last, ?_, same, ?_⟩
    · rw [receiveAll_append, received]
      exact finished
    · rw [more, count, List.length_replicate]
      simp only [accepted, requestReceive, List.length_singleton]
      omega
  refine ⟨fun zeros => ?_, fun ends => ?_⟩
  · obtain ⟨last, finished, same, more⟩ := endless zeros
    exact ⟨before, last, received, finished, same, more⟩
  · obtain ⟨earlier, last, first, second, _, few⟩ := ends 1 (Nat.le_refl 1)
    obtain ⟨other, again, _, more⟩ := endless 1
    rw [second] at again
    cases again
    omega

/-- Behind a whole message that is cut in two, seven zeros post seven more recvs. -/
theorem endOfStream_endless_seven :
    ∃ last, receiveAll silent (some 0) 513 (accepted IOUringObject.new ((), []))
        ([[12, 0], [0, 0, 1, 0, 0, 0, 112, 105, 110, 103]] ++ List.replicate 7 []) = .ok last ∧
      last.posted.length = 2 + 1 + 7 :=
  have ⟨_, last, _, finished, _, posted⟩ := (endOfStream_endless (some 0) silent_careful
    (by decide : maxTurns < 513) (rfl : IOUringObject.new.commitedSize = 0) ((), [])
    [[12, 0], [0, 0, 1, 0, 0, 0, 112, 105, 110, 103]] (by decide +kernel)).1 7
  ⟨last, finished, posted⟩

/-- Behind one whole message, the end of the stream makes the session post a third recv. -/
theorem endOfStream_fails :
    ∃ pieces : List (List Byte), pieces.flatten = ping.bytes ∧
      WithinRoom silent (some 0) 513 (accepted IOUringObject.new ((), [])) pieces ∧
      ¬ EndsSession silent (some 0) 513 (accepted IOUringObject.new ((), [])) pieces := by
  refine ⟨[ping.bytes], by simp, by decide +kernel, fun ends => ?_⟩
  obtain ⟨before, last, _, finished, _, few⟩ := ends 1 (Nat.le_refl 1)
  -- The session posts one recv at first, one behind the message and one behind the end.
  have posted : (receiveAll silent (some 0) 513 (accepted IOUringObject.new ((), []))
      ([ping.bytes] ++ List.replicate 1 [])).toOption.any fun last =>
        last.posted.length = 3 := by decide +kernel
  rw [finished] at posted
  have three : last.posted.length = 3 := of_decide_eq_true posted
  simp [three] at few

end Braid.ServiceSession
