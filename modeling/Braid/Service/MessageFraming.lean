import Braid.Service.OnReceived

/-! Message framing: what a session dispatches does not depend on how the stream is cut. -/

namespace Braid.ServiceSession

variable {α ω : Type} {dispatcher : MessageDispatcher α ω} {actor : α}

/-- The most turns that the loop can take, one for each header that fits in the buffer. -/
def maxTurns : Nat := maxReceiveBufferSize / sizeofMessageHeader

/-- A session whose connection has just been accepted: its first recv is posted. -/
def accepted (object : IOUringObject) (world : ω) : Receiver ω :=
  requestReceive { object := object, world := world }

/-- Every recv result has at least one byte, and no more than there was room for at its time. -/
def Fits (dispatcher : MessageDispatcher α ω) (actor : α) (fuel : Nat) :
    Receiver ω → List (List Byte) → Prop
  | _, [] => True
  | receiver, piece :: rest =>
    1 ≤ piece.length ∧ (piece.length : Int) ≤ receiver.object.remainSpan.size ∧
      match receive dispatcher actor fuel receiver piece with
      | .ok next => Fits dispatcher actor fuel next rest
      | .error _ => True

instance decidableFits (dispatcher : MessageDispatcher α ω) (actor : α) (fuel : Nat) :
    ∀ (receiver : Receiver ω) (pieces : List (List Byte)),
      Decidable (Fits dispatcher actor fuel receiver pieces)
  | _, [] => isTrue trivial
  | receiver, piece :: rest => by
    unfold Fits
    cases receive dispatcher actor fuel receiver piece with
    | ok next =>
      have := decidableFits dispatcher actor fuel next rest
      exact inferInstance
    | error => exact inferInstance

/-- There is room for every recv result, behind what is kept of the stream before it. -/
def Roomy (held : List Byte) : List (List Byte) → Prop
  | [] => True
  | piece :: rest =>
    held.length + piece.length ≤ maxReceiveBufferSize ∧
      Roomy (messageFraming.drain (held ++ piece)).2 rest

/-- A recv completion extracts the complete frames of what was held and what has arrived. -/
theorem receive_kept (actor : α) {fuel : Nat} (enough : maxTurns < fuel)
    {receiver : Receiver ω} {held piece : List Byte} (holds : receiver.object.Holds held)
    (outstanding : receiver.posted.head? = some receiver.object.remainSpan)
    (room : (piece.length : Int) ≤ receiver.object.remainSpan.size)
    (sizes : KeepsSizes dispatcher actor receiver.world
      (messageFraming.drain (held ++ piece)).1) :
    ∃ next, receive dispatcher actor fuel receiver piece = .ok next ∧
      next.object.Holds (messageFraming.drain (held ++ piece)).2 ∧
      next.world = (messageFraming.drain (held ++ piece)).1.foldl (deliver dispatcher actor)
        receiver.world ∧
      next.dispatched = receiver.dispatched ++
        (messageFraming.drain (held ++ piece)).1.map callOf ∧
      next.posted = next.object.remainSpan :: receiver.posted := by
  -- The kernel writes the piece behind what was held, and the loop starts from both.
  obtain ⟨filled, wrote, held'⟩ := holds.fill room
  have bound := held'.length_le
  obtain ⟨object, looped, kept, _⟩ := onReceivedLoop_kept actor (held ++ piece)
    fuel { receiver with object := filled.commit piece.length } held' sizes
    (by simp only [maxTurns, maxReceiveBufferSize, sizeofMessageHeader] at *; omega)
  -- The span that was posted is the room that there still is.
  cases posted : receiver.posted with
  | nil => simp [posted] at outstanding
  | cons span rest =>
    simp only [posted, List.head?_cons, Option.some.injEq] at outstanding
    subst outstanding
    simp only [posted] at looped
    refine ⟨requestReceive { receiver with
      object := object
      world := (messageFraming.drain (held ++ piece)).1.foldl (deliver dispatcher actor)
        receiver.world
      dispatched := receiver.dispatched ++ (messageFraming.drain (held ++ piece)).1.map callOf },
      ?_, kept, rfl, rfl, by simp only [requestReceive, posted]⟩
    simp only [receive, posted, wrote, onReceived, looped, bind, Except.bind, pure, Except.pure]

/-- Handlers that write into no header make a recv completion extract the complete frames. -/
theorem receive_drain (actor : α) (careful : Careful dispatcher) {fuel : Nat}
    (enough : maxTurns < fuel)
    {receiver : Receiver ω} {held piece : List Byte} (holds : receiver.object.Holds held)
    (outstanding : receiver.posted.head? = some receiver.object.remainSpan)
    (room : (piece.length : Int) ≤ receiver.object.remainSpan.size) :
    ∃ next, receive dispatcher actor fuel receiver piece = .ok next ∧
      next.object.Holds (messageFraming.drain (held ++ piece)).2 ∧
      next.world = (messageFraming.drain (held ++ piece)).1.foldl (deliver dispatcher actor)
        receiver.world ∧
      next.dispatched = receiver.dispatched ++
        (messageFraming.drain (held ++ piece)).1.map callOf ∧
      next.posted = next.object.remainSpan :: receiver.posted :=
  receive_kept actor enough holds outstanding room (careful.keepsSizes _ _ _)

/-- What is kept after a piece continues with the following ones as the whole stream does. -/
theorem drain_pieces (held piece : List Byte) (rest : List (List Byte)) :
    messageFraming.drain (held ++ (piece :: rest).flatten) =
      ((messageFraming.drain (held ++ piece)).1 ++
        (messageFraming.drain ((messageFraming.drain (held ++ piece)).2 ++ rest.flatten)).1,
      (messageFraming.drain ((messageFraming.drain (held ++ piece)).2 ++ rest.flatten)).2) := by
  rw [List.flatten_cons, ← List.append_assoc]
  exact Framing.drain_append _ _ _

/-- Recv results that fit into the spans that are posted for them find room behind what is kept. -/
theorem Fits.roomy {fuel : Nat} (enough : maxTurns < fuel) (pieces : List (List Byte)) :
    ∀ {receiver : Receiver ω} {held : List Byte}, receiver.object.Holds held →
      receiver.posted.head? = some receiver.object.remainSpan →
      KeepsSizes dispatcher actor receiver.world
        (messageFraming.drain (held ++ pieces.flatten)).1 →
      Fits dispatcher actor fuel receiver pieces → Roomy held pieces := by
  -- The induction is on the pieces, for every state that those before them have led to.
  induction pieces with
  | nil => intros; trivial
  | cons piece rest ih =>
    intro receiver held holds outstanding sizes fits
    obtain ⟨_, room, later⟩ := fits
    rw [drain_pieces, keepsSizes_append] at sizes
    obtain ⟨next, received, kept, world, _, posted⟩ :=
      receive_kept actor enough holds outstanding room sizes.1
    rw [received] at later
    have count := holds.1
    simp only [IOUringObject.remainSpan] at room
    refine ⟨by omega, ih kept (by simp [posted]) ?_ later⟩
    rw [world]
    exact sizes.2

/--
A sequence of recv completions extracts the complete frames of the whole stream.

As long as an incomplete frame never fills the buffer, there is always room for the next recv.
-/
theorem receiveAll_kept (actor : α) {fuel : Nat} (enough : maxTurns < fuel)
    (pieces : List (List Byte)) : ∀ (receiver : Receiver ω) (held : List Byte),
      receiver.object.Holds held →
      receiver.posted.head? = some receiver.object.remainSpan →
      (∀ span ∈ receiver.posted, 0 < span.size) →
      (∀ arrived more, arrived ++ more = pieces.flatten →
        (messageFraming.drain (held ++ arrived)).2.length < maxReceiveBufferSize) →
      KeepsSizes dispatcher actor receiver.world
        (messageFraming.drain (held ++ pieces.flatten)).1 →
      Roomy held pieces → held = (messageFraming.drain held).2 →
      ∃ last, receiveAll dispatcher actor fuel receiver pieces = .ok last ∧
        last.object.Holds (messageFraming.drain (held ++ pieces.flatten)).2 ∧
        last.world = (messageFraming.drain (held ++ pieces.flatten)).1.foldl
          (deliver dispatcher actor) receiver.world ∧
        last.dispatched = receiver.dispatched ++
          (messageFraming.drain (held ++ pieces.flatten)).1.map callOf ∧
        ∀ span ∈ last.posted, 0 < span.size := by
  induction pieces with
  | nil =>
    intro receiver held holds _ roomy _ _ _ stopped
    -- Nothing arrives, and what is held completes no frame.
    have none : messageFraming.next? held = none := by rw [stopped]; exact Framing.next?_drain _ held
    refine ⟨receiver, rfl, ?_, ?_, ?_, roomy⟩
    · simpa [Framing.drain_stop none] using holds
    · simp [Framing.drain_stop none]
    · simp [Framing.drain_stop none]
  | cons piece rest ih =>
    intro receiver held holds outstanding roomy space sizes enoughRoom _
    obtain ⟨room, later⟩ := enoughRoom
    rw [drain_pieces, keepsSizes_append] at sizes
    have count := holds.1
    obtain ⟨next, received, kept, world, dispatched, posted⟩ :=
      receive_kept actor enough holds outstanding
        (by simp only [IOUringObject.remainSpan]; omega) sizes.1
    rw [drain_pieces]
    -- What is kept after the piece leaves room for the next recv.
    have nextRoomy : ∀ span ∈ next.posted, 0 < span.size := by
      intro span member
      rw [posted] at member
      rcases List.mem_cons.mp member with rfl | member
      · have short := space piece rest.flatten rfl
        have count := kept.1
        simp only [IOUringObject.remainSpan]
        omega
      · exact roomy span member
    obtain ⟨last, finished, lastHolds, lastWorld, lastDispatched, lastRoomy⟩ :=
      ih next (messageFraming.drain (held ++ piece)).2 kept (by simp [posted]) nextRoomy
        (fun arrived more joined => by
          have short := space (piece ++ arrived) more (by
            rw [List.append_assoc, joined, List.flatten_cons])
          rwa [← List.append_assoc, Framing.drain_append] at short)
        (by rw [world]; exact sizes.2) later
        (by rw [Framing.drain_stop (Framing.next?_drain _ _)])
    -- The frames of the piece come before those of the rest.
    refine ⟨last, ?_, lastHolds, ?_, ?_, lastRoomy⟩
    · simp only [receiveAll, received, finished, bind, Except.bind]
    · rw [List.foldl_append, ← world]; exact lastWorld
    · rw [List.map_append, ← List.append_assoc, ← dispatched]
      exact lastDispatched

/-- The beginning of a frame completes no frame, and leaves room in the buffer. -/
theorem unfinished_stopped {tail : List Byte}
    (unfinished : tail = [] ∨ ∃ frame : Frame, tail <+: frame.bytes ∧ tail ≠ frame.bytes) :
    messageFraming.next? tail = none ∧ tail.length < maxReceiveBufferSize := by
  rcases unfinished with rfl | ⟨frame, ⟨missing, joined⟩, different⟩
  · exact ⟨rfl, by decide⟩
  · -- A proper beginning of a frame misses at least one of its bytes.
    have left : missing ≠ [] := by
      rintro rfl
      exact different (by simpa using joined)
    have whole := frame.isFrame
    have length := frame.length_le
    have more := List.length_pos_of_ne_nil left
    rw [← joined] at whole length
    refine ⟨Framing.next?_partial whole left, ?_⟩
    rw [List.length_append] at length
    omega

/-- The frames of a stream and the beginning of one more are what is extracted and kept. -/
theorem drain_stream (frames : List Frame) {tail : List Byte}
    (stopped : messageFraming.next? tail = none) :
    messageFraming.drain ((frames.map Frame.bytes).flatten ++ tail) =
      (frames.map Frame.bytes, tail) := by
  refine Framing.drain_frames (fun bytes member => ?_) stopped
  obtain ⟨frame, _, rfl⟩ := List.mem_map.mp member
  exact frame.isFrame

/-- What is kept of a stream of frames never fills the buffer. -/
theorem drain_space (frames : List Frame) {tail arrived more : List Byte}
    (stopped : messageFraming.next? tail = none) (short : tail.length < maxReceiveBufferSize)
    (joined : arrived ++ more = (frames.map Frame.bytes).flatten ++ tail) :
    (messageFraming.drain arrived).2.length < maxReceiveBufferSize := by
  have whole : ∀ bytes ∈ frames.map Frame.bytes, messageFraming.IsFrame bytes := by
    intro bytes member
    obtain ⟨frame, _, rfl⟩ := List.mem_map.mp member
    exact frame.isFrame
  -- It is the beginning of a frame, or of the bytes behind the last one.
  rcases Framing.drain_kept whole stopped joined with ⟨bytes, member, fewer⟩ | fewer
  · obtain ⟨frame, _, rfl⟩ := List.mem_map.mp member
    have := frame.length_le
    omega
  · omega

/-- What a frame does to the application's state, through the first handler of its type. -/
def handleFrame (registrations : List (Int × MessageHandler α ω)) (actor : α) (world : ω)
    (frame : Frame) : ω :=
  match registrations.find? fun entry => entry.1 == frame.messageType with
  | none => world
  | some (_, handler) => (handler.call actor frame.bytes world).2

/-- Dispatching a frame reaches the first handler that was registered for its type. -/
theorem deliver_frame (registrations : List (Int × MessageHandler α ω)) (actor : α) (world : ω)
    (frame : Frame) :
    deliver (MessageDispatcher.registered registrations) actor world frame.bytes =
      handleFrame registrations actor world frame := by
  simp only [deliver, MessageDispatcher.dispatch, MessageDispatcher.find?_registered, handleFrame,
    Frame.messageType]
  -- Both sides look for the first registration of the type.
  cases registrations.find? fun entry =>
    entry.1 == (parseMessage frame.bytes).messageType.toInt with
  | none => rfl
  | some entry => rfl

/--
A session dispatches exactly the complete frames of a stream, however the stream is cut.

Every frame reaches the first handler of its type, or none, in stream order.
The bytes left in the buffer are those of the trailing partial frame.
Every recv that is posted has room for at least one byte.
-/
theorem receiveAll_frames (registrations : List (Int × MessageHandler α ω))
    (careful : ∀ entry ∈ registrations, entry.2.KeepsHeader) (actor : α) (world : ω)
    (object : IOUringObject) (fresh : object.commitedSize = 0) (frames : List Frame)
    (tail : List Byte)
    (unfinished : tail = [] ∨ ∃ frame : Frame, tail <+: frame.bytes ∧ tail ≠ frame.bytes)
    (pieces : List (List Byte))
    (cut : pieces.flatten = (frames.map Frame.bytes).flatten ++ tail)
    (fuel : Nat) (enough : maxTurns < fuel)
    (fits : Fits (MessageDispatcher.registered registrations) actor fuel (accepted object world)
      pieces) :
    ∃ last, receiveAll (MessageDispatcher.registered registrations) actor fuel
        (accepted object world) pieces = .ok last ∧
      last.dispatched = frames.map (fun frame => (frame.messageType, frame.bytes)) ∧
      last.world = frames.foldl (handleFrame registrations actor) world ∧
      last.object.commitedSize = tail.length ∧ last.object.buffer.take tail.length = tail ∧
      ∀ span ∈ last.posted, 0 < span.size := by
  -- The trailing bytes complete no frame, and they are too few to fill the buffer.
  obtain ⟨stopped, short⟩ := unfinished_stopped unfinished
  have gentle : Careful (MessageDispatcher.registered registrations) := fun _ entry found =>
    careful entry (MessageDispatcher.registered_mem found)
  obtain ⟨last, received, holds, lastWorld, dispatched, roomy⟩ :=
    receiveAll_kept actor enough pieces (accepted object world) []
      (IOUringObject.holds_nil fresh) rfl
      (by
        intro span member
        rw [List.mem_singleton.mp member]
        simp only [IOUringObject.remainSpan, fresh]
        decide)
      (by
        intro arrived more joined
        rw [cut] at joined
        exact drain_space frames stopped short joined)
      (gentle.keepsSizes _ _ _)
      (fits.roomy enough pieces (IOUringObject.holds_nil fresh) rfl (gentle.keepsSizes _ _ _))
      (by rw [Framing.drain_stop rfl])
  rw [List.nil_append, cut, drain_stream frames stopped] at holds lastWorld dispatched
  refine ⟨last, received, ?_, ?_, holds.1, ?_, roomy⟩
  · rw [dispatched, List.map_map]; rfl
  · rw [lastWorld, List.foldl_map]
    have same : (fun state frame => deliver (MessageDispatcher.registered registrations) actor state
        (Frame.bytes frame)) = handleFrame registrations actor := by
      funext state frame
      exact deliver_frame registrations actor state frame
    rw [same]; rfl
  · exact (List.prefix_iff_eq_take.mp holds.2).symm

/-- A handler that records its message and blanks the payload in the receive buffer. -/
def recorder : MessageHandler Unit (List (List Byte)) where
  call _ span world :=
    (span.take sizeofMessageHeader ++ List.replicate (span.length - sizeofMessageHeader) 0,
      world ++ [span])
  keepsLength := by
    intro _ span _
    simp only [List.length_append, List.length_take, List.length_replicate]
    omega

/-- Recording blanks nothing of the header. -/
theorem recorder_keepsHeader : recorder.KeepsHeader := by
  intro _ span _
  -- Only what is behind the header is blanked, if the span is any longer.
  by_cases short : span.length ≤ sizeofMessageHeader
  · have none : span.length - sizeofMessageHeader = 0 := by omega
    simp [recorder, none]
  · rw [recorder, List.take_append_of_le_length (by simp; omega), List.take_take, Nat.min_self]

/-- A message of type one with four bytes of payload. -/
def ping : Frame where
  bytes := [12, 0, 0, 0, 1, 0, 0, 0, 112, 105, 110, 103]
  header_le := by decide
  length_le := by decide
  size_eq := by decide

/-- A message of type two, which is nothing but its header. -/
def bare : Frame where
  bytes := [8, 0, 0, 0, 2, 0, 0, 0]
  header_le := by decide
  length_le := by decide
  size_eq := by decide

/-- Three messages and a split header, cut inside headers and across frames. -/
theorem receiveAll_frames_ping :
    ∃ last, receiveAll (MessageDispatcher.registered [(1, recorder)]) () 513
        (accepted IOUringObject.new [])
        [[12, 0], [0, 0, 1, 0, 0, 0, 112, 105, 110, 103, 8, 0, 0], [0, 2, 0, 0, 0, 12, 0, 0, 0, 1, 0,
          0, 0, 112, 105, 110, 103, 8, 0, 0]] = .ok last ∧
      last.dispatched = [ping, bare, ping].map (fun frame => (frame.messageType, frame.bytes)) ∧
      last.world = [ping, bare, ping].foldl (handleFrame [(1, recorder)] ()) [] ∧
      last.object.commitedSize = ([8, 0, 0] : List Byte).length ∧
      last.object.buffer.take ([8, 0, 0] : List Byte).length = [8, 0, 0] ∧
      ∀ span ∈ last.posted, 0 < span.size :=
  receiveAll_frames [(1, recorder)]
    (fun entry member => by rw [List.mem_singleton.mp member]; exact recorder_keepsHeader)
    () [] IOUringObject.new rfl [ping, bare, ping] [8, 0, 0]
    (.inr ⟨bare, ⟨[0, 2, 0, 0, 0], rfl⟩, by decide⟩) _ rfl 513 (by decide) (by decide +kernel)

end Braid.ServiceSession
