import Braid.Service.MessageFraming

/-! What the handlers of a session can do to the framing, by what they write into their frames. -/

namespace Braid.ServiceSession

variable {α ω : Type}

/-- What a turn of the loop has delivered: if to a handler, how long, and how much it consumes. -/
structure Delivery where
  handled : Bool
  length : Nat
  consumed : Int
  deriving DecidableEq, Repr

/-- The deliveries of a turn, by its calls of `dispatch` and by what it takes off the count. -/
def turnDeliveries (dispatcher : MessageDispatcher α ω) (before after : Receiver ω) :
    List Delivery :=
  (after.dispatched.drop before.dispatched.length).map fun call =>
    { handled := (dispatcher.find? call.1).isSome
      length := call.2.length
      consumed := before.object.commitedSize - after.object.commitedSize }

/-- The deliveries of the loop in `on_received`, granted a number of turns. -/
def loopDeliveries (dispatcher : MessageDispatcher α ω) (actor : α) :
    Nat → Receiver ω → List Delivery
  | 0, _ => []
  | fuel + 1, receiver =>
    match onReceivedTurn dispatcher actor receiver with
    | .ok (some next) =>
      turnDeliveries dispatcher receiver next ++ loopDeliveries dispatcher actor fuel next
    | _ => []

/-- The deliveries of a recv completion: those of the loop, with the bytes that have arrived. -/
def receiveDeliveries (dispatcher : MessageDispatcher α ω) (actor : α) (fuel : Nat)
    (receiver : Receiver ω) (piece : List Byte) : List Delivery :=
  match receiver.posted with
  | [] => []
  | span :: _ =>
    match receiver.object.write span.offset piece with
    | .error _ => []
    | .ok object =>
      loopDeliveries dispatcher actor fuel { receiver with object := object.commit piece.length }

/-- The deliveries of a sequence of recv completions. -/
def deliveries (dispatcher : MessageDispatcher α ω) (actor : α) (fuel : Nat) :
    Receiver ω → List (List Byte) → List Delivery
  | _, [] => []
  | receiver, piece :: rest =>
    receiveDeliveries dispatcher actor fuel receiver piece ++
      match receive dispatcher actor fuel receiver piece with
      | .ok next => deliveries dispatcher actor fuel next rest
      | .error _ => []

/--
Two tables of handlers that a session frames a stream alike with.

Both deliver frames of the same lengths to handlers of the same types, and consume as many bytes
for each. The loop ends at every recv with both, and as many bytes are committed at the end.
-/
structure SameFraming (first second : MessageDispatcher α ω) (actor : α) (fuel : Nat)
    (start : Receiver ω) (pieces : List (List Byte)) : Prop where
  delivered : deliveries first actor fuel start pieces = deliveries second actor fuel start pieces
  ends : ∃ last last', receiveAll first actor fuel start pieces = .ok last ∧
    receiveAll second actor fuel start pieces = .ok last' ∧
    last.object.commitedSize = last'.object.commitedSize

/-- The tables have handlers for the same types. -/
def SameTypes (first second : MessageDispatcher α ω) : Prop :=
  ∀ messageType, (first.find? messageType).isSome = (second.find? messageType).isSome

/-- No handler of the table writes into the frames that it gets. -/
def WritesNothing (dispatcher : MessageDispatcher α ω) : Prop :=
  ∀ wanted entry, dispatcher.find? wanted = some entry →
    ∀ actor span world, (entry.2.call actor span world).1 = span

/-- The delivery of a frame that is consumed as a whole. -/
def deliveryOf (dispatcher : MessageDispatcher α ω) (frame : List Byte) : Delivery where
  handled := (dispatcher.find? (callOf frame).1).isSome
  length := frame.length
  consumed := frame.length

variable {dispatcher : MessageDispatcher α ω} {actor : α}

/-- Handlers that write nothing write into no header. -/
theorem WritesNothing.careful (quiet : WritesNothing dispatcher) : Careful dispatcher := by
  intro wanted entry found actor span world
  rw [quiet wanted entry found]

/-- Handlers that write into no header leave the sizes of all frames as they are. -/
theorem Careful.keepsSizes_frames (careful : Careful dispatcher) (world : ω)
    (frames : List Frame) : KeepsSizes dispatcher actor world (frames.map Frame.bytes) := by
  have sizes := careful.keepsSizes actor ((frames.map Frame.bytes).flatten ++ []) world
  rwa [drain_stream frames rfl] at sizes

/-- Tables with handlers for the same types deliver whole frames alike. -/
theorem SameTypes.deliveryOf {first second : MessageDispatcher α ω}
    (types : SameTypes first second) (frame : List Byte) :
    ServiceSession.deliveryOf first frame = ServiceSession.deliveryOf second frame := by
  simp only [ServiceSession.deliveryOf, types _]

/-- Processing takes the given size off the count. -/
theorem processCompleted_commitedSize {object after : IOUringObject} {size : Int}
    (processed : object.processCompleted size = .ok after) :
    after.commitedSize = object.commitedSize - size := by
  unfold IOUringObject.processCompleted at processed
  split at processed
  · -- The bytes are moved first, if any are left.
    simp only [bind, Except.bind] at processed
    split at processed
    · cases processed
    · cases processed
      rfl
  · cases processed
    rfl

/-- A turn delivers the frame that it has found, and consumes what the handler leaves as size. -/
theorem turnDeliveries_frame {receiver next : Receiver ω} {data frame rest : List Byte}
    (holds : receiver.object.Holds data) (found : messageFraming.next? data = some (frame, rest))
    (turned : onReceivedTurn dispatcher actor receiver = .ok (some next)) :
    turnDeliveries dispatcher receiver next =
      [{ deliveryOf dispatcher frame with
        consumed := (parseMessage (writtenBack dispatcher actor receiver.world frame)).size }] := by
  obtain ⟨joined, _⟩ := messageFraming_next? found
  obtain ⟨object, rewritten, _, computed⟩ := onReceivedTurn_frame dispatcher actor
    holds found
  rw [computed] at turned
  simp only [bind, Except.bind] at turned
  split at turned
  · cases turned
  · rename_i after processed
    cases turned
    -- The handler has written as many bytes as the frame has, so that the count is as before.
    have before := holds.1
    have between := rewritten.1
    rw [joined, List.length_append] at before
    rw [writtenBack, List.length_append, dispatcher.dispatch_length] at between
    have fewer := processCompleted_commitedSize processed
    simp only [turnDeliveries, List.drop_left, List.map_cons, List.map_nil, deliveryOf, callOf,
      fewer, List.cons.injEq, Delivery.mk.injEq, and_true, true_and]
    omega

/-- Where sizes are kept, the loop delivers all complete frames, and consumes each as a whole. -/
theorem loopDeliveries_kept (actor : α) (data : List Byte) :
    ∀ (fuel : Nat) (receiver : Receiver ω), receiver.object.Holds data →
      KeepsSizes dispatcher actor receiver.world (messageFraming.drain data).1 →
      data.length < sizeofMessageHeader * fuel →
      loopDeliveries dispatcher actor fuel receiver =
        (messageFraming.drain data).1.map (deliveryOf dispatcher) := by
  -- The induction follows the extraction, as that of the loop does.
  induction data using Framing.drain.induct messageFraming with
  | case1 data stopped =>
    intro fuel receiver holds _ granted
    cases fuel with
    | zero => omega
    | succ fuel => simp [loopDeliveries, onReceivedTurn_stop holds stopped,
        Framing.drain_stop stopped]
  | case2 data frame rest found ih =>
    intro fuel receiver holds sizes granted
    rw [Framing.drain_next found] at sizes
    cases fuel with
    | zero => omega
    | succ fuel =>
      obtain ⟨object, turned, held, _⟩ := onReceivedTurn_kept actor holds found sizes.1
      obtain ⟨joined, header, _, _⟩ := messageFraming_next? found
      have lengths : data.length = frame.length + rest.length := by
        rw [joined, List.length_append]
      have later := ih fuel { receiver with
        object := object
        world := deliver dispatcher actor receiver.world frame
        dispatched := receiver.dispatched ++ [callOf frame] } held sizes.2
        (by simp only [sizeofMessageHeader] at *; omega)
      simp only [loopDeliveries, turned, turnDeliveries_frame holds found turned, later, sizes.1,
        Framing.drain_next found, List.map_cons, List.singleton_append]
      rfl

/-- A loop that ends, and consumes each complete frame as a whole, has found all sizes kept. -/
theorem keepsSizes_of_loop (actor : α) (data : List Byte) :
    ∀ (fuel : Nat) (receiver last : Receiver ω) (more others : List Delivery),
      receiver.object.Holds data → onReceivedLoop dispatcher actor fuel receiver = .ok last →
      loopDeliveries dispatcher actor fuel receiver ++ more =
        (messageFraming.drain data).1.map (deliveryOf dispatcher) ++ others →
      KeepsSizes dispatcher actor receiver.world (messageFraming.drain data).1 := by
  induction data using Framing.drain.induct messageFraming with
  | case1 data stopped =>
    intros
    rw [Framing.drain_stop stopped]
    trivial
  | case2 data frame rest found ih =>
    intro fuel receiver last more others holds looped same
    cases fuel with
    | zero => cases looped
    | succ fuel =>
      rw [Framing.drain_next found] at same ⊢
      simp only [onReceivedLoop, bind, Except.bind] at looped
      cases turned : onReceivedTurn dispatcher actor receiver with
      | error failure => simp [turned] at looped
      | ok turn =>
        cases turn with
        | none =>
          -- A turn that finds a frame does not leave the loop.
          obtain ⟨object, _, _, computed⟩ := onReceivedTurn_frame dispatcher actor
            holds found
          rw [computed] at turned
          simp only [bind, Except.bind] at turned
          split at turned <;> cases turned
        | some next =>
          simp only [turned] at looped
          simp only [loopDeliveries, turned, turnDeliveries_frame holds found turned,
            List.map_cons, List.cons_append, List.nil_append, List.cons.injEq] at same
          -- What the first delivery consumes is the size that its handler has left.
          have kept := congrArg Delivery.consumed same.1
          simp only [deliveryOf] at kept
          obtain ⟨object, again, held, _⟩ := onReceivedTurn_kept actor holds found kept
          rw [turned] at again
          cases again
          exact ⟨kept, ih fuel _ last more others held looped same.2⟩

/-- A recv result that there is room for is written, and the loop runs on what is held then. -/
theorem receive_arrive (dispatcher : MessageDispatcher α ω) (actor : α) (fuel : Nat)
    {receiver : Receiver ω} {held piece : List Byte}
    (holds : receiver.object.Holds held)
    (outstanding : receiver.posted.head? = some receiver.object.remainSpan)
    (room : held.length + piece.length ≤ maxReceiveBufferSize) :
    ∃ filled : IOUringObject, filled.Holds (held ++ piece) ∧
      receiveDeliveries dispatcher actor fuel receiver piece =
        loopDeliveries dispatcher actor fuel { receiver with object := filled } ∧
      receive dispatcher actor fuel receiver piece =
        onReceived dispatcher actor fuel { receiver with object := filled } := by
  have count := holds.1
  -- What there is room for is what the posted span covers.
  have fits : (piece.length : Int) ≤ receiver.object.remainSpan.size := by
    simp only [IOUringObject.remainSpan]
    omega
  obtain ⟨filled, wrote, kept⟩ := holds.fill fits
  refine ⟨filled.commit piece.length, kept, ?_⟩
  cases posted : receiver.posted with
  | nil => simp [posted] at outstanding
  | cons span rest =>
    simp only [posted, List.head?_cons, Option.some.injEq] at outstanding
    subst outstanding
    simp only [receiveDeliveries, receive, posted, wrote, bind, Except.bind, and_self]

/-- Where sizes are kept, all complete frames of a stream are delivered, and consumed as a whole. -/
theorem deliveries_kept (actor : α) {fuel : Nat} (enough : maxTurns < fuel)
    (pieces : List (List Byte)) : ∀ (receiver : Receiver ω) (held : List Byte),
      receiver.object.Holds held →
      receiver.posted.head? = some receiver.object.remainSpan →
      messageFraming.next? held = none →
      KeepsSizes dispatcher actor receiver.world
        (messageFraming.drain (held ++ pieces.flatten)).1 →
      Roomy held pieces →
      deliveries dispatcher actor fuel receiver pieces =
        (messageFraming.drain (held ++ pieces.flatten)).1.map (deliveryOf dispatcher) := by
  induction pieces with
  | nil =>
    intro receiver held _ _ stopped _ _
    simp [deliveries, Framing.drain_stop stopped]
  | cons piece rest ih =>
    intro receiver held holds outstanding _ sizes ⟨room, later⟩
    rw [drain_pieces, keepsSizes_append] at sizes
    have count := holds.1
    -- The loop delivers the frames of what was held and of the piece, and the rest follows.
    obtain ⟨filled, kept, delivered, _⟩ := receive_arrive dispatcher actor fuel
      holds outstanding room
    have bound := kept.length_le
    have looped := loopDeliveries_kept actor _ fuel { receiver with object := filled } kept sizes.1
      (by simp only [maxTurns, maxReceiveBufferSize, sizeofMessageHeader] at *; omega)
    obtain ⟨next, received, nextHolds, world, _, posted⟩ :=
      receive_kept actor enough holds outstanding
        (by simp only [IOUringObject.remainSpan]; omega) sizes.1
    have behind := ih next _ nextHolds (by simp [posted]) (Framing.next?_drain _ _)
      (by rw [world]; exact sizes.2) later
    simp only [deliveries, delivered, looped, received, behind, drain_pieces, List.map_append]

/-- A session that consumes each frame as a whole, and ends every loop, has all sizes kept. -/
theorem keepsSizes_of_receiveAll (actor : α) {fuel : Nat} (enough : maxTurns < fuel)
    (pieces : List (List Byte)) : ∀ (receiver last : Receiver ω) (held : List Byte),
      receiver.object.Holds held →
      receiver.posted.head? = some receiver.object.remainSpan →
      messageFraming.next? held = none → Roomy held pieces →
      receiveAll dispatcher actor fuel receiver pieces = .ok last →
      deliveries dispatcher actor fuel receiver pieces =
        (messageFraming.drain (held ++ pieces.flatten)).1.map (deliveryOf dispatcher) →
      KeepsSizes dispatcher actor receiver.world
        (messageFraming.drain (held ++ pieces.flatten)).1 := by
  induction pieces with
  | nil =>
    intro receiver last held _ _ stopped _ _ _
    rw [List.flatten_nil, List.append_nil, Framing.drain_stop stopped]
    trivial
  | cons piece rest ih =>
    intro receiver last held holds outstanding _ ⟨room, later⟩ received same
    rw [drain_pieces, keepsSizes_append]
    have count := holds.1
    obtain ⟨filled, kept, delivered, arrived⟩ := receive_arrive dispatcher actor fuel
      holds outstanding room
    have bound := kept.length_le
    simp only [receiveAll, bind, Except.bind, arrived, onReceived] at received
    rw [deliveries, drain_pieces, List.map_append] at same
    -- The loop has ended, and its deliveries are the first ones.
    cases looped : onReceivedLoop dispatcher actor fuel { receiver with object := filled } with
    | error failure => simp [looped] at received
    | ok left =>
      have first := keepsSizes_of_loop actor _ fuel _ left _ _ kept looped
        (by rw [← delivered]; exact same)
      refine ⟨first, ?_⟩
      -- So they are all that it delivers, and the others come from the pieces that follow.
      have own := loopDeliveries_kept actor _ fuel { receiver with object := filled } kept first
        (by simp only [maxTurns, maxReceiveBufferSize, sizeofMessageHeader] at *; omega)
      obtain ⟨next, again, nextHolds, world, _, posted⟩ :=
        receive_kept actor enough holds outstanding
          (by simp only [IOUringObject.remainSpan]; omega) first
      have whole := again
      rw [arrived, onReceived, looped] at whole
      cases whole
      simp only [again, delivered, own, List.append_cancel_left_eq] at same
      have behind := ih _ last _ nextHolds (by simp [posted]) (Framing.next?_drain _ _) later
        (by simpa only [looped, pure, Except.pure] using received) same
      rwa [world] at behind

/--
When handlers cannot disturb the framing: exactly if none changes the size of a frame it gets.

The tables have handlers for the same types, and those of one of them write nothing. The size of a
frame is read once more when its handler has returned, from the bytes that the handler may have
written, and as many bytes are removed from the buffer as it says there.
-/
theorem sameFraming_iff (tables : Set (MessageDispatcher α ω))
    (types : ∀ first ∈ tables, ∀ second ∈ tables, SameTypes first second)
    {silent : MessageDispatcher α ω} (member : silent ∈ tables) (quiet : WritesNothing silent)
    (actor : α) (world : ω) (object : IOUringObject) (fresh : object.commitedSize = 0)
    (frames : List Frame) (tail : List Byte)
    (unfinished : tail = [] ∨ ∃ frame : Frame, tail <+: frame.bytes ∧ tail ≠ frame.bytes)
    (pieces : List (List Byte))
    (cut : pieces.flatten = (frames.map Frame.bytes).flatten ++ tail)
    (fuel : Nat) (enough : maxTurns < fuel)
    (fits : Fits silent actor fuel (accepted object world) pieces) :
    (∀ first ∈ tables, ∀ second ∈ tables,
      SameFraming first second actor fuel (accepted object world) pieces) ↔
      ∀ table ∈ tables, KeepsSizes table actor world (frames.map Frame.bytes) := by
  obtain ⟨stopped, short⟩ := unfinished_stopped unfinished
  have start : (accepted object world).object.Holds [] := IOUringObject.holds_nil fresh
  have stream : messageFraming.drain ([] ++ pieces.flatten) = (frames.map Frame.bytes, tail) := by
    rw [List.nil_append, cut, drain_stream frames stopped]
  have roomy : Roomy [] pieces := by
    refine fits.roomy enough pieces start rfl ?_
    rw [stream]
    exact quiet.careful.keepsSizes_frames world frames
  -- What a table that keeps all sizes delivers, and what it leaves.
  have delivers (table : MessageDispatcher α ω)
      (sizes : KeepsSizes table actor world (frames.map Frame.bytes)) :
      deliveries table actor fuel (accepted object world) pieces =
        (frames.map Frame.bytes).map (deliveryOf table) ∧
      ∃ last, receiveAll table actor fuel (accepted object world) pieces = .ok last ∧
        last.object.commitedSize = tail.length := by
    have extracted : (messageFraming.drain ([] ++ pieces.flatten)).1 = frames.map Frame.bytes :=
      congrArg Prod.fst stream
    rw [← extracted] at sizes ⊢
    refine ⟨deliveries_kept actor enough pieces _ [] start rfl rfl sizes roomy, ?_⟩
    obtain ⟨last, received, kept, _⟩ := receiveAll_kept actor enough pieces
      (accepted object world) [] start rfl
      (by
        intro span posted
        rw [List.mem_singleton.mp posted]
        simp only [IOUringObject.remainSpan, fresh]
        decide)
      (fun arrived more joined => drain_space frames stopped short (joined.trans cut))
      sizes roomy (by rw [Framing.drain_stop rfl])
    rw [stream] at kept
    exact ⟨last, received, kept.1⟩
  constructor
  · intro same table mem
    obtain ⟨delivered, last, _, received, -⟩ := same table mem silent member
    -- The table that writes nothing delivers the frames as they are, and so does this one.
    obtain ⟨expected, -⟩ := delivers silent (quiet.careful.keepsSizes_frames world frames)
    rw [expected, List.map_congr_left fun frame _ =>
      (types silent member table mem).deliveryOf frame] at delivered
    have sizes := keepsSizes_of_receiveAll actor enough pieces _ last [] start rfl rfl roomy
      received (by rw [stream]; exact delivered)
    rwa [stream] at sizes
  · intro sizes first firstMem second secondMem
    obtain ⟨delivered, last, received, count⟩ := delivers first (sizes first firstMem)
    obtain ⟨delivered', last', received', count'⟩ := delivers second (sizes second secondMem)
    refine ⟨?_, last, last', received, received', count.trans count'.symm⟩
    rw [delivered, delivered']
    exact List.map_congr_left fun frame _ =>
      (types first firstMem second secondMem).deliveryOf frame

/-- A handler that takes a copy of its message, and leaves the receive buffer as it is. -/
def reader : MessageHandler Unit (List (List Byte)) where
  call _ span world := (span, world ++ [span])
  keepsLength _ _ _ := rfl

/-- A handler that takes a copy of its message, and wipes the message in the receive buffer. -/
def eraser : MessageHandler Unit (List (List Byte)) where
  call _ span world := (List.replicate span.length 0, world ++ [span])
  keepsLength _ _ _ := List.length_replicate

/-- The table with one handler, which is registered for messages of type one. -/
def only (handler : MessageHandler Unit (List (List Byte))) :
    MessageDispatcher Unit (List (List Byte)) :=
  .registered [(1, handler)]

/-- Tables with one handler each have handlers for the same types. -/
theorem sameTypes_only (first second : MessageHandler Unit (List (List Byte))) :
    SameTypes (only first) (only second) := by
  intro messageType
  simp only [only, MessageDispatcher.find?_registered, List.find?_singleton]
  split <;> rfl

/-- Whether the payload is blanked or not, three messages in three pieces are framed alike. -/
theorem sameFraming_iff_recorder :
    SameFraming (only reader) (only recorder) () 513 (accepted IOUringObject.new [])
      [[12, 0], [0, 0, 1, 0, 0, 0, 112, 105, 110, 103, 8, 0, 0], [0, 2, 0, 0, 0, 12, 0, 0, 0, 1, 0,
        0, 0, 112, 105, 110, 103, 8, 0, 0]] := by
  -- The reader writes nothing, and the recorder writes behind the header only.
  have quiet : WritesNothing (only reader) := fun wanted entry found actor span world => by
    have member := MessageDispatcher.registered_mem found
    rw [List.mem_singleton.mp member]
    rfl
  have careful : Careful (only recorder) := fun wanted entry found => by
    have member := MessageDispatcher.registered_mem found
    rw [List.mem_singleton.mp member]
    exact recorder_keepsHeader
  refine (sameFraming_iff {only reader, only recorder} ?_ (Set.mem_insert _ _) quiet () []
    IOUringObject.new rfl [ping, bare, ping] [8, 0, 0]
    (.inr ⟨bare, ⟨[0, 2, 0, 0, 0], rfl⟩, by decide⟩) _ rfl 513 (by decide)
    (by decide +kernel)).mpr ?_ _ (Set.mem_insert _ _) _ (Set.mem_insert_of_mem _ rfl)
  · -- Both tables know one type, and know it alike.
    rintro first (rfl | rfl) second (rfl | rfl) <;> exact sameTypes_only _ _
  · rintro table (rfl | rfl)
    · exact quiet.careful.keepsSizes_frames _ _
    · exact careful.keepsSizes_frames _ _

/--
A handler that wipes its message leaves the session with twelve bytes that it cannot pass.

Both handlers get the one message of the stream. The size that is read once more is zero, so that
nothing is removed from the buffer.
-/
theorem sameFraming_fails :
    Fits (only reader) () 513 (accepted IOUringObject.new []) [ping.bytes] ∧
      Fits (only eraser) () 513 (accepted IOUringObject.new []) [ping.bytes] ∧
      ¬ SameFraming (only reader) (only eraser) () 513 (accepted IOUringObject.new [])
        [ping.bytes] := by
  refine ⟨by decide +kernel, by decide +kernel, fun same => ?_⟩
  -- The eraser wipes the size in the header, which is read again after the handler.
  have different : deliveries (only reader) () 513 (accepted IOUringObject.new []) [ping.bytes] ≠
      deliveries (only eraser) () 513 (accepted IOUringObject.new []) [ping.bytes] := by
    decide +kernel
  exact different same.delivered

end Braid.ServiceSession
