import Braid.Net.IOUringObject
import Braid.Library.Framing
import Mathlib.Data.BitVec

/-! Message headers and the table of handlers that received frames are dispatched to. -/

namespace Braid

/-- The two fields at the start of every message. -/
structure MessageHeader where
  size : Int
  messageType : BitVec 32
  deriving DecidableEq, Repr

/-- `sizeof(MessageHeader)`: an `int` and a `uint`. -/
def sizeofMessageHeader : Nat := 8

/-- The four bytes from a position on as a little-endian word. -/
def readWord (bytes : List Byte) (at_ : Nat) : BitVec 32 :=
  let byte (i : Nat) : BitVec 32 := ((bytes[at_ + i]?).getD 0).toBitVec.setWidth 32
  byte 0 ||| (byte 1 <<< 8) ||| (byte 2 <<< 16) ||| (byte 3 <<< 24)

/-- `parse_message<MessageHeader>`: the header lying at the start of a span. -/
def parseMessage (bytes : List Byte) : MessageHeader where
  size := (readWord bytes 0).toInt
  messageType := readWord bytes 4

/-- A word depends only on the four bytes it is read from. -/
theorem readWord_congr {first second : List Byte} {at_ : Nat}
    (same : ∀ i < 4, first[at_ + i]? = second[at_ + i]?) :
    readWord first at_ = readWord second at_ := by
  simp only [readWord, same 0 (by decide), same 1 (by decide), same 2 (by decide),
    same 3 (by decide)]

/-- A header depends only on the first bytes of the span it is read from. -/
theorem parseMessage_congr {first second : List Byte}
    (same : first.take sizeofMessageHeader = second.take sizeofMessageHeader) :
    parseMessage first = parseMessage second := by
  -- Both fields are read within the first eight bytes.
  have agree : ∀ i < sizeofMessageHeader, first[i]? = second[i]? := by
    intro i below
    have read := congrArg (fun bytes => bytes[i]?) same
    simpa only [List.getElem?_take, if_pos below] using read
  simp only [sizeofMessageHeader] at agree
  simp only [parseMessage, readWord_congr fun i below => agree (0 + i) (by omega),
    readWord_congr fun i below => agree (4 + i) (by omega)]

/-- Bytes arriving behind a header do not change it. -/
theorem parseMessage_append {bytes : List Byte} (arrived : sizeofMessageHeader ≤ bytes.length)
    (more : List Byte) : parseMessage (bytes ++ more) = parseMessage bytes :=
  parseMessage_congr (List.take_append_of_le_length arrived)

/--
The framing of the stream that the receive loop implements.

A header that declares less than its own size starts no frame: the loop stops in front of it.
-/
def messageFraming : Framing Byte where
  size bytes :=
    if bytes.length < sizeofMessageHeader then none
    else if (parseMessage bytes).size < sizeofMessageHeader then none
    else some (parseMessage bytes).size.toNat
  positive := by
    intro bytes n declared
    split at declared
    · cases declared
    · split at declared
      · cases declared
      · cases declared
        simp only [sizeofMessageHeader] at *
        omega
  stable := by
    intro bytes n declared more
    split at declared
    · cases declared
    · rename_i arrived
      rw [parseMessage_append (by omega), if_neg (by simp only [List.length_append]; omega)]
      exact declared

/-- A frame that the stream starts with has a header, and is as long as that header says. -/
theorem messageFraming_next? {data frame rest : List Byte}
    (found : messageFraming.next? data = some (frame, rest)) :
    data = frame ++ rest ∧ sizeofMessageHeader ≤ frame.length ∧
      (parseMessage frame).size = frame.length ∧ parseMessage data = parseMessage frame := by
  obtain ⟨joined, _⟩ := Framing.next?_split found
  simp only [Framing.next?, messageFraming] at found
  -- A frame is found only if there is a header, and one that counts itself.
  by_cases short : data.length < sizeofMessageHeader
  · simp [short] at found
  by_cases small : (parseMessage data).size < sizeofMessageHeader
  · simp [short, small] at found
  simp only [if_neg short, if_neg small] at found
  split at found
  · rename_i complete
    simp only [Option.some.injEq, Prod.mk.injEq] at found
    have frameLength : frame.length = (parseMessage data).size.toNat := by
      rw [← found.1, List.length_take, Nat.min_eq_left complete]
    -- The header is inside of the frame, so it reads the same from there.
    have header : sizeofMessageHeader ≤ frame.length := by
      simp only [sizeofMessageHeader] at *
      omega
    have same : parseMessage data = parseMessage frame := by
      rw [joined, parseMessage_append header]
    exact ⟨joined, header, by rw [← same]; omega, same⟩
  · cases found

/-- A message a peer may send: its size field is its whole length, and it fits in the buffer. -/
structure Frame where
  bytes : List Byte
  header_le : sizeofMessageHeader ≤ bytes.length
  length_le : bytes.length ≤ maxReceiveBufferSize
  size_eq : (parseMessage bytes).size = bytes.length

/-- The message type of a frame, converted to the `int` that handlers are registered under. -/
def Frame.messageType (frame : Frame) : Int := (parseMessage frame.bytes).messageType.toInt

/-- A well-formed message is one frame of the stream. -/
theorem Frame.isFrame (frame : Frame) : messageFraming.IsFrame frame.bytes := by
  have header := frame.header_le
  have size := frame.size_eq
  show (if _ then _ else _) = _
  -- The header is there, and the size that it says is the length.
  rw [if_neg (by omega), if_neg (by omega), size, Int.toNat_natCast]

/--
A message handler: what it does to the bytes of its span and to the application's state.

It gets a view of the frame, so it may rewrite those bytes but not lengthen or shorten them.
-/
structure MessageHandler (α ω : Type) where
  call : α → List Byte → ω → List Byte × ω
  keepsLength : ∀ actor span world, (call actor span world).1.length = span.length

/-- The handler leaves the bytes of the header as it finds them. -/
def MessageHandler.KeepsHeader {α ω : Type} (handler : MessageHandler α ω) : Prop :=
  ∀ actor span world,
    (handler.call actor span world).1.take sizeofMessageHeader = span.take sizeofMessageHeader

/-- The table of handlers, in the order in which their types were first registered. -/
structure MessageDispatcher (α ω : Type) where
  handlers : List (Int × MessageHandler α ω) := []

namespace MessageDispatcher

variable {α ω : Type}

/-- `handlers_.find`. -/
def find? (dispatcher : MessageDispatcher α ω) (messageType : Int) :
    Option (Int × MessageHandler α ω) :=
  dispatcher.handlers.find? fun entry => entry.1 == messageType

/-- `register_handler`: the first handler registered for a type stays. -/
def registerHandler (dispatcher : MessageDispatcher α ω) (messageType : Int)
    (handler : MessageHandler α ω) : MessageDispatcher α ω :=
  if (dispatcher.find? messageType).isSome then dispatcher
  else { handlers := dispatcher.handlers ++ [(messageType, handler)] }

/-- `dispatch`: whether a handler was found, the span as it leaves it, and the state after it. -/
def dispatch (dispatcher : MessageDispatcher α ω) (messageType : Int) (data : List Byte)
    (actor : α) (world : ω) : Bool × List Byte × ω :=
  match dispatcher.find? messageType with
  | none => (false, data, world)
  | some (_, handler) => (true, handler.call actor data world)

/-- The dispatcher after a sequence of registrations. -/
def registered (registrations : List (Int × MessageHandler α ω)) : MessageDispatcher α ω :=
  registrations.foldl (fun dispatcher entry => dispatcher.registerHandler entry.1 entry.2) {}

/-- Dispatching never changes how many bytes the span has. -/
theorem dispatch_length (dispatcher : MessageDispatcher α ω) (messageType : Int)
    (data : List Byte) (actor : α) (world : ω) :
    (dispatcher.dispatch messageType data actor world).2.1.length = data.length := by
  unfold dispatch
  -- Without a handler the span is as it was, and a handler has to keep its length.
  split
  · rfl
  · rename_i handler _; exact handler.keepsLength _ _ _

/-- Registering a handler is looked up before it only where the type was not yet registered. -/
theorem find?_registerHandler (dispatcher : MessageDispatcher α ω) (messageType wanted : Int)
    (handler : MessageHandler α ω) :
    (dispatcher.registerHandler messageType handler).find? wanted =
      (dispatcher.find? wanted).or
        (if messageType == wanted then some (messageType, handler) else none) := by
  unfold registerHandler
  split
  · -- The type has a handler already, and the first one stays.
    rename_i known
    by_cases same : messageType = wanted
    · subst same
      obtain ⟨entry, found⟩ := Option.isSome_iff_exists.mp known
      simp [found]
    · simp [same]
  · simp only [find?, List.find?_append, List.find?_singleton]

/-- A type is handled by the first handler that was registered for it, if there is one. -/
theorem find?_registered (registrations : List (Int × MessageHandler α ω)) (wanted : Int) :
    (registered registrations).find? wanted =
      registrations.find? fun entry => entry.1 == wanted := by
  -- The table built so far answers first, and the remaining registrations only fill its gaps.
  have general : ∀ (dispatcher : MessageDispatcher α ω),
      (registrations.foldl (fun table entry => table.registerHandler entry.1 entry.2)
        dispatcher).find? wanted =
        (dispatcher.find? wanted).or (registrations.find? fun entry => entry.1 == wanted) := by
    induction registrations with
    | nil => intro dispatcher; simp
    | cons entry rest ih =>
      intro dispatcher
      rw [List.foldl_cons, ih, find?_registerHandler, Option.or_assoc, List.find?_cons]
      cases entry.1 == wanted <;> simp
  exact general {}

/-- Every handler of the table came from one of the registrations. -/
theorem registered_mem {registrations : List (Int × MessageHandler α ω)} {wanted : Int}
    {entry : Int × MessageHandler α ω}
    (found : (registered registrations).find? wanted = some entry) : entry ∈ registrations := by
  rw [find?_registered] at found
  exact List.mem_of_find?_eq_some found

/-- When no handler writes into headers, dispatching leaves the header of the span alone. -/
theorem dispatch_keepsHeader {dispatcher : MessageDispatcher α ω}
    (careful : ∀ wanted entry, dispatcher.find? wanted = some entry → entry.2.KeepsHeader)
    (messageType : Int) (data : List Byte) (actor : α) (world : ω) :
    (dispatcher.dispatch messageType data actor world).2.1.take sizeofMessageHeader =
      data.take sizeofMessageHeader := by
  unfold dispatch
  -- Without a handler the span is as it was.
  split
  · rfl
  · rename_i found; exact careful _ _ found _ _ _

end MessageDispatcher

end Braid
