import Braid.Library.Transition
import Braid.Net.IOUringObject

/-! The request queue of a ring: what is pushed to it, and what a flush hands to the kernel. -/

namespace Braid

open Transition

/--
The size of a submission ring: the queue depth rounded up to a power of two.

The kernel makes no ring at all for a depth of zero or above 32768. The constructor of the request
queue does not look at what `io_uring_queue_init` returns, and such depths are not told apart here.
-/
def submissionEntries (queueDepth : Nat) : Nat :=
  if queueDepth ≤ 1 then 1 else 2 ^ (Nat.log2 (queueDepth - 1) + 1)

/-- What a submission entry asks the kernel for. -/
inductive Opcode where
  | accept
  | recv
  | send
  | close
  | nop
  deriving DecidableEq

/--
The operation classes, with the fields they are constructed with, for objects of a type `ω`.

Each of the pointers `io_object_` and `send_buffer_` may be null. Classes derived from
`IOOperationNop` share its `request_io`.
-/
inductive IOOperation (ω : Type) where
  | accept (ioObject : Option ω) (listenFd : Int)
  | recv (ioObject : Option ω) (buffer : Span)
  | send (ioObject : Option ω) (buffer : Span)
  | sendBuffer (ioObject : Option ω) (sendBuffer : Option (List Byte))
  | close (ioObject : Option ω)
  | nop (ioObject : Option ω)
  deriving DecidableEq

/-- A submission entry, with the operation in its user data. -/
structure Entry (π : Type) where
  opcode : Opcode
  fd : Int
  length : BitVec 32
  userData : π
  deriving DecidableEq

/-- Why the thread that flushes stops. -/
inductive QueueFault where
  -- `io_uring_get_sqe` returned null, and the null entry is written to.
  | nullEntry
  -- The assertion on `io_object_` fails, or a null `io_object_` or `send_buffer_` is read through.
  | nullObject
  | nullBuffer
  deriving DecidableEq

namespace IOOperation

variable {π ω : Type}

/-- The entry asks for this, both kinds of sends for the same. -/
def opcode : IOOperation ω → Opcode
  | .accept .. => .accept
  | .recv .. => .recv
  | .send .. => .send
  | .sendBuffer .. => .send
  | .close _ => .close
  | .nop _ => .nop

/-- The number of bytes that the entry names, as an unsigned word. -/
def length : IOOperation ω → BitVec 32
  | .recv _ buffer => BitVec.ofInt 32 buffer.size
  | .send _ buffer => BitVec.ofInt 32 buffer.size
  | .sendBuffer _ bytes => BitVec.ofNat 32 (bytes.getD []).length
  | _ => 0

/-- The entry that is filled for an operation. -/
def entry (operation : IOOperation ω) (fd : Int) (pointer : π) : Entry π :=
  ⟨operation.opcode, fd, operation.length, pointer⟩

/-- Neither the object nor the buffer of the operation is null. -/
def Present : IOOperation ω → Prop
  | .accept ioObject _ => ioObject.isSome
  | .recv ioObject _ => ioObject.isSome
  | .send ioObject _ => ioObject.isSome
  | .sendBuffer ioObject bytes => ioObject.isSome ∧ bytes.isSome
  | .close ioObject => ioObject.isSome
  | .nop ioObject => ioObject.isSome

instance : DecidablePred (@Present ω)
  | .accept ioObject _ => inferInstanceAs (Decidable (ioObject.isSome = true))
  | .recv ioObject _ => inferInstanceAs (Decidable (ioObject.isSome = true))
  | .send ioObject _ => inferInstanceAs (Decidable (ioObject.isSome = true))
  | .sendBuffer ioObject bytes =>
    inferInstanceAs (Decidable (ioObject.isSome = true ∧ bytes.isSome = true))
  | .close ioObject => inferInstanceAs (Decidable (ioObject.isSome = true))
  | .nop ioObject => inferInstanceAs (Decidable (ioObject.isSome = true))

end IOOperation

namespace IORequestQueue

/-- The place in `flush_requests`, with the operation that its loop has popped. -/
inductive Place (π ω : Type) where
  | outside
  | pop
  | requestIo (pointer : π)
  -- Behind `on_event_request` of an event, and behind the `shutdown` of a close.
  | eventRequested (pointer : π)
  | shutDown (pointer : π) (ioObject : ω)
  | submitClose
  | submit
  deriving DecidableEq

/-- What is remembered of a request queue and of its last flush. -/
structure Flush (π : Type) where
  -- What has been pushed, and what earlier flushes have popped.
  pushed : List π := []
  before : List π := []
  -- What the flush has popped, the entries it has written, and what the kernel has got of them.
  popped : List π := []
  written : List (Entry π) := []
  handed : List (Entry π) := []

end IORequestQueue

/-- An `IORequestQueue` of pointers of a type `π` to operations, and the thread that flushes it. -/
structure IORequestQueue (π ω : Type) where
  requestQueue : List π := []
  -- The entries of `ring_` taken since the last submission.
  ring : List (Entry π) := []
  place : IORequestQueue.Place π ω := .outside
  fault : Option QueueFault := none
  flush : IORequestQueue.Flush π := {}

namespace IORequestQueue

variable {π ω : Type}

/-- What can happen next: a push by some thread, or a step of the thread that flushes. -/
inductive Label (π ω : Type) where
  -- The number of times that the lock-free queue refuses the operation.
  | push (pointer : π) (refusals : Nat)
  | flush
  -- The descriptors of the objects at that moment.
  | run (socketFd : ω → Int)

/-- The thread stops. -/
def stop (queue : IORequestQueue π ω) (fault : QueueFault) : IORequestQueue π ω :=
  { queue with fault := some fault }

/-- `push_request`, which gives the operation up when the eleventh attempt has failed. -/
def pushRequest (queue : IORequestQueue π ω) (pointer : π) (refusals : Nat) :
    IORequestQueue π ω :=
  if refusals ≤ 10 then
    { queue with
      requestQueue := queue.requestQueue ++ [pointer]
      flush := { queue.flush with pushed := queue.flush.pushed ++ [pointer] } }
  else queue

/-- What is remembered anew when a flush begins. -/
def Flush.begin (flush : Flush π) : Flush π :=
  { flush with before := flush.before ++ flush.popped, popped := [], written := [], handed := [] }

/-- `flush_requests` up to its loop, which is not reached with an empty queue. -/
def flushRequests (queue : IORequestQueue π ω) : IORequestQueue π ω :=
  { queue with
    place := if queue.requestQueue.isEmpty then .outside else .pop
    flush := queue.flush.begin }

/-- `io_uring_submit`: the entries of the ring are handed to the kernel. -/
def submit (queue : IORequestQueue π ω) (place : Place π ω) : IORequestQueue π ω :=
  { queue with
    ring := []
    place := place
    flush := { queue.flush with handed := queue.flush.handed ++ queue.ring } }

variable (queueDepth : Nat) (deref : π → IOOperation ω)

/-- `io_uring_get_sqe` and what fills the entry, a null pointer when the ring is full. -/
def prepare (queue : IORequestQueue π ω) (entry : Entry π) (place : Place π ω) :
    IORequestQueue π ω :=
  if queue.ring.length < submissionEntries queueDepth then
    { queue with
      ring := queue.ring ++ [entry]
      place := place
      flush := { queue.flush with written := queue.flush.written ++ [entry] } }
  else queue.stop .nullEntry

/-- `request_io` of each operation class, up to `on_event_request` or the `shutdown` at a close. -/
def requestIo (queue : IORequestQueue π ω) (socketFd : ω → Int) (pointer : π) :
    IORequestQueue π ω :=
  let operation := deref pointer
  match operation with
  | .accept (some _) listenFd =>
    queue.prepare queueDepth (operation.entry listenFd pointer) .pop
  | .recv (some ioObject) _ =>
    queue.prepare queueDepth (operation.entry (socketFd ioObject) pointer) .pop
  | .send (some ioObject) _ =>
    queue.prepare queueDepth (operation.entry (socketFd ioObject) pointer) .pop
  | .sendBuffer (some ioObject) (some _) =>
    queue.prepare queueDepth (operation.entry (socketFd ioObject) pointer) .pop
  | .close (some ioObject) => { queue with place := .shutDown pointer ioObject }
  | .nop (some _) => { queue with place := .eventRequested pointer }
  -- An event without an object returns before it asks for an entry.
  | .nop none => { queue with place := .pop }
  | .sendBuffer (some _) none => queue.stop .nullBuffer
  | .accept none _ => queue.stop .nullObject
  | .recv none _ => queue.stop .nullObject
  | .send none _ => queue.stop .nullObject
  | .sendBuffer none _ => queue.stop .nullObject
  | .close none => queue.stop .nullObject

/-- The next step of the thread inside of `flush_requests`. -/
def flushStep (queue : IORequestQueue π ω) (socketFd : ω → Int) : Option (IORequestQueue π ω) :=
  match queue.place with
  | .outside => none
  | .pop =>
    match queue.requestQueue with
    | [] => some { queue with place := .submit }
    | pointer :: rest =>
      some { queue with
        requestQueue := rest
        place := .requestIo pointer
        flush := { queue.flush with popped := queue.flush.popped ++ [pointer] } }
  | .requestIo pointer => some (queue.requestIo queueDepth deref socketFd pointer)
  -- What `on_event_request` pushes comes before this step.
  | .eventRequested pointer =>
    some (queue.prepare queueDepth ((deref pointer).entry (-1) pointer) .pop)
  -- The descriptor is read again for the entry.
  | .shutDown pointer ioObject =>
    some (queue.prepare queueDepth ((deref pointer).entry (socketFd ioObject) pointer) .submitClose)
  | .submitClose => some (queue.submit .pop)
  | .submit => some (queue.submit .outside)

/-- One step of the request queue: its operations are pushed by any threads, and flushed by one. -/
def step (queue : IORequestQueue π ω) (label : Label π ω) : Option (IORequestQueue π ω) :=
  if queue.fault.isSome then none
  else match label with
  | .push pointer refusals => some (queue.pushRequest pointer refusals)
  | .flush =>
    match queue.place with
    | .outside => some queue.flushRequests
    | _ => none
  | .run socketFd => queue.flushStep queueDepth deref socketFd

/-- The operation that the flush has popped and whose `request_io` has not returned. -/
def Place.inHand : Place π ω → List π
  | .requestIo pointer => [pointer]
  | .eventRequested pointer => [pointer]
  | .shutDown pointer _ => [pointer]
  | _ => []

/-- The entries in use behind these operations: a close submits what is prepared. -/
def ringLoad (popped : List π) : Nat :=
  popped.foldl (fun load pointer => if (deref pointer).opcode = .close then 0 else load + 1) 0

/-- Each of these operations finds an entry in a ring of this size. -/
def Fits (entries : Nat) (popped : List π) : Prop :=
  ∀ i < popped.length, ringLoad deref (popped.take i) < entries

instance (entries : Nat) (popped : List π) : Decidable (Fits deref entries popped) :=
  inferInstanceAs (Decidable (∀ i < _, _))

/--
The flush does what it is for.

It pops the operations in the order of their pushes, writes one entry for each of them in that
order and of its own class, none through a null pointer, and has handed all of them to the kernel
when it returns.
-/
structure FlushSound (queue : IORequestQueue π ω) : Prop where
  noNull : queue.fault = none
  inOrder : queue.flush.pushed = queue.flush.before ++ queue.flush.popped ++ queue.requestQueue
  written : queue.flush.popped = queue.flush.written.map Entry.userData ++ queue.place.inHand
  own : ∀ entry ∈ queue.flush.written,
    entry = (deref entry.userData).entry entry.fd entry.userData
  handed : queue.place = .outside → queue.flush.handed = queue.flush.written

end IORequestQueue

end Braid
