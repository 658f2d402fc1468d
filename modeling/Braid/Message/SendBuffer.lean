import Braid.Net.IOUringObject
import Mathlib.Data.BitVec

/-! Send buffers: three overloads of `write` over one offset, against the bytes they should hold. -/

namespace Braid

/-- The size of `buffer_`, `MAX_MESSAGE_SIZE`. -/
def maxMessageSize : Nat := 2048

/-- The largest `int`. -/
def intMax : Nat := 2 ^ 31 - 1

/-- Why a call of `write` does not return: what it does has no meaning in the source. -/
inductive WriteFault where
  -- A sum of two values of type `int` is not one.
  | intOverflow
  -- A copy reads or writes outside of its array.
  | outOfBounds
  deriving DecidableEq, Repr

/-- The sum of two values of type `int`. -/
def addInt (first second : Int) : Except WriteFault Int :=
  if -2 ^ 31 ≤ first + second ∧ first + second ≤ intMax then .ok (first + second)
  else .error .intOverflow

/-- A `SendBuffer`, whose bytes are not initialized. -/
structure SendBuffer where
  buffer : List Byte
  size : Int
  buffer_length : buffer.length = maxMessageSize
  deriving DecidableEq

namespace SendBuffer

/-- A new buffer, over whatever bytes its memory has. -/
def new (memory : Vector Byte maxMessageSize) : SendBuffer := ⟨memory.toList, 0, by simp⟩

/-- `memcpy` to a position of the buffer. -/
def memcpy (send : SendBuffer) (out : Int) (bytes : List Byte) : Except WriteFault SendBuffer :=
  if inside : 0 ≤ out ∧ out + bytes.length ≤ maxMessageSize then
    .ok { send with
      buffer := send.buffer.take out.toNat ++ bytes ++ send.buffer.drop (out.toNat + bytes.length)
      buffer_length := by
        have := send.buffer_length
        simp only [List.length_append, List.length_take, List.length_drop]
        omega }
  else .error .outOfBounds

/-- `(sizeof(Args) + ... + 0)`, a sum of type `size_t` that initializes an `int`. -/
def totalSize (args : List (List Byte)) : Int :=
  ((BitVec.ofNat 64 (args.map List.length).sum).setWidth 32).toInt

/-- `append_one`: copies the bytes of an argument to `out`, and moves `out` behind them. -/
def appendOne (at_ : SendBuffer × Int) (x : List Byte) : Except WriteFault (SendBuffer × Int) := do
  let copied ← at_.1.memcpy at_.2 x
  return (copied, at_.2 + x.length)

/-- `write(const Args&...)`, for arguments that are the bytes they are represented by. -/
def writeArgs (send : SendBuffer) (args : List (List Byte)) : Except WriteFault SendBuffer := do
  let needed ← addInt send.size (totalSize args)
  if maxMessageSize < needed then return send
  let appended ← args.foldlM appendOne (send, send.size)
  return { appended.1 with size := needed }

/-- `write(const std::string&)`, which tests the capacity in `size_t`. -/
def writeString (send : SendBuffer) (str : List Byte) : Except WriteFault SendBuffer := do
  let needed := BitVec.ofInt 64 send.size + BitVec.ofNat 64 str.length
  if maxMessageSize < needed.toNat then return send
  let copied ← send.memcpy send.size str
  return { copied with size := (needed.setWidth 32).toInt }

/-- `write(const char*, int)`, for a pointer to an array of bytes that can be read. -/
def writeChars (send : SendBuffer) (str : List Byte) (size : Int) :
    Except WriteFault SendBuffer := do
  let needed ← addInt send.size size
  if maxMessageSize < needed then return send
  -- A negative size is a huge one for `memcpy`.
  if size < 0 ∨ str.length < size then throw .outOfBounds
  let copied ← send.memcpy send.size (str.take size.toNat)
  return { copied with size := needed }

/-- `get_buffer`, read as the bytes themselves. -/
def getBuffer (send : SendBuffer) : List Byte := send.buffer.take send.size.toNat

/-- `reset`. -/
def reset (send : SendBuffer) : SendBuffer := { send with size := 0 }

/--
A call of `write`, by the overload that is selected.

A `std::string` is shorter than the largest value of type `ptrdiff_t`, and a range of characters
has a length that is an `int` and that many bytes to read.
-/
inductive Write where
  | pack (args : List (List Byte))
  | string (str : List Byte) (short : str.length < 2 ^ 63)
  | chars (str : List Byte) (size : Nat) (readable : size ≤ str.length) (isInt : size ≤ intMax)

/-- The call is made. -/
def write (send : SendBuffer) : Write → Except WriteFault SendBuffer
  | .pack args => send.writeArgs args
  | .string str _ => send.writeString str
  | .chars str size _ _ => send.writeChars str size

/-- A call on a send buffer that changes it. -/
inductive Op where
  | write (call : Write)
  | reset

/-- A call on a send buffer is made. -/
def apply (send : SendBuffer) : Op → Except WriteFault SendBuffer
  | .write call => send.write call
  | .reset => .ok send.reset

/-- Calls on a send buffer are made one after another. -/
def run (send : SendBuffer) (ops : List Op) : Except WriteFault SendBuffer :=
  ops.foldlM apply send

/-- The bytes that a call of `write` is given. -/
def Write.bytes : Write → List Byte
  | .pack args => args.flatten
  | .string str _ => str
  | .chars str size _ _ => str.take size

/-- The bytes that fit whole into the space behind the content. -/
def Write.Fits (call : Write) (content : List Byte) : Prop :=
  content.length + call.bytes.length ≤ maxMessageSize

instance (call : Write) (content : List Byte) : Decidable (call.Fits content) :=
  inferInstanceAs (Decidable (_ ≤ _))

/-- What a buffer should hold after a call: its bytes behind the content, if they fit. -/
def expect (content : List Byte) : Op → List Byte
  | .write call => if call.Fits content then content ++ call.bytes else content
  | .reset => []

/-- What a buffer should hold after some calls: the writes since the last reset that fitted. -/
def expected (ops : List Op) : List Byte := ops.foldl expect []

/-- The length of a write as the capacity test of its overload sees it. -/
def Write.tested : Write → Int
  | .pack args => totalSize args
  | .string str _ => str.length
  | .chars _ size _ _ => size

/--
The capacity test of a write is made on the true length, in the range of its type.

The lengths of the arguments of a pack may also have a sum that is not an `int`, as long as the
`int` that it becomes does not fit either.
-/
def Write.Measured (call : Write) (content : List Byte) : Prop :=
  match call with
  | .string .. => True
  | .pack _ | .chars _ _ _ _ => content.length + call.tested ≤ intMax ∧
    (call.tested = call.bytes.length ∨ maxMessageSize < content.length + call.tested)

instance (call : Write) (content : List Byte) : Decidable (call.Measured content) :=
  match call with
  | .string .. => instDecidableTrue
  | .pack _ | .chars _ _ _ _ => by dsimp only [Write.Measured]; infer_instance

/-- Every write of some calls is measured right at its time, behind this content. -/
def Measured : List Byte → List Op → Prop
  | _, [] => True
  | content, op :: rest =>
    (match op with | .write call => call.Measured content | .reset => True) ∧
      Measured (expect content op) rest

/-- A buffer holds some bytes: they are the first of its memory, and as many as its size says. -/
def Holds (send : SendBuffer) (content : List Byte) : Prop :=
  send.size = content.length ∧ content <+: send.buffer

/--
A buffer holds at every moment of some calls what it should.

Its size stays inside of its memory, its bytes are the writes since the last reset that fitted
whole, and a write that does not fit changes nothing at all.
-/
def Concatenates (start : SendBuffer) (ops : List Op) : Prop :=
  ∀ first rest, ops = first ++ rest →
    ∃ send, start.run first = .ok send ∧ 0 ≤ send.size ∧ send.size ≤ maxMessageSize ∧
      send.getBuffer = expected first ∧
      ∀ call more, rest = .write call :: more → ¬ call.Fits (expected first) →
        send.write call = .ok send

/-- A sum in the range of `int` is what the machine computes. -/
theorem addInt_of_range {first second : Int} (lower : 0 ≤ first + second)
    (upper : first + second ≤ intMax) : addInt first second = .ok (first + second) := by
  rw [addInt, if_pos ⟨by omega, upper⟩]

/-- A sum above the range of `int` has no meaning. -/
theorem addInt_overflow {first second : Int} (above : intMax < first + second) :
    addInt first second = .error .intOverflow := by
  rw [addInt, if_neg (by omega)]

/-- A copy behind some bytes that fits leaves them, and comes behind them. -/
theorem memcpy_fits {send : SendBuffer} {content bytes : List Byte}
    (held : content <+: send.buffer) (fits : content.length + bytes.length ≤ maxMessageSize) :
    ∃ copied, send.memcpy content.length bytes = .ok copied ∧
      content ++ bytes <+: copied.buffer := by
  have inside : (0 : Int) ≤ content.length ∧
      (content.length : Int) + bytes.length ≤ maxMessageSize := by omega
  rw [memcpy, dif_pos inside]
  refine ⟨_, rfl, send.buffer.drop (content.length + bytes.length), ?_⟩
  -- The front of the buffer is what it held, and the copy goes right behind it.
  have before := List.prefix_iff_eq_take.mp held
  simp [← before]

/-- A copy that does not fit would leave the buffer. -/
theorem memcpy_outside {send : SendBuffer} {used : Nat} {bytes : List Byte}
    (outside : ¬ used + bytes.length ≤ maxMessageSize) :
    send.memcpy used bytes = .error .outOfBounds := by
  rw [memcpy, dif_neg (by omega)]

/-- The arguments of a pack are copied one behind the other, if all of them fit. -/
theorem appendAll_fits (args : List (List Byte)) :
    ∀ {send : SendBuffer} {content : List Byte}, content <+: send.buffer →
      content.length + args.flatten.length ≤ maxMessageSize →
      ∃ copied out, args.foldlM appendOne (send, (content.length : Int)) = .ok (copied, out) ∧
        content ++ args.flatten <+: copied.buffer := by
  induction args with
  | nil =>
    intro send content held _
    exact ⟨send, content.length, rfl, by simpa using held⟩
  | cons x rest ih =>
    intro send content held fits
    rw [List.flatten_cons, List.length_append] at fits
    have room : content.length + x.length ≤ maxMessageSize := by omega
    obtain ⟨copied, done, behind⟩ := memcpy_fits held room
    -- The rest of the pack goes on behind the content and this argument.
    obtain ⟨last, out, finished, all⟩ :=
      ih behind (by rw [List.length_append]; omega)
    rw [List.length_append, Int.natCast_add] at finished
    refine ⟨last, out, ?_, by simpa using all⟩
    simp only [List.foldlM_cons, appendOne, done, bind, Except.bind, pure, Except.pure]
    exact finished

/-- The arguments of a pack that do not fit are copied past the end of the buffer. -/
theorem appendAll_outside (args : List (List Byte)) :
    ∀ {send : SendBuffer} {used : Nat}, used ≤ maxMessageSize →
      ¬ used + args.flatten.length ≤ maxMessageSize →
      args.foldlM appendOne (send, (used : Int)) = .error .outOfBounds := by
  induction args with
  | nil =>
    intro send used inside outside
    exact absurd inside (by simpa using outside)
  | cons x rest ih =>
    intro send used inside outside
    rw [List.flatten_cons, List.length_append] at outside
    by_cases fits : used + x.length ≤ maxMessageSize
    · obtain ⟨copied, done⟩ : ∃ copied, send.memcpy used x = .ok copied := by
        rw [memcpy, dif_pos (by omega)]
        exact ⟨_, rfl⟩
      -- This argument still fits, so a later one does not.
      have later := @ih copied _ fits (by omega)
      rw [Int.natCast_add] at later
      simp only [List.foldlM_cons, appendOne, done, bind, Except.bind, pure, Except.pure]
      exact later
    · simp only [List.foldlM_cons, appendOne, memcpy_outside fits, bind, Except.bind]

/-- The sum of the lengths of a pack is its number of bytes. -/
theorem sum_length (args : List (List Byte)) :
    (args.map List.length).sum = args.flatten.length := by
  rw [List.length_flatten]

/-- The `int` of a total is the total itself, unless that is not an `int`. -/
theorem totalSize_eq {args : List (List Byte)} (small : args.flatten.length ≤ intMax) :
    totalSize args = args.flatten.length := by
  rw [totalSize, sum_length]
  simp only [intMax] at small
  -- A total below the bound of `int` is cut neither by the sum nor by the cast.
  simp only [BitVec.toInt_setWidth, BitVec.toNat_ofNat, Int.bmod_def]
  omega

section Write

variable {send : SendBuffer} {content : List Byte}

/-- What a buffer holds is what `get_buffer` shows. -/
theorem Holds.getBuffer (holds : send.Holds content) : send.getBuffer = content := by
  obtain ⟨count, rest, joined⟩ := holds
  simp [SendBuffer.getBuffer, count, ← joined]

/-- No more is held than fits in the buffer. -/
theorem Holds.length_le (holds : send.Holds content) : content.length ≤ maxMessageSize := by
  rw [← send.buffer_length]
  exact holds.2.length_le

/-- A pack that is measured right is written whole or not at all. -/
theorem Holds.writeArgs (holds : send.Holds content) {args : List (List Byte)}
    (measured : (Write.pack args).Measured content) :
    ∃ after, send.writeArgs args = .ok after ∧
      after.Holds (expect content (.write (.pack args))) ∧
      (¬ (Write.pack args).Fits content → after = send) := by
  obtain ⟨range, right⟩ := measured
  have used := holds.length_le
  simp only [Write.tested, Write.bytes, maxMessageSize, intMax] at range right used
  have needed : addInt send.size (totalSize args) = .ok (send.size + totalSize args) :=
    addInt_of_range (by rw [holds.1]; omega) (by rw [holds.1]; simp only [intMax]; omega)
  simp only [SendBuffer.writeArgs, needed, bind, Except.bind, pure, Except.pure]
  by_cases fits : (Write.pack args).Fits content
  · have room := fits
    simp only [Write.Fits, Write.bytes, maxMessageSize] at room
    -- What fits is shorter than every value of `int` that the total could be taken for.
    have exact_ : totalSize args = args.flatten.length :=
      totalSize_eq (by simp only [intMax]; omega)
    obtain ⟨copied, out, appended, behind⟩ := appendAll_fits args holds.2 fits
    rw [if_neg (by rw [holds.1, exact_]; simp only [maxMessageSize]; omega), holds.1, appended]
    refine ⟨_, rfl, ⟨?_, ?_⟩, fun outside => absurd fits outside⟩
    · simp [expect, if_pos fits, exact_, Write.bytes]
    · simpa [expect, if_pos fits, Write.bytes] using behind
  · have beyond := fits
    simp only [Write.Fits, Write.bytes, maxMessageSize] at beyond
    rw [if_pos (by rw [holds.1]; simp only [maxMessageSize]; omega)]
    refine ⟨send, rfl, ?_, fun _ => rfl⟩
    simpa [expect, if_neg fits] using holds

/-- A string is written whole or not at all, as its test is made in a type that is wide enough. -/
theorem Holds.writeString (holds : send.Holds content) {str : List Byte}
    (short : str.length < 2 ^ 63) :
    ∃ after, send.writeString str = .ok after ∧
      after.Holds (expect content (.write (.string str short))) ∧
      (¬ (Write.string str short).Fits content → after = send) := by
  have used := holds.length_le
  simp only [maxMessageSize] at used
  -- Neither summand wraps, and their sum does not either.
  have needed : (BitVec.ofInt 64 send.size + BitVec.ofNat 64 str.length).toNat =
      content.length + str.length := by
    rw [holds.1, BitVec.ofInt_natCast, ← BitVec.ofNat_add, BitVec.toNat_ofNat,
      Nat.mod_eq_of_lt (by omega)]
  simp only [SendBuffer.writeString, needed]
  by_cases fits : (Write.string str short).Fits content
  · have room := fits
    simp only [Write.Fits, Write.bytes] at room
    obtain ⟨copied, done, behind⟩ := memcpy_fits holds.2 room
    rw [if_neg (by omega), holds.1, done]
    refine ⟨_, rfl, ⟨?_, ?_⟩, fun outside => absurd fits outside⟩
    · simp only [maxMessageSize] at room
      rw [← holds.1]
      simp only [BitVec.toInt_setWidth, needed, Int.bmod_def, expect, if_pos fits, Write.bytes,
        List.length_append]
      omega
    · simpa [expect, if_pos fits, Write.bytes] using behind
  · have beyond := fits
    simp only [Write.Fits, Write.bytes] at beyond
    rw [if_pos (by omega)]
    refine ⟨send, rfl, ?_, fun _ => rfl⟩
    simpa [expect, if_neg fits] using holds

/-- A range of characters whose test does not overflow is written whole or not at all. -/
theorem Holds.writeChars (holds : send.Holds content) {str : List Byte} {size : Nat}
    {readable : size ≤ str.length} {isInt : size ≤ intMax}
    (measured : (Write.chars str size readable isInt).Measured content) :
    ∃ after, send.writeChars str size = .ok after ∧
      after.Holds (expect content (.write (.chars str size readable isInt))) ∧
      (¬ (Write.chars str size readable isInt).Fits content → after = send) := by
  have range := measured.1
  simp only [Write.tested, intMax] at range
  -- The sum in the test is the sum, since it is measured right.
  have needed : addInt send.size size = .ok (send.size + size) :=
    addInt_of_range (by rw [holds.1]; omega) (by rw [holds.1]; simp only [intMax]; omega)
  have length : (str.take size).length = size := List.length_take_of_le readable
  simp only [SendBuffer.writeChars, needed, bind, Except.bind, pure, Except.pure]
  by_cases fits : (Write.chars str size readable isInt).Fits content
  · -- What fits passes the test, and is copied behind the content.
    have room := fits
    simp only [Write.Fits, Write.bytes] at room
    obtain ⟨copied, done, behind⟩ := memcpy_fits holds.2 room
    rw [if_neg (by rw [holds.1]; omega), if_neg (by omega), Int.toNat_natCast, holds.1, done]
    refine ⟨_, rfl, ⟨?_, ?_⟩, fun outside => absurd fits outside⟩
    · simp [expect, if_pos fits, Write.bytes, readable]
    · simpa [expect, if_pos fits, Write.bytes] using behind
  · -- What does not fit is turned away by the test, with nothing written.
    have beyond := fits
    simp only [Write.Fits, Write.bytes] at beyond
    rw [if_pos (by rw [holds.1]; omega)]
    refine ⟨send, rfl, ?_, fun _ => rfl⟩
    simpa [expect, if_neg fits] using holds

/-- A write that is measured right does what it should. -/
theorem Holds.write (holds : send.Holds content) {call : Write}
    (measured : call.Measured content) :
    ∃ after, send.write call = .ok after ∧ after.Holds (expect content (.write call)) ∧
      (¬ call.Fits content → after = send) := by
  -- There is one lemma for each overload.
  cases call with
  | pack args => exact holds.writeArgs measured
  | string str short => exact holds.writeString short
  | chars str size readable isInt => exact holds.writeChars measured

/-- A write that is not measured right overflows, or copies past the end of the buffer. -/
theorem Holds.write_fails (holds : send.Holds content) {call : Write}
    (wrong : ¬ call.Measured content) : ∃ fault, send.write call = .error fault := by
  have used := holds.length_le
  cases call with
  | string str short => exact absurd trivial wrong
  | chars str size readable isInt =>
    -- The length is the true one, so the sum with the size is above the range.
    have overflow : (intMax : Int) < send.size + size := by
      rw [holds.1]
      by_contra range
      refine wrong ⟨?_, .inl ?_⟩
      · simp only [Write.tested]
        omega
      · simp [Write.tested, Write.bytes, readable]
    exact ⟨.intOverflow, by simp only [SendBuffer.write, SendBuffer.writeChars,
      addInt_overflow overflow, bind, Except.bind]⟩
  | pack args =>
    simp only [SendBuffer.write, SendBuffer.writeArgs]
    by_cases overflow : (intMax : Int) < send.size + totalSize args
    · exact ⟨.intOverflow, by simp only [addInt_overflow overflow, bind, Except.bind]⟩
    · -- The total is taken for a smaller one, and the whole pack is copied.
      simp only [Write.Measured, Write.tested, Write.bytes, not_and, not_or] at wrong
      obtain ⟨different, small⟩ := wrong (by rw [← holds.1]; omega)
      have large : ¬ content.length + args.flatten.length ≤ maxMessageSize := by
        intro fits
        refine different (totalSize_eq ?_)
        simp only [maxMessageSize, intMax] at fits ⊢
        omega
      have copies := @appendAll_outside args send _ used large
      rw [← holds.1] at copies small
      cases needed : addInt send.size (totalSize args) with
      | error fault => exact ⟨fault, by simp only [bind, Except.bind]⟩
      | ok sum =>
        have same : sum = send.size + totalSize args := by
          unfold addInt at needed
          split at needed <;> cases needed
          rfl
        refine ⟨.outOfBounds, ?_⟩
        simp only [bind, Except.bind, copies]
        rw [if_neg (by omega)]

/-- A call holds what it should exactly if it is no write that is measured wrong. -/
theorem Holds.apply (holds : send.Holds content) (op : Op) :
    (∀ after, send.apply op = .ok after → after.Holds (expect content op)) ∧
      ((∃ after, send.apply op = .ok after) ↔
        match op with | .write call => call.Measured content | .reset => True) := by
  cases op with
  | reset =>
    refine ⟨fun after done => ?_, fun _ => trivial, fun _ => ⟨_, rfl⟩⟩
    -- A reset leaves nothing in front of the position.
    cases done
    exact ⟨rfl, List.nil_prefix⟩
  | write call =>
    by_cases measured : call.Measured content
    · -- A write that is measured right returns, with what it should hold.
      obtain ⟨after, done, kept, -⟩ := holds.write measured
      refine ⟨fun other also => ?_, fun _ => measured, fun _ => ⟨after, done⟩⟩
      rw [SendBuffer.apply, done] at also
      cases also
      exact kept
    · -- A write that is measured wrong does not return at all.
      obtain ⟨fault, failed⟩ := holds.write_fails measured
      refine ⟨fun other also => ?_, ?_, fun right => absurd right measured⟩
      · rw [SendBuffer.apply, failed] at also
        cases also
      · rintro ⟨other, also⟩
        rw [SendBuffer.apply, failed] at also
        cases also

/-- Calls return exactly if their writes are measured right, and then hold what they should. -/
theorem Holds.run (ops : List Op) : ∀ {send : SendBuffer} {content : List Byte},
    send.Holds content →
      (∀ after, send.run ops = .ok after → after.Holds (ops.foldl expect content)) ∧
        ((∃ after, send.run ops = .ok after) ↔ Measured content ops) := by
  -- The induction is on the calls, and carries what the buffer holds before them.
  induction ops with
  | nil =>
    intro send content holds
    refine ⟨fun after done => ?_, fun _ => trivial, fun _ => ⟨send, rfl⟩⟩
    cases done
    exact holds
  | cons op rest ih =>
    intro send content holds
    obtain ⟨kept, returns⟩ := holds.apply op
    cases done : send.apply op with
    | error fault =>
      have stops : send.run (op :: rest) = .error fault := by
        simp only [SendBuffer.run, List.foldlM_cons, done, bind, Except.bind]
      rw [done] at returns
      refine ⟨fun after finished => ?_, ?_, fun measured => ?_⟩
      · rw [stops] at finished
        cases finished
      · rintro ⟨after, finished⟩
        rw [stops] at finished
        cases finished
      · obtain ⟨after, same⟩ := returns.mpr measured.1
        cases same
    | ok next =>
      have onward : send.run (op :: rest) = next.run rest := by
        simp only [SendBuffer.run, List.foldlM_cons, done, bind, Except.bind]
      obtain ⟨later, iff⟩ := ih (kept next done)
      rw [onward]
      refine ⟨later, iff.trans ⟨fun measured => ⟨returns.mp ⟨next, done⟩, measured⟩, And.right⟩⟩

/-- Calls that are measured right are so up to any of them, and from it on. -/
theorem measured_append (first : List Op) : ∀ {content : List Byte} {rest : List Op},
    Measured content (first ++ rest) →
      Measured content first ∧ Measured (first.foldl expect content) rest := by
  induction first with
  | nil => exact fun measured => ⟨trivial, measured⟩
  | cons op first ih =>
    rintro content rest ⟨here, later⟩
    -- What is expected after the first call is where the others start.
    obtain ⟨before, behind⟩ := ih later
    exact ⟨⟨here, before⟩, behind⟩

end Write

/--
A buffer holds at every moment what it should exactly if every capacity test measures right.

The test of a character range adds its length to the size as an `int`: with something in the
buffer, a length close to the largest `int` overflows it. The test of a pack takes the sum of its
lengths for an `int`, and a pack whose sum is none may be copied past the end of the buffer.
-/
theorem concatenates_iff (memory : Vector Byte maxMessageSize) (ops : List Op) :
    (new memory).Concatenates ops ↔ Measured [] ops := by
  have start : (new memory).Holds [] := ⟨rfl, List.nil_prefix⟩
  constructor
  · -- A buffer that concatenates all calls has returned from all of them.
    intro concatenates
    obtain ⟨send, done, -⟩ := concatenates ops [] (List.append_nil _).symm
    exact (start.run ops).2.mp ⟨send, done⟩
  · rintro measured first rest rfl
    obtain ⟨before, behind⟩ := measured_append first measured
    -- Up to any of the calls, the buffer holds what is expected.
    obtain ⟨kept, returns⟩ := start.run first
    obtain ⟨send, done⟩ := returns.mpr before
    have holds := kept send done
    have used := holds.length_le
    refine ⟨send, done, ?_, ?_, holds.getBuffer, ?_⟩
    · rw [holds.1]
      exact Int.natCast_nonneg _
    · rw [holds.1]
      exact Int.ofNat_le.mpr used
    · rintro call more rfl outside
      obtain ⟨after, written, -, same⟩ := holds.write behind.1
      rw [written, same outside]

/-- Behind one byte, a range of as many characters as the largest `int` overflows the test. -/
theorem concatenation_fails :
    ∃ (memory : Vector Byte maxMessageSize) (ops : List Op),
      ops.length = 2 ∧ memory.toList = List.replicate maxMessageSize 0 ∧
      ¬ (new memory).Concatenates ops ∧ (new memory).run ops = .error .intOverflow := by
  have readable : intMax ≤ (List.replicate intMax (0 : Byte)).length := by
    rw [List.length_replicate]
  let memory : Vector Byte maxMessageSize := Vector.replicate maxMessageSize 0
  let ops : List Op :=
    [.write (.pack [[1]]), .write (.chars (List.replicate intMax 0) intMax readable (Nat.le_refl _))]
  have start : (new memory).Holds [] := ⟨rfl, List.nil_prefix⟩
  have measured : (Write.pack [[1]]).Measured [] := by decide
  obtain ⟨send, done, holds, -⟩ := start.write measured
  have used : send.size = 1 := holds.1
  -- The sum of the test is one more than the largest `int`.
  have overflow : send.writeChars (List.replicate intMax 0) intMax = .error .intOverflow := by
    have above : addInt send.size intMax = .error .intOverflow := addInt_overflow (by omega)
    simp only [SendBuffer.writeChars, above, bind, Except.bind]
  have stops : (new memory).run ops = .error .intOverflow := by
    simp only [ops, SendBuffer.run, List.foldlM_cons, SendBuffer.apply, done, bind, Except.bind]
    simp only [SendBuffer.write, overflow]
  refine ⟨memory, ops, rfl, Vector.toList_replicate, fun concatenates => ?_, stops⟩
  obtain ⟨after, finished, -⟩ := concatenates ops [] (List.append_nil _).symm
  rw [stops] at finished
  cases finished

end SendBuffer

end Braid
