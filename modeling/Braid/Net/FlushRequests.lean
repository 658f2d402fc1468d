import Braid.Net.IORequestQueue

/-! What a flush hands to the kernel, over any pushes that are made in the meantime. -/

namespace Braid.IORequestQueue

open Transition

variable {π ω : Type} {queueDepth : Nat} {deref : π → IOOperation ω}

/-- The operations that entries have been written for. -/
def Flush.entered (flush : Flush π) : List π := flush.written.map Entry.userData

/-- The operation in hand is at a place that its class leads to. -/
def Place.Classed (deref : π → IOOperation ω) : Place π ω → Prop
  | .eventRequested pointer => (deref pointer).Present ∧ (deref pointer).opcode = .nop
  | .shutDown pointer _ => (deref pointer).Present ∧ (deref pointer).opcode = .close
  | _ => True

/-- What is remembered of the flush agrees with the queue and with the ring. -/
structure Flushing (queueDepth : Nat) (deref : π → IOOperation ω)
    (queue : IORequestQueue π ω) : Prop where
  inOrder : queue.flush.pushed = queue.flush.before ++ queue.flush.popped ++ queue.requestQueue
  -- Only an event without an object is passed over.
  written : (∀ pointer ∈ queue.flush.popped, (deref pointer).Present) →
    queue.flush.popped = queue.flush.entered ++ queue.place.inHand
  own : ∀ entry ∈ queue.flush.written,
    (deref entry.userData).Present ∧ entry = (deref entry.userData).entry entry.fd entry.userData
  handed : queue.flush.written = queue.flush.handed ++ queue.ring
  quiet : queue.place = .outside → queue.ring = []
  classed : queue.place.Classed deref
  closing : queue.place = .submitClose → ringLoad deref queue.flush.entered = 0
  load : queue.place ≠ .outside → queue.place ≠ .submitClose →
    queue.ring.length = ringLoad deref queue.flush.entered
  fits : Fits deref (submissionEntries queueDepth) queue.flush.entered
  -- The program stops with an operation in hand that lacks something, or that finds a full ring.
  stopped : queue.fault ≠ none → ∃ pointer, queue.place.inHand = [pointer] ∧
    ((deref pointer).Present →
      submissionEntries queueDepth ≤ ringLoad deref queue.flush.entered)

/-- The load behind one more operation. -/
theorem ringLoad_append (popped : List π) (pointer : π) :
    ringLoad deref (popped ++ [pointer]) =
      if (deref pointer).opcode = .close then 0 else ringLoad deref popped + 1 := by
  simp [ringLoad]

/-- One more operation fits if all fit so far and the ring has room. -/
theorem Fits.append {entries : Nat} {popped : List π} (fits : Fits deref entries popped)
    (room : ringLoad deref popped < entries) (pointer : π) :
    Fits deref entries (popped ++ [pointer]) := by
  -- Only the last operation is new, and the load before it is the whole of what is there.
  intro i inside
  rw [List.length_append, List.length_singleton] at inside
  rcases Nat.lt_succ_iff_lt_or_eq.mp inside with before | rfl
  · rw [List.take_append_of_le_length (Nat.le_of_lt before)]
    exact fits i before
  · rwa [List.take_left]

/-- A flush with an operation in hand is neither outside nor about to submit for a close. -/
theorem Place.inHand_cons {place : Place π ω} {pointer : π} (hand : place.inHand = [pointer]) :
    place ≠ .outside ∧ place ≠ .submitClose := by
  -- The places without an operation in hand are refuted by the premise.
  cases place <;> first | (cases hand; done) | exact ⟨by simp, by simp⟩

variable {queue next : IORequestQueue π ω}

/-- A flush does what it is for exactly if all that it has popped is present and finds an entry. -/
theorem Flushing.sound_iff (flushing : Flushing queueDepth deref queue)
    (between : queue.place.inHand = [] ∨ queue.fault ≠ none) :
    FlushSound deref queue ↔
      (∀ pointer ∈ queue.flush.popped, (deref pointer).Present) ∧
        Fits deref (submissionEntries queueDepth) queue.flush.popped := by
  constructor
  · -- With nothing in hand, everything popped has its entry, which the invariant speaks about.
    intro sound
    have empty : queue.place.inHand = [] :=
      between.resolve_right fun stopped => stopped sound.noNull
    have same : queue.flush.popped = queue.flush.entered := by
      rw [sound.written, empty, List.append_nil, Flush.entered]
    rw [same]
    refine ⟨fun pointer entered => ?_, flushing.fits⟩
    obtain ⟨entry, written, rfl⟩ := List.mem_map.mp entered
    exact (flushing.own entry written).1
  · rintro ⟨present, fits⟩
    have popped := flushing.written present
    have running : queue.fault = none := by
      -- The operation in hand is present, and would not fit.
      by_contra stopped
      obtain ⟨pointer, hand, full⟩ := flushing.stopped stopped
      rw [hand] at popped
      have load := full (present pointer (by simp [popped]))
      have last := fits queue.flush.entered.length (by simp [popped])
      rw [popped, List.take_left] at last
      omega
    refine ⟨running, flushing.inOrder, popped, fun entry written => ?_, fun outside => ?_⟩
    · exact (flushing.own entry written).2
    · rw [flushing.handed, flushing.quiet outside, List.append_nil]

/-- Pushes add to the end of the queue, and leave the flush alone. -/
theorem Flushing.push (flushing : Flushing queueDepth deref queue) (pointer : π) (refusals : Nat) :
    Flushing queueDepth deref (queue.pushRequest pointer refusals) := by
  -- What is pushed and what is queued grow alike, or the operation is given up.
  unfold pushRequest
  split
  · obtain ⟨inOrder, written, own, handed, quiet, classed, closing, load, fits, stopped⟩ := flushing
    exact ⟨by simp [inOrder], written, own, handed, quiet, classed, closing, load, fits, stopped⟩
  · exact flushing

/-- The flush that begins has nothing behind it that is not with the kernel. -/
theorem Flushing.begin (flushing : Flushing queueDepth deref queue)
    (outside : queue.place = .outside) (running : queue.fault = none) :
    Flushing queueDepth deref queue.flushRequests := by
  -- The last flush left nothing in the ring, so what is remembered anew agrees with it.
  have empty := flushing.quiet outside
  have place : queue.flushRequests.place = .outside ∨ queue.flushRequests.place = .pop := by
    unfold flushRequests
    dsimp only
    split
    · exact .inl rfl
    · exact .inr rfl
  have idle : queue.flushRequests.place.inHand = [] := by
    rcases place with at_ | at_ <;> rw [at_] <;> rfl
  refine ⟨?_, ?_, ?_, ?_, ?_, ?_, fun _ => rfl, ?_, ?_, ?_⟩
  · simp [flushRequests, Flush.begin, flushing.inOrder]
  · intro _
    rw [idle]
    rfl
  · rintro entry ⟨⟩
  · simp [flushRequests, Flush.begin, empty]
  · exact fun _ => empty
  · rcases place with at_ | at_ <;> rw [at_] <;> trivial
  · intro _ _
    simp [flushRequests, Flush.begin, Flush.entered, ringLoad, empty]
  · rintro i ⟨⟩
  · exact fun stopped => absurd running stopped

/-- An entry is written for the operation in hand, or the program stops at a full ring. -/
theorem Flushing.prepare (flushing : Flushing queueDepth deref queue)
    (running : queue.fault = none) {pointer : π} (hand : queue.place.inHand = [pointer])
    (present : (deref pointer).Present) (fd : Int) {place : Place π ω}
    (goesOn : (deref pointer).opcode = .close ∧ place = .submitClose ∨
      (deref pointer).opcode ≠ .close ∧ place = .pop) :
    Flushing queueDepth deref
      (queue.prepare queueDepth ((deref pointer).entry fd pointer) place) := by
  obtain ⟨inOrder, written, own, handed, quiet, classed, closing, load, fits, stopped⟩ := flushing
  obtain ⟨inside, entryless⟩ := Place.inHand_cons hand
  -- Up to now, the ring has what the operations with an entry load it with.
  have before := load inside entryless
  unfold IORequestQueue.prepare
  split
  · -- The operation leaves the hand for the ring, which had room for it.
    rename_i room
    have entered : ({ queue.flush with
        written := queue.flush.written ++ [(deref pointer).entry fd pointer] } : Flush π).entered =
          queue.flush.entered ++ [pointer] := by
      simp [Flush.entered, IOOperation.entry]
    have empty : place.inHand = [] := by rcases goesOn with ⟨-, rfl⟩ | ⟨-, rfl⟩ <;> rfl
    refine ⟨inOrder, ?_, ?_, ?_, ?_, ?_, ?_, ?_, ?_, ?_⟩
    · intro present
      rw [written present, hand, empty]
      simp [entered]
    · intro entry member
      rcases List.mem_append.mp member with earlier | last
      · exact own entry earlier
      · rw [List.mem_singleton.mp last]
        exact ⟨present, rfl⟩
    · simp [handed]
    · rcases goesOn with ⟨-, rfl⟩ | ⟨-, rfl⟩ <;> rintro ⟨⟩
    · rcases goesOn with ⟨-, rfl⟩ | ⟨-, rfl⟩ <;> trivial
    · -- A close submits at once, so that nothing is in use behind it.
      intro submits
      rw [entered, ringLoad_append]
      rcases goesOn with ⟨close, rfl⟩ | ⟨-, rfl⟩
      · exact if_pos close
      · cases submits
    · -- Another operation takes one more entry.
      intro _ stays
      rw [entered, ringLoad_append]
      rcases goesOn with ⟨-, rfl⟩ | ⟨other, rfl⟩
      · exact absurd rfl stays
      · simp [other, before]
    · rw [entered]
      exact fits.append (by omega) pointer
    · exact fun fault => absurd running fault
  · -- The ring is full with the operation still in hand.
    rename_i full
    refine ⟨inOrder, written, own, handed, quiet, classed, closing, load, fits, fun _ => ?_⟩
    exact ⟨pointer, hand, fun _ => by show _ ≤ ringLoad deref queue.flush.entered; omega⟩

/-- The program stops where the operation in hand lacks its object or its buffer. -/
theorem Flushing.stop (flushing : Flushing queueDepth deref queue) {pointer : π}
    (hand : queue.place.inHand = [pointer]) (absent : ¬ (deref pointer).Present)
    (fault : QueueFault) : Flushing queueDepth deref (queue.stop fault) := by
  obtain ⟨inOrder, written, own, handed, quiet, classed, closing, load, fits, -⟩ := flushing
  exact ⟨inOrder, written, own, handed, quiet, classed, closing, load, fits,
    fun _ => ⟨pointer, hand, fun present => absurd present absent⟩⟩

/-- A submission hands over all that is in the ring, at a close as at the end of the flush. -/
theorem Flushing.submit (flushing : Flushing queueDepth deref queue)
    (running : queue.fault = none) {place : Place π ω}
    (goesOn : queue.place = .submitClose ∧ place = .pop ∨
      queue.place = .submit ∧ place = .outside) :
    Flushing queueDepth deref (queue.submit place) := by
  obtain ⟨inOrder, written, own, handed, quiet, classed, closing, load, fits, stopped⟩ := flushing
  -- At a submission there is no operation in hand.
  have hands : queue.place.inHand = [] ∧ place.inHand = [] := by
    rcases goesOn with ⟨at_, rfl⟩ | ⟨at_, rfl⟩ <;> rw [at_] <;> exact ⟨rfl, rfl⟩
  refine ⟨inOrder, ?_, own, ?_, fun _ => rfl, ?_, ?_, ?_, fits, fun fault => absurd running fault⟩
  · intro present
    show queue.flush.popped = queue.flush.entered ++ place.inHand
    rw [hands.2, ← hands.1]
    exact written present
  · simp [IORequestQueue.submit, handed]
  · rcases goesOn with ⟨-, rfl⟩ | ⟨-, rfl⟩ <;> trivial
  · intro submits
    rcases goesOn with ⟨-, rfl⟩ | ⟨-, rfl⟩ <;> cases submits
  · intro inside _
    rcases goesOn with ⟨close, rfl⟩ | ⟨-, rfl⟩
    · exact (closing close).symm
    · exact absurd rfl inside

/-- An operation that is not present may leave the hand without an entry. -/
theorem Flushing.passOver (flushing : Flushing queueDepth deref queue)
    (running : queue.fault = none) {pointer : π} (hand : queue.place.inHand = [pointer])
    (absent : ¬ (deref pointer).Present) :
    Flushing queueDepth deref { queue with place := .pop } := by
  obtain ⟨inOrder, written, own, handed, quiet, classed, closing, load, fits, stopped⟩ := flushing
  obtain ⟨inside, entryless⟩ := Place.inHand_cons hand
  refine ⟨inOrder, fun present => ?_, own, handed, by simp, trivial, by simp,
    fun _ _ => load inside entryless, fits, fun fault => absurd running fault⟩
  -- The operation is among those that are popped, and nothing is said when one is absent.
  have popped := written present
  rw [hand] at popped
  exact absurd (present pointer (by simp [popped])) absent

/-- Another call is made on the way of an operation to its entry. -/
theorem Flushing.call (flushing : Flushing queueDepth deref queue)
    (running : queue.fault = none) {pointer : π} (hand : queue.place.inHand = [pointer])
    {place : Place π ω} (same : place.inHand = [pointer]) (classed : place.Classed deref) :
    Flushing queueDepth deref { queue with place := place } := by
  obtain ⟨inOrder, written, own, handed, quiet, -, closing, load, fits, stopped⟩ := flushing
  obtain ⟨inside, entryless⟩ := Place.inHand_cons hand
  obtain ⟨remains, unsubmitted⟩ := Place.inHand_cons same
  refine ⟨inOrder, ?_, own, handed, fun outside => absurd outside remains, classed,
    fun submits => absurd submits unsubmitted, fun _ _ => load inside entryless, fits,
    fun fault => absurd running fault⟩
  -- The operation stays in hand, still without its entry.
  show _ → _ = _ ++ place.inHand
  rw [same, ← hand]
  exact written

/-- `request_io` writes an entry, makes another call first, passes the operation over, or stops. -/
theorem Flushing.requestIo (flushing : Flushing queueDepth deref queue)
    (running : queue.fault = none) {pointer : π} (place : queue.place = .requestIo pointer)
    (socketFd : ω → Int) :
    Flushing queueDepth deref (queue.requestIo queueDepth deref socketFd pointer) := by
  have hand : queue.place.inHand = [pointer] := by rw [place]; rfl
  have enters (present : (deref pointer).Present) (other : (deref pointer).opcode ≠ .close)
      (fd : Int) := flushing.prepare running hand present fd (.inr ⟨other, rfl⟩)
  have stops (absent : ¬ (deref pointer).Present) := flushing.stop hand absent
  unfold IORequestQueue.requestIo
  dsimp only
  -- The classes with all that they need, and behind them those that lack something.
  split <;> rename_i operation
  · exact enters (by rw [operation]; rfl) (by simp [operation, IOOperation.opcode]) _
  · exact enters (by rw [operation]; rfl) (by simp [operation, IOOperation.opcode]) _
  · exact enters (by rw [operation]; rfl) (by simp [operation, IOOperation.opcode]) _
  · exact enters (by rw [operation]; exact ⟨rfl, rfl⟩) (by simp [operation, IOOperation.opcode]) _
  · apply flushing.call running hand rfl
    exact ⟨by rw [operation]; rfl, by rw [operation]; rfl⟩
  · apply flushing.call running hand rfl
    exact ⟨by rw [operation]; rfl, by rw [operation]; rfl⟩
  · exact flushing.passOver running hand (by simp [operation, IOOperation.Present])
  all_goals exact stops (by simp [operation, IOOperation.Present]) _

/-- A step inside of `flush_requests` keeps the agreement. -/
theorem Flushing.run (flushing : Flushing queueDepth deref queue) (running : queue.fault = none)
    {socketFd : ω → Int}
    (stepped : queue.flushStep queueDepth deref socketFd = some next) :
    Flushing queueDepth deref next := by
  -- One case for each place of the loop, in the order of the source.
  unfold flushStep at stepped
  split at stepped
  · cases stepped
  · rename_i place
    obtain ⟨inOrder, written, own, handed, quiet, -, closing, load, fits, stopped⟩ := flushing
    have before := load (by simp [place]) (by simp [place])
    split at stepped <;> cases stepped
    · -- The queue is empty, and the loop ends.
      refine ⟨inOrder, ?_, own, handed, by simp, trivial, by simp, fun _ _ => before, fits,
        fun fault => absurd running fault⟩
      rw [place] at written
      exact written
    · -- The popped operation is the front of the queue, and is in hand behind the step.
      rename_i pointer rest front
      refine ⟨by simp [inOrder, front], fun present => ?_, own, handed, by simp, trivial, by simp,
        fun _ _ => before, fits, fun fault => absurd running fault⟩
      have earlier := written fun other popped => present other (by simp [popped])
      simp [earlier, place, Place.inHand, Flush.entered]
  · rename_i pointer place
    cases stepped
    exact flushing.requestIo running place socketFd
  · -- Behind `on_event_request` the event takes its entry.
    rename_i pointer place
    cases stepped
    have classed := flushing.classed
    rw [place] at classed
    exact flushing.prepare running (by rw [place]; rfl) classed.1 _
      (.inr ⟨by rw [classed.2]; simp, rfl⟩)
  · rename_i pointer ioObject place
    cases stepped
    have classed := flushing.classed
    rw [place] at classed
    exact flushing.prepare running (by rw [place]; rfl) classed.1 _ (.inl ⟨classed.2, rfl⟩)
  · rename_i place
    cases stepped
    exact flushing.submit running (.inl ⟨place, rfl⟩)
  · rename_i place
    cases stepped
    exact flushing.submit running (.inr ⟨place, rfl⟩)

/-- Every step keeps the agreement. -/
theorem step_flushing {label : Label π ω} (flushing : Flushing queueDepth deref queue)
    (stepped : step queueDepth deref queue label = some next) :
    Flushing queueDepth deref next := by
  unfold step at stepped
  split at stepped
  · cases stepped
  · rename_i running
    have running : queue.fault = none := by simpa using running
    -- Any thread may push at any place, and only the one that flushes goes on.
    cases label with
    | push pointer refusals =>
      cases stepped
      exact flushing.push pointer refusals
    | flush =>
      dsimp only at stepped
      split at stepped
      · rename_i outside
        cases stepped
        exact flushing.begin outside running
      · cases stepped
    | run socketFd => exact flushing.run running stepped

/-- In every run, what is remembered agrees with the queue and with the ring. -/
theorem run_flushing {labels : List (Label π ω)}
    (run : Run (step queueDepth deref) anyStep {} labels queue) :
    Flushing queueDepth deref queue := by
  -- The induction is on the run, and carries the agreement from an empty queue and ring.
  refine run.invariant ?_ fun state label next flushing _ stepped => step_flushing flushing stepped
  refine ⟨rfl, fun _ => rfl, ?_, rfl, fun _ => rfl, trivial, by simp, by simp, ?_, by simp⟩
  · rintro entry ⟨⟩
  · rintro i ⟨⟩

/--
A flush submits everything exactly if all that it pops is present, and if no more is popped
between two submissions than the ring has entries for.

The loop submits at its end, and in the middle only where it closes: what is popped beyond the
size of the ring is written through a null pointer. An event without an object is passed over.
-/
theorem flush_sound_iff {labels : List (Label π ω)}
    (run : Run (step queueDepth deref) anyStep {} labels queue)
    (between : queue.place.inHand = [] ∨ queue.fault ≠ none) :
    FlushSound deref queue ↔
      (∀ pointer ∈ queue.flush.popped, (deref pointer).Present) ∧
        Fits deref (submissionEntries queueDepth) queue.flush.popped :=
  (run_flushing run).sound_iff between

section Runs

/-- Six operations of six classes, the fourth of which is a close. -/
def sixClasses : List (IOOperation Unit) :=
  [.recv (some ()) ⟨0, 4096⟩, .accept (some ()) 3, .send (some ()) ⟨0, 12⟩, .close (some ()),
    .nop (some ()), .sendBuffer (some ()) (some [1, 2, 3])]

/-- These operations are pushed, and the flush takes a number of steps. -/
def pushAndFlush (operations : List (IOOperation Unit)) (steps : Nat) :
    List (Label (IOOperation Unit) Unit) :=
  operations.map (.push · 0) ++ [.flush] ++ List.replicate steps (.run fun _ => 7)

/-- A ring of four entries takes six operations when the fourth one is a close. -/
theorem flush_sound_iff_six :
    ∃ queue : IORequestQueue (IOOperation Unit) Unit, FlushSound id queue ∧
      queue.flush.popped = sixClasses ∧ queue.place = .outside := by
  -- The close submits what was prepared, and makes room for the operations behind it.
  have executed : (exec (step 4 id) {} (pushAndFlush sixClasses 17)).any fun queue =>
      queue.place = .outside ∧ (∀ pointer ∈ queue.flush.popped, pointer.Present) ∧
        Fits id (submissionEntries 4) queue.flush.popped ∧ queue.flush.popped = sixClasses := by
    decide +kernel
  obtain ⟨queue, reached, facts⟩ := (Option.any_eq_true _ _).mp executed
  obtain ⟨outside, present, fits, popped⟩ := of_decide_eq_true facts
  have between : queue.place.inHand = [] := by rw [outside]; rfl
  exact ⟨queue, (flush_sound_iff (.of_exec reached) (.inl between)).mpr ⟨present, fits⟩, popped,
    outside⟩

/-- The fifth of five sends finds no entry in a ring of four, and the null pointer is written to. -/
theorem flush_fails :
    ∃ (labels : List (Label (IOOperation Unit) Unit))
      (queue : IORequestQueue (IOOperation Unit) Unit),
      Run (step 4 id) anyStep {} labels queue ∧ queue.fault = some .nullEntry ∧
      queue.flush.popped.length = 5 ∧ queue.flush.written.length = 4 ∧
      ¬ FlushSound id queue := by
  -- Without a close, nothing is submitted before the queue is empty.
  have executed : (exec (step 4 id) {} (pushAndFlush
      (List.replicate 5 (.sendBuffer (some ()) (some []))) 10)).any fun queue =>
        queue.fault = some .nullEntry ∧ queue.flush.popped.length = 5 ∧
        queue.flush.written.length = 4 := by
    decide +kernel
  obtain ⟨queue, reached, facts⟩ := (Option.any_eq_true _ _).mp executed
  obtain ⟨fault, popped, written⟩ := of_decide_eq_true facts
  refine ⟨_, queue, .of_exec reached, fault, popped, written, fun sound => ?_⟩
  rw [sound.noNull] at fault
  cases fault

/-- An event without an object is popped, and the kernel gets nothing for it. -/
example : (exec (step 4 id) {} (pushAndFlush [.nop none] 4)).any fun queue =>
    queue.place = .outside ∧ queue.flush.popped = [.nop none] ∧ queue.flush.written = [] := by
  decide +kernel

end Runs

end Braid.IORequestQueue
