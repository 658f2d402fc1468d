import Mathlib.Data.List.Basic

/-! Length-prefixed framing of a stream: greedy extraction of complete frames, in any pieces. -/

/--
A framing reads the declared size of the first frame off a stream, once its header has arrived.

A declared size is positive, and bytes arriving later never change it.
-/
structure Framing (β : Type*) where
  size : List β → Option Nat
  positive : ∀ {bytes n}, size bytes = some n → 0 < n
  stable : ∀ {bytes n}, size bytes = some n → ∀ more, size (bytes ++ more) = some n

namespace Framing

variable {β : Type*} (framing : Framing β)

/-- A byte string that is exactly one frame. -/
def IsFrame (bytes : List β) : Prop := framing.size bytes = some bytes.length

/-- The first frame of a stream and what follows it, when the frame is complete. -/
def next? (bytes : List β) : Option (List β × List β) :=
  match framing.size bytes with
  | none => none
  | some n => if n ≤ bytes.length then some (bytes.take n, bytes.drop n) else none

variable {framing}

/-- An extracted frame is a nonempty prefix of its stream, and the remainder is the rest. -/
theorem next?_split {bytes frame rest : List β}
    (found : framing.next? bytes = some (frame, rest)) : bytes = frame ++ rest ∧ frame ≠ [] := by
  unfold next? at found
  split at found
  · cases found
  · rename_i n declared
    split at found
    · rename_i complete
      cases found
      -- A frame is taken off the front, and its declared length is positive.
      refine ⟨(List.take_append_drop n bytes).symm, fun empty => ?_⟩
      have lengths := congrArg List.length empty
      simp only [List.length_take, List.length_nil] at lengths
      have := framing.positive declared
      omega
    · cases found

/-- Extracting a frame shortens the stream. -/
theorem next?_shorter {bytes frame rest : List β}
    (found : framing.next? bytes = some (frame, rest)) : rest.length < bytes.length := by
  obtain ⟨rfl, nonempty⟩ := next?_split found
  have := List.length_pos_of_ne_nil nonempty
  simp only [List.length_append]
  omega

/-- A frame that has been completed stays the first frame as more bytes arrive. -/
theorem next?_append {bytes frame rest : List β}
    (found : framing.next? bytes = some (frame, rest)) (more : List β) :
    framing.next? (bytes ++ more) = some (frame, rest ++ more) := by
  unfold next? at found ⊢
  split at found
  · cases found
  · -- The declared length does not change, and is covered all the more.
    rename_i n declared
    rw [framing.stable declared more]
    split at found
    · rename_i complete
      cases found
      simp only [List.length_append, if_pos (Nat.le_add_right_of_le complete),
        List.take_append_of_le_length complete, List.drop_append_of_le_length complete]
    · cases found

/-- A complete frame at the head of a stream is the one extracted. -/
theorem next?_frame {frame : List β} (whole : framing.IsFrame frame) (rest : List β) :
    framing.next? (frame ++ rest) = some (frame, rest) := by
  simp [next?, framing.stable whole rest]

/-- Nothing is extracted from a frame whose last bytes are missing. -/
theorem next?_partial {bytes missing : List β} (whole : framing.IsFrame (bytes ++ missing))
    (unfinished : missing ≠ []) : framing.next? bytes = none := by
  unfold next?
  split
  · rfl
  · rename_i n declared
    -- The size read off the partial frame is already that of the whole one.
    have same : some n = some (bytes ++ missing).length :=
      (framing.stable declared missing).symm.trans whole
    have := List.length_pos_of_ne_nil unfinished
    rw [if_neg]
    simp only [Option.some.injEq, List.length_append] at same
    omega

variable (framing)

/-- Extracts complete frames as long as there are any, keeping the bytes after the last one. -/
def drain (bytes : List β) : List (List β) × List β :=
  match _found : framing.next? bytes with
  | none => ([], bytes)
  | some (frame, rest) => ((frame :: (drain rest).1), (drain rest).2)
termination_by bytes.length
decreasing_by all_goals exact next?_shorter _found

variable {framing}

/-- Without a complete frame, every byte is kept. -/
theorem drain_stop {bytes : List β} (stopped : framing.next? bytes = none) :
    framing.drain bytes = ([], bytes) := by
  -- The first look decides.
  rw [drain]
  split
  · rfl
  · rename_i found; rw [stopped] at found; cases found

/-- A complete frame is extracted ahead of everything that follows. -/
theorem drain_next {bytes frame rest : List β}
    (found : framing.next? bytes = some (frame, rest)) :
    framing.drain bytes = (frame :: (framing.drain rest).1, (framing.drain rest).2) := by
  rw [drain]
  split
  · rename_i stopped; rw [found] at stopped; cases stopped
  · -- The frame that is found is the one that is found again.
    rename_i same; rw [found] at same; cases same; rfl

variable (framing)

/-- The bytes kept are those that extraction could not complete. -/
theorem next?_drain (bytes : List β) : framing.next? (framing.drain bytes).2 = none := by
  induction bytes using drain.induct framing with
  | case1 bytes stopped => rw [drain_stop stopped]; exact stopped
  | case2 bytes frame rest found ih => rw [drain_next found]; exact ih

/-- Extraction only cuts the stream: the frames and the bytes kept are the stream again. -/
theorem drain_join (bytes : List β) :
    (framing.drain bytes).1.flatten ++ (framing.drain bytes).2 = bytes := by
  induction bytes using drain.induct framing with
  | case1 bytes stopped => simp [drain_stop stopped]
  -- Every frame is put back in front of the rest that it was cut from.
  | case2 bytes frame rest found ih =>
    rw [drain_next found, (next?_split found).1]
    simp only [List.flatten_cons, List.append_assoc, ih]

/--
Extraction does not depend on where the stream is cut.

The frames of the first part come first, and the bytes it kept continue with the second part.
-/
theorem drain_append (bytes more : List β) :
    framing.drain (bytes ++ more) =
      ((framing.drain bytes).1 ++ (framing.drain ((framing.drain bytes).2 ++ more)).1,
        (framing.drain ((framing.drain bytes).2 ++ more)).2) := by
  induction bytes using drain.induct framing with
  | case1 bytes stopped => simp [drain_stop stopped]
  -- A frame that was complete before stays the first one.
  | case2 bytes frame rest found ih =>
    rw [drain_next (next?_append found more), drain_next found, ih]
    simp only [List.cons_append]

variable {framing}

/-- Whole frames followed by bytes that complete no frame are extracted exactly. -/
theorem drain_frames {frames : List (List β)} (whole : ∀ frame ∈ frames, framing.IsFrame frame)
    {tail : List β} (stopped : framing.next? tail = none) :
    framing.drain (frames.flatten ++ tail) = (frames, tail) := by
  induction frames with
  | nil => simpa using drain_stop stopped
  -- The first frame is extracted, and what follows is shorter by one.
  | cons frame rest ih =>
    rw [List.flatten_cons, List.append_assoc, drain_next (next?_frame (whole frame (by simp)) _),
      ih fun other member => whole other (by simp [member])]

/--
What is kept of a stream that has arrived in part.

It is the beginning of the frame that is still incomplete, or of the bytes after the last one.
-/
theorem drain_kept {frames : List (List β)} (whole : ∀ frame ∈ frames, framing.IsFrame frame)
    {tail bytes more : List β} (stopped : framing.next? tail = none)
    (arriving : bytes ++ more = frames.flatten ++ tail) :
    (∃ frame ∈ frames, (framing.drain bytes).2.length < frame.length) ∨
      (framing.drain bytes).2.length ≤ tail.length := by
  have drained := drain_append framing bytes more
  rw [arriving, drain_frames whole stopped] at drained
  simp only [Prod.mk.injEq] at drained
  obtain ⟨split, last⟩ := drained
  have join := drain_join framing ((framing.drain bytes).2 ++ more)
  cases later : (framing.drain ((framing.drain bytes).2 ++ more)).1 with
  | nil =>
    -- No frame follows, so the kept bytes belong to the tail.
    refine .inr ?_
    rw [later, ← last, List.flatten_nil, List.nil_append] at join
    rw [join, List.length_append]
    exact Nat.le_add_right _ _
  | cons frame rest =>
    -- A frame that follows was not complete yet, so the kept bytes are fewer than its own.
    have member : frame ∈ frames := by rw [split, later]; simp
    refine .inl ⟨frame, member, ?_⟩
    by_contra long
    have pre : frame <+: (framing.drain bytes).2 := by
      refine List.prefix_of_prefix_length_le ?_ (List.prefix_append _ more) (by omega)
      rw [← join, later, List.flatten_cons, List.append_assoc]
      exact List.prefix_append _ _
    obtain ⟨behind, same⟩ := pre
    have none := next?_drain framing bytes
    rw [← same, next?_frame (whole frame member)] at none
    cases none

/-- Nothing is extracted where nothing has arrived. -/
theorem next?_nil : framing.next? [] = none := by
  cases found : framing.next? [] with
  | none => rfl
  | some split =>
    -- A frame is not empty, so it is no part of nothing.
    obtain ⟨joined, nonempty⟩ := next?_split found
    exact absurd (List.append_eq_nil_iff.mp joined.symm).1 nonempty

/-- The frames that are extracted from the beginning of a stream of frames are the first ones. -/
theorem drain_begins {frames : List (List β)} (whole : ∀ frame ∈ frames, framing.IsFrame frame)
    {bytes : List β} (arrived : bytes <+: frames.flatten) : (framing.drain bytes).1 <+: frames := by
  obtain ⟨more, joined⟩ := arrived
  have drained := drain_append framing bytes more
  have all := drain_frames whole (show framing.next? [] = none from next?_nil)
  rw [List.append_nil, ← joined, drained] at all
  exact ⟨_, congrArg Prod.fst all⟩

end Framing
