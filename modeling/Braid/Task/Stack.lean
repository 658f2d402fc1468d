import Braid.Task.Machine

/-! The stack of calls a thread is in, and the slot that goes with it. -/

namespace Braid.Task

variable {σ τ : Type}

/-- The place and the variables of a frame that is a call of `process_task_serializer`. -/
def Frame.process? : Frame σ τ → Option (ProcessPoint × ProcessLocals σ τ)
  | .process point locals => some (point, locals)
  | _ => none

/-- The calls of `process_task_serializer` on a stack. -/
def processes (stack : List (Frame σ τ)) : List (ProcessPoint × ProcessLocals σ τ) :=
  stack.filterMap Frame.process?

/-- A frame that has called the frame above it. -/
def Frame.waits : Frame σ τ → Bool
  | .calls _ => true
  | .process .running _ => true
  | .process .free _ => true
  | .destroyStore _ => true
  | _ => false

/-- The slot of a thread names the serializer of the call of `process_task_serializer` it is in. -/
def SlotMatches (slot : Option σ) : List (ProcessPoint × ProcessLocals σ τ) → Prop
  | [] => slot = none
  | (point, locals) :: others =>
    slot = (if point = .enter then none else some locals.serializer) ∧ others = []

/-- A stack whose frames meet a condition, wait below one another, and match the thread's slot. -/
structure StackShape (P : Frame σ τ → Prop) (slot : Option σ) (stack : List (Frame σ τ)) :
    Prop where
  frames : ∀ frame ∈ stack, P frame
  waiting : ∀ frame ∈ stack.tail, frame.waits = true
  alone : ∀ distributor rest, stack = .poll distributor :: rest → rest = []
  slot : SlotMatches slot (processes stack)

@[simp] theorem processes_nil : processes ([] : List (Frame σ τ)) = [] := rfl

/-- The frame on top is a call of `process_task_serializer`, or it is not. -/
@[simp] theorem processes_cons (frame : Frame σ τ) (rest : List (Frame σ τ)) :
    processes (frame :: rest) = frame.process?.toList ++ processes rest := by
  cases frame <;> rfl

/-- A frame that waits is past the entry of the process loop, if it is a call of it. -/
theorem Frame.waits_process? {frame : Frame σ τ} (waits : frame.waits = true)
    {point : ProcessPoint} {locals : ProcessLocals σ τ}
    (shape : frame.process? = some (point, locals)) : point ≠ .enter := by
  rintro rfl
  -- A loop at its entry does not wait, and no other frame is a call of the loop.
  cases frame with
  | process at_ _ =>
    simp only [Frame.process?, Option.some.injEq, Prod.mk.injEq] at shape
    obtain ⟨rfl, rfl⟩ := shape
    cases waits
  | _ => simp [Frame.process?] at shape

namespace StackShape

variable {P : Frame σ τ → Prop} {slot : Option σ} {rest : List (Frame σ τ)}

/-- A thread outside of every call has the shape, with a free slot. -/
theorem idle : StackShape P none ([] : List (Frame σ τ)) where
  frames := by simp
  waiting := by simp
  alone := by simp
  slot := rfl

/-- A first call of a thread outside of every call has the shape. -/
theorem first {frame : Frame σ τ} (holds : P frame) (other : frame.process? = none) :
    StackShape P none [frame] where
  frames := by simpa using holds
  waiting := by simp
  alone := by rintro distributor rest ⟨⟩; rfl
  slot := by simp [other, SlotMatches]

/-- What the shape says about the slot when a call of `process_task_serializer` is on top. -/
theorem process {point : ProcessPoint} {locals : ProcessLocals σ τ}
    (shape : StackShape P slot (.process point locals :: rest)) :
    slot = (if point = .enter then none else some locals.serializer) ∧ processes rest = [] := by
  have matches_ := shape.slot
  simpa [Frame.process?, SlotMatches] using matches_

/-- A frame of another call leaves the slot to the frames below it. -/
theorem inside {frame : Frame σ τ} (shape : StackShape P slot (frame :: rest))
    (other : frame.process? = none) : SlotMatches slot (processes rest) := by
  have matches_ := shape.slot
  simpa [other] using matches_

/-- The frame on top meets the condition. -/
theorem top {frame : Frame σ τ} (shape : StackShape P slot (frame :: rest)) : P frame :=
  shape.frames frame List.mem_cons_self

/-- The frames below the top, on their own. -/
theorem below {frame : Frame σ τ} (shape : StackShape P slot (frame :: rest)) {after : Option σ}
    (matches_ : SlotMatches after (processes rest)) : StackShape P after rest where
  frames := fun other member => shape.frames other (by simp [member])
  -- What is below the next frame is below this one as well, and waits.
  waiting := fun other member => shape.waiting other (List.mem_of_mem_tail member)
  alone := by
    rintro distributor others rfl
    -- A poll below the top would be waiting, and no poll does.
    have waits := shape.waiting (.poll distributor) (by simp)
    simp [Frame.waits] at waits
  slot := matches_

/-- Another frame in place of the one on top, over the same waiting frames. -/
theorem replace {after : Option σ} {frame next : Frame σ τ}
    (shape : StackShape P slot (frame :: rest)) (holds : P next)
    (called : ∀ distributor, next ≠ .poll distributor)
    (matches_ : SlotMatches after (processes (next :: rest))) :
    StackShape P after (next :: rest) where
  frames := by
    intro other member
    rcases List.mem_cons.mp member with rfl | member
    · -- Only the frame on top is a new one.
      exact holds
    · exact shape.frames other (by simp [member])
  waiting := shape.waiting
  alone := fun distributor others same => absurd (List.cons.inj same).1 (called distributor)
  slot := matches_

/-- A frame called by the one on top. -/
theorem push {frame next : Frame σ τ} (shape : StackShape P slot (frame :: rest))
    (waits : frame.waits = true) (holds : P next)
    (called : ∀ distributor, next ≠ .poll distributor) (other : next.process? = none) :
    StackShape P slot (next :: frame :: rest) where
  frames := by
    intro other member
    rcases List.mem_cons.mp member with rfl | member
    · -- The new frame is on top, and the one that calls it waits.
      exact holds
    · exact shape.frames other member
  waiting := by
    -- The caller has become one of the frames below the top.
    intro other member
    rcases List.mem_cons.mp member with rfl | member
    · exact waits
    · exact shape.waiting other member
  alone := fun distributor others same => absurd (List.cons.inj same).1 (called distributor)
  slot := by
    -- The new frame is no call of the loop, which is all that the slot depends on.
    rw [processes_cons, other]
    exact shape.slot

/-- A thread with a free slot is in no call of `process_task_serializer` below its top frame. -/
theorem outside {frame : Frame σ τ} (shape : StackShape P none (frame :: rest))
    (other : frame.process? = none) : processes rest = [] := by
  have matches_ := shape.inside other
  cases inner : processes rest with
  | nil => rfl
  | cons entry others =>
    -- A waiting call is past its entry, where it has taken the slot.
    obtain ⟨point, locals⟩ := entry
    have member : (point, locals) ∈ processes rest := by rw [inner]; exact List.mem_cons_self
    obtain ⟨waiting, below, call⟩ := List.mem_filterMap.mp member
    have entered := Frame.waits_process? (shape.waiting waiting below) call
    rw [inner] at matches_
    simp [SlotMatches, entered] at matches_

/-- A call of `process_task_serializer` that goes on to another of its places. -/
theorem advance {point next : ProcessPoint} {locals after : ProcessLocals σ τ}
    (shape : StackShape P slot (.process point locals :: rest)) (entered : point ≠ .enter)
    (holds : P (.process next after)) (stays : next ≠ .enter)
    (same : after.serializer = locals.serializer) :
    StackShape P slot (.process next after :: rest) := by
  refine shape.replace holds (by simp) ?_
  -- Behind its entry the call has taken the slot for its serializer, and keeps both.
  obtain ⟨taken, below⟩ := shape.process
  simp [Frame.process?, SlotMatches, below, taken, entered, stays, same]

end StackShape

end Braid.Task
