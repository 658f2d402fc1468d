import Braid.Library.Counting
import Braid.Library.RefCount
import Braid.Service.Machine
import Mathlib.Algebra.BigOperators.Fin

/-! The send buffers, and the pointers to them in application code, in calls and in operations. -/

namespace Braid.Service

open Counting
open RefCount (Heap)

variable {m n k : Nat} {ω : Type}

/-- The send buffers of a run, by number, and the pointers to them. -/
structure Buffers (n k : Nat) where
  heap : Heap Nat := .init Nat
  made : Nat := 0
  -- The pointers that application code holds.
  pointers : List Nat := []
  -- The parameters of the calls of `request_send` that the threads are in.
  parameters : Context n k → List Nat := fun _ => []
  -- The members `send_buffer_`, by the number of their operation.
  members : List (Nat × Nat) := []

namespace Buffers

/-- The pointers to a send buffer. -/
def references (buffers : Buffers n k) (buffer : Nat) : Nat :=
  buffers.pointers.count buffer + (∑ context, (buffers.parameters context).count buffer) +
    (buffers.members.map Prod.snd).count buffer

/-- `ObjectPtr<SendBuffer> send_buffer = new SendBuffer()`. -/
def make (buffers : Buffers n k) : Buffers n k :=
  { buffers with
    heap := buffers.heap.addRef buffers.made
    made := buffers.made + 1
    pointers := buffers.made :: buffers.pointers }

/-- Application code copies a pointer that it holds. -/
def copy (buffers : Buffers n k) (buffer : Nat) : Option (Buffers n k) :=
  if buffer ∈ buffers.pointers then
    some { buffers with
      heap := buffers.heap.addRef buffer
      pointers := buffer :: buffers.pointers }
  else none

/-- Application code destroys a pointer that it holds. -/
def drop (buffers : Buffers n k) (buffer : Nat) : Option (Buffers n k) :=
  if buffer ∈ buffers.pointers then
    some { buffers with
      heap := buffers.heap.release buffer
      pointers := buffers.pointers.erase buffer }
  else none

/-- The pointer is passed by value, to `Actor::request_send` and on to that of the session. -/
def enter (buffers : Buffers n k) (context : Context n k) (buffer : Nat) : Buffers n k :=
  { buffers with
    heap := buffers.heap.addAll [buffer, buffer]
    parameters := Function.update buffers.parameters context [buffer, buffer] }

/-- The call returns. -/
def leave (buffers : Buffers n k) (context : Context n k) : Buffers n k :=
  { buffers with
    heap := buffers.heap.releaseAll (buffers.parameters context)
    parameters := Function.update buffers.parameters context [] }

/-- The constructor of an operation copies its parameter, which goes with the same step. -/
def construct (buffers : Buffers n k) (id buffer : Nat) : Buffers n k :=
  { buffers with
    heap := buffers.heap.addRef buffer
    members := (id, buffer) :: buffers.members }

/-- The destructor of an operation. -/
def destruct (buffers : Buffers n k) (id : Nat) : Buffers n k :=
  match buffers.members.find? fun member => member.1 = id with
  | none => buffers
  | some member =>
    { buffers with
      heap := buffers.heap.release member.2
      members := buffers.members.erase member }

/--
What a step of the service does to the send buffers, where a call of `request_send` that begins in
it is given a buffer.
-/
def after (state : State m n k ω) (label : Label n k ω) (next : State m n k ω) (buffer : Nat)
    (buffers : Buffers n k) : Option (Buffers n k) :=
  match label with
  | .run context slot _ =>
    match state.todo context with
    | [] => some buffers
    -- A call of `request_send` begins, with a pointer that the application has.
    | .call (.requestSend actor _) :: _ =>
      if buffer ∈ buffers.pointers then
        -- An actor without a session returns at once.
        some (if state.shared.actors[actor]?.isSome then buffers.enter context buffer else buffers)
      else none
    -- A call inside of the request goes on, and may be at its end.
    | todo :: rest =>
      match buffers.parameters context with
      | [] => some buffers
      | parameter :: _ =>
        match todo, slot with
        | .acquire _, some _ => some (buffers.construct state.shared.nextOperation parameter)
        | _, _ => some (if next.todo context = rest then buffers.leave context else buffers)
  | .work at_ _ =>
    match (state.worker at_).place with
    | .onZeroRef handle => some (buffers.destruct handle.id)
    | _ => some buffers
  | _ => some buffers

end Buffers

/-- A step of the service, or one of application code with a pointer. -/
inductive BufferLabel (n k : Nat) (ω : Type) where
  | service (label : Label n k ω) (buffer : Nat)
  | make
  | copy (buffer : Nat)
  | drop (buffer : Nat)

/-- The service together with the send buffers. -/
def bufferStep (config : Config ω) (state : State m n k ω × Buffers n k) :
    BufferLabel n k ω → Option (State m n k ω × Buffers n k)
  | .service label buffer =>
    (step config state.1 label).bind fun next =>
      (state.2.after state.1 label next buffer).map fun buffers => (next, buffers)
  | .make => some (state.1, state.2.make)
  | .copy buffer => (state.2.copy buffer).map fun buffers => (state.1, buffers)
  | .drop buffer => (state.2.drop buffer).map fun buffers => (state.1, buffers)

section References

variable {buffers : Buffers n k}

namespace Buffers

/-- A call that begins has two parameters that refer to its buffer. -/
theorem enter_references {context : Context n k} (outside : buffers.parameters context = [])
    (buffer other : Nat) : (buffers.enter context buffer).references other =
      buffers.references other + [buffer, buffer].count other := by
  -- In the sum over the threads, only the parameters of this one change.
  have replaced := sum_update Finset.univ buffers.parameters (fun listed => listed.count other)
    [buffer, buffer] (Finset.mem_univ context)
  simp only [outside, List.count_nil] at replaced
  simp only [references, enter]
  omega

/-- A call that returns gives its parameters back. -/
theorem leave_references (buffers : Buffers n k) (context : Context n k) (other : Nat) :
    (buffers.leave context).references other + (buffers.parameters context).count other =
      buffers.references other := by
  -- The same sum, the other way.
  have replaced := sum_update Finset.univ buffers.parameters (fun listed => listed.count other)
    [] (Finset.mem_univ context)
  simp only [List.count_nil] at replaced
  simp only [references, leave]
  omega

/-- An operation that is constructed has a pointer to its buffer. -/
theorem construct_references (buffers : Buffers n k) (id buffer other : Nat) :
    (buffers.construct id buffer).references other =
      buffers.references other + [buffer].count other := by
  simp only [references, construct, List.map_cons]
  rw [RefCount.count_cons_eq]
  omega

/-- Of the members, one at most belongs to an operation, and its destructor finds that one. -/
theorem destruct_member {id buffer : Nat} (single : (buffers.members.map Prod.fst).Nodup)
    (member : (id, buffer) ∈ buffers.members) :
    buffers.destruct id = { buffers with
      heap := buffers.heap.release buffer
      members := buffers.members.erase (id, buffer) } := by
  have found : buffers.members.find? (fun member => member.1 = id) = some (id, buffer) := by
    -- The search cannot miss the member, and what it finds is the only one.
    cases search : buffers.members.find? (fun member => member.1 = id) with
    | none =>
      have different := List.find?_eq_none.mp search _ member
      simp at different
    | some found =>
      have same : found.1 = id := by simpa using List.find?_some search
      rw [List.inj_on_of_nodup_map single (List.mem_of_find?_eq_some search) member same]
  simp only [destruct, found]

/-- An operation of another class has no member. -/
theorem destruct_other {id : Nat} (other : ∀ buffer, (id, buffer) ∉ buffers.members) :
    buffers.destruct id = buffers := by
  have none_ : buffers.members.find? (fun member => member.1 = id) = none := by
    refine List.find?_eq_none.mpr fun member here same => other member.2 ?_
    rwa [← of_decide_eq_true same]
  simp only [destruct, none_]

/-- What the destructor of an operation leaves are the members of the others. -/
theorem mem_destruct (single : (buffers.members.map Prod.fst).Nodup) (id : Nat)
    (member : Nat × Nat) :
    member ∈ (buffers.destruct id).members ↔ member.1 ≠ id ∧ member ∈ buffers.members := by
  by_cases present : ∃ buffer, (id, buffer) ∈ buffers.members
  · obtain ⟨buffer, here⟩ := present
    rw [destruct_member single here]
    simp only [(List.Nodup.of_map _ single).mem_erase_iff]
    -- A member of this operation is the one that is erased.
    refine and_congr_left fun also => not_congr ⟨fun same => by rw [same], fun same => ?_⟩
    exact List.inj_on_of_nodup_map single also here same
  · rw [destruct_other (not_exists.mp present)]
    refine ⟨fun also => ⟨?_, also⟩, And.right⟩
    rintro rfl
    exact present ⟨member.2, also⟩

/-- The destructor of an operation leaves one member at most to each of the others. -/
theorem destruct_single (single : (buffers.members.map Prod.fst).Nodup) (id : Nat) :
    ((buffers.destruct id).members.map Prod.fst).Nodup := by
  by_cases present : ∃ buffer, (id, buffer) ∈ buffers.members
  · obtain ⟨buffer, member⟩ := present
    rw [destruct_member single member]
    exact single.sublist (List.erase_sublist.map _)
  · rwa [destruct_other (not_exists.mp present)]

/-- A buffer with a pointer to it is referred to. -/
theorem held_pointer {buffer : Nat} (member : buffer ∈ buffers.pointers) :
    0 < buffers.references buffer := by
  have present := List.count_pos_iff.mpr member
  simp only [references]
  omega

/-- A buffer that is passed to a call is referred to. -/
theorem held_parameter {context : Context n k} {buffer : Nat}
    (member : buffer ∈ buffers.parameters context) : 0 < buffers.references buffer := by
  have present := List.count_pos_iff.mpr member
  -- One of the threads has it among its parameters.
  have within := Finset.single_le_sum
    (f := fun context => (buffers.parameters context).count buffer)
    (fun _ _ => Nat.zero_le _) (Finset.mem_univ context)
  simp only [references]
  omega

/-- The buffer of an operation is referred to. -/
theorem held_member {id buffer : Nat} (member : (id, buffer) ∈ buffers.members) :
    0 < buffers.references buffer := by
  have present := List.count_pos_iff.mpr (List.mem_map.mpr ⟨_, member, rfl⟩ :
    buffer ∈ buffers.members.map Prod.snd)
  simp only [references]
  omega

/-- The counts of the buffers are exact, of those that have been made. -/
def Counted (buffers : Buffers n k) : Prop :=
  buffers.heap.Exact buffers.references fun buffer => buffer < buffers.made

/-- What an application makes has one reference. -/
theorem Counted.make (counted : buffers.Counted) : buffers.make.Counted := by
  -- The next number is that of no buffer that has been made.
  have fresh : ¬ buffers.made < buffers.made := Nat.lt_irrefl _
  have counts (other : Nat) : buffers.references other + [buffers.made].count other =
      buffers.make.references other := by
    have front := RefCount.count_cons_eq buffers.made buffers.pointers other
    simp only [references, Buffers.make] at front ⊢
    omega
  have made := (Heap.Exact.make counted fresh).congr counts
  refine ⟨made.toBalanced, fun other was none_ => made.collected other ?_ none_,
    fun other some_ => ?_⟩
  · simp only [Buffers.make] at was
    omega
  · have was := made.only other some_
    simp only [Buffers.make]
    omega

/-- A pointer that is copied is counted. -/
theorem Counted.copy {after : Buffers n k} {buffer : Nat} (counted : buffers.Counted)
    (copied : buffers.copy buffer = some after) : after.Counted := by
  unfold Buffers.copy at copied
  split at copied <;> cases copied
  rename_i member
  -- What the application has a pointer to is alive.
  have held : 0 < buffers.references buffer := held_pointer member
  have one : ∀ object ∈ [buffer], object < buffers.made ∧
      buffers.heap.destroyed object = false := by
    intro object member
    cases List.mem_singleton.mp member
    exact ⟨Heap.Exact.only counted buffer (.inr held), Heap.Balanced.alive counted.1 held⟩
  refine (Heap.Exact.addAll counted one).congr fun other => ?_
  have front := RefCount.count_cons_eq buffer buffers.pointers other
  simp only [references] at front ⊢
  omega

/-- A pointer that is dropped is counted no longer. -/
theorem Counted.drop {after : Buffers n k} {buffer : Nat} (counted : buffers.Counted)
    (dropped : buffers.drop buffer = some after) : after.Counted := by
  unfold Buffers.drop at dropped
  split at dropped <;> cases dropped
  rename_i member
  refine Heap.Exact.release (Heap.Exact.congr counted fun other => ?_)
  -- The pointers are the one that goes and the others.
  have same := (List.perm_cons_erase member).count_eq other
  have front := RefCount.count_cons_eq buffer (buffers.pointers.erase buffer) other
  simp only [references]
  omega

/-- The parameters of a call that begins are counted. -/
theorem Counted.enter (counted : buffers.Counted) {context : Context n k}
    (outside : buffers.parameters context = []) {buffer : Nat}
    (held : 0 < buffers.references buffer) : (buffers.enter context buffer).Counted := by
  refine (Heap.Exact.addAll counted ?_).congr fun other =>
    (enter_references outside buffer other).symm
  -- Both parameters refer to a buffer that the caller holds.
  intro object member
  have same : object = buffer := by simpa using member
  subst same
  exact ⟨Heap.Exact.only counted object (.inr held), Heap.Balanced.alive counted.1 held⟩

/-- The parameters of a call that returns are counted no longer. -/
theorem Counted.leave (counted : buffers.Counted) (context : Context n k) :
    (buffers.leave context).Counted :=
  (Heap.Exact.congr counted fun other =>
    (leave_references buffers context other).symm).releaseAll

/-- The member of an operation that is constructed is counted. -/
theorem Counted.construct (counted : buffers.Counted) (id : Nat) {buffer : Nat}
    (held : 0 < buffers.references buffer) : (buffers.construct id buffer).Counted := by
  have one : ∀ object ∈ [buffer], object < buffers.made ∧
      buffers.heap.destroyed object = false := by
    intro object member
    cases List.mem_singleton.mp member
    exact ⟨Heap.Exact.only counted buffer (.inr held), Heap.Balanced.alive counted.1 held⟩
  exact (Heap.Exact.addAll counted one).congr fun other =>
    (construct_references buffers id buffer other).symm

/-- The member of an operation that is destructed is counted no longer. -/
theorem Counted.destruct (counted : buffers.Counted)
    (single : (buffers.members.map Prod.fst).Nodup) (id : Nat) :
    (buffers.destruct id).Counted := by
  by_cases present : ∃ buffer, (id, buffer) ∈ buffers.members
  · obtain ⟨buffer, member⟩ := present
    rw [destruct_member single member]
    refine Heap.Exact.release (Heap.Exact.congr counted fun other => ?_)
    have same := ((List.perm_cons_erase member).map Prod.snd).count_eq other
    have front := RefCount.count_cons_eq buffer
      ((buffers.members.erase (id, buffer)).map Prod.snd) other
    simp only [List.map_cons] at same
    simp only [references]
    omega
  · -- An operation of another class has no pointer to give up.
    rw [destruct_other (not_exists.mp present)]
    exact counted

end Buffers

end References

end Braid.Service
