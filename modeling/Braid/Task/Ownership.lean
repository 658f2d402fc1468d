import Braid.Task.Machine

/-! Serializers that `ObjectPtr`s refer to, deleted with the last of them or by the process loop. -/

namespace Braid.Task

variable {ι σ τ : Type}

/-- A `delete this` whose destructor runs in the calls above this height of its thread's stack. -/
structure FinalRelease (σ : Type) where
  serializer : σ
  height : Nat
  deriving DecidableEq

/-- A delete of a serializer, and its count of references at that moment. -/
structure Deletion (σ : Type) where
  serializer : σ
  refCount : Nat
  deriving DecidableEq

/--
The program together with the `ObjectPtr`s to its serializers.

The count of a serializer is its `ref_count_`, which only `ObjectPtr`s to it change. It is a
`std::atomic<int>` in the source and unbounded here: where the count matters, a copy is made only if
it stays below 2^31.
The last fields are a record that no step reads: the values stored in `state_`, and the deletes.
-/
structure Owned (ι σ τ : Type) where
  base : State ι σ τ
  refCount : σ → Nat
  final : ι → List (FinalRelease σ)
  stores : σ → List SerializerState
  deletions : List (Deletion σ)

/-- The program before any call, without any `ObjectPtr`. -/
def Owned.init (ι σ τ : Type) : Owned ι σ τ where
  base := .init ι σ τ
  refCount _ := 0
  final _ := []
  stores _ := []
  deletions := []

/-- What can happen next: a step of the program, or an `ObjectPtr` that a thread copies or drops. -/
inductive OwnedLabel (ι σ τ : Type) where
  | program (label : Label ι σ τ)
  | copy (thread : ι) (serializer : σ)
  | drop (thread : ι) (serializer : σ)
  deriving DecidableEq

/-- The thread that a label is about. -/
def Label.thread? : Label ι σ τ → Option ι
  | .call thread _ => some thread
  | .poll thread => some thread
  | .run thread => some thread
  | .setMinLevel _ => none

/-- The serializer whose memory a thread gives back next, once its destructor has returned. -/
def Owned.due (state : Owned ι σ τ) (at_ : ι) : Option σ :=
  match state.final at_ with
  | [] => none
  | release :: _ =>
    if release.height = (state.base.thread at_).stack.length then some release.serializer else none

/-- A thread is outside of every call, or between two calls that it makes. -/
def Owned.between (state : Owned ι σ τ) (at_ : ι) : Bool :=
  (state.due at_).isNone &&
    -- Only the body of a task, or a list of calls, is code that can copy or drop.
    match (state.base.thread at_).stack with
    | [] => true
    | .calls _ :: _ => true
    | .process .running _ :: _ => true
    | .destroyStore _ :: _ => true
    | _ => false

/-- The serializer whose `state_` the next step of a frame writes. -/
def Frame.writes : Frame σ τ → Option σ
  | .destroyStore serializer => some serializer
  | .clearStore serializer => some serializer
  | _ => none

/-- The serializer whose memory the next step of a frame gives back. -/
def Frame.frees (slot : Option σ) : Frame σ τ → Option σ
  | .process .free _ => slot
  | _ => none

variable [DecidableEq σ] [DecidableEq ι] (program : Program σ τ)

/-- The record after a step of the program that a thread has made. -/
def Owned.record (state : Owned ι σ τ) (next : State ι σ τ) (at_ : ι) : Owned ι σ τ :=
  let slot := (state.base.thread at_).slot (program.linkage .taskDistributor)
  -- What a step writes or frees is decided by the frame that makes it.
  let top := (state.base.thread at_).stack.head?
  { state with
    base := next
    stores :=
      match top.bind Frame.writes with
      | none => state.stores
      | some serializer => Function.update state.stores serializer
          (state.stores serializer ++ [next.shared.state serializer])
    deletions :=
      match top.bind (Frame.frees slot) with
      | none => state.deletions
      | some serializer => state.deletions ++ [⟨serializer, state.refCount serializer⟩] }

/-- The end of `delete this`: the memory is given back. -/
def Owned.free (state : Owned ι σ τ) (at_ : ι) (serializer : σ) : Owned ι σ τ :=
  { state with
    base := { state.base with shared := { state.base.shared with
      deleted := Function.update state.base.shared.deleted serializer true } }
    final := Function.update state.final at_ (state.final at_).tail
    deletions := state.deletions ++ [⟨serializer, state.refCount serializer⟩] }

/-- `intrusive_ptr_add_ref` on a serializer. -/
def Owned.copyStep (state : Owned ι σ τ) (serializer : σ) : Owned ι σ τ :=
  -- The count lies in the memory that has been given back.
  if state.base.shared.deleted serializer then
    { state with base := { state.base with shared := state.base.shared.stop .usedAfterDelete } }
  else { state with
    refCount := Function.update state.refCount serializer (state.refCount serializer + 1) }

/--
`intrusive_ptr_release` on a serializer that an `ObjectPtr` refers to.

With the last reference, `on_final_release` runs `delete this`, whose destructor runs `clear`.
-/
def Owned.dropStep (state : Owned ι σ τ) (at_ : ι) (serializer : σ) : Owned ι σ τ :=
  if state.base.shared.deleted serializer then
    { state with base := { state.base with shared := state.base.shared.stop .usedAfterDelete } }
  else
    -- The count goes down first, and the last reference is the one that found it at one.
    let dropped := { state with
      refCount := Function.update state.refCount serializer (state.refCount serializer - 1) }
    if state.refCount serializer = 1 then
      let thread := state.base.thread at_
      { dropped with
        base := state.base.withThread at_ state.base.shared
          { thread with stack := .clearEmpty serializer :: thread.stack }
        final := Function.update state.final at_
          (⟨serializer, thread.stack.length⟩ :: state.final at_) }
    else dropped

/--
One atomic step of the program and the `ObjectPtr`s to its serializers.

A thread gives the memory of a serializer back as soon as the destructor has returned.
It copies and drops `ObjectPtr`s between its calls, and drops only one that there is.
-/
def lifeStep (state : Owned ι σ τ) : OwnedLabel ι σ τ → Option (Owned ι σ τ)
  | .program label =>
    -- The level is set from outside of all threads.
    match label.thread? with
    | none => (step program state.base label).map fun next => { state with base := next }
    | some at_ =>
      -- A destructor that has returned goes on to give the memory back, before anything else.
      match state.due at_, label with
      | some serializer, .run _ =>
        if state.base.shared.fault.isSome then none else some (state.free at_ serializer)
      | some _, _ => none
      | none, label => (step program state.base label).map fun next => state.record program next at_
  | .copy at_ serializer =>
    if state.base.shared.fault.isSome || !state.between at_ then none
    else some (state.copyStep serializer)
  | .drop at_ serializer =>
    if state.base.shared.fault.isSome || !state.between at_ || state.refCount serializer = 0 then
      none
    else some (state.dropStep at_ serializer)

end Braid.Task
