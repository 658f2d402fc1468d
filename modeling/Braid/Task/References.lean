import Braid.Library.RefCount

/-! Tasks as tuples of C++ values, and the objects that they and `ObjectPtr`s refer to. -/

namespace Braid.Task

open RefCount

/-- The C++ types that an element of a tuple can have, over the classes of the program. -/
inductive CppType (κ : Type) where
  | scalar
  | function
  | ofClass (name : κ)
  | const (inner : CppType κ)
  | array (inner : CppType κ)
  | pointer (target : CppType κ)
  | lvalueReference (target : CppType κ)
  | rvalueReference (target : CppType κ)
  deriving DecidableEq, Repr

namespace CppType

variable {κ : Type}

/-- `std::remove_reference_t`. -/
def removeReference : CppType κ → CppType κ
  | lvalueReference target => target
  | rvalueReference target => target
  | type => type

/-- `std::remove_cv_t`. -/
def removeCv : CppType κ → CppType κ
  | const inner => inner
  | type => type

/-- `std::decay_t`. -/
def decay (type : CppType κ) : CppType κ :=
  -- Arrays and functions decay to pointers; otherwise the top-level qualifiers are dropped.
  match type.removeReference with
  | array inner => pointer inner
  | function => pointer function
  | other => other.removeCv

/-- `std::is_base_of_v<RefCountable, T>`, for the classes that derive from `RefCountable`. -/
def isBaseOfRefCountable (derives : κ → Bool) (type : CppType κ) : Bool :=
  match type.removeCv with
  | ofClass name => derives name
  | _ => false

/-- The class of the objects that a pointer points at, for a pointer or a reference to one. -/
def pointee (type : CppType κ) : Option κ :=
  match type.removeReference.removeCv with
  | pointer target =>
    match target.removeCv with
    | ofClass name => some name
    | _ => none
  | _ => none

/-- `decltype(arg)` for an `auto& arg` that is bound to an element of this type. -/
def ofArg (type : CppType κ) : CppType κ := lvalueReference type.removeReference

end CppType

variable {κ ω : Type}

/-- The condition under which the constructor and the destructor of a task count an element. -/
abbrev TraitTest (κ : Type) := CppType κ → Bool

/-- `std::is_base_of_v<RefCountable, std::decay_t<decltype(arg)>>`. -/
def isRefCountable (derives : κ → Bool) : TraitTest κ :=
  fun type => (type.ofArg.decay).isBaseOfRefCountable derives

/--
An element of `args_`.

A pointer to an object of a class that derives from `RefCountable` names that object.
Any other element, such as an `ObjectPtr` passed by value, may hold references of its own.
Nothing changes an element from the construction of the task to its destruction.
-/
structure Element (derives : κ → Bool) (ω : Type) where
  type : CppType κ
  names : Option ω := none
  owned : List ω := []
  pointer : names.isSome = true → type.pointee.any derives = true

variable {derives : κ → Bool}

/-- Whether `nullptr != arg` and `arg->` are defined wherever the trait test holds. -/
def Element.compiles (test : TraitTest κ) (element : Element derives ω) : Bool :=
  !test element.type || element.type.pointee.isSome

/-- What a task is doing, from its construction to its destruction. -/
inductive Phase where
  | pending
  | running
  | returned
  deriving DecidableEq, Repr

/-- A task: the tuple of its function, its target and its arguments, and what it is doing. -/
structure PendingTask (derives : κ → Bool) (ω : Type) where
  args : List (Element derives ω)
  phase : Phase := .pending

/-- The objects that a task names, each as often as it is named. -/
def PendingTask.named (task : PendingTask derives ω) : List ω :=
  task.args.flatMap fun element => element.names.toList

/-- The references that the elements of a task hold by themselves. -/
def PendingTask.owned (task : PendingTask derives ω) : List ω := task.args.flatMap Element.owned

/-- The objects, the `ObjectPtr`s outside of all tasks, and the tasks not yet destroyed. -/
structure Objects (derives : κ → Bool) (ω : Type) where
  heap : Heap ω
  created : ω → Bool
  outside : ω → Nat
  tasks : List (PendingTask derives ω)

/-- The program before any object is created. -/
def Objects.init (derives : κ → Bool) (ω : Type) : Objects derives ω where
  heap := .init ω
  created _ := false
  outside _ := 0
  tasks := []

/-- What the program can do next with its objects and its tasks. -/
inductive ObjectLabel (derives : κ → Bool) (ω : Type) where
  | create (object : ω)
  | copy (object : ω)
  | drop (object : ω)
  | requestTask (obj : κ) (target : Option ω) (func : Element derives ω)
      (args : List (Element derives ω))
  | invoke (task : Nat)
  | finish (task : Nat)
  | destroy (task : Nat)

/-- The target as an element of `args_`, whose type `request_task` requires to be counted. -/
def targetElement (obj : κ) (target : Option ω) (counted : derives obj = true) :
    Element derives ω where
  type := .pointer (.ofClass obj)
  names := target
  pointer _ := by simpa [CppType.pointee, CppType.removeReference, CppType.removeCv] using counted

/-- `for_each_tuple`. -/
def forEachTuple {S : Type} (tuple : List (Element derives ω)) (func : S → Element derives ω → S)
    (start : S) : S := tuple.foldl func start

/-- An object that can be referred to: created, and not destroyed. -/
def Objects.Alive (state : Objects derives ω) (object : ω) : Prop :=
  state.created object = true ∧ state.heap.destroyed object = false

instance (state : Objects derives ω) (object : ω) : Decidable (state.Alive object) :=
  inferInstanceAs (Decidable (_ ∧ _))

variable (test : TraitTest κ)

/-- The function of both passes: where the test holds, the object of a pointer that is not null. -/
def countArg (counting : Heap ω → ω → Heap ω) (heap : Heap ω) (arg : Element derives ω) : Heap ω :=
  if test arg.type then
    match arg.names with
    | none => heap
    | some object => counting heap object
  else heap

variable [DecidableEq ω]

/-- `Task::Task`: the tuple takes its own references, and then each counted element is counted. -/
def PendingTask.construct (task : PendingTask derives ω) (heap : Heap ω) : Heap ω :=
  forEachTuple task.args (countArg test Heap.addRef) (heap.addAll task.owned)

/-- `Task::~Task`: each counted element is released, and then the tuple gives its own back. -/
def PendingTask.destruct (task : PendingTask derives ω) (heap : Heap ω) : Heap ω :=
  (forEachTuple task.args (countArg test Heap.release) heap).releaseAll task.owned

/--
One step: an object is created, an `ObjectPtr` is copied or dropped, or a task makes its way.

A request is one that compiles, of objects that are alive, on a serializer that is running.
Its tuple is the function, the target and the arguments.
-/
def objectStep (state : Objects derives ω) : ObjectLabel derives ω → Option (Objects derives ω)
  | .create object =>
    if state.created object then none
    else some { state with created := Function.update state.created object true }
  | .copy object =>
    -- An `ObjectPtr` can only be made of an object that is alive.
    if state.Alive object then
      some { state with
        heap := state.heap.addRef object
        outside := Function.update state.outside object (state.outside object + 1) }
    else none
  | .drop object =>
    if state.outside object = 0 then none
    else some { state with
      heap := state.heap.release object
      outside := Function.update state.outside object (state.outside object - 1) }
  | .requestTask obj target func args =>
    -- The target must derive from `RefCountable`, or the call does not compile.
    if counted : derives obj = true then
      let task : PendingTask derives ω :=
        { args := func :: targetElement obj target counted :: args }
      if (∀ element ∈ task.args, element.compiles test = true) ∧
          ∀ object ∈ task.named ++ task.owned, state.Alive object then
        some { state with
          heap := task.construct test state.heap
          tasks := state.tasks ++ [task] }
      else none
    else none
  | .invoke i =>
    match state.tasks[i]? with
    | some task =>
      -- A task is invoked once, by the thread that took it from the queue.
      if task.phase = .pending then
        some { state with tasks := state.tasks.set i { task with phase := .running } }
      else none
    | none => none
  | .finish i =>
    match state.tasks[i]? with
    | some task =>
      if task.phase = .running then
        some { state with tasks := state.tasks.set i { task with phase := .returned } }
      else none
    | none => none
  | .destroy i =>
    match state.tasks[i]? with
    | some task =>
      -- A task is destroyed when it has returned, or unrun with the queue that holds it.
      if task.phase = .running then none
      else some { state with
        heap := task.destruct test state.heap
        tasks := state.tasks.eraseIdx i }
    | none => none

end Braid.Task
