import Braid.Library.Transition
import Braid.Task.References
import Mathlib.Logic.Function.Basic

/-! The arguments of a request, from the caller's variables into the tuple of the task. -/

namespace Braid.Task

/-- The value category of an expression. -/
inductive ValueCategory where
  | lvalue
  | xvalue
  | prvalue
  deriving DecidableEq, Repr

namespace CppType

variable {κ : Type}

/-- Whether a type is a reference. -/
def isReference : CppType κ → Bool
  | lvalueReference _ => true
  | rvalueReference _ => true
  | _ => false

/-- A type with `&&` behind it, where references collapse. -/
def addRvalueReference : CppType κ → CppType κ
  | lvalueReference target => lvalueReference target
  | rvalueReference target => rvalueReference target
  | type => rvalueReference type

/-- What `Args` is deduced as, for a parameter `Args&&` and an argument of this type. -/
def deduce (type : CppType κ) : ValueCategory → CppType κ
  | .lvalue => lvalueReference type
  | _ => type

/-- The category of a cast to a reference type. -/
def castCategory : CppType κ → ValueCategory
  | lvalueReference _ => .lvalue
  -- A function is an lvalue, by whichever reference it is named.
  | rvalueReference function => .lvalue
  | _ => .xvalue

/-- The category of `std::forward<Args>(args)`, which casts to `Args&&`. -/
def forwardCategory (type : CppType κ) : ValueCategory := type.addRvalueReference.castCategory

/-- The category of `std::move(func)`, for a parameter declared as `Func&&`. -/
def moveCategory (type : CppType κ) : ValueCategory :=
  (rvalueReference type.removeReference).castCategory

/-- Whether something of this type can be initialised by an expression of this category. -/
def initialisable : CppType κ → ValueCategory → Bool
  -- A reference to a constant binds to a temporary as well.
  | lvalueReference (const _), _ => true
  | lvalueReference _, category => category = .lvalue
  -- Arrays and functions cannot be copied, so that they are held by reference only.
  | array _, _ => false
  | function, _ => false
  | _, _ => true

end CppType

variable {κ ω α : Type}

/-- What an argument expression designates: a variable, as such or to be moved from, or a value. -/
inductive Designated (ω α : Type) where
  | lvalue (name : ω)
  | xvalue (name : ω)
  | prvalue (value : α)
  deriving DecidableEq

/-- An argument of a request. The type of an expression is never a reference. -/
structure Argument (κ ω α : Type) where
  type : CppType κ
  designated : Designated ω α
  object : type.isReference = false

/-- An object: a variable of the program, or one that a parameter or a tuple holds by itself. -/
inductive Object (ω α : Type) where
  | variable (name : ω)
  | own (value : Option α)
  deriving DecidableEq

/-- A variable that does not exist yet, that has a value, or that has ended. -/
inductive Life (α : Type) where
  | unborn
  | alive (value : α)
  | ended
  deriving DecidableEq

/--
What is known of the variables of a program.

It says which of them never end, which values later code can store in each, and what a move leaves
in it. No value can be stored in a constant.
-/
structure Variables (ω α : Type) where
  permanent : ω → Bool
  storable : ω → α → Bool
  left : ω → α → α

/-- The variables of the program, each with what has become of it. -/
abbrev Scope (ω α : Type) := ω → Life α

/-- The value of a variable that is alive. -/
def Life.value : Life α → Option α
  | .alive value => some value
  | _ => none

/-- The value that an object has now, if it still exists. -/
def Object.read (scope : Scope ω α) : Object ω α → Option α
  | .variable name => (scope name).value
  | .own value => value

/-- The category of an argument. -/
def Argument.category (arg : Argument κ ω α) : ValueCategory :=
  match arg.designated with
  | .lvalue _ => .lvalue
  | .xvalue _ => .xvalue
  | .prvalue _ => .prvalue

/-- The object that an argument designates. A prvalue becomes an object of its own. -/
def Argument.place (arg : Argument κ ω α) : Object ω α :=
  match arg.designated with
  | .lvalue name => .variable name
  | .xvalue name => .variable name
  | .prvalue value => .own (some value)

/-- What the template parameter of a forwarding reference is deduced as for an argument. -/
def Argument.deduced (arg : Argument κ ω α) : CppType κ := arg.type.deduce arg.category

/-- The value that an argument has. -/
def Argument.value (scope : Scope ω α) (arg : Argument κ ω α) : Option α := arg.place.read scope

/-- An element of `args_`: its type, and the object that it is or refers to. -/
structure Captured (κ ω α : Type) where
  type : CppType κ
  object : Object ω α

/-- A task: its number, and the tuple of the function, the target and the arguments. -/
structure CapturedTask (κ ω α : Type) where
  id : Nat
  args : List (Captured κ ω α)

/-- An invocation: the task, and what its function was called with. -/
structure Invocation (α : Type) where
  task : Nat
  passed : List (Option α)
  deriving DecidableEq

/-- The variables of the callers, the tasks not invoked yet, and a record of the invocations. -/
structure Callers (κ ω α : Type) where
  scope : Scope ω α
  tasks : List (CapturedTask κ ω α)
  nextId : Nat
  invocations : List (Invocation α)

/-- The program before any variable exists. -/
def Callers.init (κ ω α : Type) : Callers κ ω α := ⟨fun _ => .unborn, [], 0, []⟩

/-- What the program can do next with its variables and its tasks. -/
inductive CallerLabel (κ ω α : Type) where
  | declare (name : ω) (value : α)
  | assign (name : ω) (value : α)
  | leave (name : ω)
  | requestTask (obj : κ) (target : α) (func : Argument κ ω α) (args : List (Argument κ ω α))
  | invoke (task : Nat)

variable [DecidableEq ω] (declared : Variables ω α)

/-- What a move from a variable leaves in it. A constant is copied from instead. -/
def Scope.moveFrom (scope : Scope ω α) : Object ω α → Scope ω α
  | .variable name =>
    match scope name with
    | .alive value =>
      if declared.storable name (declared.left name value) then
        Function.update scope name (.alive (declared.left name value))
      else scope
    | _ => scope
  | .own _ => scope

/--
Something of a type is initialised by an expression: a parameter, or an element of a tuple.

A reference is bound to the object of the expression. Otherwise there is a new object with its
value, and an expression that is not an lvalue is moved from, unless it is of a `const` type.
-/
def initialise (type : CppType κ) (category : ValueCategory) (object : Object ω α)
    (scope : Scope ω α) : Scope ω α × Captured κ ω α :=
  match type with
  | .lvalueReference _ => (scope, ⟨type, object⟩)
  | .rvalueReference _ => (scope, ⟨type, object⟩)
  -- A constant cannot be moved from: its copy constructor is the one that fits.
  | .const _ => (scope, ⟨type, .own (object.read scope)⟩)
  | _ => (if category = .lvalue then scope else Scope.moveFrom declared scope object,
      ⟨type, .own (object.read scope)⟩)

/-- The parameter `Args... args` of `Task::Task`, from `std::forward<Args>(args)`. -/
def Argument.pass (arg : Argument κ ω α) (scope : Scope ω α) : Scope ω α × Captured κ ω α :=
  -- In between, `Args&& args` of `request_task` is a reference to the object of the argument.
  let parameter := (initialise declared arg.deduced.addRvalueReference arg.category arg.place
    scope).2
  initialise declared arg.deduced arg.deduced.forwardCategory parameter.object scope

/-- The parameters of `Task::Task`, from the left, an order that the language leaves open. -/
def passAll : List (Argument κ ω α) → Scope ω α → Scope ω α × List (Captured κ ω α)
  | [], scope => (scope, [])
  | arg :: rest, scope =>
    let first := arg.pass declared scope
    let others := passAll rest first.1
    (others.1, first.2 :: others.2)

/-- The element of `args_` for the function, from `std::move(func)`. -/
def Argument.passFunc (func : Argument κ ω α) (scope : Scope ω α) :
    Scope ω α × Captured κ ω α :=
  -- Both `Func&& func` are references to the object of the argument.
  let parameter := (initialise declared func.deduced.addRvalueReference func.category func.place
    scope).2
  let inner := (initialise declared func.deduced.addRvalueReference func.deduced.forwardCategory
    parameter.object scope).2
  initialise declared func.deduced func.deduced.moveCategory inner.object scope

/-- The element of `args_` for a parameter `Args args`, from `std::forward<Args>(args)`. -/
def Captured.store (parameter : Captured κ ω α) (scope : Scope ω α) : Captured κ ω α :=
  (initialise declared parameter.type parameter.type.forwardCategory parameter.object scope).2

/-- Whether a request compiles: every parameter and every element can be initialised. -/
def requestCompiles (func : Argument κ ω α) (args : List (Argument κ ω α)) : Bool :=
  func.deduced.initialisable func.deduced.moveCategory &&
    args.all fun arg => arg.deduced.initialisable arg.deduced.forwardCategory

/-- The tuple of a new task, and the variables after the arguments have been passed. -/
def captureAll (obj : κ) (target : α) (func : Argument κ ω α) (args : List (Argument κ ω α))
    (scope : Scope ω α) : Scope ω α × List (Captured κ ω α) :=
  let parameters := passAll declared args scope
  let held := func.passFunc declared parameters.1
  (held.1, held.2 :: ⟨.pointer (.ofClass obj), .own (some target)⟩ ::
    parameters.2.map fun parameter => parameter.store declared held.1)

/--
One step: a variable begins, changes or ends, a task is requested, or one is invoked.

A request is one that compiles, of variables that are alive, while the serializer is `RUNNING`:
else it returns before it has touched its arguments. `invoke` calls the function with what the
elements of the tuple are at that time, and a reference to what has ended yields no value.
-/
def callerStep (state : Callers κ ω α) : CallerLabel κ ω α → Option (Callers κ ω α)
  | .declare name value =>
    match state.scope name with
    | .unborn => some { state with scope := Function.update state.scope name (.alive value) }
    | _ => none
  | .assign name value =>
    match state.scope name with
    | .alive _ =>
      if declared.storable name value then
        some { state with scope := Function.update state.scope name (.alive value) }
      else none
    | _ => none
  | .leave name =>
    match state.scope name with
    | .alive _ =>
      -- What has static storage stays until the program ends.
      if declared.permanent name then none
      else some { state with scope := Function.update state.scope name .ended }
    | _ => none
  | .requestTask obj target func args =>
    if requestCompiles func args ∧ ∀ arg ∈ func :: args, (arg.value state.scope).isSome then
      let captured := captureAll declared obj target func args state.scope
      some { state with
        scope := captured.1
        tasks := state.tasks ++ [⟨state.nextId, captured.2⟩]
        nextId := state.nextId + 1 }
    else none
  | .invoke i =>
    match state.tasks[i]? with
    | some task =>
      -- Only here is a reference in the tuple read.
      let passed := task.args.map fun element => element.object.read state.scope
      some { state with
        tasks := state.tasks.eraseIdx i
        invocations := state.invocations ++ [⟨task.id, passed⟩] }
    | none => none

/-- The values of the function, the target and the arguments of a request, when it is made. -/
def requestedValues (target : α) (func : Argument κ ω α) (args : List (Argument κ ω α))
    (scope : Scope ω α) : List (Option α) :=
  func.value scope :: some target :: args.map (Argument.value scope)

/-- A variable that never ends, and in which no other value can be stored. -/
def Scope.Fixed (scope : Scope ω α) (name : ω) : Prop :=
  declared.permanent name = true ∧ ∀ value other, scope name = .alive value →
    declared.storable name other = true → other = value

/-- The variable that an argument takes its value out of, as an expression to be moved from. -/
def Argument.takes (arg : Argument κ ω α) : Option ω :=
  match arg.designated with
  | .xvalue name => some name
  | _ => none

/-- The variable that is moved from when an argument is passed. -/
def Argument.moves (arg : Argument κ ω α) : Option ω :=
  match arg.type with
  | .const _ => none
  | .function => none
  | _ => arg.takes

/-- A move from a variable leaves the value in it that it has. -/
def Scope.Unmoved (scope : Scope ω α) (name : ω) : Prop :=
  ∀ value, scope name = .alive value → declared.storable name (declared.left name value) = true →
    declared.left name value = value

/-- The second argument takes nothing out of a variable that the first one has changed. -/
def Argument.Apart (scope : Scope ω α) (first second : Argument κ ω α) : Prop :=
  ∀ name, first.moves = some name → second.takes = some name → Scope.Unmoved declared scope name

/--
A request whose task gets values of its own.

Every argument is an rvalue or a variable that is fixed, and no variable is moved from twice.
-/
structure CapturesByValue (func : Argument κ ω α) (args : List (Argument κ ω α))
    (scope : Scope ω α) : Prop where
  fixed : ∀ arg ∈ func :: args, ∀ name, arg.designated = .lvalue name →
    Scope.Fixed declared scope name
  apart : (args ++ [func]).Pairwise (Argument.Apart declared scope)

end Braid.Task
