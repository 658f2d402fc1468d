import Braid.Task.Captures
import Mathlib.Data.List.Forall2

/-! Whether a task is invoked with the values that its arguments had when it was requested. -/

namespace Braid.Task

open Transition

variable {κ ω α : Type}

/-- What becomes of an argument in the tuple: a reference to the variable, or a value of its own. -/
def Argument.kept (scope : Scope ω α) (arg : Argument κ ω α) : Object ω α :=
  match arg.designated with
  | .lvalue name => .variable name
  | _ => .own (arg.value scope)

/-- A variable with a value is alive. -/
theorem Life.eq_alive {life : Life α} {value : α} (found : life.value = some value) :
    life = .alive value := by
  cases life with
  | alive held => exact congrArg Life.alive (Option.some.inj found)
  | unborn | ended => cases found

section Passing

variable [DecidableEq ω] {declared : Variables ω α} {scope original : Scope ω α}
  {arg : Argument κ ω α}

/-- The variables after an argument has been passed. -/
def Argument.after (declared : Variables ω α) (arg : Argument κ ω α) (scope : Scope ω α) :
    Scope ω α :=
  match arg.moves with
  | some name => Scope.moveFrom declared scope (.variable name)
  | none => scope

/-- What `std::forward` and what `std::move` make of a parameter that holds a value. -/
theorem initialise_rvalue (declared : Variables ω α) (scope : Scope ω α) (type : CppType κ)
    (plain : type.isReference = false) (object : Object ω α) :
    type.forwardCategory = type.moveCategory ∧
      (initialise declared type type.forwardCategory object scope).2 =
        ⟨type, .own (object.read scope)⟩ ∧
      (initialise declared type type.forwardCategory object scope).1 =
        match type with
        | .const _ => scope
        | .function => scope
        | _ => Scope.moveFrom declared scope object := by
  cases type with
  | lvalueReference | rvalueReference => cases plain
  | _ =>
    -- A type that is no reference is cast to a reference to it, by either of the two.
    simp [CppType.forwardCategory, CppType.moveCategory, initialise, CppType.addRvalueReference,
      CppType.castCategory, CppType.removeReference]

/-- A reference is bound to an object, which stays as it is. -/
theorem initialise_reference (type : CppType κ) (reference : type.isReference = true)
    (category : ValueCategory) (object : Object ω α) :
    initialise declared type category object scope = (scope, ⟨type, object⟩) := by
  cases type with
  | lvalueReference | rvalueReference => rfl
  | _ => cases reference

/-- The parameters in between are references to the object of the argument. -/
theorem addRvalueReference_isReference (type : CppType κ) :
    type.addRvalueReference.isReference = true := by
  cases type <;> rfl

omit [DecidableEq ω] in
/-- An argument is deduced as a reference exactly if it is an lvalue. -/
theorem Argument.deduced_isReference (arg : Argument κ ω α) :
    arg.deduced.isReference = match arg.designated with
      | .lvalue _ => true
      | _ => false := by
  obtain ⟨type, designated, plain⟩ := arg
  -- An argument that is no lvalue is deduced as the plain type.
  cases designated with
  | lvalue name => rfl
  | xvalue name => exact plain
  | prvalue value => exact plain

/-- Passing an argument binds a reference to a variable, or makes a value of its own. -/
theorem Argument.pass_eq : arg.pass declared scope =
    (arg.after declared scope, ⟨arg.deduced, arg.kept scope⟩) := by
  have reference := arg.deduced_isReference
  -- The parameter of `request_task` is a reference to the object, whatever the argument is.
  rw [Argument.pass, initialise_reference _ (addRvalueReference_isReference _)]
  obtain ⟨type, designated, plain⟩ := arg
  cases designated with
  | lvalue name =>
    -- The parameter of `Task::Task` is a reference too, and nothing is moved from.
    rw [initialise_reference _ reference]
    cases type <;> rfl
  | xvalue name =>
    -- The parameter is an object with the value, which is taken out of the variable.
    obtain ⟨-, held, left⟩ := initialise_rvalue declared scope type plain (.variable name)
    refine Prod.ext (left.trans ?_) held
    cases type with
    | lvalueReference | rvalueReference => cases plain
    | _ => rfl
  | prvalue value =>
    -- Nothing is left behind of a temporary.
    obtain ⟨-, held, left⟩ := initialise_rvalue declared scope type plain (.own (some value))
    refine Prod.ext (left.trans ?_) held
    cases type with
    | lvalueReference | rvalueReference => cases plain
    | _ => rfl

/-- The function is passed as an argument is, although it is cast by `std::move`. -/
theorem Argument.passFunc_eq : arg.passFunc declared scope =
    (arg.after declared scope, ⟨arg.deduced, arg.kept scope⟩) := by
  rw [← Argument.pass_eq, Argument.passFunc, Argument.pass,
    initialise_reference _ (addRvalueReference_isReference _),
    initialise_reference _ (addRvalueReference_isReference _)]
  -- The two casts differ only where the parameter is a reference, which binds to either.
  cases reference : arg.deduced.isReference with
  | true => rw [initialise_reference _ reference, initialise_reference _ reference]
  | false => rw [(initialise_rvalue declared scope _ reference arg.place).1]

/-- The element of the tuple is the object that the parameter is or refers to. -/
theorem Argument.store_eq (later : Scope ω α) :
    ((arg.pass declared scope).2.store declared later).object = arg.kept scope := by
  have reference := arg.deduced_isReference
  rw [Argument.pass_eq, Captured.store]
  obtain ⟨type, designated, plain⟩ := arg
  cases designated with
  | lvalue name => rw [initialise_reference _ reference]
  -- What is left in the parameter by this move is read by nobody.
  | xvalue | prvalue => rw [(initialise_rvalue declared later _ reference _).2.1]; rfl

/-- What becomes of all arguments, each passed after the ones before it. -/
def keptAll (declared : Variables ω α) : List (Argument κ ω α) → Scope ω α → List (Object ω α)
  | [], _ => []
  | arg :: rest, scope => arg.kept scope :: keptAll declared rest (arg.after declared scope)

/-- The variables after all arguments have been passed. -/
def afterAll (declared : Variables ω α) (args : List (Argument κ ω α)) (scope : Scope ω α) :
    Scope ω α := args.foldl (fun scope arg => arg.after declared scope) scope

/-- The parameters of `Task::Task` leave the variables as the moves do. -/
theorem passAll_scope (args : List (Argument κ ω α)) (scope : Scope ω α) :
    (passAll declared args scope).1 = afterAll declared args scope := by
  induction args generalizing scope with
  | nil => rfl
  | cons arg rest ih =>
    -- Passing the first argument leaves what the rest is passed in.
    simp only [passAll, Argument.pass_eq]
    exact ih _

/-- The elements for the arguments are what becomes of them. -/
theorem passAll_store (args : List (Argument κ ω α)) (scope later : Scope ω α) :
    ((passAll declared args scope).2.map fun parameter =>
      (parameter.store declared later).object) = keptAll declared args scope := by
  induction args generalizing scope with
  | nil => rfl
  | cons arg rest ih =>
    simp only [passAll, List.map_cons, keptAll]
    -- The first element is what becomes of the first argument, and the others come later.
    rw [Argument.store_eq, ih, Argument.pass_eq]

/-- The tuple of a task is made of what becomes of the function, the target and the arguments. -/
theorem captureAll_eq (declared : Variables ω α) (scope : Scope ω α) (obj : κ) (target : α)
    (func : Argument κ ω α) (args : List (Argument κ ω α)) :
    let captured := captureAll declared obj target func args scope
    captured.1 = func.after declared (afterAll declared args scope) ∧
      captured.2.map Captured.object = func.kept (afterAll declared args scope) ::
        .own (some target) :: keptAll declared args scope := by
  simp only [captureAll, passAll_scope, Argument.passFunc_eq, List.map_cons, List.map_map,
    true_and]
  -- The parameters are made before any of them is stored.
  exact congrArg (fun others => _ :: _ :: others) (passAll_store args scope _)

/-- The function is passed behind the arguments. -/
theorem keptAll_append (args : List (Argument κ ω α)) (func : Argument κ ω α)
    (scope : Scope ω α) : keptAll declared (args ++ [func]) scope =
      keptAll declared args scope ++ [func.kept (afterAll declared args scope)] := by
  induction args generalizing scope with
  | nil => rfl
  | cons arg rest ih => simp only [List.cons_append, keptAll, ih]; rfl

omit [DecidableEq ω] in
/-- What becomes of an argument depends on the variable that its value is taken out of, if any. -/
theorem Argument.kept_congr (same : ∀ name, arg.takes = some name → scope name = original name) :
    arg.kept scope = arg.kept original := by
  obtain ⟨type, designated, plain⟩ := arg
  cases designated with
  | lvalue name => rfl
  | xvalue name =>
    -- Only an xvalue takes its value out of a variable.
    have same := same name rfl
    simp [Argument.kept, Argument.value, Argument.place, Object.read, same]
  | prvalue value => rfl

omit [DecidableEq ω] in
/-- An argument that is moved from takes its value out of the same variable. -/
theorem Argument.takes_of_moves {name : ω} (moves : arg.moves = some name) :
    arg.takes = some name := by
  unfold Argument.moves at moves
  -- An argument that is only bound moves nothing.
  split at moves
  · cases moves
  · cases moves
  · exact moves

/-- Passing an argument changes no variable but the one that is moved from. -/
theorem Argument.after_other {name : ω} (other : arg.moves ≠ some name) :
    arg.after declared scope name = scope name := by
  cases found : arg.moves with
  | none => simp only [Argument.after, found]
  | some moved =>
    have different : name ≠ moved := by
      rintro rfl
      exact other found
    simp only [Argument.after, found, Scope.moveFrom]
    -- A move stores something, does not where it copies, and finds nothing in a dead variable.
    cases scope moved with
    | alive value =>
      by_cases stored : declared.storable moved (declared.left moved value) = true
      · simp [stored, different]
      · simp [stored]
    | unborn | ended => rfl

/-- A move leaves the variable as it is exactly if it leaves the value in it that it has. -/
theorem Argument.after_self {name : ω} (moves : arg.moves = some name) :
    arg.after declared scope name = scope name ↔ Scope.Unmoved declared scope name := by
  simp only [Argument.after, moves, Scope.moveFrom, Scope.Unmoved]
  -- Only a living variable is moved from, and then it may store what the move leaves or not.
  cases here : scope name with
  | alive value =>
    by_cases stored : declared.storable name (declared.left name value) = true
    · simp [stored]
    · simp [stored, here]
  | unborn | ended => simp [here]

/-- A variable keeps its state when it keeps its value, if one argument is all that was passed. -/
theorem Argument.after_value {name : ω}
    (same : (arg.after declared scope name).value = (scope name).value) :
    arg.after declared scope name = scope name := by
  -- A variable that no argument moves from is as it was.
  by_cases moves : arg.moves = some name
  · simp only [Argument.after, moves, Scope.moveFrom] at same ⊢
    cases here : scope name with
    | alive value =>
      by_cases stored : declared.storable name (declared.left name value) = true
      · simpa [stored, here, Life.value] using same
      · simp [stored, here]
    | unborn | ended => simp [here]
  · exact Argument.after_other moves

/-- What is taken out of a variable by some argument is the value that it had in the first place. -/
theorem keptAll_taken {args : List (Argument κ ω α)}
    (kept : keptAll declared args scope = args.map (Argument.kept original)) :
    ∀ arg ∈ args, ∀ name, arg.takes = some name → (scope name).value = (original name).value := by
  induction args generalizing scope with
  | nil => simp
  | cons first rest ih =>
    intro arg member name takes
    simp only [keptAll, List.map_cons, List.cons.injEq] at kept
    by_cases takesFirst : first.takes = some name
    · -- The first argument that takes from the variable finds it as it is.
      obtain ⟨type, designated, plain⟩ := first
      cases designated with
      | lvalue | prvalue => cases takesFirst
      | xvalue other =>
        obtain rfl := Option.some.inj takesFirst
        simpa [Argument.kept, Argument.value, Argument.place, Object.read] using kept.1
    · rcases List.mem_cons.mp member with rfl | later
      · exact absurd takes takesFirst
      · -- An argument that does not take from the variable does not move from it either.
        have unmoved : first.moves ≠ some name := fun moves =>
          takesFirst (Argument.takes_of_moves moves)
        have found := ih kept.2 arg later name takes
        rwa [Argument.after_other unmoved] at found

/--
Every argument is kept with the value it had exactly if the arguments are apart.

The variables may have changed already where no argument takes anything.
-/
theorem keptAll_iff {args : List (Argument κ ω α)}
    (agree : ∀ arg ∈ args, ∀ name, arg.takes = some name → scope name = original name) :
    keptAll declared args scope = args.map (Argument.kept original) ↔
      args.Pairwise (Argument.Apart declared original) := by
  induction args generalizing scope with
  | nil => simp [keptAll]
  | cons first rest ih =>
    have here : first.kept scope = first.kept original :=
      Argument.kept_congr fun name takes => agree first List.mem_cons_self name takes
    have before (arg : Argument κ ω α) (member : arg ∈ rest) (name : ω)
        (takes : arg.takes = some name) : scope name = original name :=
      agree arg (List.mem_cons_of_mem _ member) name takes
    have unmoved {name : ω} (same : scope name = original name) :
        Scope.Unmoved declared scope name ↔ Scope.Unmoved declared original name := by
      simp only [Scope.Unmoved, same]
    simp only [keptAll, List.map_cons, List.cons.injEq, here, true_and, List.pairwise_cons]
    constructor
    · intro kept
      -- What a later argument takes is as it was, so the first one has not changed it.
      have agrees (arg : Argument κ ω α) (member : arg ∈ rest) (name : ω)
          (takes : arg.takes = some name) : first.after declared scope name = original name := by
        have same := before arg member name takes
        rw [← same]
        refine Argument.after_value ?_
        rw [keptAll_taken kept arg member name takes, same]
      refine ⟨fun arg member name moves takes => ?_, (ih agrees).mp kept⟩
      have same := before arg member name takes
      rw [← unmoved same, ← Argument.after_self moves, agrees arg member name takes, same]
    · rintro ⟨apart, others⟩
      -- Behind the first argument, the others still find what they take as it was.
      refine (ih fun arg member name takes => ?_).mpr others
      have same := before arg member name takes
      by_cases moves : first.moves = some name
      · have stays := (unmoved same).mpr (apart arg member name moves takes)
        rw [(Argument.after_self moves).mpr stays, same]
      · rw [Argument.after_other moves, same]

end Passing

section Runs

variable [DecidableEq ω] {declared : Variables ω α} {state next : Callers κ ω α}
  {label : CallerLabel κ ω α}

/-- Every invocation of a task so far has passed these values. -/
def Callers.InvokesWith (state : Callers κ ω α) (task : Nat) (values : List (Option α)) : Prop :=
  ∀ invocation ∈ state.invocations, invocation.task = task → invocation.passed = values

/-- The tasks that there have been so far have the numbers up to the next one. -/
structure Callers.Numbered (state : Callers κ ω α) : Prop where
  tasks : ∀ task ∈ state.tasks, task.id < state.nextId
  invocations : ∀ invocation ∈ state.invocations, invocation.task < state.nextId

/-- A variable that never ends keeps a value beside which no other can be stored in it. -/
def Scope.KeepsFixed (declared : Variables ω α) (scope after : Scope ω α) : Prop :=
  ∀ name value, declared.permanent name = true → scope name = .alive value →
    (∀ other, declared.storable name other = true → other = value) → after name = .alive value

/-- What an element is that has a value for good: its own, or that of a variable that is fixed. -/
def Object.Settled (declared : Variables ω α) (scope : Scope ω α) (object : Object ω α)
    (value : Option α) : Prop :=
  object = .own value ∨ ∃ name held, object = .variable name ∧ value = some held ∧
    declared.permanent name = true ∧ scope name = .alive held ∧
      ∀ other, declared.storable name other = true → other = held

omit [DecidableEq ω] in
/-- An element that has a value for good is read as that value. -/
theorem Object.Settled.read {scope : Scope ω α} {object : Object ω α} {value : Option α}
    (settled : object.Settled declared scope value) : object.read scope = value := by
  rcases settled with rfl | ⟨name, held, rfl, rfl, -, alive, -⟩
  · rfl
  · simp [Object.read, alive, Life.value]

omit [DecidableEq ω] in
/-- An element that has a value for good keeps it while fixed variables do. -/
theorem Object.Settled.later {scope after : Scope ω α} {object : Object ω α} {value : Option α}
    (settled : object.Settled declared scope value) (keeps : scope.KeepsFixed declared after) :
    object.Settled declared after value := by
  rcases settled with own | ⟨name, held, variable_, same, permanent, alive, only⟩
  · exact .inl own
  · exact .inr ⟨name, held, variable_, same, permanent, keeps name held permanent alive only, only⟩

/-- Changing one variable keeps the fixed ones when it is not one of them, or keeps its value. -/
theorem Scope.KeepsFixed.update {scope : Scope ω α} {name : ω} {life : Life α}
    (keeps : ∀ value, declared.permanent name = true → scope name = .alive value →
      (∀ other, declared.storable name other = true → other = value) → life = .alive value) :
    scope.KeepsFixed declared (Function.update scope name life) := by
  intro other value permanent alive only
  -- Only the changed variable needs a proof of its own.
  by_cases same : other = name
  · subst same
    rw [Function.update_self]
    exact keeps value permanent alive only
  · rwa [Function.update_of_ne same]

/-- Passing an argument keeps the fixed variables. -/
theorem Argument.after_keepsFixed (arg : Argument κ ω α) (scope : Scope ω α) :
    scope.KeepsFixed declared (arg.after declared scope) := by
  intro name value permanent alive only
  by_cases moves : arg.moves = some name
  · -- Even a move can store nothing else in it.
    rw [(Argument.after_self moves).mpr, alive]
    intro held aliveHeld stored
    obtain rfl : held = value := by simpa [alive] using aliveHeld.symm
    exact only _ stored
  · rwa [Argument.after_other moves]

/-- Passing arguments keeps the fixed variables. -/
theorem afterAll_keepsFixed (args : List (Argument κ ω α)) (scope : Scope ω α) :
    scope.KeepsFixed declared (afterAll declared args scope) := by
  induction args generalizing scope with
  | nil => exact fun _ _ _ alive _ => alive
  | cons arg rest ih =>
    intro name value permanent alive only
    -- The first argument is passed before the others.
    have first := arg.after_keepsFixed scope name value permanent alive only
    exact ih _ name value permanent first only

/-- What a request has done, when it was made: the new task is the last one. -/
theorem requestTask_eq {obj : κ} {target : α} {func : Argument κ ω α}
    {args : List (Argument κ ω α)}
    (taken : callerStep declared state (.requestTask obj target func args) = some next) :
    (∀ arg ∈ func :: args, (arg.value state.scope).isSome) ∧
      next.scope = func.after declared (afterAll declared args state.scope) ∧
      next.invocations = state.invocations ∧ next.nextId = state.nextId + 1 ∧
      ∃ elements : List (Captured κ ω α),
        next.tasks = state.tasks ++ [⟨state.nextId, elements⟩] ∧
        elements.map Captured.object =
          func.kept (afterAll declared args state.scope) :: .own (some target) ::
            keptAll declared args state.scope := by
  simp only [callerStep] at taken
  split at taken
  · rename_i allowed
    cases taken
    -- A request that is allowed captures the function, the target and the arguments.
    have captured := captureAll_eq declared state.scope obj target func args
    exact ⟨allowed.2, captured.1, rfl, rfl, _, rfl, captured.2⟩
  · cases taken

/--
What one step can do: it changes one variable, makes a request, or invokes a task.

A change leaves a variable that is fixed with its value.
-/
theorem callerStep_cases (taken : callerStep declared state label = some next) :
    (∃ name life, next = { state with scope := Function.update state.scope name life } ∧
      ∀ value, declared.permanent name = true → state.scope name = .alive value →
        (∀ other, declared.storable name other = true → other = value) → life = .alive value) ∨
    (∃ obj target func args, label = .requestTask obj target func args) ∨
    ∃ i task, state.tasks[i]? = some task ∧ next = { state with
      tasks := state.tasks.eraseIdx i
      invocations := state.invocations ++
        [⟨task.id, (task.args.map Captured.object).map (Object.read state.scope)⟩] } := by
  cases label with
  | declare name value =>
    simp only [callerStep] at taken
    split at taken
    · rename_i unborn
      cases taken
      refine .inl ⟨name, .alive value, rfl, fun held _ alive _ => ?_⟩
      -- A variable that begins has not been one that is fixed.
      rw [unborn] at alive
      cases alive
    · cases taken
  | assign name value =>
    simp only [callerStep] at taken
    split at taken
    · split at taken
      · rename_i stored
        cases taken
        -- The only value that can be stored in a fixed variable is the one it has.
        exact .inl ⟨name, .alive value, rfl, fun held _ _ only => by rw [only value stored]⟩
      · cases taken
    · cases taken
  | leave name =>
    simp only [callerStep] at taken
    split at taken
    · split at taken
      · cases taken
      · rename_i ends
        cases taken
        -- A fixed variable never ends.
        exact .inl ⟨name, .ended, rfl, fun held permanent _ _ => absurd permanent ends⟩
    · cases taken
  | requestTask obj target func args => exact .inr (.inl ⟨obj, target, func, args, rfl⟩)
  | invoke i =>
    simp only [callerStep] at taken
    split at taken
    · rename_i task found
      cases taken
      exact .inr (.inr ⟨i, task, found, by rw [List.map_map]; rfl⟩)
    · cases taken

/-- Every step keeps the fixed variables. -/
theorem callerStep_keepsFixed (taken : callerStep declared state label = some next) :
    state.scope.KeepsFixed declared next.scope := by
  rcases callerStep_cases taken with ⟨name, life, rfl, keeps⟩ | ⟨obj, target, func, args, rfl⟩ |
    ⟨i, task, -, rfl⟩
  · exact Scope.KeepsFixed.update keeps
  · -- A request only moves from variables, first for the arguments and then for the function.
    obtain ⟨-, scope, -⟩ := requestTask_eq taken
    intro name value permanent alive only
    rw [scope]
    have passed := afterAll_keepsFixed args _ name value permanent alive only
    exact func.after_keepsFixed _ name value permanent passed only
  · exact fun _ _ _ alive _ => alive

/-- What one step does to the tasks: nothing, a request, or an invocation. -/
theorem callerStep_tasks (taken : callerStep declared state label = some next) :
    (next.tasks = state.tasks ∧ next.nextId = state.nextId ∧
      next.invocations = state.invocations) ∨
    (∃ args, next.tasks = state.tasks ++ [⟨state.nextId, args⟩] ∧
      next.nextId = state.nextId + 1 ∧ next.invocations = state.invocations) ∨
    ∃ i task, state.tasks[i]? = some task ∧ next.tasks = state.tasks.eraseIdx i ∧
      next.nextId = state.nextId ∧ next.invocations = state.invocations ++
        [⟨task.id, (task.args.map Captured.object).map (Object.read state.scope)⟩] := by
  rcases callerStep_cases taken with ⟨name, life, rfl, -⟩ | ⟨obj, target, func, args, rfl⟩ |
    ⟨i, task, found, rfl⟩
  · exact .inl ⟨rfl, rfl, rfl⟩
  · -- A request adds one task, under the next number.
    obtain ⟨-, -, invocations, nextId, elements, tasks, -⟩ := requestTask_eq taken
    exact .inr (.inl ⟨elements, tasks, nextId, invocations⟩)
  · exact .inr (.inr ⟨i, task, found, rfl, rfl, rfl⟩)

/-- Every step numbers its task. -/
theorem Callers.Numbered.step (numbered : state.Numbered)
    (taken : callerStep declared state label = some next) : next.Numbered := by
  rcases callerStep_tasks taken with ⟨tasks, nextId, invocations⟩ |
    ⟨args, tasks, nextId, invocations⟩ | ⟨i, task, found, tasks, nextId, invocations⟩
  · exact ⟨by rw [tasks, nextId]; exact numbered.tasks,
      by rw [invocations, nextId]; exact numbered.invocations⟩
  · constructor
    · intro task member
      rw [tasks] at member
      rw [nextId]
      rcases List.mem_append.mp member with before | new
      · exact Nat.lt_succ_of_lt (numbered.tasks task before)
      · rw [List.mem_singleton.mp new]
        exact Nat.lt_succ_self _
    · rw [invocations, nextId]
      exact fun invocation member => Nat.lt_succ_of_lt (numbered.invocations _ member)
  · constructor
    · -- An invocation takes its task off the list, and keeps its number.
      rw [tasks, nextId]
      exact fun other member => numbered.tasks other (List.mem_of_mem_eraseIdx member)
    · rw [invocations, nextId]
      intro invocation member
      rcases List.mem_append.mp member with before | new
      · exact numbered.invocations _ before
      · rw [List.mem_singleton.mp new]
        exact numbered.tasks task (List.mem_of_getElem? found)

/-- A task has what it was requested with for good, and has been invoked with nothing else. -/
structure Callers.Keeps (declared : Variables ω α) (state : Callers κ ω α) (id : Nat)
    (values : List (Option α)) : Prop where
  older : id < state.nextId
  settled : ∀ task ∈ state.tasks, task.id = id →
    List.Forall₂ (Object.Settled declared state.scope) (task.args.map Captured.object) values
  invoked : state.InvokesWith id values

omit [DecidableEq ω] in
/-- Elements that have their values for good are read as these values. -/
theorem settled_read {scope : Scope ω α} {objects : List (Object ω α)} {values : List (Option α)}
    (settled : List.Forall₂ (Object.Settled declared scope) objects values) :
    objects.map (Object.read scope) = values := by
  induction settled with
  | nil => rfl
  | cons first _ ih => rw [List.map_cons, first.read, ih]

/-- Every step leaves a task with what it was requested with. -/
theorem Callers.Keeps.step {id : Nat} {values : List (Option α)}
    (keeps : state.Keeps declared id values)
    (taken : callerStep declared state label = some next) : next.Keeps declared id values := by
  have fixed := callerStep_keepsFixed taken
  -- The elements of the task are as they were, and what they refer to is fixed.
  have later (task : CapturedTask κ ω α) (member : task ∈ state.tasks) (same : task.id = id) :
      List.Forall₂ (Object.Settled declared next.scope) (task.args.map Captured.object) values :=
    (keeps.settled task member same).imp fun _ _ settled => settled.later fixed
  rcases callerStep_tasks taken with ⟨tasks, nextId, invocations⟩ |
    ⟨args, tasks, nextId, invocations⟩ | ⟨i, task, found, tasks, nextId, invocations⟩
  · refine ⟨nextId ▸ keeps.older, fun task member => later task (tasks ▸ member), ?_⟩
    rw [Callers.InvokesWith, invocations]
    exact keeps.invoked
  · refine ⟨nextId ▸ Nat.lt_succ_of_lt keeps.older, fun task member same => ?_, ?_⟩
    · -- The new task has another number.
      rw [tasks] at member
      rcases List.mem_append.mp member with before | new
      · exact later task before same
      · obtain rfl := List.mem_singleton.mp new
        exact absurd same (Nat.ne_of_gt keeps.older)
    · rw [Callers.InvokesWith, invocations]
      exact keeps.invoked
  · refine ⟨nextId ▸ keeps.older, fun other member => ?_, ?_⟩
    · rw [tasks] at member
      exact later other (List.mem_of_mem_eraseIdx member)
    · intro invocation member same
      rw [invocations] at member
      rcases List.mem_append.mp member with before | new
      · exact keeps.invoked invocation before same
      · -- The task that is invoked now reads what it has for good.
        obtain rfl := List.mem_singleton.mp new
        exact settled_read (keeps.settled task (List.mem_of_getElem? found) same)

/-- A request whose arguments are fixed or its own leaves a task with their values for good. -/
theorem CapturesByValue.keeps (numbered : state.Numbered) {obj : κ} {target : α}
    {func : Argument κ ω α} {args : List (Argument κ ω α)}
    (taken : callerStep declared state (.requestTask obj target func args) = some next)
    (byValue : CapturesByValue declared func args state.scope) :
    next.Keeps declared state.nextId (requestedValues target func args state.scope) := by
  obtain ⟨alive, scope, invocations, nextId, elements, tasks, objects⟩ := requestTask_eq taken
  -- Each argument has been passed as if it were the only one.
  have same : ∀ arg ∈ args ++ [func], ∀ name, arg.takes = some name →
      state.scope name = state.scope name := fun _ _ _ _ => rfl
  have kept := (keptAll_iff same).mpr byValue.apart
  rw [keptAll_append, List.map_append] at kept
  obtain ⟨keptArgs, keptFunc⟩ := List.append_inj' kept rfl
  have keptFunc : func.kept (afterAll declared args state.scope) = func.kept state.scope :=
    (List.cons.inj keptFunc).1
  have fixed := callerStep_keepsFixed taken
  -- So an element is a value of its own, or refers to a variable that is fixed.
  have settled (arg : Argument κ ω α) (member : arg ∈ func :: args) :
      (arg.kept state.scope).Settled declared next.scope (arg.value state.scope) := by
    cases designated : arg.designated with
    | lvalue name =>
      obtain ⟨held, value⟩ := Option.isSome_iff_exists.mp (alive arg member)
      obtain ⟨permanent, only⟩ := byValue.fixed arg member name designated
      have here : state.scope name = .alive held := by
        simp only [Argument.value, Argument.place, designated, Object.read] at value
        exact Life.eq_alive value
      have only := only held
      refine .inr ⟨name, held, by simp [Argument.kept, designated], value, permanent, ?_, ?_⟩
      · exact fixed name held permanent here fun other stored => only other here stored
      · exact fun other stored => only other here stored
    | xvalue | prvalue => exact .inl (by simp [Argument.kept, designated])
  refine ⟨nextId ▸ Nat.lt_succ_self _, fun task member same => ?_, fun invocation member same => ?_⟩
  · rw [tasks] at member
    rcases List.mem_append.mp member with before | new
    · -- An earlier task has a number of its own.
      exact absurd same (Nat.ne_of_lt (numbered.tasks task before))
    · obtain rfl := List.mem_singleton.mp new
      rw [objects, keptFunc, keptArgs, requestedValues]
      refine .cons (settled func List.mem_cons_self) (.cons (.inl rfl) ?_)
      rw [List.forall₂_map_left_iff, List.forall₂_map_right_iff, List.forall₂_same]
      exact fun arg member => settled arg (List.mem_cons_of_mem _ member)
  · rw [invocations] at member
    exact absurd same (Nat.ne_of_lt (numbered.invocations invocation member))

/-- The variables of `LogImpl` that it passes to `request_task`. -/
inductive LogVariable where
  | level
  | timestamp
  | location
  | message
  deriving DecidableEq

/-- `&LogHandler::write_log`. -/
def writeLog : Argument String LogVariable String where
  type := .pointer .function
  designated := .prvalue "write_log"
  object := rfl

end Runs

end Braid.Task
