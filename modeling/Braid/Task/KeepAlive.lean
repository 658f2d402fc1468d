import Braid.Library.Counting
import Braid.Library.Transition
import Braid.Task.References

/-! Whether a pending task keeps alive the objects that it names. -/

namespace Braid.Task

open Counting RefCount

variable {κ ω : Type} {derives : κ → Bool} [DecidableEq ω] {test : TraitTest κ}

/-- The objects that a task counts: those it names by elements that pass the test. -/
def PendingTask.tested (test : TraitTest κ) (task : PendingTask derives ω) : List ω :=
  (task.args.filter fun element => test element.type).flatMap fun element => element.names.toList

/-- The references that every task of a list holds to an object, by some account of one task. -/
def heldBy (account : PendingTask derives ω → List ω) (tasks : List (PendingTask derives ω))
    (object : ω) : Nat := tally (fun task => (account task).count object) tasks

/-- The references that a task gets when it is constructed and gives back when it is destroyed. -/
def PendingTask.held (test : TraitTest κ) (task : PendingTask derives ω) : List ω :=
  task.owned ++ task.tested test

omit [DecidableEq ω] in
/-- A pass over the counted elements of a tuple is a pass over the objects they name. -/
theorem forEachTuple_tested (counting : Heap ω → ω → Heap ω) (args : List (Element derives ω))
    (heap : Heap ω) :
    forEachTuple args (countArg test counting) heap =
      (PendingTask.tested test ⟨args, .pending⟩).foldl counting heap := by
  induction args generalizing heap with
  | nil => rfl
  -- Only an element that passes the test and names an object changes anything.
  | cons element rest ih =>
    simp only [forEachTuple, List.foldl_cons]
    rw [show List.foldl _ _ rest = _ from ih _]
    by_cases passes : test element.type = true
    · cases named : element.names with
      | none => simp [PendingTask.tested, countArg, passes, named]
      | some object => simp [PendingTask.tested, countArg, passes, named]
    · simp [PendingTask.tested, countArg, passes]

/-- Constructing a task takes the references it holds. -/
theorem PendingTask.construct_eq (task : PendingTask derives ω) (heap : Heap ω) :
    task.construct test heap = heap.addAll (task.held test) := by
  -- The tuple is built first, so its own references come before the counted ones.
  unfold construct
  rw [forEachTuple_tested]
  simp [Heap.addAll, held, tested]

/-- Destroying a task gives the counted references back, and then those of its elements. -/
theorem PendingTask.destruct_eq (task : PendingTask derives ω) (heap : Heap ω) :
    task.destruct test heap = (heap.releaseAll (task.tested test)).releaseAll task.owned := by
  -- The body of the destructor runs before the elements are destroyed.
  unfold destruct
  rw [forEachTuple_tested]
  rfl

/-- The objects that a task names without counting them. -/
def PendingTask.untested (test : TraitTest κ) (task : PendingTask derives ω) : List ω :=
  (task.args.filter fun element => !test element.type).flatMap fun element => element.names.toList

/-- The references that a task has to hold: one each time it names an object, and its own. -/
def PendingTask.references (task : PendingTask derives ω) : List ω := task.owned ++ task.named

/--
Every pending task keeps alive what it names.

Each count is the `ObjectPtr`s outside of all tasks and the references of every task, and no
object that a task names is destroyed.
-/
structure Objects.KeepsAlive (state : Objects derives ω) : Prop where
  counted : ∀ object, state.heap.refCount object =
    (state.outside object + heldBy PendingTask.references state.tasks object : Nat)
  alive : ∀ task ∈ state.tasks, ∀ object ∈ task.named, state.heap.destroyed object = false

/-- The references that there are: the `ObjectPtr`s, and what the tasks hold. -/
def Objects.references (test : TraitTest κ) (state : Objects derives ω) (object : ω) : Nat :=
  state.outside object + heldBy (PendingTask.held test) state.tasks object

/-- Every object counts the references that there are. -/
abbrev Objects.Balanced (test : TraitTest κ) (state : Objects derives ω) : Prop :=
  state.heap.Balanced (state.references test)

/-- An object is named once for each element that counts it and each one that does not. -/
theorem PendingTask.named_count (test : TraitTest κ) (task : PendingTask derives ω) (object : ω) :
    task.named.count object =
      (task.tested test).count object + (task.untested test).count object := by
  obtain ⟨args, phase⟩ := task
  induction args with
  | nil => rfl
  | cons element rest ih =>
    simp only [named, tested, untested, List.flatMap_cons, List.count_append] at ih ⊢
    -- An element is either tested or untested, and counts on that side alone.
    by_cases passes : test element.type = true
    · simp [passes, ih]; omega
    · simp [passes, ih]; omega

/-- What the tasks should hold is what they do hold and what they name without counting it. -/
theorem heldBy_references (test : TraitTest κ) (tasks : List (PendingTask derives ω))
    (object : ω) :
    heldBy PendingTask.references tasks object =
      heldBy (PendingTask.held test) tasks object +
        heldBy (PendingTask.untested test) tasks object := by
  unfold heldBy
  -- Task by task, what it should hold is what it holds and what it misses.
  rw [← tally_add]
  congr 1
  funext task
  rw [PendingTask.references, PendingTask.held, List.count_append, List.count_append,
    PendingTask.named_count test]
  omega

/-- A task that is named by nothing uncounted counts what it names. -/
theorem PendingTask.mem_tested {task : PendingTask derives ω} (counted : task.untested test = [])
    {object : ω} (member : object ∈ task.named) : object ∈ task.tested test := by
  -- Named at least once and never without being counted, the object is counted at least once.
  have positive := List.count_pos_iff.mpr member
  rw [named_count test, counted] at positive
  exact List.count_pos_iff.mp (by simpa using positive)

/-- When the counts agree, the tasks keep alive what they name where each of them counts it. -/
theorem Objects.Balanced.keepsAlive_iff {state : Objects derives ω}
    (balanced : state.Balanced test) :
    state.KeepsAlive ↔ ∀ task ∈ state.tasks, task.untested test = [] := by
  constructor
  · intro keeps task member
    -- The count of an object named without a reference falls short of what it has to be.
    apply List.eq_nil_iff_forall_not_mem.mpr
    intro object named
    have have_ := balanced.counted object
    have should := keeps.counted object
    rw [heldBy_references test] at should
    have none_ : heldBy (PendingTask.untested test) state.tasks object = 0 := by
      unfold references at have_
      omega
    have absent := tally_eq_zero.mp none_ task member
    exact List.count_eq_zero.mp absent named
  · intro counted
    refine ⟨fun object => ?_, fun task member object named => ?_⟩
    · have none_ : heldBy (PendingTask.untested test) state.tasks object = 0 := by
        apply tally_eq_zero.mpr
        intro task member
        simp [counted task member]
      rw [balanced.counted, heldBy_references test, none_]
      rfl
    · -- The task holds a reference to the object, so the object has not been destroyed.
      apply balanced.alive
      have held : 0 < (task.held test).count object := by
        apply List.count_pos_iff.mpr
        exact List.mem_append_right _ (PendingTask.mem_tested (counted task member) named)
      have total : heldBy (PendingTask.held test) state.tasks object ≠ 0 := by
        intro none_
        have absent := tally_eq_zero.mp none_ task member
        omega
      unfold references
      omega

variable {state next : Objects derives ω} {label : ObjectLabel derives ω}

/-- Taking one reference more leaves the other counts of a family as they are. -/
theorem update_add_one (outside : ω → Nat) (object other : ω) :
    Function.update outside object (outside object + 1) other =
      outside other + [object].count other := by
  by_cases same : other = object
  · subst same; simp
  · simp [same, Ne.symm same]

/-- A task that only goes on holds what it held. -/
theorem heldBy_set {tasks : List (PendingTask derives ω)} {i : Nat} {task : PendingTask derives ω}
    (found : tasks[i]? = some task) (phase : Phase) (object : ω) :
    heldBy (PendingTask.held test) (tasks.set i { task with phase := phase }) object =
      heldBy (PendingTask.held test) tasks object := by
  -- What the task holds does not depend on its phase, so the replaced summand is the same.
  have changed := tally_set (fun task => (PendingTask.held test task).count object) found
    { task with phase := phase }
  have same : PendingTask.held test { task with phase := phase } = task.held test := rfl
  simp only [same] at changed
  exact Nat.add_right_cancel changed

/-- Every step keeps the counts in agreement with the references. -/
theorem objectStep_balanced (balanced : state.Balanced test)
    (taken : objectStep test state label = some next) : next.Balanced test := by
  cases label with
  -- A new object has no references yet.
  | create object =>
    simp only [objectStep] at taken
    split at taken
    · cases taken
    · cases taken; exact balanced
  | copy object =>
    simp only [objectStep] at taken
    split at taken
    · rename_i alive
      cases taken
      -- One more reference of the outside, and one more in the count.
      refine (balanced.addRef alive.2).congr fun other => ?_
      simp only [Objects.references, update_add_one]
      omega
    · cases taken
  | drop object =>
    simp only [objectStep] at taken
    split at taken
    · cases taken
    · rename_i some_
      cases taken
      -- There is an outside reference to give back, so the count was at least one.
      refine Heap.Balanced.release (balanced.congr fun other => ?_)
      simp only [Objects.references]
      by_cases same : other = object
      · subst same; simp; omega
      · simp [same, Ne.symm same]
  | requestTask obj target func args =>
    simp only [objectStep] at taken
    split at taken
    · rename_i counted
      split at taken
      · rename_i permitted
        cases taken
        generalize (⟨func :: targetElement obj target counted :: args, .pending⟩ :
          PendingTask derives ω) = task at permitted ⊢
        -- What a request names is alive, and what its task counts is among that.
        have alive : ∀ object ∈ task.held test, state.heap.destroyed object = false := by
          intro object member
          refine (permitted.2 object ?_).2
          rcases List.mem_append.mp member with own | tested
          · exact List.mem_append_right _ own
          · apply List.mem_append_left
            have positive := List.count_pos_iff.mpr tested
            apply List.count_pos_iff.mp
            rw [PendingTask.named_count test]
            omega
        show (task.construct test state.heap).Balanced _
        rw [PendingTask.construct_eq]
        refine (balanced.addAll alive).congr fun other => ?_
        simp only [Objects.references, heldBy, tally_append, tally_cons, tally_nil]
        omega
      · cases taken
    · cases taken
  | invoke i | finish i =>
    simp only [objectStep] at taken
    split at taken
    · rename_i task found
      split at taken
      · cases taken
        -- A task that goes on holds what it held.
        refine balanced.congr fun other => ?_
        simp only [Objects.references]
        rw [heldBy_set found]
      · cases taken
    · cases taken
  | destroy i =>
    simp only [objectStep] at taken
    split at taken
    · rename_i task found
      split at taken
      · cases taken
      · cases taken
        show (task.destruct test state.heap).Balanced _
        rw [PendingTask.destruct_eq]
        -- The destructor body gives back what the test counted, and the tuple what it owns.
        refine Heap.Balanced.releaseAll (Heap.Balanced.releaseAll (balanced.congr fun other => ?_))
        have erased := tally_eraseIdx (fun task => (PendingTask.held test task).count other) found
        simp only [PendingTask.held, List.count_append] at erased
        simp only [Objects.references, heldBy, PendingTask.held, List.count_append]
        omega
    · cases taken

/-- In every run the counts agree with the references. -/
theorem run_balanced {labels : List (ObjectLabel derives ω)}
    (run : Transition.Run (objectStep test) Transition.anyStep (Objects.init derives ω) labels
      state) : state.Balanced test := by
  refine run.invariant ?_ fun _ _ _ balanced _ taken => objectStep_balanced balanced taken
  exact Heap.init_balanced.congr fun _ => rfl

/--
No pointer passes the trait test of the source.

The test is made on the decayed type of the element, which is the pointer type, and a pointer
type derives from nothing.
-/
theorem isRefCountable_pointer {type : CppType κ} (isPointer : type.pointee.isSome = true) :
    isRefCountable derives type = false := by
  unfold CppType.pointee at isPointer
  unfold isRefCountable CppType.ofArg CppType.decay
  rw [show (CppType.lvalueReference type.removeReference).removeReference =
    type.removeReference from rfl]
  -- References are removed first, and what is left may be a pointer, const or not.
  cases plain : type.removeReference with
  | pointer target => rfl
  | const inner =>
    rw [plain] at isPointer
    cases inner with
    | pointer target => rfl
    | _ => simp [CppType.removeCv] at isPointer
  | _ => simp [plain, CppType.removeCv] at isPointer

omit [DecidableEq ω] in
/-- With the trait test of the source, a task counts nothing that it names. -/
theorem PendingTask.untested_isRefCountable (task : PendingTask derives ω) :
    task.untested (isRefCountable derives) = task.named := by
  obtain ⟨args, phase⟩ := task
  induction args with
  | nil => rfl
  | cons element rest ih =>
    simp only [untested, named, List.flatMap_cons] at ih ⊢
    -- An element that names an object has the type of a pointer, which the test does not pass.
    cases names : element.names with
    | none =>
      rw [List.filter_cons]
      split <;> simp [names, ih]
    | some object =>
      have target := element.pointer (by rw [names]; rfl)
      have isPointer : element.type.pointee.isSome = true := by
        cases class_ : element.type.pointee with
        | none => rw [class_] at target; cases target
        | some name => rfl
      rw [List.filter_cons, isRefCountable_pointer isPointer]
      simp [names, ih]

/-- The objects that a request names by its target, its function and its arguments. -/
def ObjectLabel.named : ObjectLabel derives ω → List ω
  | .requestTask _ target func args =>
    func.names.toList ++ target.toList ++ args.flatMap fun element => element.names.toList
  | _ => []

/-- The tasks of the next state are those of the state, up to their phase, and one requested. -/
theorem objectStep_named (taken : objectStep test state label = some next)
    {task : PendingTask derives ω} (member : task ∈ next.tasks) :
    (∃ before ∈ state.tasks, before.named = task.named) ∨ task.named = label.named := by
  cases label with
  | create object | copy object | drop object =>
    simp only [objectStep] at taken
    split at taken
    all_goals cases taken
    exact .inl ⟨task, member, rfl⟩
  | requestTask obj target func args =>
    simp only [objectStep] at taken
    split at taken
    · split at taken
      · cases taken
        rcases List.mem_append.mp member with before | new
        · exact .inl ⟨task, before, rfl⟩
        · -- The task that is requested is new, and names what the request does.
          right
          rw [List.mem_singleton.mp new]
          simp [PendingTask.named, ObjectLabel.named, targetElement]
      · cases taken
    · cases taken
  | invoke i | finish i =>
    simp only [objectStep] at taken
    split at taken
    · rename_i changed found
      split at taken
      · cases taken
        -- The task that goes on is the one at its index, and the others stay.
        rcases List.mem_or_eq_of_mem_set member with before | rfl
        · exact .inl ⟨task, before, rfl⟩
        · exact .inl ⟨changed, List.mem_of_getElem? found, rfl⟩
      · cases taken
    · cases taken
  | destroy i =>
    simp only [objectStep] at taken
    split at taken
    · split at taken
      · cases taken
      · cases taken
        -- A destroyed task is erased, and the others stay.
        exact .inl ⟨task, List.mem_of_mem_eraseIdx member, rfl⟩
    · cases taken

/-- A request puts a task into the next state that names what the request names. -/
theorem objectStep_request (taken : objectStep test state label = some next)
    (names : label.named ≠ []) : ∃ task ∈ next.tasks, task.named = label.named := by
  cases label with
  | requestTask obj target func args =>
    simp only [objectStep] at taken
    split at taken
    · split at taken
      · cases taken
        -- The new task is the last one.
        refine ⟨_, List.mem_append_right _ List.mem_cons_self, ?_⟩
        simp [PendingTask.named, ObjectLabel.named, targetElement]
      · cases taken
    · cases taken
  | _ => exact absurd rfl names

/-- While no request names an object, no task does. -/
theorem run_named {labels : List (ObjectLabel derives ω)}
    (run : Transition.Run (objectStep test) Transition.anyStep (Objects.init derives ω) labels
      state) (nameless : ∀ label ∈ labels, label.named = []) :
    ∀ task ∈ state.tasks, task.named = [] := by
  induction run with
  | refl => intro task member; cases member
  | snoc _ _ taken ih =>
    intro task member
    -- A task was there before the last step, or that step has requested it.
    rcases objectStep_named taken member with ⟨before, found, same⟩ | same
    · rw [← same]
      exact ih (fun label early => nameless label (List.mem_append_left _ early)) before found
    · rw [same]
      exact nameless _ (List.mem_append_right _ List.mem_cons_self)

/--
Throughout a run every task keeps alive what it names exactly when no request names an object.

The trait test counts no pointer, so a task that names an object holds no reference to it.
-/
theorem tasks_keep_alive_iff {labels : List (ObjectLabel derives ω)}
    (run : Transition.Run (objectStep (isRefCountable derives)) Transition.anyStep
      (Objects.init derives ω) labels state) :
    (∀ early middle, early <+: labels →
      Transition.Run (objectStep (isRefCountable derives)) Transition.anyStep
        (Objects.init derives ω) early middle → middle.KeepsAlive) ↔
      ∀ label ∈ labels, label.named = [] := by
  constructor
  · intro kept
    induction run with
    | refl => intro label member; cases member
    | @snoc labels state next last before permitted taken ih =>
      intro label member
      rcases List.mem_append.mp member with early | latest
      · exact ih (fun early middle first => kept early middle (first.trans (by simp))) label early
      · obtain rfl := List.mem_singleton.mp latest
        -- Right after a request that names an object, its task is pending and does not count it.
        have whole := before.snoc permitted taken
        by_contra names
        obtain ⟨task, pending, same⟩ := objectStep_request taken names
        have counted := (run_balanced whole).keepsAlive_iff.mp
          (kept _ _ List.prefix_rfl whole) task pending
        rw [PendingTask.untested_isRefCountable, same] at counted
        exact names counted
  · intro nameless early middle first reached
    apply (run_balanced reached).keepsAlive_iff.mpr
    intro task member
    rw [PendingTask.untested_isRefCountable]
    exact run_named reached (fun label inside => nameless label (first.subset inside)) task member

/-- Two classes, of which the one derives from `RefCountable` and the other is an `ObjectPtr`. -/
abbrev derivesFirst : Bool → Bool := id

/-- A member function, as the first element of a tuple. -/
def memberFunction : Element derivesFirst Nat where
  type := .scalar
  pointer := by simp

/-- An `ObjectPtr` passed by value, which holds a reference of its own. -/
def objectPtr (object : Nat) : Element derivesFirst Nat where
  type := .ofClass false
  owned := [object]
  pointer := by simp

/-- A pointer passed by value. -/
def rawPointer (object : Nat) : Element derivesFirst Nat where
  type := .pointer (.ofClass true)
  names := some object
  pointer := by simp [CppType.pointee, CppType.removeReference, CppType.removeCv]

/-- A task with an `ObjectPtr` argument and no target keeps its argument alive until it ends. -/
theorem tasks_keep_alive_iff_objectPtr :
    ∃ state : Objects derivesFirst Nat,
      ((∀ early middle, early <+: [.create 0, .copy 0,
          .requestTask true none memberFunction [objectPtr 0], .drop 0, .invoke 0, .finish 0] →
        Transition.Run (objectStep (isRefCountable derivesFirst)) Transition.anyStep
          (Objects.init derivesFirst Nat) early middle → middle.KeepsAlive) ↔
        ∀ label ∈ [ObjectLabel.create 0, .copy 0,
          .requestTask true none memberFunction [objectPtr 0], .drop 0, .invoke 0, .finish 0],
          label.named = []) ∧
      state.heap.refCount 0 = 1 ∧ state.outside 0 = 0 := by
  -- The count of the argument comes from the task, which holds it until it is destroyed.
  have executed : (Transition.exec (objectStep (isRefCountable derivesFirst))
      (Objects.init derivesFirst Nat) [.create 0, .copy 0,
        .requestTask true none memberFunction [objectPtr 0], .drop 0, .invoke 0, .finish 0]).any
        fun state => state.heap.refCount 0 = 1 ∧ state.outside 0 = 0 := by decide
  obtain ⟨state, reached, counts⟩ := (Option.any_eq_true _ _).mp executed
  exact ⟨state, tasks_keep_alive_iff (.of_exec reached), of_decide_eq_true counts⟩

/--
A target is destroyed while the task that names it is pending.

The only outside reference is dropped after the request, which counted neither the target nor
the pointer argument.
-/
theorem keep_alive_fails :
    ∃ (labels : List (ObjectLabel derivesFirst Nat)) (state : Objects derivesFirst Nat),
      Transition.Run (objectStep (isRefCountable derivesFirst)) Transition.anyStep
        (Objects.init derivesFirst Nat) labels state ∧
      state.heap.destroyed 0 = true ∧ state.heap.refCount 1 = 1 ∧ state.outside 1 = 1 ∧
      ¬ state.KeepsAlive := by
  -- The target goes away with its last owner, while the task still names it.
  have executed : (Transition.exec (objectStep (isRefCountable derivesFirst))
      (Objects.init derivesFirst Nat) [.create 0, .create 1, .copy 0, .copy 1,
        .requestTask true (some 0) memberFunction [rawPointer 1], .drop 0]).any
        fun state => (state.heap.destroyed 0 = true ∧ state.heap.refCount 1 = 1 ∧
          state.outside 1 = 1) ∧ state.tasks.any fun task => 0 ∈ task.named := by decide
  obtain ⟨state, reached, facts⟩ := (Option.any_eq_true _ _).mp executed
  obtain ⟨⟨gone, count, outside⟩, pending⟩ := of_decide_eq_true facts
  obtain ⟨task, member, named⟩ := List.any_eq_true.mp pending
  refine ⟨_, state, .of_exec reached, gone, count, outside, fun keeps => ?_⟩
  have alive := keeps.alive task member 0 (of_decide_eq_true named)
  rw [gone] at alive
  cases alive

end Braid.Task
