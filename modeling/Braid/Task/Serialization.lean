import Braid.Task.Charge

/-! Tasks of one serializer run one at a time, and in order, while every serializer has one owner. -/

namespace Braid.Task

variable {ι σ τ : Type} [DecidableEq σ]

/-- A call of the process loop that is between the pop and the end of invoke. -/
def Frame.handles (serializer : σ) : Frame σ τ → Bool
  | .process .invoke locals => locals.serializer = serializer
  | .process .running locals => locals.serializer = serializer
  | _ => false

/-- A thread is between the pop and the end of invoke of a task of the serializer. -/
def Thread.handles (thread : Thread σ τ) (serializer : σ) : Bool :=
  thread.stack.any (Frame.handles serializer)

/-- No two threads handle tasks of the same serializer. -/
def State.Exclusive (state : State ι σ τ) : Prop :=
  ∀ serializer first second, (state.thread first).handles serializer = true →
    (state.thread second).handles serializer = true → first = second

/-- The tasks of each serializer have been started in the order in which they were pushed. -/
def State.InOrder (state : State ι σ τ) : Prop :=
  ∀ serializer, state.shared.started serializer <+: state.shared.pushed serializer

/-- The tasks of a serializer that a call has popped and not started. -/
def Frame.hand (serializer : σ) : Frame σ τ → List Nat
  | .process .invoke locals =>
    if locals.serializer = serializer then (locals.task.map ITask.id).toList else []
  | _ => []

/-- The tasks of a serializer that the calls on a stack have popped and not started. -/
def hand (serializer : σ) (stack : List (Frame σ τ)) : List Nat :=
  stack.flatMap (Frame.hand serializer)

@[simp] theorem hand_nil (serializer : σ) : hand serializer ([] : List (Frame σ τ)) = [] := rfl

@[simp] theorem hand_cons (serializer : σ) (frame : Frame σ τ) (rest : List (Frame σ τ)) :
    hand serializer (frame :: rest) = frame.hand serializer ++ hand serializer rest := by
  simp [hand]

/-- A waiting call has started what it popped. -/
theorem hand_waiting {P : Frame σ τ → Prop} {slot : Option σ} {frame : Frame σ τ}
    {rest : List (Frame σ τ)} (shape : StackShape P slot (frame :: rest)) (serializer : σ) :
    hand serializer rest = [] := by
  refine List.flatMap_eq_nil_iff.mpr fun other member => ?_
  -- A waiting call is past its start, which is where the hand of a loop is empty.
  have waits := shape.waiting other member
  unfold Frame.waits at waits
  split at waits <;> simp_all [Frame.hand]

/-- An invoked task has popped nothing yet. -/
theorem hand_invokeFrame (program : Program σ τ) (serializer : σ) (func : Func σ τ)
    (rest : List (Frame σ τ)) :
    hand serializer (invokeFrame program func ++ rest) = hand serializer rest := by
  cases func <;> simp [invokeFrame, Frame.hand]

/-- A call that handles a task, or holds a popped one, is in charge of the serializer. -/
theorem charge_of_handles {serializer : σ} {stack : List (Frame σ τ)}
    (handles : stack.any (Frame.handles serializer) = true) : 1 ≤ charge serializer stack := by
  obtain ⟨frame, member, holds⟩ := List.any_eq_true.mp handles
  -- The frame that handles the task is one of those that are counted.
  have charged : 1 ≤ frame.charge serializer := by
    unfold Frame.handles at holds
    split at holds <;> simp_all [Frame.charge]
  exact charged.trans (List.single_le_sum (by simp) _ (List.mem_map_of_mem member))

/-- A thread that is not in charge of a serializer holds no task of it. -/
theorem hand_of_charge {serializer : σ} {stack : List (Frame σ τ)}
    (free : charge serializer stack = 0) : hand serializer stack = [] := by
  induction stack with
  | nil => rfl
  | cons frame rest ih =>
    rw [charge_cons] at free
    have below := ih (by omega)
    -- A frame without a charge is no loop between a pop and a start.
    have nothing : frame.hand serializer = [] := by
      unfold Frame.hand
      split <;> simp_all [Frame.charge]
    simp [nothing, below]

variable {program : Program σ τ} {shared shared' : Shared σ τ} {slot slot' : Option σ}
  {stack stack' : List (Frame σ τ)}

/-- The tasks of a serializer that were pushed are those started, those in hand, those queued. -/
def Ordered (shared : Shared σ τ) (serializer : σ) (inHand : List Nat) : Prop :=
  shared.pushed serializer =
    shared.started serializer ++ inHand ++ (shared.taskQueue serializer).map ITask.id

/--
A move keeps the order of the tasks of a serializer.

Other threads may hold popped tasks of it, unless the moving thread starts one.
-/
theorem Move.ordered (move : Move program shared slot stack shared' slot' stack')
    (stackCalm : CalmStack slot stack) {serializer : σ} {others : List Nat}
    (sole : others = [] ∨ hand serializer stack = [])
    (ordered : Ordered shared serializer (others ++ hand serializer stack)) :
    Ordered shared' serializer (others ++ hand serializer stack') := by
  unfold Ordered at ordered ⊢
  cases move with
  -- These neither push nor pop nor start.
  | callsDone | callRequest | callLogFiltered | callLog | request | pollNothing | poll | enter
  | turn | turnLast | state | exit | popNothing | handOverInline | handOverAdd | pushEmpty
  | emptyExit | emptyRequeue | requeue =>
    simpa [Frame.hand, Shared.afterRequest, Shared.afterDrop, Shared.afterTake, Shared.put]
      using ordered
  | pushInsertEmpty | pushInsert =>
    rename_i rest target task
    -- The pushed task goes to the end of its queue and of the record of pushes alike.
    by_cases same : serializer = target
    · subst same
      simp only [hand_cons, Frame.hand, List.nil_append] at ordered
      simp [Frame.hand, Shared.afterInsert, ordered]
    · simpa [Frame.hand, Shared.afterInsert, same] using ordered
  | pop first =>
    rename_i rest locals task queued
    -- The first queued task becomes the one in hand.
    have waiting := hand_waiting stackCalm serializer
    by_cases same : serializer = locals.serializer
    · subst same
      simp only [hand_cons, Frame.hand, waiting, first, List.append_nil] at ordered
      simp [Frame.hand, Shared.afterPop, Shared.afterDrop, waiting, ordered]
    · simpa [Frame.hand, Shared.afterPop, Shared.afterDrop, same, Ne.symm same] using ordered
  | invoke popped =>
    rename_i rest locals task
    obtain ⟨_, _, _, _, counted⟩ := stackCalm.top
    have target := (counted task popped).1
    have waiting := hand_waiting stackCalm serializer
    by_cases same : serializer = locals.serializer
    · subst same
      -- The starting thread holds a task, so the others hold none of this serializer.
      have alone : others = [] := by simpa [Frame.hand, popped] using sole
      simp only [hand_cons, Frame.hand, popped, waiting, alone, List.append_nil,
        List.nil_append, if_true] at ordered
      simp [Frame.hand, Shared.afterStart, hand_invokeFrame, waiting, target, alone, ordered]
    · simpa [Frame.hand, Shared.afterStart, hand_invokeFrame, same, Ne.symm same, target]
        using ordered

variable {state next : State ι σ τ} {label : Label ι σ τ}

/-- The tasks of a serializer held by one thread, or by none. -/
def State.held (state : State ι σ τ) (serializer : σ) : Option ι → List Nat
  | none => []
  | some holder => hand serializer (state.thread holder).stack

/-- No thread but the one named holds tasks of a serializer. -/
def State.HeldBy (state : State ι σ τ) (serializer : σ) (holder : Option ι) : Prop :=
  ∀ other, some other ≠ holder → hand serializer (state.thread other).stack = []

/-- Whoever holds the tasks of a serializer, they are in order. -/
def State.Sequential (state : State ι σ τ) : Prop :=
  ∀ serializer holder, state.HeldBy serializer holder →
    Ordered state.shared serializer (state.held serializer holder)

/-- Where a step changes no hand and neither record nor queue, the order is as it was. -/
theorem State.Sequential.congr (sequential : state.Sequential)
    (shared : next.shared = state.shared)
    (hands : ∀ serializer other, hand serializer (next.thread other).stack =
      hand serializer (state.thread other).stack) : next.Sequential := by
  intro serializer holder heldBy
  -- Whoever holds the tasks after the step held the same tasks before it.
  have before := sequential serializer holder fun other different =>
    hands serializer other ▸ heldBy other different
  cases holder with
  | none => exact shared ▸ before
  | some holder => simpa only [State.held, shared, hands] using before

/-- A thread that makes its first call holds no more tasks than before. -/
theorem hand_first [DecidableEq ι] {at_ : ι} {frame : Frame σ τ} (outside : (state.thread at_).stack = [])
    {serializer : σ} (nothing : frame.hand serializer = []) (other : ι) :
    hand serializer ((state.withThread at_ state.shared
      { state.thread at_ with stack := [frame] }).thread other).stack =
    hand serializer (state.thread other).stack := by
  by_cases same : other = at_
  · subst same; simp [outside, nothing]
  · rw [State.withThread_other same]

variable [Fintype ι]

/--
The emptiness test of a push finds the queue empty only where nobody is in charge of it.

This is what `push` takes for granted when it hands the serializer over.
-/
def State.soleOwner (state : State ι σ τ) (label : Label ι σ τ) : Bool :=
  match state.acting label with
  | .pushEmpty serializer _ :: _ =>
    !(state.shared.taskQueue serializer).isEmpty || state.inCharge serializer == 0
  | _ => true

/-- The steps that call no `set_destroy` and take charge only of what nobody is in charge of. -/
def ownedStep (state : State ι σ τ) (label : Label ι σ τ) : Prop :=
  label.harmless = true ∧ state.soleOwner label = true

instance (state : State ι σ τ) (label : Label ι σ τ) : Decidable (ownedStep state label) :=
  inferInstanceAs (Decidable (_ ∧ _))

/-- A step that claims a serializer claims one that nobody is in charge of. -/
theorem claims_of_soleOwner (sole : state.soleOwner label = true) (serializer : σ) :
    claims state.shared serializer (state.acting label) = 0 ∨
      (claims state.shared serializer (state.acting label) = 1 ∧ state.inCharge serializer = 0) := by
  unfold State.soleOwner at sole
  cases acting : state.acting label with
  | nil => exact .inl rfl
  | cons frame rest =>
    rw [acting] at sole
    -- Only the emptiness test of a push claims, and only what it finds empty.
    cases frame with
    | pushEmpty target task =>
      simp only [claims]
      split
      · rename_i claimed
        obtain ⟨rfl, empty⟩ := claimed
        exact .inr ⟨rfl, by simpa [empty] using sole⟩
      · exact .inl rfl
    | _ => exact .inl rfl

/-- What holds in every state of a run in which each serializer has one owner. -/
structure State.Serialized (state : State ι σ τ) : Prop where
  calm : state.Calm
  owned : ∀ serializer, state.inCharge serializer ≤ 1
  sequential : state.Sequential

/-- At the start nobody is in charge of anything. -/
theorem State.init_serialized : (State.init ι σ τ).Serialized where
  calm := State.init_calm
  owned := by simp [State.inCharge, State.init]
  sequential := by
    intro serializer holder _
    cases holder <;> simp [Ordered, State.held, State.init]

variable [DecidableEq ι]

/-- A serializer with one owner at most is handled by one thread at most. -/
theorem exclusive_of_inCharge (owned : ∀ serializer, state.inCharge serializer ≤ 1) :
    state.Exclusive := by
  intro serializer first second firstHandles secondHandles
  by_contra different
  -- Two threads that handle tasks of one serializer add up to a charge of two.
  have total := Counting.add_le_sum Finset.univ
    (fun at_ => charge serializer (state.thread at_).stack) (Finset.mem_univ first)
    (Finset.mem_univ second) different
  have firstCharge := charge_of_handles firstHandles
  have secondCharge := charge_of_handles secondHandles
  have bound := owned serializer
  simp only [State.inCharge] at bound
  omega

/-- Where one thread holds tasks of a serializer with one owner, no other thread does. -/
theorem hand_sole {serializer : σ} (owned : state.inCharge serializer ≤ 1) {holder other : ι}
    (holds : hand serializer (state.thread holder).stack ≠ []) (different : other ≠ holder) :
    hand serializer (state.thread other).stack = [] := by
  refine hand_of_charge ?_
  -- The holder takes up the only charge, so nothing is left for another thread.
  have charged : charge serializer (state.thread holder).stack ≠ 0 := fun free =>
    holds (hand_of_charge free)
  have total := Counting.add_le_sum Finset.univ
    (fun at_ => charge serializer (state.thread at_).stack) (Finset.mem_univ other)
    (Finset.mem_univ holder) different
  simp only [State.inCharge] at owned
  omega

/-- A step keeps the tasks of serializers with one owner in order. -/
theorem Progress.sequential (progress : Progress program state label next) (calm : state.Calm)
    (owned : ∀ serializer, state.inCharge serializer ≤ 1) (sequential : state.Sequential) :
    next.Sequential := by
  cases progress with
  | call outside _ =>
    -- A first call holds nothing, and the queues stay as they are.
    refine sequential.congr rfl fun serializer other => ?_
    exact hand_first outside rfl other
  | poll outside =>
    refine sequential.congr rfl fun serializer other => ?_
    exact hand_first outside rfl other
  | setMinLevel => exact sequential
  | run move =>
    rename_i at_ shared' thread'
    -- The order after the move, for what another thread or no thread holds besides the moving one.
    have moved : ∀ serializer (others : List Nat),
        (others = [] ∨ hand serializer (state.thread at_).stack = []) →
        Ordered state.shared serializer (others ++ hand serializer (state.thread at_).stack) →
        Ordered shared' serializer (others ++ hand serializer thread'.stack) :=
      fun serializer others sole => move.ordered (calm.threads at_) sole
    -- Where the moving thread is the holder, its move says it directly.
    have mine : ∀ serializer, (state.withThread at_ shared' thread').HeldBy serializer (some at_) →
        Ordered shared' serializer (hand serializer thread'.stack) := by
      intro serializer heldBy
      refine moved serializer [] (.inl rfl) (sequential serializer (some at_) fun other different => ?_)
      have nothing := heldBy other different
      rwa [State.withThread_other (by simpa using different)] at nothing
    intro serializer holder heldBy
    by_cases self : holder = some at_
    · subst self
      simpa [State.held] using mine serializer heldBy
    · -- Otherwise the moving thread ends up with nothing in hand.
      have empty : hand serializer thread'.stack = [] := by
        have nothing := heldBy at_ (Ne.symm self)
        simpa using nothing
      cases holder with
      | none =>
        have ordered := mine serializer fun other _ => heldBy other (by simp)
        simpa [State.held, empty] using ordered
      | some holder =>
        have different : holder ≠ at_ := fun same => self (by rw [same])
        simp only [State.held, State.withThread_other different, State.withThread_shared]
        by_cases started : hand serializer (state.thread at_).stack = []
        · -- The moving thread had nothing in hand before, so the order was that of the holder.
          have before := sequential serializer (some holder) fun other others => by
            by_cases same : other = at_
            · exact same ▸ started
            · have nothing := heldBy other others
              rwa [State.withThread_other same] at nothing
          have after := moved serializer _ (.inr started) (by simpa [started] using before)
          simpa [empty, State.held] using after
        · -- The moving thread was the holder, and has just started its task.
          have nothing := hand_sole (owned serializer) started different
          have ordered := mine serializer fun other others => by
            have other_ : other ≠ at_ := by simpa using others
            rw [State.withThread_other other_]
            exact hand_sole (owned serializer) started other_
          simpa [nothing, empty] using ordered

/-- With one owner for every serializer, the tasks have been started in order. -/
theorem inOrder_of_sequential (owned : ∀ serializer, state.inCharge serializer ≤ 1)
    (sequential : state.Sequential) : state.InOrder := by
  intro serializer
  have ordered : ∃ inHand, Ordered state.shared serializer inHand := by
    -- Either some thread holds tasks, and then it is the only one, or none does.
    by_cases held : ∃ holder, hand serializer (state.thread holder).stack ≠ []
    · obtain ⟨holder, holds⟩ := held
      refine ⟨_, sequential serializer (some holder) fun other different => ?_⟩
      exact hand_sole (owned serializer) holds (by simpa using different)
    · refine ⟨_, sequential serializer none fun other _ => ?_⟩
      by_contra holds
      exact held ⟨other, holds⟩
  obtain ⟨inHand, ordered⟩ := ordered
  rw [ordered, List.append_assoc]
  exact List.prefix_append _ _

/-- A step that takes charge only of what nobody is in charge of keeps every serializer owned. -/
theorem ownedStep_serialized (linked : program.linkage = oneCopy) (harmless : program.Harmless)
    (serialized : state.Serialized) (permitted : ownedStep state label)
    (taken : step program state label = some next) : next.Serialized := by
  have progress := step_progress linked serialized.calm permitted.1 taken
  refine ⟨progress.calm harmless serialized.calm, fun serializer => ?_,
    progress.sequential serialized.calm serialized.owned serialized.sequential⟩
  -- The charge grows by what the step claims, which was in nobody's charge.
  have changed := progress.inCharge serializer
  have owned := serialized.owned serializer
  rcases claims_of_soleOwner permitted.2 serializer with nothing | ⟨claimed, nobody⟩ <;> omega

/--
While a push takes over only what nobody is in charge of, tasks are serialized.

No two threads are ever between the pop and the end of invoke of tasks of one serializer, and the
tasks of each serializer start in the order in which they were pushed.
-/
theorem serialized_of_soleOwner {labels : List (Label ι σ τ)} {finish : State ι σ τ}
    (linked : program.linkage = oneCopy) (harmless : program.Harmless)
    (run : Transition.Run (step program) ownedStep (State.init ι σ τ) labels finish) :
    finish.Exclusive ∧ finish.InOrder := by
  have serialized : finish.Serialized := run.invariant State.init_serialized
    fun _ _ _ holds permitted taken => ownedStep_serialized linked harmless holds permitted taken
  exact ⟨exclusive_of_inCharge serialized.owned,
    inOrder_of_sequential serialized.owned serialized.sequential⟩

/-- A program over one serializer whose tasks make no calls. -/
def plainTasks : Program Unit Unit where
  body := fun _ => []
  logHandler := ()
  linkage := oneCopy

/-- A thread requests a task, and takes steps. -/
def requests (thread : Fin 2) (steps : Nat) : List (Label (Fin 2) Unit Unit) :=
  .call thread (.requestTask () ()) :: List.replicate steps (.run thread)

/-- The second thread pushes after the first one found the queue empty, and before it pops. -/
theorem serialized_of_soleOwner_handOver :
    ∃ finish : State (Fin 2) Unit Unit,
      (finish.Exclusive ∧ finish.InOrder) ∧ finish.shared.started () = [0, 1] := by
  have executed : (Transition.execWhile (step plainTasks) ownedStep (State.init (Fin 2) Unit Unit)
      (requests 0 4 ++ requests 1 5 ++ List.replicate 8 (.run 0))).any
        fun finish => finish.shared.started () = [0, 1] := by decide
  obtain ⟨finish, reached, started⟩ := (Option.any_eq_true _ _).mp executed
  exact ⟨finish, serialized_of_soleOwner rfl (by simp [Program.Harmless, plainTasks])
    (.of_execWhile reached), by simpa using started⟩

/--
Two threads that find the queue of a serializer empty both process it.

The first one has popped its task when the second one tests, pushes, pops and starts its own.
-/
theorem serialization_fails :
    ∃ (labels : List (Label (Fin 2) Unit Unit)) (finish : State (Fin 2) Unit Unit),
      Transition.Run (step plainTasks) (fun _ label => label.harmless = true)
        (State.init (Fin 2) Unit Unit) labels finish ∧
      ¬ finish.Exclusive ∧ ¬ finish.InOrder := by
  have executed : (Transition.execWhile (step plainTasks) (fun _ label => label.harmless = true)
      (State.init (Fin 2) Unit Unit) (requests 0 7 ++ requests 1 8)).any
        fun finish => (finish.thread 0).handles () && (finish.thread 1).handles () &&
          decide ¬ finish.shared.started () <+: finish.shared.pushed () := by decide
  obtain ⟨finish, reached, both⟩ := (Option.any_eq_true _ _).mp executed
  simp only [Bool.and_eq_true, decide_eq_true_eq] at both
  refine ⟨_, finish, .of_execWhile reached, fun exclusive => ?_, fun inOrder => both.2 (inOrder ())⟩
  exact absurd (exclusive () 0 1 both.1.1 both.1.2) (by decide)

end Braid.Task
