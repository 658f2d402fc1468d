import Braid.Task.Polling

/-! One thread that requests tasks and polls: every task is invoked once, in the order requested. -/

namespace Braid.Task

variable {σ τ : Type} [DecidableEq σ]

/-- The task that a call has created and not yet pushed onto its queue. -/
def Frame.unpushed (serializer : σ) : Frame σ τ → List Nat
  | .pushEmpty target task => if target = serializer then [task.id] else []
  | .pushInsert target task _ => if target = serializer then [task.id] else []
  | _ => []

/-- The tasks that the calls on a stack have created and not yet pushed onto their queue. -/
def unpushed (serializer : σ) (stack : List (Frame σ τ)) : List Nat :=
  stack.flatMap (Frame.unpushed serializer)

@[simp] theorem unpushed_nil (serializer : σ) : unpushed serializer ([] : List (Frame σ τ)) = [] := rfl

@[simp] theorem unpushed_cons (serializer : σ) (frame : Frame σ τ) (rest : List (Frame σ τ)) :
    unpushed serializer (frame :: rest) = frame.unpushed serializer ++ unpushed serializer rest := by
  simp [unpushed]

/-- A waiting call has pushed what it created. -/
theorem unpushed_waiting {P : Frame σ τ → Prop} {slot : Option σ} {frame : Frame σ τ}
    {rest : List (Frame σ τ)} (shape : StackShape P slot (frame :: rest)) (serializer : σ) :
    unpushed serializer rest = [] := by
  refine List.flatMap_eq_nil_iff.mpr fun other member => ?_
  -- No push ever waits for another call.
  have waits := shape.waiting other member
  unfold Frame.waits at waits
  split at waits <;> simp_all [Frame.unpushed]

/-- An invoked task has created nothing yet. -/
theorem unpushed_invokeFrame (program : Program σ τ) (serializer : σ) (func : Func σ τ)
    (rest : List (Frame σ τ)) :
    unpushed serializer (invokeFrame program func ++ rest) = unpushed serializer rest := by
  cases func <;> simp [invokeFrame, Frame.unpushed]

variable {program : Program σ τ} {shared shared' : Shared σ τ} {slot slot' : Option σ}
  {stack stack' : List (Frame σ τ)}

/-- The tasks requested on a serializer are those pushed and the one still to be pushed. -/
def Requested (shared : Shared σ τ) (stack : List (Frame σ τ)) : Prop :=
  ∀ serializer, shared.requested serializer = shared.pushed serializer ++ unpushed serializer stack

/-- A thread that runs alone pushes its tasks in the order in which it requested them. -/
theorem Move.requested (move : Move program shared slot stack shared' slot' stack')
    (stackCalm : CalmStack slot stack) (requested : Requested shared stack) :
    Requested shared' stack' := by
  intro serializer
  have before := requested serializer
  cases move with
  | request =>
    rename_i rest target func
    -- The number of the new task is the last one requested, and the one that waits for its push.
    have waiting := unpushed_waiting stackCalm serializer
    by_cases same : serializer = target
    · subst same
      simp only [unpushed_cons, Frame.unpushed, waiting, List.append_nil] at before
      simp [Frame.unpushed, Shared.afterRequest, waiting, before]
    · simpa [Frame.unpushed, Shared.afterRequest, same, Ne.symm same] using before
  | pushInsertEmpty | pushInsert =>
    rename_i target task
    -- The push moves the number from the hands of the call to the end of what has been pushed.
    have waiting := unpushed_waiting stackCalm serializer
    by_cases same : serializer = target
    · subst same
      simpa [Frame.unpushed, Shared.afterInsert, waiting] using before
    · simpa [Frame.unpushed, Shared.afterInsert, same, Ne.symm same] using before
  | invoke => simpa [Frame.unpushed, Shared.afterStart, unpushed_invokeFrame] using before
  | _ =>
    simpa [Frame.unpushed, Shared.afterDrop, Shared.afterPop, Shared.afterTake, Shared.put] using before

/-- Every task requested so far has a number of its own. -/
structure Numbered (shared : Shared σ τ) : Prop where
  below : ∀ serializer, ∀ id ∈ shared.requested serializer, id < shared.nextId
  distinct : ∀ serializer, (shared.requested serializer).Nodup

/-- A request takes the next number. -/
theorem Numbered.request (numbered : Numbered shared) (target : σ) :
    Numbered (shared.afterRequest target) where
  below := by
    intro serializer id member
    rcases Counting.mem_update_append.mp member with before | ⟨-, rfl⟩
    · exact Nat.lt_succ_of_lt (numbered.below _ _ before)
    · exact Nat.lt_succ_self _
  distinct := by
    intro serializer
    by_cases same : serializer = target
    · subst same
      simp only [Shared.afterRequest, Function.update_self]
      -- The new number is larger than all that were given out before.
      refine List.nodup_append.mpr ⟨numbered.distinct _, by simp, ?_⟩
      rintro id member _ fresh rfl
      have less := numbered.below _ _ member
      simp only [List.mem_singleton] at fresh
      omega
    · simpa [Shared.afterRequest, same] using numbered.distinct serializer

/-- A move keeps the numbers apart. -/
theorem Move.numbered (move : Move program shared slot stack shared' slot' stack')
    (numbered : Numbered shared) : Numbered shared' := by
  cases move with
  | request => exact numbered.request _
  | _ => exact ⟨numbered.below, numbered.distinct⟩

variable {state next : State Unit σ τ} {label : Label Unit σ τ}

/-- What holds at every moment of a program of one thread. -/
structure State.Orderly (state : State Unit σ τ) : Prop where
  calm : state.Calm
  watched : state.Watched
  fresh : Fresh state.shared (state.thread ()).stack
  ordered : ∀ serializer,
    Ordered state.shared serializer (hand serializer (state.thread ()).stack)
  requested : Requested state.shared (state.thread ()).stack
  numbered : Numbered state.shared

/-- A program of one thread starts orderly. -/
theorem State.init_orderly : (State.init Unit σ τ).Orderly where
  calm := State.init_calm
  watched := fun _ some_ => absurd rfl some_
  fresh := by simp [Fresh, State.init]
  ordered := by simp [Ordered, State.init]
  requested := by simp [Requested, State.init]
  numbered := ⟨by simp [State.init], by simp [State.init]⟩

/-- Every step of a program of one thread keeps it orderly. -/
theorem Progress.orderly (harmless : program.Harmless)
    (progress : Progress program state label next) (orderly : state.Orderly) : next.Orderly := by
  have calm := progress.calm harmless orderly.calm
  -- There is no other thread whose pop could come between the test and the insert.
  have timely : state.timely label = true := by
    cases label with
    | run => exact timely_of_fresh orderly.fresh
    | _ => rfl
  have watched := progress.watched timely orderly.watched
  cases progress with
  | call outside | poll outside =>
    -- A first call holds nothing yet.
    have ordered := orderly.ordered
    have requested := orderly.requested
    simp only [outside, Requested, hand_nil, unpushed_nil] at ordered requested
    refine ⟨calm, watched, ?_, fun serializer => ?_, fun serializer => ?_, orderly.numbered⟩
    · simp [Fresh]
    · simpa [Frame.hand] using ordered serializer
    · simpa [Frame.unpushed] using requested serializer
  | run move =>
    rename_i shared' thread'
    have stackCalm := orderly.calm.threads ()
    refine ⟨calm, watched, ?_, fun serializer => ?_, ?_, move.numbered orderly.numbered⟩
    · simpa using move.fresh stackCalm
    · have ordered := move.ordered stackCalm (.inl rfl) (orderly.ordered serializer)
      simpa using ordered
    · simpa using move.requested stackCalm orderly.requested
  | setMinLevel => exact ⟨calm, watched, orderly.fresh, orderly.ordered, orderly.requested,
      ⟨orderly.numbered.below, orderly.numbered.distinct⟩⟩

/-- The tasks of each serializer were invoked in the order of their requests, none twice. -/
def State.InRequestOrder (state : State Unit σ τ) : Prop :=
  ∀ serializer, state.shared.started serializer <+: state.shared.requested serializer ∧
    (state.shared.started serializer).Nodup

/-- Nothing has been left behind: what is not queued in the distributor has been invoked. -/
def State.Complete (state : State Unit σ τ) : Prop :=
  state.Scheduled ∧ (state.shared.serializerQueue .taskDistributor = [] →
    ∀ serializer, state.shared.started serializer = state.shared.requested serializer)

/-- In an orderly state, the tasks of every serializer were invoked in the order of requests. -/
theorem State.Orderly.inRequestOrder (orderly : state.Orderly) : state.InRequestOrder := by
  intro serializer
  have ordered := orderly.ordered serializer
  have requested := orderly.requested serializer
  -- What has been pushed is the front of what was requested, and what was started of that.
  have first : state.shared.started serializer <+: state.shared.requested serializer := by
    rw [requested, ordered, List.append_assoc, List.append_assoc]
    exact List.prefix_append _ _
  exact ⟨first, (orderly.numbered.distinct serializer).sublist first.sublist⟩

/-- Between two calls of an orderly program, nothing has been left behind. -/
theorem State.Orderly.complete (orderly : state.Orderly)
    (outside : (state.thread ()).stack = []) : state.Complete := by
  have quiet : state.Quiet := fun _ => by rw [outside]; rfl
  have scheduled := (watched_iff_scheduled quiet).mp orderly.watched
  refine ⟨scheduled, fun nothing serializer => ?_⟩
  have ordered := orderly.ordered serializer
  have requested := orderly.requested serializer
  -- A queue with tasks would have an entry with the distributor, which has none.
  have empty : state.shared.taskQueue serializer = [] := by
    by_contra some_
    have member := scheduled serializer some_
    rw [nothing] at member
    cases member
  -- All that has been requested is pushed, and all that is pushed has been started.
  rw [requested, ordered, outside, empty]
  simp

/--
A program of one thread invokes every task once, in the order of requests.

No assertion fails, and between two calls every serializer with tasks left is queued in the
distributor, so once that queue is empty every task requested has been invoked.
-/
theorem oneThread_orderly (linked : program.linkage = oneCopy) (harmless : program.Harmless)
    {labels : List (Label Unit σ τ)} {finish : State Unit σ τ}
    (run : Transition.Run (step program) (fun _ label => label.harmless = true)
      (State.init Unit σ τ) labels finish) :
    finish.shared.fault = none ∧ finish.InRequestOrder ∧
      ((finish.thread ()).stack = [] → finish.Complete) := by
  have orderly : finish.Orderly := run.invariant State.init_orderly
    fun _ _ _ holds allowed taken =>
      (step_progress linked holds.calm allowed taken).orderly harmless holds
  exact ⟨orderly.calm.shared.noFault, orderly.inRequestOrder, orderly.complete⟩

/-- A task that requests another one, and the poll that reaches it. -/
theorem oneThread_orderly_chained :
    ∃ finish : State Unit Bool Bool,
      (finish.shared.fault = none ∧ finish.InRequestOrder ∧
        ((finish.thread ()).stack = [] → finish.Complete)) ∧
      (finish.thread ()).stack = [] ∧ finish.shared.started true = [1] := by
  -- The first task requests the second one, which is reached by the poll.
  have executed : (Transition.execWhile (step chained) (fun _ label => label.harmless = true)
      (State.init Unit Bool Bool)
      (.call () (.requestTask false true) :: List.replicate 20 (.run ()) ++
        .poll () :: List.replicate 10 (.run ()))).any
        fun finish => (finish.thread ()).stack.isEmpty &&
          decide (finish.shared.started true = [1]) := by decide
  obtain ⟨finish, reached, done⟩ := (Option.any_eq_true _ _).mp executed
  simp only [Bool.and_eq_true, List.isEmpty_iff, decide_eq_true_eq] at done
  exact ⟨finish, oneThread_orderly rfl chained_harmless (.of_execWhile reached), done⟩

end Braid.Task
