import Braid.Task.Delivery
import Braid.Task.Serialization

/-! Polling starts every task whose serializer is queued in the distributor. -/

namespace Braid.Task

variable {ι σ τ : Type}

/-- The first call on a stack is the process loop of a serializer. -/
def Bottom (first : σ) (stack : List (Frame σ τ)) : Prop :=
  ∀ frame, stack.getLast? = some frame →
    ∃ point locals, frame = .process point locals ∧ locals.serializer = first

/-- Calls come and go above the process loop. -/
theorem Bottom.replace {first : σ} {frame : Frame σ τ} {rest : List (Frame σ τ)}
    (bottom : Bottom first (frame :: rest)) (other : frame.process? = none)
    (calls : List (Frame σ τ)) : Bottom first (calls ++ rest) := by
  cases rest with
  | nil =>
    -- With nothing below it, the popped frame would be the process loop itself, which it is not.
    obtain ⟨point, locals, rfl, _⟩ := bottom frame rfl
    cases other
  | cons below rest =>
    -- Otherwise the bottom frame stays where it is, whatever stands above it.
    intro last found
    refine bottom last ?_
    rw [List.getLast?_append_of_ne_nil _ (by simp)] at found
    simpa using found

/-- The process loop goes on, with the calls that its task makes above it. -/
theorem Bottom.advance {first : σ} {point next : ProcessPoint} {locals after : ProcessLocals σ τ}
    {rest : List (Frame σ τ)} (bottom : Bottom first (.process point locals :: rest))
    (same : after.serializer = locals.serializer) (calls : List (Frame σ τ)) :
    Bottom first (calls ++ .process next after :: rest) := by
  intro last found
  rw [List.getLast?_append_of_ne_nil _ (by simp)] at found
  cases rest with
  -- The loop is the bottom frame, and its next point still serves the same serializer.
  | nil =>
    obtain ⟨_, _, shape, own⟩ := bottom _ rfl
    obtain ⟨rfl, rfl⟩ := Frame.process.inj shape
    cases found
    exact ⟨next, after, rfl, same.trans own⟩
  -- A loop deeper down is untouched by what happens above it.
  | cons below rest => exact bottom last (by simpa using found)

/-- The calls below the top are those of the same process loop. -/
theorem Bottom.below {first : σ} {frame : Frame σ τ} {rest : List (Frame σ τ)}
    (bottom : Bottom first (frame :: rest)) : Bottom first rest := by
  intro last found
  cases rest with
  -- An empty stack has no bottom frame to speak of.
  | nil => cases found
  | cons below rest => exact bottom last (by simpa using found)

variable [DecidableEq σ] {program : Program σ τ} {shared shared' : Shared σ τ}
  {slot slot' : Option σ} {stack stack' : List (Frame σ τ)}

/-- A move keeps the process loop that a thread is in. -/
theorem Move.bottom (move : Move program shared slot stack shared' slot' stack') {first : σ}
    (bottom : Bottom first stack) : Bottom first stack' := by
  cases move with
  -- These moves only pop the top frame.
  | callsDone | pushInsert | handOverAdd | pollNothing | exit => exact bottom.below
  -- These put other calls in its place, and those two put two of them.
  | callRequest => exact bottom.replace rfl [_, _]
  | callLog => exact bottom.replace rfl [_, _]
  | callLogFiltered | request | pushEmpty | pushInsertEmpty | handOverInline | poll =>
    exact bottom.replace rfl [_]
  -- These are the points of the process loop itself.
  | enter | popNothing | pop | turn | turnLast | state | emptyExit | emptyRequeue | requeue =>
    exact bottom.advance (by rfl) []
  | invoke => exact bottom.advance rfl _

/-- A move of a thread in the process loop takes nothing off the distributor's queue. -/
theorem Move.queue_prefix (move : Move program shared slot stack shared' slot' stack')
    (stackCalm : CalmStack slot stack) {first : σ} (bottom : Bottom first stack)
    {entries : List σ} (queued : entries <+: shared.serializerQueue .taskDistributor) :
    entries <+: shared'.serializerQueue .taskDistributor := by
  cases move with
  | handOverAdd | requeue =>
    -- An entry added goes to the end, behind every entry already queued.
    exact queued.trans (by simp [Shared.put])
  | poll =>
    -- A poll is the first call of its thread.
    have below := stackCalm.alone _ _ rfl
    subst below
    obtain ⟨_, _, shape, _⟩ := bottom _ rfl
    cases shape
  | _ => exact queued

/--
A task of a serializer has been started, or is in hand, or is queued with few tasks before it.
-/
def Due (shared : Shared σ τ) (stack : List (Frame σ τ)) (serializer : σ) (id place : Nat) : Prop :=
  id ∈ shared.started serializer ∨ id ∈ hand serializer stack ∨
    ∃ before after, (shared.taskQueue serializer).map ITask.id = before ++ id :: after ∧
      before.length < place

/-- What has been started stays started. -/
theorem Move.started (move : Move program shared slot stack shared' slot' stack')
    {serializer : σ} {id : Nat} (started : id ∈ shared.started serializer) :
    id ∈ shared'.started serializer := by
  cases move with
  | invoke popped =>
    rename_i task
    by_cases same : serializer = task.target
    · -- The record of its own serializer grows by one entry, and the others stay.
      subst same; simp [Shared.afterStart, started]
    · simpa [Shared.afterStart, same] using started
  | _ => exact started

/-- A task in hand is started by the next move of its thread. -/
theorem Move.hand (move : Move program shared slot stack shared' slot' stack')
    (stackCalm : CalmStack slot stack) {serializer : σ} {id : Nat}
    (held : id ∈ hand serializer stack) : id ∈ shared'.started serializer := by
  cases move with
  -- Invoking is the move that starts the task in hand, and no other move has one.
  | invoke popped =>
    rename_i rest locals task
    obtain ⟨_, _, _, _, counted⟩ := stackCalm.top
    have target := (counted task popped).1
    simp only [hand_cons, hand_waiting stackCalm, Frame.hand, popped, List.append_nil] at held
    split at held
    · -- The task was counted for the serializer of its loop, so that is where it is started.
      rename_i own
      have same : id = task.id := by simpa using held
      simp [Shared.afterStart, target, own, same]
    · cases held
  | _ => simp [hand_waiting stackCalm, Frame.hand] at held

/-- A move brings a queued task no further back. -/
theorem Move.due (move : Move program shared slot stack shared' slot' stack')
    (stackCalm : CalmStack slot stack) {serializer : σ} {id place : Nat}
    (due : Due shared stack serializer id place) : Due shared' stack' serializer id place := by
  rcases due with started | held | ⟨before, after, queued, short⟩
  · -- What was started or in hand is started by now.
    exact .inl (move.started started)
  · exact .inl (move.hand stackCalm held)
  · -- A queued task moves only if its queue does: by a push behind it, or a pop in front of it.
    rcases move.taskQueue serializer with same | ⟨task, _, _, _, pushed⟩ |
      ⟨locals, rest, task, _, own, next, popped⟩
    · exact .inr (.inr ⟨before, after, same ▸ queued, short⟩)
    · exact .inr (.inr ⟨before, after ++ [task.id], by simp [pushed, queued], short⟩)
    · rw [popped, List.map_cons] at queued
      cases before with
      -- It was itself the popped task.
      | nil =>
        obtain ⟨same, _⟩ := List.cons.inj queued
        exact .inr (.inl (by simp [next, Frame.hand, own, same]))
      -- Another task was popped, and one fewer is left before it.
      | cons first before =>
        obtain ⟨_, remains⟩ := List.cons.inj queued
        exact .inr (.inr ⟨before, after, remains, by simp at short; omega⟩)

/-- The process loop of a serializer is about to pop for the first time. -/
def Opening (first : σ) (stack : List (Frame σ τ)) : Prop :=
  ∃ point locals, stack = [.process point locals] ∧ locals.serializer = first ∧
    (point = .enter ∨ point = .pop)

/-- The first pop of a serializer brings each of its queued tasks one place forward. -/
theorem Move.opening (move : Move program shared slot stack shared' slot' stack')
    (stackCalm : CalmStack slot stack) {first : σ} {id place : Nat} (opening : Opening first stack)
    (due : Due shared stack first id (place + 1)) :
    Opening first stack' ∨ Due shared' stack' first id place := by
  obtain ⟨point, locals, rfl, rfl, at_⟩ := opening
  cases move with
  -- Entering the loop only reaches the first pop.
  | enter => exact .inl ⟨.pop, locals, rfl, rfl, .inr rfl⟩
  -- A first pop that finds nothing has no queued task to serve.
  | popNothing none_ =>
    rcases due with started | held | ⟨before, after, queued, _⟩
    · exact .inr (.inl started)
    · simp [Frame.hand] at held
    · simp [none_] at queued
  | pop popped =>
    rename_i task others
    rcases due with started | held | ⟨before, after, queued, short⟩
    · exact .inr (.inl started)
    · simp [Frame.hand] at held
    · rw [popped, List.map_cons] at queued
      cases before with
      | nil =>
        obtain ⟨same, _⟩ := List.cons.inj queued
        exact .inr (.inr (.inl (by simp [Frame.hand, same])))
      | cons head before =>
        obtain ⟨_, remains⟩ := List.cons.inj queued
        refine .inr (.inr (.inr ⟨before, after, ?_, by simp at short; omega⟩))
        simpa [Shared.afterDrop, Shared.afterPop] using remains
  | _ => simp at at_

/-- A push that found the queue not empty finds it so when it adds its task. -/
def Fresh (shared : Shared σ τ) (stack : List (Frame σ τ)) : Prop :=
  ∀ serializer task rest, stack = .pushInsert serializer task false :: rest →
    shared.taskQueue serializer ≠ []

/-- A thread that runs alone adds its task right after its emptiness test. -/
theorem Move.fresh (move : Move program shared slot stack shared' slot' stack')
    (stackCalm : CalmStack slot stack) : Fresh shared' stack' := by
  have waits := stackCalm.waiting
  intro serializer task rest same
  -- The case is split on the move that has left an insert on top.
  cases move with
  | callsDone | pushInsert | handOverAdd | pollNothing | exit =>
    -- A frame uncovered by a pop would be a waiting insert, and no insert ever waits.
    subst same
    have waiting := waits (.pushInsert serializer task false) (by simp)
    cases waiting
  | pushEmpty =>
    -- The test itself found the queue in the state that the insert now finds.
    simp only [List.cons.injEq, Frame.pushInsert.injEq, List.isEmpty_eq_false_iff] at same
    exact same.1.1 ▸ same.1.2.2
  | invoke popped =>
    rename_i task
    generalize task.func = func at same
    cases func <;> simp [invokeFrame] at same
  | _ => simp at same

/-- A poll takes the first serializer off the distributor's queue. -/
theorem Move.polled {distributor : SourceFile} {first : σ} {entries : List σ}
    (move : Move program shared slot [.poll distributor] shared' slot' stack')
    (head : shared.serializerQueue .taskDistributor = first :: entries) :
    shared' = shared.afterTake entries ∧
      stack' = [.process .enter { distributor := .taskDistributor, serializer := first }] := by
  cases move <;> simp_all

variable [Fintype ι]

/--
A thread is inside of the process loop of the serializer it has polled, while the others are quiet.

The entries behind the polled one are still queued, and a task of some serializer has come
no further back, or one place forward if the serializer is the polled one.
-/
structure Round (at_ : ι) (first : σ) (entries : List σ) (serializer : σ) (id place : Nat)
    (state : State ι σ τ) : Prop where
  calm : state.Calm
  quiet : ∀ other, other ≠ at_ → (state.thread other).stack.all Frame.quiet = true
  fresh : Fresh state.shared (state.thread at_).stack
  watched : state.Watched
  bottom : Bottom first (state.thread at_).stack
  queued : entries <+: state.shared.serializerQueue .taskDistributor
  due : Due state.shared (state.thread at_).stack serializer id (place + 1)
  served : first = serializer → Opening first (state.thread at_).stack ∨
    Due state.shared (state.thread at_).stack serializer id place

variable {state next : State ι σ τ} {label : Label ι σ τ}

/-- A thread whose pushes are fresh takes timely steps. -/
theorem timely_of_fresh {at_ : ι} (fresh : Fresh state.shared (state.thread at_).stack) :
    state.timely (.run at_) = true := by
  unfold State.timely
  -- Only an insert that was told of a queue with tasks can be late, and this one is not.
  split
  · rename_i top
    simp [fresh _ _ _ top]
  · rfl

variable [DecidableEq ι]

/-- Every step of the polling thread keeps the round. -/
theorem Round.step (linked : program.linkage = oneCopy) (harmless : program.Harmless) {at_ : ι}
    {first serializer : σ} {entries : List σ} {id place : Nat}
    (round : Round at_ first entries serializer id place state)
    (taken : step program state (.run at_) = some next) :
    Round at_ first entries serializer id place next := by
  -- The global invariants do not mention the round, and any step of a harmless run keeps them.
  have progress := step_progress linked round.calm rfl taken
  have calm := progress.calm harmless round.calm
  have watched := progress.watched (timely_of_fresh round.fresh) round.watched
  have stackCalm := round.calm.threads at_
  cases progress with
  | run move =>
    rename_i shared' thread'
    refine ⟨calm, fun other different => ?_, ?_, watched, ?_, ?_, ?_, fun same => ?_⟩
    · -- Only the stack of the polling thread changes.
      rw [State.withThread_other different]; exact round.quiet other different
    · simpa using move.fresh stackCalm
    · simpa using move.bottom round.bottom
    · exact move.queue_prefix stackCalm round.bottom round.queued
    · simpa using move.due stackCalm round.due
    · subst same
      -- A polled serializer that is served already stays served, so only the opening moves on.
      rcases round.served rfl with opening | due
      · simpa using move.opening stackCalm opening round.due
      · exact .inr (by simpa using move.due stackCalm due)

/-- The steps of one thread that only polls. -/
def polls (at_ : ι) (_ : State ι σ τ) (label : Label ι σ τ) : Prop :=
  label = .poll at_ ∨ label = .run at_

/-- A calm and quiet state with every serializer that has tasks queued, and a thread that may poll. -/
structure Ready (at_ : ι) (state : State ι σ τ) : Prop where
  calm : state.Calm
  quiet : state.Quiet
  outside : (state.thread at_).stack = []
  scheduled : state.Scheduled

/-- A poll begins a round. -/
theorem Ready.poll {at_ : ι} (ready : Ready at_ state) (linked : program.linkage = oneCopy)
    (harmless : program.Harmless) {first serializer : σ} {entries : List σ}
    (head : state.shared.serializerQueue .taskDistributor = first :: entries) {id place : Nat}
    (due : Due state.shared [] serializer id (place + 1)) :
    ∃ next, Transition.Run (step program) (polls at_) state [.poll at_, .run at_] next ∧
      Round at_ first entries serializer id place next := by
  have noFault := ready.calm.shared.noFault
  -- The call puts a poll on the free stack of the thread, and changes nothing else.
  have called : step program state (.poll at_) = some (state.withThread at_ state.shared
      { state.thread at_ with stack := [.poll .taskDistributor] }) := by
    simp [step, noFault, ready.outside, linked, oneCopy]
  have began := step_progress linked ready.calm rfl called
  have calm := began.calm harmless ready.calm
  have watched := began.watched rfl ((watched_iff_scheduled ready.quiet).mpr ready.scheduled)
  -- The poll then takes its one step, which hands the first serializer to the process loop.
  obtain ⟨next, taken⟩ := step_run program calm at_ (by simp)
  have progress := step_progress linked calm rfl taken
  have calm' := progress.calm harmless calm
  have watched' := progress.watched (timely_of_fresh (by simp [Fresh])) watched
  refine ⟨next, (Transition.Run.single (.inl rfl) called).snoc (.inr rfl) taken, ?_⟩
  cases progress with
  | run move =>
    rename_i shared' thread'
    simp only [State.withThread_self, State.withThread_shared] at move
    obtain ⟨rfl, stack⟩ := move.polled head
    refine ⟨calm', fun other different => ?_, ?_, watched', ?_, ?_, ?_, fun same => .inl ?_⟩
    · rw [State.withThread_other different, State.withThread_other different]
      exact ready.quiet other
    · simp [stack, Fresh]
    · simp only [State.withThread_self, stack]
      rintro frame ⟨⟩
      exact ⟨_, _, rfl, rfl⟩
    · simp [Shared.afterTake]
    · simpa [stack, Due, Frame.hand, Shared.afterTake] using due
    · exact ⟨.enter, _, by simpa using stack, rfl, .inl rfl⟩

/-- A round that has ended leaves a state between two calls, and has served its serializer. -/
theorem Round.finish {at_ : ι} {first serializer : σ} {entries : List σ} {id place : Nat}
    (round : Round at_ first entries serializer id place state)
    (outside : (state.thread at_).stack = []) :
    Ready at_ state ∧ entries <+: state.shared.serializerQueue .taskDistributor ∧
      Due state.shared [] serializer id (place + 1) ∧
      (first = serializer → Due state.shared [] serializer id place) := by
  -- The polling thread has returned, and the others were quiet all along.
  have quiet : state.Quiet := by
    intro other
    by_cases same : other = at_
    · rw [same, outside]; rfl
    · exact round.quiet other same
  refine ⟨⟨round.calm, quiet, outside, (watched_iff_scheduled quiet).mp round.watched⟩, round.queued,
    outside ▸ round.due, fun same => ?_⟩
  -- A round that has ended is past its opening, so its serializer has been served.
  rcases round.served same with opening | due
  · obtain ⟨_, _, stack, _⟩ := opening
    rw [outside] at stack
    cases stack
  · exact outside ▸ due

/-- A poll by a thread that is left alone serves the first serializer queued. -/
theorem Ready.round {at_ : ι} (ready : Ready at_ state) (linked : program.linkage = oneCopy)
    (harmless : program.Harmless) {first serializer : σ} {entries : List σ}
    (head : state.shared.serializerQueue .taskDistributor = first :: entries) {id place : Nat}
    (due : Due state.shared [] serializer id (place + 1)) :
    ∃ labels later, Transition.Run (step program) (polls at_) state labels later ∧ Ready at_ later ∧
      entries <+: later.shared.serializerQueue .taskDistributor ∧
      Due later.shared [] serializer id (place + 1) ∧
      (first = serializer → Due later.shared [] serializer id place) := by
  obtain ⟨next, polled, round⟩ := ready.poll linked harmless head due
  -- A thread left alone returns from its call, and the round holds up to there.
  obtain ⟨labels, later, run, outside⟩ := returns linked harmless round.calm at_
  have ended : Round at_ first entries serializer id place later :=
    run.invariant round fun _ _ _ holds same taken => holds.step linked harmless (same ▸ taken)
  exact ⟨_, later, polled.trans (run.mono fun _ _ same => .inr same), ended.finish outside⟩

/-- A task that has been started, after polls of one thread only. -/
def Reached (program : Program σ τ) (at_ : ι) (state : State ι σ τ) (serializer : σ) (id : Nat) :
    Prop :=
  ∃ labels later, Transition.Run (step program) (polls at_) state labels later ∧
    id ∈ later.shared.started serializer

/-- A queued task is reached by polling, from any place of its queue and of the distributor's. -/
theorem Ready.reached (linked : program.linkage = oneCopy) (harmless : program.Harmless)
    {at_ : ι} {serializer : σ} {id place : Nat} (ready : Ready at_ state)
    (due : Due state.shared [] serializer id place) : Reached program at_ state serializer id := by
  induction place generalizing state with
  | zero =>
    -- A task that is queued with fewer than zero others before it is not queued.
    rcases due with started | held | ⟨_, _, _, short⟩
    · exact ⟨[], state, .refl, started⟩
    · cases held
    · cases short
  | succ place shorter =>
    -- The entries of the distributor before that of the serializer, in whatever place it is.
    have later : ∀ (entries : List σ) (state : State ι σ τ), Ready at_ state →
        Due state.shared [] serializer id (place + 1) →
        entries ++ [serializer] <+: state.shared.serializerQueue .taskDistributor →
        Reached program at_ state serializer id := by
      intro entries
      induction entries with
      | nil =>
        -- The next poll serves the serializer itself, which brings the task one place forward.
        intro state ready due ⟨others, queue⟩
        obtain ⟨_, next, run, ready', _, _, served⟩ :=
          ready.round linked harmless queue.symm due
        obtain ⟨_, last, more, started⟩ := shorter ready' (served rfl)
        exact ⟨_, last, run.trans more, started⟩
      | cons first entries ih =>
        -- The next poll serves another serializer, and the entry of ours moves one place up.
        intro state ready due ⟨others, queue⟩
        obtain ⟨_, next, run, ready', behind, due', _⟩ :=
          ready.round linked harmless queue.symm due
        obtain ⟨_, last, more, started⟩ := ih next ready' due' ((List.prefix_append _ _).trans behind)
        exact ⟨_, last, run.trans more, started⟩
    rcases due with started | held | ⟨before, after, queued, short⟩
    · exact ⟨[], state, .refl, started⟩
    · cases held
    · -- A serializer with queued tasks is scheduled, so it has an entry to wait for.
      have some_ : state.shared.taskQueue serializer ≠ [] := by
        intro empty
        simp [empty] at queued
      obtain ⟨entries, others, queue⟩ := List.append_of_mem (ready.scheduled serializer some_)
      exact later entries state ready (.inr (.inr ⟨before, after, queued, short⟩))
        ⟨others, by simp [queue]⟩

/-- Every queued task has a place from which it is due. -/
theorem due_of_queued {serializer : σ} {task : ITask σ τ}
    (queued : task ∈ shared.taskQueue serializer) :
    Due shared [] serializer task.id (shared.taskQueue serializer).length := by
  obtain ⟨before, after, queue⟩ := List.append_of_mem queued
  exact .inr (.inr ⟨before.map ITask.id, after.map ITask.id, by simp [queue], by simp [queue]⟩)

/-- Every task left in a queue is reached when any one free thread goes on polling. -/
def State.Delivers (program : Program σ τ) (state : State ι σ τ) : Prop :=
  ∀ serializer, ∀ task ∈ state.shared.taskQueue serializer, ∀ at_,
    (state.thread at_).stack = [] → Reached program at_ state serializer task.id

/--
In a quiet state, no task is lost exactly when each was left only to somebody.

Every serializer with tasks left is then queued in the distributor, and polling starts them all.
-/
theorem scheduled_iff_timely (linked : program.linkage = oneCopy) (harmless : program.Harmless)
    {labels : List (Label ι σ τ)} {finish : State ι σ τ}
    (run : Transition.Run (step program) (fun _ label => label.harmless = true)
      (State.init ι σ τ) labels finish) (quiet : finish.Quiet) :
    (finish.Scheduled ∧ finish.Delivers program) ↔
      Transition.Run (step program) timelyStep (State.init ι σ τ) labels finish := by
  -- The backlog theorem says when the state is scheduled, which leaves delivery to be shown.
  rw [← watched_iff_timely linked harmless run, watched_iff_scheduled quiet]
  refine ⟨fun both => both.1, fun scheduled => ⟨scheduled, fun serializer task queued at_ outside => ?_⟩⟩
  have calm : finish.Calm := run.invariant State.init_calm fun _ _ _ calm allowed taken =>
    (step_progress linked calm allowed taken).calm harmless calm
  exact Ready.reached linked harmless ⟨calm, quiet, outside, scheduled⟩ (due_of_queued queued)

/-- A program over two serializers, where a task of the one may request a task of the other. -/
def chained : Program Bool Bool where
  body := fun task => if task then [.requestTask true false] else []
  logHandler := false
  linkage := oneCopy

/-- Its tasks only request tasks. -/
theorem chained_harmless : chained.Harmless := by
  intro task
  cases task <;> simp [chained, Call.harmless]

/-- A task requested by another task is left in its queue, and will be reached. -/
theorem scheduled_iff_timely_chained :
    ∃ finish : State (Fin 2) Bool Bool,
      finish.shared.taskQueue true ≠ [] ∧ finish.Scheduled ∧ finish.Delivers chained := by
  have executed : (Transition.execWhile (step chained) timelyStep (State.init (Fin 2) Bool Bool)
      (.call 0 (.requestTask false true) :: List.replicate 20 (.run 0))).any
        fun finish => (finish.thread 0).stack.isEmpty && (finish.thread 1).stack.isEmpty &&
          !(finish.shared.taskQueue true).isEmpty := by decide
  obtain ⟨finish, reached, left⟩ := (Option.any_eq_true _ _).mp executed
  simp only [Bool.and_eq_true, List.isEmpty_iff, Bool.not_eq_true', List.isEmpty_eq_false_iff] at left
  obtain ⟨⟨first, second⟩, queued⟩ := left
  have timely := Transition.Run.of_execWhile reached
  -- Both stacks are empty, so nothing is left that could still claim a serializer.
  have quiet : finish.Quiet := Fin.forall_fin_two.mpr ⟨by simp [first], by simp [second]⟩
  exact ⟨finish, queued, (scheduled_iff_timely rfl chained_harmless
    (timely.mono fun _ _ permitted => permitted.1) quiet).mpr timely⟩

/--
A task is lost when its push finds the queue not empty and adds to it after it was drained.

The other thread has made its last emptiness test by then, and nobody looks at the queue again.
-/
theorem scheduling_fails :
    ∃ (labels : List (Label (Fin 2) Unit Unit)) (finish : State (Fin 2) Unit Unit),
      Transition.Run (step plainTasks) (fun _ label => label.harmless = true)
        (State.init (Fin 2) Unit Unit) labels finish ∧
      finish.Quiet ∧ ¬ finish.Scheduled := by
  have executed : (Transition.execWhile (step plainTasks) (fun _ label => label.harmless = true)
      (State.init (Fin 2) Unit Unit)
      (requests 0 4 ++ requests 1 3 ++ List.replicate 11 (.run 0) ++ List.replicate 2 (.run 1))).any
        fun finish => (finish.thread 0).stack.isEmpty && (finish.thread 1).stack.isEmpty &&
          (!(finish.shared.taskQueue ()).isEmpty &&
            (finish.shared.serializerQueue .taskDistributor).isEmpty) := by decide
  obtain ⟨finish, reached, left⟩ := (Option.any_eq_true _ _).mp executed
  simp only [Bool.and_eq_true, List.isEmpty_iff, Bool.not_eq_true', List.isEmpty_eq_false_iff] at left
  obtain ⟨⟨first, second⟩, queued, empty⟩ := left
  refine ⟨_, finish, .of_execWhile reached,
    Fin.forall_fin_two.mpr ⟨by simp [first], by simp [second]⟩, fun scheduled => ?_⟩
  have member := scheduled () queued
  simp [empty] at member

end Braid.Task
