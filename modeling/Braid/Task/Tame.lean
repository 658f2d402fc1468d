import Braid.Library.Counting
import Braid.Task.Ownership
import Braid.Task.Reentry

/-! What one step of a thread may do to the serializers, with `set_destroy` among the calls. -/

namespace Braid.Task

variable {ι σ τ : Type}

/-- The serializer that a call is still going to use. -/
def Frame.uses : Frame σ τ → Option σ
  | .calls _ => none
  | .requestTask serializer _ => some serializer
  | .pushEmpty serializer _ => some serializer
  | .pushInsert serializer _ _ => some serializer
  | .pushHandOver serializer => some serializer
  | .poll _ => none
  -- At its exit the process loop only gives up the slot and its task.
  | .process point locals => if point = .exit then none else some locals.serializer
  | .destroyStore serializer => some serializer
  | .clearEmpty serializer => some serializer
  | .clearPop serializer => some serializer
  | .clearStore serializer => some serializer

/-- The serializer that the process loop has decided to delete. -/
def Frame.condemns : Frame σ τ → Option σ
  | .process .delete locals => some locals.serializer
  | .process .free locals => some locals.serializer
  | _ => none

/-- The serializer that a call is made on. -/
def Call.serializer (program : Program σ τ) : Call σ τ → σ
  | .requestTask serializer _ => serializer
  | .log _ => program.logHandler
  | .setDestroy serializer => serializer

/-- A task that clears at most this serializer. -/
def Func.Clears (serializer : σ) : Func σ τ → Prop
  | .clear target => target = serializer
  | _ => True

/-- Every `clear` that is waiting is waiting on the serializer that it clears. -/
def Frame.Own : Frame σ τ → Prop
  | .requestTask serializer func => func.Clears serializer
  | .pushEmpty serializer task => task.func.Clears serializer
  | .pushInsert serializer task _ => task.func.Clears serializer
  | .poll distributor => distributor = .taskDistributor
  | .process _ locals => ∀ task ∈ locals.task, task.func.Clears locals.serializer
  | _ => True

/-- The next step of a call starts to use a serializer: it calls it, or takes it off the queue. -/
def Begins (program : Program σ τ) (shared : Shared σ τ) (serializer : σ) : Frame σ τ → Prop
  | .calls (call :: _) => call.serializer program = serializer
  | .poll _ => serializer ∈ shared.serializerQueue .taskDistributor
  | _ => False

/-- The next step of the process loop decides to delete a serializer. -/
def Convicts (shared : Shared σ τ) (serializer : σ) : Frame σ τ → Prop
  | .process .state locals =>
    locals.serializer = serializer ∧ shared.state serializer = .destroyed
  | _ => False

/-- A call that the next step of another call may leave in its place. -/
structure Follows (program : Program σ τ) (shared : Shared σ τ) (frame next : Frame σ τ) :
    Prop where
  uses : ∀ serializer, next.uses = some serializer →
    frame.uses = some serializer ∨ Begins program shared serializer frame
  condemns : ∀ serializer, next.condemns = some serializer →
    frame.condemns = some serializer ∨ Convicts shared serializer frame
  own : next.Own

/-- Every task that waits on a serializer clears at most that one. -/
def Shared.OwnTasks (shared : Shared σ τ) : Prop :=
  ∀ serializer, ∀ task ∈ shared.taskQueue serializer, task.func.Clears serializer

/-- A shared state in which nothing was destroyed or queued since another one. -/
structure Shared.Steady (shared after : Shared σ τ) : Prop where
  queue : after.serializerQueue .taskDistributor = shared.serializerQueue .taskDistributor
  deleted : after.deleted = shared.deleted
  state : after.state = shared.state
  tasks : after.OwnTasks
  fault : after.fault ≠ some .usedAfterDelete

/-- What the next step of a call may do to the serializers, above the calls below it. -/
structure Tame (program : Program σ τ) (shared : Shared σ τ) (slot : Option σ)
    (frame : Frame σ τ) (rest : List (Frame σ τ)) (result : Shared σ τ × Thread σ τ) : Prop where
  stack : ∃ new, result.2.stack = new ++ rest ∧ ∀ next ∈ new, Follows program shared frame next
  queue : ∀ serializer ∈ result.1.serializerQueue .taskDistributor,
    serializer ∈ shared.serializerQueue .taskDistributor ∨ frame.uses = some serializer
  deleted : ∀ serializer, result.1.deleted serializer = true ↔
    shared.deleted serializer = true ∨ frame.frees slot = some serializer
  state : ∀ serializer, result.1.state serializer = shared.state serializer ∨
    frame.writes = some serializer ∧ (result.1.state serializer = .destroyed ∨
      frame = .destroyStore serializer ∧ result.1.state serializer = .destroying)
  tasks : result.1.OwnTasks
  fault : result.1.fault ≠ some .usedAfterDelete

variable {program : Program σ τ} {shared after : Shared σ τ} {frame : Frame σ τ}
  {rest : List (Frame σ τ)} {slot : SourceFile → Option σ}

/-- Releasing a task destroys and queues no serializer. -/
theorem Shared.Steady.release (steady : shared.Steady after) (task : ITask σ τ) :
    shared.Steady (after.release task) := by
  -- Either an assertion stops the program, or one task is destroyed, or only a count changes.
  unfold Shared.release
  split
  · exact ⟨steady.queue, steady.deleted, steady.state, steady.tasks, by simp [Shared.stop]⟩
  · split
    · exact ⟨steady.queue, steady.deleted, steady.state, steady.tasks, steady.fault⟩
    · exact steady

/-- Dropping a task destroys and queues no serializer. -/
theorem Shared.Steady.drop (steady : shared.Steady after) (task : Option (ITask σ τ)) :
    shared.Steady (after.drop task) := by
  cases task with
  | none => exact steady
  | some task => exact steady.release task

/-- A step over a steady shared state is tame when the calls it leaves follow. -/
theorem Shared.Steady.tame {here : Option σ} {thread : Thread σ τ} (steady : shared.Steady after)
    (keeps : frame.frees here = none) (new : List (Frame σ τ)) (left : thread.stack = new ++ rest)
    (follows : ∀ next ∈ new, Follows program shared frame next) :
    Tame program shared here frame rest (after, thread) where
  -- What is shared stays the same but for the tasks, which stay aimed at their own serializers.
  stack := ⟨new, left, follows⟩
  queue serializer member := .inl (by rwa [steady.queue] at member)
  deleted serializer := by simp [steady.deleted, keeps]
  state serializer := .inl (by rw [steady.state])
  tasks := steady.tasks
  fault := steady.fault

/-- A call that uses what the one before it used, and condemns nothing. -/
theorem Follows.same {next : Frame σ τ} (uses : next.uses = none ∨ next.uses = frame.uses)
    (condemns : next.condemns = none) (own : next.Own) : Follows program shared frame next where
  uses serializer used := by
    -- The call uses nothing, or what the one before it used.
    rcases uses with none_ | same
    · rw [none_] at used; cases used
    · exact .inl (same ▸ used)
  condemns serializer condemned := by rw [condemns] at condemned; cases condemned
  own := own

/-- A call of application code follows the list of calls that makes it. -/
theorem Follows.called {call : Call σ τ} {calls : List (Call σ τ)} {next : Frame σ τ}
    (uses : next.uses = none ∨ next.uses = some (call.serializer program))
    (condemns : next.condemns = none) (own : next.Own) :
    Follows program shared (.calls (call :: calls)) next where
  uses serializer used := by
    -- The call uses nothing, or what the list of calls names.
    rcases uses with none_ | same
    · rw [none_] at used; cases used
    · rw [same] at used
      exact .inr (Option.some.inj used)
  condemns serializer condemned := by rw [condemns] at condemned; cases condemned
  own := own

/-- Application code that makes its next call is tame. -/
theorem callStep_tame (steady : shared.Steady shared) (calls : List (Call σ τ)) {here : Option σ} :
    Tame program shared here (.calls calls) rest (callStep program shared ⟨slot, rest⟩ calls) := by
  cases calls with
  -- The calls are over, and nothing is left in their place.
  | nil => exact steady.tame rfl [] rfl (by simp)
  | cons call calls =>
    have others : Follows program shared (.calls (call :: calls)) (.calls calls) :=
      .called (.inl rfl) rfl trivial
    cases call with
    | requestTask serializer task =>
      refine steady.tame rfl [.requestTask serializer (.user task), .calls calls] rfl ?_
      have request : Follows program shared (.calls (.requestTask serializer task :: calls))
          (.requestTask serializer (.user task)) := .called (.inr rfl) rfl trivial
      simpa using ⟨request, others⟩
    -- A message below the level is dropped before anything is requested.
    | log level =>
      simp only [callStep]
      split
      · exact steady.tame rfl [.calls calls] rfl (by simpa using others)
      · refine steady.tame rfl [.requestTask program.logHandler .writeLog, .calls calls] rfl ?_
        have request : Follows program shared (.calls (.log level :: calls))
            (.requestTask program.logHandler .writeLog) := .called (.inr rfl) rfl trivial
        simpa using ⟨request, others⟩
    -- The store of `DESTROYING` waits below the request of `clear`.
    | setDestroy serializer =>
      refine steady.tame rfl [.requestTask serializer (.clear serializer), .destroyStore serializer,
        .calls calls] rfl ?_
      have request : Follows program shared (.calls (.setDestroy serializer :: calls))
          (.requestTask serializer (.clear serializer)) := .called (.inr rfl) rfl rfl
      have storing : Follows program shared (.calls (.setDestroy serializer :: calls))
          (.destroyStore serializer) := .called (.inr rfl) rfl trivial
      simpa using ⟨request, storing, others⟩

variable [DecidableEq σ]

omit [DecidableEq σ] in
/-- Putting a serializer that is in use onto a distributor is tame. -/
theorem put_tame (steady : shared.Steady shared) {serializer : σ}
    (used : frame.uses = some serializer) (distributor : SourceFile) {thread : Thread σ τ}
    {here : Option σ} (keeps : frame.frees here = none) (new : List (Frame σ τ))
    (left : thread.stack = new ++ rest)
    (follows : ∀ next ∈ new, Follows program shared frame next) :
    Tame program shared here frame rest (shared.put distributor serializer, thread) where
  stack := ⟨new, left, follows⟩
  queue := by
    intro other member
    -- Only a put onto the distributor that is looked at adds an entry.
    by_cases same : SourceFile.taskDistributor = distributor
    · subst same
      simp only [Shared.put, Function.update_self, List.mem_append, List.mem_singleton] at member
      rcases member with before | rfl
      · exact .inl before
      · exact .inr used
    · left
      simpa [Shared.put, same] using member
  deleted serializer := by simp [Shared.put, keeps]
  state _ := .inl rfl
  tasks := steady.tasks
  fault := steady.fault

/-- What is pushed onto the queue of a serializer clears at most that one. -/
theorem Shared.OwnTasks.push (own : shared.OwnTasks) {serializer : σ} {task : ITask σ τ}
    (clears : task.func.Clears serializer) {other : σ} {queued : ITask σ τ}
    (member : queued ∈ Function.update shared.taskQueue serializer
      (shared.taskQueue serializer ++ [task]) other) : queued.func.Clears other := by
  -- On the queue that was pushed onto, the task is an old one or the new one.
  rcases Counting.mem_update_append.mp member with before | ⟨rfl, rfl⟩
  · exact own other queued before
  · exact clears

/-- What is left on a queue after a pop was on it before. -/
theorem Shared.OwnTasks.pop (own : shared.OwnTasks) {serializer : σ} {task : ITask σ τ}
    {others : List (ITask σ τ)} (queue : shared.taskQueue serializer = task :: others) {other : σ}
    {queued : ITask σ τ}
    (member : queued ∈ Function.update shared.taskQueue serializer others other) :
    queued.func.Clears other :=
  own other queued (Counting.mem_update_tail queue member)

/-- A step of the process loop is tame. -/
theorem processStep_tame (steady : shared.Steady shared) {point : ProcessPoint}
    {locals : ProcessLocals σ τ} (own : (Frame.process point locals).Own)
    (inside : point ≠ .enter ∧ point ≠ .exit) :
    Tame program shared (some locals.serializer) (.process point locals) rest
      (processStep shared ⟨slot, rest⟩ locals locals.serializer point) := by
  -- Most places go on to another place of the same call.
  have go : ∀ (next : ProcessPoint) (kept : ProcessLocals σ τ),
      kept.serializer = locals.serializer → next ≠ .delete → next ≠ .free →
      (∀ task ∈ kept.task, task.func.Clears kept.serializer) →
      Follows program shared (.process point locals) (.process next kept) := by
    intro next kept same notDelete notFree clears
    refine .same ?_ ?_ clears
    · simp only [Frame.uses, inside.2, same, if_false]
      split <;> simp
    · cases next <;> simp_all [Frame.condemns]
  -- The cases follow the places of the loop in the order of the source.
  cases point with
  | pop =>
    simp only [processStep]
    split
    · -- An empty queue ends the loop, and the task of the last turn is released.
      exact (steady.drop _).tame rfl [.process .state { locals with task := none }] rfl
        (by simpa using go .state { locals with task := none } rfl (by simp) (by simp) (by simp))
    · -- A popped task comes from the queue of the serializer, so it clears no other one.
      rename_i task others queue
      have clears := steady.tasks locals.serializer task (by rw [queue]; exact List.mem_cons_self)
      have popped : shared.Steady { shared with
          taskQueue := Function.update shared.taskQueue locals.serializer others } :=
        ⟨rfl, rfl, rfl, fun _ _ member => steady.tasks.pop queue member, steady.fault⟩
      let held := { locals with task := some { task with refCount := task.refCount + 1 } }
      refine (popped.drop _).tame rfl [.process .invoke held] rfl ?_
      simpa using go .invoke held rfl (by simp) (by simp) (by simpa [held] using clears)
  | state =>
    simp only [processStep]
    split
    · rename_i destroyed
      refine steady.tame rfl [.process .delete locals] rfl ?_
      -- This is where the loop decides to delete.
      have convicts :
          Follows program shared (.process .state locals) (.process .delete locals) := by
        refine ⟨fun serializer used => .inl used, fun serializer condemned => .inr ?_, own⟩
        obtain rfl := Option.some.inj condemned
        exact ⟨rfl, destroyed⟩
      simpa using convicts
    · exact steady.tame rfl [.process .empty locals] rfl
        (by simpa using go .empty locals rfl (by simp) (by simp) own)
  | delete =>
    refine steady.tame rfl [.clearEmpty locals.serializer, .process .free locals] rfl ?_
    -- The destructor runs `clear` on the serializer that the loop is about to free.
    have clearing : Follows program shared (.process .delete locals)
        (.clearEmpty locals.serializer) := .same (.inr rfl) rfl trivial
    have freeing : Follows program shared (.process .delete locals) (.process .free locals) :=
      ⟨fun _ used => .inl used, fun _ condemned => .inl condemned, own⟩
    simpa using ⟨clearing, freeing⟩
  | free =>
    have exits : Follows program shared (.process .free locals) (.process .exit locals) :=
      .same (.inl rfl) rfl own
    refine ⟨⟨[.process .exit locals], rfl, by simpa using exits⟩, fun _ member => .inl member, ?_,
      fun _ => .inl rfl, steady.tasks, steady.fault⟩
    -- Freeing marks this serializer as deleted, and no other.
    intro serializer
    by_cases same : serializer = locals.serializer
    · subst same
      simp [processStep, Frame.frees]
    · simp [processStep, Frame.frees, same, Ne.symm same]
  | empty =>
    simp only [processStep]
    split
    · exact steady.tame rfl [.process .exit locals] rfl
        (by simpa using go .exit locals rfl (by simp) (by simp) own)
    · exact steady.tame rfl [.process .requeue locals] rfl
        (by simpa using go .requeue locals rfl (by simp) (by simp) own)
  | requeue =>
    -- The loop was using the serializer that it queues again.
    exact put_tame steady rfl _ rfl [.process .exit locals] rfl
      (by simpa using go .exit locals rfl (by simp) (by simp) own)
  | invoke | running =>
    exact steady.tame rfl [.process _ locals] rfl
      (by simpa using go _ locals rfl (by simp) (by simp) own)
  | enter => exact absurd rfl inside.1
  | exit => exact absurd rfl inside.2

/-- A step of `clear` is tame. -/
theorem clearStep_tame (steady : shared.Steady shared) {serializer : σ} {here : Option σ}
    (at_ : frame = .clearEmpty serializer ∨ frame = .clearPop serializer ∨
      frame = .clearStore serializer) :
    Tame program shared here frame rest (clearStep shared ⟨slot, rest⟩ serializer frame) := by
  rcases at_ with rfl | rfl | rfl
  · -- An empty queue ends `clear`, and any other loses its first task.
    simp only [clearStep]
    have next : ∀ point : Frame σ τ, point = .clearStore serializer ∨ point = .clearPop serializer →
        Follows program shared (.clearEmpty serializer) point := by
      rintro _ (rfl | rfl) <;> exact .same (.inr rfl) rfl trivial
    split
    · exact steady.tame rfl [.clearStore serializer] rfl (by simpa using next _ (.inl rfl))
    · exact steady.tame rfl [.clearPop serializer] rfl (by simpa using next _ (.inr rfl))
  · have stays : Follows program shared (.clearPop serializer) (.clearPop serializer) :=
      .same (.inr rfl) rfl trivial
    have again : Follows program shared (.clearPop serializer) (.clearEmpty serializer) :=
      .same (.inr rfl) rfl trivial
    simp only [clearStep]
    split
    · -- A pop that fails stops the program, which deletes nothing.
      have stopped : shared.Steady (shared.stop .unwrittenTask) :=
        ⟨rfl, rfl, rfl, steady.tasks, by simp [Shared.stop]⟩
      exact stopped.tame rfl [.clearPop serializer] rfl (by simpa using stays)
    · rename_i task others queue
      have popped : shared.Steady { shared with
          taskQueue := Function.update shared.taskQueue serializer others } :=
        ⟨rfl, rfl, rfl, fun _ _ member => steady.tasks.pop queue member, steady.fault⟩
      exact (popped.release task).tame rfl [.clearEmpty serializer] rfl (by simpa using again)
  · -- The final store is the one place where `clear` writes `state_`.
    refine ⟨⟨[], rfl, by simp⟩, fun _ member => .inl member,
      fun _ => by simp [clearStep, Frame.frees], ?_, steady.tasks, steady.fault⟩
    intro other
    by_cases same : other = serializer
    · subst same
      exact .inr ⟨rfl, .inl (by simp [clearStep])⟩
    · exact .inl (by simp [clearStep, same])

/--
Every step of a thread is tame.

The slot names the serializer of the process loop, and what the frame uses still exists.
-/
theorem frameStep_tame (linked : program.linkage = oneCopy)
    (shape : Shape (slot .taskDistributor) (frame :: rest)) (own : frame.Own)
    (steady : shared.Steady shared)
    (exists_ : ∀ serializer, frame.uses = some serializer → shared.deleted serializer = false) :
    Tame program shared (slot .taskDistributor) frame rest
      (frameStep program shared ⟨slot, rest⟩ frame) := by
  have ownCopy : program.linkage .taskDistributor = .taskDistributor := by rw [linked]; rfl
  have slotCopy : program.linkage .taskSerializer = .taskDistributor := by rw [linked]; rfl
  -- What the step touches is what the frame uses, so it has not been deleted.
  have untouched : (frame.touched (slot .taskDistributor)).any shared.deleted = false := by
    cases touched : frame.touched (slot .taskDistributor) with
    | none => rfl
    | some serializer =>
      have uses : frame.uses = some serializer := by
        cases frame with
        | process point locals =>
          obtain ⟨taken, -⟩ := shape.process
          cases point <;> simp_all [Frame.touched, Frame.uses]
        | _ => simp_all [Frame.touched, Frame.uses]
      simpa using exists_ serializer uses
  simp only [frameStep, ownCopy, untouched, Bool.false_eq_true, if_false]
  cases frame with
  | calls calls => exact callStep_tame steady calls
  -- A request is refused, or it makes the task that it will push.
  | requestTask serializer func =>
    simp only [requestTaskStep]
    split
    · exact steady.tame rfl [] rfl (by simp)
    · have counted : shared.Steady { shared with
          nextId := shared.nextId + 1
          requested := Function.update shared.requested serializer
            (shared.requested serializer ++ [shared.nextId]) } :=
        ⟨rfl, rfl, rfl, steady.tasks, steady.fault⟩
      refine counted.tame rfl [.pushEmpty serializer
        { id := shared.nextId, target := serializer, func := func }] rfl ?_
      have pushes : Follows program shared (.requestTask serializer func) (.pushEmpty serializer
          { id := shared.nextId, target := serializer, func := func }) := .same (.inr rfl) rfl own
      simpa using pushes
  | pushEmpty serializer task =>
    refine steady.tame rfl
      [.pushInsert serializer task (shared.taskQueue serializer).isEmpty] rfl ?_
    have inserts : Follows program shared (.pushEmpty serializer task)
        (.pushInsert serializer task (shared.taskQueue serializer).isEmpty) :=
      .same (.inr rfl) rfl own
    simpa using inserts
  -- The task clears at most the serializer that it is pushed on.
  | pushInsert serializer task wasEmpty =>
    have pushed : shared.Steady { shared with
        taskQueue := Function.update shared.taskQueue serializer
          (shared.taskQueue serializer ++ [task])
        pushed := Function.update shared.pushed serializer
          (shared.pushed serializer ++ [task.id]) } :=
      ⟨rfl, rfl, rfl, fun _ _ member => steady.tasks.push own member, steady.fault⟩
    cases wasEmpty with
    | true =>
      have hands : Follows program shared (.pushInsert serializer task true)
          (.pushHandOver serializer) := .same (.inr rfl) rfl trivial
      exact pushed.tame rfl [.pushHandOver serializer] rfl (by simpa using hands)
    | false => exact pushed.tame rfl [] rfl (by simp)
  -- With a free slot the thread processes the serializer itself; otherwise it queues it.
  | pushHandOver serializer =>
    simp only [pushHandOverStep, slotCopy]
    split
    · have enters : Follows program shared (.pushHandOver serializer)
          (.process .enter { distributor := .taskDistributor, serializer := serializer }) :=
        .same (.inr rfl) rfl (by simp [Frame.Own])
      exact steady.tame rfl [.process .enter
        { distributor := .taskDistributor, serializer := serializer }] rfl (by simpa using enters)
    · exact put_tame steady rfl _ rfl [] rfl (by simp)
  -- A serializer comes off the queue and into use.
  | poll distributor =>
    obtain rfl : distributor = .taskDistributor := own
    have alone := shape.alone _ _ rfl
    subst alone
    have outside : slot .taskDistributor = none := by simpa [SlotMatches] using shape.inside rfl
    simp only [pollStep, ownCopy, outside, Option.isSome_none, Bool.false_eq_true, if_false]
    split
    · exact steady.tame rfl [] rfl (by simp)
    · rename_i serializer others queue
      have enters : Follows program shared (.poll .taskDistributor)
          (.process .enter { distributor := .taskDistributor, serializer := serializer }) := by
        refine ⟨fun other used => .inr ?_, fun other condemned => ?_, by simp [Frame.Own]⟩
        · obtain rfl := Option.some.inj used
          show serializer ∈ shared.serializerQueue .taskDistributor
          rw [queue]
          exact List.mem_cons_self
        · cases condemned
      refine ⟨⟨[_], rfl, by simpa using enters⟩, ?_, fun _ => by simp [Frame.frees],
        fun _ => .inl rfl, steady.tasks, steady.fault⟩
      intro other member
      left
      rw [queue]
      exact List.mem_cons_of_mem _ (by simpa using member)
  | process point locals =>
    obtain ⟨taken, below⟩ := shape.process
    cases point with
    -- The slot is free, so the assertion holds.
    | enter =>
      rw [if_pos rfl] at taken
      simp only [processEnterStep, ownCopy, taken, Option.isSome_none, Bool.false_eq_true, if_false]
      have pops : Follows program shared (.process .enter locals) (.process .pop locals) :=
        .same (.inr rfl) rfl own
      exact steady.tame rfl [.process .pop locals] rfl (by simpa using pops)
    | invoke =>
      have running : Follows program shared (.process .invoke locals) (.process .running locals) :=
        .same (.inr rfl) rfl own
      simp only [invokeStep]
      split
      · exact steady.tame rfl [.process .running locals] rfl (by simpa using running)
      · rename_i task popped
        have started : shared.Steady { shared with
            started := Function.update shared.started task.target
              (shared.started task.target ++ [task.id]) } :=
          ⟨rfl, rfl, rfl, steady.tasks, steady.fault⟩
        have clears := own task popped
        refine started.tame rfl (invokeFrame program task.func ++ [.process .running locals])
          (by simp) ?_
        -- An invoked `clear` clears the serializer whose queue its task was on.
        cases invoked : task.func with
        | user body =>
          have calls : Follows program shared (.process .invoke locals)
              (.calls (program.body body)) := .same (.inl rfl) rfl trivial
          simpa [invokeFrame] using ⟨calls, running⟩
        | clear target =>
          rw [invoked] at clears
          obtain rfl : target = locals.serializer := clears
          have clearing : Follows program shared (.process .invoke locals)
              (.clearEmpty locals.serializer) := .same (.inr rfl) rfl trivial
          simpa [invokeFrame] using ⟨clearing, running⟩
        | writeLog => simpa [invokeFrame] using running
    -- The batch limit ends the loop early.
    | running =>
      simp only [turnStep]
      split
      · have reads : Follows program shared (.process .running locals) (.process .state
            { locals with processCount := locals.processCount + 1 }) := .same (.inr rfl) rfl own
        exact steady.tame rfl [.process .state _] rfl (by simpa using reads)
      · have pops : Follows program shared (.process .running locals) (.process .pop
            { locals with processCount := locals.processCount + 1 }) := .same (.inr rfl) rfl own
        exact steady.tame rfl [.process .pop _] rfl (by simpa using pops)
    -- The last task is released, and the slot is free again.
    | exit => exact (steady.drop _).tame rfl [] rfl (by simp)
    -- The slot names the serializer of the loop at each of the other places.
    | pop | state | delete | free | empty | requeue =>
      simp only [reduceCtorEq, if_false] at taken
      simp only [taken]
      exact processStep_tame steady own (by simp)
  -- This is the store that is meant to come before `clear`.
  | destroyStore serializer =>
    refine ⟨⟨[], rfl, by simp⟩, fun _ member => .inl member, fun _ => by simp [Frame.frees], ?_,
      steady.tasks, steady.fault⟩
    intro other
    by_cases same : other = serializer
    · subst same
      exact .inr ⟨rfl, .inr ⟨rfl, by simp⟩⟩
    · exact .inl (by simp [same])
  | clearEmpty serializer => exact clearStep_tame steady (.inl rfl)
  | clearPop serializer => exact clearStep_tame steady (.inr (.inl rfl))
  | clearStore serializer => exact clearStep_tame steady (.inr (.inr rfl))

/-- Over one slot, every step keeps the shape of the stack: a push tests the slot it would take. -/
theorem frameStep_oneCopy (linked : program.linkage = oneCopy)
    (shape : Shape (slot .taskDistributor) (frame :: rest)) (free : shared.Free) :
    let result := frameStep program shared ⟨slot, rest⟩ frame
    result.1.Free ∧ Shape (result.2.slot .taskDistributor) result.2.stack := by
  have ownCopy : program.linkage .taskDistributor = .taskDistributor := by rw [linked]; rfl
  have slotCopy : program.linkage .taskSerializer = .taskDistributor := by rw [linked]; rfl
  -- Away from the pushes, what is known of nested calls is not needed.
  have otherwise : (∀ serializer task, frame ≠ .pushEmpty serializer task) →
      Outermost (slot .taskDistributor) (frame :: rest) →
      let result := frameStep program shared ⟨slot, rest⟩ frame
      result.1.Free ∧ Shape (result.2.slot .taskDistributor) result.2.stack := by
    intro noTest outermost
    obtain ⟨free', shape', -⟩ := frameStep_shape ownCopy shape outermost free
      fun serializer task same _ => absurd same (noTest serializer task)
    exact ⟨free', shape'⟩
  have stopped : (shared.stop .usedAfterDelete).Free := by simp [Shared.Free, Shared.stop]
  cases frame with
  -- The test changes nothing but the place of the push.
  | pushEmpty serializer task =>
    simp only [frameStep]
    split
    · exact ⟨stopped, shape⟩
    · exact ⟨free, shape.replace trivial (by simp) shape.slot⟩
  | pushInsert serializer task wasEmpty =>
    simp only [frameStep]
    split
    · exact ⟨stopped, shape⟩
    · cases wasEmpty with
      | true => exact ⟨free, shape.replace trivial (by simp) shape.slot⟩
      | false => exact ⟨free, shape.below (shape.inside rfl)⟩
  | pushHandOver serializer =>
    cases taken : slot .taskDistributor with
    -- A free slot is what the nested loop asserts.
    | none => exact otherwise (by simp) (show _ = _ from taken)
    -- A taken slot keeps the push out of the loop.
    | some current =>
      simp only [frameStep, Frame.touched, Option.any_none, Bool.false_eq_true, if_false,
        pushHandOverStep, slotCopy, taken]
      have ended : Shape (slot .taskDistributor) rest := shape.below (shape.inside rfl)
      rw [taken] at ended
      exact ⟨free, ended⟩
  | _ => exact otherwise (by simp) trivial

end Braid.Task
