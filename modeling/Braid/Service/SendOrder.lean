import Braid.Library.Line
import Braid.Service.IORequestQueue
import Braid.Service.RoundRobin

/-! The order in which the sends of a session are submitted to the kernel. -/

namespace Braid.Service

open Transition
open Memory (Slot)

variable {m n k : Nat} {ω : Type}

/-- The operation sends a buffer of this session. -/
def Operation.sends (session : Fin m) : Operation m → Bool
  | .sendBuffer other _ => other = session
  | _ => false

/-- The sends of a session among operations. -/
def sendsOf (session : Fin m) (handles : List (Handle m)) : List (Handle m) :=
  handles.filter fun handle => handle.operation.sends session

/-- The sends of a session among operations that come one behind the other. -/
@[simp] theorem sendsOf_append (session : Fin m) (first second : List (Handle m)) :
    sendsOf session (first ++ second) = sendsOf session first ++ sendsOf session second :=
  List.filter_append ..

/-- The call requests a send of this session. -/
def Todo.sends (session : Fin m) : Todo m n → Bool
  | .acquire operation => operation.sends session
  | .addRef handle => handle.operation.sends session
  | .route handle => handle.operation.sends session
  | .push handle _ => handle.operation.sends session
  | _ => false

/-- The operations that a worker has on their way to the kernel, in the order of their pushes. -/
def Worker.waiting (worker : Worker m) : List (Handle m) :=
  worker.prepared.map Entry.handle ++ worker.place.inHand ++ worker.requestQueue

/-- The operations that a thread is about to push. -/
def State.calling (state : State m n k ω) (context : Context n k) : List (Handle m) :=
  (state.todo context).flatMap Todo.inCall

/--
The sends of a session are submitted in the order in which they were requested.

Each request acquires one operation, so that for calls made one after another the order of the
acquisitions is the order of the calls.
-/
def SendsInOrder (shared : Shared m ω) (session : Fin m) : Prop :=
  (sendsOf session shared.submissions).Sublist (sendsOf session shared.acquisitions)

instance (shared : Shared m ω) (session : Fin m) : Decidable (SendsInOrder shared session) :=
  inferInstanceAs (Decidable (List.Sublist _ _))

/--
The sends of a session are requested one after another and wait with one worker.

A call of `request_send` begins when no other thread is inside of one for the same session, and a
send is put on the queue of a worker when no other worker has an earlier one still to submit.
-/
def OneAtATime (state : State m n k ω) : Label n k ω → Prop
  | .run context _ fails =>
    match state.todo context with
    | .call (.requestSend actor _) :: _ =>
      ∀ session ∈ state.shared.actors[actor]?, ∀ other, other ≠ context →
        ∀ todo ∈ state.todo other, todo.sends session = false
    | .push handle worker :: _ =>
      fails = false → ∀ session, handle.operation.sends session = true →
        ∀ other, other ≠ worker → sendsOf session (state.worker other).waiting = []
    | _ => True
  | _ => True

/-- A thread is inside of a request for a send of this session. -/
def State.Sending (state : State m n k ω) (session : Fin m) (context : Context n k) : Prop :=
  ∃ todo ∈ state.todo context, todo.sends session = true

/-- The sends of a session keep to one line from their calls to the kernel. -/
structure SendLine (state : State m n k ω) (session : Fin m) : Prop where
  line : Line (sendsOf session state.shared.acquisitions) (sendsOf session state.shared.submissions)
    (fun worker => sendsOf session (state.worker worker).waiting)
    (fun context => sendsOf session (state.calling context))
  alone : ∀ first second, state.Sending session first → state.Sending session second →
    first = second

/-- Of the calls that a thread has to make, only the first one can have begun. -/
def CallsInTurn (state : State m n k ω) : Prop :=
  ∀ context, ∀ todo ∈ (state.todo context).tail, todo.requesting = false

variable {config : Config ω} {state next : State m n k ω} {session : Fin m}

/-- A call that has not begun sends nothing. -/
theorem Todo.sends_of_requesting {todo : Todo m n} (waits : todo.requesting = false) :
    todo.sends session = false := by
  -- The calls that send have all begun, so the premise is refuted there.
  cases todo <;> first | rfl | cases waits

/-- Calls that have not begun push nothing. -/
theorem inCall_waiting {more : List (Todo m n)}
    (waiting : ∀ todo ∈ more, todo.requesting = false) : more.flatMap Todo.inCall = [] :=
  List.flatMap_eq_nil_iff.mpr fun todo member => Todo.inCall_of_requesting (waiting todo member)

/-- The calls behind the first one have not begun. -/
theorem CallsInTurn.rest (turn : CallsInTurn state) {context : Context n k} {todo : Todo m n}
    {rest : List (Todo m n)} (head : state.todo context = todo :: rest) :
    ∀ call ∈ rest, call.requesting = false := by
  have behind := turn context
  rwa [head] at behind

/-- A thread that is about to push a send is inside of a request for it. -/
theorem calling_sending {context : Context n k}
    (brings : sendsOf session (state.calling context) ≠ []) : state.Sending session context := by
  -- What is about to be pushed is carried by a call, and that call sends for the session.
  obtain ⟨handle, member⟩ := List.exists_mem_of_ne_nil _ brings
  obtain ⟨present, sends⟩ := List.mem_filter.mp member
  obtain ⟨todo, call, carried⟩ := List.mem_flatMap.mp present
  refine ⟨todo, call, ?_⟩
  cases todo with
  | addRef | route | push => cases List.mem_singleton.mp carried; exact sends
  | _ => cases carried

section Run

variable {context : Context n k} {slot : Option Slot} {fails : Bool} {todo : Todo m n}
  {rest more : List (Todo m n)} {after : Shared m ω} {pushed : Option (Fin n × Handle m)}

/-- What a step inside of a call leaves to do. -/
theorem run_todo (other : Context n k) :
    (((state.setShared after).setTodo context (more ++ rest)).pushRequest pushed).todo other =
      Function.update state.todo context (more ++ rest) other := by
  -- A push goes to the queue of a worker and leaves the calls of every thread as they are.
  rw [pushRequest_todo]
  rfl

/-- Only the first call of a thread can have begun, also behind a step inside of it. -/
theorem run_inTurn (turn : CallsInTurn state) (head : state.todo context = todo :: rest)
    (call : CallStep state.shared fails todo after more pushed) :
    CallsInTurn (((state.setShared after).setTodo context (more ++ rest)).pushRequest pushed) := by
  intro other waiting member
  rw [run_todo] at member
  by_cases same : other = context
  · subst same
    rw [Function.update_self] at member
    -- Behind the step come the rest of the calls, which had not begun before it either.
    have behind := turn.rest head
    -- The step leaves at most one call in the place of the first one.
    have short : (more ++ rest).tail ⊆ rest := by
      cases call with
      | ask _ _ ends =>
        rcases ends with rfl | ⟨_, rfl, -⟩
        · exact List.tail_subset _
        · exact List.Subset.refl _
      | turnAway | push | failPush => exact List.tail_subset _
      | _ => exact List.Subset.refl _
    exact behind waiting (short member)
  · rw [Function.update_of_ne same] at member
    exact turn other waiting member

/-- What a thread is about to push is what its first call is about to push. -/
theorem calling_head (turn : CallsInTurn state) (head : state.todo context = todo :: rest) :
    state.calling context = todo.inCall := by
  -- The calls behind the first one have pushed nothing yet.
  rw [State.calling, head, List.flatMap_cons, inCall_waiting (turn.rest head), List.append_nil]

/-- A step inside of a call changes what its own thread is about to push. -/
theorem calling_run (turn : CallsInTurn state) (head : state.todo context = todo :: rest)
    (session : Fin m) (after : Shared m ω) (more : List (Todo m n))
    (pushed : Option (Fin n × Handle m)) :
    (fun other => sendsOf session
      ((((state.setShared after).setTodo context (more ++ rest)).pushRequest pushed).calling
        other)) =
      Function.update (fun other => sendsOf session (state.calling other)) context
        (sendsOf session (more.flatMap Todo.inCall)) := by
  -- The step replaces the first call of its own thread, and no other thread sees it.
  funext other
  by_cases same : other = context
  · subst same
    rw [State.calling, run_todo, Function.update_self, Function.update_self, List.flatMap_append,
      inCall_waiting (turn.rest head), List.append_nil]
  · rw [State.calling, run_todo, Function.update_of_ne same, Function.update_of_ne same]
    rfl

/-- One thread at a time is inside of a request, if the step begins one when no other thread is. -/
theorem alone_run (turn : CallsInTurn state) (head : state.todo context = todo :: rest)
    (alone : ∀ first second, state.Sending session first → state.Sending session second →
      first = second)
    (goesOn : (∃ call ∈ more, call.sends session = true) → todo.sends session = true ∨
      ∀ other, other ≠ context → ¬ state.Sending session other) :
    let following := ((state.setShared after).setTodo context (more ++ rest)).pushRequest pushed
    ∀ first second, following.Sending session first → following.Sending session second →
      first = second := by
  intro following
  -- A thread that sends behind the step has done so before, or it is the only one.
  have either (other : Context n k) (busy : following.Sending session other) :
      state.Sending session other ∨ other = context ∧
        ∀ another, another ≠ context → ¬ state.Sending session another := by
    obtain ⟨call, member, sends⟩ := busy
    rw [run_todo] at member
    by_cases same : other = context
    · subst same
      rw [Function.update_self] at member
      rcases List.mem_append.mp member with new | old
      · rcases goesOn ⟨call, new, sends⟩ with before | only
        · exact .inl ⟨todo, by simp [head], before⟩
        · exact .inr ⟨rfl, only⟩
      · rw [Todo.sends_of_requesting (turn.rest head call old)] at sends
        cases sends
    · rw [Function.update_of_ne same] at member
      exact .inl ⟨call, member, sends⟩
  intro first second firstBusy secondBusy
  -- Two threads that both sent before are one, and a thread that is alone has no other beside it.
  rcases either first firstBusy with before | ⟨rfl, only⟩
  · rcases either second secondBusy with also | ⟨rfl, only⟩
    · exact alone first second before also
    · by_contra different
      exact only first different before
  · rcases either second secondBusy with also | ⟨rfl, -⟩
    · by_contra different
      exact only second (Ne.symm different) also
    · rfl

/-- An operation that is pushed waits behind those that wait with its worker already. -/
theorem waiting_push (handle : Handle m) (worker : Fin n) :
    (fun target => sendsOf session
      ((state.pushRequest (some (worker, handle))).worker target).waiting) =
      Function.update (fun target => sendsOf session (state.worker target).waiting) worker
        (sendsOf session (state.worker worker).waiting ++ sendsOf session [handle]) := by
  funext target
  by_cases same : target = worker
  · subst same
    -- The queue is the last part of what waits with a worker, so a push is put at its end.
    rw [Function.update_self, ← sendsOf_append]
    simp [State.pushRequest, State.setWorker, Worker.waiting]
  · rw [Function.update_of_ne same]
    simp [State.pushRequest, State.setWorker, Function.update_of_ne same]

/-- A step inside of a call keeps the sends of a session to one line. -/
theorem run_sendLine (turn : CallsInTurn state) (before : SendLine state session)
    (permitted : OneAtATime state (.run context slot fails))
    (head : state.todo context = todo :: rest)
    (call : CallStep state.shared fails todo after more pushed) :
    SendLine (((state.setShared after).setTodo context (more ++ rest)).pushRequest pushed)
      session := by
  have line := before.line
  -- In the terms of the line, this thread brings what its first call is about to push.
  have front : sendsOf session (state.calling context) = sendsOf session todo.inCall :=
    congrArg (sendsOf session) (calling_head turn head)
  have bring := calling_run turn head session after more pushed
  simp only [OneAtATime, head] at permitted
  -- Where nothing is pushed, what waits with the workers is as it was.
  have still (asked left : List (Handle m)) (calling : Context n k → List (Handle m))
      (kept : Line asked left (fun worker => sendsOf session (state.worker worker).waiting)
        calling) :
      Line asked left (fun worker => sendsOf session
        ((((state.setShared after).setTodo context (more ++ rest)).pushRequest none).worker
          worker).waiting) calling := kept
  -- A step that goes on with the same operation brings the same.
  have unchanged (same : more.flatMap Todo.inCall = todo.inCall) :
      (fun other => sendsOf session
        ((((state.setShared after).setTodo context (more ++ rest)).pushRequest pushed).calling
          other)) = fun other => sendsOf session (state.calling other) := by
    rw [bring, same, ← front]
    exact Function.update_eq_self ..
  -- An acquisition asks and a push waits; every other step drops what it brings or leaves it.
  cases call with
  | ask waits aside ends =>
    refine ⟨?_, alone_run turn head before.alone ?_⟩
    · have none : more.flatMap Todo.inCall = [] := by
        rcases ends with rfl | ⟨_, rfl, -⟩ <;> rfl
      rw [bring, none]
      refine still _ _ _ ?_
      rw [← aside.acquisitions, ← aside.submissions] at line
      exact line.drop context
    · rintro ⟨call, member, sends⟩
      rcases ends with rfl | ⟨operation, rfl, asked⟩
      · cases member
      · -- A send is asked for in a call that begins when no other thread is inside of one.
        cases List.mem_singleton.mp member
        cases operation with
        | sendBuffer owner bytes =>
          obtain ⟨actor, rfl, behind⟩ := asked owner bytes rfl
          have same : owner = session := by simpa [Todo.sends, Operation.sends] using sends
          subst same
          refine .inr fun other different ⟨waiting, present, busy⟩ => ?_
          rw [permitted owner behind other different waiting present] at busy
          cases busy
        | _ => cases sends
  | @acquire operation _ acquired submissions requestIndex =>
    refine ⟨?_, alone_run turn head before.alone ?_⟩
    · -- The operation is asked for last, and this thread is the one that brings it.
      have asks := line.ask front (sendsOf session [⟨state.shared.nextOperation, operation⟩])
      rw [← sendsOf_append, ← acquired, ← submissions] at asks
      rw [bring]
      exact still _ _ _ asks
    · rintro ⟨call, member, sends⟩
      cases List.mem_singleton.mp member
      exact .inl sends
  | addRef aside =>
    refine ⟨?_, alone_run turn head before.alone ?_⟩
    · rw [unchanged rfl]
      rw [← aside.acquisitions, ← aside.submissions] at line
      exact still _ _ _ line
    · rintro ⟨call, member, sends⟩
      cases List.mem_singleton.mp member
      exact .inl sends
  | stop aside =>
    refine ⟨?_, alone_run turn head before.alone ?_⟩
    · rw [unchanged (List.append_nil _)]
      rw [← aside.acquisitions, ← aside.submissions] at line
      exact still _ _ _ line
    · rintro ⟨call, member, sends⟩
      cases List.mem_singleton.mp member
      exact .inl sends
  | route inside =>
    refine ⟨?_, alone_run turn head before.alone ?_⟩
    · rw [unchanged rfl]
      exact still _ _ _ line
    · rintro ⟨call, member, sends⟩
      cases List.mem_singleton.mp member
      exact .inl sends
  | turnAway outside acquisitions submissions =>
    refine ⟨?_, alone_run turn head before.alone (by simp)⟩
    -- An operation that is turned away leaves the line between its call and the queue.
    rw [← acquisitions, ← submissions] at line
    rw [bring]
    exact still _ _ _ (line.drop context)
  | @push handle worker succeeds =>
    refine ⟨?_, alone_run turn head before.alone (by simp)⟩
    rw [bring, waiting_push]
    -- A push is the step at which the permission counts: no other worker may have an earlier send.
    have wait := permitted succeeds session
    have pushes := line.push worker context ?_ ?_
    · rw [front] at pushes
      exact pushes
    · -- No other thread is inside of a request for the session of this send.
      intro brings other different
      by_contra also
      exact different (before.alone other context (calling_sending also) (calling_sending brings))
    · intro brings
      rw [front] at brings
      refine wait ?_
      by_contra other
      exact brings (by simp [sendsOf, Todo.inCall, other])
  | @failPush handle _ failed =>
    refine ⟨?_, alone_run turn head before.alone (by simp)⟩
    rw [bring]
    -- A push that fails drops the operation, and nothing of it is submitted later.
    have aside := Shared.Aside.dropped state.shared handle
    rw [← aside.acquisitions, ← aside.submissions] at line
    exact still _ _ _ (line.drop context)

end Run

section Work

/-- A worker that is replaced changes what waits with it alone. -/
theorem waiting_setWorker (state : State m n k ω) (session : Fin m) (at_ : Fin n)
    (worker : Worker m) :
    (fun target => sendsOf session ((state.setWorker at_ worker).worker target).waiting) =
      Function.update (fun target => sendsOf session (state.worker target).waiting) at_
        (sendsOf session worker.waiting) := by
  funext target
  -- What waits with another worker does not change.
  by_cases same : target = at_
  · subst same
    simp [State.setWorker]
  · simp [State.setWorker, Function.update_of_ne same]

/-- Calls that begin keep a line, as they push nothing and are inside of no request. -/
theorem SendLine.begin {context : Context n k} {more : List (Todo m n)}
    (before : SendLine state session) (idle : state.todo context = [])
    (waiting : ∀ todo ∈ more, todo.requesting = false) :
    SendLine (state.setTodo context more) session := by
  -- The calls that begin bring nothing, as no call was there before them.
  have calling : ((state.setTodo context more).calling) = state.calling := by
    funext other
    by_cases same : other = context
    · subst same
      rw [State.calling, State.calling, setTodo_self, idle, inCall_waiting waiting]
      rfl
    · rw [State.calling, setTodo_of_ne _ same]
      rfl
  -- A thread that sends behind the step has done so before it.
  have sending (other : Context n k) (busy : (state.setTodo context more).Sending session other) :
      state.Sending session other := by
    obtain ⟨todo, member, sends⟩ := busy
    by_cases same : other = context
    · subst same
      rw [setTodo_self] at member
      rw [Todo.sends_of_requesting (waiting todo member)] at sends
      cases sends
    · rw [setTodo_of_ne _ same] at member
      exact ⟨todo, member, sends⟩
  refine ⟨?_, fun first second firstBusy secondBusy =>
    before.alone first second (sending first firstBusy) (sending second secondBusy)⟩
  rw [calling]
  exact before.line

/-- Calls that begin leave only first calls that can have begun. -/
theorem CallsInTurn.begin {context : Context n k} {more : List (Todo m n)}
    (turn : CallsInTurn state) (waiting : ∀ todo ∈ more, todo.requesting = false) :
    CallsInTurn (state.setTodo context more) := by
  intro other todo member
  -- Behind the first of the new calls, none is requesting yet.
  by_cases same : other = context
  · subst same
    rw [setTodo_self] at member
    exact waiting todo (List.mem_of_mem_tail member)
  · rw [setTodo_of_ne _ same] at member
    exact turn other todo member

/-- A step of a worker hands the front of its own line to the kernel, or leaves it as it is. -/
theorem SendLine.work {at_ : Fin n} {after : Shared m ω} {worker : Worker m}
    (before : SendLine state session)
    (queue : QueueStep config state.shared (state.worker at_) after worker) :
    SendLine ((state.setShared after).setWorker at_ worker) session := by
  refine ⟨?_, before.alone⟩
  have line := before.line
  have replaced := waiting_setWorker (state.setShared after) session at_ worker
  -- Where the worker submits nothing, the operations that wait with it stay the same.
  have still (aside : after.acquisitions = state.shared.acquisitions ∧
      after.submissions = state.shared.submissions)
      (same : worker.waiting = (state.worker at_).waiting) :
      Line (sendsOf session after.acquisitions) (sendsOf session after.submissions)
        (fun target => sendsOf session
          (((state.setShared after).setWorker at_ worker).worker target).waiting)
        fun context => sendsOf session (state.calling context) := by
    rw [replaced, same, aside.1, aside.2]
    have unchanged := Function.update_eq_self at_
      (fun target => sendsOf session (state.worker target).waiting)
    exact unchanged.symm ▸ line
  -- What waits is what is prepared, in hand and queued, and each step moves along that order.
  cases queue with
  | stay aside queue prepared submitted hand =>
    exact still ⟨aside.acquisitions, aside.submissions⟩
      (by rw [Worker.waiting, queue, prepared, hand, Worker.waiting])
  | pop place queue =>
    -- The first operation of the queue goes into the hand.
    refine still ⟨rfl, rfl⟩ ?_
    simp [Worker.waiting, place, queue, Place.inHand]
  | @write handle place hand room goesOn =>
    -- The operation in hand goes from the hand to the end of what is prepared.
    have empty : place.inHand = [] := by rcases goesOn with ⟨-, rfl⟩ | ⟨-, rfl⟩ <;> rfl
    refine still ⟨?_, ?_⟩ ?_
    · simp [Shared.acquisitions, Shared.record, Event.acquisition]
    · simp [Shared.submissions, Shared.record, Event.submission]
    · simp [Worker.waiting, hand, empty]
  | nullEntry hand full => exact still ⟨rfl, rfl⟩ rfl
  | @submit place empty hand goesOn =>
    -- What is prepared is the front of what waits, and the submission takes exactly that.
    have split : sendsOf session (state.worker at_).waiting =
        sendsOf session ((state.worker at_).prepared.map Entry.handle) ++
          sendsOf session (submitEntries state.shared (state.worker at_) place).2.waiting := by
      rw [← sendsOf_append]
      simp [Worker.waiting, submitEntries, empty, hand]
    have left := line.leave split
    rw [replaced]
    have asked : (submitEntries state.shared (state.worker at_) place).1.acquisitions =
        state.shared.acquisitions := by
      simp [Shared.acquisitions, submitEntries, Shared.record, List.filterMap_map,
        Function.comp_def, Event.acquisition]
    have submitted : (submitEntries state.shared (state.worker at_) place).1.submissions =
        state.shared.submissions ++ (state.worker at_).prepared.map Entry.handle := by
      simp [Shared.submissions, submitEntries, Shared.record, List.filterMap_map,
        Function.comp_def, Event.submission]
    rw [← sendsOf_append, ← submitted, ← asked] at left
    exact left

end Work

/-- What holds of every session in a run whose sends wait with one worker at a time. -/
structure SendLines (state : State m n k ω) : Prop where
  inTurn : CallsInTurn state
  line : ∀ session, SendLine state session

/-- No send is on its way when the service starts. -/
theorem init_sendLines (config : Config ω) (world : ω) :
    SendLines (State.init m n k config world) := by
  -- Every worker starts with its accept alone, which sends nothing.
  have idle (context : Context n k) (todo : Todo m n)
      (member : todo ∈ (State.init m n k config world).todo context) : todo = .acceptOne := by
    cases context <;> simp [State.init] at member
    exact member.2
  have calling (context : Context n k) : (State.init m n k config world).calling context = [] :=
    List.flatMap_eq_nil_iff.mpr fun todo member => by rw [idle context todo member]; rfl
  refine ⟨fun context todo member => ?_, fun session => ⟨?_, ?_⟩⟩
  · rw [idle context todo (List.mem_of_mem_tail member)]
    rfl
  · simp only [calling]
    exact Line.start
  · rintro first _ ⟨todo, member, sends⟩
    rw [idle first todo member] at sends
    cases sends

/-- Every step that the condition permits keeps the sends of each session to one line. -/
theorem step_sendLines {label : Label n k ω} (lines : SendLines state)
    (permitted : OneAtATime state label) (stepped : step config state label = some next) :
    SendLines next := by
  -- Only the steps inside of calls and of the worker itself touch the operations on their way.
  cases step_queue stepped with
  | run head call =>
    exact ⟨run_inTurn lines.inTurn head call,
      fun session => run_sendLine lines.inTurn (lines.line session) permitted head call⟩
  | @work at_ interrupted after worker more idle queue waiting =>
    have turn : CallsInTurn ((state.setShared after).setWorker at_ worker) := lines.inTurn
    exact ⟨turn.begin waiting, fun session =>
      ((lines.line session).work queue).begin idle waiting⟩
  | @begin _ _ call idle =>
    have waiting : ∀ todo ∈ [(.call call : Todo m n)], todo.requesting = false := by
      simp [Todo.requesting]
    exact ⟨lines.inTurn.begin waiting, fun session => (lines.line session).begin idle waiting⟩
  | outside aside todo queue prepared place =>
    refine ⟨fun context => by rw [todo]; exact lines.inTurn context, fun session => ⟨?_, ?_⟩⟩
    · have line := (lines.line session).line
      rw [← aside.acquisitions, ← aside.submissions] at line
      simpa only [Worker.waiting, State.calling, queue, prepared, place, todo] using line
    · simpa only [State.Sending, todo] using (lines.line session).alone

/--
The sends of a session are submitted in the order of their requests while they wait with one
worker at a time.

The counter gives successive sends to successive workers, each of which flushes on its own: a send
that is given to another worker than an earlier one may be submitted before it.
-/
theorem sends_in_order (workers : 1 ≤ n) {world : ω} {labels : List (Label n k ω)}
    (run : Run (step config) OneAtATime (State.init m n k config world) labels state)
    (session : Fin m) : SendsInOrder state.shared session :=
  have lines := run.invariant (init_sendLines config world)
    fun _ _ _ lines permitted stepped => step_sendLines lines permitted stepped
  (lines.line session).line.inOrder ⟨0, workers⟩ .main

section Runs

/-- The thread of the application sends one byte. -/
def sendOne (byte : Byte) (slot : Nat) : List (Label 2 1 Unit) :=
  [.call 0 (.requestSend 0 [byte]), .run (.application 0) none false,
    .run (.application 0) (some ⟨0, slot⟩) false, .run (.application 0) none false,
    .run (.application 0) none false, .run (.application 0) none false]

/-- The first worker requests the recv of the session, and finds no session to accept for. -/
def receiveFirst : List (Label 2 1 Unit) :=
  [.run (.worker 0) none false, .run (.worker 0) (some ⟨0, 0⟩) false, .run (.worker 0) none false,
    .run (.worker 0) none false, .run (.worker 0) none false, .run (.worker 0) none false]

instance (state : State m n k ω) (label : Label n k ω) : Decidable (OneAtATime state label) :=
  match label with
  | .run context slot fails => by
    dsimp only [OneAtATime]
    generalize state.todo context = todo
    exact match todo with
      | .call (.requestSend _ _) :: _ | .push _ _ :: _ => by dsimp only; infer_instance
      | [] | .acceptOne :: _ | .call (.requestClose _) :: _ | .receive _ :: _ | .acquire _ :: _
      | .addRef _ :: _ | .route _ :: _ => instDecidableTrue
  | .work .. | .call .. | .task .. | .application .. | .start .. | .complete .. =>
    instDecidableTrue

/-- Two sends are given to two workers, but the first is submitted when the second is requested. -/
theorem sends_in_order_two :
    ∃ state : State 2 2 1 Unit, SendsInOrder state.shared 0 ∧
      (sendsOf 0 state.shared.submissions).map Handle.operation =
        [.sendBuffer 0 [1], .sendBuffer 0 [2]] := by
  -- The second send is requested when the first worker has submitted the first one.
  have executed : (execWhile (step smallConfig) OneAtATime (State.init 2 2 1 smallConfig ())
      (acceptTwo ++ receiveFirst ++ sendOne 1 0 ++ List.replicate 9 (.work 1 false) ++
        sendOne 2 1 ++ List.replicate 7 (.work 0 false))).any fun state =>
      (sendsOf 0 state.shared.submissions).map Handle.operation =
        [.sendBuffer 0 [1], .sendBuffer 0 [2]] := by decide +kernel
  obtain ⟨state, reached, values⟩ := (Option.any_eq_true _ _).mp executed
  exact ⟨state, sends_in_order (by decide) (.of_execWhile reached) 0, of_decide_eq_true values⟩

/-- Two sends made one after the other go to two workers, and the second one flushes first. -/
theorem send_order_fails :
    ∃ (labels : List (Label 2 1 Unit)) (state : State 2 2 1 Unit),
      Run (step smallConfig) anyStep (State.init 2 2 1 smallConfig ()) labels state ∧
      (sendsOf 0 state.shared.submissions).map Handle.operation =
        [.sendBuffer 0 [2], .sendBuffer 0 [1]] ∧ ¬ SendsInOrder state.shared 0 := by
  -- The second worker flushes while the first one is still busy with a recv.
  have executed : (exec (step smallConfig) (State.init 2 2 1 smallConfig ())
      (acceptTwo ++ sendOne 1 0 ++ sendOne 2 1 ++ List.replicate 9 (.work 1 false) ++
        receiveFirst ++ List.replicate 7 (.work 0 false))).any fun state =>
      (sendsOf 0 state.shared.submissions).map Handle.operation =
        [.sendBuffer 0 [2], .sendBuffer 0 [1]] ∧ ¬ SendsInOrder state.shared 0 := by
    decide +kernel
  obtain ⟨state, reached, values⟩ := (Option.any_eq_true _ _).mp executed
  exact ⟨_, state, .of_exec reached, of_decide_eq_true values⟩

end Runs

end Braid.Service
