import Braid.Service.Latency
import Braid.Service.RoundRobin

/-! What a service is built with, and what it has requested before its workers start. -/

namespace Braid.Service

open Counting Transition
open Memory (Slot)

variable {m n k : Nat} {ω : Type}

section Builder

/-- The fields of a `Service` that say how it is run. -/
structure Settings where
  sessionCount : Int := 1000
  threadCount : Int := 4
  queueDepthPerThread : Int := 1024
  backlog : Int := 4096
  deriving DecidableEq

/-- A `ServiceBuilder`: the service that it sets up, and a backlog of its own. -/
structure ServiceBuilder where
  serviceInstance : Settings := {}
  backlog : Int := 128
  deriving DecidableEq

/-- A call of one of the setters. -/
inductive Setter where
  | setBacklog (backlog : Int)
  | setThreadCount (threadCount : Int)
  | setSessionCount (sessionCount : Int)
  | setQueueDepthPerThread (queueDepth : Int)

namespace ServiceBuilder

/-- `set_backlog` sets the backlog of the builder, and not the one of the service. -/
def setBacklog (builder : ServiceBuilder) (backlog : Int) : ServiceBuilder :=
  { builder with backlog := backlog }

/-- `set_thread_count`. -/
def setThreadCount (builder : ServiceBuilder) (threadCount : Int) : ServiceBuilder :=
  { builder with serviceInstance := { builder.serviceInstance with threadCount := threadCount } }

/-- `set_session_count`. -/
def setSessionCount (builder : ServiceBuilder) (sessionCount : Int) : ServiceBuilder :=
  { builder with serviceInstance := { builder.serviceInstance with sessionCount := sessionCount } }

/-- `set_queue_depth_per_thread`. -/
def setQueueDepthPerThread (builder : ServiceBuilder) (queueDepth : Int) : ServiceBuilder :=
  { builder with
    serviceInstance := { builder.serviceInstance with queueDepthPerThread := queueDepth } }

/-- The setter that is called. -/
def call (builder : ServiceBuilder) : Setter → ServiceBuilder
  | .setBacklog backlog => builder.setBacklog backlog
  | .setThreadCount threadCount => builder.setThreadCount threadCount
  | .setSessionCount sessionCount => builder.setSessionCount sessionCount
  | .setQueueDepthPerThread queueDepth => builder.setQueueDepthPerThread queueDepth

/-- `build` hands the service out, and calls `listen` with the backlog of the builder. -/
def build (builder : ServiceBuilder) : Settings × Int :=
  (builder.serviceInstance, builder.backlog)

end ServiceBuilder

/-- What the setters that are called one after another build. -/
def built (setters : List Setter) : Settings × Int :=
  (setters.foldl ServiceBuilder.call {}).build

/-- A service as it is run, with the descriptor it listens on and the handlers it was given. -/
def Settings.config (settings : Settings) (listenFd : Int)
    (dispatcher : MessageDispatcher (Option Nat) (ω × List ActorCall)) (turns : Nat) :
    Config ω where
  backlog := settings.backlog.toNat
  queueDepthPerThread := settings.queueDepthPerThread.toNat
  listenFd := listenFd
  dispatcher := dispatcher
  turns := turns

/-- The value that a setter sets the number of threads to. -/
def Setter.threadCount? : Setter → Option Int
  | .setThreadCount threadCount => some threadCount
  | _ => none

/-- The value that a setter sets the number of sessions to. -/
def Setter.sessionCount? : Setter → Option Int
  | .setSessionCount sessionCount => some sessionCount
  | _ => none

/-- The value that a setter sets the depth of the rings to. -/
def Setter.queueDepth? : Setter → Option Int
  | .setQueueDepthPerThread queueDepth => some queueDepth
  | _ => none

/-- The value that a setter sets the backlog of the builder to. -/
def Setter.backlog? : Setter → Option Int
  | .setBacklog backlog => some backlog
  | _ => none

/-- A field that only some of the calls set has the value of the last of them. -/
theorem foldl_last {σ α β : Type} {call : σ → α → σ} (field : σ → β) (value : α → Option β)
    (each : ∀ state label, field (call state label) = (value label).getD (field state))
    (labels : List α) (state : σ) :
    field (labels.foldl call state) = (labels.filterMap value).getLast?.getD (field state) := by
  -- The induction is on the calls, from the first one on, for every state they begin in.
  induction labels generalizing state with
  | nil => rfl
  | cons label rest ih =>
    rw [List.foldl_cons, ih, each]
    cases set : value label with
    | none => simp [set]
    | some new => simp [set, List.getLast?_cons]

/-- Each setting is the one that was set last, and the number of accepts to request is fixed. -/
theorem built_eq (setters : List Setter) :
    built setters =
      ({ sessionCount := (setters.filterMap Setter.sessionCount?).getLast?.getD 1000
         threadCount := (setters.filterMap Setter.threadCount?).getLast?.getD 4
         queueDepthPerThread := (setters.filterMap Setter.queueDepth?).getLast?.getD 1024
         backlog := 4096 },
        (setters.filterMap Setter.backlog?).getLast?.getD 128) := by
  have last (field : ServiceBuilder → Int) (value : Setter → Option Int)
      (each : ∀ builder setter,
        field (ServiceBuilder.call builder setter) = (value setter).getD (field builder)) :
      field (setters.foldl ServiceBuilder.call {}) =
        (setters.filterMap value).getLast?.getD (field {}) :=
    foldl_last field value each setters {}
  -- No setter sets the backlog of the service.
  have never := last (fun builder => builder.serviceInstance.backlog) (fun _ => none)
    (fun _ setter => by cases setter <;> rfl)
  have threads := last (fun builder => builder.serviceInstance.threadCount) Setter.threadCount?
    (fun _ setter => by cases setter <;> rfl)
  have sessions := last (fun builder => builder.serviceInstance.sessionCount)
    Setter.sessionCount? (fun _ setter => by cases setter <;> rfl)
  have depth := last (fun builder => builder.serviceInstance.queueDepthPerThread)
    Setter.queueDepth? (fun _ setter => by cases setter <;> rfl)
  have own := last ServiceBuilder.backlog Setter.backlog?
    (fun _ setter => by cases setter <;> rfl)
  rw [built]
  -- The builder that the setters lead to is taken apart into its fields.
  generalize setters.foldl ServiceBuilder.call {} = builder at *
  obtain ⟨⟨sessionCount, threadCount, queueDepth, backlog⟩, listened⟩ := builder
  simp_all [ServiceBuilder.build]

end Builder

section Initialize

/-- The workers have not been started: `initialize` comes before `run`. -/
def BeforeRun (_ : State m n k ω) : Label n k ω → Prop
  | .work .. => False
  | _ => True

instance (state : State m n k ω) (label : Label n k ω) : Decidable (BeforeRun state label) :=
  match label with
  | .work .. => instDecidableFalse
  | .run .. | .call .. | .task .. | .application .. | .start .. | .complete .. => instDecidableTrue

/-- The session that an accept is requested for, whether or not the pool has an operation. -/
def Event.asked : Event m → Option (Fin m)
  | .acquired handle _ => handle.operation.accepts
  | .refused operation => operation.accepts
  | _ => none

/-- The operation that has reached no request queue. -/
def Event.lost : Event m → Option (Handle m)
  | .dropped handle => some handle
  | _ => none

/-- The sessions that accepts were requested for, in order. -/
def Shared.asked (shared : Shared m ω) : List (Fin m) := shared.log.filterMap Event.asked

/-- The operations that have reached no request queue, in order. -/
def Shared.lost (shared : Shared m ω) : List (Handle m) := shared.log.filterMap Event.lost

/-- The operations that are given to a worker in its turn, without those that were lost. -/
def inTurn (at_ : Fin n) (handles lost : List (Handle m)) : List (Handle m) :=
  handles.filter fun handle => handle.id % n = at_ ∧ handle ∉ lost

/-- A step of the main thread. -/
def Label.ofMain : Label n k ω → Bool
  | .run .main _ _ => true
  | _ => false

/--
How far a call of `request_accept_one` has come.

The sessions taken from the queue so far are asked for, or the last of them is about to be; the
operations acquired so far are settled, or the last of them is in hand.
-/
inductive Accepting (config : Config ω) (acquisitions : List (Handle m)) (asked : List (Fin m))
    (requestIndex : BitVec 32) (settled : List (Handle m)) (taken : List (Fin m)) :
    List (Todo m n) → Prop
  | between (acquired : acquisitions = settled) (all : asked = taken)
      (index : requestIndex = BitVec.ofNat 32 settled.length) :
    Accepting config acquisitions asked requestIndex settled taken []
  | acquire {session : Fin m} (acquired : acquisitions = settled)
      (last : asked ++ [session] = taken)
      (index : requestIndex = BitVec.ofNat 32 settled.length) :
    Accepting config acquisitions asked requestIndex settled taken
      [.acquire (.accept session config.listenFd)]
  | addRef {handle : Handle m} (acquired : acquisitions = settled ++ [handle])
      (number : handle.id = settled.length) (all : asked = taken)
      (index : requestIndex = BitVec.ofNat 32 settled.length) :
    Accepting config acquisitions asked requestIndex settled taken [.addRef handle]
  | route {handle : Handle m} (acquired : acquisitions = settled ++ [handle])
      (number : handle.id = settled.length) (all : asked = taken)
      (index : requestIndex = BitVec.ofNat 32 settled.length) :
    Accepting config acquisitions asked requestIndex settled taken [.route handle]
  | push {handle : Handle m} {worker : Fin n} (acquired : acquisitions = settled ++ [handle])
      (number : handle.id = settled.length) (all : asked = taken)
      (index : requestIndex = BitVec.ofNat 32 (settled.length + 1))
      (turn : handle.id % n = worker) :
    Accepting config acquisitions asked requestIndex settled taken [.push handle worker]

/--
What the threads share before the workers start.

The sessions that are left are in the queue in order, every operation acquired is an accept whose
memory is in use, and the operations that were lost are settled. No actor is made before a
connection is accepted.
-/
structure Ledger (config : Config ω) (n : Nat) (shared : Shared m ω) (left : Nat)
    (settled : List (Handle m)) : Prop where
  queue : shared.sessionsQueue = (List.finRange m).drop (config.backlog - left)
  number : shared.nextOperation = shared.acquisitions.length
  operations : ∀ handle ∈ shared.acquisitions,
    ∃ session, handle.operation = .accept session config.listenFd
  memory : ∀ handle ∈ shared.acquisitions, shared.memory handle.id ≠ none
  lost : ∀ handle ∈ shared.lost, handle ∈ settled
  actors : shared.actors = []
  fault : shared.fault = none ∨ n = 0 ∧ shared.fault = some .divisionByZero

/-- What holds before the workers start, with some calls of `request_accept_one` still to come. -/
structure Starting (config : Config ω) (state : State m n k ω) (left : Nat)
    (settled : List (Handle m)) (current : List (Todo m n)) : Prop where
  main : state.todo .main = current ++ List.replicate left .acceptOne
  accepting : Accepting config state.shared.acquisitions state.shared.asked
    state.shared.requestIndex settled ((List.finRange m).take (config.backlog - left)) current
  ledger : Ledger config n state.shared left settled
  left_le : left ≤ config.backlog
  within : settled.length + current.length ≤ config.backlog - left
  numbered : settled.map Handle.id = List.range settled.length
  worker : ∀ at_, state.worker at_ = { requestQueue := inTurn at_ settled state.shared.lost }
  idle : ∀ at_, state.todo (.worker at_) = []
  application : ∀ thread, ∀ todo ∈ state.todo (.application thread), ∃ call, todo = .call call

variable {config : Config ω} {state next : State m n k ω} {left : Nat}
  {settled : List (Handle m)} {current : List (Todo m n)}

/-- The main thread has all its accepts to request when nothing has happened yet. -/
theorem init_starting (config : Config ω) (world : ω) :
    Starting config (State.init m n k config world) config.backlog [] [] where
  main := rfl
  accepting := .between rfl (by simp [Shared.asked, State.init]) rfl
  ledger :=
    { queue := by simp [State.init]
      number := rfl
      operations := fun _ member => by cases member
      memory := fun _ member => by cases member
      lost := fun _ member => by cases member
      actors := rfl
      fault := .inl rfl }
  left_le := Nat.le_refl _
  within := Nat.zero_le _
  numbered := rfl
  worker _ := rfl
  idle _ := rfl
  application _ _ member := by cases member

variable {slot : Option Slot} {fails : Bool} {rest more : List (Todo m n)}
  {after : Shared m ω} {pushed : Option (Fin n × Handle m)}

/-- The state behind a step of the main thread, which has some calls of its loop left. -/
def State.mainStep (state : State m n k ω) (after : Shared m ω) (current : List (Todo m n))
    (left : Nat) (pushed : Option (Fin n × Handle m)) : State m n k ω :=
  ((state.setShared after).setTodo .main (current ++ List.replicate left .acceptOne)).pushRequest
    pushed

/-- A step that pushes nothing and loses nothing leads to what comes next in the same call. -/
theorem Starting.goOn {left' : Nat} {current' : List (Todo m n)}
    (starting : Starting config state left settled current)
    (lost : after.lost = state.shared.lost)
    (accepting : Accepting config after.acquisitions after.asked after.requestIndex settled
      ((List.finRange m).take (config.backlog - left')) current')
    (ledger : Ledger config n after left' settled) (left_le : left' ≤ config.backlog)
    (within : settled.length + current'.length ≤ config.backlog - left') :
    Starting config (state.mainStep after current' left' none) left' settled current' where
  main := setTodo_self ..
  accepting := accepting
  ledger := ledger
  left_le := left_le
  within := within
  numbered := starting.numbered
  worker at_ := (starting.worker at_).trans (by rw [← lost]; rfl)
  idle at_ := (setTodo_of_ne _ (by simp) _).trans (starting.idle at_)
  application thread := by
    -- The calls of the application are left alone.
    have same : (state.mainStep after current' left' none).todo (.application thread) =
        state.todo (.application thread) := setTodo_of_ne _ (by simp) _
    rw [same]
    exact starting.application thread

/-- What is shared changes in a step that acquires nothing and takes no session. -/
theorem Ledger.aside {shared : Shared m ω} (ledger : Ledger config n shared left settled)
    (queue : after.sessionsQueue = shared.sessionsQueue)
    (acquisitions : after.acquisitions = shared.acquisitions)
    (number : after.nextOperation = shared.nextOperation)
    (memory : ∀ id, shared.memory id ≠ none → after.memory id ≠ none)
    (lost : after.lost = shared.lost) (actors : after.actors = shared.actors)
    (fault : after.fault = none ∨ n = 0 ∧ after.fault = some .divisionByZero) :
    Ledger config n after left settled where
  queue := queue.trans ledger.queue
  number := by rw [number, acquisitions, ledger.number]
  operations := acquisitions ▸ ledger.operations
  memory := acquisitions ▸ fun handle member => memory handle.id (ledger.memory handle member)
  lost := lost ▸ ledger.lost
  actors := actors.trans ledger.actors
  fault := fault

/-- The next call takes a session from the queue, if there is one. -/
theorem Starting.accept (starting : Starting config state (left + 1) settled [])
    (stepped : todoStep config state.shared slot fails .acceptOne = some (after, more, pushed)) :
    Starting config (state.mainStep after more left pushed) left settled more := by
  have bound := starting.left_le
  -- One more call of the loop has begun.
  have taken : config.backlog - left = config.backlog - (left + 1) + 1 := by omega
  have within := starting.within
  simp only [List.length_nil, Nat.add_zero] at within
  obtain ⟨acquired, all, index⟩ : state.shared.acquisitions = settled ∧
      state.shared.asked = (List.finRange m).take (config.backlog - (left + 1)) ∧
        state.shared.requestIndex = BitVec.ofNat 32 settled.length := by
    cases starting.accepting with
    | between acquired all index => exact ⟨acquired, all, index⟩
  -- What is taken from the front of the queue is the next one of the sessions.
  have takeNext : (List.finRange m).take (config.backlog - left) =
      (List.finRange m).take (config.backlog - (left + 1)) ++
        state.shared.sessionsQueue.head?.toList := by
    rw [taken, List.take_add_one, ← List.head?_drop, starting.ledger.queue]
  have dropNext : (List.finRange m).drop (config.backlog - left) =
      state.shared.sessionsQueue.tail := by
    rw [taken, starting.ledger.queue, List.tail_drop]
  simp only [todoStep] at stepped
  split at stepped <;> cases stepped
  · -- No session is left, and the call returns.
    rename_i empty
    rw [empty] at takeNext dropNext
    refine starting.goOn rfl (.between acquired ?_ index)
      { starting.ledger with queue := empty.trans dropNext.symm } (by omega)
      (by simp only [List.length_nil]; omega)
    rw [takeNext, all]
    exact (List.append_nil _).symm
  · -- The session in front is taken, and an operation is asked for.
    rename_i session others queue
    rw [queue] at takeNext dropNext
    exact starting.goOn rfl (.acquire acquired (by rw [takeNext, ← all]; rfl) index)
      { starting.ledger with queue := dropNext.symm } (by omega)
      (by simp only [List.length_singleton]; omega)

/-- The pool has an operation for the accept, or the request ends without one. -/
theorem Starting.ask {session : Fin m}
    (starting : Starting config state left settled [.acquire (.accept session config.listenFd)])
    (stepped : todoStep config state.shared slot fails
      (.acquire (.accept session config.listenFd)) = some (after, more, pushed)) :
    Starting config (state.mainStep after more left pushed) left settled more := by
  have within := starting.within
  simp only [List.length_singleton] at within
  obtain ⟨acquired, last, index⟩ : state.shared.acquisitions = settled ∧
      state.shared.asked ++ [session] = (List.finRange m).take (config.backlog - left) ∧
        state.shared.requestIndex = BitVec.ofNat 32 settled.length := by
    cases starting.accepting with
    | acquire acquired last index => exact ⟨acquired, last, index⟩
  have ledger := starting.ledger
  simp only [todoStep] at stepped
  split at stepped
  · cases stepped
    -- Nothing is acquired, and the session is asked for in vain.
    generalize refused : state.shared.record [.refused (.accept session config.listenFd)] = after
    have acquisitions : after.acquisitions = state.shared.acquisitions := by
      simp [← refused, Shared.acquisitions, Shared.record, Event.acquisition]
    have asked : after.asked = state.shared.asked ++ [session] := by
      simp [← refused, Shared.asked, Shared.record, Event.asked, Operation.accepts]
    have lost : after.lost = state.shared.lost := by
      simp [← refused, Shared.lost, Shared.record, Event.lost]
    refine starting.goOn lost (.between (acquisitions.trans acquired) (asked.trans last) ?_)
      (ledger.aside ?_ acquisitions ?_ ?_ lost ?_ ?_) starting.left_le
      (by simp only [List.length_nil]; omega)
    -- The rest of what the threads share is as it was.
    all_goals subst refused
    · exact index
    · rfl
    · rfl
    · exact fun _ alive => alive
    · rfl
    · exact ledger.fault
  · rename_i free
    split at stepped <;> cases stepped
    -- The operation acquired is the last one, and its memory is in use from now on.
    generalize got : ({ Shared.record _ _ with nextOperation := _ } : Shared m ω) = after
    have acquisitions : after.acquisitions = state.shared.acquisitions ++
        [⟨state.shared.nextOperation, .accept session config.listenFd⟩] := by
      simp [← got, Shared.acquisitions, Shared.record, Shared.setCell, Shared.setHeld,
        Event.acquisition]
    have asked : after.asked = state.shared.asked ++ [session] := by
      simp [← got, Shared.asked, Shared.record, Shared.setCell, Shared.setHeld, Event.asked,
        Operation.accepts]
    have lost : after.lost = state.shared.lost := by
      simp [← got, Shared.lost, Shared.record, Shared.setCell, Shared.setHeld, Event.lost]
    have number : after.nextOperation = state.shared.nextOperation + 1 := by rw [← got]
    have memory (id : Nat) : after.memory id =
        if id = state.shared.nextOperation then some ⟨.accept, free, 0⟩
        else state.shared.memory id := by
      rw [← got]
      exact Function.update_apply ..
    refine starting.goOn lost (.addRef (by rw [acquisitions, acquired]) ?_ (asked.trans last) ?_)
      ⟨?_, ?_, fun handle member => ?_, fun handle member => ?_, ?_, ?_, ?_⟩ starting.left_le
      (by simp only [List.length_singleton]; omega)
    · rw [ledger.number, acquired]
    · rw [← got]
      exact index
    · rw [← got]
      exact ledger.queue
    · rw [number, acquisitions, ledger.number, List.length_append, List.length_singleton]
    · -- An operation acquired earlier keeps what it has, and the new one is an accept.
      rw [acquisitions] at member
      rcases List.mem_append.mp member with old | new
      · exact ledger.operations handle old
      · exact ⟨session, by rw [List.mem_singleton.mp new]⟩
    · -- Memory is in use for the new operation, and still for the earlier ones.
      rw [memory]
      split
      · simp
      · rename_i different
        rw [acquisitions] at member
        rcases List.mem_append.mp member with old | new
        · exact ledger.memory handle old
        · exact absurd (by rw [List.mem_singleton.mp new]) different
    · rw [lost]
      exact ledger.lost
    · rw [← got]
      exact ledger.actors
    · rw [← got]
      exact ledger.fault

/-- The reference is taken to an operation that has just been acquired. -/
theorem Starting.count {handle : Handle m}
    (starting : Starting config state left settled [.addRef handle])
    (stepped : todoStep config state.shared slot fails (.addRef handle) =
      some (after, more, pushed)) :
    Starting config (state.mainStep after more left pushed) left settled more := by
  have ledger := starting.ledger
  have within := starting.within
  cases starting.accepting with
  | addRef acquired number all index =>
    simp only [todoStep] at stepped
    split at stepped <;> cases stepped
    · -- The memory of an operation in hand is in use.
      rename_i missing
      exact absurd missing (ledger.memory handle (by simp [acquired]))
    · -- The count changes, and no memory goes back.
      refine starting.goOn rfl (.route acquired number all index)
        (ledger.aside rfl rfl rfl (fun id alive => ?_) rfl rfl ledger.fault) starting.left_le within
      simp only [Shared.setCell, Function.update_apply]
      split <;> simp [alive]

/-- The worker whose turn it is has the number of the operation, as the counter has not wrapped. -/
theorem Starting.turn {handle : Handle m} (early : config.backlog < 2 ^ 31)
    (starting : Starting config state left settled [.route handle])
    (stepped : todoStep config state.shared slot fails (.route handle) =
      some (after, more, pushed)) :
    Starting config (state.mainStep after more left pushed) left settled more := by
  have ledger := starting.ledger
  have within := starting.within
  simp only [List.length_singleton] at within
  cases starting.accepting with
  | route acquired number all index =>
    simp only [todoStep] at stepped
    split at stepped
    · -- Without a worker the index is divided by zero, and the program stops.
      rename_i none_
      cases stepped
      exact starting.goOn rfl (.route acquired number all index)
        (ledger.aside rfl rfl rfl (fun _ alive => alive) rfl rfl (.inr ⟨none_, rfl⟩))
        starting.left_le starting.within
    · rename_i some_
      -- As many operations have been routed before as are settled, and that is the index.
      obtain ⟨worker, routed, turn⟩ :=
        rightTurn_early (n := n) (by omega) (show settled.length < 2 ^ 31 by omega)
      rw [index, routed] at stepped
      cases stepped
      refine starting.goOn rfl (.push acquired number all ?_ (by rw [number, turn]))
        (ledger.aside rfl rfl rfl (fun _ alive => alive) rfl rfl ledger.fault)
        starting.left_le starting.within
      rw [BitVec.ofNat_add]
      rfl

/-- An operation in hand is none of those that are settled. -/
theorem Starting.fresh (starting : Starting config state left settled current)
    {handle : Handle m} (number : handle.id = settled.length) : handle ∉ settled := by
  -- The settled ones have the numbers below its own.
  intro member
  have listed : handle.id ∈ settled.map Handle.id := List.mem_map.mpr ⟨handle, member, rfl⟩
  rw [starting.numbered, List.mem_range, number] at listed
  exact Nat.lt_irrefl _ listed

/-- An operation that is settled behind the others goes to its worker if it is not lost. -/
theorem inTurn_append (at_ : Fin n) {handles lost : List (Handle m)} (handle : Handle m) :
    inTurn at_ (handles ++ [handle]) lost = inTurn at_ handles lost ++
      if handle.id % n = at_ ∧ handle ∉ lost then [handle] else [] := by
  rw [inTurn, List.filter_append, List.filter_singleton, inTurn]
  -- Only the new one is to be looked at.
  by_cases given : handle.id % n = at_ ∧ handle ∉ lost <;> simp [given]

/-- A loss of another operation leaves those that are given to a worker as they are. -/
theorem inTurn_lost (at_ : Fin n) {handles : List (Handle m)} (lost : List (Handle m))
    {handle : Handle m} (fresh : handle ∉ handles) :
    inTurn at_ handles (lost ++ [handle]) = inTurn at_ handles lost := by
  refine List.filter_congr fun other member => ?_
  have different : other ≠ handle := fun same => fresh (same ▸ member)
  simp [different]

/-- A step that settles the operation in hand leads to the next call. -/
theorem Starting.goAhead {handle : Handle m} {worker : Fin n}
    (starting : Starting config state left settled [.push handle worker])
    (acquisitions : after.acquisitions = state.shared.acquisitions)
    (asked : after.asked = state.shared.asked)
    (requestIndex : after.requestIndex = state.shared.requestIndex)
    (ledger : Ledger config n after left (settled ++ [handle]))
    (workers : ∀ at_, (state.mainStep after [] left pushed).worker at_ =
      { requestQueue := inTurn at_ (settled ++ [handle]) after.lost }) :
    Starting config (state.mainStep after [] left pushed) left (settled ++ [handle]) [] := by
  have within := starting.within
  have length : (settled ++ [handle]).length = settled.length + 1 := by simp
  cases starting.accepting with
  | push acquired number all index turn =>
    -- The step is one of the main thread, and the others have to do what they had.
    have todo (context : Context n k) (different : context ≠ .main) :
        (state.mainStep after [] left pushed).todo context = state.todo context := by
      rw [State.mainStep, pushRequest_todo, setTodo_of_ne _ different]
      rfl
    have sharedAfter : (state.mainStep after [] left pushed).shared = after := by
      cases pushed <;> rfl
    exact
      { main := by rw [State.mainStep, pushRequest_todo, setTodo_self]
        accepting := by
          rw [sharedAfter]
          exact .between (acquisitions.trans acquired) (asked.trans all)
            (by rw [requestIndex, index, length])
        ledger := by rwa [sharedAfter]
        left_le := starting.left_le
        within := by rw [length]; exact within
        numbered := by
          rw [List.map_append, starting.numbered, length, List.range_succ, List.map_singleton,
            number]
        worker := by rwa [sharedAfter]
        idle := fun at_ => (todo _ (by simp)).trans (starting.idle at_)
        application := fun thread => by rw [todo _ (by simp)]; exact starting.application thread }

/-- The operation in hand is pushed to its worker, or lost. -/
theorem Starting.settle {handle : Handle m} {worker : Fin n}
    (starting : Starting config state left settled [.push handle worker])
    (stepped : todoStep config state.shared slot fails (.push handle worker) =
      some (after, more, pushed)) :
    more = [] ∧
      Starting config (state.mainStep after [] left pushed) left (settled ++ [handle]) [] := by
  have ledger := starting.ledger
  cases starting.accepting with
  | push acquired number all index turn =>
    -- The operation in hand is not settled, and so it is not lost either.
    have fresh := starting.fresh number
    have kept : handle ∉ state.shared.lost := fun member => fresh (ledger.lost handle member)
    simp only [todoStep] at stepped
    split at stepped <;> cases stepped
    · -- What is lost goes to no worker.
      have acquisitions : (state.shared.record [.dropped handle]).acquisitions =
          state.shared.acquisitions := by
        simp [Shared.acquisitions, Shared.record, Event.acquisition]
      have asked : (state.shared.record [.dropped handle]).asked = state.shared.asked := by
        simp [Shared.asked, Shared.record, Event.asked]
      have lost : (state.shared.record [.dropped handle]).lost =
          state.shared.lost ++ [handle] := by
        simp [Shared.lost, Shared.record, Event.lost]
      refine ⟨rfl, starting.goAhead acquisitions asked rfl ⟨ledger.queue, ?_, ?_, ?_,
        fun other member => ?_, ledger.actors, ledger.fault⟩ fun at_ => ?_⟩
      · rw [acquisitions]
        exact ledger.number
      · rw [acquisitions]
        exact ledger.operations
      · rw [acquisitions]
        exact ledger.memory
      · rw [lost] at member
        exact List.mem_append.mpr ((List.mem_append.mp member).imp_left (ledger.lost other))
      · rw [lost, inTurn_append, inTurn_lost at_ _ fresh]
        simpa [State.mainStep, State.pushRequest, State.setTodo, State.setShared] using
          starting.worker at_
    · -- What is pushed goes to the end of the queue of its worker, and to no other one.
      refine ⟨rfl, starting.goAhead rfl rfl rfl { ledger with
        lost := fun other member => List.mem_append.mpr (.inl (ledger.lost other member)) }
        fun at_ => ?_⟩
      rw [inTurn_append]
      by_cases same : at_ = worker
      · subst same
        simp [State.mainStep, State.pushRequest, starting.worker, State.setTodo, State.setShared,
          turn, kept]
      · have elsewhere : ¬ handle.id % n = at_ := by
          rw [turn]
          exact fun equal => same (Fin.ext equal.symm)
        simp [State.mainStep, State.pushRequest, setWorker_of_ne _ same, starting.worker,
          State.setTodo, State.setShared, elsewhere]

/-- Every step of the main thread goes on with its calls of `request_accept_one`. -/
theorem Starting.run {todo : Todo m n} (early : config.backlog < 2 ^ 31)
    (starting : Starting config state left settled current)
    (head : state.todo .main = todo :: rest)
    (stepped : todoStep config state.shared slot fails todo = some (after, more, pushed)) :
    ∃ left' settled' current', Starting config
      (((state.setShared after).setTodo .main (more ++ rest)).pushRequest pushed)
      left' settled' current' := by
  have main := starting.main
  rw [head] at main
  -- One case for each of the places of a call.
  cases starting.accepting with
  | between =>
    -- The next call begins, if there is one left.
    cases left with
    | zero => cases main
    | succ left =>
      cases main
      exact ⟨left, settled, more, starting.accept stepped⟩
  | acquire => cases main; exact ⟨left, settled, more, starting.ask stepped⟩
  | addRef => cases main; exact ⟨left, settled, more, starting.count stepped⟩
  | route => cases main; exact ⟨left, settled, more, starting.turn early stepped⟩
  | push =>
    cases main
    obtain ⟨rfl, next⟩ := starting.settle stepped
    exact ⟨left, _, [], next⟩

/-- Another thread changes nothing but the calls that it makes itself. -/
theorem Starting.call {thread : Fin k} {calls : List (Todo m n)}
    (starting : Starting config state left settled current)
    (only : ∀ todo ∈ calls, ∃ call, todo = .call call) :
    Starting config (state.setTodo (.application thread) calls) left settled current := by
  have main := setTodo_of_ne state (by simp : Context.main ≠ .application thread) calls
  have worker (at_ : Fin n) :=
    setTodo_of_ne state (by simp : Context.worker at_ ≠ .application thread) calls
  refine { starting with
    main := main.trans starting.main
    idle := fun at_ => (worker at_).trans (starting.idle at_)
    application := fun other => ?_ }
  -- The thread has the calls that it begins, and the others have those of before.
  by_cases same : other = thread
  · subst same
    rwa [setTodo_self]
  · rw [setTodo_of_ne _ (by simpa using same)]
    exact starting.application other

/-- Every step before the workers start keeps what holds, whoever takes it. -/
theorem step_starting {label : Label n k ω} (early : config.backlog < 2 ^ 31)
    (starting : ∃ left settled current, Starting config state left settled current)
    (before : BeforeRun state label) (taken : step config state label = some next) :
    ∃ left settled current, Starting config next left settled current := by
  obtain ⟨left, settled, current, starting⟩ := starting
  -- One case for each label, in the order of `step`.
  unfold step at taken
  split at taken
  · cases taken
  · split at taken
    · rename_i context slot fails
      split at taken
      · cases taken
      · rename_i todo rest head
        obtain ⟨⟨after, more, pushed⟩, stepped, rfl⟩ := Option.map_eq_some_iff.mp taken
        cases context with
        | main => exact starting.run early head stepped
        | application thread =>
          -- There is no actor yet, so that a call ends at once.
          obtain ⟨call, rfl⟩ := starting.application thread todo (by simp [head])
          simp only [todoStep, starting.ledger.actors, List.getElem?_nil, Option.some.injEq,
            Prod.mk.injEq] at stepped
          obtain ⟨rfl, rfl, rfl⟩ := stepped
          refine ⟨left, settled, current, starting.call fun todo member => ?_⟩
          exact starting.application thread todo (by rw [head]; exact .tail _ member)
        | worker at_ =>
          rw [starting.idle at_] at head
          cases head
    · -- The workers have not been started.
      exact before.elim
    · split at taken
      · cases taken
        exact ⟨left, settled, current, starting.call (by simp)⟩
      · cases taken
    · rename_i at_ call
      split at taken
      · rename_i ready
        -- No worker runs tasks, and nothing has been handed to the kernel.
        rw [starting.worker at_] at ready
        cases ready.1
      · cases taken
    · cases taken
      exact ⟨left, settled, current, { starting with ledger := { starting.ledger with } }⟩
    · rename_i at_ i
      rw [starting.worker at_] at taken
      cases taken
    · rename_i at_ i result data
      rw [starting.worker at_] at taken
      cases taken

/-- Only the main thread itself does what it has to do. -/
theorem step_main {label : Label n k ω} (other : label.ofMain = false)
    (taken : step config state label = some next) : next.todo .main = state.todo .main := by
  -- Each label changes what one context has to do at most, and that context is not the main one.
  unfold step at taken
  split at taken
  · cases taken
  · split at taken
    · rename_i context slot fails
      -- A step of another thread.
      have different : Context.main ≠ context := by
        rintro rfl
        cases other
      split at taken
      · cases taken
      · obtain ⟨⟨after, more, pushed⟩, stepped, rfl⟩ := Option.map_eq_some_iff.mp taken
        rw [pushRequest_todo, setTodo_of_ne _ different]
        rfl
    · split at taken <;> cases taken
      exact setTodo_of_ne _ (by simp) _
    · split at taken <;> cases taken
      exact setTodo_of_ne _ (by simp) _
    · split at taken <;> cases taken
      exact setTodo_of_ne _ (by simp) _
    · cases taken
      rfl
    · obtain ⟨entry, found, rfl⟩ := Option.map_eq_some_iff.mp taken
      rfl
    · obtain ⟨started, found, completed⟩ := Option.bind_eq_some_iff.mp taken
      obtain ⟨shared, done, rfl⟩ := Option.map_eq_some_iff.mp completed
      rfl

/-- A step of the main thread is one of those that its calls still need. -/
theorem step_ofMain {label : Label n k ω} (own : label.ofMain = true)
    (taken : step config state label = some next) :
    1 ≤ tally Todo.left (state.todo .main) ∧ (next.shared.fault = none →
      tally Todo.left (next.todo .main) + 1 ≤ tally Todo.left (state.todo .main)) := by
  cases label with
  | run context slot fails =>
    cases context with
    | main =>
      unfold step at taken
      split at taken
      · cases taken
      · dsimp only at taken
        split at taken
        · cases taken
        · rename_i todo rest head
          obtain ⟨⟨after, more, pushed⟩, stepped, rfl⟩ := Option.map_eq_some_iff.mp taken
          have positive : 1 ≤ todo.left := by cases todo <;> simp [Todo.left]
          have sharedAfter : ((((state.setShared after).setTodo .main (more ++ rest)).pushRequest
              pushed)).shared = after := by cases pushed <;> rfl
          rw [head, tally_cons, pushRequest_todo, setTodo_self, tally_append, sharedAfter]
          refine ⟨by omega, fun running => ?_⟩
          -- Every step of a call needs one step less behind it.
          have closer := todoStep_left stepped running
          dsimp only
          omega
    | application | worker => cases own
  | _ => cases own

/-- The steps of the main thread are bounded by the calls that it makes. -/
theorem mainSteps_le {world : ω} {labels : List (Label n k ω)}
    (run : Run (step config) BeforeRun (State.init m n k config world) labels state) :
    labels.countP Label.ofMain ≤ 5 * config.backlog ∧ (state.shared.fault = none →
      labels.countP Label.ofMain + tally Todo.left (state.todo .main) ≤ 5 * config.backlog) := by
  -- What has been done and what is left to do are paid for by the calls that are made.
  induction run with
  | refl =>
    -- At the beginning each call has at most five steps before it.
    refine ⟨Nat.zero_le _, fun _ => ?_⟩
    have bound := tally_left_le (n := n) (List.replicate config.backlog (Todo.acceptOne : Todo m n))
    rw [List.length_replicate] at bound
    rw [List.countP_nil, Nat.zero_add]
    exact bound
  | @snoc labels before next label run permitted taken ih =>
    -- A step is taken only while the program has not stopped.
    have paid := ih.2 (step_moved config taken).1
    rw [List.countP_append, List.countP_singleton]
    cases own : label.ofMain with
    | true =>
      obtain ⟨needed, closer⟩ := step_ofMain own taken
      simp only [if_true]
      exact ⟨by omega, fun running => by have := closer running; omega⟩
    | false =>
      rw [step_main own taken]
      simp only [Bool.false_eq_true, if_false]
      exact ⟨by omega, fun _ => by omega⟩

/--
What a service has requested before its workers start, however it was built.

Each setter counts with its last call, but the backlog that is set is only that of the listening
socket: between two calls of `request_accept_one`, and when `initialize` returns, accepts have been
requested for the sessions in their order, one for each of the 4096 calls while there are sessions
left. The operations that the pool had are given to the workers in turn, and each worker has those
of its turn that were not lost, and nothing else. The main thread comes to its end.
-/
theorem initialize_accepts {setters : List Setter} {listenFd : Int} {turns : Nat}
    {dispatcher : MessageDispatcher (Option Nat) (ω × List ActorCall)} {world : ω}
    {labels : List (Label n k ω)} (sessions : (built setters).1.sessionCount = m)
    (threads : (built setters).1.threadCount = n)
    (run : Run (step ((built setters).1.config listenFd dispatcher turns)) BeforeRun
      (State.init m n k ((built setters).1.config listenFd dispatcher turns) world) labels state) :
    built setters =
      ({ sessionCount := (setters.filterMap Setter.sessionCount?).getLast?.getD 1000
         threadCount := (setters.filterMap Setter.threadCount?).getLast?.getD 4
         queueDepthPerThread := (setters.filterMap Setter.queueDepth?).getLast?.getD 1024
         backlog := 4096 },
        (setters.filterMap Setter.backlog?).getLast?.getD 128) ∧
    (∀ left, state.todo .main = List.replicate left .acceptOne →
      left ≤ 4096 ∧ state.shared.asked = (List.finRange m).take (4096 - left) ∧
      state.shared.sessionsQueue = (List.finRange m).drop (4096 - left) ∧
      state.shared.acquisitions.map Handle.id = List.range state.shared.acquisitions.length ∧
      (∀ handle ∈ state.shared.acquisitions,
        ∃ session, handle.operation = .accept session listenFd) ∧
      ∀ at_, state.worker at_ =
        { requestQueue := inTurn at_ state.shared.acquisitions state.shared.lost }) ∧
    (state.todo .main = [] →
      (state.shared.asked.length : Int) = min (built setters).1.sessionCount 4096) ∧
    (state.shared.fault = none ∨
      (built setters).1.threadCount = 0 ∧ state.shared.fault = some .divisionByZero) ∧
    labels.countP Label.ofMain ≤ 5 * 4096 ∧
    (state.shared.fault = none → state.todo .main ≠ [] →
      ∃ label next, label.ofMain = true ∧
        step ((built setters).1.config listenFd dispatcher turns) state label = some next) := by
  -- The service that is built has the backlog that no setter has touched.
  generalize set : (built setters).1.config listenFd dispatcher turns = config at *
  have backlog : config.backlog = 4096 := by rw [← set, built_eq]; rfl
  have listening : config.listenFd = listenFd := by rw [← set]; rfl
  obtain ⟨left, settled, current, starting⟩ := run.invariant
    ⟨_, _, _, init_starting config world⟩
    fun _ _ _ starting before taken => step_starting (by omega) starting before taken
  have between (remaining : Nat) (main : state.todo .main = List.replicate remaining .acceptOne) :
      remaining ≤ 4096 ∧ state.shared.asked = (List.finRange m).take (4096 - remaining) ∧
        state.shared.sessionsQueue = (List.finRange m).drop (4096 - remaining) ∧
        state.shared.acquisitions = settled := by
    have listed := starting.main.symm.trans main
    -- A call that is under way has left behind what every call begins with.
    have others : current = [] := by
      cases remaining with
      | zero => exact (List.append_eq_nil_iff.mp listed).1
      | succ remaining =>
        rw [List.replicate_succ] at listed
        cases starting.accepting with
        | between => rfl
        | _ => cases listed
    subst others
    have same : left = remaining := by simpa using congrArg List.length listed
    subst same
    rw [← backlog]
    cases starting.accepting with
    | between acquired all => exact ⟨starting.left_le, all, starting.ledger.queue, acquired⟩
  refine ⟨built_eq setters, fun remaining main => ?_, fun returned => ?_,
    starting.ledger.fault.imp_right fun ⟨none_, stopped⟩ => ⟨by rw [threads, none_]; rfl, stopped⟩,
    ?_, fun running more => ?_⟩
  · -- What is acquired is settled, and was given to the workers.
    obtain ⟨bound, asked, queue, acquired⟩ := between remaining main
    refine ⟨bound, asked, queue, ?_, listening ▸ starting.ledger.operations, ?_⟩
    · rw [acquired]
      exact starting.numbered
    · rw [acquired]
      exact starting.worker
  · -- There are no calls left, and as many sessions were asked for as the smaller number says.
    obtain ⟨-, asked, -⟩ := between 0 returned
    rw [asked, sessions, List.length_take, List.length_finRange]
    omega
  · rw [← backlog]
    exact (mainSteps_le run).1
  · -- Without a slot from the pool every step of a call can be taken.
    obtain ⟨todo, rest, head⟩ := List.exists_cons_of_ne_nil more
    obtain ⟨result, stepped⟩ := exists_todoStep config state.shared todo
    have taken : (step config state (.run .main none false)).isSome := by
      simp [step, running, head, stepped]
    exact ⟨.run .main none false, _, rfl, Option.eq_some_of_isSome taken⟩

/-- Three sessions and two workers, with a backlog that does not count. -/
def threeSessions : List Setter :=
  [.setThreadCount 8, .setBacklog 2, .setSessionCount 3, .setThreadCount 2]

/-- Three accepts are requested, and the pool has no operation for the second one. -/
def threeAccepts : List (Label 2 1 Unit) :=
  [.run .main none false, .run .main (some ⟨0, 0⟩) false, .run .main none false,
    .run .main none false, .run .main none false,
    .run .main none false, .run .main none false,
    .run .main none false, .run .main (some ⟨0, 1⟩) false, .run .main none false,
    .run .main none false, .run .main none false]

/-- The first and the third session are accepted for by the two workers. -/
theorem initialize_accepts_three :
    ∃ state : State 3 2 1 Unit,
      (built threeSessions =
        ({ sessionCount := (threeSessions.filterMap Setter.sessionCount?).getLast?.getD 1000
           threadCount := (threeSessions.filterMap Setter.threadCount?).getLast?.getD 4
           queueDepthPerThread := (threeSessions.filterMap Setter.queueDepth?).getLast?.getD 1024
           backlog := 4096 },
          (threeSessions.filterMap Setter.backlog?).getLast?.getD 128) ∧
      (∀ left, state.todo .main = List.replicate left .acceptOne →
        left ≤ 4096 ∧ state.shared.asked = (List.finRange 3).take (4096 - left) ∧
        state.shared.sessionsQueue = (List.finRange 3).drop (4096 - left) ∧
        state.shared.acquisitions.map Handle.id = List.range state.shared.acquisitions.length ∧
        (∀ handle ∈ state.shared.acquisitions,
          ∃ session, handle.operation = .accept session 3) ∧
        ∀ at_, state.worker at_ =
          { requestQueue := inTurn at_ state.shared.acquisitions state.shared.lost }) ∧
      (state.todo .main = [] →
        (state.shared.asked.length : Int) = min (built threeSessions).1.sessionCount 4096) ∧
      (state.shared.fault = none ∨
        (built threeSessions).1.threadCount = 0 ∧
          state.shared.fault = some .divisionByZero) ∧
      threeAccepts.countP Label.ofMain ≤ 5 * 4096 ∧
      (state.shared.fault = none → state.todo .main ≠ [] →
        ∃ label next, label.ofMain = true ∧
          step ((built threeSessions).1.config 3 {} 1) state label = some next)) ∧
      state.shared.asked = [0, 1, 2] ∧
        (state.worker 0).requestQueue = [⟨0, .accept 0 3⟩] ∧
        (state.worker 1).requestQueue = [⟨1, .accept 2 3⟩] := by
  -- The second accept is refused by the pool, and its turn goes to the third one.
  have executed : (execWhile (step ((built threeSessions).1.config 3 {} 1)) BeforeRun
      (State.init 3 2 1 ((built threeSessions).1.config 3 {} 1) ()) threeAccepts).any fun state =>
        state.shared.asked = [0, 1, 2] ∧
          (state.worker 0).requestQueue = [⟨0, .accept 0 3⟩] ∧
          (state.worker 1).requestQueue = [⟨1, .accept 2 3⟩] := by
    decide +kernel
  obtain ⟨state, reached, values⟩ := (Option.any_eq_true _ _).mp executed
  exact ⟨state, initialize_accepts (by decide) (by decide) (.of_execWhile reached),
    of_decide_eq_true values⟩

end Initialize

end Braid.Service
