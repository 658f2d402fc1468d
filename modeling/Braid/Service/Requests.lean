import Braid.Library.Refinement
import Braid.Service.Streams

/-! What becomes of the sends and closes that are requested: none is lost unseen, none is repeated. -/

namespace Braid.Service

open Counting Transition

variable {m n k : Nat} {ω : Type}

/-- The operation that a call of `request_send` or `request_close` has just asked for. -/
def requestedBy (state : State m n k ω) : Label n k ω → Option (Operation m)
  | .run context _ _ =>
    match state.todo context with
    | .call call :: _ => state.shared.actors[call.actor]?.map fun session => call.operation session
    | _ => none
  | _ => none

/-- An event that says what has become of an operation. -/
inductive Fate where
  | refused
  | dropped
  | submitted
  | completed
  | handled
  deriving DecidableEq

/-- What an event says about the operation that it is about, if it is one of these. -/
def Event.fate : Event m → Option (Fate × Operation m)
  | .refused operation => some (.refused, operation)
  | .dropped handle => some (.dropped, handle.operation)
  | .submitted handle => some (.submitted, handle.operation)
  | .completed handle _ => some (.completed, handle.operation)
  | .handled handle _ => some (.handled, handle.operation)
  | _ => none

/-- How often this has become of an operation. -/
def Shared.fates (shared : Shared m ω) (fate : Fate) (operation : Operation m) : Nat :=
  shared.log.countP fun event => event.fate = some (fate, operation)

/-- The three stages between two fates: on the way to the kernel, in its hands, on the way back. -/
inductive Leg where
  | waiting
  | inKernel
  | answered
  deriving DecidableEq

/-- The stage that an operation is at in a phase, as long as it has not been handled. -/
def Phase.leg : Phase m → Option Leg
  | .acquired | .counted | .queued | .popped | .prepared _ => some .waiting
  | .submitted _ | .started _ => some .inKernel
  | .completed _ | .delivered _ => some .answered
  -- What is left of an operation that is handled is its memory.
  | .handled | .zeroed => none

/-- The stage that a token carries an operation at. -/
def Token.leg : Token m → Option (Leg × Operation m)
  | .receive _ => none
  | .requested operation => some (.waiting, operation)
  | .carried phase handle => phase.leg.map fun leg => (leg, handle.operation)

/-- How many requests of an operation are at a stage. -/
def State.at (state : State m n k ω) (leg : Leg) (operation : Operation m) : Nat :=
  state.total fun token => if token.leg = some (leg, operation) then 1 else 0

/-- The operations that are requested by calls on an actor. -/
def Kind.called : Kind → Prop
  | .sendBuffer | .close => True
  | .accept | .recv => False

/--
The requests of an operation add up.

As often as it has been requested, it was refused, it was turned away, it is on its way to the
kernel or it was submitted; what was submitted is with the kernel or was completed; and what was
completed is on its way back or was handled.
-/
structure Accounts (state : State m n k ω) (operation : Operation m) (requests : Nat) : Prop where
  requested : requests = state.shared.fates .refused operation +
    state.shared.fates .dropped operation + state.at .waiting operation +
      state.shared.fates .submitted operation
  submitted : state.shared.fates .submitted operation =
    state.at .inKernel operation + state.shared.fates .completed operation
  completed : state.shared.fates .completed operation =
    state.at .answered operation + state.shared.fates .handled operation

variable {config : Config ω} {state next : State m n k ω} {label : Label n k ω}
  {lost gained : List (Token m)}

/-- What has become of an operation grows by the events of a step. -/
theorem fates_append {shared after : Shared m ω} {events : List (Event m)}
    (log : after.log = shared.log ++ events) (fate : Fate) (operation : Operation m) :
    after.fates fate operation = shared.fates fate operation +
      events.countP fun event => event.fate = some (fate, operation) := by
  simp [Shared.fates, log]

/-- How a move changes the number of requests at a stage. -/
theorem at_moved
    (total : ∀ weight, next.total weight + tally weight lost =
      state.total weight + tally weight gained ∧ tally weight lost ≤ state.total weight)
    (leg : Leg) (operation : Operation m) :
    next.at leg operation + lost.countP (fun token => token.leg = some (leg, operation)) =
      state.at leg operation + gained.countP (fun token => token.leg = some (leg, operation)) := by
  rw [countP_eq_tally, countP_eq_tally]
  simp only [decide_eq_true_eq]
  exact (total _).1

/-- The books of a step: what it takes from each stage and gives to the next one, with its events. -/
structure Books (operation : Operation m) (lost gained : List (Token m)) (events : List (Event m)) :
    Prop where
  waiting : lost.countP (fun token => token.leg = some (.waiting, operation)) =
    gained.countP (fun token => token.leg = some (.waiting, operation)) +
      events.countP (fun event => event.fate = some (.refused, operation)) +
      events.countP (fun event => event.fate = some (.dropped, operation)) +
      events.countP (fun event => event.fate = some (.submitted, operation))
  inKernel : lost.countP (fun token => token.leg = some (.inKernel, operation)) +
      events.countP (fun event => event.fate = some (.submitted, operation)) =
    gained.countP (fun token => token.leg = some (.inKernel, operation)) +
      events.countP (fun event => event.fate = some (.completed, operation))
  answered : lost.countP (fun token => token.leg = some (.answered, operation)) +
      events.countP (fun event => event.fate = some (.completed, operation)) =
    gained.countP (fun token => token.leg = some (.answered, operation)) +
      events.countP (fun event => event.fate = some (.handled, operation))

/-- Every move keeps the books of an operation that is requested by calls, unless it requests it. -/
theorem Move.books {after : Shared m ω} {operation : Operation m}
    (move : Move config state label lost gained after) (called : operation.kind.called)
    (none_ : requestedBy state label = none) :
    ∃ events, after.log = state.shared.log ++ events ∧ Books operation lost gained events := by
  -- Of the requests that are made, those of an accept and of a recv are not of this operation.
  have notAccept (session : Fin m) (fd : Int) : Operation.accept session fd ≠ operation := by
    rintro rfl
    exact called
  have notRecv (session : Fin m) (span : Span) : Operation.recv session span ≠ operation := by
    rintro rfl
    exact called
  -- Each move hands its operation on, and records it where it passes a border.
  cases move with
  | quiet world => exact ⟨[], by simp, by constructor <;> rfl⟩
  | popSession queue =>
    exact ⟨[], by simp, by constructor <;> simp [Token.leg, notAccept]⟩
  | call cause head behind =>
    subst cause
    simp [requestedBy, head, behind] at none_
  | receive session span =>
    exact ⟨[], by simp, by constructor <;> simp [Token.leg, notRecv]⟩
  | refuse cause head =>
    exact ⟨_, rfl, by constructor <;> simp [Token.leg, Event.fate, List.countP_cons]⟩
  | acquire free =>
    exact ⟨_, rfl, by constructor <;> simp [Token.leg, Phase.leg, Event.fate, List.countP_cons]⟩
  | addRef found =>
    exact ⟨[], by simp [Shared.setCell],
      by constructor <;> simp [Token.leg, Phase.leg, List.countP_cons]⟩
  | route => exact ⟨[], by simp, by constructor <;> rfl⟩
  | turnAway cause head workers outside =>
    exact ⟨_, rfl, by constructor <;> simp [Token.leg, Phase.leg, Event.fate, List.countP_cons]⟩
  | failPush cause head =>
    exact ⟨_, rfl, by constructor <;> simp [Token.leg, Phase.leg, Event.fate, List.countP_cons]⟩
  | advance plain handle =>
    cases plain <;>
      exact ⟨[], by simp, by constructor <;> simp [Token.leg, Phase.leg, List.countP_cons]⟩
  | @handle _ _ moved result _ _ _ _ shared more handled =>
    obtain ⟨-, log, -⟩ := handleIoCompletion_frame handled
    refine ⟨[.handled moved result], by simp [Shared.record, log], ?_⟩
    -- The calls that follow are at no stage yet.
    have others (leg : Leg) : (more.flatMap Todo.tokens).countP
        (fun token => token.leg = some (leg, operation)) = 0 :=
      List.countP_eq_zero.mpr fun token member => by
        rw [handleIoCompletion_tokens handled token member]
        simp [Token.leg]
    constructor <;> simp only [List.countP_cons, others] <;> simp [Token.leg, Phase.leg, Event.fate]
  | shutdown close =>
    exact ⟨_, rfl, by constructor <;> simp [Event.fate, List.countP_cons]⟩
  | prepare handle =>
    exact ⟨_, rfl, by constructor <;> simp [Token.leg, Phase.leg, Event.fate, List.countP_cons]⟩
  | submit entries =>
    -- Each entry is taken from the ring and handed over, and each is remembered as submitted.
    refine ⟨_, rfl, ?_⟩
    constructor <;> simp [Token.leg, Phase.leg, Event.fate, List.countP_map, Function.comp_def]
  | start cause found =>
    refine ⟨_, by rw [startEntry_frame], ?_⟩
    constructor <;> simp [Token.leg, Phase.leg, Event.fate, List.countP_cons]
  | @complete at_ i result data started shared cause found done =>
    obtain ⟨-, log, -⟩ := completeStarted_frame done
    refine ⟨[.completed started.handle result], by simp [Shared.record, log], ?_⟩
    constructor <;> simp [Token.leg, Phase.leg, Event.fate, List.countP_cons]
  | zero found last =>
    exact ⟨_, rfl, by constructor <;> simp [Token.leg, Phase.leg, Event.fate]⟩
  | decrement handle found more =>
    exact ⟨[], by simp [Shared.setCell], by constructor <;> simp [Token.leg, Phase.leg]⟩
  | giveBack found =>
    exact ⟨_, rfl, by constructor <;> simp [Token.leg, Phase.leg, Event.fate]⟩
  | useAfterRelease phase missing =>
    exact ⟨[], by simp [Shared.stop], by constructor <;> simp⟩
  | releaseAtZero found zero => exact ⟨[], by simp [Shared.stop], by constructor <;> simp⟩
  | nullEntry cause takes full => exact ⟨[], by simp [Shared.stop], by constructor <;> simp⟩
  | divide => exact ⟨[], by simp [Shared.stop], by constructor <;> simp⟩

/-- A step that requests nothing keeps the books. -/
theorem Accounts.moved {operation : Operation m} {requests : Nat}
    (accounts : Accounts state operation requests) (called : operation.kind.called)
    (taken : step config state label = some next) (none_ : requestedBy state label = none) :
    Accounts next operation requests := by
  obtain ⟨_, lost, gained, move, total⟩ := step_moved config taken
  obtain ⟨events, log, books⟩ := move.books called none_
  have waiting := at_moved total .waiting operation
  have inKernel := at_moved total .inKernel operation
  have answered := at_moved total .answered operation
  obtain ⟨requested, submitted, completed⟩ := accounts
  obtain ⟨booksWaiting, booksKernel, booksAnswered⟩ := books
  -- Both sides of each account change by what the books of the step say.
  constructor <;> simp only [fates_append log] <;> omega

/-- The step that requests an operation replaces the call by the acquisition, and no more. -/
theorem requestedBy_taken {wanted : Operation m} (taken : step config state label = some next)
    (some_ : requestedBy state label = some wanted) :
    ∃ context call rest, state.todo context = .call call :: rest ∧
      next = state.setTodo context (.acquire wanted :: rest) := by
  cases label with
  | run context slot fails =>
    simp only [requestedBy] at some_
    split at some_
    · rename_i call rest head
      obtain ⟨session, behind, rfl⟩ := Option.map_eq_some_iff.mp some_
      -- The step replaces the call, since the actor has a session.
      unfold step at taken
      split at taken
      · cases taken
      · simp only [head, todoStep, behind, Option.map_some, Option.some.injEq] at taken
        exact ⟨context, call, rest, head, taken.symm⟩
    · cases some_
  | _ => cases some_

/-- The call of an actor that has a session puts one request on its way. -/
theorem Accounts.called {operation wanted : Operation m} {requests : Nat}
    (accounts : Accounts state operation requests)
    (taken : step config state label = some next) (some_ : requestedBy state label = some wanted) :
    Accounts next operation (requests + if wanted = operation then 1 else 0) := by
  obtain ⟨context, call, rest, head, rfl⟩ := requestedBy_taken taken some_
  -- The request is on its way from this step on.
  have changed (weight : Token m → Nat) :
      (state.setTodo context (.acquire wanted :: rest)).total weight =
        state.total weight + weight (.requested wanted) := by
    have replaced := total_setTodo state weight context (.acquire wanted :: rest)
    simp only [head, List.flatMap_cons, Todo.tokens, List.nil_append, List.cons_append,
      tally_cons] at replaced
    omega
  have at_ (leg : Leg) : (state.setTodo context (.acquire wanted :: rest)).at leg operation =
      state.at leg operation +
        if (Token.requested wanted).leg = some (leg, operation) then 1 else 0 := changed _
  obtain ⟨requested, submitted, completed⟩ := accounts
  constructor <;> rw [at_]
  · simp only [Token.leg, Option.some.injEq, Prod.mk.injEq, true_and]
    simp only [State.setTodo]
    omega
  · rw [if_neg (by simp [Token.leg])]
    exact submitted
  · rw [if_neg (by simp [Token.leg])]
    exact completed

/-- Before the first step nothing has been requested. -/
theorem init_accounts (config : Config ω) (world : ω) (operation : Operation m) :
    Accounts (State.init m n k config world) operation 0 := by
  constructor <;> simp only [State.at, init_total] <;> rfl

/--
No send and no close is lost unseen or repeated.

In every run, whatever fails in it, the requests of an operation are all accounted for: refused by
the pool, turned away from the request queues, or handed to the kernel once, which completes each
of them at most once, after which it is handled at most once; and what is missing from one of
these is still on its way there.
-/
theorem requests_accounted {world : ω} {labels : List (Label n k ω)} {finish : State m n k ω}
    {events : List (Operation m)}
    (run : Run (track (step config) (recording requestedBy)) anyStep
      (State.init m n k config world, []) labels (finish, events))
    {operation : Operation m} (called : operation.kind.called) :
    Accounts finish operation (events.count operation) := by
  refine run.invariant (P := fun seen => Accounts seen.1 operation (seen.2.count operation))
    (init_accounts config world operation) ?_
  rintro ⟨state, before⟩ label ⟨next, after⟩ accounts _ taken
  obtain ⟨stepped, recorded⟩ := track_eq_some.mp taken
  simp only [recording] at accounts stepped recorded ⊢
  rw [← recorded]
  -- A step requests one operation, or none at all.
  cases found : requestedBy state label with
  | none => simpa using accounts.moved called stepped found
  | some wanted =>
    have further := accounts.called stepped found
    simpa [List.count_append, List.count_cons] using further

/-- Two sends are called for on an accepted connection, and the pool refuses the second one. -/
def sendTwice : List (Label 1 1 Unit) :=
  acceptOne ++ .call 0 (.requestSend 0 [7]) :: request (.application 0) 0 ++
    [.call 0 (.requestSend 0 [7]), .run (.application 0) none false, .run (.application 0) none false]

/-- Of two sends that are called for, one waits in a request queue and one is refused. -/
theorem requests_accounted_sendTwice :
    ∃ (finish : State 2 1 1 Unit) (events : List (Operation 2)),
      events = [.sendBuffer 0 [7], .sendBuffer 0 [7]] ∧
      Accounts finish (.sendBuffer 0 [7]) (events.count (.sendBuffer 0 [7])) ∧
      finish.shared.fates .refused (.sendBuffer 0 [7]) = 1 := by
  have executed : (exec (track (step smallConfig) (recording requestedBy))
      (State.init 2 1 1 smallConfig (), []) sendTwice).any fun seen =>
        seen.2 = [.sendBuffer 0 [7], .sendBuffer 0 [7]] ∧
          seen.1.shared.fates .refused (.sendBuffer 0 [7]) = 1 := by decide +kernel
  obtain ⟨⟨finish, events⟩, reached, values⟩ := (Option.any_eq_true _ _).mp executed
  obtain ⟨both, refused⟩ := of_decide_eq_true values
  exact ⟨finish, events, both, requests_accounted (.of_exec reached) trivial, refused⟩

end Braid.Service
