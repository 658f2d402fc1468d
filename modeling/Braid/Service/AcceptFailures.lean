import Braid.Service.SessionPool

/-! What a failed accept takes away from the sessions and from the accepts that are armed. -/

namespace Braid.Service

open Counting Transition
open Memory (Slot)

variable {m n k : Nat} {ω : Type}

/-- The calls of `request_accept_one` that the threads have still to make. -/
def State.owed (state : State m n k ω) : Nat :=
  ∑ context, tally (fun todo => if todo = .acceptOne then 1 else 0) (state.todo context)

/--
The accepts that are outstanding, over all sessions.

An accept that succeeds leaves its worker with a call that requests the next one, and the call
counts in its place.
-/
def State.armed (state : State m n k ω) : Nat :=
  (∑ session, state.total (Token.accepting session)) + state.owed

/--
The service is as able to accept as it was in the beginning.

Every session is in exactly one of three places: in the queue, in an outstanding accept, or
accepted. While some session is in neither of the last two, as many accepts are armed as the
backlog asks for.
-/
structure AbleToAccept (config : Config ω) (state : State m n k ω) : Prop where
  place : ∀ session, state.shared.sessionsQueue.count session +
    state.total (Token.accepting session) +
      (if state.shared.connected session then 1 else 0) = 1
  armed : (∃ session, state.shared.connected session = false ∧
    state.total (Token.accepting session) = 0) → state.armed = config.backlog

/--
No accept fails, and none is lost on its way to a request queue.

What a worker handles is not an accept with an error, and what a thread requests is not an accept
that the pool refuses, that has no worker to go to, or that cannot be pushed.
-/
def LosesNoAccept (state : State m n k ω) : Label n k ω → Prop
  | .work at_ _ =>
    (state.worker at_).place = .handleCompletion →
      ∀ done ∈ (state.worker at_).completion, state.shared.memory done.handle.id ≠ none →
        done.handle.operation.kind = .accept → 0 ≤ done.result
  | label => Keeps state label

instance LosesNoAccept.decidable (state : State m n k ω) (label : Label n k ω) :
    Decidable (LosesNoAccept state label) :=
  match label with
  | .work at_ interrupted => by dsimp only [LosesNoAccept]; infer_instance
  | .run .. | .call .. | .task .. | .application .. | .start .. | .complete .. => by
    dsimp only [LosesNoAccept]; infer_instance

/-- An accept has failed, or it has been lost. -/
def Event.losesAccept : Event m → Bool
  | .refused operation => operation.kind = .accept
  | .dropped handle => handle.operation.kind = .accept
  | .handled handle result => handle.operation.kind = .accept ∧ result < 0
  | _ => false

/-- No accept has failed or been lost so far. -/
def NoneLost (state : State m n k ω) : Prop := ∀ event ∈ state.shared.log, event.losesAccept = false

/-- An accept has ended, for any session. -/
def Event.endsAccept : Event m → Bool
  | .refused operation => operation.kind = .accept
  | .dropped handle => handle.operation.kind = .accept
  | .handled handle _ => handle.operation.kind = .accept
  | _ => false

/-- A session has been accepted, whichever it is. -/
def Event.accepts : Event m → Bool
  | .handled handle result => handle.operation.kind = .accept ∧ 0 ≤ result
  | _ => false

section Lost

variable {config : Config ω} {state next : State m n k ω} {label : Label n k ω}
  {lost gained : List (Token m)} {after : Shared m ω}

/-- A step that loses no accept remembers none that is lost. -/
theorem Move.losesAccept (move : Move config state label lost gained after)
    (kept : LosesNoAccept state label) {event : Event m} (member : event ∈ after.log)
    (loses : event.losesAccept) : event ∈ state.shared.log := by
  -- The three events are those that the condition rules out.
  cases event with
  | refused operation =>
    rcases move.refused member with old | ⟨context, fails, rest, rfl, head⟩
    · exact old
    · simp only [LosesNoAccept, Keeps, head] at kept
      exact absurd (kept (by simpa [Event.losesAccept] using loses)) (by simp)
  | dropped handle =>
    have accept : handle.operation.kind = .accept := by simpa [Event.losesAccept] using loses
    rcases move.dropped member with old | ⟨context, slot, fails, todo, rest, rfl, head, why⟩
    · exact old
    · rcases why with ⟨rfl, workers, outside⟩ | ⟨⟨worker, rfl⟩, rfl⟩
      · simp only [LosesNoAccept, Keeps, head, outside] at kept
        exact absurd (kept accept workers) (by simp)
      · simp only [LosesNoAccept, Keeps, head] at kept
        exact absurd (kept accept) (by simp)
  | handled handle result =>
    have failed : handle.operation.kind = .accept ∧ result < 0 := by
      simpa [Event.losesAccept] using loses
    rcases move.handled member with old | ⟨_, at_, interrupted, rfl, place, found, alive⟩
    · exact old
    · have positive := kept place _ found alive failed.1
      dsimp only at positive
      omega
  | _ => cases loses

/-- Where no accept is lost behind it, a step loses none. -/
theorem step_losesNoAccept (none_ : NoneLost next) (taken : step config state label = some next) :
    LosesNoAccept state label := by
  cases label with
  | run context slot fails =>
    refine run_keeps (fun operation member accept => ?_) (fun handle member accept => ?_) taken
    · have lost := none_ _ member
      simp [Event.losesAccept, accept] at lost
    · have lost := none_ _ member
      simp [Event.losesAccept, accept] at lost
  | work at_ interrupted =>
    intro place done found alive accept
    rw [Option.mem_def] at found
    unfold step at taken
    split at taken
    · cases taken
    · dsimp only at taken
      split at taken
      · cases taken
        -- The accept that is handled is remembered with its result.
        have lost := none_ (.handled done.handle done.result) (by
          simp [workStep, place, found, alive, State.setTodo, State.setWorker, State.setShared,
            Shared.record])
        simpa [Event.losesAccept, accept] using lost
      · cases taken
  | _ => trivial

/-- No accept is lost in a run exactly if none of its steps loses one. -/
theorem noneLost_iff {world : ω} {labels : List (Label n k ω)}
    (run : Run (step config) anyStep (State.init m n k config world) labels state) :
    NoneLost state ↔ Run (step config) LosesNoAccept (State.init m n k config world) labels state := by
  refine run.restrict_iff (I := fun _ => True) (P := NoneLost) trivial
    (by simp [NoneLost, State.init]) (fun _ _ _ => trivial) (fun _ _ _ _ _ _ => trivial) ?_
  intro before label after _ _ taken
  constructor
  · -- The log only grows, so nothing was lost before, and the step loses nothing.
    intro none_
    exact ⟨fun event member => none_ event (step_log taken event member),
      step_losesNoAccept none_ taken⟩
  · -- A loss that is not an old one would be one of this step.
    rintro ⟨none_, kept⟩ event member
    obtain ⟨_, lost, gained, move, _⟩ := step_moved config taken
    by_contra loses
    have loses : event.losesAccept = true := by simpa using loses
    rw [none_ event (move.losesAccept kept member loses)] at loses
    cases loses

end Lost

section Armed

variable {config : Config ω} {state next : State m n k ω} {label : Label n k ω}

/-- Each accept that has ended has ended for one session. -/
theorem sum_settles (log : List (Event m)) :
    ∑ session, (log.countP fun event => event.settles session) = log.countP Event.endsAccept := by
  -- For each event, the sessions are counted for which it ends an accept.
  have one (event : Event m) :
      (∑ session, if event.settles session then 1 else 0) = if event.endsAccept then 1 else 0 := by
    have counted (operation : Operation m) :
        (∑ session, if operation.accepts = some session then 1 else 0) =
          if operation.kind = .accept then 1 else 0 := by
      cases operation <;> simp [Operation.accepts, Operation.kind]
    cases event with
    | handled handle result => simpa [Event.settles, Event.endsAccept] using counted handle.operation
    | refused operation => simpa [Event.settles, Event.endsAccept] using counted operation
    | dropped handle => simpa [Event.settles, Event.endsAccept] using counted handle.operation
    | _ => simp [Event.settles, Event.endsAccept]
  simp only [countP_eq_tally, sum_tally, one]

/-- The sessions that are in no queue and whose accepts have not ended are outstanding. -/
theorem Settled.armed (settled : Settled state) :
    state.shared.sessionsQueue.length + (∑ session, state.total (Token.accepting session)) +
      state.shared.log.countP Event.endsAccept = m := by
  -- Counting the queue session by session counts all of it.
  have sessions : ∑ session, state.shared.sessionsQueue.count session =
      state.shared.sessionsQueue.length := by
    simp only [count_eq_tally, sum_tally, length_eq_tally]
    simp
  have balance := Finset.sum_congr rfl fun session (_ : session ∈ Finset.univ) =>
    settled.balance session
  rw [Finset.sum_add_distrib, Finset.sum_add_distrib, sessions, sum_settles] at balance
  simpa using balance

/-- Replacing what a context has to do changes the calls that are owed by the difference. -/
theorem owed_setTodo (state : State m n k ω) (context : Context n k) (todo : List (Todo m n)) :
    (state.setTodo context todo).owed +
        tally (fun todo => if todo = .acceptOne then 1 else 0) (state.todo context) =
      state.owed + tally (fun todo => if todo = .acceptOne then 1 else 0) todo := by
  exact sum_update Finset.univ state.todo
    (tally fun todo => if todo = .acceptOne then 1 else 0) todo (Finset.mem_univ context)

/--
While a session waits in the queue, an accept has been requested for each that was owed.

Behind each session that has left the queue there is one call of `request_accept_one`, and each
session that was accepted has led to one more.
-/
def Renewed (config : Config ω) (state : State m n k ω) : Prop :=
  state.shared.sessionsQueue = [] ∨
    state.owed + m = config.backlog + state.shared.log.countP Event.accepts +
      state.shared.sessionsQueue.length

/-- A step that leaves the queue alone keeps account if it owes as many accepts as it handles. -/
theorem Renewed.keep (renewed : Renewed config state)
    (queue : next.shared.sessionsQueue = state.shared.sessionsQueue)
    (balance : next.owed + state.shared.log.countP Event.accepts =
      state.owed + next.shared.log.countP Event.accepts) : Renewed config next := by
  rcases renewed with empty | account
  · exact .inl (queue.trans empty)
  · exact .inr (by rw [queue]; omega)

/-- A call of application code owes no accept. -/
theorem Renewed.begin (renewed : Renewed config state) {context : Context n k} {call : ActorCall}
    (idle : state.todo context = []) : Renewed config (state.setTodo context [.call call]) := by
  have owed := owed_setTodo state context [.call call]
  rw [idle] at owed
  -- The only call that is owed is `request_accept_one`, and this is none.
  have same : (state.setTodo context [.call call]).owed = state.owed := by simpa using owed
  exact renewed.keep rfl (by rw [same]; rfl)

/-- Where no accept is handled, the events of a step are of none that succeeded. -/
theorem countP_accepts {log events : List (Event m)} (other : ∀ event ∈ events, event.accepts = false) :
    (log ++ events).countP Event.accepts = log.countP Event.accepts := by
  have none_ : events.countP Event.accepts = 0 :=
    List.countP_eq_zero.mpr fun event member => by simp [other event member]
  rw [List.countP_append, none_, Nat.add_zero]

/-- A step inside of a call keeps account: a call that is owed takes a session from the queue. -/
theorem run_renewed {context : Context n k} {slot : Option Slot} {fails : Bool} {todo : Todo m n}
    {rest more : List (Todo m n)} {after : Shared m ω} {pushed : Option (Fin n × Handle m)}
    (renewed : Renewed config state) (head : state.todo context = todo :: rest)
    (stepped : todoStep config state.shared slot fails todo = some (after, more, pushed)) :
    Renewed config (((state.setShared after).setTodo context (more ++ rest)).pushRequest pushed) := by
  have frame := todoStep_frame stepped
  obtain ⟨events, log, fits⟩ := frame.log
  have accepted : after.log.countP Event.accepts = state.shared.log.countP Event.accepts := by
    rw [log]
    refine countP_accepts fun event member => ?_
    -- A handling would need a worker that is at its place.
    cases event with
    | handled handle result => cases fits _ member .waitOne
    | _ => rfl
  have none_ : tally (fun todo => if todo = .acceptOne then 1 else 0) more = 0 :=
    tally_eq_zero.mpr fun todo member => if_neg fun same => frame.calls (by rwa [← same])
  have owed : (((state.setShared after).setTodo context (more ++ rest)).pushRequest pushed).owed +
      (if todo = .acceptOne then 1 else 0) = state.owed := by
    have replaced := owed_setTodo (state.setShared after) context (more ++ rest)
    have same : (((state.setShared after).setTodo context (more ++ rest)).pushRequest pushed).owed =
        ((state.setShared after).setTodo context (more ++ rest)).owed := by
      cases pushed <;> rfl
    have before : (state.setShared after).owed = state.owed := rfl
    rw [tally_append, none_, State.setShared, head, tally_cons] at replaced
    rw [same]
    simp only [State.setShared] at before ⊢
    omega
  have shared : (((state.setShared after).setTodo context (more ++ rest)).pushRequest pushed).shared =
      after := by cases pushed <;> rfl
  by_cases asks : todo = .acceptOne
  · subst asks
    rw [if_pos rfl] at owed
    simp only [Renewed, shared]
    simp only [todoStep] at stepped
    split at stepped
    · rename_i empty
      cases stepped
      exact .inl empty
    · rename_i session waiting queue
      cases stepped
      -- The session leaves the queue, and the call is made.
      rcases renewed with empty | account
      · rw [queue] at empty
        cases empty
      · rw [queue, List.length_cons] at account
        refine .inr ?_
        dsimp only
        omega
  · rw [if_neg asks, Nat.add_zero] at owed
    exact renewed.keep (by rw [shared]; exact frame.queue asks) (by rw [shared, owed, accepted])

/-- An accept that succeeds leaves its worker with one call of `request_accept_one`. -/
theorem handleIoCompletion_owes (shared : Shared m ω) (result : Int) (operation : Operation m) :
    tally (fun todo => if todo = .acceptOne then 1 else 0)
        (handleIoCompletion (n := n) config shared result operation).2 =
      if operation.kind = .accept ∧ 0 ≤ result then 1 else 0 := by
  -- What the application calls for is no accept.
  have calls (calls : List ActorCall) :
      tally (fun todo : Todo m n => if todo = .acceptOne then 1 else 0) (calls.map .call) = 0 :=
    tally_eq_zero.mpr fun todo member => by
      obtain ⟨call, _, rfl⟩ := List.mem_map.mp member
      rfl
  cases operation with
  -- An accept that failed returns before it requests the next one.
  | accept session listenFd =>
    simp only [handleIoCompletion]
    split
    · rename_i failed
      simp [Operation.kind, failed]
    · rename_i positive
      split <;> simp [Operation.kind, Int.not_lt.mp positive]
  -- A recv leaves closes, or calls and the next recv.
  | recv session buffer =>
    simp only [handleIoCompletion, Operation.kind, reduceCtorEq, false_and, if_false]
    split
    · have closes := calls ((shared.sessions session).mainActor.toList.map .requestClose)
      rwa [List.map_map] at closes
    · split
      · rfl
      · rw [tally_append, calls]
        rfl
  | _ => rfl

/-- A step of a worker keeps account: an accept that succeeds is handled with a call that is owed. -/
theorem work_renewed {at_ : Fin n} {interrupted : Bool} (renewed : Renewed config state)
    (idle : state.todo (.worker at_) = []) :
    let result := workStep config state.shared (state.worker at_) interrupted
    Renewed config
      (((state.setShared result.1).setWorker at_ result.2.1).setTodo (.worker at_) result.2.2) := by
  intro result
  have frame : WorkFrame state.shared (state.worker at_) result.1 := workStep_frame ..
  have owed := owed_setTodo ((state.setShared result.1).setWorker at_ result.2.1) (.worker at_)
    result.2.2
  have before : ((state.setShared result.1).setWorker at_ result.2.1).owed = state.owed := rfl
  have none_ : ((state.setShared result.1).setWorker at_ result.2.1).todo (.worker at_) = [] := idle
  rw [none_, tally_nil, before] at owed
  refine renewed.keep frame.queue ?_
  have balance : tally (fun todo => if todo = .acceptOne then 1 else 0) result.2.2 +
      state.shared.log.countP Event.accepts = result.1.log.countP Event.accepts := by
    by_cases place : (state.worker at_).place = .handleCompletion
    · simp only [result, workStep, place]
      split
      · simp
      · rename_i handle answer found
        split
        · simp [Shared.stop]
        · -- What is handled is remembered behind what was remembered before.
          have log : (handleIoCompletion (n := n) config state.shared answer
              handle.operation).1.log = state.shared.log := (handleIoCompletion_frame rfl).2.1
          simp only [Shared.record, log, handleIoCompletion_owes, List.countP_append,
            List.countP_singleton, Event.accepts]
          by_cases succeeds : handle.operation.kind = .accept ∧ 0 ≤ answer
          · simp [succeeds, Nat.add_comm]
          · simp [succeeds]
    · -- At any other place, the worker makes no calls and handles nothing.
      have calls : result.2.2 = [] := by
        simp only [result, workStep]
        split
        · split <;> rfl
        · rename_i same
          exact absurd same place
        all_goals rfl
      obtain ⟨events, log, fits⟩ := frame.log
      rw [calls, log, tally_nil, Nat.zero_add]
      refine (countP_accepts fun event member => ?_).symm
      cases event with
      | handled handle answer => exact absurd (fits _ member) place
      | _ => rfl
  have log : (((state.setShared result.1).setWorker at_ result.2.1).setTodo (.worker at_)
    result.2.2).shared = result.1 := rfl
  rw [log]
  omega

/-- Every step keeps account of the accepts that are owed. -/
theorem step_renewed (renewed : Renewed config state)
    (taken : step config state label = some next) : Renewed config next := by
  unfold step at taken
  split at taken
  · cases taken
  · cases label with
    | run context slot fails =>
      dsimp only at taken
      split at taken
      · cases taken
      · rename_i head
        obtain ⟨⟨after, more, pushed⟩, stepped, rfl⟩ := Option.map_eq_some_iff.mp taken
        -- A call of a thread goes on, which may be a call that is owed.
        exact run_renewed renewed head stepped
    | work at_ interrupted =>
      dsimp only at taken
      split at taken
      · rename_i ready
        cases taken
        exact work_renewed renewed ready.2
      · cases taken
    | call thread call =>
      dsimp only at taken
      split at taken
      · rename_i idle
        cases taken
        exact renewed.begin idle
      · cases taken
    | task at_ call =>
      dsimp only at taken
      split at taken
      · rename_i ready
        cases taken
        exact renewed.begin ready.2
      · cases taken
    | application world =>
      cases taken
      exact renewed.keep rfl rfl
    | start at_ i =>
      obtain ⟨entry, found, rfl⟩ := Option.map_eq_some_iff.mp taken
      -- What the kernel records when it starts is no handled accept.
      have frame := startEntry_frame state.shared entry
      have queue : (startEntry state.shared entry).1.sessionsQueue = state.shared.sessionsQueue := by
        rw [frame]
      have log : (startEntry state.shared entry).1.log = state.shared.log ++
          [.started entry.handle (state.shared.descriptors entry.fd)] := by rw [frame]
      refine renewed.keep queue ?_
      have accepted := @countP_accepts _ state.shared.log
        [.started entry.handle (state.shared.descriptors entry.fd)] (by simp [Event.accepts])
      rw [← log] at accepted
      exact congrArg (state.owed + ·) accepted.symm
    | complete at_ i result data =>
      obtain ⟨started, found, completed⟩ := Option.bind_eq_some_iff.mp taken
      obtain ⟨shared, done, rfl⟩ := Option.map_eq_some_iff.mp completed
      obtain ⟨-, log, -, -, queue, -⟩ := completeStarted_frame done
      refine renewed.keep queue ?_
      -- What it records when it completes is none either.
      have accepted := @countP_accepts _ shared.log [.completed started.handle result]
        (by simp [Event.accepts])
      rw [log] at accepted
      exact congrArg (state.owed + ·) (by simpa [Shared.record, log, State.setWorker,
        State.setShared] using accepted.symm)

/-- In every run, an accept has been requested for each that was owed, while there are sessions. -/
theorem run_renewed_all {world : ω} {labels : List (Label n k ω)}
    (run : Run (step config) anyStep (State.init m n k config world) labels state) :
    Renewed config state := by
  refine run.invariant (.inr ?_) fun _ _ _ renewed _ taken => step_renewed renewed taken
  -- At the start, the main thread has as many calls to make as the backlog asks for.
  have main : tally (fun todo : Todo m n => if todo = .acceptOne then 1 else 0)
      (List.replicate config.backlog .acceptOne) = config.backlog := by simp [tally]
  have owed : (State.init m n k config world).owed = config.backlog := by
    rw [State.owed, Finset.sum_eq_single Context.main]
    · exact main
    · intro context _ other
      cases context <;> first | rfl | exact absurd rfl other
    · exact fun absent => absurd (Finset.mem_univ _) absent
  rw [owed]
  simp [State.init]

/-- The service is able to accept as before exactly if no accept has failed or been lost. -/
theorem ableToAccept_iff_noneLost (settled : Settled state) (renewed : Renewed config state) :
    AbleToAccept config state ↔ NoneLost state := by
  constructor
  · intro able event member
    by_contra loses
    have loses : event.losesAccept = true := by simpa using loses
    -- The session of the accept has ended it without being connected, and it is nowhere.
    have ended : ∃ session, event.settles session ∧ ¬ event.connects session := by
      cases event with
      | refused operation =>
        have accepts := kind_accept.mp (by simpa [Event.losesAccept] using loses)
        exact ⟨_, by simpa [Event.settles] using accepts, by rintro ⟨⟩⟩
      | dropped handle =>
        have accepts := kind_accept.mp (by simpa [Event.losesAccept] using loses)
        exact ⟨_, by simpa [Event.settles] using accepts, by rintro ⟨⟩⟩
      | handled handle result =>
        have failed : handle.operation.kind = .accept ∧ result < 0 := by
          simpa [Event.losesAccept] using loses
        have accepts := kind_accept.mp failed.1
        exact ⟨_, by simpa [Event.settles] using accepts, by simp [Event.connects]; omega⟩
      | _ => cases loses
    obtain ⟨session, settles, unconnected⟩ := ended
    obtain ⟨nowhere, never⟩ := lost_nowhere settled member settles unconnected
    have place := able.place session
    rw [nowhere, never] at place
    cases place
  · intro none_
    have ended (session : Fin m) (event : Event m) (member : event ∈ state.shared.log)
        (settles : event.settles session) : event.connects session := by
      have kept := none_ event member
      cases event with
      | handled handle result =>
        have accepts : handle.operation.accepts = some session := by
          simpa [Event.settles] using settles
        have kind : handle.operation.kind = .accept := by
          cases operation : handle.operation <;> simp_all [Operation.accepts, Operation.kind]
        simpa [Event.connects, Event.losesAccept, accepts, kind] using kept
      | refused operation =>
        cases operation <;>
          simp_all [Event.settles, Event.losesAccept, Operation.accepts, Operation.kind]
      | dropped handle =>
        cases operation : handle.operation <;>
          simp_all [Event.settles, Event.losesAccept, Operation.accepts, Operation.kind]
      | _ => cases settles
    have place (session : Fin m) : state.shared.sessionsQueue.count session +
        state.total (Token.accepting session) +
          (if state.shared.connected session then 1 else 0) = 1 := by
      have balance := settled.balance session
      split
      · rename_i connected
        have nowhere := (settled.connected connected).1
        omega
      · rename_i never
        have none_ : (state.shared.log.countP fun event => event.settles session) = 0 := by
          refine List.countP_eq_zero.mpr fun event member settles => ?_
          exact never (List.any_eq_true.mpr ⟨event, member, ended session event member settles⟩)
        omega
    refine ⟨place, ?_⟩
    rintro ⟨session, never, unarmed⟩
    -- A session that is in neither of the other places waits in the queue.
    have waits : state.shared.sessionsQueue.count session = 1 := by
      have place := place session
      rw [never, unarmed] at place
      simpa using place
    have present : session ∈ state.shared.sessionsQueue := List.count_pos_iff.mp (by omega)
    rcases renewed with empty | account
    · rw [empty] at present
      cases present
    · have sessions := settled.armed
      have every : state.shared.log.countP Event.endsAccept =
          state.shared.log.countP Event.accepts := by
        refine List.countP_congr fun event member => ?_
        have kept := none_ event member
        cases event <;> simp_all [Event.endsAccept, Event.accepts, Event.losesAccept]
      rw [State.armed]
      omega

/--
When a service stays able to accept: exactly if no accept fails and none is lost.

`on_accept_failed` does nothing. The session of the accept is not put into the queue again, and no
other accept is requested in its place, so that each failure takes one session and one of the
accepts in the backlog away for good.
-/
theorem able_to_accept_iff {world : ω} {labels : List (Label n k ω)}
    (run : Run (step config) anyStep (State.init m n k config world) labels state) :
    AbleToAccept config state ↔
      Run (step config) LosesNoAccept (State.init m n k config world) labels state := by
  rw [ableToAccept_iff_noneLost (run_settled run) (run_renewed_all run), noneLost_iff run]

/-- Two sessions and a backlog of one accept. -/
def oneAtATime : Config Unit := { smallConfig with backlog := 1 }

/-- The one accept that is armed completes with a result, and is handled. -/
def acceptWith (result : Int) : List (Label 1 1 Unit) :=
  request .main 0 ++ work 9 ++ [.start 0 0, .complete 0 0 result []] ++ work 2

/-- The first session is accepted, and an accept is armed for the second one. -/
theorem able_to_accept_iff_one :
    ∃ state : State 2 1 1 Unit, AbleToAccept oneAtATime state ∧ state.shared.connected 0 ∧
      state.armed = 1 := by
  -- The accept succeeds, and the one that it owes has been submitted.
  have executed : (execWhile (step oneAtATime) LosesNoAccept (State.init 2 1 1 oneAtATime ())
      (acceptWith 5 ++ request (.worker 0) 0 ++ request (.worker 0) 1)).any fun state =>
        state.shared.connected 0 ∧ state.armed = 1 := by decide +kernel
  obtain ⟨state, reached, places⟩ := (Option.any_eq_true _ _).mp executed
  have kept := Run.of_execWhile reached
  exact ⟨state, (able_to_accept_iff (kept.mono fun _ _ _ => trivial)).mpr kept,
    of_decide_eq_true places⟩

/--
One accept that is aborted is the last one.

A session still waits in the queue, but no accept is armed for it, and the session of the accept
is neither in the queue nor accepted.
-/
theorem accept_failure_fails :
    ∃ (labels : List (Label 1 1 Unit)) (state : State 2 1 1 Unit),
      Run (step oneAtATime) anyStep (State.init 2 1 1 oneAtATime ()) labels state ∧
      .handled ⟨0, .accept 0 3⟩ (-103) ∈ state.shared.log ∧ state.shared.sessionsQueue = [1] ∧
      state.armed = 0 ∧ state.shared.connected 0 = false ∧ ¬ AbleToAccept oneAtATime state := by
  -- The accept fails, its session is nowhere, and the other one waits with nothing armed.
  have executed : (exec (step oneAtATime) (State.init 2 1 1 oneAtATime ())
      (acceptWith (-103))).any fun state =>
        .handled ⟨0, .accept 0 3⟩ (-103) ∈ state.shared.log ∧ state.shared.sessionsQueue = [1] ∧
        state.armed = 0 ∧ state.shared.connected 0 = false ∧
        state.total (Token.accepting 0) = 0 := by decide +kernel
  obtain ⟨state, reached, facts⟩ := (Option.any_eq_true _ _).mp executed
  obtain ⟨failed, queue, armed, never, nowhere⟩ := of_decide_eq_true facts
  refine ⟨_, state, .of_exec reached, failed, queue, armed, never, fun able => ?_⟩
  -- A session that was never connected and is nowhere should have an accept armed.
  have backlog := able.armed ⟨0, never, nowhere⟩
  rw [armed] at backlog
  cases backlog

end Armed

end Braid.Service
