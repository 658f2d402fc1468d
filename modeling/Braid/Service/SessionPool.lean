import Braid.Service.Sessions

/-! The sessions are conserved exactly as long as no close completes and no accept is lost. -/

namespace Braid.Service

open Counting Transition
open Memory (Slot)

variable {m n k : Nat} {ω : Type}

/-- The close of a session has completed. -/
def Event.closes (session : Fin m) : Event m → Bool
  | .handled handle _ => handle.operation = .close session
  | _ => false

/-- A session holds an accepted connection whose close has not completed. -/
def Shared.holds (shared : Shared m ω) (session : Fin m) : Bool :=
  shared.connected session && !shared.log.any fun event => event.closes session

/--
Every session is in exactly one of its three places, and reset unless it holds a connection.

The places are the queue of free sessions, an outstanding accept, and an accepted connection.
-/
structure Conserved (state : State m n k ω) : Prop where
  place : ∀ session, state.shared.sessionsQueue.count session +
    state.total (Token.accepting session) + (if state.shared.holds session then 1 else 0) = 1
  reset : ∀ session, state.shared.holds session = false →
    (state.shared.sessions session).object.commitedSize = 0 ∧
      (state.shared.sessions session).mainActor = none ∧ session ∉ state.shared.actors

/-- Every accept that the kernel completes succeeds. -/
def AllAccepted (state : State m n k ω) : Label n k ω → Prop
  | .complete at_ i result _ =>
    ∀ started ∈ (state.worker at_).started[i]?, started.handle.operation.kind = .accept → 0 ≤ result
  | _ => True

/--
No close completes, and no accept is lost on its way to a request queue.

An accept is lost when the pool has no slot for it, when its index is none of a worker, and when
it cannot be pushed.
-/
def Keeps (state : State m n k ω) : Label n k ω → Prop
  | .run context slot fails =>
    match state.todo context with
    | .acquire operation :: _ => operation.kind = .accept → slot.isSome
    | .route handle :: _ =>
      handle.operation.kind = .accept → n ≠ 0 → (routeIndex n state.shared.requestIndex).isSome
    | .push handle _ :: _ => handle.operation.kind = .accept → fails = false
    | _ => True
  | .work at_ _ =>
    (state.worker at_).place = .handleCompletion →
      ∀ done ∈ (state.worker at_).completion,
        state.shared.memory done.handle.id ≠ none → done.handle.operation.kind ≠ .close
  | _ => True

instance AllAccepted.decidable (state : State m n k ω) (label : Label n k ω) :
    Decidable (AllAccepted state label) :=
  match label with
  | .complete at_ i result data => by dsimp only [AllAccepted]; infer_instance
  | .run .. | .work .. | .call .. | .task .. | .application .. | .start .. => instDecidableTrue

instance Keeps.decidable (state : State m n k ω) (label : Label n k ω) :
    Decidable (Keeps state label) :=
  match label with
  | .run context slot fails => by
    dsimp only [Keeps]
    generalize state.todo context = todo
    exact match todo with
      | .acquire _ :: _ | .route _ :: _ | .push _ _ :: _ => by dsimp only; infer_instance
      | [] | .acceptOne :: _ | .call _ :: _ | .receive _ :: _ | .addRef _ :: _ => instDecidableTrue
  | .work at_ interrupted => by dsimp only [Keeps]; infer_instance
  | .call .. | .task .. | .application .. | .start .. | .complete .. => instDecidableTrue

/-- An event that breaks the conservation: an accept is lost, or a close completes. -/
def Event.breaks : Event m → Bool
  | .refused operation => operation.kind = .accept
  | .dropped handle => handle.operation.kind = .accept
  | .handled handle _ => handle.operation.kind = .close
  | _ => false

/-- An accept that has completed with an error and is not handled yet. -/
def Token.failing : Token m → Nat
  | .carried (.completed result) handle =>
    if handle.operation.kind = .accept ∧ result < 0 then 1 else 0
  | .carried (.delivered result) handle =>
    if handle.operation.kind = .accept ∧ result < 0 then 1 else 0
  | _ => 0

/-- No accept has failed, and so each one that was handled has connected its session. -/
structure Succeeding (state : State m n k ω) : Prop where
  pending : state.total Token.failing = 0
  handled : ∀ handle result, .handled handle result ∈ state.shared.log →
    handle.operation.kind = .accept → 0 ≤ result

variable {config : Config ω} {state next : State m n k ω} {label : Label n k ω}
  {lost gained : List (Token m)} {after : Shared m ω}

/-- The operations of the accept class are those that accept for a session. -/
theorem kind_accept {operation : Operation m} :
    operation.kind = .accept ↔ operation.accepts = some operation.session := by
  cases operation <;> simp [Operation.kind, Operation.accepts, Operation.session]

/-- A step in which no accept fails leaves no failing accept behind. -/
theorem Move.failing (move : Move config state label lost gained after)
    (permitted : AllAccepted state label) (none_ : tally Token.failing lost = 0) :
    tally Token.failing gained = 0 := by
  cases move with
  | @complete at_ i result data started shared cause found done =>
    subst cause
    -- An accept that is completed has succeeded, so its result is not negative.
    have positive := permitted started found
    simp only [tally_cons, tally_nil, Token.failing]
    rw [if_neg fun both => absurd (positive both.1) (by omega)]
  | @advance before after plain handle => cases plain <;> first | rfl | exact none_
  | handle cause place found alive shared more handled =>
    -- A handled accept is over, and the calls that follow are no accepts that have failed.
    have calls : tally Token.failing (more.flatMap Todo.tokens) = 0 :=
      tally_eq_zero.mpr fun token member => by
        rw [handleIoCompletion_tokens handled token member]; rfl
    rw [tally_cons, calls]
    rfl
  | submit entries =>
    -- A submitted entry has no result yet.
    refine tally_eq_zero.mpr fun token member => ?_
    obtain ⟨entry, _, rfl⟩ := List.mem_map.mp member
    rfl
  | useAfterRelease phase missing => exact none_
  | _ => rfl

/-- What a step newly handles has been delivered to the worker that takes the step. -/
theorem Move.handled (move : Move config state label lost gained after) {handle : Handle m}
    {result : Int} (member : .handled handle result ∈ after.log) :
    .handled handle result ∈ state.shared.log ∨
      lost = [.carried (.delivered result) handle] ∧ ∃ at_ interrupted,
        label = .work at_ interrupted ∧ (state.worker at_).place = .handleCompletion ∧
          (state.worker at_).completion = some ⟨handle, result⟩ ∧
          state.shared.memory handle.id ≠ none := by
  cases move with
  -- Only the handling itself records that something is handled.
  | handle cause place found alive shared more handled =>
    simp only [Shared.record, (handleIoCompletion_frame handled).2.1, List.mem_append,
      List.mem_singleton, Event.handled.injEq] at member
    rcases member with old | ⟨rfl, rfl⟩
    · exact .inl old
    · exact .inr ⟨rfl, _, _, cause, place, found, alive⟩
  -- The kernel records other events.
  | start cause found =>
    rw [startEntry_frame] at member
    exact .inl (by simpa using member)
  | complete cause found done =>
    simp only [Shared.record, (completeStarted_frame done).2.1] at member
    exact .inl (by simpa using member)
  | _ => exact .inl (by simpa [Shared.record, Shared.setCell, Shared.setHeld, Shared.stop] using member)

/-- What a step newly refuses has found no slot in its pool. -/
theorem Move.refused (move : Move config state label lost gained after) {operation : Operation m}
    (member : .refused operation ∈ after.log) :
    .refused operation ∈ state.shared.log ∨ ∃ context fails rest,
      label = .run context none fails ∧ state.todo context = .acquire operation :: rest := by
  cases move with
  -- Only a refusal records that something is refused.
  | refuse cause head =>
    simp only [Shared.record, List.mem_append, List.mem_singleton, Event.refused.injEq] at member
    rcases member with old | rfl
    · exact .inl old
    · exact .inr ⟨_, _, _, cause, head⟩
  | handle cause place found alive shared more handled =>
    simp only [Shared.record, (handleIoCompletion_frame handled).2.1] at member
    exact .inl (by simpa using member)
  | start cause found =>
    rw [startEntry_frame] at member
    exact .inl (by simpa using member)
  | complete cause found done =>
    simp only [Shared.record, (completeStarted_frame done).2.1] at member
    exact .inl (by simpa using member)
  | _ => exact .inl (by simpa [Shared.record, Shared.setCell, Shared.setHeld, Shared.stop] using member)

/-- What a step newly drops has no worker to go to, or cannot be pushed. -/
theorem Move.dropped (move : Move config state label lost gained after) {handle : Handle m}
    (member : .dropped handle ∈ after.log) :
    .dropped handle ∈ state.shared.log ∨ ∃ context slot fails todo rest,
      label = .run context slot fails ∧ state.todo context = todo :: rest ∧
        (todo = .route handle ∧ n ≠ 0 ∧ routeIndex n state.shared.requestIndex = none ∨
          (∃ worker, todo = .push handle worker) ∧ fails = true) := by
  cases move with
  -- Two moves record a drop: a route without a worker, and a push that fails.
  | turnAway cause head workers outside =>
    simp only [Shared.record, List.mem_append, List.mem_singleton, Event.dropped.injEq] at member
    rcases member with old | rfl
    · exact .inl old
    · exact .inr ⟨_, _, _, _, _, cause, head, .inl ⟨rfl, workers, outside⟩⟩
  | failPush cause head =>
    simp only [Shared.record, List.mem_append, List.mem_singleton, Event.dropped.injEq] at member
    rcases member with old | rfl
    · exact .inl old
    · exact .inr ⟨_, _, _, _, _, cause, head, .inr ⟨⟨_, rfl⟩, rfl⟩⟩
  | handle cause place found alive shared more handled =>
    simp only [Shared.record, (handleIoCompletion_frame handled).2.1] at member
    exact .inl (by simpa using member)
  | start cause found =>
    rw [startEntry_frame] at member
    exact .inl (by simpa using member)
  | complete cause found done =>
    simp only [Shared.record, (completeStarted_frame done).2.1] at member
    exact .inl (by simpa using member)
  | _ => exact .inl (by simpa [Shared.record, Shared.setCell, Shared.setHeld, Shared.stop] using member)

/-- A step that keeps the sessions adds no event that breaks their conservation. -/
theorem Move.breaks (move : Move config state label lost gained after) (kept : Keeps state label)
    {event : Event m} (member : event ∈ after.log) (breaks : event.breaks) :
    event ∈ state.shared.log := by
  -- The three events that break it are those that the condition rules out.
  cases event with
  | refused operation =>
    rcases move.refused member with old | ⟨context, fails, rest, rfl, head⟩
    · exact old
    · simp only [Keeps, head] at kept
      exact absurd (kept (by simpa [Event.breaks] using breaks)) (by simp)
  | dropped handle =>
    have accept : handle.operation.kind = .accept := by simpa [Event.breaks] using breaks
    rcases move.dropped member with old | ⟨context, slot, fails, todo, rest, rfl, head, why⟩
    · exact old
    · rcases why with ⟨rfl, workers, outside⟩ | ⟨⟨worker, rfl⟩, rfl⟩
      · simp only [Keeps, head, outside] at kept
        exact absurd (kept accept workers) (by simp)
      · simp only [Keeps, head] at kept
        exact absurd (kept accept) (by simp)
  | handled handle result =>
    rcases move.handled member with old | ⟨_, at_, interrupted, rfl, place, found, alive⟩
    · exact old
    · exact absurd (by simpa [Event.breaks] using breaks) (kept place _ found alive)
  | _ => cases breaks

/-- No accept has been lost so far, and no close has completed. -/
def Whole (state : State m n k ω) : Prop := ∀ event ∈ state.shared.log, event.breaks = false

/-- Where no request for an accept is lost, a step inside of a call keeps the sessions. -/
theorem run_keeps {context : Context n k} {slot : Option Slot} {fails : Bool}
    (unrefused : ∀ operation, .refused operation ∈ next.shared.log → operation.kind ≠ .accept)
    (undropped : ∀ handle, .dropped handle ∈ next.shared.log → handle.operation.kind ≠ .accept)
    (taken : step config state (.run context slot fails) = some next) :
    Keeps state (.run context slot fails) := by
  unfold step at taken
  split at taken
  · cases taken
  · cases head : state.todo context with
    | nil => simp only [Keeps, head]
    | cons todo rest =>
      simp only [head] at taken
      obtain ⟨⟨shared, more, pushed⟩, stepped, rfl⟩ := Option.map_eq_some_iff.mp taken
      -- The push to a queue is not remembered.
      have slots : ∀ operation, .refused operation ∈ shared.log → operation.kind ≠ .accept := by
        cases pushed <;> exact unrefused
      have pushes : ∀ handle, .dropped handle ∈ shared.log → handle.operation.kind ≠ .accept := by
        cases pushed <;> exact undropped
      cases todo with
      | acquire operation =>
        simp only [Keeps, head]
        intro accept
        cases slot with
        | some slot => rfl
        | none =>
          cases stepped
          exact absurd accept (slots operation (by simp [Shared.record]))
      | route handle =>
        simp only [Keeps, head]
        intro accept workers
        cases index : routeIndex n state.shared.requestIndex with
        | some worker => rfl
        | none =>
          simp only [todoStep, if_neg workers, index] at stepped
          cases stepped
          exact absurd accept (pushes handle (by simp [Shared.record]))
      | push handle worker =>
        simp only [Keeps, head]
        intro accept
        cases fails with
        | false => rfl
        | true =>
          cases stepped
          exact absurd accept (pushes handle (by simp [Shared.record]))
      | _ => simp only [Keeps, head]

/-- Where no breaking event is left behind, every step keeps the sessions. -/
theorem step_keeps (whole : Whole next) (taken : step config state label = some next) :
    Keeps state label := by
  cases label with
  | run context slot fails =>
    refine run_keeps (fun operation member accept => ?_) (fun handle member accept => ?_) taken
    · have broken := whole _ member
      simp [Event.breaks, accept] at broken
    · have broken := whole _ member
      simp [Event.breaks, accept] at broken
  | work at_ interrupted =>
    intro place done found alive close
    rw [Option.mem_def] at found
    unfold step at taken
    split at taken
    · cases taken
    · dsimp only at taken
      split at taken
      · cases taken
        -- The close that is handled is remembered.
        have broken := whole (.handled done.handle done.result) (by
          simp [workStep, place, found, alive, State.setTodo, State.setWorker, State.setShared,
            Shared.record])
        simp [Event.breaks, close] at broken
      · cases taken
  | _ => trivial

/-- A step adds to the log, and forgets nothing. -/
theorem step_log (taken : step config state label = some next) :
    ∀ event ∈ state.shared.log, event ∈ next.shared.log := by
  obtain ⟨_, lost, gained, move, _⟩ := step_moved config taken
  obtain ⟨events, log, _⟩ := move.uses
  -- What was in the log is still the front of it.
  intro event member
  rw [log]
  exact List.mem_append_left _ member

/-- The steps that keep the sessions are those that add no breaking event. -/
theorem run_keeps_iff {world : ω} {guard : State m n k ω → Label n k ω → Prop}
    {labels : List (Label n k ω)}
    (run : Run (step config) guard (State.init m n k config world) labels state) :
    Whole state ↔
      Run (step config) (fun state label => guard state label ∧ Keeps state label)
        (State.init m n k config world) labels state := by
  refine run.restrict_iff (I := fun _ => True) (P := Whole) trivial (by simp [Whole, State.init])
    (fun _ _ => And.left) (fun _ _ _ _ _ _ => trivial) ?_
  intro before label after _ permitted taken
  constructor
  · -- The log only grows, so a whole log was whole before, and the step added nothing to it.
    intro whole
    exact ⟨fun event member => whole event (step_log taken event member), permitted,
      step_keeps whole taken⟩
  · -- A breaking event is none of the old ones, and a step that keeps adds none.
    rintro ⟨whole, -, kept⟩ event member
    obtain ⟨_, lost, gained, move, _⟩ := step_moved config taken
    by_contra breaks
    have breaks : event.breaks = true := by simpa using breaks
    rw [whole event (move.breaks kept member breaks)] at breaks
    cases breaks

/-- While all accepts succeed, every accept that is handled has connected its session. -/
theorem step_succeeding (succeeding : Succeeding state) (permitted : AllAccepted state label)
    (taken : step config state label = some next) : Succeeding next := by
  obtain ⟨_, lost, gained, move, total⟩ := step_moved config taken
  obtain ⟨total, within⟩ := total Token.failing
  have pending := succeeding.pending
  -- No accept had failed before the step, so none that it takes away has.
  have none_ : tally Token.failing lost = 0 := by omega
  refine ⟨by have := move.failing permitted none_; omega, fun handle result member accept => ?_⟩
  rcases move.handled member with old | ⟨rfl, _⟩
  · exact succeeding.handled handle result old accept
  · -- A delivered accept that had failed would be failing before the step.
    by_contra negative
    simp [Token.failing, accept, show result < 0 by omega] at none_

/-- Counting the ends of the accepts of a session: it was connected, or its accept was lost. -/
theorem Succeeding.settles (succeeding : Succeeding state) {session : Fin m} {event : Event m}
    (member : event ∈ state.shared.log) (settles : event.settles session) :
    event.connects session ∨ event.breaks := by
  cases event with
  -- The accept was handled, and since no accept fails, it has connected.
  | handled handle result =>
    have accepts : handle.operation.accepts = some session := by
      simpa [Event.settles] using settles
    have kind : handle.operation.kind = .accept := by
      cases operation : handle.operation <;> simp_all [Operation.accepts, Operation.kind]
    exact .inl (by simp [Event.connects, accepts, succeeding.handled handle result member kind])
  -- The accept was refused or dropped, and that breaks.
  | refused operation =>
    refine .inr ?_
    cases operation <;> simp_all [Event.settles, Event.breaks, Operation.accepts, Operation.kind]
  | dropped handle =>
    refine .inr ?_
    cases operation : handle.operation <;>
      simp_all [Event.settles, Event.breaks, Operation.accepts, Operation.kind]
  | _ => cases settles

/-- The session of an accept that was lost is nowhere. -/
theorem lost_nowhere (settled : Settled state) {session : Fin m} {event : Event m}
    (member : event ∈ state.shared.log) (settles : event.settles session)
    (unconnected : ¬ event.connects session) :
    state.shared.sessionsQueue.count session + state.total (Token.accepting session) = 0 ∧
      state.shared.connected session = false := by
  have balance := settled.balance session
  -- The lost accept is the one end of an accept that the balance allows.
  have positive : 0 < state.shared.log.countP fun event => event.settles session :=
    List.countP_pos_iff.mpr ⟨event, member, settles⟩
  refine ⟨by omega, ?_⟩
  by_contra connected
  exact unconnected ((settled.connected (by simpa using connected)).2 event member settles)

/-- The sessions are conserved exactly when no accept was lost and no close has completed. -/
theorem conserved_iff_whole (settled : Settled state) (succeeding : Succeeding state) :
    Conserved state ↔ Whole state := by
  constructor
  · intro conserved event member
    -- Each breaking event puts its session nowhere.
    have somewhere (session : Fin m)
        (nowhere : state.shared.sessionsQueue.count session +
          state.total (Token.accepting session) = 0 ∧ state.shared.holds session = false) :
        False := by
      have place := conserved.place session
      rw [nowhere.1, nowhere.2] at place
      simp at place
    have unconnected (session : Fin m)
        (nowhere : state.shared.sessionsQueue.count session +
          state.total (Token.accepting session) = 0 ∧ state.shared.connected session = false) :
        False := somewhere session ⟨nowhere.1, by simp [Shared.holds, nowhere.2]⟩
    by_contra breaks
    have breaks : event.breaks = true := by simpa using breaks
    cases event with
    | refused operation =>
      have accepts := kind_accept.mp (by simpa [Event.breaks] using breaks)
      exact unconnected _ (lost_nowhere settled member (by simpa [Event.settles] using accepts)
        (by rintro ⟨⟩))
    | dropped handle =>
      have accepts := kind_accept.mp (by simpa [Event.breaks] using breaks)
      exact unconnected _ (lost_nowhere settled member (by simpa [Event.settles] using accepts)
        (by rintro ⟨⟩))
    | handled handle result =>
      have close : handle.operation = .close handle.operation.session := by
        have kind : handle.operation.kind = .close := by simpa [Event.breaks] using breaks
        cases operation : handle.operation <;> simp_all [Operation.kind, Operation.session]
      have connected : state.shared.connected handle.operation.session := by
        by_contra never
        have untouched := settled.untouched _ (by simpa using never)
        exact untouched.silent _ member (by rw [Event.operation, close]; exact ⟨rfl, rfl⟩)
      refine somewhere _ ⟨(settled.connected connected).1, ?_⟩
      have closed : state.shared.log.any fun event => event.closes handle.operation.session :=
        List.any_eq_true.mpr ⟨_, member, by simpa [Event.closes] using close⟩
      simp [Shared.holds, closed]
    | _ => cases breaks
  · intro whole
    have holds (session : Fin m) :
        state.shared.holds session = state.shared.connected session := by
      have open_ : (state.shared.log.any fun event => event.closes session) = false := by
        refine List.any_eq_false.mpr fun event member closes => ?_
        have kept := whole event member
        cases event with
        | handled handle result => simp_all [Event.closes, Event.breaks, Operation.kind]
        | _ => cases closes
      simp [Shared.holds, open_]
    refine ⟨fun session => ?_, fun session free => ?_⟩
    · have balance := settled.balance session
      rw [holds]
      split
      · rename_i connected
        have nowhere := (settled.connected connected).1
        omega
      · rename_i never
        -- Without a connection and without a loss, no accept of the session has ended.
        have none_ : (state.shared.log.countP fun event => event.settles session) = 0 := by
          refine List.countP_eq_zero.mpr fun event member settles => ?_
          rcases succeeding.settles member settles with connects | breaks
          · exact never (List.any_eq_true.mpr ⟨event, member, connects⟩)
          · rw [whole event member] at breaks
            cases breaks
        omega
    · rw [holds] at free
      have untouched := settled.untouched session free
      rw [untouched.new]
      exact ⟨rfl, rfl, untouched.unnamed⟩

/--
The sessions are conserved through a run in which all accepts succeed exactly as long as every
step of it keeps them: no close completes, and no accept is lost.
-/
theorem conserved_iff {world : ω} {labels : List (Label n k ω)}
    (run : Run (step config) AllAccepted (State.init m n k config world) labels state) :
    Conserved state ↔
      Run (step config) (fun state label => AllAccepted state label ∧ Keeps state label)
        (State.init m n k config world) labels state := by
  -- At the start, no accept is on its way, and nothing has been handled.
  have start : Succeeding (State.init m n k config world) :=
    ⟨init_total config world _, by simp [State.init]⟩
  have succeeding := run.invariant (P := Succeeding) start
    fun _ _ _ succeeding permitted taken => step_succeeding succeeding permitted taken
  rw [conserved_iff_whole (run_settled run) succeeding, run_keeps_iff run]

/-- One session is connected, and the other one still waits to be accepted. -/
theorem conserved_iff_accept :
    ∃ state : State 2 1 1 Unit, Conserved state ∧
      state.shared.holds 0 ∧ state.total (Token.accepting 1) = 1 := by
  -- One accept goes its whole way, from the queue to its handling.
  have executed : (execWhile (step smallConfig)
      (fun state label => AllAccepted state label ∧ Keeps state label)
      (State.init 2 1 1 smallConfig ()) acceptOne).any fun state =>
        state.shared.holds 0 ∧ state.total (Token.accepting 1) = 1 := by decide +kernel
  obtain ⟨state, reached, places⟩ := (Option.any_eq_true _ _).mp executed
  have kept : Run (step smallConfig) (fun state label => AllAccepted state label ∧ Keeps state label)
      (State.init 2 1 1 smallConfig ()) acceptOne state := .of_execWhile reached
  exact ⟨state, (conserved_iff (kept.mono fun _ _ both => both.1)).mpr kept, by simpa using places⟩

/-- Application code closes the first session, and the close completes. -/
def closeFirst : List (Label 1 1 Unit) :=
  [.start 0 0, .call 0 (.requestClose 0)] ++ request (.application 0) 1 ++ work 11 ++
    [.start 0 0, .complete 0 2 0 []] ++ work 2

/--
The session whose close has completed is in none of the three places.

It keeps its actor and the actor keeps it, it is not in the queue again, and no accept is armed
for it, so that a session is lost with every connection that is closed.
-/
theorem conservation_fails :
    ∃ (labels : List (Label 1 1 Unit)) (state : State 2 1 1 Unit),
      Run (step smallConfig) AllAccepted (State.init 2 1 1 smallConfig ()) labels state ∧
      ¬ Conserved state ∧ state.shared.sessionsQueue = [] ∧
      state.total (Token.accepting 0) = 0 ∧ state.shared.holds 0 = false ∧
      (state.shared.sessions 0).mainActor = some 0 ∧ 0 ∈ state.shared.actors := by
  -- The session that was accepted first is closed again, and stays with its actor.
  have executed : (execWhile (step smallConfig) AllAccepted (State.init 2 1 1 smallConfig ())
      (acceptOne ++ closeFirst)).any fun state =>
        state.shared.sessionsQueue = [] ∧ state.total (Token.accepting 0) = 0 ∧
          state.shared.holds 0 = false ∧ (state.shared.sessions 0).mainActor = some 0 ∧
          0 ∈ state.shared.actors := by decide +kernel
  obtain ⟨state, reached, places⟩ := (Option.any_eq_true _ _).mp executed
  -- The session is counted in none of the three places.
  have places := of_decide_eq_true places
  refine ⟨_, state, .of_execWhile reached, fun conserved => ?_, places⟩
  have place := conserved.place 0
  rw [places.1, places.2.1, places.2.2.1] at place
  simp at place

end Braid.Service
