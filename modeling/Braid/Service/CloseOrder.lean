import Braid.Service.Lifecycle
import Braid.Service.SendOrder

/-! Whether the sends in front of a close are submitted before the close shuts the socket down. -/

namespace Braid.Service

open Counting Transition
open Memory (Slot)

variable {m n k : Nat} {ω : Type}

/-- A send that was requested before a close, of the same session. -/
def Handle.Precedes (send close : Handle m) : Prop :=
  send.id < close.id ∧ send.operation.sends close.operation.session = true

instance (send close : Handle m) : Decidable (send.Precedes close) :=
  inferInstanceAs (Decidable (_ ∧ _))

/--
No close cuts off a send.

When a close calls `shutdown`, every send of its session that was requested before it has been
submitted to the kernel. A send that has reached no request queue has no entry to submit.
-/
def NoneCutOff (log : List (Event m)) : Prop :=
  ∀ earlier close connection later, log = earlier ++ .shutdown close connection :: later →
    ∀ send slot, .acquired send slot ∈ earlier → send.Precedes close →
      .submitted send ∈ earlier ∨ .dropped send ∈ earlier

/-- The close that a step of a worker calls `shutdown` for. -/
def State.shutsDown (state : State m n k ω) : Label n k ω → Option (Handle m)
  | .work at_ _ =>
    match (state.worker at_).place with
    | .requestIo handle =>
      if handle.operation.kind = .close ∧ (state.shared.memory handle.id).isSome then some handle
      else none
    | _ => none
  | _ => none

/--
A close calls `shutdown` when no send in front of it is on its way to the kernel.

No thread is inside of the request for such a send, and no worker has one in its request queue, in
the hands of its flush, or prepared in its ring.
-/
def ShutsDownLast (state : State m n k ω) (label : Label n k ω) : Prop :=
  ∀ close ∈ state.shutsDown label,
    (∀ context, ∀ send ∈ state.calling context, ¬ send.Precedes close) ∧
      ∀ worker, ∀ send ∈ (state.worker worker).waiting, ¬ send.Precedes close

instance (state : State m n k ω) (label : Label n k ω) : Decidable (ShutsDownLast state label) :=
  inferInstanceAs (Decidable (∀ close ∈ state.shutsDown label, _))

section Accounts

/-- An operation that is not submitted yet. -/
def Phase.unsubmitted : Phase m → Bool
  | .acquired | .counted | .queued | .popped | .prepared _ => true
  | _ => false

/-- How often an operation is carried before its submission. -/
def Token.unsubmitted (handle : Handle m) : Token m → Nat
  | .carried phase other => if other = handle ∧ phase.unsubmitted = true then 1 else 0
  | _ => 0

/-- Before their submission, operations are in a call or wait with a worker. -/
theorem total_unsubmitted (state : State m n k ω) (handle : Handle m) :
    state.total (Token.unsubmitted handle) =
      (∑ context, (state.calling context).count handle) +
        ∑ worker, (state.worker worker).waiting.count handle := by
  have call (todo : Todo m n) :
      tally (Token.unsubmitted handle) todo.tokens = todo.inCall.count handle := by
    cases todo <;>
      simp [Todo.tokens, Todo.inCall, Token.unsubmitted, Phase.unsubmitted, List.count_singleton]
  have calling (context : Context n k) :
      tally (Token.unsubmitted handle) ((state.todo context).flatMap Todo.tokens) =
        (state.calling context).count handle := by
    rw [State.calling]
    -- The induction is on the calls of the thread.
    induction state.todo context with
    | nil => rfl
    | cons todo rest ih =>
      simp only [List.flatMap_cons, tally_append, List.count_append, call, ih]
  have waiting (worker : Fin n) : tally (Token.unsubmitted handle) (state.worker worker).tokens =
      (state.worker worker).waiting.count handle := by
    have place : tally (Token.unsubmitted handle) (state.worker worker).place.tokens =
        (state.worker worker).place.inHand.count handle := by
      cases (state.worker worker).place <;>
        simp [Place.tokens, Place.inHand, Token.unsubmitted, Phase.unsubmitted, List.count_singleton]
    -- What the kernel works on, and what has been completed, is submitted.
    have completion (done : Option (Completion m)) (place : Place m) :
        tally (Token.unsubmitted handle) (done.toList.flatMap fun done => done.tokens place) = 0 := by
      cases done with
      | none => rfl
      | some done => cases place <;> simp [Completion.tokens, Token.unsubmitted, Phase.unsubmitted]
    have none_ {α : Type} (entries : List α) : tally (fun _ => 0) entries = 0 :=
      tally_eq_zero.mpr fun _ _ => rfl
    rw [tally_tokens, place, completion, Worker.waiting, List.count_append, List.count_append,
      count_eq_tally handle (List.map _ _), tally_map,
      count_eq_tally handle (state.worker worker).requestQueue]
    simp only [Token.unsubmitted, Phase.unsubmitted, and_true, and_false, Bool.false_eq_true,
      if_false, none_]
    omega
  simp only [State.total, calling, waiting]

/-- An operation that is not submitted yet is in a call, or it waits with a worker. -/
theorem unsubmitted_pos_iff (state : State m n k ω) (handle : Handle m) :
    0 < state.total (Token.unsubmitted handle) ↔
      (∃ context, handle ∈ state.calling context) ∨
        ∃ worker, handle ∈ (state.worker worker).waiting := by
  rw [total_unsubmitted]
  rw [Nat.add_pos_iff_pos_or_pos]
  simp only [Finset.sum_pos_iff, Finset.mem_univ, true_and, List.count_pos_iff]

variable {config : Config ω} {state next : State m n k ω} {label : Label n k ω}
  {lost gained : List (Token m)}

/--
What a move adds to the log, and how it accounts for each operation.

An operation that is acquired is not submitted yet, and it stops being so when it is submitted, or
when it is dropped.
-/
theorem Move.accounts {after : Shared m ω} (move : Move config state label lost gained after) :
    ∃ events, after.log = state.shared.log ++ events ∧
      List.range after.nextOperation = List.range state.shared.nextOperation ++
        (events.filterMap Event.acquisition).map Handle.id ∧
      ∀ handle, tally (Token.unsubmitted handle) gained + events.count (.submitted handle) +
          events.count (.dropped handle) =
        tally (Token.unsubmitted handle) lost +
          (events.filterMap Event.acquisition).count handle := by
  cases move with
  | quiet | popSession | call | receive | addRef | route | decrement | useAfterRelease
  | releaseAtZero | nullEntry | divide =>
    -- An operation in these hands stays on the same side of its submission.
    refine ⟨[], (List.append_nil _).symm, (List.append_nil _).symm, fun handle => ?_⟩
    simp [Token.unsubmitted, Phase.unsubmitted]
  | advance plain moved =>
    refine ⟨[], (List.append_nil _).symm, (List.append_nil _).symm, fun handle => ?_⟩
    cases plain <;> simp [Token.unsubmitted, Phase.unsubmitted]
  | acquire free =>
    -- The new operation takes the next number.
    refine ⟨_, rfl, List.range_succ, fun handle => ?_⟩
    simp [Token.unsubmitted, Phase.unsubmitted, Event.acquisition, List.count_singleton]
  | turnAway | failPush =>
    -- The operation is dropped before it reaches a queue.
    refine ⟨_, rfl, (List.append_nil _).symm, fun handle => ?_⟩
    simp [Token.unsubmitted, Phase.unsubmitted, Event.acquisition, List.filterMap_cons,
      List.count_singleton]
  | refuse | shutdown | prepare | zero | giveBack =>
    refine ⟨_, rfl, (List.append_nil _).symm, fun handle => ?_⟩
    simp [Token.unsubmitted, Phase.unsubmitted, Event.acquisition, List.filterMap_cons]
  | @handle _ _ moved result _ _ _ _ shared more handled =>
    obtain ⟨-, log, nextOperation, -⟩ := handleIoCompletion_frame handled
    refine ⟨[.handled moved result], by simp [Shared.record, log], ?_, fun handle => ?_⟩
    · simp [Shared.record, nextOperation, Event.acquisition, List.filterMap_cons]
    · -- The calls that a completion leads to carry no operation yet.
      have calls : tally (Token.unsubmitted handle) (more.flatMap Todo.tokens) = 0 := by
        refine tally_eq_zero.mpr fun token member => ?_
        cases token with
        | carried phase other => cases handleIoCompletion_tokens handled _ member
        | _ => rfl
      simp [calls, Token.unsubmitted, Phase.unsubmitted, Event.acquisition, List.filterMap_cons]
  | submit entries =>
    refine ⟨_, rfl, ?_, fun handle => ?_⟩
    · simp [Shared.record, Event.acquisition]
    · -- Each entry is one operation, which is remembered once.
      have submitted : (entries.map fun entry => Event.submitted entry.handle).count
          (.submitted handle) = (entries.map Entry.handle).count handle := by
        rw [← List.count_map_of_injective (entries.map Entry.handle) Event.submitted
          (fun _ _ same => by cases same; rfl), List.map_map]
        rfl
      have acquired : (entries.map fun entry => Event.submitted entry.handle).filterMap
          Event.acquisition = [] := by simp [Event.acquisition]
      have dropped : (entries.map fun entry => Event.submitted entry.handle).count
          (.dropped handle) = 0 := List.count_eq_zero.mpr (by simp)
      rw [submitted, acquired, dropped, count_eq_tally]
      simp only [tally_map, Token.unsubmitted, Phase.unsubmitted, and_true, and_false,
        Bool.false_eq_true, if_false, List.count_nil]
      simp [tally]
  | @start _ _ entry _ found =>
    -- Behind its submission, an operation is the kernel's.
    have frame := startEntry_frame state.shared entry
    refine ⟨_, by rw [frame], by rw [frame]; exact (List.append_nil _).symm, fun handle => ?_⟩
    simp [Token.unsubmitted, Phase.unsubmitted, Event.acquisition, List.filterMap_cons]
  | @complete _ _ result _ started shared _ found done =>
    obtain ⟨-, log, nextOperation, -⟩ := completeStarted_frame done
    refine ⟨[.completed started.handle result], by simp [Shared.record, log], ?_, fun handle => ?_⟩
    · simp [Shared.record, nextOperation, Event.acquisition, List.filterMap_cons]
    · simp [Token.unsubmitted, Phase.unsubmitted, Event.acquisition, List.filterMap_cons]

/-- The operations acquired so far are numbered, and each of them is somewhere. -/
structure Accounted (state : State m n k ω) : Prop where
  numbered : state.shared.acquisitions.map Handle.id = List.range state.shared.nextOperation
  somewhere : ∀ handle, state.total (Token.unsubmitted handle) +
    state.shared.log.count (.submitted handle) + state.shared.log.count (.dropped handle) =
      state.shared.acquisitions.count handle

/-- Nothing is acquired when the service starts. -/
theorem init_accounted (config : Config ω) (world : ω) :
    Accounted (State.init m n k config world) where
  numbered := rfl
  somewhere handle := by rw [init_total]; rfl

/-- Every step keeps account of the operations. -/
theorem step_accounted (accounted : Accounted state)
    (taken : step config state label = some next) : Accounted next := by
  obtain ⟨_, lost, gained, move, total⟩ := step_moved config taken
  obtain ⟨events, log, numbers, balanced⟩ := move.accounts
  -- Only what the step records as acquired is new.
  have acquisitions : next.shared.acquisitions =
      state.shared.acquisitions ++ events.filterMap Event.acquisition := by
    rw [Shared.acquisitions, log, List.filterMap_append]
    rfl
  constructor
  · rw [acquisitions, List.map_append, accounted.numbered, numbers]
  · intro handle
    have before := accounted.somewhere handle
    have moved := (total (Token.unsubmitted handle)).1
    -- What leaves the way to the ring is submitted or dropped, as the records say.
    have balance := balanced handle
    rw [acquisitions, log]
    simp only [List.count_append]
    omega

/-- An operation that has been acquired is on its way, or it is submitted, or it is dropped. -/
theorem Accounted.settled_iff (accounted : Accounted state) {send : Handle m} {slot : Slot}
    (acquired : .acquired send slot ∈ state.shared.log) :
    (.submitted send ∈ state.shared.log ∨ .dropped send ∈ state.shared.log) ↔
      state.total (Token.unsubmitted send) = 0 := by
  have member : send ∈ state.shared.acquisitions := List.mem_filterMap.mpr ⟨_, acquired, rfl⟩
  -- Its number is given once.
  have once : state.shared.acquisitions.count send = 1 := by
    have distinct : (state.shared.acquisitions.map Handle.id).Nodup := by
      rw [accounted.numbered]
      exact List.nodup_range
    exact List.count_eq_one_of_mem distinct.of_map member
  have somewhere := accounted.somewhere send
  rw [← List.count_pos_iff, ← List.count_pos_iff]
  omega

/-- An operation on its way has been acquired. -/
theorem Accounted.acquired (accounted : Accounted state) {send : Handle m}
    (unsubmitted : 0 < state.total (Token.unsubmitted send)) :
    ∃ slot, .acquired send slot ∈ state.shared.log := by
  have somewhere := accounted.somewhere send
  -- The account has no place for an operation that was not acquired.
  have member : send ∈ state.shared.acquisitions := List.count_pos_iff.mp (by omega)
  obtain ⟨event, logged, same⟩ := List.mem_filterMap.mp member
  cases event with
  | acquired handle slot => cases same; exact ⟨slot, logged⟩
  | _ => cases same

end Accounts

section Log

/-- The close that an event is the shutdown of. -/
def Event.shutdownOf : Event m → Option (Handle m)
  | .shutdown close _ => some close
  | _ => none

/-- Whether a close cuts off a send is decided when it calls `shutdown`. -/
theorem noneCutOff_snoc (log : List (Event m)) (event : Event m) :
    NoneCutOff (log ++ [event]) ↔ NoneCutOff log ∧
      ∀ close ∈ event.shutdownOf, ∀ send slot, .acquired send slot ∈ log → send.Precedes close →
        .submitted send ∈ log ∨ .dropped send ∈ log := by
  constructor
  · intro whole
    constructor
    · rintro earlier close connection later rfl
      exact whole earlier close connection (later ++ [event]) (by simp)
    · intro close shuts
      cases event with
      | shutdown other connection =>
        -- It is the shutdown that has the whole log before it.
        cases shuts
        exact whole log _ connection [] rfl
      | _ => cases shuts
  · rintro ⟨before, last⟩ earlier close connection later split
    -- The shutdown is the last event, or one before it.
    rcases List.eq_nil_or_concat later with rfl | ⟨behind, final, rfl⟩
    · obtain ⟨rfl, same⟩ := List.append_inj' split rfl
      cases same
      exact last close rfl
    · have split : log ++ [event] = (earlier ++ .shutdown close connection :: behind) ++ [final] := by
        simpa using split
      exact before earlier close connection behind (List.append_inj' split rfl).1

/-- Events of another kind cut off no send. -/
theorem noneCutOff_append (log events : List (Event m))
    (other : ∀ event ∈ events, event.shutdownOf = none) :
    NoneCutOff (log ++ events) ↔ NoneCutOff log := by
  -- The induction is on the events, taken off at the end.
  induction events using List.reverseRecOn with
  | nil => rw [List.append_nil]
  | append_singleton events event ih =>
    have quiet : event.shutdownOf = none := other event (by simp)
    rw [← List.append_assoc, noneCutOff_snoc, quiet,
      ih fun event member => other event (by simp [member])]
    simp

end Log

section Run

variable {config : Config ω} {state next : State m n k ω} {label : Label n k ω}

/-- A step that calls `shutdown` for no close remembers none. -/
theorem step_quiet (quiet : state.shutsDown label = none)
    (taken : step config state label = some next) :
    ∃ events, next.shared.log = state.shared.log ++ events ∧
      ∀ event ∈ events, event.shutdownOf = none := by
  unfold step at taken
  split at taken
  · cases taken
  · cases label with
    | run context slot fails =>
      dsimp only at taken
      split at taken
      · cases taken
      · obtain ⟨⟨after, more, pushed⟩, called, rfl⟩ := Option.map_eq_some_iff.mp taken
        obtain ⟨events, log, fits⟩ := (todoStep_frame called).log
        refine ⟨events, by cases pushed <;> exact log, fun event member => ?_⟩
        cases event with
        -- Only the flush of a worker calls `shutdown`.
        | shutdown close connection => cases (fits _ member .waitOne).1
        | _ => rfl
    | work at_ interrupted =>
      dsimp only at taken
      split at taken
      · cases taken
        obtain ⟨events, log, fits⟩ :=
          (@workStep_frame _ n _ config state.shared (state.worker at_) interrupted).log
        refine ⟨events, log, fun event member => ?_⟩
        cases event with
        | shutdown close connection =>
          -- The close would be in the hands of the flush.
          obtain ⟨place, kind, alive⟩ := fits _ member
          simp [State.shutsDown, place, kind, Option.isSome_iff_ne_none, alive] at quiet
        | _ => rfl
      · cases taken
    | call thread call =>
      dsimp only at taken
      split at taken <;> cases taken
      exact ⟨[], (List.append_nil _).symm, by simp⟩
    | task at_ call =>
      dsimp only at taken
      split at taken <;> cases taken
      exact ⟨[], (List.append_nil _).symm, by simp⟩
    | application world =>
      cases taken
      exact ⟨[], (List.append_nil _).symm, by simp⟩
    | start at_ i =>
      obtain ⟨entry, found, rfl⟩ := Option.map_eq_some_iff.mp taken
      have frame := startEntry_frame state.shared entry
      exact ⟨_, congrArg Shared.log frame, by simp [Event.shutdownOf]⟩
    | complete at_ i result data =>
      obtain ⟨started, found, completed⟩ := Option.bind_eq_some_iff.mp taken
      obtain ⟨shared, done, rfl⟩ := Option.map_eq_some_iff.mp completed
      have log := (completeStarted_frame done).2.1
      exact ⟨_, congrArg (· ++ _) log, by simp [Event.shutdownOf]⟩

/-- A step that calls `shutdown` for a close remembers it, and nothing else. -/
theorem step_shutsDown {close : Handle m} (shuts : state.shutsDown label = some close)
    (taken : step config state label = some next) :
    ∃ connection, next.shared.log = state.shared.log ++ [.shutdown close connection] := by
  cases label with
  | work at_ interrupted =>
    simp only [State.shutsDown] at shuts
    split at shuts
    · rename_i handle place
      -- The close is in hand, and its memory has not been given back.
      obtain ⟨⟨kind, alive⟩, same⟩ := Option.ite_none_right_eq_some.mp shuts
      cases same
      have alive : state.shared.memory close.id ≠ none := Option.isSome_iff_ne_none.mp alive
      unfold step at taken
      split at taken
      · cases taken
      · dsimp only at taken
        split at taken
        · cases taken
          cases operation : close.operation with
          | close session =>
            refine ⟨state.shared.descriptors (state.shared.socketFd session), ?_⟩
            simp only [State.setTodo, State.setWorker, State.setShared, workStep, place, flushStep,
              if_neg alive, operation, Shared.record]
          | _ => rw [operation] at kind; cases kind
        · cases taken
    · cases shuts
  | _ => cases shuts

/-- A step cuts off no send exactly if a close that it shuts down for is the last on its way. -/
theorem step_noneCutOff (accounted : Accounted state)
    (taken : step config state label = some next) :
    NoneCutOff next.shared.log ↔ NoneCutOff state.shared.log ∧ ShutsDownLast state label := by
  cases shuts : state.shutsDown label with
  | none =>
    obtain ⟨events, log, other⟩ := step_quiet shuts taken
    rw [log, noneCutOff_append _ _ other, ShutsDownLast, shuts]
    simp
  | some close =>
    obtain ⟨connection, log⟩ := step_shutsDown shuts taken
    rw [log, noneCutOff_snoc, ShutsDownLast, shuts]
    refine and_congr_right fun _ => ?_
    simp only [Event.shutdownOf, Option.mem_some_iff, forall_eq']
    constructor
    · intro settled
      -- A send on its way has been acquired, and one that is settled is on its way no more.
      have none_ (send : Handle m) (precedes : send.Precedes close) :
          ¬ 0 < state.total (Token.unsubmitted send) := by
        intro unsubmitted
        obtain ⟨slot, acquired⟩ := accounted.acquired unsubmitted
        have zero := (accounted.settled_iff acquired).mp (settled send slot acquired precedes)
        omega
      simp only [unsubmitted_pos_iff, not_or, not_exists] at none_
      exact ⟨fun context send member precedes => (none_ send precedes).1 context member,
        fun worker send member precedes => (none_ send precedes).2 worker member⟩
    · rintro ⟨calling, waiting⟩ send slot acquired precedes
      -- An acquired send is settled as soon as neither a call nor a worker has it.
      refine (accounted.settled_iff acquired).mpr (Nat.eq_zero_of_not_pos fun unsubmitted => ?_)
      rcases (unsubmitted_pos_iff state send).mp unsubmitted with
        ⟨context, member⟩ | ⟨worker, member⟩
      · exact calling context send member precedes
      · exact waiting worker send member precedes

/--
When no close cuts off a send: exactly if each close is the last one on its way.

A send is submitted at the end of a flush, or by a close behind it, and the call of `shutdown`
takes effect while the close is prepared. What was pushed before the close may still be in the
same ring, or wait with another worker.
-/
theorem none_cut_off_iff {world : ω} {labels : List (Label n k ω)}
    (run : Run (step config) anyStep (State.init m n k config world) labels state) :
    NoneCutOff state.shared.log ↔
      Run (step config) ShutsDownLast (State.init m n k config world) labels state := by
  -- Nothing is remembered at the start, so that nothing is cut off.
  have start : NoneCutOff (State.init m n k config world).shared.log := by
    intro earlier close connection later split
    cases (List.append_eq_nil_iff.mp split.symm).2
  refine run.restrict_iff (I := Accounted) (P := fun state => NoneCutOff state.shared.log)
    (init_accounted config world) start (fun _ _ _ => trivial) ?_ ?_
  · intro before label after accounted _ taken
    exact step_accounted accounted taken
  · intro before label after accounted _ taken
    exact step_noneCutOff accounted taken

end Run

end Braid.Service
