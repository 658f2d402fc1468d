import Braid.Service.Sessions

/-! What becomes of a send buffer when its operation completes. -/

namespace Braid.Service

open Counting Transition

variable {m n k : Nat} {ω : Type}

/-- The bytes that a send with this result has handed to the socket. -/
def handedOver (sendBuffer : List Byte) (result : Int) : List Byte := sendBuffer.take result.toNat

/--
A send that is handled by a worker is complete, or somebody sees to it that it does not matter.

Either all bytes have been handed over, or the worker goes on to send the bytes that are left, or
the session is told and its actor is asked for a close.
-/
def SendCompleted (state next : State m n k ω) (at_ : Fin n) (session : Fin m)
    (sendBuffer : List Byte) (result : Int) : Prop :=
  handedOver sendBuffer result = sendBuffer ∨
    .acquire (.sendBuffer session (sendBuffer.drop result.toNat)) ∈ next.todo (.worker at_) ∨
    ∃ own ∈ (state.shared.sessions session).mainActor,
      .call (.requestClose own) ∈ next.todo (.worker at_)

instance (state next : State m n k ω) (at_ : Fin n) (session : Fin m) (sendBuffer : List Byte)
    (result : Int) : Decidable (SendCompleted state next at_ session sendBuffer result) :=
  inferInstanceAs (Decidable (_ ∨ _ ∨ ∃ own ∈ (state.shared.sessions session).mainActor, _))

variable {config : Config ω} {state next : State m n k ω} {label : Label n k ω}

/-- The kernel takes no more of a send buffer than there is. -/
structure Taken (state : State m n k ω) : Prop where
  atMost : ∀ phase id session sendBuffer result,
    0 < state.carries (.carried phase ⟨id, .sendBuffer session sendBuffer⟩) →
      phase = .completed result ∨ phase = .delivered result → result ≤ sendBuffer.length

/-- No step makes a send take more of its buffer than there is. -/
theorem step_taken (taken : Taken state) (stepped : step config state label = some next) :
    Taken next := by
  obtain ⟨_, lost, gained, move, total⟩ := step_moved config stepped
  refine ⟨fun phase id session sendBuffer result present landed => ?_⟩
  rcases carries_next total present with given | before
  · -- A result that comes with the step was there in an earlier phase, or is new.
    rcases move.gained_result given landed with
      ⟨earlier, still, member⟩ | ⟨connection, data, shared, _, done⟩
    · exact taken.atMost earlier id session sendBuffer result (carries_lost total member) still
    · -- The kernel has just completed it, with an error or with a count.
      simp only [completeStarted] at done
      split at done
      · rename_i answered
        rcases answered with failed | ⟨_, short⟩
        · omega
        · exact short
      · cases done
  · exact taken.atMost phase id session sendBuffer result before landed

/-- In every run, the kernel takes no more of a send buffer than there is. -/
theorem run_taken {world : ω} {labels : List (Label n k ω)}
    (run : Run (step config) anyStep (State.init m n k config world) labels state) :
    Taken state := by
  refine run.invariant ⟨fun phase id session sendBuffer result present => ?_⟩
    fun _ _ _ taken _ stepped => step_taken taken stepped
  -- At the start nothing is carried.
  rw [State.carries, init_total] at present
  cases present

/-- A send that is handled leads its worker into no call at all. -/
theorem send_handled {at_ : Fin n} {interrupted : Bool} {id : Nat} {session : Fin m}
    {sendBuffer : List Byte} {result : Int}
    (place : (state.worker at_).place = .handleCompletion)
    (found : (state.worker at_).completion = some ⟨⟨id, .sendBuffer session sendBuffer⟩, result⟩)
    (stepped : step config state (.work at_ interrupted) = some next) :
    next.todo (.worker at_) = [] := by
  unfold step at stepped
  -- The handler of a send returns without calls, whatever its result.
  split at stepped
  · cases stepped
  · simp only at stepped
    split at stepped
    · cases stepped
      simp only [State.setTodo, Function.update_self, workStep, place, found]
      split <;> rfl
    · cases stepped

/--
A send buffer is completed exactly when the kernel takes all of it at once.

A short count and an error are both passed over: the rest of the buffer is dropped, the session is
not told, and it stays open.
-/
theorem send_completed_iff {world : ω} {labels : List (Label n k ω)}
    (run : Run (step config) anyStep (State.init m n k config world) labels state) {at_ : Fin n}
    {interrupted : Bool} {id : Nat} {session : Fin m} {sendBuffer : List Byte} {result : Int}
    (place : (state.worker at_).place = .handleCompletion)
    (found : (state.worker at_).completion = some ⟨⟨id, .sendBuffer session sendBuffer⟩, result⟩)
    (stepped : step config state (.work at_ interrupted) = some next) :
    SendCompleted state next at_ session sendBuffer result ↔
      sendBuffer = [] ∨ result = sendBuffer.length := by
  have idle := send_handled place found stepped
  -- The completion is carried by its worker, so its result was given by the kernel.
  have delivered : 0 < state.carries
      (.carried (.delivered result) ⟨id, .sendBuffer session sendBuffer⟩) := by
    have member : Token.carried (.delivered result) ⟨id, .sendBuffer session sendBuffer⟩ ∈
        (state.worker at_).tokens := by
      simp [Worker.tokens, place, found, Completion.tokens]
    have part := worker_le_total state (fun other => if other =
      Token.carried (.delivered result) ⟨id, .sendBuffer session sendBuffer⟩ then 1 else 0) at_
    rw [← count_eq_tally] at part
    exact Nat.lt_of_lt_of_le (List.count_pos_iff.mpr member) part
  have atMost := (run_taken run).atMost _ id session sendBuffer result delivered (.inr rfl)
  simp only [SendCompleted, idle, List.not_mem_nil, and_false, exists_false, or_false, handedOver]
  constructor
  · intro whole
    -- What is taken from a buffer is all of it only if as much is taken as there is.
    have length := congrArg List.length whole
    rw [List.length_take] at length
    by_cases empty : sendBuffer = []
    · exact .inl empty
    · have positive := List.length_pos_of_ne_nil empty
      exact .inr (by omega)
  · rintro (rfl | same)
    · exact List.take_nil
    · exact List.take_of_length_le (by omega)

/-- Three bytes are sent on the connection of the first session, and the kernel answers. -/
def sendThree (result : Int) : List (Label 1 1 Unit) :=
  acceptOne ++ [.call 0 (.requestSend 0 [1, 2, 3])] ++ request (.application 0) 0 ++ work 9 ++
    [.start 0 1, .complete 0 1 result []] ++ work 1

/-- A send of three bytes that takes three completes its buffer. -/
theorem send_completed_iff_three :
    ∃ state next : State 2 1 1 Unit,
      step smallConfig state (.work 0 false) = some next ∧
      (state.worker 0).completion = some ⟨⟨3, .sendBuffer 0 [1, 2, 3]⟩, 3⟩ ∧
      SendCompleted state next 0 0 [1, 2, 3] 3 := by
  -- The kernel takes all three bytes.
  have executed : (exec (step smallConfig) (State.init 2 1 1 smallConfig ())
      (sendThree 3)).any fun state => (state.worker 0).place = .handleCompletion ∧
        (state.worker 0).completion = some ⟨⟨3, .sendBuffer 0 [1, 2, 3]⟩, 3⟩ ∧
        (step smallConfig state (.work 0 false)).isSome := by decide +kernel
  obtain ⟨state, reached, facts⟩ := (Option.any_eq_true _ _).mp executed
  obtain ⟨place, found, enabled⟩ := of_decide_eq_true facts
  obtain ⟨next, stepped⟩ := Option.isSome_iff_exists.mp enabled
  exact ⟨state, next, stepped, found,
    (send_completed_iff (.of_exec reached) place found stepped).mpr (.inr rfl)⟩

/-- A send of three bytes that takes two drops the third, and the session stays as it is. -/
theorem send_completeness_fails :
    ∃ (labels : List (Label 1 1 Unit)) (state next : State 2 1 1 Unit),
      Run (step smallConfig) anyStep (State.init 2 1 1 smallConfig ()) labels state ∧
      step smallConfig state (.work 0 false) = some next ∧
      (state.worker 0).completion = some ⟨⟨3, .sendBuffer 0 [1, 2, 3]⟩, 2⟩ ∧
      ¬ SendCompleted state next 0 0 [1, 2, 3] 2 ∧ next.todo (.worker 0) = [] := by
  -- The kernel takes two of three bytes, and the handler does not look at the count.
  have executed : (exec (step smallConfig) (State.init 2 1 1 smallConfig ())
      (sendThree 2)).any fun state =>
        (state.worker 0).completion = some ⟨⟨3, .sendBuffer 0 [1, 2, 3]⟩, 2⟩ ∧
        (step smallConfig state (.work 0 false)).any fun next =>
          ¬ SendCompleted state next 0 0 [1, 2, 3] 2 ∧ next.todo (.worker 0) = [] := by
    decide +kernel
  obtain ⟨state, reached, facts⟩ := (Option.any_eq_true _ _).mp executed
  obtain ⟨found, handled⟩ := of_decide_eq_true facts
  obtain ⟨next, stepped, dropped⟩ := (Option.any_eq_true _ _).mp handled
  exact ⟨_, state, next, .of_exec reached, stepped, found, of_decide_eq_true dropped⟩

end Braid.Service
