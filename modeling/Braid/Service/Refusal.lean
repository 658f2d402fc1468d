import Braid.Memory.Exhaustion
import Braid.Service.IORequestQueue
import Braid.Service.Lifecycle

/-! Requests that the pool of their operations refuses, and the calls of `acquire` that fail. -/

namespace Braid.Service

open Memory (Slot)
open Transition

variable {m n k : Nat} {ω : Type}

/-- The calls of `request_io<T>` so far, each with what its pool has answered. -/
abbrev Asked (m : Nat) := List (Operation m × Option Slot)

namespace Asked

/-- What is remembered when a step has been taken. -/
def after (state : State m n k ω) (label : Label n k ω) (_ : State m n k ω) (asked : Asked m) :
    Asked m :=
  match label with
  | .run context slot _ =>
    match state.todo context with
    | .acquire operation :: _ => asked ++ [(operation, slot)]
    | _ => asked
  | _ => asked

/-- The calls for the operations of a class. -/
def of (asked : Asked m) (kind : Kind) : Asked m :=
  asked.filter fun request => request.1.kind = kind

/-- The operations of the calls that were given one. -/
def granted (asked : Asked m) : List (Operation m) :=
  asked.filterMap fun request => request.2.map fun _ => request.1

/-- Every operation that was asked for is given if and only if no answer is a null pointer. -/
theorem granted_eq_iff (asked : Asked m) :
    asked.granted = asked.map Prod.fst ↔ none ∉ asked.map Prod.snd := by
  induction asked with
  | nil => simp [granted]
  | cons request rest ih =>
    obtain ⟨operation, slot⟩ := request
    cases slot with
    | some slot => simpa [granted] using ih
    | none =>
      -- A request that is refused makes the list shorter.
      simp only [granted, List.filterMap_cons, Option.map_none, List.map_cons, List.mem_cons,
        true_or, not_true_eq_false, iff_false]
      intro same
      have length := congrArg List.length same
      have shorter := List.length_filterMap_le
        (fun request : Operation m × Option Slot => request.2.map fun _ => request.1) rest
      simp only [List.length_cons, List.length_map] at length
      omega

/-- The operations of a class that are given are those of the calls for the class. -/
theorem granted_of (asked : Asked m) (kind : Kind) :
    asked.granted.filter (fun operation => operation.kind = kind) = (asked.of kind).granted := by
  induction asked with
  | nil => rfl
  | cons request rest ih =>
    obtain ⟨operation, slot⟩ := request
    -- A request counts on both sides if it was given a slot and is of the class.
    cases slot <;> by_cases right : operation.kind = kind <;>
      simp_all [granted, of]

end Asked

/-- Every call for an operation of a class is given one, and none is dropped. -/
def NoneDropped (state : State m n k ω) (asked : Asked m) (kind : Kind) : Prop :=
  (state.shared.acquisitions.map Handle.operation).filter (fun operation => operation.kind = kind) =
    (asked.of kind).map Prod.fst

variable {config : Config ω} {state next : State m n k ω}

/-- A step inside of a call acquires nothing where it does not ask a pool. -/
theorem CallStep.acquisitions {shared after : Shared m ω} {fails : Bool} {todo : Todo m n}
    {more : List (Todo m n)} {pushed : Option (Fin n × Handle m)}
    (call : CallStep shared fails todo after more pushed)
    (other : ∀ operation, todo ≠ .acquire operation) :
    after.acquisitions = shared.acquisitions := by
  -- Every step but the acquisition itself records other events, or none.
  cases call with
  | ask waits aside ends => exact aside.acquisitions
  | acquire acquired submissions requestIndex => exact absurd rfl (other _)
  | addRef aside => exact aside.acquisitions
  | stop aside unrouted unpushed => exact aside.acquisitions
  | route inside => rfl
  | turnAway outside acquisitions submissions requestIndex => exact acquisitions
  | push succeeds => rfl
  | failPush failed => exact (Shared.Aside.dropped shared _).acquisitions

/-- A step that asks a pool acquires what the pool gives. -/
theorem todoStep_granted {shared after : Shared m ω} {slot : Option Slot} {fails : Bool}
    {operation : Operation m} {more : List (Todo m n)} {pushed : Option (Fin n × Handle m)}
    (stepped : todoStep config shared slot fails (.acquire operation) = some (after, more, pushed)) :
    after.acquisitions.map Handle.operation =
      shared.acquisitions.map Handle.operation ++ Asked.granted [(operation, slot)] := by
  -- Without a slot the request is refused, and with one that is free it is granted.
  cases slot with
  | none =>
    cases stepped
    simp [Shared.acquisitions, Shared.record, Event.acquisition, Asked.granted]
  | some slot =>
    simp only [todoStep] at stepped
    split at stepped
    · cases stepped
    · cases stepped
      simp [Shared.acquisitions, Shared.record, Shared.setHeld, Shared.setCell,
        Event.acquisition, Asked.granted]

/-- What is acquired is what the pools have given. -/
def Granted (seen : State m n k ω × Asked m) : Prop :=
  seen.1.shared.acquisitions.map Handle.operation = seen.2.granted

/-- A step inside of a call acquires what its pool gives. -/
theorem run_granted {context : Context n k} {slot : Option Slot} {fails : Bool} {asked : Asked m}
    (granted : Granted (state, asked))
    (taken : step config state (.run context slot fails) = some next) :
    Granted (next, Asked.after state (.run context slot fails) next asked) := by
  unfold step at taken
  split at taken
  · cases taken
  · cases head : state.todo context with
    | nil => simp [head] at taken
    | cons todo rest =>
      simp only [head] at taken
      obtain ⟨⟨after, more, pushed⟩, stepped, rfl⟩ := Option.map_eq_some_iff.mp taken
      -- A push to a request queue leaves the log alone.
      have log : (((state.setShared after).setTodo context (more ++ rest)).pushRequest
          pushed).shared.acquisitions = after.acquisitions := by
        cases pushed <;> rfl
      simp only [Granted, Asked.after, head, log] at granted ⊢
      cases todo with
      | acquire operation =>
        rw [todoStep_granted stepped, granted, Asked.granted, Asked.granted, Asked.granted,
          List.filterMap_append]
      | _ => rw [(todoStep_call stepped).acquisitions (by simp), granted]

/-- A step of a worker acquires nothing. -/
theorem QueueStep.acquisitions {shared after : Shared m ω} {worker moved : Worker m}
    (queue : QueueStep config shared worker after moved) :
    after.acquisitions = shared.acquisitions := by
  cases queue with
  | stay aside => exact aside.acquisitions
  | pop place queue => rfl
  | write hand room goesOn => simp [Shared.acquisitions, Shared.record, Event.acquisition]
  | nullEntry hand full => rfl
  -- What is recorded for a submission is no acquisition.
  | submit empty hand goesOn =>
    have none : ∀ entry : Entry m, Event.acquisition (.submitted entry.handle) = none :=
      fun _ => rfl
    simp [Shared.acquisitions, submitEntries, Shared.record, List.filterMap_map, none]

/-- Each step acquires what its pool gives it. -/
theorem step_granted {seen after : State m n k ω × Asked m} {label : Label n k ω}
    (granted : Granted seen) (taken : track (step config) Asked.after seen label = some after) :
    Granted after := by
  obtain ⟨state, asked⟩ := seen
  obtain ⟨next, record⟩ := after
  obtain ⟨stepped, recorded⟩ := track_eq_some.mp taken
  dsimp only at stepped recorded
  subst recorded
  -- Only a step inside of a call asks a pool.
  have elsewhere (uncalled : ∀ context slot fails, label ≠ .run context slot fails)
      (same : next.shared.acquisitions = state.shared.acquisitions) :
      Granted (next, Asked.after state label next asked) := by
    cases label with
    | run context slot fails => exact absurd rfl (uncalled context slot fails)
    | _ => exact (congrArg (List.map Handle.operation) same).trans granted
  cases step_queue stepped with
  | run head call => exact run_granted granted stepped
  | work idle queue waiting => exact elsewhere (by simp) queue.acquisitions
  | begin idle unworked uncalled => exact elsewhere uncalled rfl
  | outside aside todo queue prepared place unworked uncalled =>
    exact elsewhere uncalled aside.acquisitions

/-- The operations of a class are all given exactly if no answer of their pool is a null pointer. -/
theorem Granted.noneDropped_iff {asked : Asked m} (granted : Granted (state, asked)) (kind : Kind) :
    NoneDropped state asked kind ↔ none ∉ (asked.of kind).map Prod.snd := by
  rw [NoneDropped, show _ = asked.granted from granted, Asked.granted_of, Asked.granted_eq_iff]

/--
When `acquire` returns a slot, and `request_io<T>` an operation.

The runs of a pool are those in which nothing throws, and in which a thread that has just added a
chunk finds a slot of it, or another one. Null is returned in such a run exactly if a thread that
found another one allocating has made twenty pops since then, and has found the queue empty each
time. Exactly then the service drops an operation of the class that the pool is for.
-/
theorem acquire_null_iff {ι : Type} [DecidableEq ι] {pool : Memory.Config}
    {labels : List (Memory.Label ι)} {finish : Memory.State ι} {pops : Memory.EmptyPops ι}
    (run : Run (track (Memory.step pool) Memory.EmptyPops.after)
      (fun seen label => Memory.NoThrow seen.1 label ∧ Memory.FindsSlot seen.1 label)
      (Memory.State.init ι pool, fun _ => none) labels (finish, pops)) :
    (none ∉ finish.shared.returned ↔
      Run (track (Memory.step pool) Memory.EmptyPops.after)
        (fun seen label => (Memory.NoThrow seen.1 label ∧ Memory.FindsSlot seen.1 label) ∧
          Memory.Patient seen label)
        (Memory.State.init ι pool, fun _ => none) labels (finish, pops)) ∧
    ∀ {m n k : Nat} {ω : Type} {config : Config ω} {world : ω} {requests : List (Label n k ω)}
      {state : State m n k ω} {asked : Asked m} (kind : Kind),
      Run (track (step config) Asked.after) anyStep (State.init m n k config world, []) requests
        (state, asked) →
      (asked.of kind).map Prod.snd = finish.shared.returned →
      (NoneDropped state asked kind ↔ none ∉ finish.shared.returned) := by
  refine ⟨Memory.returns_null_iff run, ?_⟩
  intro m n k ω config world requests state asked kind served answers
  -- What the service has been given is what the pool has answered.
  have granted : Granted (state, asked) :=
    served.invariant (P := Granted) rfl fun _ _ _ granted _ taken => step_granted granted taken
  rw [granted.noneDropped_iff, answers]

/-- A thread that has found the flag set finds a slot of the chunk that the other one adds. -/
def retries : List (Memory.Label (Fin 2)) :=
  .construct 0 :: List.replicate 8 (.run 0 false) ++ .acquire 0 :: List.replicate 3 (.run 0 false) ++
    .acquire 0 :: List.replicate 4 (.run 0 false) ++ .acquire 1 :: List.replicate 9 (.run 1 false) ++
    List.replicate 2 (.run 0 false) ++ List.replicate 2 (.run 1 false)

/-- The service asks for two accepts while it is initialized. -/
def asksTwice : List (Label 1 1 Unit) :=
  request .main 0 ++ [.run .main none false, .run .main (some ⟨1, 0⟩) false]

/-- Two accepts are served by a pool in which one thread retries. -/
theorem acquire_null_iff_retries :
    ∃ (finish : Memory.State (Fin 2)) (state : State 2 1 1 Unit) (asked : Asked 2),
      finish.shared.returned = [some ⟨0, 0⟩, some ⟨1, 0⟩] ∧ NoneDropped state asked .accept := by
  -- The pool gives a slot to one thread, and to the other one after a retry.
  have executed : (execWhile (track (Memory.step ⟨1, 1, 32, 16⟩) Memory.EmptyPops.after)
      (fun seen label => Memory.NoThrow seen.1 label ∧ Memory.FindsSlot seen.1 label)
      (Memory.State.init (Fin 2) ⟨1, 1, 32, 16⟩, fun _ => none) retries).any fun seen =>
        seen.1.shared.returned = [some ⟨0, 0⟩, some ⟨1, 0⟩] := by decide +kernel
  obtain ⟨⟨finish, pops⟩, reached, returned⟩ := (Option.any_eq_true _ _).mp executed
  -- The service asks twice, and gets these two answers.
  have served : (exec (track (step smallConfig) Asked.after) (State.init 2 1 1 smallConfig (), [])
      asksTwice).any fun seen =>
        (seen.2.of .accept).map Prod.snd = [some ⟨0, 0⟩, some ⟨1, 0⟩] := by decide +kernel
  obtain ⟨⟨state, asked⟩, asks, answers⟩ := (Option.any_eq_true _ _).mp served
  have returned : finish.shared.returned = [some ⟨0, 0⟩, some ⟨1, 0⟩] := of_decide_eq_true returned
  refine ⟨finish, state, asked, returned, ?_⟩
  refine ((acquire_null_iff (.of_execWhile reached)).2 .accept (.of_exec asks) ?_).mpr ?_
  · rw [returned]
    exact of_decide_eq_true answers
  · rw [returned]
    decide

end Braid.Service
