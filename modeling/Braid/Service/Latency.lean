import Braid.Service.IORequestQueue
import Braid.Service.Sessions

/-! How long a turn of a routine lasts, and what it leaves in the request queue of its worker. -/

namespace Braid.Service

open Counting Transition
open Memory (Slot)

variable {m n k : Nat} {ω : Type}

/-- What is remembered of the turn that a worker is in, from its `wait_one` on. -/
structure Turn where
  -- The steps of the worker, in its routine and in the calls that the routine makes.
  steps : Nat := 0
  popped : Nat := 0
  calls : Nat := 0
  -- The operations that were in the queue when the turn began and that are still there.
  waiting : Nat := 0

/-- What is remembered of a turn when a step has been taken. -/
def Turn.after (at_ : Fin n) (state : State m n k ω) (label : Label n k ω) (next : State m n k ω)
    (turn : Turn) : Turn :=
  match label with
  | .work other _ =>
    if other = at_ then
      let worker := state.worker at_
      if worker.place = .waitOne then { steps := 1, waiting := worker.requestQueue.length }
      else
        -- The queue can only have lost what the worker has popped itself.
        let popped := worker.requestQueue.length - (next.worker at_).requestQueue.length
        { steps := turn.steps + 1
          popped := turn.popped + popped
          calls := turn.calls + (next.todo (.worker at_)).length
          waiting := turn.waiting - popped }
    else turn
  | .run (.worker other) _ _ =>
    if other = at_ then { turn with steps := turn.steps + 1 } else turn
  | .task other _ => if other = at_ then { turn with calls := turn.calls + 1 } else turn
  | _ => turn

/-- The steps that a routine still needs for its turn, with no further operation to pop. -/
def Place.left : Place m → Nat
  | .waitOne => 0
  | .onZeroRef _ => 1
  | .destroy => 2
  | .processTasks => 3
  | .submit => 4
  | .flushPop => 5
  | .submitClose => 6
  | .prepareClose _ => 7
  -- The preparation of an entry leads back to the loop.
  | .requestIo _ => 8
  | .flushEmpty => 6
  | .handleCompletion => 7

/-- The steps that a call still needs. -/
def Todo.left : Todo m n → Nat
  | .acceptOne => 5
  | .call _ => 5
  | .receive _ => 5
  | .acquire _ => 4
  | .addRef _ => 3
  | .route _ => 2
  | .push _ _ => 1

/-- The flush of the turn has found the request queue empty. -/
def Place.emptied : Place m → Bool
  | .submit | .processTasks | .destroy | .onZeroRef _ | .waitOne => true
  | _ => false

/-- The label is a step of a worker. -/
def Label.ownedBy (at_ : Fin n) : Label n k ω → Bool
  | .work other _ => other = at_
  | .run (.worker other) _ _ => other = at_
  | _ => false

/--
A worker makes progress.

Its turn takes eight steps at most, and four for each operation that it pops and five for each
call that it makes; it can always take the next one. When its flush is over, nothing is left of
what was in its queue when the turn began, and nothing is prepared that is not submitted.
-/
structure Timely (config : Config ω) (at_ : Fin n) (state : State m n k ω) (turn : Turn) :
    Prop where
  bounded : turn.steps ≤ 8 + 4 * turn.popped + 5 * turn.calls
  goesOn : state.todo .main = [] →
    ∃ label next, label.ownedBy at_ ∧ step config state label = some next
  handed : (state.worker at_).place.emptied → turn.waiting = 0
  submitted : (state.worker at_).place.flushing = false → (state.worker at_).prepared = []

variable {config : Config ω} {state next : State m n k ω} {at_ : Fin n} {turn : Turn}

/-- What a step of a routine does to its queue, its ring and its way to the end of the turn. -/
structure Advances (worker next : Worker m) (popped : List (Handle m)) : Prop where
  queue : worker.requestQueue = popped ++ next.requestQueue
  left : next.place.left + 1 ≤ worker.place.left + 4 * popped.length
  emptied : next.place.emptied → next.requestQueue = [] ∨ worker.place.emptied
  quiet : next.place.flushing = false → worker.place.flushing = false ∨ next.prepared = []
  prepared : worker.place.flushing = false → next.prepared = worker.prepared

/-- No call needs more than five steps. -/
theorem tally_left_le (calls : List (Todo m n)) : tally Todo.left calls ≤ 5 * calls.length := by
  induction calls with
  | nil => exact Nat.le_refl _
  | cons todo rest ih =>
    have five : todo.left ≤ 5 := by cases todo <;> simp [Todo.left]
    rw [tally_cons, List.length_cons]
    omega

/-- A call of a thread comes closer to its end with each step, unless the program stops. -/
theorem todoStep_left {shared after : Shared m ω} {slot : Option Slot} {fails : Bool}
    {todo : Todo m n} {more : List (Todo m n)} {pushed : Option (Fin n × Handle m)}
    (stepped : todoStep config shared slot fails todo = some (after, more, pushed))
    (running : after.fault = none) : tally Todo.left more + 1 ≤ todo.left := by
  -- The places of a call are in the order in which it comes to them.
  cases todo with
  | acceptOne =>
    simp only [todoStep] at stepped
    split at stepped <;> cases stepped <;> simp [Todo.left]
  | call call =>
    simp only [todoStep] at stepped
    split at stepped <;> cases stepped <;> simp [Todo.left]
  | receive session =>
    cases stepped
    simp [Todo.left]
  | acquire operation =>
    simp only [todoStep] at stepped
    split at stepped
    · cases stepped
      simp [Todo.left]
    · split at stepped <;> cases stepped
      simp [Todo.left]
  | addRef handle =>
    simp only [todoStep] at stepped
    split at stepped <;> cases stepped
    · cases running
    · simp [Todo.left]
  | route handle =>
    simp only [todoStep] at stepped
    split at stepped
    · cases stepped
      cases running
    · split at stepped <;> cases stepped <;> simp [Todo.left]
  | push handle worker =>
    simp only [todoStep] at stepped
    split at stepped <;> cases stepped <;> simp [Todo.left]

/-- A step that pops nothing, and leaves the queue and the ring as they are. -/
theorem Advances.stay {worker next : Worker m} (queue : next.requestQueue = worker.requestQueue)
    (prepared : next.prepared = worker.prepared) (left : next.place.left + 1 ≤ worker.place.left)
    (emptied : next.place.emptied → next.requestQueue = [] ∨ worker.place.emptied)
    (quiet : next.place.flushing = false → worker.place.flushing = false) :
    Advances worker next [] :=
  ⟨queue.symm, left, emptied, fun idle => .inl (quiet idle), fun _ => prepared⟩

/-- An entry that is prepared brings the flush to the place behind it. -/
theorem prepare_advances {shared : Shared m ω} {worker : Worker m} {handle : Handle m}
    {place : Place m} (running : (prepare config shared worker handle place).1.fault = none)
    (inside : worker.place.flushing) (behind : place.flushing) (unemptied : place.emptied = false)
    (left : place.left + 1 ≤ worker.place.left) :
    Advances worker (prepare config shared worker handle place).2 [] := by
  unfold prepare at running ⊢
  split at running
  · -- There is room in the ring.
    rename_i room
    rw [if_pos room]
    exact ⟨rfl, left, by simp [unemptied], by simp [behind], by simp [inside]⟩
  · -- The program has stopped at the null entry.
    cases running

/-- A step of the flush brings it closer to its end, unless the program stops. -/
theorem flushStep_advances {shared : Shared m ω} {worker : Worker m}
    (flush : worker.place.flushing = true ∨ worker.place = .flushEmpty)
    (running : (flushStep config shared worker worker.place).1.fault = none) :
    ∃ popped, Advances worker (flushStep config shared worker worker.place).2 popped := by
  -- Only the pop takes something off the queue, and pays for its preparation.
  cases place : worker.place with
  | flushEmpty =>
    refine ⟨[], .stay rfl rfl ?_ ?_ ?_⟩ <;> simp only [flushStep, place] <;> split <;>
      simp_all [Place.left, Place.emptied, Place.flushing]
  | flushPop =>
    simp only [flushStep]
    split
    · -- Nothing is left in the queue, and the loop ends.
      rename_i queue
      exact ⟨[], .stay rfl rfl (by simp [place, Place.left]) (fun _ => .inl queue)
        (by simp [Place.flushing])⟩
    · -- The operation that is popped is the first of the queue.
      rename_i handle rest queue
      exact ⟨[handle], queue, by simp [place, Place.left], by simp [Place.emptied],
        by simp [Place.flushing], by simp [place, Place.flushing]⟩
  | requestIo handle =>
    simp only [place, flushStep] at running ⊢
    split at running
    · cases running
    · rename_i alive
      rw [if_neg alive]
      split at running
      · rename_i session close
        -- A close has its shutdown behind it, and its entry before it.
        exact ⟨[], rfl, by simp [place, Place.left], by simp [Place.emptied],
          by simp [Place.flushing], by simp [place, Place.flushing]⟩
      · exact ⟨[], prepare_advances running (by simp [place, Place.flushing]) rfl rfl
          (by simp [place, Place.left])⟩
  | prepareClose handle =>
    simp only [place, flushStep] at running ⊢
    split at running
    · cases running
    · rename_i alive
      rw [if_neg alive]
      exact ⟨[], prepare_advances running (by simp [place, Place.flushing]) rfl rfl
        (by simp [place, Place.left])⟩
  | submitClose =>
    exact ⟨[], rfl, by simp [flushStep, submitEntries, place, Place.left],
      by simp [flushStep, submitEntries, Place.emptied],
      by simp [flushStep, submitEntries, Place.flushing], by simp [place, Place.flushing]⟩
  | submit =>
    exact ⟨[], rfl, by simp [flushStep, submitEntries, place, Place.left],
      by simp [place, Place.emptied], by simp [flushStep, submitEntries],
      by simp [place, Place.flushing]⟩
  | _ => simp [place, Place.flushing] at flush

/-- A step of a routine that is in a turn brings it closer to its end, unless the program stops. -/
theorem workStep_advances {shared after : Shared m ω} {worker next : Worker m}
    {interrupted : Bool} {more : List (Todo m n)} (inside : worker.place ≠ .waitOne)
    (stepped : workStep config shared worker interrupted = (after, next, more))
    (running : after.fault = none) : ∃ popped, Advances worker next popped := by
  -- Outside of the flush, a step leaves the queue and the ring alone.
  have routine (queue : next.requestQueue = worker.requestQueue)
      (prepared : next.prepared = worker.prepared) (left : next.place.left + 1 ≤ worker.place.left)
      (before : worker.place.flushing = false)
      (emptied : next.place.emptied → worker.place.emptied) :
      ∃ popped, Advances worker next popped :=
    ⟨[], .stay queue prepared left (fun behind => .inr (emptied behind)) fun _ => before⟩
  cases place : worker.place with
  | waitOne => exact absurd place inside
  | handleCompletion =>
    simp only [workStep, place] at stepped
    split at stepped
    · cases stepped
      refine routine rfl rfl ?_ ?_ ?_ <;>
        simp [place, Place.left, Place.flushing, Place.emptied]
    · split at stepped <;> cases stepped
      · cases running
      · refine routine rfl rfl ?_ ?_ ?_ <;>
          simp [place, Place.left, Place.flushing, Place.emptied]
  | processTasks =>
    simp only [workStep, place] at stepped
    cases stepped
    refine routine rfl rfl ?_ ?_ ?_ <;> simp [place, Place.left, Place.flushing, Place.emptied]
  | destroy =>
    simp only [workStep, place, destroyStep] at stepped
    split at stepped
    · cases stepped
      refine routine rfl rfl ?_ ?_ ?_ <;> simp [place, Place.left, Place.flushing, Place.emptied]
    · split at stepped
      · cases stepped
        cases running
      · split at stepped
        · cases stepped
          cases running
        · split at stepped <;> cases stepped <;> refine routine rfl rfl ?_ ?_ ?_ <;>
            simp [place, Place.left, Place.flushing, Place.emptied]
  | onZeroRef handle =>
    simp only [workStep, place, onZeroRef] at stepped
    split at stepped <;> cases stepped
    · cases running
    · refine routine rfl rfl ?_ ?_ ?_ <;> simp [place, Place.left, Place.flushing, Place.emptied]
  | _ =>
    simp only [workStep, place] at stepped
    cases stepped
    rw [← place] at running ⊢
    exact flushStep_advances (by simp [place, Place.flushing]) running

/-- What is remembered of a turn pays for the steps that it still needs. -/
structure Paid (at_ : Fin n) (state : State m n k ω) (turn : Turn) : Prop where
  paid : turn.steps + (state.worker at_).place.left +
    tally Todo.left (state.todo (.worker at_)) ≤ 8 + 4 * turn.popped + 5 * turn.calls
  front : turn.waiting ≤ (state.worker at_).requestQueue.length
  handed : (state.worker at_).place.emptied → turn.waiting = 0
  submitted : (state.worker at_).place.flushing = false → (state.worker at_).prepared = []

/-- What others do can only add to the end of the queue. -/
theorem Paid.aside (paid : Paid at_ state turn) (more : List (Handle m))
    (todo : next.todo (.worker at_) = state.todo (.worker at_))
    (queue : (next.worker at_).requestQueue = (state.worker at_).requestQueue ++ more)
    (prepared : (next.worker at_).prepared = (state.worker at_).prepared)
    (place : (next.worker at_).place = (state.worker at_).place) : Paid at_ next turn := by
  -- Only the queue may have changed, and what waits in front is still there.
  refine ⟨?_, ?_, ?_, ?_⟩
  · rw [place, todo]
    exact paid.paid
  · rw [queue, List.length_append]
    exact paid.front.trans (Nat.le_add_right _ _)
  · rw [place]
    exact paid.handed
  · rw [place, prepared]
    exact paid.submitted

/-- A step that leaves a worker alone leaves its turn as it is. -/
theorem Paid.elsewhere (paid : Paid at_ state turn)
    (todo : next.todo (.worker at_) = state.todo (.worker at_))
    (same : next.worker at_ = state.worker at_) : Paid at_ next turn :=
  paid.aside [] todo (by rw [same, List.append_nil]) (by rw [same]) (by rw [same])

/-- A step of the kernel changes what is behind the ring of a worker only. -/
theorem Paid.kernel (paid : Paid at_ state turn) {after : Shared m ω} {other : Fin n}
    {worker : Worker m} (queue : worker.requestQueue = (state.worker other).requestQueue)
    (prepared : worker.prepared = (state.worker other).prepared)
    (place : worker.place = (state.worker other).place) :
    Paid at_ ((state.setShared after).setWorker other worker) turn := by
  -- The worker is the one that the kernel works for, or another one.
  by_cases own : at_ = other
  · subst own
    have following := setWorker_self (state.setShared after) at_ worker
    refine paid.aside [] rfl ?_ ((congrArg _ following).trans prepared)
      ((congrArg _ following).trans place)
    exact (congrArg _ following).trans (queue.trans (List.append_nil _).symm)
  · exact paid.elsewhere rfl (setWorker_of_ne _ own _)

/-- A push adds to the end of a queue, and leaves the rest of its worker alone. -/
theorem pushRequest_worker (state : State m n k ω) (pushed : Option (Fin n × Handle m))
    (at_ : Fin n) :
    (∃ more, ((state.pushRequest pushed).worker at_).requestQueue =
      (state.worker at_).requestQueue ++ more) ∧
    ((state.pushRequest pushed).worker at_).prepared = (state.worker at_).prepared ∧
    ((state.pushRequest pushed).worker at_).place = (state.worker at_).place := by
  cases pushed with
  | none => exact ⟨⟨[], (List.append_nil _).symm⟩, rfl, rfl⟩
  | some push =>
    refine ⟨⟨_, pushRequest_requestQueue state push.2 push.1 at_⟩, ?_⟩
    -- The push goes to this worker or to another one.
    by_cases same : at_ = push.1
    · subst same
      simp [State.pushRequest]
    · simp [State.pushRequest, setWorker_of_ne _ same]

/-- A step inside of a call is paid for, whichever thread has made the call. -/
theorem Paid.run (paid : Paid at_ state turn) {context : Context n k} {slot : Option Slot}
    {fails : Bool} {todo : Todo m n} {rest more : List (Todo m n)} {after : Shared m ω}
    {pushed : Option (Fin n × Handle m)} (head : state.todo context = todo :: rest)
    (stepped : todoStep config state.shared slot fails todo = some (after, more, pushed))
    (running : after.fault = none) :
    Paid at_ (((state.setShared after).setTodo context (more ++ rest)).pushRequest pushed)
      (Turn.after at_ state (.run context slot fails)
        (((state.setShared after).setTodo context (more ++ rest)).pushRequest pushed) turn) := by
  obtain ⟨⟨pushes, queue⟩, prepared, place⟩ :=
    pushRequest_worker ((state.setShared after).setTodo context (more ++ rest)) pushed at_
  by_cases own : context = .worker at_
  · subst own
    -- The step is counted, and the call has one step less before it.
    have less := todoStep_left stepped running
    have before := paid.paid
    simp only [head, tally_cons] at before
    have counted : Turn.after at_ state (.run (.worker at_) slot fails)
        (((state.setShared after).setTodo (.worker at_) (more ++ rest)).pushRequest pushed) turn =
          { turn with steps := turn.steps + 1 } := by simp [Turn.after]
    rw [counted]
    refine ⟨?_, ?_, ?_, ?_⟩
    · rw [place, pushRequest_todo, setTodo_self, tally_append]
      simp only [State.setTodo, State.setShared] at before ⊢
      omega
    · rw [queue, List.length_append]
      exact paid.front.trans (Nat.le_add_right _ _)
    · rw [place]
      exact paid.handed
    · rw [place, prepared]
      exact paid.submitted
  · -- The calls of other threads can only push something onto the queue.
    have unchanged : Turn.after at_ state (.run context slot fails)
        (((state.setShared after).setTodo context (more ++ rest)).pushRequest pushed) turn =
          turn := by
      cases context with
      | worker other => simp_all [Turn.after]
      | _ => rfl
    rw [unchanged]
    refine paid.aside _ ?_ queue prepared place
    rw [pushRequest_todo, setTodo_of_ne _ (Ne.symm own)]
    rfl

/-- A step of the worker itself is paid for. -/
theorem Paid.work (paid : Paid at_ state turn) {interrupted : Bool} {after : Shared m ω}
    {worker : Worker m} {more : List (Todo m n)} (idle : state.todo (.worker at_) = [])
    (stepped : workStep config state.shared (state.worker at_) interrupted = (after, worker, more))
    (running : after.fault = none) {next : State m n k ω} (following : next.worker at_ = worker)
    (todo : next.todo (.worker at_) = more) :
    Paid at_ next (Turn.after at_ state (.work at_ interrupted) next turn) := by
  have before := paid.paid
  rw [idle] at before
  by_cases wait : (state.worker at_).place = .waitOne
  · -- A turn begins, with the seven steps of a turn in which nothing is popped before it.
    have counted : Turn.after at_ state (.work at_ interrupted) next turn =
        { steps := 1, waiting := (state.worker at_).requestQueue.length } := by
      simp [Turn.after, wait]
    have same : worker.requestQueue = (state.worker at_).requestQueue ∧
        worker.prepared = (state.worker at_).prepared ∧ worker.place = .handleCompletion ∧
        more = [] := by
      simp only [workStep, wait] at stepped
      split at stepped <;> cases stepped <;> exact ⟨rfl, rfl, rfl, rfl⟩
    obtain ⟨queue, prepared, place, rfl⟩ := same
    have quiet := paid.submitted (by rw [wait]; rfl)
    rw [counted]
    refine ⟨?_, ?_, ?_, fun _ => ?_⟩
    · rw [following, place, todo]
      simp [Place.left]
    · rw [following, queue]
    · rw [following, place]
      simp [Place.emptied]
    · rw [following, prepared, quiet]
  · -- Inside of a turn, the step is paid for by its place or by what it pops.
    obtain ⟨popped, advances⟩ := workStep_advances wait stepped running
    have lengths := congrArg List.length advances.queue
    rw [List.length_append] at lengths
    have counted : Turn.after at_ state (.work at_ interrupted) next turn =
        { steps := turn.steps + 1
          popped := turn.popped + popped.length
          calls := turn.calls + more.length
          waiting := turn.waiting - popped.length } := by
      simp only [Turn.after, if_pos, if_neg wait, following, todo]
      rw [show (state.worker at_).requestQueue.length - worker.requestQueue.length =
        popped.length by omega]
    have left := advances.left
    have front := paid.front
    rw [counted]
    refine ⟨?_, ?_, ?_, ?_⟩
    · -- The calls that begin bring their own five steps each.
      have calls := tally_left_le more
      rw [following, todo]
      simp only [tally_nil] at before
      dsimp only
      omega
    · rw [following]
      dsimp only
      omega
    · rw [following]
      intro emptied
      rcases advances.emptied emptied with empty | already
      · rw [empty] at lengths
        simp only [List.length_nil] at lengths
        dsimp only
        omega
      · have := paid.handed already
        dsimp only
        omega
    · rw [following]
      intro idle
      rcases advances.quiet idle with outside | empty
      · rw [advances.prepared outside, paid.submitted outside]
      · exact empty

/-- Every step of the service is paid for. -/
theorem step_paid {label : Label n k ω} (paid : Paid at_ state turn)
    (running : next.shared.fault = none) (stepped : step config state label = some next) :
    Paid at_ next (Turn.after at_ state label next turn) := by
  -- One case for each label, in the order of `step`.
  unfold step at stepped
  split at stepped
  · cases stepped
  · split at stepped
    · split at stepped
      · cases stepped
      · rename_i head
        obtain ⟨⟨after, more, pushed⟩, called, rfl⟩ := Option.map_eq_some_iff.mp stepped
        refine paid.run head called ?_
        cases pushed <;> exact running
    · split at stepped
      · rename_i other interrupted ready
        cases stepped
        by_cases own : other = at_
        · subst own
          exact paid.work ready.2 rfl running (setWorker_self ..) (setTodo_self ..)
        · have unchanged (next : State m n k ω) :
              Turn.after at_ state (.work other interrupted) next turn = turn := if_neg own
          rw [unchanged]
          have same := setWorker_of_ne (state.setShared
            (workStep (n := n) config state.shared (state.worker other) interrupted).1)
            (Ne.symm own)
            (workStep (n := n) config state.shared (state.worker other) interrupted).2.1
          refine paid.elsewhere ?_ same
          exact setTodo_of_ne _ (by simpa using Ne.symm own) _
      · cases stepped
    · split at stepped
      · cases stepped
        refine paid.aside [] ?_ (List.append_nil _).symm rfl rfl
        exact setTodo_of_ne _ (by simp) _
      · cases stepped
    · split at stepped
      · rename_i other call ready
        cases stepped
        by_cases own : other = at_
        · subst own
          have before := paid.paid
          have counted : Turn.after other state (.task other call)
              (state.setTodo (.worker other) [.call call]) turn =
                { turn with calls := turn.calls + 1 } := if_pos rfl
          rw [counted]
          refine ⟨?_, paid.front, paid.handed, paid.submitted⟩
          rw [setTodo_self]
          rw [ready.2] at before
          simp only [tally_nil, tally_cons, Todo.left, State.setTodo] at before ⊢
          omega
        · have unchanged : Turn.after at_ state (.task other call)
              (state.setTodo (.worker other) [.call call]) turn = turn := if_neg own
          rw [unchanged]
          refine paid.aside [] ?_ (List.append_nil _).symm rfl rfl
          exact setTodo_of_ne _ (by simpa using Ne.symm own) _
      · cases stepped
    · cases stepped
      exact paid.aside [] rfl (List.append_nil _).symm rfl rfl
    · obtain ⟨entry, found, rfl⟩ := Option.map_eq_some_iff.mp stepped
      exact paid.kernel rfl rfl rfl
    · obtain ⟨started, found, completed⟩ := Option.bind_eq_some_iff.mp stepped
      obtain ⟨shared, done, rfl⟩ := Option.map_eq_some_iff.mp completed
      exact paid.kernel rfl rfl rfl

/-- A call can always go on, even where the pool has no slot. -/
theorem exists_todoStep (config : Config ω) (shared : Shared m ω) (todo : Todo m n) :
    ∃ result, todoStep config shared none false todo = some result := by
  -- Without a slot the acquisition is refused, and every other place asks for none.
  cases todo <;> simp only [todoStep] <;> repeat' split
  all_goals exact ⟨_, rfl⟩

/-- A worker of a program that has not stopped can take a step once `initialize` has returned. -/
theorem exists_ownStep (config : Config ω) (at_ : Fin n) (running : state.shared.fault = none)
    (initialized : state.todo .main = []) :
    ∃ label next, label.ownedBy at_ ∧ step config state label = some next := by
  -- The worker is in its routine, or in a call.
  cases calls : state.todo (.worker at_) with
  | nil =>
    have taken : (step config state (.work at_ false)).isSome := by
      simp [step, running, initialized, calls]
    exact ⟨.work at_ false, _, by simp [Label.ownedBy], Option.eq_some_of_isSome taken⟩
  | cons todo rest =>
    obtain ⟨result, called⟩ := exists_todoStep config state.shared todo
    have taken : (step config state (.run (.worker at_) none false)).isSome := by
      simp [step, running, calls, called]
    exact ⟨.run (.worker at_) none false, _, by simp [Label.ownedBy],
      Option.eq_some_of_isSome taken⟩

/--
Every worker makes progress in every run, whatever the other threads and the kernel do.

What a turn costs is paid by what it pops and by the calls that it makes, so that an operation that
is in a request queue when a turn begins has been submitted when its flush is over.
-/
theorem turns_timely {world : ω} {labels : List (Label n k ω)}
    (run : Run (track (step config) (Turn.after at_)) anyStep
      (State.init m n k config world, {}) labels (state, turn))
    (running : state.shared.fault = none) : Timely config at_ state turn := by
  have paid : state.shared.fault = none → Paid at_ state turn := by
    -- The program has not stopped before, so that the premise holds in every state.
    refine run.invariant
      (P := fun seen => seen.1.shared.fault = none → Paid at_ seen.1 seen.2) ?_ ?_
    · exact fun _ => ⟨Nat.zero_le _, Nat.zero_le _, fun _ => rfl, fun _ => rfl⟩
    · rintro ⟨before, turn⟩ label ⟨next, after⟩ paid _ taken goes
      obtain ⟨stepped, kept⟩ := track_eq_some.mp taken
      rw [← kept]
      exact step_paid (paid (step_moved config stepped).1) goes stepped
  obtain ⟨paid, front, handed, submitted⟩ := paid running
  exact ⟨by omega, exists_ownStep config at_ running, handed, submitted⟩

/-- The thread of the application sends no bytes to the first session, a number of times. -/
def sendMany (slots : List Nat) : List (Label 1 1 Unit) :=
  slots.flatMap fun slot => [.call 0 (.requestSend 0 [])] ++ request (.application 0) slot

/-- The thread of the application closes the first session. -/
def closeNow : List (Label 1 1 Unit) :=
  [.call 0 (.requestClose 0)] ++ request (.application 0) 0

/-- A turn that begins with six operations in the queue takes twenty steps up to its tasks. -/
theorem turns_timely_six :
    ∃ (state : State 2 1 1 Unit) (turn : Turn), Timely smallConfig 0 state turn ∧
      turn.steps = 20 ∧ turn.popped = 6 ∧ turn.waiting = 0 := by
  have executed : (exec (track (step smallConfig) (Turn.after 0))
      (State.init 2 1 1 smallConfig (), {})
      (acceptOne ++ sendMany [0, 1, 2] ++ closeNow ++ sendMany [3, 4] ++ work 20)).any fun seen =>
        seen.1.shared.fault = none ∧ seen.2.steps = 20 ∧ seen.2.popped = 6 ∧
          seen.2.waiting = 0 := by decide +kernel
  obtain ⟨⟨state, turn⟩, reached, facts⟩ := (Option.any_eq_true _ _).mp executed
  obtain ⟨running, values⟩ := of_decide_eq_true facts
  exact ⟨state, turn, turns_timely (.of_exec reached) running, values⟩

end Braid.Service
