import Braid.Library.Counting
import Braid.Library.Transition
import Braid.Task.Progress

/-! Who is in charge of a serializer: the calls that will still look at its queue. -/

namespace Braid.Task

variable {ι σ τ : Type} [DecidableEq σ]

/--
Whether a call is in charge of a serializer.

A push is, once it has found the queue empty, and so is the process loop up to its own last
emptiness test or its requeue.
-/
def Frame.charge (serializer : σ) : Frame σ τ → Nat
  | .pushInsert target _ wasEmpty => if wasEmpty ∧ target = serializer then 1 else 0
  | .pushHandOver target => if target = serializer then 1 else 0
  | .process point locals => if point ≠ .exit ∧ locals.serializer = serializer then 1 else 0
  | _ => 0

/-- The calls on a stack that are in charge of a serializer. -/
def charge (serializer : σ) (stack : List (Frame σ τ)) : Nat :=
  (stack.map (Frame.charge serializer)).sum

/-- The next step is the emptiness test of a push, and takes charge of the serializer. -/
def claims (shared : Shared σ τ) (serializer : σ) : List (Frame σ τ) → Nat
  | .pushEmpty target _ :: _ =>
    if target = serializer ∧ shared.taskQueue serializer = [] then 1 else 0
  | _ => 0

/-- The next step is the last emptiness test of the process loop, and gives up the charge. -/
def leaves (shared : Shared σ τ) (serializer : σ) : List (Frame σ τ) → Nat
  | .process .empty locals :: _ =>
    if locals.serializer = serializer ∧ shared.taskQueue serializer = [] then 1 else 0
  | _ => 0

@[simp] theorem charge_nil (serializer : σ) : charge serializer ([] : List (Frame σ τ)) = 0 := rfl

@[simp] theorem charge_cons (serializer : σ) (frame : Frame σ τ) (rest : List (Frame σ τ)) :
    charge serializer (frame :: rest) = frame.charge serializer + charge serializer rest := by
  simp [charge]

/-- An invoked task is in charge of nothing yet. -/
theorem charge_invokeFrame (program : Program σ τ) (serializer : σ) (func : Func σ τ)
    (rest : List (Frame σ τ)) :
    charge serializer (invokeFrame program func ++ rest) = charge serializer rest := by
  cases func <;> simp [invokeFrame, Frame.charge]

variable {program : Program σ τ} {shared shared' : Shared σ τ} {slot slot' : Option σ}
  {stack stack' : List (Frame σ τ)}

/-- The charge a thread has and the entries queued change only by claiming and by leaving. -/
theorem Move.charge (move : Move program shared slot stack shared' slot' stack') (serializer : σ) :
    charge serializer stack' + (shared'.serializerQueue .taskDistributor).count serializer +
        leaves shared serializer stack =
      charge serializer stack + (shared.serializerQueue .taskDistributor).count serializer +
        claims shared serializer stack := by
  cases move with
  -- These moves neither take charge nor hand it on.
  | callsDone | callRequest | callLogFiltered | callLog | request | pollNothing | enter | turn
  | turnLast | state | exit | popNothing | pop | pushInsertEmpty | pushInsert | handOverInline =>
    simp [Frame.charge, claims, leaves, Shared.afterRequest, Shared.afterInsert, Shared.afterDrop,
      Shared.afterPop]
  -- The emptiness test of a push is where a claim is made.
  | pushEmpty =>
    rename_i target task
    by_cases same : target = serializer
    · subst same
      by_cases empty : shared.taskQueue target = []
      · simp [Frame.charge, claims, leaves, empty]; omega
      · simp [Frame.charge, claims, leaves, empty]
    · simp [Frame.charge, claims, leaves, same]
  -- A hand-over and a requeue turn the charge of a thread into an entry, and a poll turns it back.
  | handOverAdd =>
    rename_i current target
    by_cases same : target = serializer
    · subst same; simp [Frame.charge, claims, leaves, Shared.put]; omega
    · simp [Frame.charge, claims, leaves, Shared.put, same]
  | poll first =>
    rename_i target others
    by_cases same : target = serializer
    · subst same; simp [Frame.charge, claims, leaves, Shared.afterTake, first]; omega
    · simp [Frame.charge, claims, leaves, Shared.afterTake, first, same]
  | invoke popped => simp [charge_invokeFrame, Frame.charge, claims, leaves, Shared.afterStart]
  -- The emptiness test of the loop is where the charge is given up.
  | emptyExit none_ =>
    rename_i locals
    by_cases same : locals.serializer = serializer
    · subst same; simp [Frame.charge, claims, leaves, none_]; omega
    · simp [Frame.charge, claims, leaves, same]
  | emptyRequeue some_ =>
    rename_i locals
    by_cases same : locals.serializer = serializer
    · subst same; simp [Frame.charge, claims, leaves, some_]
    · simp [Frame.charge, claims, leaves, same]
  | requeue =>
    rename_i locals
    by_cases same : locals.serializer = serializer
    · subst same; simp [Frame.charge, claims, leaves, Shared.put]; omega
    · simp [Frame.charge, claims, leaves, Shared.put, same]

variable [Fintype ι] [DecidableEq ι] {state next : State ι σ τ} {label : Label ι σ τ}

/-- The calls of all threads in charge of a serializer, and its entries in the distributor. -/
def State.inCharge (state : State ι σ τ) (serializer : σ) : Nat :=
  ∑ at_, charge serializer (state.thread at_).stack +
    (state.shared.serializerQueue .taskDistributor).count serializer

/-- What a label does is the next step of this stack. -/
def State.acting (state : State ι σ τ) : Label ι σ τ → List (Frame σ τ)
  | .run at_ => (state.thread at_).stack
  | _ => []

/-- The total charge of a serializer after one thread was replaced. -/
theorem State.inCharge_withThread (at_ : ι) (shared' : Shared σ τ) (thread : Thread σ τ)
    (serializer : σ) :
    (state.withThread at_ shared' thread).inCharge serializer +
        (charge serializer (state.thread at_).stack +
          (state.shared.serializerQueue .taskDistributor).count serializer) =
      state.inCharge serializer + (charge serializer thread.stack +
        (shared'.serializerQueue .taskDistributor).count serializer) := by
  -- Of the sum over the threads, one summand changes.
  have changed := Counting.sum_update Finset.univ state.thread
    (fun thread => charge serializer thread.stack) thread (Finset.mem_univ at_)
  simp only [State.inCharge, State.withThread]
  omega

/-- A serializer changes hands only by the emptiness tests of a push and of the process loop. -/
theorem Progress.inCharge (progress : Progress program state label next) (serializer : σ) :
    next.inCharge serializer + leaves state.shared serializer (state.acting label) =
      state.inCharge serializer + claims state.shared serializer (state.acting label) := by
  cases progress with
  | call outside allowed =>
    rename_i at_ outer
    -- A first call is in charge of nothing.
    have changed := state.inCharge_withThread at_ state.shared
      { state.thread at_ with stack := [.calls [outer]] } serializer
    simp only [outside, charge_nil, charge_cons, Frame.charge] at changed
    simp only [State.acting, leaves, claims]
    omega
  | poll outside =>
    rename_i at_
    have changed := state.inCharge_withThread at_ state.shared
      { state.thread at_ with stack := [.poll .taskDistributor] } serializer
    simp only [outside, charge_nil, charge_cons, Frame.charge] at changed
    simp only [State.acting, leaves, claims]
    omega
  | run move =>
    rename_i at_ shared' thread'
    have changed := state.inCharge_withThread at_ shared' thread' serializer
    -- What the thread gives up or claims is what the whole state does.
    have moved := move.charge serializer
    simp only [State.acting]
    omega
  | setMinLevel => rfl

end Braid.Task
