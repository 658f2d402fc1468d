import Braid.Service.OperationMemory
import Braid.Service.SendBuffers
import Braid.Service.SendOrder

/-! How long a send buffer lives: as long as a pointer, a call or an operation refers to it. -/

namespace Braid.Service

open Counting Transition
open Memory (Slot)
open RefCount (Heap)

variable {m n k : Nat} {ω : Type}

/-- The call is inside of a request for a send. -/
def Todo.sending : Todo m n → Bool
  | .acquire operation => operation.kind = .sendBuffer
  | .addRef handle => handle.operation.kind = .sendBuffer
  | .route handle => handle.operation.kind = .sendBuffer
  | .push handle _ => handle.operation.kind = .sendBuffer
  | _ => false

/-- A thread is inside of a request for a send. -/
def State.inSend (state : State m n k ω) (context : Context n k) : Bool :=
  (state.todo context).head?.any Todo.sending

/-- The class of an operation whose memory is in use. -/
def Shared.kindOf (shared : Shared m ω) (id : Nat) : Option Kind :=
  (shared.memory id).map Cell.kind

/--
The send buffers are counted right.

A buffer is destroyed exactly when no pointer to it is left, once and never earlier. The pointers
in the members are those of the operations whose memory is in use, and the parameters are those of
the calls that are under way.
-/
structure BuffersCounted (state : State m n k ω) (buffers : Buffers n k) : Prop where
  counted : buffers.Counted
  members : ∀ id, (∃ buffer, (id, buffer) ∈ buffers.members) ↔
    state.shared.kindOf id = some .sendBuffer
  single : (buffers.members.map Prod.fst).Nodup
  parameters : ∀ context,
    (∃ buffer, buffers.parameters context = [buffer, buffer]) ∧ state.inSend context = true ∨
      buffers.parameters context = [] ∧ state.inSend context = false

section Steps

variable {config : Config ω} {state next : State m n k ω} {buffers after : Buffers n k}
  {shared left : Shared m ω}

/-- A call that has not begun is not inside of a request for a send. -/
theorem Todo.sending_of_requesting {todo : Todo m n} (waits : todo.requesting = false) :
    todo.sending = false := by
  -- The calls inside of a request have all begun, so the premise is refuted there.
  cases todo <;> first | rfl | cases waits

/-- Memory that stays the same has operations of the same classes. -/
theorem kindOf_of_memory (same : left.memory = shared.memory) : left.kindOf = shared.kindOf := by
  funext id
  rw [Shared.kindOf, Shared.kindOf, same]

/-- The memory of an operation that is replaced. -/
theorem kindOf_setCell (shared : Shared m ω) (id : Nat) (cell : Option Cell) :
    (shared.setCell id cell).kindOf =
      Function.update shared.kindOf id (cell.map Cell.kind) := by
  funext other
  by_cases same : other = id
  · subst same; simp [Shared.kindOf, Shared.setCell]
  · simp [Shared.kindOf, Shared.setCell, same]

/-- Counting another reference leaves the class of an operation as it is. -/
theorem kindOf_recount {id : Nat} {cell : Cell} (found : shared.memory id = some cell)
    (refCount : Int) :
    (shared.setCell id (some { cell with refCount := refCount })).kindOf = shared.kindOf := by
  rw [kindOf_setCell, Function.update_eq_self_iff, Shared.kindOf, found]
  rfl

/-- What a step inside of a call does, as the send buffers see it. -/
inductive SendStep (shared : Shared m ω) (slot : Option Slot) :
    Todo m n → Shared m ω → List (Todo m n) → Prop
  | enter {actor : Nat} {bytes : List Byte} {session : Fin m}
      (behind : shared.actors[actor]? = some session) :
    SendStep shared slot (.call (.requestSend actor bytes)) shared
      [.acquire (.sendBuffer session bytes)]
  | acquire {operation : Operation m} {left : Shared m ω} (some_ : slot.isSome)
      (kinds : left.kindOf =
        Function.update shared.kindOf shared.nextOperation (some operation.kind)) :
    SendStep shared slot (.acquire operation) left [.addRef ⟨shared.nextOperation, operation⟩]
  -- The request ends, or it goes on with the operation that it has.
  | other {todo : Todo m n} {left : Shared m ω} {more : List (Todo m n)}
      (kinds : left.kindOf = shared.kindOf)
      (goesOn : more = [] ∨ ∃ following, more = [following] ∧ following.sending = todo.sending)
      (turnedAway : ∀ actor bytes, todo = .call (.requestSend actor bytes) →
        shared.actors[actor]? = none ∧ more = [])
      (refused : ∀ operation, todo = .acquire operation → slot = none) :
    SendStep shared slot todo left more

/-- A step inside of a call does what it is said to do. -/
theorem todoStep_send {slot : Option Slot} {fails : Bool} {todo : Todo m n}
    {more : List (Todo m n)} {pushed : Option (Fin n × Handle m)}
    (stepped : todoStep config shared slot fails todo = some (left, more, pushed)) :
    SendStep shared slot todo left more := by
  -- A send is entered by a call, constructs its operation, and then only goes on or ends.
  cases todo with
  | acceptOne =>
    simp only [todoStep] at stepped
    split at stepped <;> cases stepped
    · exact .other rfl (.inl rfl) (by simp) (by simp)
    · exact .other rfl (.inr ⟨_, rfl, rfl⟩) (by simp) (by simp)
  | call call =>
    simp only [todoStep] at stepped
    split at stepped
    · rename_i unknown
      cases stepped
      exact .other rfl (.inl rfl) (by rintro actor bytes ⟨⟩; exact ⟨unknown, rfl⟩) (by simp)
    · rename_i behind
      cases stepped
      cases call with
      | requestSend actor bytes => exact .enter behind
      | requestClose actor => exact .other rfl (.inr ⟨_, rfl, rfl⟩) (by simp) (by simp)
  | receive session =>
    cases stepped
    exact .other rfl (.inr ⟨_, rfl, rfl⟩) (by simp) (by simp)
  | acquire operation =>
    simp only [todoStep] at stepped
    split at stepped
    · cases stepped
      exact .other rfl (.inl rfl) (by simp) (by simp)
    · split at stepped <;> cases stepped
      exact .acquire rfl (kindOf_setCell shared shared.nextOperation _)
  | addRef handle =>
    simp only [todoStep] at stepped
    split at stepped
    · cases stepped
      exact .other rfl (.inr ⟨_, rfl, rfl⟩) (by simp) (by simp)
    · rename_i cell found
      cases stepped
      exact .other (kindOf_recount found _) (.inr ⟨_, rfl, rfl⟩) (by simp) (by simp)
  | route handle =>
    simp only [todoStep] at stepped
    split at stepped
    · cases stepped
      exact .other rfl (.inr ⟨_, rfl, rfl⟩) (by simp) (by simp)
    · split at stepped <;> cases stepped
      · exact .other rfl (.inl rfl) (by simp) (by simp)
      · exact .other rfl (.inr ⟨_, rfl, rfl⟩) (by simp) (by simp)
  | push handle worker =>
    simp only [todoStep] at stepped
    split at stepped <;> cases stepped <;> exact .other rfl (.inl rfl) (by simp) (by simp)

/-- A worker gives memory back in `on_zero_ref`, and nowhere else. -/
theorem workStep_kindOf {worker : Worker m} (interrupted : Bool)
    (elsewhere : ∀ handle, worker.place ≠ .onZeroRef handle) :
    (workStep (n := n) config shared worker interrupted).1.kindOf = shared.kindOf := by
  have prepared (handle : Handle m) (place : Place m) :
      (prepare config shared worker handle place).1.kindOf = shared.kindOf := by
    unfold prepare
    split <;> rfl
  cases place : worker.place with
  | waitOne =>
    simp only [workStep, place]
    split <;> rfl
  -- The handlers run in here, and their calls have still to begin.
  | handleCompletion =>
    simp only [workStep, place]
    split
    · rfl
    · split
      · rfl
      · exact kindOf_of_memory (handleIoCompletion_frame rfl).1
  | processTasks => simp only [workStep, place]
  | destroy =>
    simp only [workStep, place, destroyStep]
    split
    · rfl
    · split
      · rfl
      · rename_i cell found
        -- One reference less leaves the operation what it is.
        split
        · rfl
        · split <;> exact kindOf_recount found _
  | onZeroRef handle => exact absurd place (elsewhere handle)
  | flushEmpty => simp only [workStep, place, flushStep]
  | flushPop =>
    simp only [workStep, place, flushStep]
    split <;> rfl
  | requestIo handle =>
    simp only [workStep, place, flushStep]
    split
    · rfl
    · split
      · rfl
      · exact prepared handle .flushPop
  | prepareClose handle =>
    simp only [workStep, place, flushStep]
    split
    · rfl
    · exact prepared handle .submitClose
  | submitClose => simp only [workStep, place, flushStep]; rfl
  | submit => simp only [workStep, place, flushStep]; rfl

/-- What `on_zero_ref` leaves in use. -/
theorem onZeroRef_kindOf (shared : Shared m ω) (worker : Worker m) (handle : Handle m) :
    (onZeroRef shared worker handle).1.kindOf = Function.update shared.kindOf handle.id none := by
  unfold onZeroRef
  split
  · -- An operation that is not there any more leaves everything as it is.
    rename_i missing
    have unused : none = shared.kindOf handle.id := by rw [Shared.kindOf, missing]; rfl
    exact (Function.update_eq_self_iff.mpr unused).symm
  · exact kindOf_setCell shared handle.id none

/-- What a step of the service does to the send buffers, and to what holds them. -/
inductive BufferMove (state next : State m n k ω) (buffers : Buffers n k) :
    Buffers n k → Prop
  | aside (kinds : ∀ id, next.shared.kindOf id = some .sendBuffer ↔
        state.shared.kindOf id = some .sendBuffer)
      (inside : next.inSend = state.inSend) : BufferMove state next buffers buffers
  | enter {context : Context n k} {buffer : Nat} (held : buffer ∈ buffers.pointers)
      (outside : state.inSend context = false) (kinds : next.shared.kindOf = state.shared.kindOf)
      (inside : next.inSend = Function.update state.inSend context true) :
    BufferMove state next buffers (buffers.enter context buffer)
  | construct {context : Context n k} {buffer : Nat}
      (parameters : buffers.parameters context = [buffer, buffer])
      (kinds : next.shared.kindOf =
        Function.update state.shared.kindOf state.shared.nextOperation (some .sendBuffer))
      (inside : next.inSend = state.inSend) :
    BufferMove state next buffers (buffers.construct state.shared.nextOperation buffer)
  | leave (context : Context n k) (kinds : next.shared.kindOf = state.shared.kindOf)
      (inside : next.inSend = Function.update state.inSend context false) :
    BufferMove state next buffers (buffers.leave context)
  | destruct {id : Nat} (kinds : next.shared.kindOf =
        Function.update state.shared.kindOf id none)
      (inside : next.inSend = state.inSend) :
    BufferMove state next buffers (buffers.destruct id)

/-- A step may leave the send buffers, and the calls that they are passed to, as they are. -/
theorem BufferMove.still (kinds : next.shared.kindOf = state.shared.kindOf)
    (inside : next.inSend = state.inSend) : BufferMove state next buffers buffers :=
  .aside (fun id => by rw [kinds]) inside

/-- The call that a thread makes next says whether it is inside of a request. -/
theorem inSend_head {context : Context n k} {todo : Todo m n} {rest : List (Todo m n)}
    (head : state.todo context = todo :: rest) : state.inSend context = todo.sending := by
  rw [State.inSend, head]
  rfl

/-- Behind a step inside of a call, the thread is inside of what the step leaves to do. -/
theorem run_inSend {context : Context n k} {todo : Todo m n} {rest more : List (Todo m n)}
    (turn : CallsInTurn state) (head : state.todo context = todo :: rest)
    (pushed : Option (Fin n × Handle m)) :
    (((state.setShared left).setTodo context (more ++ rest)).pushRequest pushed).inSend =
      Function.update state.inSend context (more.head?.any Todo.sending) := by
  -- Of all threads only the one that takes the step can go in or out.
  funext other
  rw [State.inSend, run_todo]
  by_cases same : other = context
  · subst same
    rw [Function.update_self, Function.update_self]
    cases more with
    | cons first others => rfl
    | nil =>
      -- The call that comes next has not begun.
      cases calls : rest with
      | nil => rfl
      | cons first others =>
        exact Todo.sending_of_requesting (turn.rest head first (by simp [calls]))
  · rw [Function.update_of_ne same, Function.update_of_ne same]
    rfl

/-- Beside the beginning of a call and the construction, a step may end the call. -/
theorem after_goesOn {context : Context n k} {slot : Option Slot} {fails : Bool} {todo : Todo m n}
    {rest : List (Todo m n)} (head : state.todo context = todo :: rest)
    (uncalled : ∀ actor bytes, todo ≠ .call (.requestSend actor bytes))
    (refused : ∀ operation, todo = .acquire operation → slot = none) (buffer : Nat) :
    buffers.after state (.run context slot fails) next buffer =
      some (if buffers.parameters context ≠ [] ∧ next.todo context = rest then
        buffers.leave context else buffers) := by
  -- The two places that do more are excluded by the premises.
  cases todo with
  | call call =>
    cases call with
    | requestSend actor bytes => exact absurd rfl (uncalled actor bytes)
    | requestClose actor =>
      cases given : buffers.parameters context <;> simp [Buffers.after, head, given]
  | acquire operation =>
    cases refused operation rfl
    cases given : buffers.parameters context <;> simp [Buffers.after, head, given]
  | _ => cases given : buffers.parameters context <;> simp [Buffers.after, head, given]

/-- What a step inside of a call does to the send buffers. -/
theorem run_buffers {context : Context n k} {slot : Option Slot} {fails : Bool} {todo : Todo m n}
    {rest more : List (Todo m n)} {pushed : Option (Fin n × Handle m)} {buffer : Nat}
    (holds : BuffersCounted state buffers) (turn : CallsInTurn state)
    (fresh : state.shared.memory state.shared.nextOperation = none)
    (head : state.todo context = todo :: rest) (send : SendStep state.shared slot todo left more)
    (following : next = ((state.setShared left).setTodo context (more ++ rest)).pushRequest pushed)
    (done : buffers.after state (.run context slot fails) next buffer = some after) :
    BufferMove state next buffers after := by
  have inside : next.inSend = Function.update state.inSend context
      (more.head?.any Todo.sending) := following ▸ run_inSend turn head pushed
  have sharedAfter : next.shared = left := by rw [following]; cases pushed <;> rfl
  have todoAfter : next.todo context = more ++ rest := by
    rw [following, run_todo, Function.update_self]
  have before := inSend_head head
  have parameters := holds.parameters context
  rw [before] at parameters
  -- A step may leave the thread where it was, inside or outside of a request.
  have stay (stays : more.head?.any Todo.sending = todo.sending) : next.inSend = state.inSend := by
    rw [inside, stays, ← before, Function.update_eq_self]
  -- The parameters of the call say which of the ways it is on.
  cases send with
  | @enter actor bytes session behind =>
    simp only [Buffers.after, head, behind, Option.isSome_some, if_true,
      Option.ite_none_right_eq_some, Option.some.injEq] at done
    obtain ⟨held, rfl⟩ := done
    exact .enter held before (by rw [sharedAfter]) inside
  | @acquire operation _ some_ kinds =>
    obtain ⟨slot, rfl⟩ := Option.isSome_iff_exists.mp some_
    rcases parameters with ⟨⟨given, parameters⟩, sends⟩ | ⟨parameters, other⟩ <;>
      simp only [Buffers.after, head, parameters, Option.some.injEq] at done <;> subst done
    · have kind : operation.kind = .sendBuffer := of_decide_eq_true sends
      exact .construct parameters (by rw [sharedAfter, kinds, kind]) (stay rfl)
    · have kind : operation.kind ≠ .sendBuffer := of_decide_eq_false other
      refine .aside (fun id => ?_) (stay rfl)
      -- The new operation is of another class, and there was none under its number.
      rw [sharedAfter, kinds, Function.update_apply]
      split
      · rename_i new
        simp [new, kind, Shared.kindOf, fresh]
      · rfl
  | other kinds goesOn turnedAway refused =>
    have kept : next.shared.kindOf = state.shared.kindOf := by rw [sharedAfter, kinds]
    by_cases call : ∃ actor bytes, todo = .call (.requestSend actor bytes)
    · -- A call on an actor that is not there returns before it passes the pointer on.
      obtain ⟨actor, bytes, rfl⟩ := call
      obtain ⟨unknown, rfl⟩ := turnedAway _ _ rfl
      simp only [Buffers.after, head, unknown, Option.isSome_none, Bool.false_eq_true, if_false,
        Option.ite_none_right_eq_some, Option.some.injEq] at done
      obtain ⟨-, rfl⟩ := done
      exact .still kept (stay rfl)
    · rw [after_goesOn head (by simpa using call) refused, todoAfter, Option.some.injEq] at done
      rcases goesOn with rfl | ⟨continued, rfl, stays⟩
      · rcases parameters with ⟨⟨given, parameters⟩, -⟩ | ⟨parameters, other⟩
        · simp only [parameters, ne_eq, reduceCtorEq, not_false_eq_true, List.nil_append,
            and_self, if_true] at done
          subst done
          exact .leave context kept inside
        · simp only [parameters, ne_eq, not_true_eq_false, false_and, if_false] at done
          subst done
          exact .still kept (stay other.symm)
      · simp only [List.cons_append, List.nil_append, List.cons_ne_self, and_false,
          if_false] at done
        subst done
        exact .still kept (stay stays)

/-- A thread whose calls begin is inside of none of them. -/
theorem begin_inSend {context : Context n k} {more : List (Todo m n)}
    (idle : state.todo context = []) (waiting : ∀ todo ∈ more, todo.requesting = false) :
    (state.setTodo context more).inSend = state.inSend := by
  -- The calls that a thread begins are none of them begun.
  funext other
  by_cases same : other = context
  · subst same
    rw [State.inSend, State.inSend, setTodo_self, idle]
    cases more with
    | nil => rfl
    | cons first others => exact Todo.sending_of_requesting (waiting first List.mem_cons_self)
  · rw [State.inSend, State.inSend, setTodo_of_ne _ same]

/-- What a step of a worker in its routine does to the send buffers. -/
theorem work_buffers {at_ : Fin n} {interrupted : Bool} {worker : Worker m}
    {more : List (Todo m n)} {buffer : Nat} (idle : state.todo (.worker at_) = [])
    (worked : workStep config state.shared (state.worker at_) interrupted = (left, worker, more))
    (following : next = ((state.setShared left).setWorker at_ worker).setTodo (.worker at_) more)
    (done : buffers.after state (.work at_ interrupted) next buffer = some after) :
    BufferMove state next buffers after := by
  have inside : next.inSend = state.inSend := by
    rw [following, begin_inSend (by exact idle) (workStep_queue worked).2]
    rfl
  have sharedAfter : next.shared = left := by rw [following]; rfl
  simp only [Buffers.after] at done
  split at done <;> cases done
  · -- The operation is destructed, and with it its pointer.
    rename_i handle place
    refine .destruct ?_ inside
    simp only [workStep, place, Prod.mk.injEq] at worked
    rw [sharedAfter, ← worked.1, onZeroRef_kindOf]
  · -- At every other place all memory stays in use.
    rename_i elsewhere
    have kinds : (workStep (n := n) config state.shared (state.worker at_) interrupted).1.kindOf =
        state.shared.kindOf := workStep_kindOf interrupted elsewhere
    rw [worked] at kinds
    exact .still (by rw [sharedAfter, kinds]) inside

/-- What a step of the service does to the send buffers. -/
theorem step_buffers {label : Label n k ω} {buffer : Nat} (holds : BuffersCounted state buffers)
    (turn : CallsInTurn state) (fresh : state.shared.memory state.shared.nextOperation = none)
    (taken : step config state label = some next)
    (done : buffers.after state label next buffer = some after) :
    BufferMove state next buffers after := by
  -- One case for each label, in the order of `step`.
  unfold step at taken
  split at taken
  · cases taken
  · split at taken
    · split at taken
      · cases taken
      · rename_i head
        obtain ⟨⟨left, more, pushed⟩, called, same⟩ := Option.map_eq_some_iff.mp taken
        exact run_buffers holds turn fresh head (todoStep_send called) same.symm done
    · split at taken
      · rename_i ready
        cases taken
        exact work_buffers ready.2 rfl rfl done
      · cases taken
    · split at taken
      · rename_i idle
        cases taken
        cases done
        exact .still rfl (begin_inSend idle (by simp [Todo.requesting]))
      · cases taken
    · split at taken
      · rename_i ready
        cases taken
        cases done
        exact .still rfl (begin_inSend ready.2 (by simp [Todo.requesting]))
      · cases taken
    · cases taken
      cases done
      exact .still rfl rfl
    · obtain ⟨entry, found, rfl⟩ := Option.map_eq_some_iff.mp taken
      cases done
      exact .still (kindOf_of_memory (by dsimp only; rw [startEntry_frame]; rfl)) rfl
    · obtain ⟨started, found, completed⟩ := Option.bind_eq_some_iff.mp taken
      obtain ⟨shared, ended, rfl⟩ := Option.map_eq_some_iff.mp completed
      cases done
      exact .still (kindOf_of_memory (completeStarted_frame ended).1) rfl

/-- What a step does to the send buffers keeps their counts right. -/
theorem BufferMove.counted (move : BufferMove state next buffers after)
    (holds : BuffersCounted state buffers)
    (fresh : state.shared.memory state.shared.nextOperation = none) :
    BuffersCounted next after := by
  cases move with
  | aside kinds inside =>
    exact ⟨holds.counted, fun id => (holds.members id).trans (kinds id).symm, holds.single,
      inside ▸ holds.parameters⟩
  | @enter context buffer held outside kinds inside =>
    -- A thread outside of every request has passed no pointer on.
    have idle : buffers.parameters context = [] := by
      rcases holds.parameters context with ⟨-, busy⟩ | ⟨idle, -⟩
      · rw [outside] at busy
        cases busy
      · exact idle
    refine ⟨holds.counted.enter idle (Buffers.held_pointer held), kinds ▸ holds.members,
      holds.single, fun other => ?_⟩
    rw [inside]
    by_cases same : other = context
    · subst same
      exact .inl ⟨⟨buffer, Function.update_self ..⟩, Function.update_self ..⟩
    · simp only [Buffers.enter, Function.update_of_ne same]
      exact holds.parameters other
  | @construct context buffer parameters kinds inside =>
    -- There is no operation yet under the number that comes next.
    have unused : state.shared.kindOf state.shared.nextOperation = none := by
      rw [Shared.kindOf, fresh]
      rfl
    have parameter : buffer ∈ buffers.parameters context := by simp [parameters]
    refine ⟨holds.counted.construct _ (Buffers.held_parameter parameter), fun id => ?_, ?_,
      inside ▸ holds.parameters⟩
    · rw [kinds, Function.update_apply]
      split
      · rename_i same
        simp [same, Buffers.construct]
      · rename_i different
        simpa [Buffers.construct, different] using holds.members id
    · -- The new operation has no member yet.
      refine List.nodup_cons.mpr ⟨fun listed => ?_, holds.single⟩
      obtain ⟨member, here, same⟩ := List.mem_map.mp listed
      have used := (holds.members member.1).mp ⟨member.2, here⟩
      rw [same, unused] at used
      cases used
  | leave context kinds inside =>
    refine ⟨holds.counted.leave context, kinds ▸ holds.members, holds.single, fun other => ?_⟩
    rw [inside]
    by_cases same : other = context
    · subst same
      exact .inr ⟨Function.update_self .., Function.update_self ..⟩
    · simp only [Buffers.leave, Function.update_of_ne same]
      exact holds.parameters other
  | @destruct id kinds inside =>
    have parameters : (buffers.destruct id).parameters = buffers.parameters := by
      unfold Buffers.destruct
      split <;> rfl
    refine ⟨holds.counted.destruct holds.single id, fun other => ?_,
      Buffers.destruct_single holds.single id, ?_⟩
    · simp only [Buffers.mem_destruct holds.single, exists_and_left, holds.members other, kinds,
        Function.update_apply]
      split <;> simp_all
    · rw [parameters, inside]
      exact holds.parameters

end Steps

section Leaked

variable {config : Config ω} {state next : State m n k ω} {label : Label n k ω}

/-- The memory of an operation is in use, and nothing carries it. -/
def Leaked (state : State m n k ω) (handle : Handle m) : Prop :=
  state.shared.kindOf handle.id = some handle.operation.kind ∧
    state.owned (numbered handle.id) = 0

/-- A step that loses an operation takes it away and leaves its memory in use. -/
theorem Move.loses {lost gained : List (Token m)} {after : Shared m ω}
    (move : Move config state label lost gained after) {handle : Handle m}
    (recorded : .dropped handle ∈ after.log) :
    .dropped handle ∈ state.shared.log ∨
      lost = [.carried .counted handle] ∧ gained = [] ∧
        after.memory = state.shared.memory := by
  -- Only two moves record a loss, and the others have it from before.
  cases move with
  | @handle _ _ moved result _ _ _ _ shared more handled =>
    simp only [Shared.record, (handleIoCompletion_frame handled).2.1] at recorded
    exact .inl (by simpa using recorded)
  | start cause found =>
    rw [startEntry_frame] at recorded
    exact .inl (by simpa using recorded)
  | complete cause found done =>
    simp only [Shared.record, (completeStarted_frame done).2.1] at recorded
    exact .inl (by simpa using recorded)
  -- An index that is turned away and a push that fails are the two ways to lose an operation.
  | turnAway cause head workers outside =>
    rcases List.mem_append.mp recorded with old | new
    · exact .inl old
    · cases List.mem_singleton.mp new
      exact .inr ⟨rfl, rfl, rfl⟩
  | failPush cause head =>
    rcases List.mem_append.mp recorded with old | new
    · exact .inl old
    · cases List.mem_singleton.mp new
      exact .inr ⟨rfl, rfl, rfl⟩
  | _ => exact .inl (by simpa [Shared.record, Shared.setCell, Shared.setHeld, Shared.stop]
      using recorded)

/-- Memory that nothing carries is given back by nobody. -/
theorem Effect.leaked {before after : List (Handle m × Int)} {handle : Handle m}
    (effect : Effect state.shared next.shared before after) (stored : Stored state)
    (carried : Carried state next before after) (leaked : Leaked state handle) :
    Leaked next handle := by
  obtain ⟨kind, nobody⟩ := leaked
  -- A step that carries an operation carries another one.
  have other {moved : Handle m} {refCount : Int} {gained : List (Handle m × Int)}
      (carried : Carried state next [(moved, refCount)] gained) : handle.id ≠ moved.id := by
    intro same
    have held := carried.taken
    have under := holds_le_numbered state (moved, refCount)
    rw [← same, nobody] at under
    omega
  have total := carried.total (numbered handle.id)
  cases effect with
  | keep memory held number silent =>
    exact ⟨by rw [kindOf_of_memory memory, kind], by omega⟩
  | @acquire operation slot free memory held number log =>
    -- The new operation has another number, since this one is in use.
    have different : handle.id ≠ state.shared.nextOperation := by
      intro same
      rw [Shared.kindOf, same, (stored.fresh _ (Nat.le_refl _)).2] at kind
      cases kind
    refine ⟨?_, ?_⟩
    · rwa [Shared.kindOf, memory, Function.update_of_ne different]
    · simpa [nobody, numbered, Ne.symm different] using total
  | @recount moved cell _ _ found memory held number silent =>
    refine ⟨?_, ?_⟩
    · rwa [Shared.kindOf, memory, Function.update_of_ne (other carried)]
    · simpa [nobody, numbered, Ne.symm (other carried)] using total
  | @decrement moved cell found more =>
    -- A handled operation has a single reference.
    obtain ⟨slot, present⟩ := stored.cell _ _ carried.taken
    rw [found, Option.some.injEq] at present
    subst present
    simp at more
  | giveBack found memory held number log =>
    refine ⟨?_, ?_⟩
    · rwa [Shared.kindOf, memory, Function.update_of_ne (other carried)]
    · simpa [nobody, numbered, Ne.symm (other carried)] using total
  | drop memory held number log =>
    refine ⟨by rw [kindOf_of_memory memory, kind], ?_⟩
    simpa [nobody, numbered, Ne.symm (other carried)] using total

/-- Operations that are lost are leaked, and stay so. -/
theorem step_leaked (stored : Stored state)
    (leaked : ∀ handle, .dropped handle ∈ state.shared.log → Leaked state handle)
    (taken : step config state label = some next) {handle : Handle m}
    (recorded : .dropped handle ∈ next.shared.log) : Leaked next handle := by
  obtain ⟨running, lost, gained, move, total⟩ := step_moved config taken
  have carried : Carried state next (lost.filterMap Token.owned) (gained.filterMap Token.owned) :=
    ⟨fun weight => (owned_moved total weight).1, fun weight => (owned_moved total weight).2⟩
  -- A loss was recorded before this step, or the step records it.
  rcases move.loses recorded with old | ⟨rfl, rfl, memory⟩
  · exact move.effect.leaked stored carried (leaked handle old)
  · -- The operation that is lost was carried, so that it had a cell of its class.
    obtain ⟨slot, cell⟩ := stored.cell _ _ (Carried.taken carried)
    exact ⟨by rw [kindOf_of_memory memory, Shared.kindOf, cell]; rfl, (stored.gone carried).2⟩

end Leaked

section Run

variable {config : Config ω} {state next : State m n k ω × Buffers n k}

/-- What holds of the service and its send buffers in every run. -/
structure BuffersKept (state : State m n k ω × Buffers n k) : Prop where
  counted : BuffersCounted state.1 state.2
  inTurn : CallsInTurn state.1
  stored : Stored state.1
  leaked : ∀ handle, .dropped handle ∈ state.1.shared.log → Leaked state.1 handle

/-- No thread is inside of a request when the service starts. -/
theorem init_inSend (config : Config ω) (world : ω) (context : Context n k) :
    (State.init m n k config world).inSend context = false := by
  cases context with
  | main =>
    -- The main thread has accepts to request, and nothing else.
    simp only [State.inSend, State.init, List.head?_replicate]
    split <;> rfl
  | application | worker => rfl

/-- There is no send buffer when the service starts. -/
theorem init_buffersKept (config : Config ω) (world : ω) :
    BuffersKept (State.init m n k config world, {}) where
  counted :=
    { counted := Heap.init_exact (fun _ => by simp [Buffers.references]) fun _ => Nat.not_lt_zero _
      members := by simp [Shared.kindOf, State.init]
      single := List.nodup_nil
      -- No thread is in a call of `request_send`.
      parameters := fun context => .inr ⟨rfl, init_inSend config world context⟩ }
  inTurn := (init_sendLines config world).inTurn
  stored := init_stored config world
  leaked _ recorded := by cases recorded

/-- Only the first call of a thread can have begun, whatever happens next. -/
theorem step_inTurn {state next : State m n k ω} {label : Label n k ω} (turn : CallsInTurn state)
    (taken : step config state label = some next) : CallsInTurn next := by
  cases step_queue taken with
  | run head call => exact run_inTurn turn head call
  | @work at_ interrupted after worker more idle queue waiting =>
    have still : CallsInTurn ((state.setShared after).setWorker at_ worker) := turn
    exact still.begin waiting
  | begin idle => exact turn.begin (by simp [Todo.requesting])
  | outside aside todo =>
    intro context
    rw [todo]
    exact turn context

/-- Every step of the service, and of application code with a pointer, keeps the counts right. -/
theorem step_buffersKept {label : BufferLabel n k ω} (kept : BuffersKept state)
    (taken : bufferStep config state label = some next) : BuffersKept next := by
  have fresh := (kept.stored.fresh _ (Nat.le_refl _)).2
  -- Application code has its pointers, and leaves the service alone.
  cases label with
  | service label buffer =>
    obtain ⟨following, stepped, rest⟩ := Option.bind_eq_some_iff.mp taken
    obtain ⟨after, done, rfl⟩ := Option.map_eq_some_iff.mp rest
    have move := step_buffers kept.counted kept.inTurn fresh stepped done
    exact ⟨move.counted kept.counted fresh, step_inTurn kept.inTurn stepped,
      step_stored kept.stored stepped, fun _ => step_leaked kept.stored kept.leaked stepped⟩
  | make =>
    cases taken
    exact ⟨⟨kept.counted.counted.make, kept.counted.members, kept.counted.single,
      kept.counted.parameters⟩, kept.inTurn, kept.stored, kept.leaked⟩
  | copy buffer =>
    obtain ⟨after, copied, rfl⟩ := Option.map_eq_some_iff.mp taken
    have counted := kept.counted.counted.copy copied
    unfold Buffers.copy at copied
    split at copied <;> cases copied
    exact ⟨⟨counted, kept.counted.members, kept.counted.single, kept.counted.parameters⟩,
      kept.inTurn, kept.stored, kept.leaked⟩
  | drop buffer =>
    obtain ⟨after, dropped, rfl⟩ := Option.map_eq_some_iff.mp taken
    have counted := kept.counted.counted.drop dropped
    unfold Buffers.drop at dropped
    split at dropped <;> cases dropped
    exact ⟨⟨counted, kept.counted.members, kept.counted.single, kept.counted.parameters⟩,
      kept.inTurn, kept.stored, kept.leaked⟩

/-- In every run, the pointers to the buffers and the sends that hold one are accounted for. -/
theorem run_buffersKept {world : ω} {labels : List (BufferLabel n k ω)}
    (run : Run (bufferStep config) anyStep (State.init m n k config world, {}) labels state) :
    BuffersKept state :=
  run.invariant (init_buffersKept config world) fun _ _ _ holds _ taken =>
    step_buffersKept holds taken

/--
In every run, `ref_count_` is the number of references to a buffer, as long as these are fewer
than 2^31.

It is a `std::atomic<int>`, which does not count further.
-/
theorem refCount_counts {world : ω} {labels : List (BufferLabel n k ω)}
    (run : Run (bufferStep config) anyStep (State.init m n k config world, {}) labels state)
    {buffer : Nat} (few : state.2.references buffer < 2 ^ 31) :
    (state.2.heap.count32 buffer).toInt = state.2.references buffer :=
  Heap.Balanced.count32 (run_buffersKept run).counted.1.1 few

/--
A send buffer lives as long as something refers to it, in every run of the service.

Whatever application code does with its pointers, and wherever a request ends, a count is never
misused and a buffer is destroyed exactly when nothing refers to it any more. A buffer is alive
while a call of `request_send` that was given it is under way, and as long as an operation sends
it, from its construction until its memory goes back to the pool; so the kernel never reads a
buffer that is gone. An operation that reaches no request queue keeps its buffer alive for good.
-/
theorem sendBuffers_live {world : ω} {labels : List (BufferLabel n k ω)}
    (run : Run (bufferStep config) anyStep (State.init m n k config world, {}) labels state) :
    state.2.heap.failed = false ∧
    (∀ buffer, state.2.heap.refCount buffer = state.2.references buffer) ∧
    (∀ buffer < state.2.made,
      state.2.heap.destroyed buffer = true ↔ state.2.references buffer = 0) ∧
    (∀ context, state.1.inSend context = true →
      ∃ buffer ∈ state.2.parameters context, state.2.heap.destroyed buffer = false) ∧
    (state.2.members.map Prod.fst).Nodup ∧
    (∀ id, (∃ buffer, (id, buffer) ∈ state.2.members) ↔
      state.1.shared.kindOf id = some .sendBuffer) ∧
    (∀ phase handle, 0 < state.1.carries (.carried phase handle) →
      handle.operation.kind = .sendBuffer →
        ∃ buffer, (handle.id, buffer) ∈ state.2.members ∧
          state.2.heap.destroyed buffer = false) ∧
    ∀ handle, .dropped handle ∈ state.1.shared.log → handle.operation.kind = .sendBuffer →
      state.1.owned (numbered handle.id) = 0 ∧
        ∃ buffer, (handle.id, buffer) ∈ state.2.members ∧
          state.2.heap.destroyed buffer = false := by
  obtain ⟨⟨counted, members, single, parameters⟩, turn, stored, leaked⟩ := run_buffersKept run
  -- Whatever is referred to is alive, and an operation in use refers to a buffer.
  have alive {buffer : Nat} (held : 0 < state.2.references buffer) :
      state.2.heap.destroyed buffer = false := Heap.Balanced.alive counted.1 held
  have used {id : Nat} (kind : state.1.shared.kindOf id = some .sendBuffer) :
      ∃ buffer, (id, buffer) ∈ state.2.members ∧ state.2.heap.destroyed buffer = false := by
    obtain ⟨buffer, member⟩ := (members id).mpr kind
    exact ⟨buffer, member, alive (Buffers.held_member member)⟩
  refine ⟨counted.sound, counted.counted, fun buffer made => ⟨counted.ended buffer,
    counted.collected buffer made⟩, fun context busy => ?_, single, members,
    fun phase handle present sends => used ?_, fun handle recorded sends =>
      ⟨(leaked handle recorded).2, used ?_⟩⟩
  · -- A thread inside of a request has passed its pointer on by value.
    rcases parameters context with ⟨⟨buffer, given⟩, -⟩ | ⟨-, idle⟩
    · have member : buffer ∈ state.2.parameters context := by simp [given]
      exact ⟨buffer, member, alive (Buffers.held_parameter member)⟩
    · rw [busy] at idle
      cases idle
  · -- An operation that is carried has its cell, of the class of a send.
    obtain ⟨slot, found⟩ := stored.cell handle phase.refCount
      (Nat.lt_of_lt_of_le present (carries_le_holds state.1 phase handle))
    rw [Shared.kindOf, found, ← sends]
    rfl
  · -- A lost operation keeps its cell, though nothing carries it.
    rw [(leaked handle recorded).1, sends]

/-- A send of a buffer that the application drops, the push of which may fail. -/
def sendAndDrop (buffer slot : Nat) (fails : Bool) : List (BufferLabel 1 1 Unit) :=
  [.make, .service (.call 0 (.requestSend 0 [7])) 0,
    .service (.run (.application 0) none false) buffer,
    .service (.run (.application 0) (some ⟨0, slot⟩) false) 0,
    .service (.run (.application 0) none false) 0, .service (.run (.application 0) none false) 0,
    .service (.run (.application 0) none fails) 0, .drop buffer]

/-- The first buffer is sent and destroyed behind its send, and the second one stays for good. -/
theorem sendBuffers_live_two :
    ∃ state : State 2 1 1 Unit × Buffers 1 1,
      (state.2.heap.failed = false ∧
        (∀ buffer, state.2.heap.refCount buffer = state.2.references buffer) ∧
        (∀ buffer < state.2.made,
          state.2.heap.destroyed buffer = true ↔ state.2.references buffer = 0) ∧
        (∀ context, state.1.inSend context = true →
          ∃ buffer ∈ state.2.parameters context, state.2.heap.destroyed buffer = false) ∧
        (state.2.members.map Prod.fst).Nodup ∧
        (∀ id, (∃ buffer, (id, buffer) ∈ state.2.members) ↔
          state.1.shared.kindOf id = some .sendBuffer) ∧
        (∀ phase handle, 0 < state.1.carries (.carried phase handle) →
          handle.operation.kind = .sendBuffer →
            ∃ buffer, (handle.id, buffer) ∈ state.2.members ∧
              state.2.heap.destroyed buffer = false) ∧
        ∀ handle, .dropped handle ∈ state.1.shared.log → handle.operation.kind = .sendBuffer →
          state.1.owned (numbered handle.id) = 0 ∧
            ∃ buffer, (handle.id, buffer) ∈ state.2.members ∧
              state.2.heap.destroyed buffer = false) ∧
      state.2.heap.destroyed 0 = true ∧ state.2.heap.destroyed 1 = false ∧
        state.2.pointers = [] ∧ state.2.members = [(4, 1)] := by
  have executed : (exec (bufferStep smallConfig) (State.init 2 1 1 smallConfig (), {})
      (acceptOne.map (.service · 0) ++ sendAndDrop 0 0 false ++
        (work 9 ++ [Label.start 0 1, Label.complete 0 1 1 []] ++ work 6).map (.service · 0) ++
        sendAndDrop 1 1 true)).any fun state =>
      state.2.heap.destroyed 0 = true ∧ state.2.heap.destroyed 1 = false ∧
        state.2.pointers = [] ∧ state.2.members = [(4, 1)] := by
    decide +kernel
  obtain ⟨state, reached, values⟩ := (Option.any_eq_true _ _).mp executed
  exact ⟨state, sendBuffers_live (.of_exec reached), of_decide_eq_true values⟩

end Run

end Braid.Service
