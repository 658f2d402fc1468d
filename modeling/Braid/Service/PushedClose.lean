import Braid.Service.CloseOrder

/-! Where the sends in front of a close are when it is pushed, and when it shuts the socket down. -/

namespace Braid.Service

open Transition

variable {m n k : Nat} {ω : Type}

/-- What is in a ring behind these operations: a close submits what is prepared. -/
def ringBehind (ring popped : List (Handle m)) : List (Handle m) :=
  popped.foldl (fun ring handle => if handle.operation.kind = .close then [] else ring ++ [handle])
    ring

/-- The operations that a worker has still to prepare, in order. -/
def Worker.upcoming (worker : Worker m) : List (Handle m) :=
  match worker.place with
  | .requestIo handle => handle :: worker.requestQueue
  | _ => worker.requestQueue

/-- The operations that are in the ring of a worker when it comes to the next one. -/
def Worker.ring (worker : Worker m) : List (Handle m) :=
  match worker.place with
  -- What is prepared is submitted before another operation is popped.
  | .prepareClose _ | .submitClose | .submit => []
  | _ => worker.prepared.map Entry.handle

/-- The operations that will be in the ring of a worker once it has popped all that it has. -/
def Worker.unflushed (worker : Worker m) : List (Handle m) :=
  ringBehind worker.ring worker.upcoming

/--
A close is pushed behind the sends that were requested before it.

No thread is inside of the request for such a send, and none waits with another worker. Of those
that wait with the worker itself, each will be submitted before the close is popped: by another
close behind it, or by the end of a flush that has found the queue empty.
-/
def PushedLast (state : State m n k ω) : Label n k ω → Prop
  | .run context _ fails =>
    match state.todo context with
    | .push close worker :: _ =>
      fails = false → close.operation.kind = .close →
        (∀ other, ∀ send ∈ state.calling other, ¬ send.Precedes close) ∧
          (∀ other, other ≠ worker → ∀ send ∈ (state.worker other).waiting,
            ¬ send.Precedes close) ∧
          ∀ send ∈ (state.worker worker).unflushed, ¬ send.Precedes close
    | _ => True
  | _ => True

instance (state : State m n k ω) (label : Label n k ω) : Decidable (PushedLast state label) := by
  unfold PushedLast
  split
  · split <;> infer_instance
  · infer_instance

section Ring

variable {ring popped : List (Handle m)} {handle send : Handle m}

/-- The ring behind the first of the operations. -/
theorem ringBehind_cons (ring : List (Handle m)) (handle : Handle m) (popped : List (Handle m)) :
    ringBehind ring (handle :: popped) = ringBehind (ringBehind ring [handle]) popped := rfl

/-- The ring behind one more operation. -/
theorem ringBehind_concat (ring popped : List (Handle m)) (handle : Handle m) :
    ringBehind ring (popped ++ [handle]) =
      if handle.operation.kind = .close then [] else ringBehind ring popped ++ [handle] := by
  rw [ringBehind, List.foldl_append]
  rfl

/-- An emptier ring stays emptier. -/
theorem ringBehind_mono {less : List (Handle m)} (fewer : ∀ send ∈ less, send ∈ ring)
    (popped : List (Handle m)) :
    ∀ send ∈ ringBehind less popped, send ∈ ringBehind ring popped := by
  -- The induction is on the operations, taken off at the end.
  induction popped using List.reverseRecOn with
  | nil => exact fewer
  | append_singleton popped handle ih =>
    intro send member
    rw [ringBehind_concat] at member ⊢
    split at member
    · cases member
    · rename_i open_
      rw [if_neg open_]
      rcases List.mem_append.mp member with before | last
      · exact List.mem_append_left _ (ih send before)
      · exact List.mem_append_right _ last

end Ring

/--
What a step of a worker does to the operations that it has still to prepare.

Each of them comes to the same ring as before, or to an emptier one, behind the same operations.
-/
structure Prepares (worker next : Worker m) : Prop where
  upcoming : ∀ before close behind, next.upcoming = before ++ close :: behind →
    ∃ earlier, worker.upcoming = earlier ++ close :: behind ∧
      ∀ send ∈ ringBehind next.ring before, send ∈ ringBehind worker.ring earlier
  waiting : ∀ send ∈ next.waiting, send ∈ worker.waiting

variable {config : Config ω} {shared : Shared m ω} {worker next : Worker m}

/-- A step that prepares nothing, and leaves no more in the ring. -/
theorem Prepares.still (upcoming : next.upcoming = worker.upcoming)
    (ring : ∀ send ∈ next.ring, send ∈ worker.ring)
    (waiting : ∀ send ∈ next.waiting, send ∈ worker.waiting) : Prepares worker next where
  upcoming before _ _ split := ⟨before, upcoming ▸ split, ringBehind_mono ring before⟩
  waiting := waiting

/-- A step that is about to prepare the next operation, or has prepared it. -/
theorem Prepares.first (handle : Handle m) (upcoming : worker.upcoming = handle :: next.upcoming)
    (ring : next.ring = ringBehind worker.ring [handle])
    (waiting : ∀ send ∈ next.waiting, send ∈ worker.waiting) : Prepares worker next where
  upcoming before _ _ split := by
    refine ⟨handle :: before, by rw [upcoming, split]; rfl, fun send member => ?_⟩
    rwa [ringBehind_cons, ← ring]
  waiting := waiting

/-- A place outside of the flush loop has what is prepared in its ring, and nothing in hand. -/
def Place.settled : Place m → Bool
  | .requestIo _ | .prepareClose _ | .submitClose | .submit => false
  | _ => true

/-- At a place outside of the flush loop, the lists are read off the queue and the ring alone. -/
theorem Worker.of_settled (worker : Worker m) (settled : worker.place.settled = true) :
    worker.upcoming = worker.requestQueue ∧ worker.ring = worker.prepared.map Entry.handle ∧
      worker.place.inHand = [] := by
  unfold Worker.upcoming Worker.ring
  cases place : worker.place <;>
    first | exact ⟨rfl, rfl, rfl⟩ | (rw [place] at settled; cases settled)

/-- Between two places outside of the flush loop, a worker that keeps its queue prepares nothing. -/
theorem Prepares.settled (before : worker.place.settled = true) (after : next.place.settled = true)
    (queue : next.requestQueue = worker.requestQueue) (prepared : next.prepared = worker.prepared) :
    Prepares worker next := by
  obtain ⟨upcoming, ring, hand⟩ := worker.of_settled before
  obtain ⟨upcoming', ring', hand'⟩ := next.of_settled after
  refine .still (by rw [upcoming, upcoming', queue]) (by rw [ring, ring', prepared]; simp) ?_
  rw [Worker.waiting, Worker.waiting, hand, hand', queue, prepared]
  simp

/-- The destructor of an `IOCompletion` prepares nothing. -/
theorem destroyStep_prepares (shared : Shared m ω) (place : worker.place = .destroy) :
    Prepares worker (destroyStep shared worker).2 := by
  have settled : worker.place.settled = true := by rw [place]; rfl
  -- Every way out leads to a place outside of the flush.
  unfold destroyStep
  split
  · exact .settled settled rfl rfl rfl
  · dsimp only
    split
    · exact .settled settled settled rfl rfl
    · split
      · exact .settled settled settled rfl rfl
      · split <;> exact .settled settled rfl rfl rfl

/-- An entry for the operation in hand puts it into the ring. -/
theorem prepare_prepares (shared : Shared m ω) {handle : Handle m}
    (place : worker.place = .requestIo handle) (open_ : handle.operation.kind ≠ .close) :
    Prepares worker (prepare config shared worker handle .flushPop).2 := by
  -- The operation goes from the hand into the ring, or the program stops at a full one.
  unfold prepare
  split
  · refine .first handle ?_ ?_ ?_
    · simp only [Worker.upcoming, place]
    · simp [Worker.ring, place, ringBehind, open_]
    · simp only [Worker.waiting, place, Place.inHand, List.map_append, List.mem_append,
        List.map_cons, List.map_nil, List.append_nil, List.mem_singleton]
      intro send member
      exact member
  · exact .still rfl (fun _ => id) fun _ => id

/-- A submission empties the ring, and prepares nothing. -/
theorem submitEntries_prepares (shared : Shared m ω) {following : Place m}
    (popped : worker.upcoming = worker.requestQueue) (settled : following.settled = true) :
    Prepares worker (submitEntries shared worker following).2 := by
  obtain ⟨upcoming, ring, hand⟩ := (submitEntries shared worker following).2.of_settled settled
  refine .still (by rw [upcoming, popped]; rfl) ?_ ?_
  · rw [ring]
    rintro send ⟨⟩
  · -- Of what waited, only the queue is left.
    rw [Worker.waiting, hand]
    exact fun send member => List.mem_append_right _ member

/-- Every step of a worker prepares the operations in order. -/
theorem workStep_prepares (shared : Shared m ω) (worker : Worker m) (interrupted : Bool) :
    Prepares worker (workStep (n := n) config shared worker interrupted).2.1 := by
  -- The places outside of the flush keep the queue and the ring; then come those of the flush.
  cases place : worker.place with
  | waitOne =>
    simp only [workStep, place]
    split <;> exact .settled (by rw [place]; rfl) rfl rfl rfl
  | handleCompletion =>
    simp only [workStep, place]
    split
    · exact .settled (by rw [place]; rfl) rfl rfl rfl
    · split
      · exact .settled (by rw [place]; rfl) (by rw [place]; rfl) rfl rfl
      · exact .settled (by rw [place]; rfl) rfl rfl rfl
  | processTasks =>
    simp only [workStep, place]
    exact .settled (by rw [place]; rfl) rfl rfl rfl
  | destroy =>
    simp only [workStep, place]
    exact destroyStep_prepares shared place
  | onZeroRef handle =>
    simp only [workStep, place, onZeroRef]
    split
    · exact .settled (by rw [place]; rfl) (by rw [place]; rfl) rfl rfl
    · exact .settled (by rw [place]; rfl) rfl rfl rfl
  | flushEmpty =>
    simp only [workStep, place, flushStep]
    refine .settled (by rw [place]; rfl) ?_ rfl rfl
    dsimp only
    split <;> rfl
  | flushPop =>
    simp only [workStep, place, flushStep]
    split
    · -- The flush has found the queue empty, and will submit what is prepared.
      refine .still ?_ (by simp [Worker.ring]) (by simp [Worker.waiting, place, Place.inHand])
      simp only [Worker.upcoming, place]
    · -- The operation that is popped was next in the queue, and is next in hand.
      rename_i handle rest queue
      refine .still ?_ ?_ ?_
      · simp only [Worker.upcoming, place, queue]
      · simp [Worker.ring, place]
      · simp [Worker.waiting, place, Place.inHand, queue]
  | requestIo handle =>
    simp only [workStep, place, flushStep]
    split
    · exact .still rfl (fun _ => id) fun _ => id
    · split
      · -- A close submits what is in the ring with its own entry.
        rename_i session close
        refine .first handle ?_ ?_ ?_
        · simp only [Worker.upcoming, place]
        · simp [Worker.ring, ringBehind, close, Operation.kind]
        · simp [Worker.waiting, place, Place.inHand]
      · rename_i other
        refine prepare_prepares shared place ?_
        cases operation : handle.operation with
        | close session => exact absurd operation (other session)
        | _ => simp [Operation.kind]
  | prepareClose handle =>
    simp only [workStep, place, flushStep]
    split
    · exact .still rfl (fun _ => id) fun _ => id
    · -- The close is behind its shutdown already, and its entry is submitted with the ring.
      unfold prepare
      split
      · refine .still ?_ (by simp [Worker.ring]) ?_
        · simp only [Worker.upcoming, place]
        · simp only [Worker.waiting, place, Place.inHand, List.map_append, List.map_cons,
            List.map_nil, List.append_nil]
          intro send member
          exact member
      · exact .still rfl (fun _ => id) fun _ => id
  | submitClose =>
    simp only [workStep, place, flushStep]
    exact submitEntries_prepares shared (by simp only [Worker.upcoming, place]) rfl
  | submit =>
    simp only [workStep, place, flushStep]
    exact submitEntries_prepares shared (by simp only [Worker.upcoming, place]) rfl

/-- The kernel's steps leave alone what a worker has still to prepare. -/
theorem Prepares.same (queue : next.requestQueue = worker.requestQueue)
    (prepared : next.prepared = worker.prepared) (place : next.place = worker.place) :
    Prepares worker next := by
  -- The three lists are read off what has stayed the same.
  refine .still ?_ ?_ ?_
  · rw [Worker.upcoming, Worker.upcoming, place, queue]
  · rw [Worker.ring, Worker.ring, place, prepared]
    simp
  · rw [Worker.waiting, Worker.waiting, place, prepared, queue]
    simp

variable {state after : State m n k ω} {label : Label n k ω}

/-- The sends in front of a close are neither on their way to a queue nor will be in its ring. -/
structure Leads (state : State m n k ω) (at_ : Fin n) (close : Handle m)
    (ring behind : List (Handle m)) : Prop where
  calling : ∀ context, ∀ send ∈ state.calling context, ¬ send.Precedes close
  elsewhere : ∀ other, other ≠ at_ → ∀ send ∈ (state.worker other).waiting, ¬ send.Precedes close
  ring : ∀ send ∈ ring, ¬ send.Precedes close
  behind : ∀ send ∈ behind, ¬ send.Precedes close

/-- Every close that is still to be prepared leads the sends in front of it. -/
def InFront (state : State m n k ω) : Prop :=
  ∀ at_ before close behind, (state.worker at_).upcoming = before ++ close :: behind →
    close.operation.kind = .close →
      Leads state at_ close (ringBehind (state.worker at_).ring before) behind

/-- Nothing is to be prepared when the service starts. -/
theorem init_inFront (config : Config ω) (world : ω) :
    InFront (State.init m n k config world) := by
  intro at_ before close behind split
  simp [Worker.upcoming, State.init] at split

/-- What a worker has still to prepare waits with it. -/
theorem Worker.waiting_of_upcoming {handle : Handle m} (member : handle ∈ worker.upcoming) :
    handle ∈ worker.waiting := by
  unfold Worker.upcoming at member
  unfold Worker.waiting
  -- Before its `request_io` the operation in hand is still to be prepared, and waits as well.
  cases place : worker.place with
  | requestIo first =>
    rw [place] at member
    simp only [Place.inHand]
    rcases List.mem_cons.mp member with rfl | queued
    · simp
    · exact List.mem_append_right _ queued
  | _ =>
    rw [place] at member
    exact List.mem_append_right _ member

/-- An operation that waits with a worker has a number below the next one. -/
theorem Accounted.below (accounted : Accounted state) {at_ : Fin n} {handle : Handle m}
    (member : handle ∈ (state.worker at_).waiting) : handle.id < state.shared.nextOperation := by
  -- It is not submitted yet, and so it has been acquired.
  have unsubmitted := (unsubmitted_pos_iff state handle).mpr (.inr ⟨at_, member⟩)
  obtain ⟨slot, acquired⟩ := accounted.acquired unsubmitted
  have numbered : handle.id ∈ state.shared.acquisitions.map Handle.id :=
    List.mem_map_of_mem (List.mem_filterMap.mpr ⟨_, acquired, rfl⟩)
  rw [accounted.numbered] at numbered
  exact List.mem_range.mp numbered

/-- A step that pushes nothing keeps every close in front, as its workers prepare in order. -/
theorem InFront.moved (inFront : InFront state) (accounted : Accounted state)
    (calling : ∀ context, ∀ send ∈ after.calling context,
      send ∈ state.calling context ∨ state.shared.nextOperation ≤ send.id)
    (workers : ∀ at_, Prepares (state.worker at_) (after.worker at_)) : InFront after := by
  intro at_ before close behind split kind
  -- The close was to be prepared before the step, behind at least as much.
  obtain ⟨earlier, split', ring⟩ := (workers at_).upcoming before close behind split
  have leads := inFront at_ earlier close behind split' kind
  refine ⟨fun context send member precedes => ?_, fun other different send member => ?_,
    fun send member => leads.ring send (ring send member), leads.behind⟩
  · rcases calling context send member with before | new
    · exact leads.calling context send before precedes
    · -- A send that is requested now is not in front of a close that waits already.
      have waits : close ∈ (state.worker at_).waiting :=
        Worker.waiting_of_upcoming (by rw [split']; simp)
      exact absurd (accounted.below waits) (by have := precedes.1; omega)
  · exact leads.elsewhere other different send ((workers other).waiting send member)

/-- A push keeps every close in front, and the close that is pushed comes behind its sends. -/
theorem InFront.pushed (inFront : InFront state) (at_ : Fin n) (handle : Handle m)
    (from_ : ∃ context, handle ∈ state.calling context)
    (calling : ∀ context, ∀ send ∈ after.calling context, send ∈ state.calling context)
    (worker : after.worker = Function.update state.worker at_ { state.worker at_ with
      requestQueue := (state.worker at_).requestQueue ++ [handle] })
    (last : handle.operation.kind = .close →
      (∀ context, ∀ send ∈ state.calling context, ¬ send.Precedes handle) ∧
        (∀ other, other ≠ at_ → ∀ send ∈ (state.worker other).waiting, ¬ send.Precedes handle) ∧
        ∀ send ∈ (state.worker at_).unflushed, ¬ send.Precedes handle) : InFront after := by
  have own : after.worker at_ = { state.worker at_ with
      requestQueue := (state.worker at_).requestQueue ++ [handle] } := by
    rw [worker, Function.update_self]
  have others {other : Fin n} (different : other ≠ at_) :
      after.worker other = state.worker other := by
    rw [worker, Function.update_of_ne different]
  have upcoming : (after.worker at_).upcoming = (state.worker at_).upcoming ++ [handle] := by
    rw [own]
    unfold Worker.upcoming
    cases (state.worker at_).place <;> rfl
  have ring : (after.worker at_).ring = (state.worker at_).ring := by
    rw [own]
    rfl
  have waiting : (after.worker at_).waiting = (state.worker at_).waiting ++ [handle] := by
    rw [own, Worker.waiting, Worker.waiting, List.append_assoc, List.append_assoc,
      List.append_assoc]
  intro target before close behind split kind
  by_cases same : target = at_
  · subst same
    rw [upcoming] at split
    rw [ring]
    -- The close is the operation that is pushed, or the operation is behind it.
    rcases List.eq_nil_or_concat behind with rfl | ⟨front, final, rfl⟩
    · obtain ⟨rfl, same⟩ := List.append_inj' split rfl
      obtain rfl : handle = close := (List.cons.inj same).1
      obtain ⟨calls, elsewhere, unflushed⟩ := last kind
      refine ⟨fun context send member => calls context send (calling context send member),
        fun other different send member => ?_, unflushed, by simp⟩
      rw [others different] at member
      exact elsewhere other different send member
    · have whole : (state.worker target).upcoming ++ [handle] =
          (before ++ close :: front) ++ [final] := by simpa using split
      obtain ⟨shorter, same⟩ := List.append_inj' whole rfl
      obtain rfl : handle = final := (List.cons.inj same).1
      have leads := inFront target before close front shorter kind
      rw [List.concat_eq_append]
      refine ⟨fun context send member => leads.calling context send (calling context send member),
        fun other different send member => ?_, leads.ring, fun send member => ?_⟩
      · rw [others different] at member
        exact leads.elsewhere other different send member
      · rcases List.mem_append.mp member with earlier | last
        · exact leads.behind send earlier
        · -- What is still in a call is not in front of the close.
          obtain ⟨context, member⟩ := from_
          rw [List.mem_singleton.mp last]
          exact leads.calling context handle member
  · rw [others same] at split ⊢
    have leads := inFront target before close behind split kind
    refine ⟨fun context send member => leads.calling context send (calling context send member),
      fun other different send member => ?_, leads.ring, leads.behind⟩
    by_cases here : other = at_
    · subst here
      rw [waiting] at member
      rcases List.mem_append.mp member with earlier | last
      · exact leads.elsewhere other different send earlier
      · obtain ⟨context, member⟩ := from_
        rw [List.mem_singleton.mp last]
        exact leads.calling context handle member
    · rw [others here] at member
      exact leads.elsewhere other different send member

/-- A step of a worker prepares its own operations in order, and leaves the other workers alone. -/
theorem work_prepares {at_ : Fin n} {interrupted : Bool}
    (taken : step config state (.work at_ interrupted) = some after) (other : Fin n) :
    Prepares (state.worker other) (after.worker other) := by
  unfold step at taken
  split at taken
  · cases taken
  dsimp only at taken
  split at taken
  · cases taken
    -- The worker of the step prepares in order, and the others do nothing.
    by_cases same : other = at_
    · subst same
      simp only [State.setTodo, setWorker_self]
      exact workStep_prepares state.shared (state.worker other) interrupted
    · simp only [State.setTodo, setWorker_of_ne _ same]
      exact .same rfl rfl rfl
  · cases taken

/-- Every step that pushes a close behind its sends keeps every close in front. -/
theorem step_inFront (inFront : InFront state) (accounted : Accounted state)
    (pushes : PushedLast state label) (taken : step config state label = some after) :
    InFront after := by
  cases step_queue taken with
  | @run context slot fails todo rest more shared pushed head call =>
    -- What the thread is about to push comes from the first of its calls.
    have first (other : Context n k) : other = context ∨
        (((state.setShared shared).setTodo context (more ++ rest)).pushRequest pushed).calling
          other = state.calling other := by
      by_cases same : other = context
      · exact .inl same
      · right
        rw [State.calling, run_todo, Function.update_of_ne same]
        rfl
    have calls : (((state.setShared shared).setTodo context (more ++ rest)).pushRequest
        pushed).calling context = more.flatMap Todo.inCall ++ rest.flatMap Todo.inCall := by
      rw [State.calling, run_todo, Function.update_self, List.flatMap_append]
    have before : state.calling context = todo.inCall ++ rest.flatMap Todo.inCall := by
      rw [State.calling, head, List.flatMap_cons]
    have calling (kept : ∀ send ∈ more.flatMap Todo.inCall,
        send ∈ todo.inCall ∨ state.shared.nextOperation ≤ send.id) :
        ∀ other, ∀ send ∈ (((state.setShared shared).setTodo context (more ++ rest)).pushRequest
          pushed).calling other,
          send ∈ state.calling other ∨ state.shared.nextOperation ≤ send.id := by
      intro other send member
      rcases first other with rfl | same
      · rw [calls] at member
        rw [before]
        rcases List.mem_append.mp member with new | old
        · exact (kept send new).imp_left (List.mem_append_left _)
        · exact .inl (List.mem_append_right _ old)
      · exact .inl (same ▸ member)
    cases call with
    | @push handle worker succeeds =>
      simp only [PushedLast, head] at pushes
      refine inFront.pushed worker handle ⟨context, ?_⟩ ?_ rfl (pushes succeeds)
      · rw [before]
        exact List.mem_append_left _ (List.mem_singleton_self handle)
      · intro other send member
        rcases first other with rfl | same
        · rw [calls] at member
          rw [before]
          exact List.mem_append_right _ member
        · exact same ▸ member
    | acquire acquired =>
      exact inFront.moved accounted (calling fun send member => by
        obtain rfl := List.mem_singleton.mp member
        exact .inr (Nat.le_refl _)) fun _ => .same rfl rfl rfl
    | ask waits aside ends =>
      refine inFront.moved accounted (calling fun send member => ?_) fun _ => .same rfl rfl rfl
      rcases ends with rfl | ⟨operation, rfl, -⟩ <;> cases member
    | addRef | route =>
      exact inFront.moved accounted (calling fun send member => .inl member)
        fun _ => .same rfl rfl rfl
    | stop =>
      refine inFront.moved accounted (calling fun send member => .inl ?_) fun _ => .same rfl rfl rfl
      simpa using member
    | turnAway | failPush =>
      exact inFront.moved accounted (calling fun send member => by cases member)
        fun _ => .same rfl rfl rfl
  | @work at_ interrupted shared worker more idle queue waiting =>
    refine inFront.moved accounted (fun other send member => .inl ?_) (work_prepares taken)
    -- The calls that the worker is led into have not begun.
    by_cases same : other = .worker at_
    · subst same
      rw [State.calling, setTodo_self, inCall_waiting waiting] at member
      cases member
    · rwa [State.calling, setTodo_of_ne _ same] at member
  | @begin label context call idle =>
    refine inFront.moved accounted (fun other send member => .inl ?_) fun _ => .same rfl rfl rfl
    by_cases same : other = context
    · subst same
      rw [State.calling, setTodo_self] at member
      cases member
    · rwa [State.calling, setTodo_of_ne _ same] at member
  | outside aside todo queue prepared place =>
    refine inFront.moved accounted (fun other send member => .inl ?_) fun at_ =>
      .same (queue at_) (prepared at_) (place at_)
    rwa [State.calling, todo] at member

/-- A close that shuts its socket down is in hand, and leads the sends in front of it. -/
theorem InFront.shutsDownLast (inFront : InFront state) (label : Label n k ω) :
    ShutsDownLast state label := by
  intro close shuts
  cases label with
  | work at_ interrupted =>
    simp only [State.shutsDown] at shuts
    split at shuts
    · rename_i handle place
      obtain ⟨⟨kind, -⟩, same⟩ := Option.ite_none_right_eq_some.mp shuts
      cases same
      have leads := inFront at_ [] close (state.worker at_).requestQueue
        (by simp only [Worker.upcoming, place, List.nil_append]) kind
      refine ⟨leads.calling, fun worker send member => ?_⟩
      by_cases own : worker = at_
      · subst own
        -- Before the close is the ring, and behind it is the queue.
        simp only [Worker.waiting, place, Place.inHand, List.append_assoc, List.mem_append,
          List.mem_singleton] at member
        rcases member with ring | rfl | queue
        · refine leads.ring send ?_
          show send ∈ (state.worker worker).ring
          simpa only [Worker.ring, place] using ring
        · rintro ⟨earlier, -⟩
          exact Nat.lt_irrefl _ earlier
        · exact leads.behind send queue
      · exact leads.elsewhere worker own send member
    · cases shuts
  | _ => cases shuts

/--
No close cuts off a send while every close is pushed behind the sends that were requested before it.

A send is submitted at the end of a flush, or by a close behind it, and the call of `shutdown`
takes effect while the close is prepared. What was pushed before the close may still be in the
same ring, or wait with another worker.
-/
theorem none_cut_off {world : ω} {labels : List (Label n k ω)}
    (run : Run (step config) PushedLast (State.init m n k config world) labels state) :
    NoneCutOff state.shared.log := by
  -- Each step shuts down only behind the sends, and so the run cuts none of them off.
  have guarded : Run (step config) ShutsDownLast (State.init m n k config world) labels state ∧
      Accounted state ∧ InFront state := by
    induction run with
    | refl => exact ⟨.refl, init_accounted config world, init_inFront config world⟩
    | snoc _ pushes taken ih =>
      obtain ⟨before, accounted, inFront⟩ := ih
      exact ⟨before.snoc (inFront.shutsDownLast _) taken, step_accounted accounted taken,
        step_inFront inFront accounted pushes taken⟩
  exact (none_cut_off_iff (run.mono fun _ _ _ => trivial)).mpr guarded.1

/-- The application sends a byte, and closes when the worker has taken some steps. -/
def sendThenClose (between behind : Nat) : List (Label 1 1 Unit) :=
  acceptOne ++ [.call 0 (.requestSend 0 [1])] ++ request (.application 0) 0 ++ work between ++
    [.call 0 (.requestClose 0)] ++ request (.application 0) 0 ++ work behind

/-- A close that is pushed when the send has been flushed does not cut it off. -/
theorem none_cut_off_flushed :
    ∃ state : State 2 1 1 Unit, NoneCutOff state.shared.log ∧
      .shutdown ⟨4, .close 0⟩ (some ⟨0, 0⟩) ∈ state.shared.log := by
  -- The worker comes around between the send and the close.
  have executed : (execWhile (step smallConfig) PushedLast (State.init 2 1 1 smallConfig ())
      (sendThenClose 9 9)).any fun state =>
        .shutdown ⟨4, .close 0⟩ (some ⟨0, 0⟩) ∈ state.shared.log := by decide +kernel
  obtain ⟨state, reached, shuts⟩ := (Option.any_eq_true _ _).mp executed
  exact ⟨state, none_cut_off (.of_execWhile reached), of_decide_eq_true shuts⟩

/-- A close in one flush with the send shuts the socket down before the send is submitted. -/
theorem close_cuts_off :
    ∃ (labels : List (Label 1 1 Unit)) (state : State 2 1 1 Unit),
      Run (step smallConfig) anyStep (State.init 2 1 1 smallConfig ()) labels state ∧
      (state.shared.log.filter fun event =>
        event.shutdownOf.isSome ∨ event.submission.isSome).drop 3 =
        [.shutdown ⟨4, .close 0⟩ (some ⟨0, 0⟩), .submitted ⟨3, .sendBuffer 0 [1]⟩,
          .submitted ⟨4, .close 0⟩] ∧
      ¬ NoneCutOff state.shared.log := by
  have executed : (exec (step smallConfig) (State.init 2 1 1 smallConfig ())
      (sendThenClose 0 12)).any fun state =>
        (state.shared.log.filter fun event =>
          event.shutdownOf.isSome ∨ event.submission.isSome).drop 3 =
            [.shutdown ⟨4, .close 0⟩ (some ⟨0, 0⟩), .submitted ⟨3, .sendBuffer 0 [1]⟩,
              .submitted ⟨4, .close 0⟩] ∧
        state.shared.log = state.shared.log.take 18 ++
          .shutdown ⟨4, .close 0⟩ (some ⟨0, 0⟩) :: state.shared.log.drop 19 ∧
        .acquired ⟨3, .sendBuffer 0 [1]⟩ ⟨0, 0⟩ ∈ state.shared.log.take 18 ∧
        .submitted ⟨3, .sendBuffer 0 [1]⟩ ∉ state.shared.log.take 18 ∧
        .dropped ⟨3, .sendBuffer 0 [1]⟩ ∉ state.shared.log.take 18 := by decide +kernel
  obtain ⟨state, reached, facts⟩ := (Option.any_eq_true _ _).mp executed
  obtain ⟨order, split, acquired, unsubmitted, undropped⟩ := of_decide_eq_true facts
  refine ⟨_, state, .of_exec reached, order, fun whole => ?_⟩
  -- The send was requested first, and it is still in the ring.
  rcases whole _ _ _ _ split _ _ acquired (by decide) with submitted | dropped
  · exact unsubmitted submitted
  · exact undropped dropped

end Braid.Service
