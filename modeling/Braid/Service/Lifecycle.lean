import Braid.Service.Completions

/-! The life of an operation: one reference, one place, one handling, one return to its pool. -/

namespace Braid.Service

open Counting Transition
open Memory (Slot)

variable {m n k : Nat} {ω : Type}

/-- `ref_count_` of an operation that has come so far. -/
def Phase.refCount : Phase m → Int
  -- Right after it is constructed, and when the last reference has been given up.
  | .acquired => 0
  | .zeroed => 0
  | _ => 1

/-- What happens once in the life of an operation, at its end. -/
inductive Milestone where
  | handled
  | zeroed
  | returned
  deriving DecidableEq

/-- The milestone that an event is, and the number of the operation that passes it. -/
def Event.milestone : Event m → Option (Milestone × Nat)
  | .handled handle _ => some (.handled, handle.id)
  | .zeroed handle => some (.zeroed, handle.id)
  | .returned handle _ => some (.returned, handle.id)
  | _ => none

/-- How often an operation has passed a milestone, where one that is gone has no phase. -/
def Milestone.passed : Milestone → Option (Phase m) → Nat
  | _, none => 1
  | .handled, some .handled => 1
  | .handled, some .zeroed => 1
  | .zeroed, some .zeroed => 1
  | _, _ => 0

/-- How often an operation has passed a milestone in a run. -/
def Shared.times (shared : Shared m ω) (milestone : Milestone) (id : Nat) : Nat :=
  shared.log.countP fun event => event.milestone = some (milestone, id)

/-- How many times something is carried in a state. -/
def State.carries (state : State m n k ω) (token : Token m) : Nat :=
  state.total fun other => if other = token then 1 else 0

/--
The life of an operation up to some phase, or to its end.

It is carried in one place and nowhere else, its memory says what the phase says, and the
milestones have been passed as often as the phase says.
-/
structure Life (state : State m n k ω) (handle : Handle m) (slot : Slot)
    (at_ : Option (Phase m)) : Prop where
  acquired : .acquired handle slot ∈ state.shared.log
  place : ∀ phase other, other.id = handle.id →
    state.carries (.carried phase other) = if at_ = some phase ∧ other = handle then 1 else 0
  memory : state.shared.memory handle.id =
    at_.map fun phase => ⟨handle.operation.kind, slot, phase.refCount⟩
  times : ∀ milestone, state.shared.times milestone handle.id = milestone.passed at_
  -- The slot goes back to the pool it came from.
  returned : at_ = none → .returned handle slot ∈ state.shared.log

variable (config : Config ω)

/--
The steps that the life of an operation is claimed for.

The index has not wrapped when an operation is routed, no push fails, and a ring has an entry
left when one is taken.
-/
def Orderly (state : State m n k ω) : Label n k ω → Prop
  | .run context _ fails =>
    match state.todo context with
    | .route _ :: _ => 0 ≤ state.shared.requestIndex.toInt
    | .push _ _ :: _ => fails = false
    | _ => True
  | .work at_ _ =>
    (state.worker at_).place.takesEntry →
      (state.worker at_).prepared.length < submissionEntries config.queueDepthPerThread
  | _ => True

instance Orderly.decidable (state : State m n k ω) (label : Label n k ω) :
    Decidable (Orderly config state label) :=
  match label with
  | .run context slot fails => by
    dsimp only [Orderly]
    generalize state.todo context = todo
    exact match todo with
      | .route _ :: _ | .push _ _ :: _ => by dsimp only; infer_instance
      | [] | .acceptOne :: _ | .call _ :: _ | .receive _ :: _ | .acquire _ :: _ | .addRef _ :: _ =>
        instDecidableTrue
  | .work at_ interrupted => by dsimp only [Orderly]; infer_instance
  | .call .. | .task .. | .application .. | .start .. | .complete .. => instDecidableTrue

variable {config} {state next : State m n k ω} {lost gained : List (Token m)}

/-- An index that has not wrapped is one of a worker. -/
theorem routeIndex_isSome {requestIndex : BitVec 32} (workers : n ≠ 0)
    (positive : 0 ≤ requestIndex.toInt) : (routeIndex n requestIndex).isSome := by
  -- The remainder of a number that is not negative is not negative either.
  have lower := Int.tmod_nonneg (n : Int) positive
  have upper := Int.tmod_lt_of_pos requestIndex.toInt (show (0 : Int) < n by omega)
  simp [routeIndex, lower, upper]

/-- What a move takes away was carried before, and what it adds is carried afterwards. -/
theorem carries_moved
    (total : ∀ weight, next.total weight + tally weight lost =
      state.total weight + tally weight gained ∧ tally weight lost ≤ state.total weight)
    (token : Token m) :
    next.carries token + lost.count token = state.carries token + gained.count token ∧
      lost.count token ≤ state.carries token := by
  -- Counting a token is the total of its indicator.
  rw [count_eq_tally, count_eq_tally]
  exact total _

/-- The events of a step add to the times that a milestone has been passed. -/
theorem times_append {shared after : Shared m ω} {events : List (Event m)}
    (log : after.log = shared.log ++ events) (milestone : Milestone) (id : Nat) :
    after.times milestone id =
      shared.times milestone id +
        events.countP fun event => event.milestone = some (milestone, id) := by
  -- The events stand behind the log.
  simp [Shared.times, log]

/-- A step that leaves an operation alone leaves its life as it is. -/
theorem Life.aside {handle : Handle m} {slot : Slot} {at_ : Option (Phase m)}
    {events : List (Event m)} (life : Life state handle slot at_)
    (carries : ∀ phase other, other.id = handle.id →
      next.carries (.carried phase other) = state.carries (.carried phase other))
    (memory : next.shared.memory handle.id = state.shared.memory handle.id)
    (log : next.shared.log = state.shared.log ++ events)
    (silent : ∀ event ∈ events, ∀ milestone, event.milestone ≠ some (milestone, handle.id)) :
    Life next handle slot at_ where
  acquired := by rw [log]; exact List.mem_append_left _ life.acquired
  place phase other same := (carries phase other same).trans (life.place phase other same)
  memory := memory.trans life.memory
  times milestone := by
    -- None of the events is a milestone of this operation.
    have none_ : (events.countP fun event => event.milestone = some (milestone, handle.id)) = 0 :=
      List.countP_eq_zero.mpr fun event member => by simpa using silent event member milestone
    rw [times_append log, none_, life.times, Nat.add_zero]
  returned gone := by rw [log]; exact List.mem_append_left _ (life.returned gone)

/-- What a step does to the memory and to the log that takes one operation to its next phase. -/
structure Follows (shared after : Shared m ω) (moved : Handle m) (before : Phase m)
    (phase : Option (Phase m)) (events : List (Event m)) : Prop where
  log : after.log = shared.log ++ events
  owned : ∀ event ∈ events, ∀ milestone id, event.milestone = some (milestone, id) → id = moved.id
  elsewhere : ∀ id, id ≠ moved.id → after.memory id = shared.memory id
  memory : ∀ slot,
    shared.memory moved.id = some ⟨moved.operation.kind, slot, before.refCount⟩ →
      after.memory moved.id =
        phase.map fun phase => ⟨moved.operation.kind, slot, phase.refCount⟩
  passed : ∀ milestone : Milestone, milestone.passed (some before) +
    (events.countP fun event => event.milestone = some (milestone, moved.id)) =
      milestone.passed phase
  returned : phase = none → ∀ slot,
    shared.memory moved.id = some ⟨moved.operation.kind, slot, before.refCount⟩ →
      .returned moved slot ∈ events

/-- A step that leaves the memory alone takes an operation to a phase with the same count. -/
theorem Follows.pass {shared after : Shared m ω} {moved : Handle m} {before phase : Phase m}
    {events : List (Event m)} (memory : after.memory = shared.memory)
    (log : after.log = shared.log ++ events)
    (owned : ∀ event ∈ events, ∀ milestone id,
      event.milestone = some (milestone, id) → id = moved.id)
    (refCount : before.refCount = phase.refCount)
    (passed : ∀ milestone : Milestone, milestone.passed (some before) +
      (events.countP fun event => event.milestone = some (milestone, moved.id)) =
        milestone.passed (some phase)) :
    Follows shared after moved before (some phase) events where
  log := log
  owned := owned
  elsewhere id _ := by rw [memory]
  memory slot held := by rw [memory, held, Option.map_some, refCount]
  passed := passed
  returned := by simp

/-- A step that changes the count alone takes an operation to a phase with the changed count. -/
theorem Follows.recount {shared after : Shared m ω} {moved : Handle m} {before phase : Phase m}
    {events : List (Event m)} {cell : Cell} {refCount : Int}
    (found : shared.memory moved.id = some cell)
    (memory : after.memory =
      Function.update shared.memory moved.id (some { cell with refCount := refCount }))
    (log : after.log = shared.log ++ events)
    (owned : ∀ event ∈ events, ∀ milestone id,
      event.milestone = some (milestone, id) → id = moved.id)
    (counted : cell.refCount = before.refCount → refCount = phase.refCount)
    (passed : ∀ milestone : Milestone, milestone.passed (some before) +
      (events.countP fun event => event.milestone = some (milestone, moved.id)) =
        milestone.passed (some phase)) :
    Follows shared after moved before (some phase) events where
  log := log
  owned := owned
  elsewhere id other := by rw [memory, Function.update_of_ne other]
  memory slot held := by
    -- The cell that the operation lives in is the one whose count has changed.
    rw [found, Option.some.injEq] at held
    subst held
    rw [memory, Function.update_self, counted rfl, Option.map_some]
  passed := passed
  returned := by simp

/-- A step that takes one operation further takes its life further, and leaves the others alone. -/
theorem Life.follow {handle moved : Handle m} {slot : Slot} {at_ phase : Option (Phase m)}
    {before : Phase m} {events : List (Event m)} (life : Life state handle slot at_)
    (carries : ∀ stage other,
      next.carries (.carried stage other) + lost.count (.carried stage other) =
        state.carries (.carried stage other) + gained.count (.carried stage other) ∧
      lost.count (.carried stage other) ≤ state.carries (.carried stage other))
    (taken : lost = [.carried before moved])
    (given : ∀ stage other, gained.count (Token.carried stage other) =
      (phase.toList.map fun phase => Token.carried phase moved).count (.carried stage other))
    (follows : Follows state.shared next.shared moved before phase events) :
    ∃ at_, Life next handle slot at_ := by
  subst taken
  by_cases same : moved.id = handle.id
  · -- What is carried under this number is the operation itself, in the phase it is in.
    have present := (carries before moved).2
    rw [life.place before moved same, List.count_singleton_self] at present
    split at present
    · rename_i found
      obtain ⟨rfl, rfl⟩ := found
      refine ⟨phase, ?_, fun stage other sameId => ?_, follows.memory slot life.memory,
        fun milestone => ?_, fun gone => ?_⟩
      · rw [follows.log]
        exact List.mem_append_left _ life.acquired
      · -- The phase before is taken away and the phase after is given, and nothing else.
        have counted := (carries stage other).1
        rw [life.place stage other sameId, given] at counted
        cases phase <;> simp [List.count_cons] at counted ⊢ <;> grind
      · rw [times_append follows.log, life.times]
        exact follows.passed milestone
      · rw [follows.log]
        exact List.mem_append_right _ (follows.returned gone slot life.memory)
    · omega
  · refine ⟨at_, life.aside (fun stage other sameId => ?_) (follows.elsewhere _ (Ne.symm same))
      follows.log fun event member milestone passed => ?_⟩
    · have counted := (carries stage other).1
      -- What is moved is another operation, so this one is neither taken nor given.
      have different : moved ≠ other := fun equal => same (equal ▸ sameId)
      rw [given] at counted
      cases phase <;> simpa [List.count_cons, different] using counted
    · exact same (follows.owned event member milestone _ passed).symm

/-- An entry that is prepared, as what it carries. -/
def Entry.prepared (entry : Entry m) : Token m := .carried (.prepared entry.fd) entry.handle

/-- An entry that is submitted, as what it carries. -/
def Entry.submitted (entry : Entry m) : Token m := .carried (.submitted entry.fd) entry.handle

/-- What is carried before and after a submission, counted by the entries. -/
theorem count_entries (entries : List (Entry m)) (phase : Phase m) (other : Handle m) :
    (entries.map Entry.prepared).count (.carried phase other) =
        (match phase with | .prepared fd => entries.count ⟨other, fd⟩ | _ => 0) ∧
      (entries.map Entry.submitted).count (.carried phase other) =
        (match phase with | .submitted fd => entries.count ⟨other, fd⟩ | _ => 0) := by
  -- An entry is determined by the operation and the descriptor that it carries.
  induction entries with
  | nil => cases phase <;> exact ⟨rfl, rfl⟩
  | cons entry rest ih =>
    obtain ⟨handle, fd⟩ := entry
    cases phase <;>
      simp_all [List.count_cons, Entry.prepared, Entry.submitted] <;>
      grind

/-- Submitting entries takes the lives of their operations further, and leaves the others alone. -/
theorem Life.submit {handle : Handle m} {slot : Slot} {at_ : Option (Phase m)}
    {entries : List (Entry m)} {events : List (Event m)} (life : Life state handle slot at_)
    (carries : ∀ phase other,
      next.carries (.carried phase other) +
          (entries.map Entry.prepared).count (.carried phase other) =
        state.carries (.carried phase other) +
          (entries.map Entry.submitted).count (.carried phase other) ∧
      (entries.map Entry.prepared).count (.carried phase other) ≤
        state.carries (.carried phase other))
    (memory : next.shared.memory handle.id = state.shared.memory handle.id)
    (log : next.shared.log = state.shared.log ++ events)
    (silent : ∀ event ∈ events, event.milestone = none) :
    ∃ at_, Life next handle slot at_ := by
  -- An entry of the operation is there exactly when the operation is prepared with it.
  have once (fd : Int) (other : Handle m) (sameId : other.id = handle.id) :
      entries.count ⟨other, fd⟩ =
        if at_ = some (.prepared fd) ∧ other = handle ∧ ⟨handle, fd⟩ ∈ entries then 1 else 0 := by
    have counted : (entries.map Entry.prepared).count (.carried (.prepared fd) other) =
        entries.count ⟨other, fd⟩ := (count_entries entries (.prepared fd) other).1
    have within := (carries (.prepared fd) other).2
    rw [counted, life.place _ other sameId] at within
    split
    · rename_i found
      obtain ⟨rfl, rfl, member⟩ := found
      have positive := List.count_pos_iff.mpr member
      rw [if_pos ⟨rfl, rfl⟩] at within
      omega
    · rename_i absent
      have missing : ⟨other, fd⟩ ∉ entries ∨ ¬(at_ = some (.prepared fd) ∧ other = handle) := by
        grind
      rcases missing with missing | missing
      · exact List.count_eq_zero.mpr missing
      · rw [if_neg missing] at within
        omega
  by_cases found : ∃ fd, at_ = some (.prepared fd) ∧ ⟨handle, fd⟩ ∈ entries
  · obtain ⟨fd, rfl, member⟩ := found
    have unpassed (milestone : Milestone) :
        (events.countP fun event => event.milestone = some (milestone, handle.id)) = 0 :=
      List.countP_eq_zero.mpr fun event present => by simp [silent event present]
    refine ⟨some (.submitted fd), ?_, fun phase other sameId => ?_, memory.trans life.memory,
      fun milestone => ?_, (by simp)⟩
    · rw [log]
      exact List.mem_append_left _ life.acquired
    · have counted := (carries phase other).1
      obtain ⟨before, after⟩ := count_entries entries phase other
      rw [before, after, life.place phase other sameId] at counted
      cases phase <;> simp_all <;> grind
    · rw [times_append log, life.times, unpassed]
      cases milestone <;> rfl
  · refine ⟨at_, life.aside (fun phase other sameId => ?_) memory log fun event member _ => ?_⟩
    · have counted := (carries phase other).1
      obtain ⟨before, after⟩ := count_entries entries phase other
      rw [before, after] at counted
      cases phase <;> simp_all
      grind
    · simp [silent event member]

/-- Every permitted step carries the life of an operation on. -/
theorem Life.step {label : Label n k ω} {handle : Handle m} {slot : Slot}
    {at_ : Option (Phase m)} (life : Life state handle slot at_)
    (known : handle.id < state.shared.nextOperation)
    (permitted : Orderly config state label)
    (taken : step config state label = some next) : ∃ at_, Life next handle slot at_ := by
  obtain ⟨_, lost, gained, move, total⟩ := step_moved config taken
  have carries := fun phase other => carries_moved total (.carried phase other)
  -- A step that does not move the operation leaves its life alone, whatever events it adds.
  have aside (events : List (Event m))
      (plain : ∀ phase other, other.id = handle.id →
        lost.count (.carried phase other) = gained.count (Token.carried phase other))
      (memory : next.shared.memory handle.id = state.shared.memory handle.id)
      (log : next.shared.log = state.shared.log ++ events)
      (silent : ∀ event ∈ events, event.milestone = none) :
      ∃ at_, Life next handle slot at_ := by
    refine ⟨at_, life.aside (fun phase other same => ?_) memory log fun event member _ => ?_⟩
    · have counted := (carries phase other).1
      have plain := plain phase other same
      omega
    · simp [silent event member]
  generalize shared_ : next.shared = after at move aside
  cases move with
  | quiet world => exact aside [] (by simp) rfl (by simp) (by simp)
  | popSession queue => exact aside [] (by simp) rfl (by simp) (by simp)
  | call cause head behind => exact aside [] (by simp) rfl (by simp) (by simp)
  | receive session span => exact aside [] (by simp) rfl (by simp) (by simp)
  | refuse cause head => exact aside _ (by simp) rfl rfl (by simp [Event.milestone])
  | acquire free =>
    -- The new operation has a number of its own.
    refine aside _ (fun phase other same => ?_) ?_ rfl (by simp [Event.milestone])
    · have different : other.id ≠ state.shared.nextOperation := by omega
      simp [List.count_cons]
      grind
    · exact Function.update_of_ne (by omega) _ _
  | @addRef moved cell found =>
    have follows : Follows state.shared next.shared moved .acquired (some .counted) [] :=
      .recount found (by rw [shared_]; rfl) (by simp [shared_, Shared.setCell]) (by simp)
        (fun same => by rw [same]; rfl) fun milestone => by cases milestone <;> rfl
    exact life.follow carries rfl (fun _ _ => rfl) follows
  | route => exact aside [] (by simp) rfl (by simp) (by simp)
  | turnAway cause head workers outside =>
    subst cause
    have inside := routeIndex_isSome workers (by simpa [Orderly, head] using permitted)
    rw [outside] at inside
    cases inside
  | failPush cause head =>
    subst cause
    simp [Orderly, head] at permitted
  | @advance before after plain moved =>
    have follows : Follows state.shared next.shared moved before (some after) [] :=
      .pass (by rw [shared_]) (by simp [shared_]) (by simp) (by cases plain <;> rfl)
        fun milestone => by cases plain <;> cases milestone <;> rfl
    exact life.follow carries rfl (fun _ _ => rfl) follows
  | @handle _ _ moved result _ _ _ _ shared more handled =>
    obtain ⟨memory, log, _⟩ := handleIoCompletion_frame handled
    have follows : Follows state.shared next.shared moved (.delivered result) (some .handled)
        [.handled moved result] :=
      .pass (by simp [shared_, Shared.record, memory]) (by simp [shared_, Shared.record, log])
        (by simp [Event.milestone]) rfl fun milestone => by
          cases milestone <;> simp [Milestone.passed, Event.milestone]
    refine life.follow carries rfl (fun phase other => ?_) follows
    have others : (more.flatMap Todo.tokens).count (Token.carried phase other) = 0 :=
      List.count_eq_zero.mpr fun member => by
        cases handleIoCompletion_tokens handled _ member
    simp [List.count_cons, others]
  | shutdown close => exact aside _ (by simp) rfl rfl (by simp [Event.milestone])
  | prepare moved =>
    have follows : Follows state.shared next.shared moved .popped
        (some (.prepared (moved.operation.fd state.shared))) [.prepared moved _] :=
      .pass (by rw [shared_]; rfl) (by rw [shared_]; rfl) (by simp [Event.milestone]) rfl
        fun milestone => by cases milestone <;> simp [Milestone.passed, Event.milestone]
    exact life.follow carries rfl (fun _ _ => rfl) follows
  | submit entries =>
    exact life.submit carries (by rw [shared_]; rfl) (by rw [shared_]; rfl) (by simp [Event.milestone])
  | @start at_ i entry cause found =>
    have frame := startEntry_frame state.shared entry
    have follows : Follows state.shared next.shared entry.handle (.submitted entry.fd)
        (some (.started (state.shared.descriptors entry.fd))) [.started entry.handle _] :=
      .pass (by rw [shared_, frame]) (by rw [shared_, frame]) (by simp [Event.milestone]) rfl
        fun milestone => by cases milestone <;> simp [Milestone.passed, Event.milestone]
    exact life.follow carries rfl (fun _ _ => rfl) follows
  | @complete at_ i result data started shared cause found done =>
    obtain ⟨memory, log, _⟩ := completeStarted_frame done
    have follows : Follows state.shared next.shared started.handle (.started started.connection)
        (some (.completed result)) [.completed started.handle result] :=
      .pass (by simp [shared_, Shared.record, memory]) (by simp [shared_, Shared.record, log])
        (by simp [Event.milestone]) rfl fun milestone => by
          cases milestone <;> simp [Milestone.passed, Event.milestone]
    exact life.follow carries rfl (fun _ _ => rfl) follows
  | @zero moved cell found last =>
    have follows : Follows state.shared next.shared moved .handled (some .zeroed)
        [.zeroed moved] :=
      .recount found (by rw [shared_]; rfl) (by rw [shared_]; rfl) (by simp [Event.milestone])
        (fun same => by rw [same]; rfl) fun milestone => by
          cases milestone <;> simp [Milestone.passed, Event.milestone]
    exact life.follow carries rfl (fun _ _ => rfl) follows
  | decrement moved found more =>
    by_cases same : moved.id = handle.id
    · -- The count of a handled operation is one, so that it cannot be kept.
      have present := (carries .handled moved).2
      rw [life.place _ _ same, List.count_singleton_self] at present
      split at present
      · rename_i here
        rw [same, life.memory, here.1, Option.map_some, Option.some.injEq] at found
        subst found
        simp [Phase.refCount] at more
      · omega
    · refine aside [] (fun phase other sameId => ?_) ?_ (by simp [Shared.setCell]) (by simp)
      · have different : moved ≠ other := fun equal => same (equal ▸ sameId)
        simp [different]
      · exact Function.update_of_ne (Ne.symm same) _ _
  | @giveBack moved cell found =>
    have follows : Follows state.shared next.shared moved .zeroed none
        [.returned moved cell.slot] :=
      { log := by rw [shared_]; rfl
        owned := by simp [Event.milestone]
        elsewhere := fun id other => by rw [shared_]; exact Function.update_of_ne other _ _
        memory := fun _ _ => by rw [shared_]; exact Function.update_self ..
        passed := fun milestone => by cases milestone <;> simp [Milestone.passed, Event.milestone]
        returned := fun _ slot held => by
          rw [found, Option.some.injEq] at held
          subst held
          exact List.mem_singleton_self _ }
    exact life.follow carries rfl (fun _ _ => rfl) follows
  | useAfterRelease phase missing =>
    exact aside [] (by simp) rfl (by simp [Shared.stop]) (by simp)
  | releaseAtZero found zero =>
    exact aside [] (by simp) rfl (by simp [Shared.stop]) (by simp)
  | nullEntry cause takes full => exact aside [] (by simp) rfl (by simp [Shared.stop]) (by simp)
  | divide => exact aside [] (by simp) rfl (by simp [Shared.stop]) (by simp)

/-- A carried operation was carried before the step, or is the one acquired by it. -/
theorem Move.gained_carried {label : Label n k ω} {after : Shared m ω} {phase : Phase m}
    {handle : Handle m} (move : Move config state label lost gained after)
    (member : .carried phase handle ∈ gained) :
    (∃ before, .carried before handle ∈ lost) ∨
      handle.id = state.shared.nextOperation ∧
        after.nextOperation = state.shared.nextOperation + 1 := by
  cases move with
  | acquire free => simp_all
  | handle cause place found alive shared more handled =>
    -- The calls that follow carry no operation, so that only the handled one is left.
    rcases List.mem_cons.mp member with same | other
    · cases same
      exact .inl ⟨_, List.mem_singleton_self _⟩
    · cases handleIoCompletion_tokens handled _ other
  | submit entries =>
    obtain ⟨entry, present, same⟩ := List.mem_map.mp member
    cases same
    exact .inl ⟨_, List.mem_map.mpr ⟨entry, present, rfl⟩⟩
  | _ => simp_all

/-- Only the acquisition of an operation changes the number of the next one. -/
theorem Move.nextOperation {label : Label n k ω} {after : Shared m ω}
    (move : Move config state label lost gained after) :
    after.nextOperation = state.shared.nextOperation ∨
      ∃ operation slot, lost = [.requested operation] ∧
        gained = [.carried .acquired ⟨state.shared.nextOperation, operation⟩] ∧
        after.nextOperation = state.shared.nextOperation + 1 ∧
        after.memory state.shared.nextOperation = some ⟨operation.kind, slot, 0⟩ ∧
        after.log = state.shared.log ++
          [.acquired ⟨state.shared.nextOperation, operation⟩ slot] := by
  cases move with
  | acquire free => exact .inr ⟨_, _, rfl, rfl, rfl, Function.update_self .., rfl⟩
  -- Handling, starting and completing leave the numbers alone.
  | handle cause place found alive shared more handled =>
    exact .inl (handleIoCompletion_frame handled).2.2.1
  | start cause found => exact .inl (by rw [startEntry_frame])
  | complete cause found done => exact .inl (completeStarted_frame done).2.2.1
  | _ => exact .inl rfl

/-- The milestones of a step are those of an operation that the step moves. -/
theorem Move.milestones {label : Label n k ω} {after : Shared m ω}
    (move : Move config state label lost gained after) :
    ∃ events, after.log = state.shared.log ++ events ∧ ∀ event ∈ events, ∀ milestone id,
      event.milestone = some (milestone, id) →
        ∃ phase handle, .carried phase handle ∈ lost ∧ handle.id = id := by
  cases move with
  | @handle _ _ moved result _ _ _ _ shared more handled =>
    refine ⟨[.handled moved result], by simp [Shared.record, (handleIoCompletion_frame handled).2.1],
      ?_⟩
    simp [Event.milestone]
  | start cause found =>
    exact ⟨_, by rw [startEntry_frame], by simp [Event.milestone]⟩
  | complete cause found done =>
    exact ⟨_, by rw [← (completeStarted_frame done).2.1]; rfl, by simp [Event.milestone]⟩
  -- The milestones that the other moves record are about the operation that they carry.
  | zero found last => exact ⟨_, rfl, by simp [Event.milestone]⟩
  | giveBack found => exact ⟨_, rfl, by simp [Event.milestone]⟩
  | acquire free => exact ⟨_, rfl, by simp [Event.milestone]⟩
  | refuse cause head => exact ⟨_, rfl, by simp [Event.milestone]⟩
  | turnAway cause head workers outside => exact ⟨_, rfl, by simp [Event.milestone]⟩
  | failPush cause head => exact ⟨_, rfl, by simp [Event.milestone]⟩
  | shutdown close => exact ⟨_, rfl, by simp [Event.milestone]⟩
  | prepare moved => exact ⟨_, rfl, by simp [Event.milestone]⟩
  | submit entries => exact ⟨_, rfl, by simp [Event.milestone]⟩
  | _ => exact ⟨[], by simp [Shared.setCell, Shared.stop], by simp⟩

/-- A step that uses an operation wrongly has found it without memory or without a reference. -/
theorem Move.fault {label : Label n k ω} {after : Shared m ω}
    (move : Move config state label lost gained after) (running : state.shared.fault = none) :
    (after.fault = some .usedAfterRelease → ∃ phase handle, .carried phase handle ∈ lost ∧
      state.shared.memory handle.id = none) ∧
    (after.fault = some .releasedAtZero → ∃ handle cell, .carried .handled handle ∈ lost ∧
      state.shared.memory handle.id = some cell ∧ cell.refCount ≤ 0) := by
  cases move with
  -- A handler or a completion may stop the program, but for another reason.
  | handle cause place found alive shared more handled =>
    have stopped := handleIoCompletion_fault handled
    rw [running] at stopped
    simp only [Shared.record]
    rcases stopped with same | ⟨failure, same⟩ <;> simp [same]
  | complete cause found done =>
    have stopped := completeStarted_fault done
    rw [running] at stopped
    simp only [Shared.record]
    rcases stopped with same | ⟨failure, same⟩ <;> simp [same]
  | start cause found => rw [startEntry_frame]; simp [running]
  -- These are the two moves that the statement is about.
  | useAfterRelease phase missing => simp [Shared.stop, missing]
  | releaseAtZero found zero => simp [Shared.stop, found, zero]
  | _ => simp [Shared.record, Shared.setCell, Shared.setHeld, Shared.stop, running]

/-- Every operation acquired so far has a life, and none is used wrongly. -/
structure Lives (state : State m n k ω) : Prop where
  lives : ∀ id < state.shared.nextOperation, ∃ handle slot at_,
    handle.id = id ∧ Life state handle slot at_
  unborn : ∀ phase handle, state.shared.nextOperation ≤ handle.id →
    state.carries (.carried phase handle) = 0
  unpassed : ∀ milestone id, state.shared.nextOperation ≤ id →
    state.shared.times milestone id = 0
  sound : state.shared.fault ≠ some .usedAfterRelease ∧ state.shared.fault ≠ some .releasedAtZero

/-- A carried operation is alive, in the phase that it is carried in. -/
theorem Lives.carried (lives : Lives state) {phase : Phase m} {handle : Handle m}
    (present : 0 < state.carries (.carried phase handle)) :
    ∃ slot, Life state handle slot (some phase) := by
  -- A number that has not been given out yet is carried nowhere.
  have known : handle.id < state.shared.nextOperation := by
    by_contra unknown
    have nowhere := lives.unborn phase handle (by omega)
    omega
  obtain ⟨other, slot, at_, sameId, life⟩ := lives.lives _ known
  -- The life of the operation with this number says where it is carried.
  rw [life.place _ _ sameId.symm] at present
  split at present
  · rename_i found
    obtain ⟨rfl, rfl⟩ := found
    exact ⟨slot, life⟩
  · omega

/-- Every permitted step keeps the lives of all operations. -/
theorem step_lives {label : Label n k ω} (lives : Lives state)
    (permitted : Orderly config state label)
    (taken : step config state label = some next) : Lives next := by
  obtain ⟨running, lost, gained, move, total⟩ := step_moved config taken
  have carries := fun token => carries_moved total token
  -- What a step takes away was carried before it.
  have present (token : Token m) (member : token ∈ lost) : 0 < state.carries token := by
    have positive := List.count_pos_iff.mpr member
    have within := (carries token).2
    omega
  have grows : state.shared.nextOperation ≤ next.shared.nextOperation := by
    rcases move.nextOperation with same | ⟨_, _, _, _, more, _⟩ <;> omega
  refine ⟨fun id below => ?_, fun phase handle above => ?_, fun milestone id above => ?_, ?_, ?_⟩
  · by_cases known : id < state.shared.nextOperation
    · -- An operation that is known lives on.
      obtain ⟨handle, slot, at_, rfl, life⟩ := lives.lives id known
      obtain ⟨at_, life⟩ := life.step known permitted taken
      exact ⟨handle, slot, at_, rfl, life⟩
    · -- The operation that the step has acquired begins its life.
      rcases move.nextOperation with same | ⟨operation, slot, rfl, rfl, more, memory, log⟩
      · omega
      · have new : id = state.shared.nextOperation := by omega
        subst new
        refine ⟨⟨_, operation⟩, slot, some .acquired, rfl, ?_, fun phase other sameId => ?_, memory,
          fun milestone => ?_, (by simp)⟩
        · rw [log]
          exact List.mem_append_right _ (List.mem_singleton_self _)
        · have counted := (carries (.carried phase other)).1
          have nowhere := lives.unborn phase other (Nat.le_of_eq sameId.symm)
          simp [List.count_cons, nowhere] at counted
          rw [counted]
          grind
        · rw [times_append log, lives.unpassed _ _ (le_refl _)]
          cases milestone <;> simp [Event.milestone, Milestone.passed]
  · have counted := (carries (.carried phase handle)).1
    have nowhere := lives.unborn phase handle (by omega)
    -- A number that is still to come is not given either, for what is given had a number before.
    have none_ : gained.count (.carried phase handle) = 0 := by
      refine List.count_eq_zero.mpr fun member => ?_
      rcases move.gained_carried member with ⟨before, member⟩ | ⟨same, more⟩
      · have somewhere := present _ member
        have nowhere := lives.unborn before handle (by omega)
        omega
      · omega
    omega
  · obtain ⟨events, log, owned⟩ := move.milestones
    -- A milestone of the step is about an operation that was carried, so it has a number already.
    have none_ : (events.countP fun event => event.milestone = some (milestone, id)) = 0 := by
      refine List.countP_eq_zero.mpr fun event member => ?_
      simp only [decide_eq_true_eq]
      intro passed
      obtain ⟨phase, handle, member, rfl⟩ := owned event member _ _ passed
      have somewhere := present _ member
      have nowhere := lives.unborn phase handle (by omega)
      omega
    rw [times_append log, lives.unpassed _ _ (by omega), none_]
  · intro stopped
    -- A carried operation is alive, so its memory is not missing.
    obtain ⟨phase, handle, member, missing⟩ := (move.fault running).1 stopped
    obtain ⟨slot, life⟩ := lives.carried (present _ member)
    rw [life.memory] at missing
    cases missing
  · intro stopped
    -- A handled operation has one reference left, so its count is not used up.
    obtain ⟨handle, cell, member, found, zero⟩ := (move.fault running).2 stopped
    obtain ⟨slot, life⟩ := lives.carried (present _ member)
    rw [life.memory] at found
    cases found
    simp [Phase.refCount] at zero

/-- Before the first operation there is no life to account for. -/
theorem init_lives (config : Config ω) (world : ω) : Lives (State.init m n k config world) where
  lives id below := by cases below
  unborn phase handle _ := init_total config world _
  unpassed _ _ _ := rfl
  sound := ⟨by rintro ⟨⟩, by rintro ⟨⟩⟩

/--
Every operation has one life.

As long as indices, pushes and rings do not fail, an operation that was acquired is in one place
with the one reference that the place says, it is handled once, its count reaches zero once, and
its slot goes back once to the pool it came from; no step uses it without memory or reference.
-/
theorem operations_live_once {world : ω} {labels : List (Label n k ω)}
    (run : Run (step config) (Orderly config) (State.init m n k config world) labels state) :
    (∀ id < state.shared.nextOperation, ∃ handle slot at_,
      handle.id = id ∧ Life state handle slot at_) ∧
    state.shared.fault ≠ some .usedAfterRelease ∧
    state.shared.fault ≠ some .releasedAtZero := by
  have kept := run.invariant (P := Lives) (init_lives config world)
    fun _ _ _ lives permitted taken => step_lives lives permitted taken
  exact ⟨kept.lives, kept.sound⟩

/-- A service with one worker, two sessions and a thread of the application. -/
def smallConfig : Config Unit where
  backlog := 2
  queueDepthPerThread := 4
  listenFd := 3
  dispatcher := {}
  turns := 1

/-- A request that a thread makes, from the call to the push. -/
def request (context : Context 1 1) (slot : Nat) : List (Label 1 1 Unit) :=
  [.run context none false, .run context (some ⟨0, slot⟩) false, .run context none false,
    .run context none false, .run context none false]

/-- A number of steps of the worker. -/
def work (count : Nat) : List (Label 1 1 Unit) := List.replicate count (.work 0 false)

/-- Two accepts are requested and submitted, and one of them completes and is handled. -/
def acceptOne : List (Label 1 1 Unit) :=
  request .main 0 ++ request .main 1 ++ work 11 ++
    [.start 0 0, .start 0 0, .complete 0 0 5 []] ++
    work 2 ++ request (.worker 0) 0 ++ [.run (.worker 0) none false] ++ work 8

/-- The operation of an accept lives from its request to its return, and the next one begins. -/
theorem operations_live_once_accept :
    ∃ state : State 2 1 1 Unit,
      ((∀ id < state.shared.nextOperation, ∃ handle slot at_,
          handle.id = id ∧ Life state handle slot at_) ∧
        state.shared.fault ≠ some .usedAfterRelease ∧
        state.shared.fault ≠ some .releasedAtZero) ∧
      state.shared.nextOperation = 3 ∧ state.shared.memory 0 = none ∧
        state.shared.memory 2 = some ⟨.recv, ⟨0, 0⟩, 1⟩ := by
  -- The accept and the request for the next one leave three numbers given out.
  have executed : (execWhile (step smallConfig) (Orderly smallConfig)
      (State.init 2 1 1 smallConfig ()) acceptOne).any fun state =>
        state.shared.nextOperation = 3 ∧ state.shared.memory 0 = none ∧
          state.shared.memory 2 = some ⟨.recv, ⟨0, 0⟩, 1⟩ := by decide +kernel
  obtain ⟨state, reached, counts⟩ := (Option.any_eq_true _ _).mp executed
  exact ⟨state, operations_live_once (.of_execWhile reached), by simpa using counts⟩

end Braid.Service
