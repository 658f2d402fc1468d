import Braid.Service.Lifecycle

/-! Where the sessions are: waiting in the queue, being accepted, or connected. -/

namespace Braid.Service

open Counting Transition
open Memory (Slot)

variable {m n k : Nat} {ω : Type}

/-- The session that an accept is for. -/
def Operation.accepts : Operation m → Option (Fin m)
  | .accept session _ => some session
  | _ => none

/-- An operation on the connection of a session. -/
def Operation.Uses (session : Fin m) (operation : Operation m) : Prop :=
  operation.accepts = none ∧ operation.session = session

instance (session : Fin m) (operation : Operation m) : Decidable (operation.Uses session) :=
  inferInstanceAs (Decidable (_ ∧ _))

/-- An operation whose completion has not been handled yet. -/
def Phase.outstanding : Phase m → Bool
  | .handled => false
  | .zeroed => false
  | _ => true

/-- An accept of a session that is requested, or whose operation is outstanding. -/
def Token.accepting (session : Fin m) : Token m → Nat
  | .receive _ => 0
  | .requested operation => if operation.accepts = some session then 1 else 0
  | .carried phase handle =>
    if handle.operation.accepts = some session ∧ phase.outstanding then 1 else 0

/-- A request on the connection of a session, from the call to the end of the operation. -/
def Token.using (session : Fin m) : Token m → Nat
  | .receive other => if other = session then 1 else 0
  | .requested operation => if operation.Uses session then 1 else 0
  | .carried _ handle => if handle.operation.Uses session then 1 else 0

/-- The operation that an event is about. -/
def Event.operation : Event m → Operation m
  | .acquired handle _ => handle.operation
  | .refused operation => operation
  | .dropped handle => handle.operation
  | .shutdown handle _ => handle.operation
  | .prepared handle _ => handle.operation
  | .submitted handle => handle.operation
  | .started handle _ => handle.operation
  | .completed handle _ => handle.operation
  | .handled handle _ => handle.operation
  | .zeroed handle => handle.operation
  | .returned handle _ => handle.operation

/-- An accept of a session has ended: it was handled, or the request was lost. -/
def Event.settles (session : Fin m) : Event m → Bool
  | .handled handle _ => handle.operation.accepts = some session
  | .refused operation => operation.accepts = some session
  | .dropped handle => handle.operation.accepts = some session
  | _ => false

/-- A session has been connected. -/
def Event.connects (session : Fin m) : Event m → Bool
  | .handled handle result => handle.operation.accepts = some session ∧ 0 ≤ result
  | _ => false

/-- A session has been connected in the run so far. -/
def Shared.connected (shared : Shared m ω) (session : Fin m) : Bool :=
  shared.log.any fun event => event.connects session

/-- A session that has never been connected: nobody uses it, and it is as it was made. -/
structure Untouched (state : State m n k ω) (session : Fin m) : Prop where
  unused : state.total (Token.using session) = 0
  unnamed : session ∉ state.shared.actors
  new : state.shared.sessions session = {}
  silent : ∀ event ∈ state.shared.log, ¬ event.operation.Uses session

/-- Every session is waiting, being accepted or past its accept, and untouched until connected. -/
structure Settled (state : State m n k ω) : Prop where
  balance : ∀ session, state.shared.sessionsQueue.count session +
    state.total (Token.accepting session) +
      (state.shared.log.countP fun event => event.settles session) = 1
  untouched : ∀ session, state.shared.connected session = false → Untouched state session

variable {config : Config ω} {state next : State m n k ω} {label : Label n k ω}
  {lost gained : List (Token m)} {after : Shared m ω}

@[simp] theorem accepts_recv (session : Fin m) (buffer : Span) :
    (Operation.recv session buffer).accepts = none := rfl

@[simp] theorem accepts_close (session : Fin m) : (Operation.close session).accepts = none := rfl

@[simp] theorem operation_accepts (session : Fin m) (call : ActorCall) :
    (call.operation session).accepts = none := by cases call <;> rfl

@[simp] theorem operation_session (session : Fin m) (call : ActorCall) :
    (call.operation session).session = session := by cases call <;> rfl

/-- Every move keeps the place of a session: it only takes it from one to the next. -/
theorem Move.balance (move : Move config state label lost gained after) (session : Fin m) :
    after.sessionsQueue.count session + tally (Token.accepting session) gained +
        (after.log.countP fun event => event.settles session) =
      state.shared.sessionsQueue.count session + tally (Token.accepting session) lost +
        (state.shared.log.countP fun event => event.settles session) := by
  cases move with
  | popSession queue =>
    simp [Token.accepting, queue, Operation.accepts, List.count_cons]
  | refuse cause head =>
    simp [Token.accepting, Event.settles, Shared.record, List.countP_cons]
    omega
  | turnAway cause head workers outside =>
    simp [Token.accepting, Event.settles, Shared.record, List.countP_cons, Phase.outstanding]
    omega
  | failPush cause head =>
    simp [Token.accepting, Event.settles, Shared.record, List.countP_cons, Phase.outstanding]
    omega
  | advance plain handle => cases plain <;> simp [Token.accepting, Phase.outstanding]
  | handle cause place found alive shared more handled =>
    obtain ⟨_, log, _, _, queue, _⟩ := handleIoCompletion_frame handled
    -- The calls that follow are no accepts, and the accept that is handled has ended.
    have calls : tally (Token.accepting session) (more.flatMap Todo.tokens) = 0 :=
      tally_eq_zero.mpr fun token member => by
        rw [handleIoCompletion_tokens handled token member]; rfl
    simp [Token.accepting, Event.settles, Shared.record, List.countP_cons, Phase.outstanding, log,
      queue, calls]
    omega
  | start cause found =>
    rw [startEntry_frame]
    simp [Token.accepting, Event.settles, Phase.outstanding]
  | complete cause found done =>
    obtain ⟨_, log, _, _, queue, _⟩ := completeStarted_frame done
    simp [Token.accepting, Event.settles, Shared.record, Phase.outstanding, log, queue]
  | _ => simp [Token.accepting, Event.settles, Shared.record, Shared.setCell, Shared.setHeld,
      Shared.stop, Phase.outstanding]

/-- What a step adds to the log about a connection is about what it moves. -/
theorem Move.uses (move : Move config state label lost gained after) :
    ∃ events, after.log = state.shared.log ++ events ∧
      ∀ event ∈ events, ∀ session, event.operation.Uses session →
        0 < tally (Token.using session) lost := by
  cases move with
  | @handle _ _ moved result _ _ _ _ shared more handled =>
    refine ⟨[.handled moved result], by
      simp [Shared.record, (handleIoCompletion_frame handled).2.1], ?_⟩
    simp +contextual [Event.operation, Token.using]
  | start cause found =>
    exact ⟨_, by rw [startEntry_frame], by simp +contextual [Event.operation, Token.using]⟩
  | complete cause found done =>
    refine ⟨_, by rw [← (completeStarted_frame done).2.1]; rfl, ?_⟩
    simp +contextual [Event.operation, Token.using]
  -- What is recorded for an entry was prepared, and so it is taken away here.
  | submit entries =>
    refine ⟨_, rfl, fun event member session uses => ?_⟩
    obtain ⟨entry, present, rfl⟩ := List.mem_map.mp member
    by_contra none_
    have nothing := tally_eq_zero.mp (Nat.eq_zero_of_not_pos none_) _
      (List.mem_map.mpr ⟨entry, present, rfl⟩)
    simp [Token.using, show entry.handle.operation.Uses session from uses] at nothing
  -- The other records are about the one operation that the move carries on.
  | zero found last => exact ⟨_, rfl, by simp +contextual [Event.operation, Token.using]⟩
  | giveBack found => exact ⟨_, rfl, by simp +contextual [Event.operation, Token.using]⟩
  | acquire free => exact ⟨_, rfl, by simp +contextual [Event.operation, Token.using]⟩
  | refuse cause head => exact ⟨_, rfl, by simp +contextual [Event.operation, Token.using]⟩
  | turnAway cause head workers outside =>
    exact ⟨_, rfl, by simp +contextual [Event.operation, Token.using]⟩
  | failPush cause head => exact ⟨_, rfl, by simp +contextual [Event.operation, Token.using]⟩
  | shutdown close => exact ⟨_, rfl, by simp +contextual [Event.operation, Token.using]⟩
  | prepare moved => exact ⟨_, rfl, by simp +contextual [Event.operation, Token.using]⟩
  | _ => exact ⟨[], by simp [Shared.setCell, Shared.stop], by simp⟩

/-- A step that moves nothing on the connection of a session gives nothing to it either. -/
theorem Move.stays_unused (move : Move config state label lost gained after) {session : Fin m}
    (unused : tally (Token.using session) lost = 0) (unnamed : session ∉ state.shared.actors)
    (unconnected : after.connected session = false) :
    tally (Token.using session) gained = 0 ∧ session ∉ after.actors ∧
      after.sessions session = state.shared.sessions session := by
  cases move with
  | @call context slot fails call rest other cause head behind =>
    -- An actor of the session would be needed to call it.
    have different : other ≠ session := by
      rintro rfl
      exact unnamed (List.mem_of_getElem? behind)
    exact ⟨by simp [Token.using, Operation.Uses, different], unnamed, rfl⟩
  | receive other span =>
    have different : other ≠ session := by simpa [Token.using] using unused
    exact ⟨by simp [Token.using, Operation.Uses, Operation.session, different], unnamed, rfl⟩
  | popSession queue => exact ⟨by simp [Token.using, Operation.Uses, Operation.accepts], unnamed, rfl⟩
  | @handle _ _ moved result _ _ _ _ shared more handled =>
    obtain ⟨id, operation⟩ := moved
    have foreign : ¬ operation.Uses session := by simpa [Token.using] using unused
    cases handleIoCompletion_handled handled with
    | nothing calls =>
      exact ⟨by simp [Token.using, foreign], unnamed, rfl⟩
    | @accepted other listenFd accepted actors positive object made =>
      -- A session whose accept succeeds is connected from now on.
      have different : other ≠ session := by
        rintro rfl
        simp [Shared.connected, Shared.record, Event.connects, Operation.accepts,
          positive] at unconnected
      refine ⟨by simp [Token.using, foreign, Todo.tokens, different], ?_, ?_⟩
      · rcases made with rfl | rfl
        · exact unnamed
        · simp [Shared.record, unnamed, Ne.symm different]
      · exact Function.update_of_ne (Ne.symm different) _ _
    | @received other buffer object world calls positive socketFd =>
      have different : other ≠ session := fun same => foreign ⟨rfl, same⟩
      exact ⟨by simp [Token.using, foreign, Todo.tokens, different], unnamed,
        Function.update_of_ne (Ne.symm different) _ _⟩
    | stopped failure => exact ⟨by simp [Token.using, foreign], unnamed, rfl⟩
  | complete cause found done =>
    cases completeStarted_completed done with
    | @received other buffer id connection object positive socketFd =>
      have foreign : ¬ (Operation.recv other buffer).Uses session := by
        simpa [Token.using] using unused
      have different : other ≠ session := fun same => foreign ⟨rfl, same⟩
      exact ⟨unused, unnamed, Function.update_of_ne (Ne.symm different) _ _⟩
    | _ => exact ⟨unused, unnamed, rfl⟩
  | start cause found =>
    rw [startEntry_frame]
    exact ⟨unused, unnamed, rfl⟩
  | submit entries => exact ⟨by simpa [Token.using] using unused, unnamed, rfl⟩
  | _ => first | exact ⟨rfl, unnamed, rfl⟩ | exact ⟨unused, unnamed, rfl⟩

/-- A session that has been connected stays so. -/
theorem Move.connected (move : Move config state label lost gained after) {session : Fin m}
    (connected : state.shared.connected session = true) : after.connected session = true := by
  -- What has been remembered is not forgotten.
  obtain ⟨events, log, _⟩ := move.uses
  simp only [Shared.connected] at connected ⊢
  rw [log, List.any_append, connected, Bool.true_or]

/-- Every step keeps the sessions settled. -/
theorem step_settled (settled : Settled state) (taken : step config state label = some next) :
    Settled next := by
  obtain ⟨_, lost, gained, move, total⟩ := step_moved config taken
  refine ⟨fun session => ?_, fun session unconnected => ?_⟩
  · -- An accept leaves the balance of its session as it was, wherever it goes.
    have balance := settled.balance session
    have moved := move.balance session
    obtain ⟨total, within⟩ := total (Token.accepting session)
    omega
  · -- What is not connected after the step was not connected before it.
    have before : state.shared.connected session = false := by
      by_contra connected
      rw [move.connected (by simpa using connected)] at unconnected
      cases unconnected
    have untouched := settled.untouched session before
    obtain ⟨total, within⟩ := total (Token.using session)
    -- Nothing that uses the session was carried, so nothing of that kind is taken away.
    have unused : tally (Token.using session) lost = 0 := by have := untouched.unused; omega
    obtain ⟨given, unnamed, same⟩ := move.stays_unused unused untouched.unnamed unconnected
    refine ⟨by have := untouched.unused; omega, unnamed, same.trans untouched.new,
      fun event member uses => ?_⟩
    obtain ⟨events, log, owned⟩ := move.uses
    rw [log] at member
    rcases List.mem_append.mp member with old | new
    · exact untouched.silent event old uses
    · have positive := owned event new session uses
      omega

/-- Two different entries that pass a test are counted twice. -/
theorem two_le_countP {α : Type*} [DecidableEq α] (test : α → Bool) {entries : List α}
    {first second : α} (firstMember : first ∈ entries) (secondMember : second ∈ entries)
    (different : second ≠ first) (firstPasses : test first) (secondPasses : test second) :
    2 ≤ entries.countP test := by
  -- Once the first entry is erased, the second one still passes.
  have remaining : second ∈ entries.erase first := (List.mem_erase_of_ne different).mpr secondMember
  have positive : 0 < (entries.erase first).countP test :=
    List.countP_pos_iff.mpr ⟨second, remaining, secondPasses⟩
  rw [(List.perm_cons_erase firstMember).countP_eq test, List.countP_cons_of_pos firstPasses]
  omega

/-- A session that was connected is in no other place, and its accept was not lost. -/
theorem Settled.connected (settled : Settled state) {session : Fin m}
    (connected : state.shared.connected session) :
    state.shared.sessionsQueue.count session + state.total (Token.accepting session) = 0 ∧
      ∀ event ∈ state.shared.log, event.settles session → event.connects session := by
  have balance := settled.balance session
  obtain ⟨made, member, connects⟩ := List.any_eq_true.mp connected
  -- The event that has connected the session is also the end of its accept.
  have settles : made.settles session := by
    cases made with
    | handled handle result => simp_all [Event.connects, Event.settles]
    | _ => cases connects
  have positive : 0 < state.shared.log.countP fun event => event.settles session :=
    List.countP_pos_iff.mpr ⟨made, member, settles⟩
  refine ⟨by omega, fun event other otherSettles => ?_⟩
  by_contra lost_
  -- A second end, which did not connect, would be one too many.
  have different : event ≠ made := by
    rintro rfl
    exact lost_ connects
  have twice := two_le_countP (fun event => event.settles session) member other different
    settles otherSettles
  omega

/-- What is carried adds its own part to a total. -/
theorem total_pos (weight : Token m → Nat) {token : Token m}
    (present : 0 < state.carries token) (positive : 0 < weight token) :
    0 < state.total weight := by
  -- The weight of a list is at least what the token itself contributes to it.
  have part (tokens : List (Token m)) :
      tally (fun other => if other = token then 1 else 0) tokens ≤ tally weight tokens := by
    refine List.sum_le_sum fun other _ => ?_
    split
    · rename_i same
      subst same
      exact positive
    · exact Nat.zero_le _
  refine Nat.lt_of_lt_of_le present (Nat.add_le_add ?_ ?_)
  · exact Finset.sum_le_sum fun context _ => part _
  · exact Finset.sum_le_sum fun worker _ => part _

/-- What is carried after a step was carried before it, or is given by it. -/
theorem carries_next
    (total : ∀ weight, next.total weight + tally weight lost =
      state.total weight + tally weight gained ∧ tally weight lost ≤ state.total weight)
    {token : Token m} (present : 0 < next.carries token) :
    token ∈ gained ∨ 0 < state.carries token := by
  -- What was not given was not created, so it was there already.
  by_cases given : token ∈ gained
  · exact .inl given
  · have counted := (carries_moved total token).1
    rw [List.count_eq_zero.mpr given] at counted
    exact .inr (by omega)

/-- What a step takes was carried before it. -/
theorem carries_lost
    (total : ∀ weight, next.total weight + tally weight lost =
      state.total weight + tally weight gained ∧ tally weight lost ≤ state.total weight)
    {token : Token m} (member : token ∈ lost) : 0 < state.carries token := by
  have within := (carries_moved total token).2
  have positive := List.count_pos_iff.mpr member
  omega

/-- An operation that is outstanding after a step was so before it, or was requested. -/
theorem Move.gained_outstanding (move : Move config state label lost gained after)
    {phase : Phase m} {handle : Handle m} (member : .carried phase handle ∈ gained)
    (outstanding : phase.outstanding) :
    (∃ before : Phase m, before.outstanding ∧ .carried before handle ∈ lost) ∨
      .requested handle.operation ∈ lost := by
  cases move with
  -- An acquired operation was requested.
  | acquire free =>
    cases List.mem_singleton.mp member
    exact .inr (List.mem_singleton_self _)
  -- A handled operation is outstanding no more, and its handler carries no operation.
  | handle cause place found alive shared more handled =>
    rcases List.mem_cons.mp member with same | other
    · cases same
      cases outstanding
    · cases handleIoCompletion_tokens handled _ other
  -- A submitted entry was prepared before.
  | submit entries =>
    obtain ⟨entry, present, same⟩ := List.mem_map.mp member
    cases same
    exact .inl ⟨_, rfl, List.mem_map.mpr ⟨entry, present, rfl⟩⟩
  | advance plain moved =>
    cases List.mem_singleton.mp member
    cases plain <;> exact .inl ⟨_, rfl, List.mem_singleton_self _⟩
  | useAfterRelease at_ missing =>
    cases List.mem_singleton.mp member
    exact .inl ⟨_, outstanding, List.mem_singleton_self _⟩
  -- These take the one operation from one outstanding phase to another.
  | addRef | shutdown | prepare | start | complete =>
    cases List.mem_singleton.mp member
    exact .inl ⟨_, rfl, List.mem_singleton_self _⟩
  -- These carry an operation that has been handled already.
  | zero | releaseAtZero =>
    cases List.mem_singleton.mp member
    cases outstanding
  | _ => simp at member

/-- A result that is there after a step was there before it, or the kernel has just given it. -/
theorem Move.gained_result (move : Move config state label lost gained after)
    {phase : Phase m} {handle : Handle m} {result : Int} (member : .carried phase handle ∈ gained)
    (landed : phase = .completed result ∨ phase = .delivered result) :
    (∃ before : Phase m, (before = .completed result ∨ before = .delivered result) ∧
      .carried before handle ∈ lost) ∨
    ∃ connection data shared, .carried (.started connection) handle ∈ lost ∧
      completeStarted config state.shared ⟨handle, connection⟩ result data = some shared := by
  cases move with
  -- What is handled is no longer in a phase with a result.
  | handle cause place found alive shared more handled =>
    rcases List.mem_cons.mp member with same | other
    · cases same
      rcases landed with landed | landed <;> cases landed
    · cases handleIoCompletion_tokens handled _ other
  | submit entries =>
    obtain ⟨entry, present, same⟩ := List.mem_map.mp member
    cases same
    rcases landed with landed | landed <;> cases landed
  | advance plain moved =>
    cases List.mem_singleton.mp member
    cases plain with
    -- A wait hands the result on as it is.
    | wait answer =>
      have same : answer = result := by
        rcases landed with landed | landed <;> cases landed
        rfl
      subst same
      exact .inl ⟨_, .inl rfl, List.mem_singleton_self _⟩
    | _ => rcases landed with landed | landed <;> cases landed
  | useAfterRelease at_ missing =>
    cases List.mem_singleton.mp member
    exact .inl ⟨_, landed, List.mem_singleton_self _⟩
  -- The kernel completes the operation with this result.
  | @complete at_ i answer data started shared cause found done =>
    cases List.mem_singleton.mp member
    have same : answer = result := by
      rcases landed with landed | landed <;> cases landed
      rfl
    subst same
    exact .inr ⟨_, _, _, List.mem_singleton_self _, done⟩
  -- The other phases come without a result.
  | acquire | addRef | shutdown | prepare | start | zero | releaseAtZero =>
    cases List.mem_singleton.mp member
    rcases landed with landed | landed <;> cases landed
  | _ => simp at member

/-- An operation on a connection is carried only for a session that was connected. -/
theorem Settled.connected_of_carried (settled : Settled state) {phase : Phase m}
    {handle : Handle m} (present : 0 < state.carries (.carried phase handle))
    (uses : handle.operation.accepts = none) :
    state.shared.connected handle.operation.session := by
  by_contra never
  have unused := (settled.untouched _ (by simpa using never)).unused
  -- What is carried would count towards a use of a session that has none.
  have positive := total_pos (Token.using handle.operation.session) present (by
    simp [Token.using, Operation.Uses, uses])
  omega

/-- An accept is outstanding only for a session that was not connected yet. -/
theorem Settled.unconnected_of_carried (settled : Settled state) {phase : Phase m}
    {handle : Handle m} {session : Fin m} (present : 0 < state.carries (.carried phase handle))
    (accepts : handle.operation.accepts = some session) (outstanding : phase.outstanding) :
    state.shared.connected session = false := by
  by_contra connected
  have nowhere := (settled.connected (by simpa using connected)).1
  -- What is carried would count towards an accept of a session that has none.
  have positive := total_pos (Token.accepting session) present (by
    simp [Token.accepting, accepts, outstanding])
  omega

/-- When the service starts, every session waits in the queue. -/
theorem init_settled (config : Config ω) (world : ω) :
    Settled (State.init m n k config world) where
  balance session := by
    -- Each session stands once in the queue, and nothing else is counted.
    have once : (List.finRange m).count session = 1 :=
      List.count_eq_one_of_mem (List.nodup_finRange m) (List.mem_finRange session)
    rw [init_total]
    exact once
  untouched session _ := ⟨init_total config world _, by simp [State.init], rfl, by simp [State.init]⟩

/-- In every run, the sessions are settled. -/
theorem run_settled {world : ω} {guard : State m n k ω → Label n k ω → Prop}
    {labels : List (Label n k ω)}
    (run : Run (step config) guard (State.init m n k config world) labels state) :
    Settled state :=
  run.invariant (init_settled config world) fun _ _ _ settled _ taken => step_settled settled taken

end Braid.Service
