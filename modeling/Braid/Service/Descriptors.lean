import Braid.Service.Sessions

/-! Which connection a descriptor names when a session uses it. -/

namespace Braid.Service

open Counting Transition
open Memory (Slot)

variable {m n k : Nat} {ω : Type}

/--
A use of a descriptor names a connection that the session has accepted and that is still open.

An entry that the kernel starts on names that connection or none, but never another one.
-/
def Event.Owned : Event m → Prop
  | .shutdown handle connection => ∃ own, connection = some own ∧ own.owner = handle.operation.session
  | .prepared handle connection =>
    handle.operation.kind ≠ .accept →
      ∃ own, connection = some own ∧ own.owner = handle.operation.session
  | .started handle connection =>
    handle.operation.kind ≠ .accept →
      ∀ own ∈ connection, own.owner = handle.operation.session
  | _ => True

/-- The kernel closes a connection. -/
def Event.closesConnection (connection : Connection m) : Event m → Bool
  | .started handle own => handle.operation.kind = .close ∧ own = some connection
  | _ => false

/-- The kernel performs a close of a session. -/
def Event.performs (session : Fin m) : Event m → Bool
  | .started handle _ => handle.operation = .close session
  | _ => false

/-- The kernel has performed a close of a session. -/
def Shared.closed (shared : Shared m ω) (session : Fin m) : Bool :=
  shared.log.any fun event => event.performs session

/-- An operation that is still to be put on a ring. -/
def Phase.unprepared : Phase m → Bool
  | .acquired => true
  | .counted => true
  | .queued => true
  | .popped => true
  | _ => false

/-- What is still to be put on a ring for a session, and a recv that leads to more of it. -/
def Token.pending (session : Fin m) : Token m → Nat
  | .receive other => if other = session then 1 else 0
  | .requested operation => if operation.Uses session then 1 else 0
  | .carried phase handle =>
    if handle.operation.Uses session ∧
        (phase.unprepared ∨ handle.operation.kind = .recv ∧ phase.outstanding) then 1
    else 0

/-- An entry of a connection that names a descriptor and is still to be started. -/
def Token.naming (fd : Int) : Token m → Nat
  | .carried (.prepared named) handle =>
    if handle.operation.accepts = none ∧ named = fd then 1 else 0
  | .carried (.submitted named) handle =>
    if handle.operation.accepts = none ∧ named = fd then 1 else 0
  | _ => 0

/--
The steps after which no session is left with an operation on a descriptor that is not its own.

No actor is called whose session is closed; the kernel performs a close only when nothing is left
to be put on a ring for the session and no recv of it is left to be handled; and it gives no
number to a new connection that an entry still names.
-/
def Quiet (state : State m n k ω) : Label n k ω → Prop
  | .run context _ _ =>
    match state.todo context with
    | .call call :: _ =>
      ∀ session ∈ state.shared.actors[call.actor]?, state.shared.closed session = false
    | _ => True
  | .start at_ i =>
    ∀ entry ∈ (state.worker at_).submitted[i]?, entry.handle.operation.kind = .close →
      state.total (Token.pending entry.handle.operation.session) = 0
  | .complete at_ i result _ =>
    ∀ started ∈ (state.worker at_).started[i]?, started.handle.operation.kind = .accept →
      0 ≤ result → state.total (Token.naming result) = 0
  | _ => True

instance Quiet.decidable (state : State m n k ω) (label : Label n k ω) :
    Decidable (Quiet state label) :=
  match label with
  | .run context slot fails => by
    dsimp only [Quiet]
    generalize state.todo context = todo
    exact match todo with
      | .call _ :: _ => by dsimp only; infer_instance
      | [] | .acceptOne :: _ | .receive _ :: _ | .acquire _ :: _ | .addRef _ :: _ | .route _ :: _
      | .push _ _ :: _ => instDecidableTrue
  | .start at_ i => by dsimp only [Quiet]; infer_instance
  | .complete at_ i result data => by dsimp only [Quiet]; infer_instance
  | .work .. | .call .. | .task .. | .application .. => instDecidableTrue

/-- The kernel's table: every connection in it is open, has one descriptor, and closes once. -/
structure Table (shared : Shared m ω) : Prop where
  listed : ∀ fd connection, shared.descriptors fd = some connection →
    connection.number < shared.connections ∧
      ∀ event ∈ shared.log, event.closesConnection connection = false
  single : ∀ first second connection, shared.descriptors first = some connection →
    shared.descriptors second = some connection → first = second
  numbered : ∀ event ∈ shared.log, ∀ connection, event.closesConnection connection →
    connection.number < shared.connections
  once : ∀ connection,
    (shared.log.countP fun event => event.closesConnection connection) ≤ 1

/-- Every descriptor that a session has and every entry that names one is its own, or closed. -/
structure Owning (state : State m n k ω) : Prop where
  opened : ∀ session, state.shared.connected session → state.shared.closed session = false →
    ∃ own, state.shared.descriptors (state.shared.socketFd session) = some own ∧
      own.owner = session
  accepted : ∀ phase handle result session, 0 < state.carries (.carried phase handle) →
    phase = .completed result ∨ phase = .delivered result →
      handle.operation.accepts = some session → 0 ≤ result →
        ∃ own, state.shared.descriptors result = some own ∧ own.owner = session
  named : ∀ phase handle fd, 0 < state.carries (.carried phase handle) →
    phase = .prepared fd ∨ phase = .submitted fd → handle.operation.accepts = none →
      fd = state.shared.socketFd handle.operation.session ∧
        (state.shared.closed handle.operation.session →
          state.shared.descriptors fd = none)
  quiet : ∀ session, state.shared.closed session →
    state.shared.connected session ∧ state.total (Token.pending session) = 0
  owned : ∀ event ∈ state.shared.log, event.Owned

variable {config : Config ω} {state next : State m n k ω} {label : Label n k ω}
  {lost gained : List (Token m)} {after : Shared m ω}

section Kernel

variable {shared : Shared m ω}

/-- A step that closes no connection and opens none leaves the table as it is. -/
theorem Table.aside {events : List (Event m)} (table : Table shared)
    (descriptors : after.descriptors = shared.descriptors)
    (connections : after.connections = shared.connections)
    (log : after.log = shared.log ++ events)
    (open_ : ∀ event ∈ events, ∀ connection, event.closesConnection connection = false) :
    Table after where
  listed fd connection found := by
    rw [descriptors] at found
    obtain ⟨number, listed⟩ := table.listed fd connection found
    refine ⟨by rw [connections]; exact number, fun event member => ?_⟩
    rw [log] at member
    -- Only an old event can have closed a connection, since no new one does.
    rcases List.mem_append.mp member with old | new
    · exact listed event old
    · exact open_ event new connection
  single first second connection := by rw [descriptors]; exact table.single first second connection
  numbered event member connection closes := by
    rw [log] at member
    rw [connections]
    rcases List.mem_append.mp member with old | new
    · exact table.numbered event old connection closes
    · rw [open_ event new connection] at closes
      cases closes
  once connection := by
    -- The new events add nothing to the count.
    have none_ : (events.countP fun event => event.closesConnection connection) = 0 :=
      List.countP_eq_zero.mpr fun event member => by simp [open_ event member connection]
    rw [log, List.countP_append, none_]
    exact table.once connection

/-- A connection that is accepted gets a number of its own. -/
theorem Table.accept (table : Table shared) {fd : Int} {session : Fin m}
    (unused : shared.descriptors fd = none) :
    Table { shared.setDescriptor fd (some ⟨shared.connections, session⟩) with
      connections := shared.connections + 1 } where
  listed other connection found := by
    by_cases same : other = fd
    · subst same
      simp only [Shared.setDescriptor, Function.update_self, Option.some.injEq] at found
      subst found
      refine ⟨Nat.lt_succ_self _, fun event member => ?_⟩
      -- A connection that was closed before has a smaller number.
      by_contra closes
      have older := table.numbered event member _ (by simpa using closes)
      simp at older
    · simp only [Shared.setDescriptor, Function.update_of_ne same] at found
      obtain ⟨number, listed⟩ := table.listed other connection found
      exact ⟨Nat.lt_succ_of_lt number, listed⟩
  single first second connection inFirst inSecond := by
    have fresh (other : Int) (different : other ≠ fd)
        (found : shared.descriptors other = some ⟨shared.connections, session⟩) : False := by
      have older := (table.listed other _ found).1
      simp at older
    simp only [Shared.setDescriptor, Function.update_apply] at inFirst inSecond
    split at inFirst <;> split at inSecond
    · rename_i first_ second_
      rw [first_, second_]
    · rename_i first_ second_
      cases inFirst
      exact (fresh second second_ inSecond).elim
    · rename_i first_ second_
      cases inSecond
      exact (fresh first first_ inFirst).elim
    · exact table.single first second connection inFirst inSecond
  numbered event member connection closes :=
    Nat.lt_succ_of_lt (table.numbered event member connection closes)
  once := table.once

/-- A connection that is closed leaves the table. -/
theorem Table.close (table : Table shared) {handle : Handle m} {fd : Int}
    (close : handle.operation.kind = .close) :
    Table ((shared.setDescriptor fd none).record [.started handle (shared.descriptors fd)]) where
  listed other connection found := by
    -- The closed descriptor lists nothing any more.
    have different : other ≠ fd := by
      rintro rfl
      simp [Shared.record, Shared.setDescriptor] at found
    simp only [Shared.record, Shared.setDescriptor, Function.update_of_ne different] at found
    obtain ⟨number, listed⟩ := table.listed other connection found
    refine ⟨number, fun event member => ?_⟩
    simp only [Shared.record, Shared.setDescriptor, List.mem_append, List.mem_singleton] at member
    rcases member with old | rfl
    · exact listed event old
    · -- The connection at another descriptor is another one.
      have other_ : shared.descriptors fd ≠ some connection := fun same =>
        different (table.single _ _ connection found same)
      simp [Event.closesConnection, other_]
  single first second connection inFirst inSecond := by
    simp only [Shared.record, Shared.setDescriptor, Function.update_apply] at inFirst inSecond
    split at inFirst <;> split at inSecond <;> first | cases inFirst | cases inSecond | skip
    exact table.single first second connection inFirst inSecond
  numbered event member connection closes := by
    simp only [Shared.record, Shared.setDescriptor, List.mem_append, List.mem_singleton] at member
    rcases member with old | rfl
    · exact table.numbered event old connection closes
    · -- The new event closes the connection that the descriptor listed.
      have named : shared.descriptors fd = some connection := by
        simpa [Event.closesConnection, close] using closes
      exact (table.listed fd connection named).1
  once connection := by
    simp only [Shared.record, Shared.setDescriptor, List.countP_append, List.countP_singleton]
    split
    · rename_i closes
      have named : shared.descriptors fd = some connection := by
        simpa [Event.closesConnection, close] using closes
      -- What is listed has not been closed before, so this is the first time.
      have never : (shared.log.countP fun event => event.closesConnection connection) = 0 :=
        List.countP_eq_zero.mpr fun event member => by
          simp [(table.listed fd connection named).2 event member]
      omega
    · exact table.once connection

end Kernel

/-- Every step keeps the kernel's table. -/
theorem Move.table (move : Move config state label lost gained after)
    (table : Table state.shared) : Table after := by
  cases move with
  | @handle _ _ moved result _ _ _ _ shared more handled =>
    obtain ⟨id, operation⟩ := moved
    -- Handling touches the sessions, not the table.
    cases handleIoCompletion_handled handled <;>
      exact table.aside rfl rfl rfl (by simp [Event.closesConnection])
  | @start at_ i entry cause found =>
    simp only [startEntry]
    split
    · -- A close empties its descriptor when the kernel starts on it.
      rename_i close
      exact table.close (by rw [close]; rfl)
    · rename_i other
      have kind : entry.handle.operation.kind ≠ .close := by
        cases operation : entry.handle.operation with
        | close session => exact absurd operation (other session)
        | _ => simp [Operation.kind]
      exact table.aside rfl rfl rfl (by simp [Event.closesConnection, kind])
  | complete cause found done =>
    cases completeStarted_completed done with
    -- An accept puts its connection at a descriptor that was not in use.
    | accepted positive unused =>
      exact (table.accept unused).aside rfl rfl rfl (by simp [Event.closesConnection])
    | _ => exact table.aside rfl rfl rfl (by simp [Event.closesConnection])
  -- The other moves record events that close no connection.
  | acquire free => exact table.aside rfl rfl rfl (by simp [Event.closesConnection])
  | refuse cause head => exact table.aside rfl rfl rfl (by simp [Event.closesConnection])
  | turnAway cause head workers outside =>
    exact table.aside rfl rfl rfl (by simp [Event.closesConnection])
  | failPush cause head => exact table.aside rfl rfl rfl (by simp [Event.closesConnection])
  | shutdown close => exact table.aside rfl rfl rfl (by simp [Event.closesConnection])
  | prepare moved => exact table.aside rfl rfl rfl (by simp [Event.closesConnection])
  | submit entries => exact table.aside rfl rfl rfl (by simp [Event.closesConnection])
  | zero found last => exact table.aside rfl rfl rfl (by simp [Event.closesConnection])
  | giveBack found => exact table.aside rfl rfl rfl (by simp [Event.closesConnection])
  | _ => exact table.aside rfl rfl (List.append_nil _).symm (by simp)

/-- A closed session with nothing pending is left with nothing pending by every quiet step. -/
theorem Move.stays_quiet (move : Move config state label lost gained after)
    (permitted : Quiet state label) {session : Fin m} (closed : state.shared.closed session)
    (none_ : tally (Token.pending session) lost = 0)
    (unconnected : ∀ phase handle, .carried phase handle ∈ lost → phase.outstanding →
      handle.operation.accepts ≠ some session) :
    tally (Token.pending session) gained = 0 := by
  cases move with
  | @call context slot fails call rest other cause head behind =>
    subst cause
    simp only [Quiet, head] at permitted
    -- The application has been quiet on a closed session, so it calls for another one.
    have different : other ≠ session := by
      rintro rfl
      rw [permitted other behind] at closed
      cases closed
    simp [Token.pending, Operation.Uses, different]
  | @advance before after plain handle =>
    cases plain <;> simpa [Token.pending, Phase.unprepared, Phase.outstanding] using none_
  | @handle _ _ moved result _ _ _ _ shared more handled =>
    obtain ⟨id, operation⟩ := moved
    cases handleIoCompletion_handled handled with
    | @accepted other listenFd accepted actors positive object made =>
      -- An accept of the session is no longer outstanding, so this one is for another session.
      have different : other ≠ session := fun same =>
        unconnected _ _ (List.mem_singleton_self _) rfl (by rw [← same]; rfl)
      simp [Token.pending, Phase.unprepared, Phase.outstanding, Todo.tokens, different]
    | @received other buffer object world calls positive socketFd =>
      -- A receive of the session would have been pending.
      have different : other ≠ session := by
        rintro rfl
        simp [Token.pending, Operation.Uses, Operation.session, Operation.kind,
          Phase.outstanding] at none_
      simp [Token.pending, Phase.unprepared, Phase.outstanding, Todo.tokens, different]
    | _ => simp [Token.pending, Phase.unprepared, Phase.outstanding]
  | popSession queue => simp [Token.pending, Operation.Uses, Operation.accepts]
  | receive other span =>
    simpa [Token.pending, Operation.Uses, Operation.session] using none_
  | prepare moved =>
    -- What is prepared was popped, and uses another session.
    have foreign : ¬ moved.operation.Uses session := by
      simpa [Token.pending, Phase.unprepared] using none_
    simp [Token.pending, foreign]
  | _ => simp_all [Token.pending, Phase.unprepared, Phase.outstanding]

/-- What a step leaves pending for a session that was closed before it: nothing. -/
theorem Owning.stays_quiet (owning : Owning state) (settled : Settled state)
    (move : Move config state label lost gained after) (permitted : Quiet state label)
    (total : ∀ weight, next.total weight + tally weight lost =
      state.total weight + tally weight gained ∧ tally weight lost ≤ state.total weight)
    {session : Fin m} (closed : state.shared.closed session) :
    next.total (Token.pending session) = 0 := by
  obtain ⟨connected, nothing⟩ := owning.quiet session closed
  obtain ⟨changed, within⟩ := total (Token.pending session)
  have none_ := move.stays_quiet permitted closed (by omega)
    fun phase handle member outstanding accepts => by
      -- Its accept has ended with the connection.
      have unconnected := settled.unconnected_of_carried (carries_lost total member) accepts
        outstanding
      rw [unconnected] at connected
      cases connected
  omega

/-- What is remembered in a step decides which sessions are connected and closed after it. -/
theorem connected_append {shared : Shared m ω} {events : List (Event m)} (session : Fin m)
    (log : after.log = shared.log ++ events)
    (silent : ∀ event ∈ events, event.connects session = false) :
    after.connected session = shared.connected session := by
  have none_ : (events.any fun event => event.connects session) = false :=
    List.any_eq_false.mpr fun event member => by simp [silent event member]
  simp [Shared.connected, log, none_]

/-- A session is closed after a step that performs no close exactly if it was closed before. -/
theorem closed_append {shared : Shared m ω} {events : List (Event m)} (session : Fin m)
    (log : after.log = shared.log ++ events)
    (silent : ∀ event ∈ events, event.performs session = false) :
    after.closed session = shared.closed session := by
  have none_ : (events.any fun event => event.performs session) = false :=
    List.any_eq_false.mpr fun event member => by simp [silent event member]
  simp [Shared.closed, log, none_]

/-- A step that opens and closes nothing keeps the ownership of what was there before it. -/
theorem Owning.aside {events : List (Event m)} (owning : Owning state) (settled : Settled state)
    (move : Move config state label lost gained next.shared) (permitted : Quiet state label)
    (total : ∀ weight, next.total weight + tally weight lost =
      state.total weight + tally weight gained ∧ tally weight lost ≤ state.total weight)
    (descriptors : next.shared.descriptors = state.shared.descriptors)
    (socketFd : ∀ session, next.shared.socketFd session = state.shared.socketFd session)
    (log : next.shared.log = state.shared.log ++ events)
    (connects : ∀ event ∈ events, ∀ session, event.connects session = false)
    (performs : ∀ event ∈ events, ∀ session, event.performs session = false)
    (owned : ∀ event ∈ events, event.Owned)
    (accepted : ∀ phase handle result session, .carried phase handle ∈ gained →
      phase = .completed result ∨ phase = .delivered result →
        handle.operation.accepts = some session → 0 ≤ result →
          ∃ own, state.shared.descriptors result = some own ∧ own.owner = session)
    (named : ∀ phase handle fd, .carried phase handle ∈ gained →
      phase = .prepared fd ∨ phase = .submitted fd → handle.operation.accepts = none →
        fd = state.shared.socketFd handle.operation.session ∧
          (state.shared.closed handle.operation.session →
            state.shared.descriptors fd = none)) : Owning next := by
  -- The new events connect and perform nothing, so both notions are as before.
  have sameConnected (session : Fin m) := connected_append session log
    fun event member => connects event member session
  have sameClosed (session : Fin m) := closed_append session log
    fun event member => performs event member session
  refine ⟨?_, ?_, ?_, ?_, ?_⟩
  · intro session connected open_
    rw [sameConnected] at connected
    rw [sameClosed] at open_
    rw [descriptors, socketFd]
    exact owning.opened session connected open_
  · intro phase handle result session present stage accepts positive
    rw [descriptors]
    -- What is carried with a result was carried before, or comes from this move.
    rcases carries_next total present with given | before
    · exact accepted phase handle result session given stage accepts positive
    · exact owning.accepted phase handle result session before stage accepts positive
  · intro phase handle fd present stage uses
    rw [descriptors, socketFd, sameClosed]
    -- What is carried with a descriptor was carried before, or comes from this move.
    rcases carries_next total present with given | before
    · exact named phase handle fd given stage uses
    · exact owning.named phase handle fd before stage uses
  · intro session closed
    rw [sameClosed] at closed
    rw [sameConnected]
    exact ⟨(owning.quiet session closed).1,
      owning.stays_quiet settled move permitted total closed⟩
  · intro event member
    rw [log] at member
    rcases List.mem_append.mp member with old | new
    · exact owning.owned event old
    · exact owned event new

/-- The operations of the other classes are those that accept for no session. -/
theorem accepts_eq_none {operation : Operation m} :
    operation.accepts = none ↔ operation.kind ≠ .accept := by
  cases operation <;> simp [Operation.kind, Operation.accepts]

/-- A session with an operation that is still to be put on a ring has its connection open. -/
theorem Owning.open_of_popped (owning : Owning state) (settled : Settled state)
    {handle : Handle m} (present : 0 < state.carries (.carried .popped handle))
    (uses : handle.operation.accepts = none) :
    state.shared.closed handle.operation.session = false ∧
      ∃ own, state.shared.descriptors (state.shared.socketFd handle.operation.session) = some own ∧
        own.owner = handle.operation.session := by
  have open_ : state.shared.closed handle.operation.session = false := by
    by_contra closed
    -- Nothing is left to be put on a ring once the session is closed.
    have nothing := (owning.quiet _ (by simpa using closed)).2
    have positive := total_pos (Token.pending handle.operation.session) present (by
      simp [Token.pending, Operation.Uses, uses, Phase.unprepared])
    omega
  exact ⟨open_, owning.opened _ (settled.connected_of_carried present uses) open_⟩

/-- An operation on a connection names the descriptor of its session when it is flushed. -/
theorem fd_eq_socketFd {shared : Shared m ω} {operation : Operation m}
    (uses : operation.accepts = none) : operation.fd shared = shared.socketFd operation.session := by
  cases operation <;> first | rfl | cases uses

/-- An accept that is handled gives its session the connection that the kernel has opened. -/
theorem Owning.connect (owning : Owning state) (settled : Settled state) {id : Nat}
    {session : Fin m} {listenFd result : Int} {accepted : ServiceSession} {actors : List (Fin m)}
    (delivered : 0 < state.carries (.carried (.delivered result) ⟨id, .accept session listenFd⟩))
    (positive : 0 ≤ result)
    (object : accepted.object = (state.shared.sessions session).object.setSocketFd result)
    (shared : next.shared = ({ state.shared.setSession session accepted with actors := actors
      }).record [.handled ⟨id, .accept session listenFd⟩ result])
    (before : ∀ phase handle, 0 < next.carries (.carried phase handle) → phase ≠ .handled →
      0 < state.carries (.carried phase handle))
    (quiet : ∀ other, state.shared.closed other → next.total (Token.pending other) = 0) :
    Owning next := by
  have unconnected : state.shared.connected session = false :=
    settled.unconnected_of_carried delivered rfl rfl
  have log : next.shared.log = state.shared.log ++
      [.handled ⟨id, .accept session listenFd⟩ result] := by rw [shared]; rfl
  have sameClosed (other : Fin m) : next.shared.closed other = state.shared.closed other :=
    closed_append other log (by simp [Event.performs])
  have descriptors : next.shared.descriptors = state.shared.descriptors := by rw [shared]; rfl
  have socketFd : next.shared.socketFd session = result := by
    simp [shared, Shared.socketFd, Shared.record, Shared.setSession, object,
      IOUringObject.setSocketFd]
  -- Every other session is as it was.
  have others (other : Fin m) (different : other ≠ session) :
      next.shared.socketFd other = state.shared.socketFd other ∧
        next.shared.connected other = state.shared.connected other := by
    refine ⟨?_, connected_append other log ?_⟩
    · simp [shared, Shared.socketFd, Shared.record, Shared.setSession, different]
    · simp [Event.connects, Operation.accepts, Ne.symm different]
  refine ⟨?_, ?_, ?_, ?_, ?_⟩
  · intro other connected open_
    rw [descriptors]
    by_cases same : other = session
    · subst same
      rw [socketFd]
      exact owning.accepted _ _ result other delivered (.inr rfl) rfl positive
    · rw [(others other same).2] at connected
      rw [(others other same).1]
      rw [sameClosed] at open_
      exact owning.opened other connected open_
  · intro phase handle answer other present stage accepts answered
    rw [descriptors]
    refine owning.accepted phase handle answer other (before _ _ present ?_) stage accepts answered
    rcases stage with rfl | rfl <;> simp
  · intro phase handle fd present stage uses
    have carried := before _ _ present (by rcases stage with rfl | rfl <;> simp)
    -- A session that was not connected had no operation on a connection.
    have different : handle.operation.session ≠ session := by
      intro same
      have connected := settled.connected_of_carried carried uses
      rw [same, unconnected] at connected
      cases connected
    rw [descriptors, (others _ different).1, sameClosed]
    exact owning.named phase handle fd carried stage uses
  · intro other closed
    rw [sameClosed] at closed
    have connected := (owning.quiet other closed).1
    refine ⟨?_, quiet other closed⟩
    simp only [Shared.connected] at connected ⊢
    rw [log, List.any_append, connected, Bool.true_or]
  · intro event member
    rw [log] at member
    rcases List.mem_append.mp member with old | new
    · exact owning.owned event old
    · rw [List.mem_singleton.mp new]
      trivial

/-- A connection that the kernel accepts gets a descriptor that no entry names. -/
theorem Owning.open (owning : Owning state) {id : Nat} {session : Fin m} {listenFd result : Int}
    (unused : state.shared.descriptors result = none)
    (unnamed : state.total (Token.naming result) = 0)
    (shared : next.shared = Shared.record
      { state.shared.setDescriptor result (some ⟨state.shared.connections, session⟩) with
        connections := state.shared.connections + 1 }
      [.completed ⟨id, .accept session listenFd⟩ result])
    (before : ∀ phase handle, 0 < next.carries (.carried phase handle) →
      phase = .completed result ∧ handle = ⟨id, .accept session listenFd⟩ ∨
        0 < state.carries (.carried phase handle))
    (quiet : ∀ other, state.shared.closed other → next.total (Token.pending other) = 0) :
    Owning next := by
  have log : next.shared.log = state.shared.log ++
      [.completed ⟨id, .accept session listenFd⟩ result] := by rw [shared]; rfl
  have sameClosed (other : Fin m) : next.shared.closed other = state.shared.closed other :=
    closed_append other log (by simp [Event.performs])
  have sameConnected (other : Fin m) : next.shared.connected other = state.shared.connected other :=
    connected_append other log (by simp [Event.connects])
  have socketFd (other : Fin m) : next.shared.socketFd other = state.shared.socketFd other := by
    rw [shared]; rfl
  have opened : next.shared.descriptors result = some ⟨state.shared.connections, session⟩ := by
    simp [shared, Shared.record, Shared.setDescriptor]
  have others (fd : Int) (different : fd ≠ result) :
      next.shared.descriptors fd = state.shared.descriptors fd := by
    simp [shared, Shared.record, Shared.setDescriptor, different]
  -- A descriptor that was open is another one.
  have kept {fd : Int} {own : Connection m} (found : state.shared.descriptors fd = some own) :
      next.shared.descriptors fd = some own := by
    rw [others fd (by rintro rfl; rw [unused] at found; cases found), found]
  refine ⟨?_, ?_, ?_, ?_, ?_⟩
  · intro other connected open_
    rw [sameConnected] at connected
    rw [sameClosed] at open_
    rw [socketFd]
    obtain ⟨own, found, owner⟩ := owning.opened other connected open_
    exact ⟨own, kept found, owner⟩
  · intro phase handle answer other present stage accepts answered
    rcases before _ _ present with ⟨rfl, rfl⟩ | carried
    · have same : answer = result := by
        rcases stage with stage | stage <;> cases stage
        rfl
      subst same
      exact ⟨_, opened, by simpa [Operation.accepts] using accepts⟩
    · obtain ⟨own, found, owner⟩ :=
        owning.accepted phase handle answer other carried stage accepts answered
      exact ⟨own, kept found, owner⟩
  · intro phase handle fd present stage uses
    rcases before _ _ present with ⟨rfl, rfl⟩ | carried
    · cases uses
    · obtain ⟨names, closing⟩ := owning.named phase handle fd carried stage uses
      have different : fd ≠ result := by
        rintro rfl
        have positive := total_pos (Token.naming fd) carried (by
          rcases stage with rfl | rfl <;> simp [Token.naming, uses])
        omega
      rw [socketFd, sameClosed, others fd different]
      exact ⟨names, closing⟩
  · intro other closed
    rw [sameClosed] at closed
    rw [sameConnected]
    exact ⟨(owning.quiet other closed).1, quiet other closed⟩
  · intro event member
    rw [log] at member
    rcases List.mem_append.mp member with old | new
    · exact owning.owned event old
    · rw [List.mem_singleton.mp new]
      trivial

/-- An entry that the kernel starts on names the connection of its session, or none. -/
theorem Owning.started (owning : Owning state) (settled : Settled state) (entry : Entry m)
    (present : 0 < state.carries (.carried (.submitted entry.fd) entry.handle)) :
    (Event.started entry.handle (state.shared.descriptors entry.fd)).Owned := by
  intro kind own found
  have uses := accepts_eq_none.mpr kind
  obtain ⟨names, closing⟩ := owning.named _ _ entry.fd present (.inr rfl) uses
  -- On a closed session the descriptor is empty, and otherwise it lists the own connection.
  by_cases closed : state.shared.closed entry.handle.operation.session
  · rw [closing closed] at found
    cases found
  · obtain ⟨other, opened, owner⟩ := owning.opened _ (settled.connected_of_carried present uses)
      (by simpa using closed)
    rw [← names] at opened
    have same : other = own := Option.some.inj (opened.symm.trans found)
    rw [← same, owner]

/-- A close that the kernel performs takes the descriptor from its own session only. -/
theorem Owning.close (owning : Owning state) (settled : Settled state) {session : Fin m} {id : Nat}
    {fd : Int} (present : 0 < state.carries (.carried (.submitted fd) ⟨id, .close session⟩))
    (shared : next.shared = (state.shared.setDescriptor fd none).record
      [.started ⟨id, .close session⟩ (state.shared.descriptors fd)])
    (before : ∀ phase handle, 0 < next.carries (.carried phase handle) →
      phase = .started (state.shared.descriptors fd) ∨ 0 < state.carries (.carried phase handle))
    (quiet : ∀ other, next.shared.closed other → next.total (Token.pending other) = 0) :
    Owning next := by
  have log : next.shared.log = state.shared.log ++
      [.started ⟨id, .close session⟩ (state.shared.descriptors fd)] := by rw [shared]; rfl
  have sameConnected (other : Fin m) : next.shared.connected other = state.shared.connected other :=
    connected_append other log (by simp [Event.connects])
  have socketFd (other : Fin m) : next.shared.socketFd other = state.shared.socketFd other := by
    rw [shared]; rfl
  have closedNow (other : Fin m) : next.shared.closed other ↔
      state.shared.closed other ∨ other = session := by
    rw [eq_comm (a := other)]
    simp [Shared.closed, log, Event.performs]
  have gone : next.shared.descriptors fd = none := by
    simp [shared, Shared.record, Shared.setDescriptor]
  have others (other : Int) (different : other ≠ fd) :
      next.shared.descriptors other = state.shared.descriptors other := by
    simp [shared, Shared.record, Shared.setDescriptor, different]
  have connected : state.shared.connected session := settled.connected_of_carried present rfl
  obtain ⟨names, closing⟩ := owning.named _ _ fd present (.inr rfl) rfl
  -- The descriptor named no connection of another session.
  have owned (own : Connection m) (found : state.shared.descriptors fd = some own) :
      own.owner = session := by
    have event := owning.started settled ⟨⟨id, .close session⟩, fd⟩ present
    exact event (by rintro ⟨⟩) own found
  refine ⟨?_, ?_, ?_, ?_, ?_⟩
  · intro other linked open_
    rw [sameConnected] at linked
    have still : ¬ (state.shared.closed other ∨ other = session) := by
      rw [← closedNow]
      simpa using open_
    rw [not_or] at still
    obtain ⟨own, found, owner⟩ := owning.opened other linked (by simpa using still.1)
    refine ⟨own, ?_, owner⟩
    rw [socketFd, others _ ?_, found]
    intro same
    rw [same] at found
    exact still.2 (owner.symm.trans (owned own found))
  · intro phase handle answer other here stage accepts answered
    rcases before _ _ here with rfl | carried
    · rcases stage with stage | stage <;> cases stage
    · obtain ⟨own, found, owner⟩ :=
        owning.accepted phase handle answer other carried stage accepts answered
      refine ⟨own, ?_, owner⟩
      rw [others _ ?_, found]
      rintro rfl
      -- The accepting session would be the one that is closed, and it is past its accept.
      have same : other = session := owner.symm.trans (owned own found)
      subst same
      have unconnected := settled.unconnected_of_carried carried accepts (by
        rcases stage with rfl | rfl <;> rfl)
      rw [unconnected] at connected
      cases connected
  · intro phase handle other here stage uses
    rcases before _ _ here with rfl | carried
    · rcases stage with stage | stage <;> cases stage
    · obtain ⟨own, closed⟩ := owning.named phase handle other carried stage uses
      refine ⟨own.trans (socketFd _).symm, fun now => ?_⟩
      by_cases same : other = fd
      · rw [same, gone]
      · rw [others _ same]
        rcases (closedNow _).mp now with old | itself
        · exact closed old
        · rw [itself] at own
          exact absurd (own.trans names.symm) same
  · intro other closed
    refine ⟨?_, quiet other closed⟩
    rw [sameConnected]
    rcases (closedNow other).mp closed with old | rfl
    · exact (owning.quiet other old).1
    · exact connected
  · intro event member
    rw [log] at member
    rcases List.mem_append.mp member with old | new
    · exact owning.owned event old
    · rw [List.mem_singleton.mp new]
      exact owning.started settled ⟨⟨id, .close session⟩, fd⟩ present

/--
A step that opens and closes nothing keeps the ownership.

Whatever it gives a result or a descriptor had it before the step.
-/
theorem Owning.plain (owning : Owning state) (settled : Settled state)
    (move : Move config state label lost gained next.shared) (permitted : Quiet state label)
    (total : ∀ weight, next.total weight + tally weight lost =
      state.total weight + tally weight gained ∧ tally weight lost ≤ state.total weight)
    (events : List (Event m)) (descriptors : next.shared.descriptors = state.shared.descriptors)
    (socketFd : ∀ session, next.shared.socketFd session = state.shared.socketFd session)
    (log : next.shared.log = state.shared.log ++ events)
    (silent : ∀ event ∈ events, event.Owned ∧
      ∀ session, event.connects session = false ∧ event.performs session = false)
    (still : ∀ phase handle, .carried phase handle ∈ gained →
      .carried phase handle ∈ lost ∨
        ∀ at_ fd, phase ≠ .completed at_ ∧ phase ≠ .delivered at_ ∧ phase ≠ .prepared fd ∧
          phase ≠ .submitted fd) : Owning next := by
  refine owning.aside settled move permitted total descriptors socketFd log
    (fun event member session => ((silent event member).2 session).1)
    (fun event member session => ((silent event member).2 session).2)
    (fun event member => (silent event member).1) ?_ ?_
  · intro phase handle result session member stage accepts positive
    rcases still phase handle member with before | none_
    · exact owning.accepted phase handle result session (carries_lost total before) stage accepts
        positive
    · -- A phase with a result is none of the others.
      have none_ := none_ result 0
      rcases stage with rfl | rfl <;> simp at none_
  · intro phase handle fd member stage uses
    rcases still phase handle member with before | none_
    · exact owning.named phase handle fd (carries_lost total before) stage uses
    · -- A phase with a descriptor is none of the others.
      have none_ := none_ 0 fd
      rcases stage with rfl | rfl <;> simp at none_

/-- Handling a completion keeps the ownership: an accept connects its session to what it opened. -/
theorem Owning.handle (owning : Owning state) (settled : Settled state)
    (permitted : Quiet state label) {id : Nat} {operation : Operation m} {result : Int}
    {shared : Shared m ω} {more : List (Todo m n)}
    (move : Move config state label [.carried (.delivered result) ⟨id, operation⟩]
      (.carried .handled ⟨id, operation⟩ :: more.flatMap Todo.tokens) next.shared)
    (total : ∀ weight, next.total weight +
        tally weight [.carried (.delivered result) ⟨id, operation⟩] =
      state.total weight +
        tally weight (.carried .handled ⟨id, operation⟩ :: more.flatMap Todo.tokens) ∧
      tally weight [.carried (.delivered result) ⟨id, operation⟩] ≤ state.total weight)
    (handled : handleIoCompletion config state.shared result operation = (shared, more))
    (same : next.shared = shared.record [.handled ⟨id, operation⟩ result]) : Owning next := by
  have delivered := carries_lost total (List.mem_singleton_self _)
  have still (phase : Phase m) (handle : Handle m)
      (member : Token.carried phase handle ∈
        .carried .handled ⟨id, operation⟩ :: more.flatMap Todo.tokens) : phase = .handled := by
    rcases List.mem_cons.mp member with made | calls
    · cases made
      rfl
    · cases handleIoCompletion_tokens handled _ calls
  -- What is carried behind its handling was carried before it.
  have before (phase : Phase m) (handle : Handle m)
      (present : 0 < next.carries (.carried phase handle)) (other : phase ≠ .handled) :
      0 < state.carries (.carried phase handle) := by
    rcases carries_next total present with given | carried
    · exact absurd (still phase handle given) other
    · exact carried
  have silent : ∀ phase handle, Token.carried phase handle ∈
      .carried .handled ⟨id, operation⟩ :: more.flatMap Todo.tokens →
      Token.carried phase handle ∈ [.carried (.delivered result) ⟨id, operation⟩] ∨
        ∀ at_ fd, phase ≠ .completed at_ ∧ phase ≠ .delivered at_ ∧ phase ≠ .prepared fd ∧
          phase ≠ .submitted fd := by
    intro phase handle member
    refine .inr ?_
    rw [still phase handle member]
    simp
  obtain ⟨_, log, _, _, _, descriptors⟩ := handleIoCompletion_frame handled
  have plain := owning.plain settled move permitted total [.handled ⟨id, operation⟩ result]
    (by rw [same]; exact descriptors)
  cases operation with
  | accept session listenFd =>
    rcases handleIoCompletion_accept handled with
      ⟨failed, rfl⟩ | ⟨positive, accepted, actors, object, rfl⟩
    · refine plain (fun _ => by rw [same]; rfl) (by rw [same]; rfl) ?_ silent
      simp [Event.Owned, Event.connects, Event.performs, failed]
    · exact owning.connect settled delivered positive object same before fun session closed =>
        owning.stays_quiet settled move permitted total closed
  | _ =>
    have socketFd := handleIoCompletion_socketFd handled (by rintro ⟨⟩)
    refine plain (fun session => by rw [same]; exact socketFd session)
      (by rw [same]; exact congrArg (· ++ _) log) ?_ silent
    simp [Event.Owned, Event.connects, Event.performs, Operation.accepts]

/-- An entry that the kernel starts on keeps the ownership: a close gives up its own connection. -/
theorem Owning.start (owning : Owning state) (settled : Settled state) {at_ : Fin n} {i : Nat}
    (permitted : Quiet state (.start at_ i)) {entry : Entry m}
    (found : (state.worker at_).submitted[i]? = some entry)
    (move : Move config state (.start at_ i) [.carried (.submitted entry.fd) entry.handle]
      [.carried (.started (state.shared.descriptors entry.fd)) entry.handle] next.shared)
    (total : ∀ weight, next.total weight +
        tally weight [.carried (.submitted entry.fd) entry.handle] =
      state.total weight +
        tally weight [.carried (.started (state.shared.descriptors entry.fd)) entry.handle] ∧
      tally weight [.carried (.submitted entry.fd) entry.handle] ≤ state.total weight)
    (same : next.shared = (startEntry state.shared entry).1) : Owning next := by
  have submitted := carries_lost total (List.mem_singleton_self _)
  obtain ⟨⟨id, operation⟩, fd⟩ := entry
  cases operation with
  | close session =>
    refine owning.close settled submitted same ?_ fun other closed => ?_
    · intro phase handle present
      rcases carries_next total present with given | carried
      · cases List.mem_singleton.mp given
        exact .inl rfl
      · exact .inr carried
    · -- The kernel performs a close only where nothing is left pending.
      have nothing := permitted _ found rfl
      by_cases itself : other = session
      · subst itself
        obtain ⟨changed, within⟩ := total (Token.pending other)
        have none_ : tally (Token.pending other) [.carried
            (.started (state.shared.descriptors fd)) ⟨id, .close other⟩] = 0 := by
          simp [Token.pending, Phase.unprepared, Operation.kind]
        simp only [Operation.session] at nothing
        dsimp only at changed
        omega
      · refine owning.stays_quiet settled move permitted total ?_
        simpa [Shared.closed, same, startEntry, Shared.record, Shared.setDescriptor,
          Event.performs, Ne.symm itself] using closed
  | _ =>
    refine owning.plain settled move permitted total _ (by rw [same]; rfl)
      (fun _ => by rw [same]; rfl) (by rw [same]; rfl) ?_ (by simp)
    simp only [List.mem_singleton, forall_eq]
    exact ⟨owning.started settled _ submitted, by simp [Event.connects, Event.performs]⟩

/-- An operation that the kernel completes keeps the ownership: an accept opens a new connection. -/
theorem Owning.complete (owning : Owning state) (settled : Settled state) {at_ : Fin n} {i : Nat}
    {result : Int} {data : List Byte} (permitted : Quiet state (.complete at_ i result data))
    {started : Started m} {shared : Shared m ω}
    (found : (state.worker at_).started[i]? = some started)
    (move : Move config state (.complete at_ i result data)
      [.carried (.started started.connection) started.handle]
      [.carried (.completed result) started.handle] next.shared)
    (total : ∀ weight, next.total weight +
        tally weight [.carried (.started started.connection) started.handle] =
      state.total weight + tally weight [.carried (.completed result) started.handle] ∧
      tally weight [.carried (.started started.connection) started.handle] ≤ state.total weight)
    (done : completeStarted config state.shared started result data = some shared)
    (same : next.shared = shared.record [.completed started.handle result]) : Owning next := by
  obtain ⟨⟨id, operation⟩, connection⟩ := started
  have log : next.shared.log = state.shared.log ++ [.completed ⟨id, operation⟩ result] := by
    rw [same]
    exact congrArg (· ++ _) (completeStarted_frame done).2.1
  -- Whatever is no accept that succeeds comes with no descriptor of its own.
  have still (accepted : operation.accepts = none ∨ result < 0)
      (descriptors : shared.descriptors = state.shared.descriptors) : Owning next := by
    refine owning.aside settled move permitted total (by rw [same]; exact descriptors)
      (fun session => by rw [same]; exact completeStarted_socketFd done session) log
      (by simp [Event.connects]) (by simp [Event.performs]) (by simp [Event.Owned]) ?_ ?_
    · intro phase handle answer session member landed accepts positive
      cases List.mem_singleton.mp member
      have answered : result = answer := by
        rcases landed with landed | landed <;> cases landed
        rfl
      rcases accepted with none_ | failed
      · rw [none_] at accepts
        cases accepts
      · omega
    · intro phase handle fd member landed
      cases List.mem_singleton.mp member
      rcases landed with landed | landed <;> cases landed
  cases operation with
  | accept session listenFd =>
    rcases completeStarted_accept done with ⟨failed, rfl⟩ | ⟨positive, unused, rfl⟩
    · exact still (.inr failed) rfl
    · refine owning.open unused (permitted _ found rfl positive) same ?_ fun session closed =>
        owning.stays_quiet settled move permitted total closed
      intro phase handle present
      rcases carries_next total present with given | carried
      · cases List.mem_singleton.mp given
        exact .inl ⟨rfl, rfl⟩
      · exact .inr carried
  | _ =>
    refine still (.inl rfl) ?_
    cases completeStarted_completed done <;> rfl

/-- Every permitted step keeps the ownership of the descriptors. -/
theorem step_owning (owning : Owning state) (settled : Settled state)
    (permitted : Quiet state label) (taken : step config state label = some next) :
    Owning next := by
  obtain ⟨_, lost, gained, move, total⟩ := step_moved config taken
  have plain := owning.plain settled move permitted total
  have opened {handle : Handle m} (member : .carried .popped handle ∈ lost) :=
    owning.open_of_popped settled (carries_lost total member)
  have moved := move
  generalize same : next.shared = after at move
  have descriptors : next.shared.descriptors = after.descriptors :=
    congrArg Shared.descriptors same
  have socketFd (session : Fin m) : next.shared.socketFd session = after.socketFd session :=
    congrArg (Shared.socketFd · session) same
  have log : next.shared.log = after.log := congrArg Shared.log same
  cases move with
  | quiet | popSession | call | receive | addRef | route | decrement | releaseAtZero | nullEntry
  | divide =>
    exact plain [] descriptors socketFd (log.trans (List.append_nil _).symm) (by simp) (by simp)
  | useAfterRelease =>
    exact plain [] descriptors socketFd (log.trans (List.append_nil _).symm) (by simp)
      fun _ _ member => .inl member
  | refuse | acquire | turnAway | failPush | zero | giveBack =>
    exact plain _ descriptors socketFd log
      (by simp [Event.Owned, Event.connects, Event.performs]) (by simp)
  | @advance before after step handle =>
    refine owning.aside settled moved permitted total descriptors socketFd
      (log.trans (List.append_nil _).symm) (by simp) (by simp) (by simp) ?_ ?_
    · intro phase other result session member landed accepts positive
      cases List.mem_singleton.mp member
      cases step with
      | wait answer =>
        -- A wait hands the result on as it is.
        have same : answer = result := by
          rcases landed with landed | landed <;> cases landed
          rfl
        subst same
        exact owning.accepted _ _ answer session (carries_lost total (List.mem_singleton_self _))
          (.inl rfl) accepts positive
      | _ => rcases landed with landed | landed <;> cases landed
    · intro phase other fd member landed uses
      cases List.mem_singleton.mp member
      cases step <;> rcases landed with landed | landed <;> cases landed
  | @shutdown handle session close =>
    obtain ⟨open_, own, found, owner⟩ := opened (List.mem_singleton_self _) (by rw [close]; rfl)
    rw [close] at found owner
    refine plain _ descriptors socketFd log ?_ (by simp)
    simp only [List.mem_singleton, forall_eq]
    exact ⟨⟨own, found, by rw [close]; exact owner⟩, fun _ => ⟨rfl, rfl⟩⟩
  | prepare handle =>
    refine owning.aside settled moved permitted total descriptors socketFd log
      (by simp [Event.connects]) (by simp [Event.performs]) ?_ ?_ ?_
    · simp only [List.mem_singleton, forall_eq]
      intro kind
      have uses := accepts_eq_none.mpr kind
      rw [fd_eq_socketFd uses]
      exact (opened (List.mem_singleton_self _) uses).2
    · intro phase other result session member landed
      cases List.mem_singleton.mp member
      rcases landed with landed | landed <;> cases landed
    · intro phase other fd member landed uses
      cases List.mem_singleton.mp member
      have named : fd = handle.operation.fd state.shared := by
        rcases landed with landed | landed <;> cases landed
        rfl
      -- An operation in hand is one of an open session.
      rw [named, fd_eq_socketFd uses]
      refine ⟨rfl, fun closed => ?_⟩
      rw [(opened (List.mem_singleton_self _) uses).1] at closed
      cases closed
  | submit entries =>
    refine owning.aside settled moved permitted total descriptors socketFd log
      (by simp [Event.connects]) (by simp [Event.performs]) (by simp [Event.Owned]) ?_ ?_
    · intro phase other result session member landed
      obtain ⟨entry, present, made⟩ := List.mem_map.mp member
      cases made
      rcases landed with landed | landed <;> cases landed
    · intro phase other fd member landed uses
      obtain ⟨entry, present, made⟩ := List.mem_map.mp member
      cases made
      have names : entry.fd = fd := by
        rcases landed with landed | landed <;> cases landed
        rfl
      -- The entry names what it was prepared with.
      subst names
      exact owning.named _ _ entry.fd
        (carries_lost total (List.mem_map.mpr ⟨entry, present, rfl⟩)) (.inl rfl) uses
  | @handle _ _ done _ _ _ _ _ _ _ handled =>
    obtain ⟨id, operation⟩ := done
    exact owning.handle settled permitted moved total handled same
  | start cause found =>
    subst cause
    exact owning.start settled permitted found moved total same
  | complete cause found done =>
    subst cause
    exact owning.complete settled permitted found moved total done same

/-- In every run of permitted steps, the descriptors are owned by those who use them. -/
theorem run_owning {world : ω} {labels : List (Label n k ω)}
    (run : Run (step config) Quiet (State.init m n k config world) labels state) :
    Owning state ∧ Settled state := by
  refine run.invariant (P := fun state => Owning state ∧ Settled state) ⟨?_, init_settled config world⟩
    fun _ _ _ both permitted taken => ⟨step_owning both.1 both.2 permitted taken,
      step_settled both.2 taken⟩
  -- At the start nothing is carried, and nothing has been recorded.
  have nothing (token : Token m) : (State.init m n k config world).carries token = 0 :=
    init_total config world _
  refine ⟨by rintro session ⟨⟩, fun phase handle result session present => ?_,
    fun phase handle fd present => ?_, by rintro session ⟨⟩, by rintro event ⟨⟩⟩
  · rw [nothing] at present
    cases present
  · rw [nothing] at present
    cases present

/-- The kernel's table is as it should be in every run. -/
theorem run_table {world : ω} {guard : State m n k ω → Label n k ω → Prop}
    {labels : List (Label n k ω)}
    (run : Run (step config) guard (State.init m n k config world) labels state) :
    Table state.shared := by
  refine run.invariant (P := fun state => Table state.shared)
    ⟨by rintro fd connection ⟨⟩, by rintro first second connection ⟨⟩, by rintro event ⟨⟩,
      fun _ => Nat.zero_le _⟩ ?_
  -- An empty table is as it should be, and every move keeps it so.
  intro before label after table _ taken
  obtain ⟨_, _, _, move, _⟩ := step_moved config taken
  exact move.table table

/--
Every use of a descriptor is a use of the session's own connection.

What a session puts on a ring names a connection that it has accepted and that is still open, the
kernel works for it on no connection of another session, and every connection is closed once.
-/
theorem descriptors_owned {world : ω} {labels : List (Label n k ω)}
    (run : Run (step config) Quiet (State.init m n k config world) labels state) :
    (∀ event ∈ state.shared.log, event.Owned) ∧
      ∀ connection, (state.shared.log.countP fun event => event.closesConnection connection) ≤ 1 :=
  ⟨(run_owning run).1.owned, (run_table run).once⟩

/-- The recv of the first session fails, its connection is closed, and its number is reused. -/
def failAndReuse : List (Label 1 1 Unit) :=
  acceptOne ++ [.start 0 0, .complete 0 1 (-104) []] ++ work 2 ++ request (.worker 0) 0 ++
    work 10 ++ [.start 0 0, .complete 0 0 5 []] ++ work 2 ++ request (.worker 0) 0 ++
      [.run (.worker 0) none false] ++ work 8

/-- The second session receives on its own connection, which has the number of the first one. -/
theorem descriptors_owned_reused :
    ∃ state : State 2 1 1 Unit,
      ((∀ event ∈ state.shared.log, event.Owned) ∧ ∀ connection,
        (state.shared.log.countP fun event => event.closesConnection connection) ≤ 1) ∧
      state.shared.socketFd 0 = 5 ∧ state.shared.socketFd 1 = 5 ∧
      .started ⟨3, .close 0⟩ (some ⟨0, 0⟩) ∈ state.shared.log ∧
      .prepared ⟨4, .recv 1 ⟨0, 4096⟩⟩ (some ⟨1, 1⟩) ∈ state.shared.log := by
  -- The first session closes, and the next accept gets the descriptor that became free.
  have executed : (execWhile (step smallConfig) Quiet (State.init 2 1 1 smallConfig ())
      failAndReuse).any fun state =>
        state.shared.socketFd 0 = 5 ∧ state.shared.socketFd 1 = 5 ∧
          .started ⟨3, .close 0⟩ (some ⟨0, 0⟩) ∈ state.shared.log ∧
          .prepared ⟨4, .recv 1 ⟨0, 4096⟩⟩ (some ⟨1, 1⟩) ∈ state.shared.log := by decide +kernel
  obtain ⟨state, reached, events⟩ := (Option.any_eq_true _ _).mp executed
  exact ⟨state, descriptors_owned (.of_execWhile reached), of_decide_eq_true events⟩

/-- The first session is closed while its recv waits, and the end of the stream re-arms the recv. -/
def closeAndReceive : List (Label 1 1 Unit) :=
  acceptOne ++ [.start 0 0, .call 0 (.requestClose 0)] ++ request (.application 0) 0 ++ work 11 ++
    [.complete 0 1 0 []] ++ work 2 ++ request (.worker 0) 1 ++ [.start 0 0, .complete 0 0 5 []] ++
      work 5 ++ [.start 0 0]

/--
The recv that the first session re-arms is put on the connection of the second one.

Its close has been performed, the kernel gives the number to the connection that the second
session accepts, and the session still looks the number up when the recv is flushed.
-/
theorem descriptor_ownership_fails :
    ∃ (labels : List (Label 1 1 Unit)) (state : State 2 1 1 Unit),
      Run (step smallConfig) anyStep (State.init 2 1 1 smallConfig ()) labels state ∧
      .prepared ⟨4, .recv 0 ⟨0, 4096⟩⟩ (some ⟨1, 1⟩) ∈ state.shared.log ∧
      .started ⟨4, .recv 0 ⟨0, 4096⟩⟩ (some ⟨1, 1⟩) ∈ state.shared.log ∧
      ¬ ∀ event ∈ state.shared.log, event.Owned := by
  -- The receive of the first session is prepared after its descriptor was given away.
  have executed : (exec (step smallConfig) (State.init 2 1 1 smallConfig ())
      closeAndReceive).any fun state =>
        .prepared ⟨4, .recv 0 ⟨0, 4096⟩⟩ (some ⟨1, 1⟩) ∈ state.shared.log ∧
          .started ⟨4, .recv 0 ⟨0, 4096⟩⟩ (some ⟨1, 1⟩) ∈ state.shared.log := by decide +kernel
  obtain ⟨state, reached, events⟩ := (Option.any_eq_true _ _).mp executed
  have events := of_decide_eq_true events
  refine ⟨_, state, .of_exec reached, events.1, events.2, fun owned => ?_⟩
  -- It names the connection of the second session.
  obtain ⟨own, same, owner⟩ := owned _ events.1 (by rintro ⟨⟩)
  cases same
  exact absurd owner (by decide)

end Braid.Service
