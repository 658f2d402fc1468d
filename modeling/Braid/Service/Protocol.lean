import Braid.Service.AcceptFailures
import Braid.Service.Streams

/-! The protocol of a session: one accept, and then recvs one behind the other until one is lost. -/

namespace Braid.Service

open Counting Transition
open Memory (Slot)

variable {m n k : Nat} {ω : Type}

/-- What becomes of an accept or of a recv. -/
inductive Observation where
  | accepted (fd : Int)
  | received (bytes : Int)
  -- Completed with an error, refused by the pool, or dropped on its way to a request queue.
  | acceptLost
  | recvLost
  deriving DecidableEq

/-- What is observed of a session when an operation is handled. -/
def Operation.handledAs (session : Fin m) (result : Int) : Operation m → Option Observation
  | .accept other _ =>
    if other = session then some (if 0 ≤ result then .accepted result else .acceptLost) else none
  | .recv other _ =>
    if other = session then some (if 0 ≤ result then .received result else .recvLost) else none
  | _ => none

/-- What is observed of a session when an operation does not come to a request queue. -/
def Operation.lostAs (session : Fin m) : Operation m → Option Observation
  | .accept other _ => if other = session then some .acceptLost else none
  | .recv other _ => if other = session then some .recvLost else none
  | _ => none

/-- What is observed of a session in an event. -/
def Event.observation (session : Fin m) : Event m → Option Observation
  | .handled handle result => handle.operation.handledAs session result
  | .refused operation => operation.lostAs session
  | .dropped handle => handle.operation.lostAs session
  | _ => none

/-- What has been observed of a session so far. -/
def Shared.observations (shared : Shared m ω) (session : Fin m) : List Observation :=
  shared.log.filterMap (Event.observation session)

/-- How far a session has come. -/
inductive Stage where
  -- In the queue, or being accepted.
  | waiting
  | turnedAway
  -- With the descriptor of its connection, from which it receives, or receives no longer.
  | receiving (fd : Int)
  | silent (fd : Int)
  deriving DecidableEq

namespace Stage

/-- The protocol: what can be observed of a session at each stage. -/
def next : Stage → Observation → Option Stage
  | .waiting, .accepted fd => some (.receiving fd)
  | .waiting, .acceptLost => some .turnedAway
  | .receiving fd, .received _ => some (.receiving fd)
  | .receiving fd, .recvLost => some (.silent fd)
  | _, _ => none

/-- The places in the queue and the accepts that a session has. -/
def accepts : Stage → Nat
  | .waiting => 1
  | _ => 0

/-- The recvs that a session has on their way. -/
def recvs : Stage → Nat
  | .receiving _ => 1
  | _ => 0

/-- The descriptor of a session. -/
def fd : Stage → Int
  | .receiving fd => fd
  | .silent fd => fd
  | _ => -1

end Stage

/-- A session has come to a stage by the protocol, and has what belongs to the stage. -/
structure Obeys (state : State m n k ω) (session : Fin m) (stage : Stage) : Prop where
  followed : exec Stage.next .waiting (state.shared.observations session) = some stage
  accepting : state.shared.sessionsQueue.count session + state.total (Token.accepting session) =
    stage.accepts
  -- The next recv is missing only where the program stops instead of requesting it.
  receiving : state.total (Token.receiving session) ≤ stage.recvs
  received : state.shared.fault = none → state.total (Token.receiving session) = stage.recvs
  socketFd : state.shared.socketFd session = stage.fd

/-- The accept of a session has ended. -/
def Observation.endsAccept : Observation → Bool
  | .accepted _ => true
  | .acceptLost => true
  | _ => false

/-- The recvs that an observation begins and ends for good. -/
def Observation.begins : Observation → Nat
  | .accepted _ => 1
  | _ => 0

/-- The recvs that an observation ends, with none behind them. -/
def Observation.ends : Observation → Nat
  | .recvLost => 1
  | _ => 0

/-- The descriptor that a session is given. -/
def Observation.fd? : Observation → Option Int
  | .accepted fd => some fd
  | _ => none

variable {config : Config ω} {state following : State m n k ω} {label : Label n k ω}
  {lost gained : List (Token m)} {after : Shared m ω}

/-- The events that settle a session are those in which the end of its accept is observed. -/
theorem countP_observations (shared : Shared m ω) (session : Fin m) :
    (shared.observations session).countP Observation.endsAccept =
      shared.log.countP fun event => event.settles session := by
  -- An observation ends an accept where the operation is one for this session.
  have handled (operation : Operation m) (result : Int) :
      ((operation.handledAs session result).map Observation.endsAccept).getD false =
        decide (operation.accepts = some session) := by
    cases operation <;> simp only [Operation.handledAs, Operation.accepts] <;>
      grind [Observation.endsAccept]
  have lost (operation : Operation m) :
      ((operation.lostAs session).map Observation.endsAccept).getD false =
        decide (operation.accepts = some session) := by
    cases operation <;> simp only [Operation.lostAs, Operation.accepts] <;>
      grind [Observation.endsAccept]
  rw [Shared.observations, List.countP_filterMap]
  refine List.countP_congr fun event _ => ?_
  cases event <;> simp [Event.observation, Event.settles, handled, lost]

/-- What a step does to the recvs of a session, and what is observed of the session in it. -/
structure Observed (state : State m n k ω) (lost gained : List (Token m)) (after : Shared m ω)
    (session : Fin m) (seen : Option Observation) : Prop where
  observations : after.observations session =
    state.shared.observations session ++ seen.toList
  receiving : tally (Token.receiving session) gained + (seen.map Observation.ends).getD 0 ≤
    tally (Token.receiving session) lost + (seen.map Observation.begins).getD 0
  received : after.fault = none →
    tally (Token.receiving session) gained + (seen.map Observation.ends).getD 0 =
      tally (Token.receiving session) lost + (seen.map Observation.begins).getD 0
  present : ∀ bytes, seen = some (.received bytes) → 0 < tally (Token.receiving session) lost
  socketFd : after.socketFd session =
    (seen.bind Observation.fd?).getD (state.shared.socketFd session)

/-- A step behind which all recvs are there that should be. -/
theorem Observed.exactly {session : Fin m} {seen : Option Observation}
    (observations : after.observations session =
      state.shared.observations session ++ seen.toList)
    (received : tally (Token.receiving session) gained + (seen.map Observation.ends).getD 0 =
      tally (Token.receiving session) lost + (seen.map Observation.begins).getD 0)
    (present : ∀ bytes, seen = some (.received bytes) → 0 < tally (Token.receiving session) lost)
    (socketFd : after.socketFd session =
      (seen.bind Observation.fd?).getD (state.shared.socketFd session)) :
    Observed state lost gained after session seen :=
  ⟨observations, received.le, fun _ => received, present, socketFd⟩

/-- A step in which nothing is observed of a session leaves it with its recvs and its descriptor. -/
theorem Observed.nothing {session : Fin m} {events : List (Event m)}
    (log : after.log = state.shared.log ++ events)
    (silent : ∀ event ∈ events, event.observation session = none)
    (same : tally (Token.receiving session) gained = tally (Token.receiving session) lost)
    (socketFd : after.socketFd session = state.shared.socketFd session) :
    Observed state lost gained after session none := by
  refine .exactly ?_ (by simp [same]) (by simp) socketFd
  rw [Shared.observations, log, List.filterMap_append, List.filterMap_eq_nil_iff.mpr silent]
  rfl

/-- Of the operation that a step loses, its session sees the end. -/
theorem Observed.lose {session : Fin m} {operation : Operation m} {event : Event m}
    (log : after.log = state.shared.log ++ [event])
    (observed : event.observation session = operation.lostAs session)
    (one : tally (Token.receiving session) lost =
      if operation.Receives session then 1 else 0)
    (none_ : tally (Token.receiving session) gained = 0)
    (socketFd : after.socketFd session = state.shared.socketFd session) :
    Observed state lost gained after session (operation.lostAs session) := by
  -- An accept that is lost has no recv, and a lost recv was the only one.
  refine .exactly ?_ ?_ ?_ ?_
  · rw [Shared.observations, log, List.filterMap_append, Shared.observations]
    cases seen : operation.lostAs session <;> simp [observed, seen]
  · rw [one, none_]
    cases operation <;> grind [Operation.lostAs, Operation.Receives, Operation.kind,
      Operation.session, Observation.ends, Observation.begins]
  · cases operation <;> grind [Operation.lostAs]
  · rw [socketFd]
    cases operation <;> grind [Operation.lostAs, Observation.fd?]

/-- Handling the completion of one session leaves the others as they are. -/
theorem Handled.elsewhere {shared : Shared m ω} {operation : Operation m} {result : Int}
    {more : List (Todo m n)} (handled : Handled shared result operation after more)
    {session : Fin m} (other : operation.session ≠ session) :
    tally (Token.receiving session) (more.flatMap Todo.tokens) = 0 ∧
      after.socketFd session = shared.socketFd session := by
  -- The calls that follow an operation are for its own session.
  cases handled with
  | nothing calls => simp
  | @accepted owner listenFd accepted actors positive object made =>
    have different : owner ≠ session := other
    simp [Todo.tokens, Token.receiving, different, Shared.socketFd, Shared.setSession,
      Ne.symm different]
  | @received owner buffer object world calls positive socketFd =>
    have different : owner ≠ session := other
    simp [Todo.tokens, Token.receiving, different, Shared.socketFd, Shared.setSession,
      Ne.symm different]
  | stopped failure => simp [Shared.stop, Shared.socketFd]

/-- Of an operation that is handled, its session sees the result. -/
theorem handleIoCompletion_observed {shared : Shared m ω} {operation : Operation m} {result : Int}
    {more : List (Todo m n)} (id : Nat)
    (handled : handleIoCompletion config state.shared result operation = (shared, more))
    (session : Fin m) :
    Observed state [.carried (.delivered result) ⟨id, operation⟩]
      (.carried .handled ⟨id, operation⟩ :: more.flatMap Todo.tokens)
      (shared.record [.handled ⟨id, operation⟩ result]) session
      (operation.handledAs session result) := by
  have log : (shared.record [.handled ⟨id, operation⟩ result]).log =
      state.shared.log ++ [.handled ⟨id, operation⟩ result] := by
    simp [Shared.record, (handleIoCompletion_frame handled).2.1]
  have observations : (shared.record [.handled ⟨id, operation⟩ result]).observations session =
      state.shared.observations session ++ (operation.handledAs session result).toList := by
    rw [Shared.observations, log, List.filterMap_append, Shared.observations]
    cases seen : operation.handledAs session result <;> simp [Event.observation, seen]
  by_cases same : operation.session = session
  · subst same
    -- What is weighed on the two sides of the step.
    have weights : tally (Token.receiving operation.session)
          [.carried (.delivered result) ⟨id, operation⟩] =
            (if operation.kind = .recv then 1 else 0) ∧
        tally (Token.receiving operation.session)
          (.carried .handled ⟨id, operation⟩ :: more.flatMap Todo.tokens) =
            tally (Token.receiving operation.session) (more.flatMap Todo.tokens) := by
      simp [Token.receiving, Token.posted, Phase.outstanding, Operation.Receives]
    cases operation with
    | accept owner listenFd =>
      simp only [handleIoCompletion] at handled
      split at handled
      · -- `on_accept_failed` leaves the session as it is.
        rename_i failed
        cases handled
        simp only [Operation.handledAs, Operation.session, if_pos, if_neg (Int.not_le.mpr failed)]
          at observations weights ⊢
        refine .exactly observations ?_ (by simp) rfl
        rw [weights.1, weights.2]
        rfl
      · -- `on_accepted` sets the descriptor, and requests the first recv.
        rename_i positive
        have begins : more = [.receive owner, .acceptOne] ∧
            shared.socketFd owner = result := by
          split at handled <;> cases handled <;>
            simp [Shared.socketFd, Shared.setSession, IOUringObject.setSocketFd]
        obtain ⟨rfl, socketFd⟩ := begins
        simp only [Operation.handledAs, Operation.session, if_pos, if_pos (Int.not_lt.mp positive)]
          at observations weights ⊢
        refine .exactly observations ?_ (by simp) socketFd
        rw [weights.1, weights.2]
        simp [Todo.tokens, Token.receiving, Operation.kind, Observation.begins, Observation.ends]
    | recv owner buffer =>
      have socketFd := handleIoCompletion_socketFd handled (by simp [Operation.kind]) owner
      simp only [handleIoCompletion] at handled
      split at handled
      · -- `on_receive_failed` asks for a close, and no recv is requested.
        rename_i failed
        cases handled
        simp only [Operation.handledAs, Operation.session, if_pos, if_neg (Int.not_le.mpr failed)]
          at observations weights ⊢
        refine .exactly observations ?_ (by simp) rfl
        rw [weights.1, weights.2]
        cases (state.shared.sessions owner).mainActor <;>
          simp [Todo.tokens, Operation.kind, Observation.begins, Observation.ends]
      · rename_i positive
        simp only [Operation.handledAs, Operation.session, if_pos, if_pos (Int.not_lt.mp positive)]
          at observations weights ⊢
        split at handled
        · -- The program stops in front of the next recv.
          cases handled
          refine ⟨observations, ?_, (fun running => by cases running), ?_, socketFd⟩
          · rw [weights.1, weights.2]
            simp [Observation.ends]
          · intro _ _
            rw [weights.1]
            exact Nat.one_pos
        · cases handled
          refine .exactly observations ?_ ?_ socketFd
          · rw [weights.1, weights.2]
            simp [Todo.tokens, Token.receiving, Operation.kind, Observation.begins, Observation.ends]
          · intro _ _
            rw [weights.1]
            exact Nat.one_pos
    | sendBuffer owner sendBuffer =>
      cases handled
      exact .nothing log (by simp [Event.observation, Operation.handledAs])
        (by rw [weights.1, weights.2]; simp [Operation.kind]) rfl
    | close owner =>
      cases handled
      exact .nothing log (by simp [Event.observation, Operation.handledAs])
        (by rw [weights.1, weights.2]; simp [Operation.kind]) rfl
  · -- What is handled is of another session.
    obtain ⟨none_, socketFd⟩ := (handleIoCompletion_handled handled).elsewhere same
    have seen : operation.handledAs session result = none := by
      cases operation <;> simp_all [Operation.handledAs, Operation.session]
    have foreign : ¬ operation.Receives session := fun receives => same receives.2
    rw [seen]
    refine .nothing log (by simp [Event.observation, seen]) ?_ socketFd
    simp [Token.receiving, Token.posted, Phase.outstanding, none_, foreign]

/-- Every step is observed in this way, for every session. -/
theorem Move.observed (move : Move config state label lost gained after) (session : Fin m) :
    ∃ seen, Observed state lost gained after session seen := by
  -- Three moves lose an operation, one handles a completion, and the others are not seen.
  cases move with
  | @refuse context fails operation rest cause head =>
    exact ⟨_, .lose rfl rfl (by simp [Token.receiving, Token.posted]) rfl rfl⟩
  | @turnAway context slot fails handle rest cause head workers outside =>
    exact ⟨_, .lose rfl rfl (by simp [Token.receiving, Token.posted, Phase.outstanding]) rfl rfl⟩
  | @failPush context slot handle worker rest cause head =>
    exact ⟨_, .lose rfl rfl (by simp [Token.receiving, Token.posted, Phase.outstanding]) rfl rfl⟩
  | @handle _ _ moved result _ _ _ _ shared more handled =>
    exact ⟨_, handleIoCompletion_observed moved.id handled session⟩
  | start cause found =>
    rw [startEntry_frame]
    exact ⟨none, .nothing rfl (by simp [Event.observation])
      (by simp [Token.receiving, Token.posted, Phase.outstanding]) rfl⟩
  | @complete _ _ result _ started shared cause found done =>
    have log : (shared.record [.completed started.handle result]).log =
        state.shared.log ++ [.completed started.handle result] := by
      simp [Shared.record, (completeStarted_frame done).2.1]
    exact ⟨none, .nothing log (by simp [Event.observation])
      (by simp [Token.receiving, Token.posted, Phase.outstanding])
      (completeStarted_socketFd done session)⟩
  | submit entries =>
    exact ⟨none, .nothing rfl (by simp [Event.observation])
      (by simp [Token.receiving, Token.posted, Phase.outstanding]) rfl⟩
  | acquire free =>
    exact ⟨none, .nothing rfl (by simp [Event.observation])
      (by simp [Token.receiving, Token.posted, Phase.outstanding]) rfl⟩
  | shutdown close =>
    exact ⟨none, .nothing rfl (by simp [Event.observation])
      (by simp [Token.receiving, Token.posted, Phase.outstanding]) rfl⟩
  | prepare handle =>
    exact ⟨none, .nothing rfl (by simp [Event.observation])
      (by simp [Token.receiving, Token.posted, Phase.outstanding]) rfl⟩
  | zero found last =>
    exact ⟨none, .nothing rfl (by simp [Event.observation])
      (by simp [Token.receiving, Token.posted, Phase.outstanding]) rfl⟩
  | giveBack found =>
    exact ⟨none, .nothing rfl (by simp [Event.observation])
      (by simp [Token.receiving, Token.posted, Phase.outstanding]) rfl⟩
  | @call context slot fails call rest other cause head behind =>
    refine ⟨none, .nothing (List.append_nil _).symm (by simp) ?_ rfl⟩
    cases call <;> simp [Token.receiving, Token.posted, Operation.Receives, Operation.kind,
      ActorCall.operation]
  | advance plain handle =>
    refine ⟨none, .nothing (List.append_nil _).symm (by simp) ?_ rfl⟩
    cases plain <;> simp [Token.receiving, Token.posted, Phase.outstanding]
  | receive other span =>
    refine ⟨none, .nothing (List.append_nil _).symm (by simp) ?_ rfl⟩
    simp [Token.receiving, Token.posted, Operation.Receives, Operation.kind, Operation.session]
  | popSession queue =>
    refine ⟨none, .nothing (List.append_nil _).symm (by simp) ?_ rfl⟩
    simp [Token.receiving, Token.posted, Operation.Receives, Operation.kind]
  | _ =>
    exact ⟨none, .nothing (List.append_nil _).symm (by simp)
      (by simp [Token.receiving, Token.posted, Phase.outstanding]) rfl⟩

/-- A stage that is reached by an observation has what the observation leaves. -/
theorem Stage.next_spec {stage next : Stage} {observation : Observation}
    (reached : stage.next observation = some next) :
    next.accepts + (if observation.endsAccept then 1 else 0) = stage.accepts ∧
      next.recvs + observation.ends = stage.recvs + observation.begins ∧
      next.fd = observation.fd?.getD stage.fd := by
  -- There are four ways from one stage to the next.
  cases stage <;> cases observation <;> cases reached <;> exact ⟨rfl, rfl, rfl⟩

/-- The protocol allows the end of an accept or of a recv at every stage that has one. -/
theorem Stage.exists_next {stage : Stage} {observation : Observation}
    (accepting : observation.endsAccept → 0 < stage.accepts)
    (receiving : observation.endsAccept = false → 0 < stage.recvs) :
    ∃ next, stage.next observation = some next := by
  cases stage <;> cases observation <;>
    simp_all [Stage.next, Stage.accepts, Stage.recvs, Observation.endsAccept]

/-- Every step takes a session to a stage that the protocol allows behind the one before. -/
theorem Obeys.step {session : Fin m} {stage : Stage} (obeys : Obeys state session stage)
    (taken : step config state label = some following) :
    ∃ stage, Obeys following session stage := by
  obtain ⟨running, lost, gained, move, total⟩ := step_moved config taken
  obtain ⟨seen, observed⟩ := move.observed session
  obtain ⟨accepts, -⟩ := total (Token.accepting session)
  obtain ⟨receives, within⟩ := total (Token.receiving session)
  -- The account of the accepts is that of `settles`, seen through the observations.
  have balance := move.balance session
  rw [← countP_observations, ← countP_observations, observed.observations, List.countP_append]
    at balance
  have accepting := obeys.accepting
  have receiving := obeys.received running
  have fewer := observed.receiving
  have exactly := observed.received
  have socketFd := observed.socketFd
  have followed := observed.observations
  rw [obeys.socketFd] at socketFd
  cases seen with
  | none =>
    simp only [Option.toList_none, List.countP_nil, Option.map_none, Option.getD_none,
      Nat.add_zero, List.append_nil] at balance fewer exactly followed
    refine ⟨stage, by rw [followed, obeys.followed], by omega, by omega, fun goes => ?_, socketFd⟩
    have := exactly goes
    omega
  | some observation =>
    simp only [Option.toList_some, List.countP_singleton, Option.map_some, Option.getD_some,
      Option.bind_some] at balance fewer exactly socketFd followed
    -- What is observed ends an accept or a recv, which the session has at its stage.
    obtain ⟨next, reached⟩ : ∃ next, stage.next observation = some next := by
      refine Stage.exists_next (fun ends => ?_) fun other => ?_
      · rw [if_pos ends] at balance
        omega
      · have present : 0 < tally (Token.receiving session) lost := by
          cases observation with
          | received bytes => exact observed.present bytes rfl
          | recvLost =>
            simp only [Observation.ends, Observation.begins] at fewer
            omega
          | _ => cases other
        omega
    obtain ⟨nextAccepts, nextRecvs, nextFd⟩ := Stage.next_spec reached
    refine ⟨next, ?_, by omega, by omega, fun goes => ?_, socketFd.trans nextFd.symm⟩
    · rw [followed, exec_append, obeys.followed, Option.bind_some, exec, reached]
      rfl
    · have := exactly goes
      omega

/-- Along the protocol, an accept that ends is one that the first stage has had. -/
theorem Stage.countP_endsAccept {observations : List Observation} {start finish : Stage}
    (followed : exec Stage.next start observations = some finish) :
    observations.countP Observation.endsAccept + finish.accepts = start.accepts := by
  -- The induction is on the observations, for every stage that they begin at.
  induction observations generalizing start with
  | nil =>
    cases followed
    exact Nat.zero_add _
  | cons observation rest ih =>
    obtain ⟨next, reached, remaining⟩ := Option.bind_eq_some_iff.mp followed
    obtain ⟨accepts, -⟩ := Stage.next_spec reached
    have := ih remaining
    rw [List.countP_cons]
    omega

/-- Sessions that obey the protocol are accepted once at most, so there are not more accepts. -/
theorem accepts_le (obeys : ∀ session, ∃ stage, Obeys state session stage) :
    state.shared.log.countP Event.accepts ≤ m := by
  -- No session ends a second accept.
  have once (session : Fin m) :
      (state.shared.log.countP fun event => event.settles session) ≤ 1 := by
    obtain ⟨stage, obeys⟩ := obeys session
    have counted := Stage.countP_endsAccept obeys.followed
    rw [countP_observations] at counted
    simp only [Stage.accepts] at counted
    omega
  calc state.shared.log.countP Event.accepts
      ≤ state.shared.log.countP Event.endsAccept := by
        refine List.countP_mono_left fun event _ accepted => ?_
        cases event <;> simp_all [Event.accepts, Event.endsAccept]
    _ = ∑ session, (state.shared.log.countP fun event => event.settles session) :=
        (sum_settles _).symm
    _ ≤ ∑ _session : Fin m, 1 := Finset.sum_le_sum fun session _ => once session
    _ = m := by simp

/-- When the service starts, every session waits for its accept. -/
theorem init_obeys (config : Config ω) (world : ω) (session : Fin m) :
    Obeys (State.init m n k config world) session .waiting where
  followed := rfl
  accepting := (init_settled config world).balance session
  receiving := by rw [init_total]; exact Nat.zero_le _
  received _ := init_total config world _
  socketFd := rfl

/--
Every session follows its protocol in every run.

It is accepted once, or turned away for good; then it has exactly one recv on its way, again and
again, until one fails or is lost; and then there is none any more. Its descriptor is the one that
it was accepted with. So there are at most as many connections in a whole run as there are sessions.
-/
theorem sessions_obey {world : ω} {labels : List (Label n k ω)}
    (run : Run (step config) anyStep (State.init m n k config world) labels state) :
    (∀ session, ∃ stage, Obeys state session stage) ∧
      state.shared.log.countP Event.accepts ≤ m := by
  have obeys (session : Fin m) : ∃ stage, Obeys state session stage := by
    -- The stage changes along the run, and so the induction finds one in each state.
    induction run with
    | refl => exact ⟨.waiting, init_obeys config world session⟩
    | snoc _ _ taken ih =>
      obtain ⟨stage, obeys⟩ := ih
      exact obeys.step taken
  exact ⟨obeys, accepts_le obeys⟩

/-- A session that is accepted and receives twice, beside one that still waits. -/
theorem sessions_obey_twice :
    ∃ state : State 2 1 1 Unit,
      ((∀ session, ∃ stage, Obeys state session stage) ∧
        state.shared.log.countP Event.accepts ≤ 2) ∧
      state.shared.observations 0 = [.accepted 5, .received 5, .received 9] ∧
      state.shared.observations 1 = [] := by
  have executed : (exec (step patientConfig) (State.init 2 1 1 patientConfig ())
      receiveTwice).any fun state =>
        state.shared.observations 0 = [.accepted 5, .received 5, .received 9] ∧
          state.shared.observations 1 = [] := by decide +kernel
  obtain ⟨state, reached, values⟩ := (Option.any_eq_true _ _).mp executed
  exact ⟨state, sessions_obey (.of_exec reached), of_decide_eq_true values⟩

end Braid.Service
