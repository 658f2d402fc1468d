import Braid.Task.Calm

/-! Steps of a calm state, over all threads. -/

namespace Braid.Task

variable {ι σ τ : Type} {program : Program σ τ} {state next : State ι σ τ} {label : Label ι σ τ}

/-- Every label but an outside call of `set_destroy`. -/
def Label.harmless : Label ι σ τ → Bool
  | .call _ outer => outer.harmless
  | _ => true

/-- A thread outside of every call has a free slot. -/
theorem State.Calm.free (calm : state.Calm) {at_ : ι} (outside : (state.thread at_).stack = []) :
    (state.thread at_).slot .taskDistributor = none := by
  have shape := (calm.threads at_).slot
  simpa [outside, SlotMatches] using shape

/-- The program starts in a calm state. -/
theorem State.init_calm : (State.init ι σ τ).Calm where
  shared := ⟨rfl, fun _ => rfl, fun _ => rfl, by simp [State.init]⟩
  threads := fun _ => .idle

variable [DecidableEq ι]

/-- The thread that was replaced. -/
@[simp] theorem State.withThread_self (at_ : ι) (shared : Shared σ τ) (thread : Thread σ τ) :
    (state.withThread at_ shared thread).thread at_ = thread := Function.update_self ..

/-- The other threads. -/
theorem State.withThread_other {at_ other : ι} (different : other ≠ at_) (shared : Shared σ τ)
    (thread : Thread σ τ) : (state.withThread at_ shared thread).thread other = state.thread other :=
  Function.update_of_ne different ..

/-- The shared part of a state in which a thread was replaced. -/
@[simp] theorem State.withThread_shared (at_ : ι) (shared : Shared σ τ) (thread : Thread σ τ) :
    (state.withThread at_ shared thread).shared = shared := rfl

/-- A state is calm when its shared part and each of its threads are. -/
theorem State.Calm.withThread (calm : state.Calm) {at_ : ι} {shared' : Shared σ τ}
    {thread : Thread σ τ} (sharedCalm : shared'.Calm)
    (stackCalm : CalmStack (thread.slot .taskDistributor) thread.stack) :
    (state.withThread at_ shared' thread).Calm where
  shared := sharedCalm
  threads := by
    intro other
    -- Only the stack of one thread is new.
    by_cases same : other = at_
    · subst same; simpa using stackCalm
    · rw [State.withThread_other same]; exact calm.threads other

variable [DecidableEq σ]

/-- What a step does to a calm state: a thread makes a call, moves, or the log level changes. -/
inductive Progress (program : Program σ τ) (state : State ι σ τ) :
    Label ι σ τ → State ι σ τ → Prop
  | call {at_ outer} (outside : (state.thread at_).stack = []) (allowed : outer.harmless = true) :
    Progress program state (.call at_ outer)
      (state.withThread at_ state.shared { state.thread at_ with stack := [.calls [outer]] })
  | poll {at_} (outside : (state.thread at_).stack = []) :
    Progress program state (.poll at_)
      (state.withThread at_ state.shared { state.thread at_ with stack := [.poll .taskDistributor] })
  | run {at_ shared' thread'}
    (move : Move program state.shared ((state.thread at_).slot .taskDistributor)
      (state.thread at_).stack shared' (thread'.slot .taskDistributor) thread'.stack) :
    Progress program state (.run at_) (state.withThread at_ shared' thread')
  | setMinLevel {level} : Progress program state (.setMinLevel level)
      { state with shared := { state.shared with minLevel := level } }

/-- Every step of a calm state is one of those. -/
theorem step_progress (linked : program.linkage = oneCopy) (calm : state.Calm)
    (allowed : label.harmless = true) (taken : step program state label = some next) :
    Progress program state label next := by
  have noFault := calm.shared.noFault
  unfold step at taken
  rw [if_neg (by simp [noFault])] at taken
  cases label with
  -- A call and a poll begin only where the thread is in no call.
  | call at_ outer =>
    cases outside : (state.thread at_).stack with
    | nil => simp only [outside, Option.some.injEq] at taken; exact taken ▸ .call outside allowed
    | cons frame rest => simp [outside] at taken
  | poll at_ =>
    cases outside : (state.thread at_).stack with
    | nil =>
      simp only [outside, linked, oneCopy, Option.some.injEq] at taken
      exact taken ▸ .poll outside
    | cons frame rest => simp [outside] at taken
  | run at_ =>
    have shape := calm.threads at_
    cases inside : (state.thread at_).stack with
    | nil => simp [inside] at taken
    | cons frame rest =>
      simp only [inside, Option.some.injEq] at taken
      rw [inside] at shape
      -- The step of a thread is that of the frame on top.
      have move := frameStep_move linked calm.shared shape
      exact taken ▸ .run (by rw [inside]; exact move)
  | setMinLevel level => exact Option.some.inj taken ▸ .setMinLevel

/-- Every step keeps a calm state calm. -/
theorem Progress.calm (harmless : program.Harmless) (progress : Progress program state label next)
    (calm : state.Calm) : next.Calm := by
  cases progress with
  | call outside allowed =>
    refine calm.withThread calm.shared ?_
    -- A thread between its calls has a free slot, and its first call waits for nothing.
    simp only [calm.free outside]
    exact .first (by simpa [Frame.Calm] using allowed) rfl
  | poll outside =>
    refine calm.withThread calm.shared ?_
    simp only [calm.free outside]
    exact .first (show _ = _ from rfl) rfl
  | run move =>
    obtain ⟨sharedCalm, stackCalm⟩ := move.calm harmless calm.shared (calm.threads _)
    exact calm.withThread sharedCalm stackCalm
  | setMinLevel => exact ⟨calm.shared.congr rfl rfl rfl rfl, calm.threads⟩

end Braid.Task
