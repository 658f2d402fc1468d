import Braid.Library.Transition
import Braid.Task.Progress
import Braid.Task.Tame
import Mathlib.Data.Fintype.Basic

/-! The destruction of serializers over one distributor and one slot per thread. -/

namespace Braid.Task

variable {ι σ τ : Type}

/-- The order in which `state_` is meant to change. -/
def SerializerState.rank : SerializerState → Nat
  | .running => 0
  | .destroying => 1
  | .destroyed => 2

/-- No queue entry names a serializer, and neither these calls nor these releases use it. -/
def Owned.Unused (state : Owned ι σ τ) (serializer : σ) (stack : ι → List (Frame σ τ))
    (final : ι → List (FinalRelease σ)) : Prop :=
  serializer ∉ state.base.shared.serializerQueue .taskDistributor ∧
    ∀ at_, (∀ frame ∈ stack at_, frame.uses ≠ some serializer) ∧
      ∀ release ∈ final at_, release.serializer ≠ serializer

/-- No thread has begun to delete a serializer. -/
def Owned.Spared (state : Owned ι σ τ) (serializer : σ) : Prop :=
  ∀ at_, (∀ frame ∈ (state.base.thread at_).stack, frame.condemns ≠ some serializer) ∧
    ∀ release ∈ state.final at_, release.serializer ≠ serializer

/-- The calls of every thread. -/
def Owned.stacks (state : Owned ι σ τ) (at_ : ι) : List (Frame σ τ) := (state.base.thread at_).stack

variable [DecidableEq ι]

/--
When the deletes, the stores and the calls of a step go right.

A call is made on a serializer that exists. The store of `DESTROYING` comes before `clear`. The
process loop finds no `ObjectPtr` to a serializer that is destroyed, and nobody makes one to a
serializer that is being deleted. Memory is given back when no queue entry and no other call uses
it.
-/
def Owned.Orderly (program : Program σ τ) (state : Owned ι σ τ) : OwnedLabel ι σ τ → Prop
  | .program (.run at_) =>
    match state.due at_ with
    | some serializer =>
      state.Unused serializer state.stacks (Function.update state.final at_ (state.final at_).tail)
    | none =>
      match (state.base.thread at_).stack with
      | .calls (call :: _) :: _ => state.base.shared.deleted (call.serializer program) = false
      | .destroyStore serializer :: _ => state.base.shared.state serializer ≠ .destroyed
      | .process .state locals :: _ =>
        state.base.shared.state locals.serializer = .destroyed →
          state.refCount locals.serializer = 0
      | .process .free locals :: rest =>
        state.Unused locals.serializer (Function.update state.stacks at_ rest) state.final
      | _ => True
  | .program _ => True
  | .copy _ serializer =>
    state.base.shared.deleted serializer = false ∧ state.Spared serializer
  | .drop _ _ => True

/-- What holds throughout while every step is orderly. -/
structure Owned.Intact (state : Owned ι σ τ) : Prop where
  free : state.base.shared.Free
  untouched : state.base.shared.fault ≠ some .usedAfterDelete
  tasks : state.base.shared.OwnTasks
  shape : ∀ at_, Shape ((state.base.thread at_).slot .taskDistributor) (state.base.thread at_).stack
  own : ∀ at_, ∀ frame ∈ (state.base.thread at_).stack, frame.Own
  quiet : ∀ serializer, state.base.shared.deleted serializer = true →
    state.Unused serializer state.stacks state.final
  dead : ∀ serializer, state.base.shared.deleted serializer = true → state.refCount serializer = 0
  condemned : ∀ at_, ∀ frame ∈ (state.base.thread at_).stack, ∀ serializer,
    frame.condemns = some serializer → state.refCount serializer = 0
  released : ∀ at_, ∀ release ∈ state.final at_, state.refCount release.serializer = 0
  forward : ∀ serializer,
    (.running :: state.stores serializer).Pairwise fun before after => before.rank ≤ after.rank
  latest : ∀ serializer, ∀ value ∈ .running :: state.stores serializer,
    value.rank ≤ (state.base.shared.state serializer).rank
  once : (state.deletions.map Deletion.serializer).Nodup
  recorded : ∀ deletion ∈ state.deletions,
    state.base.shared.deleted deletion.serializer = true ∧ deletion.refCount = 0

variable {program : Program σ τ} {state next : Owned ι σ τ}

omit [DecidableEq ι] in
/-- Everything is in order before any call. -/
theorem Owned.init_intact : (Owned.init ι σ τ).Intact where
  free := by simp [Shared.Free, Owned.init, State.init]
  untouched := by simp [Owned.init, State.init]
  tasks := by simp [Shared.OwnTasks, Owned.init, State.init]
  shape _ := .idle
  own := by simp [Owned.init, State.init]
  quiet := by simp [Owned.init, State.init]
  dead := by simp [Owned.init]
  condemned := by simp [Owned.init, State.init]
  released := by simp [Owned.init]
  forward := by simp [Owned.init]
  latest := by simp [Owned.init, SerializerState.rank]
  once := by simp [Owned.init]
  recorded := by simp [Owned.init]

omit [DecidableEq ι] in
/-- What a call is still going to use has not been deleted. -/
theorem Owned.Intact.used (intact : state.Intact) {at_ : ι} {frame : Frame σ τ}
    (member : frame ∈ (state.base.thread at_).stack) {serializer : σ}
    (uses : frame.uses = some serializer) : state.base.shared.deleted serializer = false := by
  by_contra gone
  -- A deleted serializer is used by no call, and this one uses it.
  have unused := intact.quiet serializer (by simpa using gone)
  exact (unused.2 at_).1 frame member uses

omit [DecidableEq ι] in
/-- A thread whose destructor has returned gives back what its last release names. -/
theorem Owned.due_eq_some {at_ : ι} {serializer : σ} (due : state.due at_ = some serializer) :
    ∃ release others, state.final at_ = release :: others ∧ release.serializer = serializer := by
  unfold Owned.due at due
  split at due
  · cases due
  · -- The last release is on top, and its destructor has returned.
    rename_i release others final
    split at due
    · exact ⟨release, others, final, Option.some.inj due⟩
    · cases due

variable [DecidableEq σ]

omit [DecidableEq ι] [DecidableEq σ] in
/-- The record of deletes stays in order when a serializer that exists is deleted unreferenced. -/
theorem Owned.Intact.delete (intact : state.Intact) {serializer : σ}
    (alive : state.base.shared.deleted serializer = false)
    (unreferenced : state.refCount serializer = 0) (deleted : σ → Bool)
    (gone : deleted serializer = true)
    (kept : ∀ other, state.base.shared.deleted other = true → deleted other = true) :
    let deletions := state.deletions ++ [⟨serializer, state.refCount serializer⟩]
    (deletions.map Deletion.serializer).Nodup ∧
      ∀ deletion ∈ deletions, deleted deletion.serializer = true ∧ deletion.refCount = 0 := by
  -- The new entry is put behind the old ones.
  constructor
  · rw [List.map_append, List.nodup_append]
    refine ⟨intact.once, by simp, ?_⟩
    rintro other before _ same rfl
    -- A serializer deleted before does not exist any more.
    obtain ⟨deletion, member, rfl⟩ := List.mem_map.mp before
    simp only [List.map_cons, List.map_nil, List.mem_singleton] at same
    have again := (intact.recorded deletion member).1
    rw [same, alive] at again
    cases again
  · intro deletion member
    rcases List.mem_append.mp member with before | new
    · have earlier := intact.recorded deletion before
      exact ⟨kept _ earlier.1, earlier.2⟩
    · obtain rfl := List.mem_singleton.mp new
      exact ⟨gone, unreferenced⟩

/-- The end of a last release keeps everything in order. -/
theorem Owned.Intact.freed (intact : state.Intact) {at_ : ι} {serializer : σ}
    (due : state.due at_ = some serializer)
    (unused : state.Unused serializer state.stacks
      (Function.update state.final at_ (state.final at_).tail)) :
    (state.free at_ serializer).Intact := by
  -- The release that is due is the last one that the thread has begun.
  obtain ⟨release, others, final, rfl⟩ := Owned.due_eq_some due
  have member : release ∈ state.final at_ := by rw [final]; exact List.mem_cons_self
  have alive : state.base.shared.deleted release.serializer = false := by
    by_contra gone
    have unused := intact.quiet release.serializer (by simpa using gone)
    exact (unused.2 at_).2 release member rfl
  -- One release is finished, and no other is begun.
  have fewer : ∀ other, ∀ left ∈ (Function.update state.final at_ (state.final at_).tail) other,
      left ∈ state.final other := by
    intro other left inside
    by_cases same : other = at_
    · subst same
      rw [Function.update_self] at inside
      exact List.mem_of_mem_tail inside
    · rwa [Function.update_of_ne same] at inside
  have gone : ∀ other, Function.update state.base.shared.deleted release.serializer true other =
      true ↔ other = release.serializer ∨ state.base.shared.deleted other = true := by
    intro other
    by_cases same : other = release.serializer
    · subst same; simp
    · simp [same]
  have recorded := intact.delete alive (intact.released at_ release member)
    (Function.update state.base.shared.deleted release.serializer true) (by simp)
    fun other before => (gone other).mpr (.inr before)
  exact
    { free := intact.free
      untouched := intact.untouched
      tasks := intact.tasks
      shape := intact.shape
      own := intact.own
      quiet := by
        intro other deleted
        -- The condition says it of the serializer deleted now, the invariant of those before.
        rcases (gone other).mp deleted with rfl | before
        · exact unused
        · have quiet := intact.quiet other before
          exact ⟨quiet.1, fun thread => ⟨(quiet.2 thread).1, fun left inside =>
            (quiet.2 thread).2 left (fewer thread left inside)⟩⟩
      dead := by
        intro other deleted
        rcases (gone other).mp deleted with rfl | before
        · exact intact.released at_ release member
        · exact intact.dead other before
      condemned := intact.condemned
      released := fun other left inside => intact.released other left (fewer other left inside)
      forward := intact.forward
      latest := intact.latest
      once := recorded.1
      recorded := recorded.2 }

/-- The step that gives memory back after the destructor has returned. -/
theorem frameStep_free (linked : program.linkage = oneCopy) {shared : Shared σ τ}
    {slot : SourceFile → Option σ} {rest : List (Frame σ τ)} {locals : ProcessLocals σ τ}
    (taken : slot .taskDistributor = some locals.serializer) :
    frameStep program shared ⟨slot, rest⟩ (.process .free locals) =
      ({ shared with deleted := Function.update shared.deleted locals.serializer true },
        ⟨slot, .process .exit locals :: rest⟩) := by
  simp [frameStep, linked, oneCopy, Frame.touched, taken, processStep]

omit [DecidableEq σ] in
/-- What a step of a thread stores moves `state_` forward, if `set_destroy` is before `clear`. -/
theorem Tame.forward {shared : Shared σ τ} {slot : Option σ} {frame : Frame σ τ}
    {rest : List (Frame σ τ)} {result : Shared σ τ × Thread σ τ}
    (tame : Tame program shared slot frame rest result)
    (before : ∀ serializer, frame = .destroyStore serializer →
      shared.state serializer ≠ .destroyed) (serializer : σ) :
    (shared.state serializer).rank ≤ (result.1.state serializer).rank := by
  -- Either nothing was stored, or `clear` stored the last state, or `set_destroy` stored its own.
  rcases tame.state serializer with same | ⟨-, ended | ⟨rfl, stored⟩⟩
  · rw [same]
  · rw [ended]
    cases shared.state serializer <;> simp [SerializerState.rank]
  · have earlier := before serializer rfl
    rw [stored]
    cases found : shared.state serializer with
    | destroyed => exact absurd found earlier
    | running | destroying => simp [SerializerState.rank]

omit [DecidableEq σ] in
/-- The serializer whose memory a call gives back is the one it is about to exit from. -/
theorem StackShape.frees {slot : Option σ} {frame : Frame σ τ} {rest : List (Frame σ τ)}
    {serializer : σ} (shape : Shape slot (frame :: rest))
    (frees : frame.frees slot = some serializer) :
    slot = some serializer ∧ ∃ locals, frame = .process .free locals ∧
      locals.serializer = serializer := by
  cases frame with
  | process point locals =>
    cases point with
    | free =>
      -- Inside of the loop, the slot names the serializer of the loop.
      have taken : slot = some locals.serializer := by simpa using shape.process.1
      have same : slot = some serializer := frees
      exact ⟨same, locals, rfl, Option.some.inj (taken ▸ same)⟩
    | _ => cases frees
  | _ => cases frees

/-- What the orderly step of a call may use, decide and store. -/
structure Owned.Permits (program : Program σ τ) (state : Owned ι σ τ) (at_ : ι) (frame : Frame σ τ)
    (rest : List (Frame σ τ)) : Prop where
  begins : ∀ serializer, Begins program state.base.shared serializer frame →
    state.base.shared.deleted serializer = false
  convicts : ∀ serializer, Convicts state.base.shared serializer frame →
    state.refCount serializer = 0
  stores : ∀ serializer, frame = .destroyStore serializer →
    state.base.shared.state serializer ≠ .destroyed
  frees : ∀ locals, frame = .process .free locals →
    state.Unused locals.serializer (Function.update state.stacks at_ rest) state.final

omit [DecidableEq σ] in
/-- An orderly step of a thread is permitted. -/
theorem Owned.Intact.permits (intact : state.Intact) {at_ : ι} {frame : Frame σ τ}
    {rest : List (Frame σ τ)} (stack : (state.base.thread at_).stack = frame :: rest)
    (due : state.due at_ = none) (orderly : state.Orderly program (.program (.run at_))) :
    state.Permits program at_ frame rest := by
  simp only [Owned.Orderly, due, stack] at orderly
  refine ⟨fun serializer begins => ?_, fun serializer convicts => ?_, ?_, ?_⟩
  · cases frame with
    | calls calls =>
      cases calls with
      | nil => cases begins
      | cons call calls =>
        obtain rfl : call.serializer program = serializer := begins
        exact orderly
    | poll distributor =>
      -- A serializer on the queue has not been deleted.
      by_contra gone
      exact (intact.quiet serializer (by simpa using gone)).1 begins
    | _ => cases begins
  · cases frame with
    | process point locals =>
      cases point with
      | state =>
        obtain ⟨rfl, ended⟩ := convicts
        exact orderly ended
      | _ => cases convicts
    | _ => cases convicts
  · rintro serializer rfl
    exact orderly
  · rintro locals rfl
    exact orderly

/-- Every permitted step of a thread keeps everything in order. -/
theorem Owned.Intact.ran (linked : program.linkage = oneCopy) (intact : state.Intact) {at_ : ι}
    {frame : Frame σ τ} {rest : List (Frame σ τ)}
    (stack : (state.base.thread at_).stack = frame :: rest)
    (permits : state.Permits program at_ frame rest) :
    let result := frameStep program state.base.shared
      ⟨(state.base.thread at_).slot, rest⟩ frame
    (state.record program (state.base.withThread at_ result.1 result.2) at_).Intact := by
  intro result
  -- The frame on top is one of the thread, so the invariant speaks about it.
  have top : frame ∈ (state.base.thread at_).stack := by rw [stack]; exact List.mem_cons_self
  have shape : Shape ((state.base.thread at_).slot .taskDistributor) (frame :: rest) :=
    stack ▸ intact.shape at_
  have steady : state.base.shared.Steady state.base.shared :=
    ⟨rfl, rfl, rfl, intact.tasks, intact.untouched⟩
  have tame : Tame program state.base.shared ((state.base.thread at_).slot .taskDistributor) frame
      rest result :=
    frameStep_tame linked shape (intact.own at_ frame top) steady fun _ uses => intact.used top uses
  obtain ⟨free, shape'⟩ : result.1.Free ∧ Shape (result.2.slot .taskDistributor) result.2.stack :=
    frameStep_oneCopy linked shape intact.free
  obtain ⟨new, left, follows⟩ := tame.stack
  have below : ∀ other ∈ rest, other ∈ (state.base.thread at_).stack := by
    intro other member
    rw [stack]
    exact List.mem_cons_of_mem _ member
  -- Every frame of the next state is an old one, or follows the one on top.
  have frames : ∀ (P : Frame σ τ → Prop),
      (∀ thread, ∀ other ∈ (state.base.thread thread).stack, P other) →
      (∀ next, Follows program state.base.shared frame next → P next) →
      ∀ thread, ∀ other ∈ ((state.base.withThread at_ result.1 result.2).thread thread).stack,
        P other := by
    intro P before after thread other member
    by_cases same : thread = at_
    · subst same
      rw [State.withThread_self, left] at member
      rcases List.mem_append.mp member with fresh | old
      · exact after other (follows other fresh)
      · exact before thread other (below other old)
    · rw [State.withThread_other same] at member
      exact before thread other member
  have forward := tame.forward permits.stores
  have recorded : (((state.record program (state.base.withThread at_ result.1 result.2)
        at_).deletions.map Deletion.serializer).Nodup ∧
      ∀ deletion ∈
        (state.record program (state.base.withThread at_ result.1 result.2) at_).deletions,
        result.1.deleted deletion.serializer = true ∧ deletion.refCount = 0) := by
    simp only [Owned.record, stack, List.head?_cons, Option.bind_some, linked, oneCopy]
    cases frees : frame.frees ((state.base.thread at_).slot .taskDistributor) with
    -- Nothing is deleted, so the record stays and what it names stays deleted.
    | none =>
      refine ⟨intact.once, fun deletion member => ?_⟩
      have earlier := intact.recorded deletion member
      exact ⟨(tame.deleted _).mpr (.inl earlier.1), earlier.2⟩
    -- The serializer was in use up to now, and was condemned with a count of zero.
    | some serializer =>
      obtain ⟨-, locals, rfl, rfl⟩ := shape.frees frees
      exact intact.delete (intact.used top rfl) (intact.condemned at_ _ top _ rfl) result.1.deleted
        ((tame.deleted _).mpr (.inr frees))
        fun other before => (tame.deleted other).mpr (.inl before)
  -- At most one value is stored, and it is the state after the step.
  have stores : ∀ serializer, (state.record program (state.base.withThread at_ result.1 result.2)
        at_).stores serializer = state.stores serializer ∨
      (state.record program (state.base.withThread at_ result.1 result.2) at_).stores serializer =
        state.stores serializer ++ [result.1.state serializer] := by
    intro serializer
    simp only [Owned.record, stack, List.head?_cons, Option.bind_some]
    cases frame.writes with
    | none => exact .inl rfl
    | some written =>
      by_cases same : serializer = written
      · subst same
        right
        simp [State.withThread_shared]
      · left
        simp [same]
  exact
    { free := free
      untouched := tame.fault
      tasks := tame.tasks
      shape := by
        intro thread
        by_cases same : thread = at_
        · subst same
          simpa [Owned.record] using shape'
        · simpa [Owned.record, State.withThread_other same] using intact.shape thread
      own := frames _ intact.own fun next follow => follow.own
      quiet := by
        intro serializer gone
        rcases (tame.deleted serializer).mp gone with before | now
        · -- What was deleted before is not used by the frame, so neither by what follows it.
          have unused := intact.quiet serializer before
          have unusedHere : frame.uses ≠ some serializer := (unused.2 at_).1 frame top
          refine ⟨fun member => ?_, fun thread => ⟨?_, (unused.2 thread).2⟩⟩
          · rcases tame.queue serializer member with earlier | uses
            · exact unused.1 earlier
            · exact unusedHere uses
          · refine frames _ (fun other => (unused.2 other).1) (fun next follow uses => ?_) thread
            rcases follow.uses serializer uses with same | begins
            · exact unusedHere same
            · have alive := permits.begins serializer begins
              rw [before] at alive
              cases alive
        · -- What is deleted now is used by no other call, and this one exits.
          obtain ⟨taken, locals, rfl, rfl⟩ := shape.frees now
          have unused := permits.frees locals rfl
          have exits : result = _ := frameStep_free linked taken
          refine ⟨?_, fun thread => ⟨?_, (unused.2 thread).2⟩⟩
          · show locals.serializer ∉ result.1.serializerQueue .taskDistributor
            rw [exits]
            exact unused.1
          · have others := (unused.2 thread).1
            simp only [Owned.stacks, Owned.record] at others ⊢
            by_cases same : thread = at_
            · subst same
              rw [Function.update_self] at others
              rw [State.withThread_self, exits]
              intro other member
              rcases List.mem_cons.mp member with rfl | old
              · simp [Frame.uses]
              · exact others other old
            · rw [Function.update_of_ne same] at others
              rw [State.withThread_other same]
              exact others
      dead := by
        intro serializer gone
        rcases (tame.deleted serializer).mp gone with before | now
        · exact intact.dead serializer before
        · obtain ⟨-, locals, rfl, rfl⟩ := shape.frees now
          exact intact.condemned at_ _ top _ rfl
      condemned := by
        refine frames _ intact.condemned fun next follow serializer condemns => ?_
        -- The loop decided before this step, or it decides now with a count of zero.
        rcases follow.condemns serializer condemns with before | now
        · exact intact.condemned at_ frame top serializer before
        · exact permits.convicts serializer now
      released := intact.released
      forward := by
        intro serializer
        -- A new value is no earlier than any value before it.
        rcases stores serializer with same | more
        · rw [same]; exact intact.forward serializer
        · rw [more, ← List.cons_append, List.pairwise_append]
          refine ⟨intact.forward serializer, by simp, ?_⟩
          intro value earlier last member
          rw [List.mem_singleton.mp member]
          exact (intact.latest serializer value earlier).trans (forward serializer)
      latest := by
        intro serializer value member
        show value.rank ≤ (result.1.state serializer).rank
        rcases stores serializer with same | more
        · rw [same] at member
          exact (intact.latest serializer value member).trans (forward serializer)
        · rw [more, ← List.cons_append] at member
          rcases List.mem_append.mp member with earlier | last
          · exact (intact.latest serializer value earlier).trans (forward serializer)
          · rw [List.mem_singleton.mp last]
      once := recorded.1
      recorded := recorded.2 }

omit [DecidableEq ι] [DecidableEq σ] in
/-- Counts may change as long as they stay zero for what is deleted or about to be. -/
theorem Owned.Intact.recount (intact : state.Intact) {refCount : σ → Nat}
    (kept : ∀ serializer, state.refCount serializer = 0 →
      (state.base.shared.deleted serializer = true ∨ ¬ state.Spared serializer) →
      refCount serializer = 0) : ({ state with refCount := refCount } : Owned ι σ τ).Intact :=
  { free := intact.free
    untouched := intact.untouched
    tasks := intact.tasks
    shape := intact.shape
    own := intact.own
    quiet := intact.quiet
    dead := fun serializer gone => kept serializer (intact.dead serializer gone) (.inl gone)
    condemned := fun at_ frame member serializer condemns =>
      kept serializer (intact.condemned at_ frame member serializer condemns)
        (.inr fun spared => (spared at_).1 frame member condemns)
    released := fun at_ release member =>
      kept _ (intact.released at_ release member)
        (.inr fun spared => (spared at_).2 release member rfl)
    forward := intact.forward
    latest := intact.latest
    once := intact.once
    recorded := intact.recorded }

omit [DecidableEq ι] in
/-- A copy of an `ObjectPtr` to a serializer that nobody deletes keeps everything in order. -/
theorem Owned.Intact.copied (intact : state.Intact) {serializer : σ}
    (alive : state.base.shared.deleted serializer = false) (spared : state.Spared serializer) :
    (state.copyStep serializer).Intact := by
  rw [Owned.copyStep, if_neg (by simp [alive])]
  apply intact.recount
  -- The count that goes up is that of a serializer that is not being deleted.
  -- What is ending keeps its count of zero, because it is another serializer.
  intro target none_ ending
  rw [Function.update_of_ne]
  · exact none_
  · rintro rfl
    rcases ending with gone | condemned
    · rw [alive] at gone; cases gone
    · exact condemned spared

omit [DecidableEq ι] [DecidableEq σ] in
/-- A thread between its calls can call the destructor of a serializer. -/
theorem Owned.Intact.called (intact : state.Intact) {at_ : ι} (between : state.between at_ = true)
    (serializer : σ) : Shape ((state.base.thread at_).slot .taskDistributor)
      (.clearEmpty serializer :: (state.base.thread at_).stack) := by
  have shape := intact.shape at_
  simp only [Owned.between, Bool.and_eq_true] at between
  -- Between its calls, a thread is outside of all of them or in a frame that waits.
  cases stack : (state.base.thread at_).stack with
  | nil =>
    rw [stack] at shape
    have outside : (state.base.thread at_).slot .taskDistributor = none := shape.slot
    rw [outside]
    exact .first trivial rfl
  | cons frame rest =>
    rw [stack] at shape between
    have waits : frame.waits = true := by
      cases frame with
      | calls | destroyStore => rfl
      | process point locals =>
        cases point with
        | running => rfl
        | _ => cases between.2
      | _ => cases between.2
    exact shape.push waits trivial (by simp) rfl

/-- A drop of an `ObjectPtr` keeps everything in order, also when its destructor is called. -/
theorem Owned.Intact.dropped (intact : state.Intact) {at_ : ι} {serializer : σ}
    (between : state.between at_ = true) (held : state.refCount serializer ≠ 0) :
    (state.dropStep at_ serializer).Intact := by
  -- Whatever is referred to has not been deleted.
  have alive : state.base.shared.deleted serializer = false := by
    by_contra gone
    exact held (intact.dead serializer (by simpa using gone))
  -- A count of zero stays zero, since the one that goes down is not zero.
  have fewer : ∀ target, state.refCount target = 0 → Function.update state.refCount serializer
      (state.refCount serializer - 1) target = 0 := by
    intro target none_
    rw [Function.update_of_ne (by rintro rfl; exact held none_)]
    exact none_
  simp only [Owned.dropStep, alive, Bool.false_eq_true, if_false]
  split
  · rename_i last
    -- The destructor is one more call, and the release is one more that is not finished.
    have eachCall : ∀ (P : Frame σ τ → Prop) (thread : ι), P (.clearEmpty serializer) →
        (∀ frame ∈ (state.base.thread thread).stack, P frame) →
        ∀ frame ∈ ((state.base.withThread at_ state.base.shared
          { state.base.thread at_ with stack := .clearEmpty serializer ::
            (state.base.thread at_).stack }).thread thread).stack, P frame := by
      intro P thread first before frame member
      by_cases same : thread = at_
      · subst same
        rw [State.withThread_self] at member
        rcases List.mem_cons.mp member with rfl | old
        · exact first
        · exact before frame old
      · rw [State.withThread_other same] at member
        exact before frame member
    have eachRelease : ∀ (P : FinalRelease σ → Prop) (thread : ι),
        P ⟨serializer, (state.base.thread at_).stack.length⟩ →
        (∀ release ∈ state.final thread, P release) →
        ∀ release ∈ Function.update state.final at_
          (⟨serializer, (state.base.thread at_).stack.length⟩ :: state.final at_) thread,
          P release := by
      intro P thread first before release member
      rcases Counting.mem_update_cons.mp member with old | ⟨rfl, rfl⟩
      · exact before release old
      · exact first
    exact
      { free := intact.free
        untouched := intact.untouched
        tasks := intact.tasks
        shape := by
          intro thread
          by_cases same : thread = at_
          · subst same
            simpa using intact.called between serializer
          · simpa [State.withThread_other same] using intact.shape thread
        own := fun thread => eachCall _ thread trivial (intact.own thread)
        quiet := by
          intro target gone
          have unused := intact.quiet target gone
          -- The destructor uses the serializer that is dropped, which still exists.
          have different : serializer ≠ target := by
            rintro rfl
            have before : state.base.shared.deleted serializer = true := gone
            rw [alive] at before
            cases before
          refine ⟨unused.1, fun thread => ⟨?_, ?_⟩⟩
          · exact eachCall _ thread (by simpa [Frame.uses] using different) (unused.2 thread).1
          · exact eachRelease _ thread different (unused.2 thread).2
        dead := fun target gone => fewer target (intact.dead target gone)
        condemned := by
          intro thread
          refine eachCall _ thread (fun target condemns => by cases condemns) ?_
          exact fun frame member target condemns =>
            fewer target (intact.condemned thread frame member target condemns)
        released := by
          intro thread
          refine eachRelease _ thread (by simp [last]) ?_
          exact fun release member => fewer _ (intact.released thread release member)
        forward := intact.forward
        latest := intact.latest
        once := intact.once
        recorded := intact.recorded }
  · exact intact.recount fun target none_ _ => fewer target none_

/-- A first call of a thread keeps everything in order. -/
theorem Owned.Intact.started (intact : state.Intact) {at_ : ι}
    (outside : (state.base.thread at_).stack = []) {frame : Frame σ τ} (own : frame.Own)
    (unused : frame.uses = none) (spares : frame.condemns = none) (other : frame.process? = none) :
    (state.record program (state.base.withThread at_ state.base.shared
      { state.base.thread at_ with stack := [frame] }) at_).Intact := by
  have record : state.record program (state.base.withThread at_ state.base.shared
      { state.base.thread at_ with stack := [frame] }) at_ =
      { state with base := (state.base.withThread at_ state.base.shared
          { state.base.thread at_ with stack := [frame] }) } := by
    simp [Owned.record, outside]
  -- A thread outside of every call has a free slot.
  have idle : (state.base.thread at_).slot .taskDistributor = none := by
    have shape := intact.shape at_
    rw [outside] at shape
    exact shape.slot
  have frames : ∀ (P : Frame σ τ → Prop) (thread : ι), P frame →
      (∀ other ∈ (state.base.thread thread).stack, P other) →
      ∀ other ∈ ((state.base.withThread at_ state.base.shared
        { state.base.thread at_ with stack := [frame] }).thread thread).stack, P other := by
    intro P thread first before other member
    by_cases same : thread = at_
    · subst same
      rw [State.withThread_self] at member
      rwa [List.mem_singleton.mp member]
    · rw [State.withThread_other same] at member
      exact before other member
  rw [record]
  exact
    { free := intact.free
      untouched := intact.untouched
      tasks := intact.tasks
      shape := by
        intro thread
        by_cases same : thread = at_
        · subst same
          simpa [idle] using StackShape.first trivial other
        · simpa [State.withThread_other same] using intact.shape thread
      own := fun thread => frames _ thread own (intact.own thread)
      quiet := by
        intro serializer gone
        have quiet := intact.quiet serializer gone
        refine ⟨quiet.1, fun thread => ⟨?_, (quiet.2 thread).2⟩⟩
        exact frames _ thread (by simp [unused]) (quiet.2 thread).1
      dead := intact.dead
      condemned := by
        intro thread
        refine frames _ thread (fun serializer condemns => ?_) (intact.condemned thread)
        rw [spares] at condemns
        cases condemns
      released := intact.released
      forward := intact.forward
      latest := intact.latest
      once := intact.once
      recorded := intact.recorded }

end Braid.Task
