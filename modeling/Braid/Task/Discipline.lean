import Braid.Task.Destruction
import Braid.Task.Holders

/-! Calls and schedules under which serializers are destroyed as they should be. -/

namespace Braid.Task

open Counting Transition

variable {ι σ τ : Type}

/-- The end of a serializer has begun: its `clear` was popped, or its last `ObjectPtr` dropped. -/
def Owned.Ending (state : Owned ι σ τ) (serializer : σ) : Prop :=
  state.base.shared.deleted serializer = true ∨ state.base.shared.state serializer = .destroyed ∨
    ∃ at_, (∃ frame ∈ (state.base.thread at_).stack, frame.ends = some serializer) ∨
      ∃ release ∈ state.final at_, release.serializer = serializer

variable [DecidableEq σ]

/-- The calls and the last drops of a thread that are still going to use a serializer. -/
def Owned.held (state : Owned ι σ τ) (serializer : σ) (at_ : ι) : Nat :=
  tally (Frame.holds serializer) (state.base.thread at_).stack +
    (state.final at_).countP fun release => release.serializer = serializer

/-- The calls, last drops and entries of the queue that are still going to use a serializer. -/
def Owned.holders [Fintype ι] (state : Owned ι σ τ) (serializer : σ) : Nat :=
  ∑ at_, state.held serializer at_ +
    (state.base.shared.serializerQueue .taskDistributor).count serializer

/--
How serializers may be used while they are destroyed.

The loop that pops the task for `clear` is the only one that is still going to use the serializer.
No other call is on it, `set_destroy` and its store included, no entry of the queue names it, and
no `ObjectPtr` refers to it. The last `ObjectPtr` is dropped when nobody is going to use the
serializer any more. After either, nobody makes a call on it or copies an `ObjectPtr` to it. The
count of the `ObjectPtr`s fits into its `int`.
-/
def Owned.Disciplined [Fintype ι] (program : Program σ τ) (state : Owned ι σ τ) :
    OwnedLabel ι σ τ → Prop
  | .program (.run at_) =>
    match state.due at_, (state.base.thread at_).stack with
    | none, .calls (call :: _) :: _ => ¬ state.Ending (call.serializer program)
    | none, .process .pop locals :: _ =>
      (∃ task ∈ (state.base.shared.taskQueue locals.serializer).head?,
        task.func.cleared = some locals.serializer) →
          state.holders locals.serializer = 1 ∧ state.refCount locals.serializer = 0
    | _, _ => True
  | .program _ => True
  | .copy _ serializer => ¬ state.Ending serializer ∧ state.refCount serializer + 1 < 2 ^ 31
  | .drop _ serializer => state.refCount serializer = 1 → state.holders serializer = 0

section Decide

variable [Fintype ι]

instance (state : Owned ι σ τ) (serializer : σ) : Decidable (state.Ending serializer) :=
  inferInstanceAs (Decidable (_ ∨ _ ∨ _))

instance (program : Program σ τ) (state : Owned ι σ τ) (label : OwnedLabel ι σ τ) :
    Decidable (state.Disciplined program label) := by
  unfold Owned.Disciplined
  split
  · split <;> infer_instance
  all_goals infer_instance

end Decide

/-- One call or last drop is going to use a serializer, and no `ObjectPtr` or store is left. -/
structure Owned.Alone [Fintype ι] (state : Owned ι σ τ) (serializer : σ) : Prop where
  sole : state.holders serializer ≤ 1
  unreferenced : state.refCount serializer = 0
  stored : ∀ at_, ∀ frame ∈ (state.base.thread at_).stack, frame.stores ≠ some serializer

/-- What holds throughout while every step is disciplined. -/
structure Owned.Settled [Fintype ι] (state : Owned ι σ τ) : Prop where
  intact : state.Intact
  ending : ∀ serializer, state.Ending serializer → state.Alone serializer
  condemned : ∀ at_, ∀ frame ∈ (state.base.thread at_).stack, ∀ serializer,
    frame.condemns = some serializer → state.base.shared.state serializer = .destroyed
  -- A `clear` is run by a loop that waits below it, or by the last drop of an `ObjectPtr`.
  clearing : ∀ at_ serializer, topClears (state.base.thread at_).stack = some serializer →
    (∃ frame ∈ (state.base.thread at_).stack, frame.holds serializer = 1) ∨
      ∃ release others, state.final at_ = release :: others ∧ release.serializer = serializer ∧
        release.height + 1 = (state.base.thread at_).stack.length

variable [Fintype ι] {program : Program σ τ} {state next : Owned ι σ τ} {serializer : σ}

/-- Nothing has ended before any call. -/
theorem Owned.init_settled : (Owned.init ι σ τ).Settled where
  intact := Owned.init_intact
  ending := by simp [Owned.Ending, Owned.init, State.init]
  condemned := by simp [Owned.init, State.init]
  clearing := by simp [Owned.init, State.init, topClears]

omit [Fintype ι] in
/-- What a thread holds is a total over its calls and its last drops. -/
theorem Owned.held_eq_zero {at_ : ι} : state.held serializer at_ = 0 ↔
    (∀ frame ∈ (state.base.thread at_).stack, frame.holds serializer = 0) ∧
      ∀ release ∈ state.final at_, release.serializer ≠ serializer := by
  simp [Owned.held, tally_eq_zero, List.countP_eq_zero]

/-- A thread that holds a serializer with at most one holder is its only holder. -/
theorem Owned.held_alone [DecidableEq ι] (sole : state.holders serializer ≤ 1) (at_ : ι)
    (holds : 1 ≤ state.held serializer at_) :
    serializer ∉ state.base.shared.serializerQueue .taskDistributor ∧
      state.held serializer at_ = 1 ∧ ∀ other, other ≠ at_ → state.held serializer other = 0 := by
  unfold Owned.holders at sole
  -- The one holder that there may be is found in the sum over the threads.
  have own := Finset.single_le_sum (f := state.held serializer) (fun _ _ => Nat.zero_le _)
    (Finset.mem_univ at_)
  refine ⟨?_, by omega, fun other different => ?_⟩
  · rw [← List.count_eq_zero]
    omega
  · have both := add_le_sum Finset.univ (state.held serializer) (Finset.mem_univ at_)
      (Finset.mem_univ other) (Ne.symm different)
    omega

omit [Fintype ι] in
/-- A pass that has not come to its exit is one holder, beside the calls below it. -/
theorem Owned.held_process {at_ : ι} {point : ProcessPoint} {locals : ProcessLocals σ τ}
    {rest : List (Frame σ τ)}
    (stack : (state.base.thread at_).stack = .process point locals :: rest)
    (inside : point ≠ .exit) :
    state.held locals.serializer at_ =
      1 + tally (Frame.holds locals.serializer) rest +
        (state.final at_).countP fun release => release.serializer = locals.serializer := by
  have holds : Frame.holds locals.serializer (.process point locals) = 1 :=
    if_pos ⟨rfl, if_neg inside⟩
  rw [Owned.held, stack, tally_cons, holds]

omit [DecidableEq σ] in
/-- A call that clears a serializer uses it. -/
theorem Frame.clears_uses {frame : Frame σ τ} (clears : frame.clears = some serializer) :
    frame.uses = some serializer := by
  cases frame with
  | clearEmpty | clearPop | clearStore => exact clears
  | _ => cases clears

omit [DecidableEq σ] in
/-- A call in the middle of a `clear` waits for no other call. -/
theorem Frame.clears_waits {frame : Frame σ τ} (clears : frame.clears = some serializer) :
    frame.waits = false := by
  cases frame with
  | clearEmpty | clearPop | clearStore => rfl
  | _ => cases clears

omit [Fintype ι] in
/-- A call that uses a serializer holds it, or it is the `clear` on top of its thread. -/
theorem Owned.Intact.uses_cases (intact : state.Intact) {at_ : ι} {frame : Frame σ τ}
    (member : frame ∈ (state.base.thread at_).stack) (uses : frame.uses = some serializer) :
    frame.holds serializer = 1 ∨
      ∃ rest, (state.base.thread at_).stack = frame :: rest ∧
        topClears (state.base.thread at_).stack = some serializer := by
  cases clears : frame.clears with
  | none => exact .inl (if_pos ⟨clears, uses⟩)
  | some target =>
    -- A `clear` that is not on top would be waiting for the call above it.
    right
    obtain rfl : target = serializer := Option.some.inj ((Frame.clears_uses clears).symm.trans uses)
    cases stack : (state.base.thread at_).stack with
    | nil => rw [stack] at member; cases member
    | cons top rest =>
      rw [stack] at member
      rcases List.mem_cons.mp member with rfl | below
      · exact ⟨rest, rfl, clears⟩
      · have waits := (intact.shape at_).waiting frame (by rw [stack]; exact below)
        rw [Frame.clears_waits clears] at waits
        cases waits

/-- A thread that does not hold a serializer whose end has begun does not use it. -/
theorem Owned.Settled.unheld (settled : state.Settled) {at_ : ι}
    (unheld : state.held serializer at_ = 0) :
    (∀ frame ∈ (state.base.thread at_).stack, frame.uses ≠ some serializer) ∧
      ∀ release ∈ state.final at_, release.serializer ≠ serializer := by
  obtain ⟨frames, releases⟩ := Owned.held_eq_zero.mp unheld
  refine ⟨fun frame member uses => ?_, releases⟩
  -- A call that uses the serializer would hold it, or be a `clear` of someone who does.
  rcases settled.intact.uses_cases member uses with holds | ⟨rest, -, clears⟩
  · rw [frames frame member] at holds
    cases holds
  · -- The `clear` on top belongs to a loop or to a last drop of this thread, which would hold it.
    rcases settled.clearing at_ serializer clears with ⟨loop, below, holds⟩ |
      ⟨release, others, final, same, -⟩
    · rw [frames loop below] at holds
      cases holds
    · exact releases release (by rw [final]; exact List.mem_cons_self) same

variable [DecidableEq ι]

/-- A thread whose destructor has returned is the only one that was still using the serializer. -/
theorem Owned.Settled.unused_due (settled : state.Settled) {at_ : ι}
    (due : state.due at_ = some serializer) :
    state.Unused serializer state.stacks
      (Function.update state.final at_ (state.final at_).tail) := by
  obtain ⟨release, others, final, rfl⟩ := Owned.due_eq_some due
  have member : release ∈ state.final at_ := by rw [final]; exact List.mem_cons_self
  have alone := settled.ending release.serializer (.inr (.inr ⟨at_, .inr ⟨release, member, rfl⟩⟩))
  -- The release is what the thread holds, so that its calls hold nothing.
  have counted : state.held release.serializer at_ =
      tally (Frame.holds release.serializer) (state.base.thread at_).stack +
        (others.countP (fun other => other.serializer = release.serializer) + 1) := by
    rw [Owned.held, final, List.countP_cons_of_pos (by simp)]
  obtain ⟨unqueued, one, elsewhere⟩ := Owned.held_alone alone.sole at_ (by omega)
  have frames : ∀ frame ∈ (state.base.thread at_).stack, frame.holds release.serializer = 0 :=
    tally_eq_zero.mp (by omega)
  have releases : ∀ other ∈ others, other.serializer ≠ release.serializer := by
    have none_ : others.countP (fun other => other.serializer = release.serializer) = 0 := by omega
    simpa [List.countP_eq_zero] using none_
  refine ⟨unqueued, fun other => ?_⟩
  by_cases same : other = at_
  · subst same
    refine ⟨fun frame member uses => ?_, ?_⟩
    · rcases settled.intact.uses_cases member uses with holds | ⟨rest, -, clears⟩
      · rw [frames frame member] at holds
        cases holds
      · -- The destructor has returned, so that it is not its `clear` that is on top.
        rcases settled.clearing other _ clears with ⟨loop, below, holds⟩ |
          ⟨last, _, final', -, height⟩
        · rw [frames loop below] at holds
          cases holds
        · obtain ⟨rfl, -⟩ := List.cons.inj (final.symm.trans final')
          simp only [Owned.due, final] at due
          split at due
          · omega
          · cases due
    · rw [Function.update_self, final]
      exact releases
  · rw [Function.update_of_ne same]
    exact settled.unheld (elsewhere other same)

/-- A loop that gives the memory back is the only one that was still using the serializer. -/
theorem Owned.Settled.unused_free (settled : state.Settled) {at_ : ι} {locals : ProcessLocals σ τ}
    {rest : List (Frame σ τ)}
    (stack : (state.base.thread at_).stack = .process .free locals :: rest) :
    state.Unused locals.serializer (Function.update state.stacks at_ rest) state.final := by
  have top : .process .free locals ∈ (state.base.thread at_).stack := by
    rw [stack]
    exact List.mem_cons_self
  -- The loop has read `DESTROYED`, so that the end of the serializer has begun.
  have destroyed := settled.condemned at_ _ top locals.serializer rfl
  have alone := settled.ending locals.serializer (.inr (.inl destroyed))
  have counted := Owned.held_process stack (by simp)
  obtain ⟨unqueued, one, elsewhere⟩ := Owned.held_alone alone.sole at_ (by omega)
  have below : ∀ frame ∈ rest, frame.holds locals.serializer = 0 := tally_eq_zero.mp (by omega)
  have releases : ∀ release ∈ state.final at_, release.serializer ≠ locals.serializer := by
    have none_ : (state.final at_).countP
        (fun release => release.serializer = locals.serializer) = 0 := by omega
    simpa [List.countP_eq_zero] using none_
  refine ⟨unqueued, fun other => ?_⟩
  by_cases same : other = at_
  · subst same
    rw [Function.update_self]
    refine ⟨fun frame member uses => ?_, releases⟩
    -- Below the loop no call is in the middle of a `clear`.
    rcases settled.intact.uses_cases (by rw [stack]; exact List.mem_cons_of_mem _ member) uses with
      holds | ⟨_, -, clears⟩
    · rw [below frame member] at holds
      cases holds
    · rw [stack] at clears
      cases clears
  · rw [Function.update_of_ne same]
    exact settled.unheld (elsewhere other same)

/-- A disciplined step is orderly: what it deletes was held by the call that deletes it alone. -/
theorem Owned.Settled.orderly (settled : state.Settled) {label : OwnedLabel ι σ τ}
    (disciplined : state.Disciplined program label) : state.Orderly program label := by
  -- Only the steps that store, delete or refer to a serializer have something to show.
  cases label with
  | program label =>
    cases label with
    | run at_ =>
      simp only [Owned.Orderly]
      cases due : state.due at_ with
      | some serializer => exact settled.unused_due due
      | none =>
        simp only [Owned.Disciplined, due] at disciplined
        cases stack : (state.base.thread at_).stack with
        | nil => trivial
        | cons frame rest =>
          have top : frame ∈ (state.base.thread at_).stack := by
            rw [stack]
            exact List.mem_cons_self
          rw [stack] at disciplined
          cases frame with
          | calls calls =>
            cases calls with
            | nil => trivial
            | cons call calls => exact Bool.eq_false_iff.mpr fun gone => disciplined (.inl gone)
          | destroyStore serializer =>
            -- No store is left on a serializer that `clear` has destroyed.
            intro destroyed
            exact (settled.ending serializer (.inr (.inl destroyed))).stored at_ _ top rfl
          | process point locals =>
            cases point with
            | state =>
              -- `ref_count_` is read where the state is found to be `DESTROYED`.
              intro destroyed
              exact (settled.ending locals.serializer (.inr (.inl destroyed))).unreferenced
            | free => exact settled.unused_free stack
            | _ => trivial
          | _ => trivial
    | _ => trivial
  | copy at_ serializer =>
    obtain ⟨ending, -⟩ := disciplined
    refine ⟨Bool.eq_false_iff.mpr fun gone => ending (.inl gone), fun other => ⟨?_, ?_⟩⟩
    · intro frame member condemns
      exact ending (.inr (.inl (settled.condemned other frame member serializer condemns)))
    · intro release member same
      exact ending (.inr (.inr ⟨other, .inr ⟨release, member, same⟩⟩))
  | drop => trivial

omit [DecidableEq ι] [DecidableEq σ] [Fintype ι] in
/-- Only one thread has made a step: the calls and the last drops of the others are as before. -/
def Owned.Elsewhere (state next : Owned ι σ τ) (at_ : ι) : Prop :=
  ∀ other, other ≠ at_ → next.base.thread other = state.base.thread other ∧
    next.final other = state.final other

/-- Where one thread moves, the holders change by what this thread and the queue gain. -/
theorem Owned.Elsewhere.holders_le {at_ : ι} (elsewhere : state.Elsewhere next at_) (more : Nat)
    (own : next.held serializer at_ +
        (next.base.shared.serializerQueue .taskDistributor).count serializer ≤
      state.held serializer at_ +
        (state.base.shared.serializerQueue .taskDistributor).count serializer + more) :
    next.holders serializer ≤ state.holders serializer + more := by
  -- Outside of the thread that moves, the two sums agree term by term.
  have outside : ∑ other ∈ Finset.univ.erase at_, next.held serializer other =
      ∑ other ∈ Finset.univ.erase at_, state.held serializer other := by
    refine Finset.sum_congr rfl fun other inside => ?_
    obtain ⟨thread, final⟩ := elsewhere other (Finset.ne_of_mem_erase inside)
    rw [Owned.held, Owned.held, thread, final]
  have before := Finset.sum_erase_add Finset.univ (state.held serializer) (Finset.mem_univ at_)
  have after := Finset.sum_erase_add Finset.univ (next.held serializer) (Finset.mem_univ at_)
  simp only [Owned.holders]
  omega

/-- A serializer that is left alone stays so when its holder goes on or hands it on. -/
theorem Owned.Alone.moved (alone : state.Alone serializer) {at_ : ι}
    (elsewhere : state.Elsewhere next at_) (unreferenced : next.refCount serializer = 0)
    (own : next.held serializer at_ +
        (next.base.shared.serializerQueue .taskDistributor).count serializer ≤
      state.held serializer at_ +
        (state.base.shared.serializerQueue .taskDistributor).count serializer)
    (stores : ∀ frame ∈ (next.base.thread at_).stack, frame.stores = some serializer →
      ∃ earlier ∈ (state.base.thread at_).stack, earlier.stores = some serializer) :
    next.Alone serializer where
  sole := (elsewhere.holders_le 0 own).trans alone.sole
  unreferenced := unreferenced
  stored other frame member stored := by
    -- A store that a call has still to make was to be made before the step.
    by_cases same : other = at_
    · subst same
      obtain ⟨earlier, before, stores⟩ := stores frame member stored
      exact alone.stored other earlier before stores
    · rw [(elsewhere other same).1] at member
      exact alone.stored other frame member stored

/-- Where one thread moves, only its own calls are to be looked at. -/
theorem Owned.Settled.moved (settled : state.Settled) {at_ : ι}
    (elsewhere : state.Elsewhere next at_) (intact : next.Intact)
    (ending : ∀ serializer, next.Ending serializer → next.Alone serializer)
    (destroyed : ∀ serializer, state.base.shared.state serializer = .destroyed →
      next.base.shared.state serializer = .destroyed)
    (condemned : ∀ frame ∈ (next.base.thread at_).stack, ∀ serializer,
      frame.condemns = some serializer → next.base.shared.state serializer = .destroyed)
    (clearing : ∀ serializer, topClears (next.base.thread at_).stack = some serializer →
      (∃ frame ∈ (next.base.thread at_).stack, frame.holds serializer = 1) ∨
        ∃ release others, next.final at_ = release :: others ∧ release.serializer = serializer ∧
          release.height + 1 = (next.base.thread at_).stack.length) : next.Settled where
  intact := intact
  ending := ending
  condemned other frame member serializer condemns := by
    -- The other threads have read the state before, and it stays as they have read it.
    by_cases same : other = at_
    · subst same
      exact condemned frame member serializer condemns
    · rw [(elsewhere other same).1] at member
      exact destroyed serializer (settled.condemned other frame member serializer condemns)
  clearing other serializer clears := by
    by_cases same : other = at_
    · subst same
      exact clearing serializer clears
    · rw [(elsewhere other same).1] at clears ⊢
      rw [(elsewhere other same).2]
      exact settled.clearing other serializer clears

omit [DecidableEq ι] [DecidableEq σ] [Fintype ι] in
/-- A serializer that has ended after a step had ended before, or the step begins its end. -/
theorem Owned.ending_cases {at_ : ι} (elsewhere : state.Elsewhere next at_)
    (ending : next.Ending serializer)
    (deleted : next.base.shared.deleted serializer = true → state.Ending serializer)
    (destroyed : next.base.shared.state serializer = .destroyed → state.Ending serializer) :
    state.Ending serializer ∨
      (∃ frame ∈ (next.base.thread at_).stack, frame.ends = some serializer) ∨
        ∃ release ∈ next.final at_, release.serializer = serializer := by
  -- What has begun in another thread had begun before.
  rcases ending with gone | past | ⟨other, begun⟩
  · exact .inl (deleted gone)
  · exact .inl (destroyed past)
  · by_cases same : other = at_
    · exact .inr (same ▸ begun)
    · rw [(elsewhere other same).1, (elsewhere other same).2] at begun
      exact .inl (.inr (.inr ⟨other, begun⟩))

/-- A first call of a thread holds nothing yet. -/
theorem Owned.Settled.started (settled : state.Settled) {at_ : ι}
    (outside : (state.base.thread at_).stack = []) {frame : Frame σ τ}
    (base : next.base = state.base.withThread at_ state.base.shared
      { state.base.thread at_ with stack := [frame] })
    (same : next.final = state.final ∧ next.refCount = state.refCount) (intact : next.Intact)
    (idle : frame.uses = none ∧ frame.clears = none ∧ frame.ends = none ∧ frame.stores = none ∧
      frame.condemns = none) : next.Settled := by
  have elsewhere : state.Elsewhere next at_ := fun other different => by
    rw [base, State.withThread_other different, same.1]
    exact ⟨rfl, rfl⟩
  have stack : (next.base.thread at_).stack = [frame] := by rw [base, State.withThread_self]
  have shared : next.base.shared = state.base.shared := by rw [base]; rfl
  obtain ⟨uses, clears, ends, stores, condemns⟩ := idle
  refine settled.moved elsewhere intact (fun serializer ending => ?_) (by rw [shared]; simp)
    (by simp [stack, condemns]) (fun serializer above => ?_)
  rotate_left
  · -- The first call clears nothing.
    rw [stack] at above
    exact absurd (clears.symm.trans above) (by simp)
  -- The first call ends nothing, so the serializer was alone before.
  have before : state.Ending serializer := by
    rcases Owned.ending_cases elsewhere ending (fun gone => .inl (shared ▸ gone))
      (fun past => .inr (.inl (shared ▸ past))) with before | ⟨call, member, ended⟩ |
        ⟨release, member, same_⟩
    · exact before
    · rw [stack] at member
      rw [List.mem_singleton.mp member, ends] at ended
      cases ended
    · exact .inr (.inr ⟨at_, .inr ⟨release, same.1 ▸ member, same_⟩⟩)
  have alone := settled.ending serializer before
  refine alone.moved elsewhere (by rw [same.2]; exact alone.unreferenced) ?_ fun call member => ?_
  · rw [shared]
    simp [Owned.held, stack, outside, same.1, Frame.holds, uses]
  · rw [stack] at member
    rw [List.mem_singleton.mp member, stores]
    intro stored
    cases stored

omit [Fintype ι] [DecidableEq ι] in
/-- A step of a thread destroys only what its call clears. -/
theorem frameStep_destroyed (program : Program σ τ) (shared : Shared σ τ)
    (slot : SourceFile → Option σ) (frame : Frame σ τ) (rest : List (Frame σ τ))
    {here : Option σ}
    (tame : Tame program shared here frame rest (frameStep program shared ⟨slot, rest⟩ frame))
    (destroyed : (frameStep program shared ⟨slot, rest⟩ frame).1.state serializer = .destroyed) :
    shared.state serializer = .destroyed ∨ frame.ends = some serializer := by
  rcases tame.state serializer with same | ⟨writes, -⟩
  · exact .inl (same ▸ destroyed)
  · cases frame with
    | clearStore target => exact .inr writes
    | destroyStore target =>
      obtain rfl := Option.some.inj writes
      left
      simp only [frameStep] at destroyed
      -- The store of `set_destroy` destroys nothing, nor does a step that it is too late for.
      split at destroyed
      · exact destroyed
      · simp at destroyed
    | _ => cases writes

/-- The loop that pops the task for `clear` is alone with its serializer. -/
theorem Owned.alone_of_pops {at_ : ι} {frame : Frame σ τ} {rest : List (Frame σ τ)}
    (stack : (state.base.thread at_).stack = frame :: rest) (due : state.due at_ = none)
    (disciplined : state.Disciplined program (.program (.run at_)))
    (pops : frame.Pops state.base.shared serializer) : state.Alone serializer := by
  cases frame with
  | process point locals =>
    cases point with
    | pop =>
      obtain ⟨rfl, clear⟩ := pops
      simp only [Owned.Disciplined, due, stack] at disciplined
      obtain ⟨sole, unreferenced⟩ := disciplined clear
      have counted := Owned.held_process stack (by simp)
      obtain ⟨-, one, elsewhere⟩ := Owned.held_alone sole.le at_ (by omega)
      refine ⟨sole.le, unreferenced, fun other call member stores => ?_⟩
      -- A store that is left would hold the serializer beside the loop.
      have holds : call.holds locals.serializer = 1 := by
        cases call with
        | destroyStore target => exact if_pos ⟨rfl, stores⟩
        | _ => cases stores
      by_cases same : other = at_
      · subst same
        rw [stack] at member
        rcases List.mem_cons.mp member with rfl | below
        · cases stores
        · have none_ : call.holds locals.serializer = 0 := tally_eq_zero.mp (by omega) call below
          omega
      · have none_ := (Owned.held_eq_zero.mp (elsewhere other same)).1 call member
        omega
    | _ => cases pops
  | _ => cases pops

omit [DecidableEq ι] in
/-- No call is made on a serializer whose end has begun, or is about to begin. -/
theorem Owned.quiet_of_begun {at_ : ι} {frame : Frame σ τ} {rest : List (Frame σ τ)}
    (stack : (state.base.thread at_).stack = frame :: rest) (due : state.due at_ = none)
    (disciplined : state.Disciplined program (.program (.run at_)))
    (begun : state.Ending serializer ∨ frame.Pops state.base.shared serializer) :
    ¬ frame.Calls program serializer := by
  intro calls
  -- A disciplined call is made on a serializer whose end has not begun.
  rcases begun with before | pops
  · cases frame with
    | calls remaining =>
      cases remaining with
      | nil => cases calls
      | cons call remaining =>
        obtain rfl : call.serializer program = serializer := calls
        simp only [Owned.Disciplined, due, stack] at disciplined
        exact disciplined before
    | _ => cases calls
  · -- A loop that pops its task is no call of application code.
    cases frame with
    | process => cases calls
    | _ => cases pops

omit [DecidableEq ι] in
/-- Behind a step of a thread, a `clear` on its top still belongs to someone who holds it. -/
theorem Owned.Settled.clearing_ran (settled : state.Settled) {at_ : ι} {frame : Frame σ τ}
    {rest new : List (Frame σ τ)} {result : Shared σ τ × Thread σ τ} {slot : Option σ}
    (stack : (state.base.thread at_).stack = frame :: rest) (shape : Shape slot (frame :: rest))
    (steered : Steered program state.base.shared frame rest result new)
    (clears : topClears (new ++ rest) = some serializer) :
    (∃ call ∈ new ++ rest, call.holds serializer = 1) ∨
      ∃ release others, state.final at_ = release :: others ∧ release.serializer = serializer ∧
        release.height + 1 = (new ++ rest).length := by
  cases new with
  | nil =>
    -- A call that comes up was waiting, and no `clear` waits.
    cases rest with
    | nil => cases clears
    | cons call others =>
      have waits := shape.waiting call List.mem_cons_self
      rw [Frame.clears_waits clears] at waits
      cases waits
  | cons next others =>
    rcases steered.clears next List.mem_cons_self serializer clears with ⟨same, before⟩ |
      ⟨holder, same, holds⟩
    · -- The `clear` goes on, and what has run it is still there.
      obtain ⟨-, rfl⟩ := List.cons.inj same
      rcases settled.clearing at_ serializer (by rw [stack]; exact before) with
        ⟨loop, member, holds⟩ | ⟨release, others, final, of_, height⟩
      · rw [stack] at member
        rcases List.mem_cons.mp member with rfl | waiting
        · rw [Frame.holds, if_neg (fun quiet => by rw [before] at quiet; cases quiet.1)] at holds
          cases holds
        · exact .inl ⟨loop, List.mem_cons_of_mem _ waiting, holds⟩
      · refine .inr ⟨release, others, final, of_, ?_⟩
        rw [height, stack]
        rfl
    · -- The `clear` begins above the call that holds its serializer.
      obtain ⟨-, rfl⟩ := List.cons.inj same
      exact .inl ⟨holder, by simp, holds⟩

/-- Every disciplined step of a thread leaves alone what is ending. -/
theorem Owned.Settled.ran (settled : state.Settled) (linked : program.linkage = oneCopy) {at_ : ι}
    {frame : Frame σ τ} {rest : List (Frame σ τ)}
    (stack : (state.base.thread at_).stack = frame :: rest) (due : state.due at_ = none)
    (disciplined : state.Disciplined program (.program (.run at_))) :
    let result := frameStep program state.base.shared
      ⟨(state.base.thread at_).slot, rest⟩ frame
    (state.record program (state.base.withThread at_ result.1 result.2) at_).Settled := by
  intro result
  have top : frame ∈ (state.base.thread at_).stack := by rw [stack]; exact List.mem_cons_self
  have intact := settled.intact
  have shape : Shape ((state.base.thread at_).slot .taskDistributor) (frame :: rest) :=
    stack ▸ intact.shape at_
  have permits := intact.permits stack due (settled.orderly disciplined)
  have tame : Tame program state.base.shared ((state.base.thread at_).slot .taskDistributor) frame
      rest result :=
    frameStep_tame linked shape (intact.own at_ frame top) ⟨rfl, rfl, rfl, intact.tasks,
      intact.untouched⟩ fun _ uses => intact.used top uses
  obtain ⟨new, steered⟩ := frameStep_steered linked shape (intact.own at_ frame top) intact.tasks
  have left : result.2.stack = new ++ rest := steered.stack
  have elsewhere : state.Elsewhere
      (state.record program (state.base.withThread at_ result.1 result.2) at_) at_ :=
    fun other different => ⟨State.withThread_other different _ _, rfl⟩
  have own : (state.record program (state.base.withThread at_ result.1 result.2) at_).base.thread
      at_ = result.2 := State.withThread_self _ _ _
  -- What is destroyed stays destroyed.
  have forward (serializer : σ) (destroyed : state.base.shared.state serializer = .destroyed) :
      result.1.state serializer = .destroyed := by
    have later := tame.forward permits.stores serializer
    rw [destroyed] at later
    cases after : result.1.state serializer with
    | destroyed => rfl
    | _ => rw [after] at later; simp [SerializerState.rank] at later
  have below : ∀ call ∈ rest, call ∈ (state.base.thread at_).stack := fun call member => by
    rw [stack]
    exact List.mem_cons_of_mem _ member
  -- What a call condemns has been destroyed, and so its end has begun.
  have condemned (serializer : σ) (condemns : frame.condemns = some serializer) :
      state.Ending serializer := .inr (.inl (settled.condemned at_ frame top serializer condemns))
  refine settled.moved elsewhere (intact.ran linked stack permits) (fun serializer ending => ?_)
    forward (fun call member serializer condemns => ?_) (fun serializer clears => ?_)
  · -- What is ending behind the step was ending before, or its `clear` is popped just now.
    have begun : state.Ending serializer ∨ frame.Pops state.base.shared serializer := by
      -- Memory is given back by a loop that has condemned the serializer.
      have deleted (gone : result.1.deleted serializer = true) : state.Ending serializer := by
        rcases (tame.deleted serializer).mp gone with before | frees
        · exact .inl before
        · obtain ⟨-, locals, rfl, rfl⟩ := shape.frees frees
          exact condemned _ rfl
      have destroyed (past : result.1.state serializer = .destroyed) : state.Ending serializer := by
        rcases frameStep_destroyed program _ _ frame rest tame past with before | ends
        · exact .inr (.inl before)
        · exact .inr (.inr ⟨at_, .inl ⟨frame, top, ends⟩⟩)
      rcases Owned.ending_cases elsewhere ending deleted destroyed with
        before | ⟨call, member, ends⟩ | ⟨release, member, same⟩
      · exact .inl before
      · rw [own, left] at member
        rcases List.mem_append.mp member with fresh | waiting
        · rcases steered.ends call fresh serializer ends with ends | condemns | pops
          · exact .inl (.inr (.inr ⟨at_, .inl ⟨frame, top, ends⟩⟩))
          · exact .inl (condemned serializer condemns)
          · exact .inr pops
        · exact .inl (.inr (.inr ⟨at_, .inl ⟨call, below call waiting, ends⟩⟩))
      · exact .inl (.inr (.inr ⟨at_, .inr ⟨release, member, same⟩⟩))
    have alone : state.Alone serializer := begun.elim (settled.ending serializer)
      (Owned.alone_of_pops stack due disciplined)
    have quiet : ¬ frame.Calls program serializer :=
      Owned.quiet_of_begun stack due disciplined begun
    refine alone.moved elsewhere alone.unreferenced ?_ fun call member stores => ?_
    · -- The thread and the queue together hold no more than they did.
      have handed : tally (Frame.holds serializer) new +
          (result.1.serializerQueue .taskDistributor).count serializer ≤
        frame.holds serializer +
          (state.base.shared.serializerQueue .taskDistributor).count serializer :=
        steered.holds serializer quiet
      simp only [Owned.held, own, left, stack, tally_append, tally_cons]
      show _ + (state.final at_).countP _ + (result.1.serializerQueue .taskDistributor).count _ ≤ _
      omega
    · rw [own, left] at member
      rcases List.mem_append.mp member with fresh | waiting
      · rcases steered.stores call fresh serializer stores with stores | calls
        · exact ⟨frame, top, stores⟩
        · exact absurd calls quiet
      · exact ⟨call, below call waiting, stores⟩
  · -- A call that has come to condemn its serializer has just read that it is destroyed.
    rw [own, left] at member
    rcases List.mem_append.mp member with fresh | waiting
    · obtain ⟨new', left', follows⟩ := tame.stack
      obtain rfl : new' = new := List.append_cancel_right (left'.symm.trans left)
      rcases (follows call fresh).condemns serializer condemns with before | convicts
      · exact forward serializer (settled.condemned at_ frame top serializer before)
      · cases frame with
        | process point locals =>
          cases point with
          | state => exact forward serializer convicts.2
          | _ => cases convicts
        | _ => cases convicts
    · exact forward serializer (settled.condemned at_ call (below call waiting) serializer condemns)
  · rw [own, left] at clears ⊢
    exact settled.clearing_ran stack shape steered clears

/-- The end of a last drop leaves alone what is ending. -/
theorem Owned.Settled.freed (settled : state.Settled) {at_ : ι}
    (due : state.due at_ = some serializer) : (state.free at_ serializer).Settled := by
  obtain ⟨release, others, final, rfl⟩ := Owned.due_eq_some due
  have member : release ∈ state.final at_ := by rw [final]; exact List.mem_cons_self
  have elsewhere : state.Elsewhere (state.free at_ release.serializer) at_ :=
    fun other different => ⟨rfl, Function.update_of_ne different ..⟩
  have final' : (state.free at_ release.serializer).final at_ = others := by
    simp [Owned.free, final]
  refine settled.moved elsewhere (settled.intact.freed due (settled.unused_due due))
    (fun target ending => ?_) (fun _ destroyed => destroyed)
    (fun frame below target condemns => settled.condemned at_ frame below target condemns)
    (fun target clears => ?_)
  · -- The drop had begun the end of its serializer already.
    have before : state.Ending target := by
      have deleted (gone : (state.free at_ release.serializer).base.shared.deleted target = true) :
          state.Ending target := by
        by_cases same : target = release.serializer
        · subst same
          exact .inr (.inr ⟨at_, .inr ⟨release, member, rfl⟩⟩)
        · exact .inl (by simpa [Owned.free, same] using gone)
      rcases Owned.ending_cases elsewhere ending deleted (fun past => .inr (.inl past)) with
        before | ⟨call, below, ends⟩ | ⟨left, below, same⟩
      · exact before
      · exact .inr (.inr ⟨at_, .inl ⟨call, below, ends⟩⟩)
      · rw [final'] at below
        have among : left ∈ state.final at_ := by
          rw [final]
          exact List.mem_cons_of_mem _ below
        exact .inr (.inr ⟨at_, .inr ⟨left, among, same⟩⟩)
    have alone := settled.ending target before
    refine alone.moved elsewhere alone.unreferenced ?_ fun call below stores =>
      ⟨call, below, stores⟩
    -- The release is finished, and nothing else has changed.
    rw [Owned.held, Owned.held, final', final, List.countP_cons]
    show tally _ (state.base.thread at_).stack + _ +
      (state.base.shared.serializerQueue .taskDistributor).count _ ≤ _
    omega
  · rcases settled.clearing at_ target clears with loop | ⟨last, _, first, -, height⟩
    · exact .inl loop
    · -- The destructor of the release that is finished has returned.
      obtain ⟨rfl, -⟩ := List.cons.inj (final.symm.trans first)
      simp only [Owned.due, final] at due
      split at due
      · omega
      · cases due

omit [DecidableEq ι] in
/-- A count that changes leaves alone what is ending, if it stays zero there. -/
theorem Owned.Settled.recount (settled : state.Settled) {refCount : σ → Nat}
    (intact : ({ state with refCount := refCount } : Owned ι σ τ).Intact)
    (kept : ∀ serializer, state.Ending serializer → refCount serializer = 0) :
    ({ state with refCount := refCount } : Owned ι σ τ).Settled where
  intact := intact
  ending serializer ending := by
    -- Of what a serializer is left alone by, only the count has changed.
    have alone := settled.ending serializer ending
    exact ⟨alone.sole, kept serializer ending, alone.stored⟩
  condemned := settled.condemned
  clearing := settled.clearing

/-- The last drop begins the end of a serializer that nobody holds, and is its holder from then. -/
theorem Owned.Settled.released (settled : state.Settled) {at_ : ι} (intact : next.Intact)
    (base : next.base = state.base.withThread at_ state.base.shared
      { state.base.thread at_ with
        stack := .clearEmpty serializer :: (state.base.thread at_).stack })
    (final : next.final = Function.update state.final at_
      (⟨serializer, (state.base.thread at_).stack.length⟩ :: state.final at_))
    (refCount : next.refCount serializer = 0 ∧
      ∀ other, state.refCount other = 0 → next.refCount other = 0)
    (free : state.holders serializer = 0) : next.Settled := by
  have elsewhere : state.Elsewhere next at_ := fun other different => by
    rw [base, final, State.withThread_other different, Function.update_of_ne different]
    exact ⟨rfl, rfl⟩
  have stack : (next.base.thread at_).stack =
      .clearEmpty serializer :: (state.base.thread at_).stack := by
    rw [base, State.withThread_self]
  have own : next.final at_ =
      ⟨serializer, (state.base.thread at_).stack.length⟩ :: state.final at_ := by
    rw [final, Function.update_self]
  have shared : next.base.shared = state.base.shared := by rw [base]; rfl
  -- The destructor holds nothing itself, since it belongs to the drop.
  have held (target : σ) : next.held target at_ =
      state.held target at_ + if serializer = target then 1 else 0 := by
    simp [Owned.held, stack, own, Frame.holds, List.countP_cons]
    omega
  refine settled.moved elsewhere intact (fun target ending => ?_) (by simp [shared])
    (fun call member target condemns => ?_) (fun target clears => ?_)
  · -- The serializer gets its first holder, and the others keep those that they have.
    by_cases same : serializer = target
    · subst same
      refine ⟨?_, refCount.1, fun other call member stores => ?_⟩
      · have more : next.holders serializer ≤ state.holders serializer + 1 := elsewhere.holders_le 1
          (by rw [held, shared, if_pos rfl]; omega)
        omega
      · -- A store that is left would have held the serializer before.
        have holds : call.holds serializer = 1 := by
          cases call with
          | destroyStore => exact if_pos ⟨rfl, stores⟩
          | _ => cases stores
        have before : call ∈ (state.base.thread other).stack := by
          by_cases here : other = at_
          · subst here
            rw [stack] at member
            rcases List.mem_cons.mp member with rfl | below
            · cases stores
            · exact below
          · rwa [(elsewhere other here).1] at member
        have none_ : state.held serializer other = 0 := by
          have each := Finset.single_le_sum (f := state.held serializer) (fun _ _ => Nat.zero_le _)
            (Finset.mem_univ other)
          unfold Owned.holders at free
          omega
        rw [(Owned.held_eq_zero.mp none_).1 call before] at holds
        cases holds
    · have before : state.Ending target := by
        rcases Owned.ending_cases elsewhere ending (fun gone => .inl (shared ▸ gone))
          (fun past => .inr (.inl (shared ▸ past))) with before | ⟨call, member, ends⟩ |
            ⟨release, member, of_⟩
        · exact before
        · rw [stack] at member
          rcases List.mem_cons.mp member with rfl | below
          · exact absurd (Option.some.inj ends) same
          · exact .inr (.inr ⟨at_, .inl ⟨call, below, ends⟩⟩)
        · rw [own] at member
          rcases List.mem_cons.mp member with rfl | below
          · exact absurd of_ same
          · exact .inr (.inr ⟨at_, .inr ⟨release, below, of_⟩⟩)
      have alone := settled.ending target before
      refine alone.moved elsewhere (refCount.2 target alone.unreferenced)
        (by rw [held, shared, if_neg same, Nat.add_zero]) fun call member stores => ?_
      rw [stack] at member
      rcases List.mem_cons.mp member with rfl | below
      · cases stores
      · exact ⟨call, below, stores⟩
  · rw [stack] at member
    rw [shared]
    rcases List.mem_cons.mp member with rfl | below
    · cases condemns
    · exact settled.condemned at_ call below target condemns
  · rw [stack] at clears ⊢
    obtain rfl : serializer = target := Option.some.inj clears
    exact .inr ⟨_, _, own, rfl, rfl⟩

/-- A disciplined drop of an `ObjectPtr` leaves alone what is ending. -/
theorem Owned.Settled.dropped (settled : state.Settled) {at_ : ι}
    (between : state.between at_ = true) (held : state.refCount serializer ≠ 0)
    (free : state.refCount serializer = 1 → state.holders serializer = 0) :
    (state.dropStep at_ serializer).Settled := by
  have intact := settled.intact.dropped between held
  -- What is referred to is not ending, so it has not been deleted.
  have alive : ¬ state.Ending serializer := fun ending =>
    held (settled.ending _ ending).unreferenced
  have exists_ : state.base.shared.deleted serializer = false :=
    Bool.eq_false_iff.mpr fun gone => alive (.inl gone)
  have fewer (target : σ) (ending : state.Ending target) : Function.update state.refCount serializer
      (state.refCount serializer - 1) target = 0 := by
    rw [Function.update_of_ne (by rintro rfl; exact alive ending)]
    exact (settled.ending target ending).unreferenced
  simp only [Owned.dropStep, exists_, Bool.false_eq_true, if_false] at intact ⊢
  split at intact
  · -- The last `ObjectPtr` runs the destructor.
    rename_i last
    rw [if_pos last]
    refine settled.released intact rfl rfl ⟨?_, fun target none_ => ?_⟩ (free last)
    · simp [last]
    · show Function.update _ _ _ _ = _
      rw [Function.update_of_ne (by rintro rfl; exact held none_)]
      exact none_
  · rename_i more
    rw [if_neg more]
    exact settled.recount intact fewer

end Braid.Task
