import Braid.Library.Transition
import Braid.Memory.ObjectPool

/-! When `acquire` returns a null pointer although no memory has run out. -/

namespace Braid.Memory

open Transition

/-- The steps that throw when they fail: `operator new`, and the constructor of an object. -/
def Place.throws : Place → Bool
  | .newChunk .. | .construct _ => true
  | _ => false

section Guard

variable {ι : Type}

/-- A step throws nothing. -/
def NoThrow (state : State ι) : Label ι → Prop
  | .run at_ fails => (state.thread at_).place.any Place.throws = true → fails = false
  | _ => True

/-- A thread that has just added a chunk comes to its pop before others have emptied the queue. -/
def FindsSlot (state : State ι) : Label ι → Prop
  | .run at_ _ => (state.thread at_).place = some .popAllocated → state.shared.freeQueue ≠ []
  | _ => True

instance (state : State ι) (label : Label ι) : Decidable (NoThrow state label) :=
  match label with
  | .run .. => inferInstanceAs (Decidable (_ = true → _ = false))
  | .construct _ | .acquire _ | .release .. => instDecidableTrue

instance (state : State ι) (label : Label ι) : Decidable (FindsSlot state label) :=
  match label with
  | .run .. => inferInstanceAs (Decidable (_ = _ → _))
  | .construct _ | .acquire _ | .release .. => instDecidableTrue

/--
What is remembered of the threads that did not get to allocate.

A thread that found the flag set has a number, which counts the pops since then that found the
queue empty.
-/
abbrev EmptyPops (ι : Type) := ι → Option Nat

/-- The number of a thread that takes the step of a place. -/
def Place.popsAfter (shared : Shared) (pops : Option Nat) : Place → Option Nat
  | .testAndSet .. => if shared.allocating then some 0 else none
  | .retry n => if n < 20 ∧ shared.freeQueue = [] then pops.map (· + 1) else pops
  | _ => pops

/-- What is remembered when a step has been taken. -/
def EmptyPops.after [DecidableEq ι] (state : State ι) (label : Label ι) (_ : State ι)
    (pops : EmptyPops ι) : EmptyPops ι :=
  match label with
  | .run at_ _ =>
    match (state.thread at_).place with
    | some place => Function.update pops at_ (place.popsAfter state.shared (pops at_))
    | none => pops
  | _ => pops

/-- No thread that found the flag set has made twenty pops since then and found the queue empty. -/
def Patient (seen : State ι × EmptyPops ι) : Label ι → Prop
  | .run at_ _ => ∀ n, (seen.1.thread at_).place = some (.retry n) → seen.2 at_ ≠ some 20
  | _ => True

end Guard

section Null

variable {shared : Shared} {thread : Thread} {config : Config} {fails : Bool}

/-- What a step of a call returns to the caller of `acquire`. -/
def Place.answer (shared : Shared) (fails : Bool) : Place → List (Option Slot)
  | .construct obj => if fails then [] else [some obj]
  | .pushUnconstructed _ => [none]
  | .popAllocated => if shared.freeQueue = [] then [none] else []
  | .retry n => if n < 20 then [] else [none]
  | _ => []

/-- Nothing is returned to the caller of `acquire` where `allocate_chunk` returns. -/
theorem allocated_returned (result : Bool) (caller : Caller) :
    (allocated shared thread result caller).1.returned = shared.returned := by
  cases caller <;> rfl

/-- The null pointers and the objects that a step returns. -/
theorem placeStep_returned (place : Place) :
    (placeStep config shared thread fails place).1.returned =
      shared.returned ++ place.answer shared fails := by
  -- Only the last steps of `acquire` return anything.
  cases place <;>
    simp only [placeStep, acquireStep, allocateStep, releaseStep, Place.answer] <;>
    (repeat' split) <;>
    simp_all [acquired, allocated_returned]

/-- Where nothing has been thrown, no call cleans up, and the retries are counted. -/
def Place.Unthrown (pops : Option Nat) : Place → Prop
  | .clearFailed _ | .pushUnconstructed _ => False
  | .retry n => pops = some n ∧ n ≤ 20
  | _ => True

/-- A call that goes on without throwing keeps its count of the retries. -/
theorem placeStep_unthrown {pops : Option Nat} {place : Place}
    (inside : thread.place = some place) (unthrown : place.Unthrown pops)
    (permitted : place.throws = true → fails = false) :
    ∀ after, (placeStep config shared thread fails place).2.place = some after →
      after.Unthrown (place.popsAfter shared pops) := by
  intro after goesOn
  cases place with
  | testAndSet count caller =>
    cases caller <;> by_cases set : shared.allocating = true <;>
      simp [placeStep, allocateStep, allocated, set] at goesOn <;> subst goesOn <;>
      simp [Place.Unthrown, Place.popsAfter, set]
  | clearFailed caller => exact unthrown.elim
  | clear caller =>
    cases caller <;> simp [placeStep, allocateStep, allocated] at goesOn
    subst goesOn
    trivial
  | newChunk count caller =>
    -- An allocation that does not throw goes on with its first slot.
    simp [placeStep, allocateStep, permitted rfl] at goesOn
    subst goesOn
    trivial
  | construct obj =>
    simp [placeStep, acquireStep, permitted rfl, acquired] at goesOn
  | retry n =>
    obtain ⟨counted, most⟩ := unthrown
    by_cases again : n < 20
    · cases queue : shared.freeQueue with
      | nil =>
        simp [placeStep, acquireStep, again, queue] at goesOn
        subst goesOn
        exact ⟨by simp [Place.popsAfter, again, queue, counted], again⟩
      | cons obj rest =>
        simp [placeStep, acquireStep, again, queue] at goesOn
        subst goesOn
        trivial
    · simp [placeStep, acquireStep, again, acquired] at goesOn
  | steal i batch =>
    have ends : (stealEnd config batch).Unthrown pops := by
      rcases batch with _ | ⟨first, _ | ⟨second, others⟩⟩ <;> trivial
    -- An overrun leaves the thread in the loop, where the program stops.
    simp only [placeStep, acquireStep] at goesOn
    (repeat' split at goesOn) <;> simp only [inside] at goesOn <;> cases goesOn <;>
      first | exact ends | trivial
  | _ =>
    -- From any other place a call goes on without a retry, and without cleaning up.
    simp only [placeStep, acquireStep, allocateStep, releaseStep, acquired] at goesOn
    (repeat' split at goesOn) <;> cases goesOn <;> trivial

end Null

section Runs

variable {ι : Type} [DecidableEq ι] {config : Config}

/-- What holds of every thread of a run that throws nothing. -/
def Unthrown (seen : State ι × EmptyPops ι) : Prop :=
  ∀ at_ place, (seen.1.thread at_).place = some place → place.Unthrown (seen.2 at_)

/-- The tracked step of a thread: what the pool does, and what is remembered. -/
theorem track_run {seen next : State ι × EmptyPops ι} {at_ : ι} {fails : Bool}
    (taken : track (step config) EmptyPops.after seen (.run at_ fails) = some next) :
    ∃ place, (seen.1.thread at_).place = some place ∧
      next.1 = seen.1.withThread at_ (placeStep config seen.1.shared (seen.1.thread at_) fails place).1
        (placeStep config seen.1.shared (seen.1.thread at_) fails place).2 ∧
      next.2 = Function.update seen.2 at_ (place.popsAfter seen.1.shared (seen.2 at_)) := by
  -- The step is that of the place, and so is what is remembered of it.
  obtain ⟨stepped, recorded⟩ := track_eq_some.mp taken
  simp only [step] at stepped
  split at stepped
  · cases stepped
  · obtain ⟨place, inside, result⟩ := Option.map_eq_some_iff.mp stepped
    refine ⟨place, inside, result.symm, ?_⟩
    rw [← recorded, EmptyPops.after, inside]

/-- A thread is replaced by one that has thrown nothing either. -/
theorem Unthrown.withThread {state : State ι} {pops : EmptyPops ι} (unthrown : Unthrown (state, pops))
    (at_ : ι) (shared : Shared) {thread : Thread} {count : Option Nat}
    (own : ∀ place, thread.place = some place → place.Unthrown count) :
    Unthrown (state.withThread at_ shared thread, Function.update pops at_ count) := by
  intro other place inside
  -- The new thread brings its own proof, and the others keep theirs.
  by_cases same : other = at_
  · subst same
    rw [State.withThread_self] at inside
    dsimp only
    rw [Function.update_self]
    exact own place inside
  · simp only [State.withThread, Function.update_of_ne same] at inside ⊢
    exact unthrown other place inside

/-- A step by which a call begins replaces the thread that makes the call. -/
theorem step_call {state next : State ι} {label : Label ι}
    (begins : ∀ at_ fails, label ≠ .run at_ fails) (taken : step config state label = some next) :
    ∃ at_ shared place, next =
        state.withThread at_ shared { state.thread at_ with place := some place } ∧
      shared.returned = state.shared.returned ∧ ∀ pops, place.Unthrown pops := by
  simp only [step] at taken
  split at taken
  · cases taken
  · -- Each of the three calls starts at its first place, and has returned nothing.
    cases label with
    | construct at_ =>
      simp only [Option.ite_none_left_eq_some, Option.some.injEq] at taken
      exact ⟨at_, _, _, taken.2.symm, rfl, fun _ => trivial⟩
    | acquire at_ =>
      simp only [Option.ite_none_left_eq_some, Option.some.injEq] at taken
      exact ⟨at_, _, _, taken.2.symm, rfl, fun _ => trivial⟩
    | release at_ obj =>
      simp only [Option.ite_none_left_eq_some, Option.some.injEq] at taken
      exact ⟨at_, _, _, taken.2.symm, rfl, fun _ => trivial⟩
    | run at_ fails => exact absurd rfl (begins at_ fails)

/-- A call that begins, of `acquire` or of another function, returns nothing and retries nothing. -/
theorem step_begin {seen next : State ι × EmptyPops ι} {label : Label ι}
    (begins : ∀ at_ fails, label ≠ .run at_ fails) (unthrown : Unthrown seen)
    (taken : track (step config) EmptyPops.after seen label = some next) :
    Unthrown next ∧ next.1.shared.returned = seen.1.shared.returned := by
  obtain ⟨state, pops⟩ := seen
  obtain ⟨after, record⟩ := next
  obtain ⟨stepped, recorded⟩ := track_eq_some.mp taken
  obtain ⟨at_, shared, place, rfl, returned, plain⟩ := step_call begins stepped
  -- A call that begins is not counted as a pop.
  have kept : pops = record := by
    cases label with
    | run at_ fails => exact absurd rfl (begins at_ fails)
    | _ => exact recorded
  refine ⟨?_, returned⟩
  -- Its first place retries nothing.
  have own (place' : Place) (inside : some place = some place') : place'.Unthrown (pops at_) := by
    obtain rfl := Option.some.inj inside
    exact plain _
  have replaced := @Unthrown.withThread ι _ state pops unthrown at_ shared
    { state.thread at_ with place := some place } (pops at_) own
  rwa [Function.update_eq_self, kept] at replaced

variable {seen next : State ι × EmptyPops ι} {label : Label ι}

/-- A step that throws nothing leaves it so. -/
theorem step_unthrown (unthrown : Unthrown seen) (permitted : NoThrow seen.1 label)
    (taken : track (step config) EmptyPops.after seen label = some next) : Unthrown next := by
  cases label with
  | run at_ fails =>
    obtain ⟨place, inside, stepped, recorded⟩ := track_run taken
    -- An allocation may throw, but here it does not.
    have quiet : place.throws = true → fails = false := by
      simpa [NoThrow, inside] using permitted
    obtain ⟨after, record⟩ := next
    dsimp only at stepped recorded
    rw [stepped, recorded]
    exact unthrown.withThread at_ _ (placeStep_unthrown inside (unthrown at_ place inside) quiet)
  | construct at_ => exact (step_begin (by simp) unthrown taken).1
  | acquire at_ => exact (step_begin (by simp) unthrown taken).1
  | release at_ obj => exact (step_begin (by simp) unthrown taken).1

/-- A step returns no null pointer exactly if its thread has not made twenty pops in vain. -/
theorem step_null (unthrown : Unthrown seen) (permitted : FindsSlot seen.1 label)
    (taken : track (step config) EmptyPops.after seen label = some next) :
    none ∉ next.1.shared.returned ↔ none ∉ seen.1.shared.returned ∧ Patient seen label := by
  cases label with
  | run at_ fails =>
    obtain ⟨place, inside, stepped, -⟩ := track_run taken
    have own := unthrown at_ place inside
    rw [stepped, State.withThread_shared, placeStep_returned, List.mem_append, not_or]
    refine and_congr_right fun _ => ?_
    cases place with
    | retry n =>
      -- The number that is remembered is the number of the retry.
      obtain ⟨counted, most⟩ := own
      by_cases again : n < 20
      · simp [Place.answer, Patient, inside, counted, again, Nat.ne_of_lt again]
      · obtain rfl : n = 20 := by omega
        simp [Place.answer, Patient, inside, counted]
    | popAllocated =>
      have found := permitted inside
      simp [Place.answer, Patient, inside, found]
    | pushUnconstructed obj => exact own.elim
    | construct obj => cases fails <;> simp [Place.answer, Patient, inside]
    | _ => simp [Place.answer, Patient, inside]
  | construct at_ => simp [(step_begin (by simp) unthrown taken).2, Patient]
  | acquire at_ => simp [(step_begin (by simp) unthrown taken).2, Patient]
  | release at_ obj => simp [(step_begin (by simp) unthrown taken).2, Patient]

/--
Where nothing is thrown, null is returned exactly by threads that have made twenty pops in vain.

The runs are those in which a thread that has added a chunk finds a slot of it, or another one.
-/
theorem returns_null_iff {labels : List (Label ι)} {finish : State ι × EmptyPops ι}
    (run : Run (track (step config) EmptyPops.after)
      (fun seen label => NoThrow seen.1 label ∧ FindsSlot seen.1 label)
      (State.init ι config, fun _ => none) labels finish) :
    none ∉ finish.1.shared.returned ↔
      Run (track (step config) EmptyPops.after)
        (fun seen label => (NoThrow seen.1 label ∧ FindsSlot seen.1 label) ∧ Patient seen label)
        (State.init ι config, fun _ => none) labels finish := by
  have start : Unthrown (State.init ι config, fun _ => none) := by rintro _ _ ⟨⟩
  refine run.restrict_iff (I := Unthrown) (P := fun seen => none ∉ seen.1.shared.returned) start
    (by simp [State.init]) (fun _ _ => And.left)
    (fun _ _ _ unthrown permitted taken => step_unthrown unthrown permitted.1 taken) ?_
  intro seen label next unthrown permitted taken
  -- Where nothing is thrown, a step returns null exactly if its thread was not patient.
  rw [step_null unthrown permitted.2 taken]
  exact ⟨fun ⟨earlier, patient⟩ => ⟨earlier, permitted, patient⟩,
    fun ⟨earlier, _, patient⟩ => ⟨earlier, patient⟩⟩

/-- The first thread holds the only slot and is adding a chunk, and the second one gives up. -/
def givesUp : List (Label (Fin 2)) :=
  .construct 0 :: List.replicate 8 (.run 0 false) ++ .acquire 0 :: List.replicate 3 (.run 0 false) ++
    .acquire 0 :: List.replicate 4 (.run 0 false) ++ .acquire 1 :: List.replicate 25 (.run 1 false)

/-- A thread gives up after twenty pops, while another one allocates. -/
theorem acquire_fails : ¬ ∀ config : Config, 1 ≤ config.initialCount → 1 ≤ config.chunkSize →
    ∀ (threads : Nat) (labels : List (Label (Fin threads))) (finish : State (Fin threads)),
      Run (step config) NoThrow (State.init (Fin threads) config) labels finish →
        none ∉ finish.shared.returned := by
  intro never
  -- The second thread runs out of pops while the first one has not pushed its chunk yet.
  have executed : (execWhile (step ⟨1, 1, 32, 16⟩) NoThrow (State.init (Fin 2) ⟨1, 1, 32, 16⟩)
      givesUp).map (·.shared.returned) = some [some ⟨0, 0⟩, none] := by decide +kernel
  obtain ⟨finish, reached, returned⟩ := Option.map_eq_some_iff.mp executed
  have nonNull := never ⟨1, 1, 32, 16⟩ (by decide) (by decide) 2 givesUp finish (.of_execWhile reached)
  rw [returned] at nonNull
  exact nonNull (by decide)

end Runs

end Braid.Memory
