import Braid.Library.Allocation
import Braid.Service.Lifecycle
import Braid.Service.Streams

/-! The memory of operations, in runs where indices wrap, pushes fail and rings are full. -/

namespace Braid.Service

open Counting Transition
open Memory (Slot)

variable {m n k : Nat} {ω : Type}

/-- The operation that something carries, with the references that are counted for it. -/
def Token.owned : Token m → Option (Handle m × Int)
  | .carried phase handle => some (handle, phase.refCount)
  | _ => none

/-- The total of a quantity over the operations that are carried. -/
def State.owned (state : State m n k ω) (weight : Handle m × Int → Nat) : Nat :=
  state.total fun token => token.owned.elim 0 weight

/-- The operation has this number. -/
def numbered (id : Nat) (owned : Handle m × Int) : Nat := if owned.1.id = id then 1 else 0

/-- The operation is of this class. -/
def ofKind (kind : Kind) (owned : Handle m × Int) : Nat :=
  if owned.1.operation.kind = kind then 1 else 0

/-- What an event is for the pool of a class. -/
def Event.allocation (kind : Kind) : Event m → Option (Allocation.Event Slot)
  | .acquired handle slot => if handle.operation.kind = kind then some (.allocate slot) else none
  | .returned handle slot => if handle.operation.kind = kind then some (.free slot) else none
  | _ => none

/-- An operation of a class has reached no request queue. -/
def Event.drops (kind : Kind) : Event m → Bool
  | .dropped handle => handle.operation.kind = kind
  | _ => false

/-- The calls that a run has made on the pool of a class. -/
def Shared.allocations (shared : Shared m ω) (kind : Kind) : List (Allocation.Event Slot) :=
  shared.log.filterMap (Event.allocation kind)

/-- How many operations of a class have reached no request queue. -/
def Shared.drops (shared : Shared m ω) (kind : Kind) : Nat := shared.log.countP (Event.drops kind)

/-- The log goes on with events that are neither a use of a pool nor a loss. -/
structure Silent (shared after : Shared m ω) : Prop where
  allocations : after.allocations = shared.allocations
  drops : after.drops = shared.drops

/-- Events that say nothing about pools and losses leave both records as they are. -/
theorem Silent.of_log {shared after : Shared m ω} (events : List (Event m))
    (log : after.log = shared.log ++ events)
    (silent : ∀ event ∈ events, ∀ kind, event.allocation kind = none ∧ event.drops kind = false) :
    Silent shared after where
  allocations := by
    funext kind
    have none_ : events.filterMap (Event.allocation kind) = [] :=
      List.filterMap_eq_nil_iff.mpr fun event member => (silent event member kind).1
    simp [Shared.allocations, log, none_]
  drops := by
    funext kind
    have none_ : events.countP (Event.drops kind) = 0 :=
      List.countP_eq_zero.mpr fun event member => by simp [(silent event member kind).2]
    simp [Shared.drops, log, none_]

/-- What a step does to the memory of operations, with what is carried before and afterwards. -/
inductive Effect (shared after : Shared m ω) :
    List (Handle m × Int) → List (Handle m × Int) → Prop
  | keep {owned : List (Handle m × Int)} (memory : after.memory = shared.memory)
      (held : after.held = shared.held) (next : after.nextOperation = shared.nextOperation)
      (silent : Silent shared after) : Effect shared after owned owned
  | acquire {operation : Operation m} {slot : Slot} (free : slot ∉ shared.held operation.kind)
      (memory : after.memory = Function.update shared.memory shared.nextOperation
        (some ⟨operation.kind, slot, 0⟩))
      (held : after.held = Function.update shared.held operation.kind
        (slot :: shared.held operation.kind))
      (next : after.nextOperation = shared.nextOperation + 1)
      (log : after.log = shared.log ++ [.acquired ⟨shared.nextOperation, operation⟩ slot]) :
    Effect shared after [] [(⟨shared.nextOperation, operation⟩, 0)]
  | recount {handle : Handle m} {cell : Cell} {before refCount : Int}
      (found : shared.memory handle.id = some cell)
      (memory : after.memory = Function.update shared.memory handle.id
        (some { cell with refCount := cell.refCount + (refCount - before) }))
      (held : after.held = shared.held) (next : after.nextOperation = shared.nextOperation)
      (silent : Silent shared after) :
    Effect shared after [(handle, before)] [(handle, refCount)]
  -- A reference is given up while another one is left.
  | decrement {handle : Handle m} {cell : Cell} (found : shared.memory handle.id = some cell)
      (more : 1 < cell.refCount) : Effect shared after [(handle, 1)] []
  | giveBack {handle : Handle m} {cell : Cell} (found : shared.memory handle.id = some cell)
      (memory : after.memory = Function.update shared.memory handle.id none)
      (held : after.held = Function.update shared.held handle.operation.kind
        ((shared.held handle.operation.kind).erase cell.slot))
      (next : after.nextOperation = shared.nextOperation)
      (log : after.log = shared.log ++ [.returned handle cell.slot]) :
    Effect shared after [(handle, 0)] []
  | drop {handle : Handle m} (memory : after.memory = shared.memory)
      (held : after.held = shared.held) (next : after.nextOperation = shared.nextOperation)
      (log : after.log = shared.log ++ [.dropped handle]) : Effect shared after [(handle, 1)] []

variable {config : Config ω} {state next : State m n k ω} {label : Label n k ω}
  {lost gained : List (Token m)}

/-- Every move has one of these effects on what the operations live in. -/
theorem Move.effect {after : Shared m ω} (move : Move config state label lost gained after) :
    Effect state.shared after (lost.filterMap Token.owned) (gained.filterMap Token.owned) := by
  -- Most moves touch no memory, whatever they do to queues and rings.
  cases move with
  | quiet world => exact .keep rfl rfl rfl (.of_log [] (by simp) (by simp))
  | popSession queue => exact .keep rfl rfl rfl (.of_log [] (by simp) (by simp))
  | call cause head behind => exact .keep rfl rfl rfl (.of_log [] (by simp) (by simp))
  | receive session span => exact .keep rfl rfl rfl (.of_log [] (by simp) (by simp))
  | route => exact .keep rfl rfl rfl (.of_log [] (by simp) (by simp))
  | refuse cause head =>
    exact .keep rfl rfl rfl (.of_log _ rfl (by simp [Event.allocation, Event.drops]))
  | acquire free => exact .acquire free rfl rfl rfl rfl
  | addRef found =>
    refine .recount found ?_ rfl rfl (.of_log [] (by simp [Shared.setCell]) (by simp))
    simp [Shared.setCell, Phase.refCount]
  | turnAway cause head workers outside => exact .drop rfl rfl rfl rfl
  | failPush cause head => exact .drop rfl rfl rfl rfl
  | @advance before after plain handle =>
    -- The reference stays what it is from the queue to the completion.
    have same : before.refCount = after.refCount := by cases plain <;> rfl
    simp only [List.filterMap_cons, List.filterMap_nil, Token.owned, same]
    exact .keep rfl rfl rfl (.of_log [] (by simp) (by simp))
  | @handle _ _ moved result _ _ _ _ shared more handled =>
    obtain ⟨memory, log, next, held, -⟩ := handleIoCompletion_frame handled
    -- The calls that follow carry no operation.
    have none_ : (more.flatMap Todo.tokens).filterMap Token.owned = [] := by
      refine List.filterMap_eq_nil_iff.mpr fun token member => ?_
      rw [handleIoCompletion_tokens handled token member]
      rfl
    simp only [List.filterMap_cons, List.filterMap_nil, Token.owned, none_]
    exact .keep memory held next (.of_log [.handled moved result] (by simp [Shared.record, log])
      (by simp [Event.allocation, Event.drops]))
  | shutdown close =>
    exact .keep rfl rfl rfl (.of_log _ rfl (by simp [Event.allocation, Event.drops]))
  | prepare handle =>
    exact .keep rfl rfl rfl (.of_log _ rfl (by simp [Event.allocation, Event.drops]))
  | submit entries =>
    -- An entry counts for the same operation and reference on both sides of the submission.
    rw [List.filterMap_map, List.filterMap_map]
    exact .keep rfl rfl rfl (.of_log _ rfl (by simp [Event.allocation, Event.drops]))
  | start cause found =>
    have frame := startEntry_frame state.shared ‹_›
    exact .keep (by rw [frame]) (by rw [frame]) (by rw [frame])
      (.of_log _ (by rw [frame]) (by simp [Event.allocation, Event.drops]))
  | complete cause found done =>
    obtain ⟨memory, log, next, held, -⟩ := completeStarted_frame done
    exact .keep memory held next (.of_log _ (by rw [← log]; rfl)
      (by simp [Event.allocation, Event.drops]))
  | zero found last =>
    refine .recount found ?_ rfl rfl (.of_log _ rfl (by simp [Event.allocation, Event.drops]))
    simp [Shared.setCell, Shared.record, Phase.refCount, Int.sub_eq_add_neg]
  | decrement handle found more => exact .decrement found more
  | giveBack found => exact .giveBack found rfl rfl rfl rfl
  | useAfterRelease phase missing =>
    exact .keep rfl rfl rfl (.of_log [] (by simp [Shared.stop]) (by simp))
  | releaseAtZero found zero =>
    exact .keep rfl rfl rfl (.of_log [] (by simp [Shared.stop]) (by simp))
  | nullEntry cause takes full =>
    exact .keep rfl rfl rfl (.of_log [] (by simp [Shared.stop]) (by simp))
  | divide => exact .keep rfl rfl rfl (.of_log [] (by simp [Shared.stop]) (by simp))

/-- The total over what is carried changes by what the effect takes away and adds. -/
theorem owned_moved
    (total : ∀ weight, next.total weight + tally weight lost =
      state.total weight + tally weight gained ∧ tally weight lost ≤ state.total weight)
    (weight : Handle m × Int → Nat) :
    next.owned weight + tally weight (lost.filterMap Token.owned) =
        state.owned weight + tally weight (gained.filterMap Token.owned) ∧
      tally weight (lost.filterMap Token.owned) ≤ state.owned weight := by
  -- A token that carries no operation adds nothing on either side.
  have same (tokens : List (Token m)) :
      tally (fun token : Token m => token.owned.elim 0 weight) tokens =
        tally weight (tokens.filterMap Token.owned) := by
    induction tokens with
    | nil => rfl
    | cons token rest ih =>
      rw [tally_cons, ih, List.filterMap_cons]
      cases token.owned <;> simp
  rw [← same, ← same]
  exact total _

/-- How many times an operation is carried with a reference count. -/
def State.holds (state : State m n k ω) (owned : Handle m × Int) : Nat :=
  state.owned fun other => if other = owned then 1 else 0

/--
The memory of the operations fits what is carried, and each pool what it is used for.

No operation is carried twice. One that is carried has a cell of its class, with the references
that its phase counts; the slots of the cells are in use and differ within a class. What the pools
were called for explains the slots in use, and these are the operations carried and lost.
-/
structure Stored (state : State m n k ω) : Prop where
  single : ∀ id, state.owned (numbered id) ≤ 1
  cell : ∀ handle refCount, 0 < state.holds (handle, refCount) →
    ∃ slot, state.shared.memory handle.id = some ⟨handle.operation.kind, slot, refCount⟩
  fresh : ∀ id, state.shared.nextOperation ≤ id →
    state.owned (numbered id) = 0 ∧ state.shared.memory id = none
  slots : ∀ id cell, state.shared.memory id = some cell → cell.slot ∈ state.shared.held cell.kind
  apart : ∀ first second cell other, state.shared.memory first = some cell →
    state.shared.memory second = some other → cell.kind = other.kind → cell.slot = other.slot →
      first = second
  allocated : ∀ kind, exec Allocation.step [] (state.shared.allocations kind) =
    some (state.shared.held kind)
  length : ∀ kind, (state.shared.held kind).length =
    state.owned (ofKind kind) + state.shared.drops kind
  sound : state.shared.fault ≠ some .usedAfterRelease ∧ state.shared.fault ≠ some .releasedAtZero

/-- Nothing is stored when the service starts. -/
theorem init_stored (config : Config ω) (world : ω) : Stored (State.init m n k config world) where
  single id := by rw [State.owned, init_total]; exact Nat.zero_le _
  cell handle refCount present := by
    rw [State.holds, State.owned, init_total] at present
    cases present
  fresh id _ := ⟨init_total config world _, rfl⟩
  slots id cell found := by cases found
  apart first second cell other found := by cases found
  allocated kind := rfl
  length kind := by rw [State.owned, init_total]; rfl
  sound := ⟨by rintro ⟨⟩, by rintro ⟨⟩⟩

/-- Where no number is carried twice, the number says which operation it is. -/
theorem holds_unique (single : ∀ id, state.owned (numbered id) ≤ 1) {first second : Handle m × Int}
    (one : 0 < state.holds first) (two : 0 < state.holds second)
    (same : first.1.id = second.1.id) : first = second := by
  by_contra different
  -- Two of them would count twice for their number.
  have both : state.holds first + state.holds second ≤ state.owned (numbered first.1.id) := by
    rw [State.holds, State.holds, State.owned, State.owned, ← total_add]
    -- Whatever is one of the two has the number of both.
    refine total_mono fun token => ?_
    cases token.owned with
    | none => exact Nat.zero_le _
    | some owned =>
      simp only [Option.elim_some, numbered]
      by_cases isFirst : owned = first <;> by_cases isSecond : owned = second <;> simp_all
  have once := single first.1.id
  omega

/-- What is carried is carried under its number. -/
theorem holds_le_numbered (state : State m n k ω) (owned : Handle m × Int) :
    state.holds owned ≤ state.owned (numbered owned.1.id) := by
  refine total_mono fun token => ?_
  cases token.owned with
  | none => exact Nat.zero_le _
  | some other =>
    simp only [Option.elim_some, numbered]
    by_cases same : other = owned <;> simp [same]

/-- An operation that is in use is carried with the references of its phase. -/
theorem carries_le_holds (state : State m n k ω) (phase : Phase m) (handle : Handle m) :
    state.carries (.carried phase handle) ≤ state.holds (handle, phase.refCount) := by
  refine total_mono fun token => ?_
  by_cases same : token = .carried phase handle
  · simp [same, Token.owned]
  · simp [same]

/-- What is carried after a step, and what the step has done to it, by the weight that counts it. -/
structure Carried (state next : State m n k ω) (lost gained : List (Handle m × Int)) : Prop where
  total : ∀ weight, next.owned weight + tally weight lost = state.owned weight + tally weight gained
  within : ∀ weight, tally weight lost ≤ state.owned weight

section Carried

variable {lost gained : List (Handle m × Int)} {moved : Handle m} {before refCount : Int}

/-- What is given is held afterwards. -/
theorem Carried.given (carried : Carried state next lost [(moved, refCount)]) :
    0 < next.holds (moved, refCount) := by
  have total := carried.total fun other => if other = (moved, refCount) then 1 else 0
  have within := carried.within fun other => if other = (moved, refCount) then 1 else 0
  simp only [tally_cons, tally_nil, if_true, State.holds] at total ⊢
  omega

/-- What is taken away was held before. -/
theorem Carried.taken (carried : Carried state next [(moved, before)] gained) :
    0 < state.holds (moved, before) := by
  have within := carried.within fun other => if other = (moved, before) then 1 else 0
  simp only [tally_cons, tally_nil, if_true, State.holds] at within ⊢
  omega

/-- An operation that is given or taken neither by its step was held before. -/
theorem Carried.other (carried : Carried state next lost gained) {owned : Handle m × Int}
    (held : 0 < next.holds owned) (aside : owned ∉ gained) : 0 < state.holds owned := by
  have total := carried.total fun other => if other = owned then 1 else 0
  have none_ : tally (fun other => if other = owned then 1 else 0) gained = 0 :=
    tally_eq_zero.mpr fun other member => if_neg fun same : other = owned => aside (same ▸ member)
  simp only [State.holds] at held ⊢
  omega

end Carried

/-- A call on a pool is remembered behind the earlier ones. -/
theorem allocations_append {shared after : Shared m ω} {event : Event m}
    (log : after.log = shared.log ++ [event]) (kind : Kind) :
    after.allocations kind = shared.allocations kind ++ (event.allocation kind).toList := by
  rw [Shared.allocations, log, List.filterMap_append]
  cases found : event.allocation kind <;> simp [Shared.allocations, found]

/-- A loss is counted on top of the earlier ones. -/
theorem drops_append {shared after : Shared m ω} {event : Event m}
    (log : after.log = shared.log ++ [event]) (kind : Kind) :
    after.drops kind = shared.drops kind + if event.drops kind then 1 else 0 := by
  rw [Shared.drops, log, List.countP_append, List.countP_singleton]
  rfl

/-- An acquired operation has a slot that no other one has. -/
theorem Stored.acquire {operation : Operation m} {slot : Slot} (stored : Stored state)
    (carried : Carried state next [] [(⟨state.shared.nextOperation, operation⟩, 0)])
    (free : slot ∉ state.shared.held operation.kind)
    (memory : next.shared.memory = Function.update state.shared.memory
      state.shared.nextOperation (some ⟨operation.kind, slot, 0⟩))
    (held : next.shared.held = Function.update state.shared.held operation.kind
      (slot :: state.shared.held operation.kind))
    (number : next.shared.nextOperation = state.shared.nextOperation + 1)
    (log : next.shared.log =
      state.shared.log ++ [.acquired ⟨state.shared.nextOperation, operation⟩ slot])
    (sound : next.shared.fault ≠ some .usedAfterRelease ∧
      next.shared.fault ≠ some .releasedAtZero) : Stored next := by
  have total := carried.total
  simp only [tally_cons, tally_nil] at total
  have single (id : Nat) : next.owned (numbered id) ≤ 1 := by
    have changed := total (numbered id)
    have once := stored.single id
    by_cases new : state.shared.nextOperation = id
    · -- The number is the next one, which nothing was carried under.
      have nothing := (stored.fresh id (Nat.le_of_eq new)).1
      have one : numbered id ((⟨state.shared.nextOperation, operation⟩ : Handle m), 0) = 1 :=
        if_pos new
      omega
    · have none_ : numbered id ((⟨state.shared.nextOperation, operation⟩ : Handle m), 0) = 0 :=
        if_neg new
      omega
  refine ⟨single, fun handle refCount present => ?_, fun id above => ⟨?_, ?_⟩,
    fun id cell found => ?_, fun first second cell other foundFirst foundSecond kinds slots => ?_,
    fun kind => ?_, fun kind => ?_, sound⟩
  · rw [memory]
    by_cases new : handle.id = state.shared.nextOperation
    · cases holds_unique single present carried.given new
      exact ⟨slot, Function.update_self ..⟩
    · rw [Function.update_of_ne new]
      refine stored.cell handle refCount (carried.other present fun member => new ?_)
      cases List.mem_singleton.mp member
      rfl
  · have changed := total (numbered id)
    have nothing := (stored.fresh id (by omega)).1
    rw [numbered, if_neg (by dsimp only; omega)] at changed
    omega
  · rw [memory, Function.update_of_ne (by omega)]
    exact (stored.fresh id (by omega)).2
  · rw [memory, Function.update_apply] at found
    rw [held]
    split at found
    · cases found
      simp
    · exact mem_update_cons.mpr (.inl (stored.slots id cell found))
  · -- The new slot was not in use, so that it is not one of another cell of its class.
    rw [memory, Function.update_apply] at foundFirst foundSecond
    split at foundFirst <;> split at foundSecond
    · rename_i isFirst isSecond
      rw [isFirst, isSecond]
    · cases foundFirst
      have used := stored.slots _ _ foundSecond
      rw [← kinds, ← slots] at used
      exact absurd used free
    · cases foundSecond
      have used := stored.slots _ _ foundFirst
      rw [kinds, slots] at used
      exact absurd used free
    · exact stored.apart first second cell other foundFirst foundSecond kinds slots
  · -- The pool has handed out a slot that was free.
    rw [allocations_append log, exec_append, stored.allocated, Option.bind_some, held,
      Function.update_apply, Event.allocation]
    by_cases same : operation.kind = kind
    · subst same
      simp [exec, Allocation.step, free]
    · simp [exec, same, Ne.symm same]
  · -- One operation more is carried, and one slot more is in use.
    have changed := total (ofKind kind)
    have length := stored.length kind
    rw [held, drops_append log, Function.update_apply]
    by_cases same : operation.kind = kind
    · subst same
      simp [ofKind, Event.drops] at changed length ⊢
      omega
    · simp [ofKind, Event.drops, same, Ne.symm same] at changed length ⊢
      omega

/-- A change that no pool notices keeps what is stored, if it keeps what is carried. -/
theorem Stored.keep (stored : Stored state)
    (same : ∀ weight, next.owned weight = state.owned weight)
    (memory : next.shared.memory = state.shared.memory)
    (held : next.shared.held = state.shared.held)
    (number : next.shared.nextOperation = state.shared.nextOperation)
    (silent : Silent state.shared next.shared)
    (sound : next.shared.fault ≠ some .usedAfterRelease ∧
      next.shared.fault ≠ some .releasedAtZero) : Stored next where
  single id := same _ ▸ stored.single id
  cell handle refCount present := by
    rw [memory]
    exact stored.cell handle refCount (by rwa [State.holds, same] at present)
  fresh id above := by
    rw [same, memory]
    exact stored.fresh id (number ▸ above)
  slots := by rw [memory, held]; exact stored.slots
  apart := by rw [memory]; exact stored.apart
  allocated kind := by rw [silent.allocations, held]; exact stored.allocated kind
  length kind := by rw [held, same, silent.drops]; exact stored.length kind
  sound := sound

/-- A changed count is the one of the operation that is carried on. -/
theorem Stored.recount {moved : Handle m} {found : Cell} {before refCount : Int}
    (stored : Stored state) (carried : Carried state next [(moved, before)] [(moved, refCount)])
    (present : state.shared.memory moved.id = some found)
    (memory : next.shared.memory = Function.update state.shared.memory moved.id
      (some { found with refCount := found.refCount + (refCount - before) }))
    (held : next.shared.held = state.shared.held)
    (number : next.shared.nextOperation = state.shared.nextOperation)
    (silent : Silent state.shared next.shared)
    (sound : next.shared.fault ≠ some .usedAfterRelease ∧
      next.shared.fault ≠ some .releasedAtZero) : Stored next := by
  have total := carried.total
  simp only [tally_cons, tally_nil] at total
  -- Neither the number nor the class of the operation changes.
  have sameNumber (id : Nat) : next.owned (numbered id) = state.owned (numbered id) := by
    have changed := total (numbered id)
    have same : numbered id (moved, before) = numbered id (moved, refCount) := rfl
    omega
  have sameKind (kind : Kind) : next.owned (ofKind kind) = state.owned (ofKind kind) := by
    have changed := total (ofKind kind)
    have same : ofKind kind (moved, before) = ofKind kind (moved, refCount) := rfl
    omega
  have single (id : Nat) : next.owned (numbered id) ≤ 1 := sameNumber id ▸ stored.single id
  -- A cell has the class and the slot that it had before.
  have unmoved {id : Nat} {cell : Cell} (here : next.shared.memory id = some cell) :
      ∃ old, state.shared.memory id = some old ∧ old.kind = cell.kind ∧ old.slot = cell.slot := by
    rw [memory, Function.update_apply] at here
    split at here
    · rename_i same
      cases here
      exact ⟨found, same ▸ present, rfl, rfl⟩
    · exact ⟨cell, here, rfl, rfl⟩
  refine ⟨single, fun handle count holds => ?_, fun id above => ⟨?_, ?_⟩, fun id cell here => ?_,
    fun first second cell other foundFirst foundSecond kinds slots => ?_, fun kind => ?_,
    fun kind => ?_, sound⟩
  · -- The one whose count changes has it, and the others have their own.
    rw [memory]
    by_cases same : handle.id = moved.id
    · cases holds_unique single holds carried.given same
      obtain ⟨slot, cell⟩ := stored.cell _ _ carried.taken
      rw [present, Option.some.injEq] at cell
      subst cell
      refine ⟨slot, ?_⟩
      rw [Function.update_self, Option.some.injEq, Cell.mk.injEq]
      exact ⟨rfl, rfl, by dsimp only; omega⟩
    · rw [Function.update_of_ne same]
      refine stored.cell handle count (carried.other holds fun member => same ?_)
      cases List.mem_singleton.mp member
      rfl
  · rw [sameNumber]
    exact (stored.fresh id (number ▸ above)).1
  · have missing := (stored.fresh id (number ▸ above)).2
    rw [memory, Function.update_of_ne fun same => by rw [same, present] at missing; cases missing]
    exact missing
  · obtain ⟨old, there, kind, slot⟩ := unmoved here
    rw [held, ← kind, ← slot]
    exact stored.slots id old there
  · obtain ⟨one, thereFirst, kindFirst, slotFirst⟩ := unmoved foundFirst
    obtain ⟨two, thereSecond, kindSecond, slotSecond⟩ := unmoved foundSecond
    exact stored.apart first second one two thereFirst thereSecond
      (by rw [kindFirst, kindSecond, kinds]) (by rw [slotFirst, slotSecond, slots])
  · rw [silent.allocations, held]
    exact stored.allocated kind
  · rw [held, sameKind, silent.drops]
    exact stored.length kind

/-- What is no longer carried leaves its number to nobody. -/
theorem Stored.gone {moved : Handle m} {refCount : Int} (stored : Stored state)
    (carried : Carried state next [(moved, refCount)] []) :
    (∀ id, next.owned (numbered id) ≤ state.owned (numbered id)) ∧
      next.owned (numbered moved.id) = 0 := by
  have total := carried.total
  simp only [tally_cons, tally_nil] at total
  refine ⟨fun id => by have changed := total (numbered id); omega, ?_⟩
  have changed := total (numbered moved.id)
  -- It was carried once, and now it is not.
  have once := stored.single moved.id
  have one : numbered moved.id (moved, refCount) = 1 := if_pos rfl
  omega

/-- The slot of an operation without references goes back to the pool that it came from. -/
theorem Stored.giveBack {moved : Handle m} {found : Cell} (stored : Stored state)
    (carried : Carried state next [(moved, 0)] [])
    (present : state.shared.memory moved.id = some found)
    (memory : next.shared.memory = Function.update state.shared.memory moved.id none)
    (held : next.shared.held = Function.update state.shared.held moved.operation.kind
      ((state.shared.held moved.operation.kind).erase found.slot))
    (number : next.shared.nextOperation = state.shared.nextOperation)
    (log : next.shared.log = state.shared.log ++ [.returned moved found.slot])
    (sound : next.shared.fault ≠ some .usedAfterRelease ∧
      next.shared.fault ≠ some .releasedAtZero) : Stored next := by
  have total := carried.total
  simp only [tally_cons, tally_nil] at total
  obtain ⟨fewer, nobody⟩ := stored.gone carried
  -- The operation was carried until now, and its cell is one of its class.
  obtain ⟨slot, cell⟩ := stored.cell _ _ carried.taken
  rw [present, Option.some.injEq] at cell
  have used := stored.slots _ _ present
  rw [cell] at used held log
  dsimp only at used held log
  have elsewhere {id : Nat} {cell : Cell} (here : next.shared.memory id = some cell) :
      id ≠ moved.id ∧ state.shared.memory id = some cell := by
    rw [memory, Function.update_apply] at here
    split at here
    · cases here
    · exact ⟨‹_›, here⟩
  refine ⟨fun id => Nat.le_trans (fewer id) (stored.single id), fun handle refCount holds => ?_,
    fun id above => ⟨?_, ?_⟩, fun id other here => ?_,
    fun first second one two foundFirst foundSecond => ?_, fun kind => ?_, fun kind => ?_, sound⟩
  · -- Whoever is still carried has another number.
    have other : handle.id ≠ moved.id := fun same => by
      have under := holds_le_numbered next (handle, refCount)
      rw [same, nobody] at under
      omega
    rw [memory, Function.update_of_ne other]
    exact stored.cell handle refCount (carried.other holds (by simp))
  · have nothing := (stored.fresh id (number ▸ above)).1
    have less := fewer id
    omega
  · rw [memory, Function.update_apply]
    split
    · rfl
    · exact (stored.fresh id (number ▸ above)).2
  · obtain ⟨different, there⟩ := elsewhere here
    have inUse := stored.slots _ _ there
    rw [held, Function.update_apply]
    split
    · -- A cell of the same class has another slot, so that it stays in use.
      rename_i same
      rw [same] at inUse
      refine (List.mem_erase_of_ne fun equal => different ?_).mpr inUse
      exact stored.apart _ _ _ _ there present (by rw [same, cell]) (by rw [equal, cell])
    · exact inUse
  · exact stored.apart first second one two (elsewhere foundFirst).2 (elsewhere foundSecond).2
  · -- The slot that goes back was in use.
    rw [allocations_append log, exec_append, stored.allocated, Option.bind_some, held,
      Function.update_apply, Event.allocation]
    by_cases same : moved.operation.kind = kind
    · subst same
      simp [exec, Allocation.step, used]
    · simp [exec, same, Ne.symm same]
  · -- One operation less is carried, and one slot less is in use.
    have changed := total (ofKind kind)
    have length := stored.length kind
    rw [held, drops_append log, Function.update_apply]
    by_cases same : moved.operation.kind = kind
    · subst same
      have some_ := List.length_pos_of_mem used
      simp [ofKind, Event.drops, List.length_erase_of_mem used] at changed length ⊢
      omega
    · simp [ofKind, Event.drops, same, Ne.symm same] at changed length ⊢
      omega

/-- An operation that is turned away keeps its slot for good. -/
theorem Stored.drop {moved : Handle m} (stored : Stored state)
    (carried : Carried state next [(moved, 1)] [])
    (memory : next.shared.memory = state.shared.memory)
    (held : next.shared.held = state.shared.held)
    (number : next.shared.nextOperation = state.shared.nextOperation)
    (log : next.shared.log = state.shared.log ++ [.dropped moved])
    (sound : next.shared.fault ≠ some .usedAfterRelease ∧
      next.shared.fault ≠ some .releasedAtZero) : Stored next := by
  have total := carried.total
  simp only [tally_cons, tally_nil] at total
  obtain ⟨fewer, -⟩ := stored.gone carried
  refine ⟨fun id => Nat.le_trans (fewer id) (stored.single id), fun handle refCount holds => ?_,
    fun id above => ⟨?_, ?_⟩, ?_, ?_, fun kind => ?_, fun kind => ?_, sound⟩
  · rw [memory]
    exact stored.cell handle refCount (carried.other holds (by simp))
  · have nothing := (stored.fresh id (number ▸ above)).1
    have less := fewer id
    omega
  · rw [memory]
    exact (stored.fresh id (number ▸ above)).2
  · rw [memory, held]
    exact stored.slots
  · rw [memory]
    exact stored.apart
  · rw [allocations_append log, held]
    simpa [Event.allocation] using stored.allocated kind
  · -- What is not carried any more is counted as a loss.
    have changed := total (ofKind kind)
    have length := stored.length kind
    rw [held, drops_append log]
    simp only [ofKind, Event.drops, decide_eq_true_eq] at changed length ⊢
    omega

/-- Every step keeps what is stored, whatever index, push or ring fails. -/
theorem step_stored (stored : Stored state) (taken : step config state label = some next) :
    Stored next := by
  obtain ⟨running, lost, gained, move, total⟩ := step_moved config taken
  have carried : Carried state next (lost.filterMap Token.owned) (gained.filterMap Token.owned) :=
    ⟨fun weight => (owned_moved total weight).1, fun weight => (owned_moved total weight).2⟩
  -- What a step takes away was carried before, and so it has a cell.
  have alive {phase : Phase m} {handle : Handle m} (member : .carried phase handle ∈ lost) :
      ∃ slot, state.shared.memory handle.id =
        some ⟨handle.operation.kind, slot, phase.refCount⟩ := by
    refine stored.cell handle phase.refCount ?_
    have within := (carries_moved total (.carried phase handle)).2
    have present := List.count_pos_iff.mpr member
    have holds := carries_le_holds state phase handle
    omega
  -- Both faults need a cell that is missing or has no reference.
  have sound : next.shared.fault ≠ some .usedAfterRelease ∧
      next.shared.fault ≠ some .releasedAtZero := by
    refine ⟨fun stopped => ?_, fun stopped => ?_⟩
    · obtain ⟨phase, handle, member, missing⟩ := (move.fault running).1 stopped
      obtain ⟨slot, found⟩ := alive member
      rw [missing] at found
      cases found
    · obtain ⟨handle, cell, member, found, zero⟩ := (move.fault running).2 stopped
      obtain ⟨slot, here⟩ := alive member
      rw [found, Option.some.injEq] at here
      subst here
      simp [Phase.refCount] at zero
  have effect := move.effect
  generalize lost.filterMap Token.owned = before at carried effect
  generalize gained.filterMap Token.owned = after at carried effect
  cases effect with
  | keep memory held number silent =>
    refine stored.keep (fun weight => ?_) memory held number silent sound
    have changed := carried.total weight
    omega
  | acquire free memory held number log =>
    exact stored.acquire carried free memory held number log sound
  | recount found memory held number silent =>
    exact stored.recount carried found memory held number silent sound
  | decrement found more =>
    -- A handled operation has a single reference.
    obtain ⟨slot, cell⟩ := stored.cell _ _ carried.taken
    rw [found, Option.some.injEq] at cell
    subst cell
    simp at more
  | giveBack found memory held number log =>
    exact stored.giveBack carried found memory held number log sound
  | drop memory held number log => exact stored.drop carried memory held number log sound

/--
The memory of operations is managed correctly in every run.

Indices may wrap, pushes may fail and rings may be full: still no operation is used after its
release or released without a reference, each one is carried in at most one place and has the cell
and the count that the place says, and every pool is called as an allocator may be called. What is
in use beyond the operations that are carried are the slots of those that reached no queue.
-/
theorem operations_stored {world : ω} {labels : List (Label n k ω)}
    (run : Run (step config) anyStep (State.init m n k config world) labels state) :
    (state.shared.fault ≠ some .usedAfterRelease ∧ state.shared.fault ≠ some .releasedAtZero) ∧
    (∀ id, state.owned (numbered id) ≤ 1) ∧
    (∀ phase handle, 0 < state.carries (.carried phase handle) →
      ∃ slot ∈ state.shared.held handle.operation.kind,
        state.shared.memory handle.id = some ⟨handle.operation.kind, slot, phase.refCount⟩) ∧
    ∀ kind, exec Allocation.step [] (state.shared.allocations kind) =
        some (state.shared.held kind) ∧
      (state.shared.held kind).length = state.owned (ofKind kind) + state.shared.drops kind := by
  have stored : Stored state := run.invariant (init_stored config world)
    fun _ _ _ holds _ taken => step_stored holds taken
  -- What is said about the classes is part of the invariant.
  refine ⟨stored.sound, stored.single, fun phase handle present => ?_,
    fun kind => ⟨stored.allocated kind, stored.length kind⟩⟩
  obtain ⟨slot, found⟩ := stored.cell handle phase.refCount
    (Nat.lt_of_lt_of_le present (carries_le_holds state phase handle))
  exact ⟨slot, stored.slots _ _ found, found⟩

/-- An accept is requested, and its push fails. -/
def pushFails : List (Label 1 1 Unit) :=
  [.run .main none false, .run .main (some ⟨0, 0⟩) false, .run .main none false,
    .run .main none false, .run .main none true]

/-- The slot of an operation whose push fails is in use, and nothing carries it. -/
theorem operations_stored_pushFails :
    ∃ state : State 2 1 1 Unit,
      ((state.shared.fault ≠ some .usedAfterRelease ∧ state.shared.fault ≠ some .releasedAtZero) ∧
        (∀ id, state.owned (numbered id) ≤ 1) ∧
        (∀ phase handle, 0 < state.carries (.carried phase handle) →
          ∃ slot ∈ state.shared.held handle.operation.kind,
            state.shared.memory handle.id =
              some ⟨handle.operation.kind, slot, phase.refCount⟩) ∧
        ∀ kind, exec Allocation.step [] (state.shared.allocations kind) =
            some (state.shared.held kind) ∧
          (state.shared.held kind).length =
            state.owned (ofKind kind) + state.shared.drops kind) ∧
      state.shared.held .accept = [⟨0, 0⟩] ∧ state.shared.drops .accept = 1 := by
  have executed : (exec (step smallConfig) (State.init 2 1 1 smallConfig ()) pushFails).any
      fun state => state.shared.held .accept = [⟨0, 0⟩] ∧ state.shared.drops .accept = 1 := by
    decide +kernel
  obtain ⟨state, reached, leaked⟩ := (Option.any_eq_true _ _).mp executed
  exact ⟨state, operations_stored (.of_exec reached), of_decide_eq_true leaked⟩

end Braid.Service
