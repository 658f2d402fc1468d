import Mathlib.Algebra.BigOperators.Group.List.Basic
import Mathlib.Algebra.GroupWithZero.Nat
import Mathlib.Logic.Function.Iterate

/-! A queue of backlogs that are worked off in turn, a batch at a time. -/

namespace Rotation

variable {α β : Type*}

/-- A backlog goes back to the end of the queue, unless a batch has worked it off. -/
def requeue (batch : Nat) (backlog : α × List β) : List (α × List β) :=
  if backlog.2.length ≤ batch then [] else [(backlog.1, backlog.2.drop batch)]

/-- One turn: a batch of the first backlog is worked off. -/
def rotate (batch : Nat) : List (α × List β) → List (α × List β)
  | [] => []
  | backlog :: rest => rest ++ requeue batch backlog

/-- The number of turns that a backlog takes. -/
def turns (batch : Nat) (queue : List (α × List β)) : Nat :=
  (queue.map fun backlog => (backlog.2.length + batch - 1) / batch).sum

/-- The backlogs of a queue belong to different owners, and none of them is empty. -/
structure Proper (queue : List (α × List β)) : Prop where
  nodup : (queue.map Prod.fst).Nodup
  nonempty : ∀ backlog ∈ queue, backlog.2 ≠ []

variable {batch : Nat} {queue : List (α × List β)}

/-- Whose backlog is requeued. -/
theorem requeue_owner (backlog : α × List β) :
    (requeue batch backlog).map Prod.fst =
      if backlog.2.length ≤ batch then [] else [backlog.1] := by
  unfold requeue
  split <;> rfl

/-- A turn leaves the backlogs proper. -/
theorem Proper.rotate (proper : Proper queue) : Proper (rotate batch queue) := by
  cases queue with
  | nil => exact proper
  | cons backlog rest =>
    obtain ⟨nodup, nonempty⟩ := proper
    rw [List.map_cons, List.nodup_cons] at nodup
    -- The backlogs behind the first one are not touched.
    have still : ∀ other ∈ rest, other.2 ≠ [] := fun other member =>
      nonempty other (List.mem_cons_of_mem _ member)
    show Proper (rest ++ requeue batch backlog)
    by_cases short : backlog.2.length ≤ batch
    · simpa [requeue, short] using ⟨nodup.2, still⟩
    · refine ⟨?_, fun other member => ?_⟩
      · -- The owner of the first backlog is moved behind the others.
        rw [List.map_append, requeue_owner, if_neg short, List.nodup_append]
        refine ⟨nodup.2, by simp, fun owner member other last => ?_⟩
        obtain rfl := List.mem_singleton.mp last
        rintro rfl
        exact nodup.1 member
      · rcases List.mem_append.mp member with old | last
        · exact still other old
        · rw [requeue, if_neg short] at last
          obtain rfl := List.mem_singleton.mp last
          simpa using short

/-- Turns leave the backlogs proper. -/
theorem Proper.iterate (proper : Proper queue) (count : Nat) :
    Proper ((Rotation.rotate batch)^[count] queue) := by
  induction count with
  | zero => exact proper
  | succ count ih =>
    -- The last turn comes after all the others.
    rw [Function.iterate_succ_apply']
    exact ih.rotate

section Total

/-- A backlog takes one turn now, and the others when it is requeued. -/
theorem turns_requeue (positive : 0 < batch) {backlog : α × List β} (nonempty : backlog.2 ≠ []) :
    (backlog.2.length + batch - 1) / batch = turns batch (requeue batch backlog) + 1 := by
  have some : 0 < backlog.2.length := List.length_pos_iff.mpr nonempty
  by_cases short : backlog.2.length ≤ batch
  · -- One batch takes all of it.
    rw [requeue, if_pos short, turns, List.map_nil, List.sum_nil]
    exact Nat.div_eq_of_lt_le (by omega) (by omega)
  · -- What is left is a batch shorter.
    rw [requeue, if_neg short, turns, List.map_singleton, List.sum_singleton, List.length_drop,
      ← Nat.add_div_right _ positive]
    congr 1
    omega

/-- A turn is one of those that the backlogs take. -/
theorem turns_rotate (positive : 0 < batch) (proper : Proper queue) :
    turns batch (rotate batch queue) = turns batch queue - 1 := by
  cases queue with
  | nil => rfl
  | cons backlog rest =>
    -- The first backlog pays for the turn, and the others take as many as before.
    have taken := turns_requeue positive (proper.nonempty backlog List.mem_cons_self)
    have split : turns batch (rest ++ requeue batch backlog) =
        turns batch rest + turns batch (requeue batch backlog) := by
      simp only [turns, List.map_append, List.sum_append]
    have whole : turns batch (backlog :: rest) =
        (backlog.2.length + batch - 1) / batch + turns batch rest := by
      simp only [turns, List.map_cons, List.sum_cons]
    rw [rotate, split, whole, taken]
    omega

/-- The queue is empty exactly when no turns are left. -/
theorem turns_eq_zero_iff (positive : 0 < batch) (proper : Proper queue) :
    turns batch queue = 0 ↔ queue = [] := by
  refine ⟨fun none => ?_, fun empty => by rw [empty]; rfl⟩
  cases queue with
  | nil => rfl
  | cons backlog rest =>
    have taken := turns_requeue positive (proper.nonempty backlog List.mem_cons_self)
    -- A backlog in the queue has at least the turn it is about to have.
    rw [turns, List.map_cons, List.sum_cons, taken] at none
    omega

/-- The queue is empty after as many turns as the backlogs take, and not before. -/
theorem iterate_eq_nil_iff (positive : 0 < batch) (proper : Proper queue) (count : Nat) :
    (rotate batch)^[count] queue = [] ↔ turns batch queue ≤ count := by
  -- Each turn is one less, and there is none to be had in an empty queue.
  have left : turns batch ((rotate batch)^[count] queue) = turns batch queue - count := by
    induction count with
    | zero => rfl
    | succ count ih =>
      rw [Function.iterate_succ_apply', turns_rotate positive (proper.iterate count), ih]
      omega
  rw [← turns_eq_zero_iff positive (proper.iterate count), left]
  omega

end Total

section Fair

/-- The backlogs in front have their turns, and those of them that are not done are requeued. -/
theorem iterate_append (first rest : List (α × List β)) :
    (rotate batch)^[first.length] (first ++ rest) = rest ++ first.flatMap (requeue batch) := by
  induction first generalizing rest with
  | nil => simp
  | cons backlog first ih =>
    -- The first backlog is requeued behind the rest, which the other turns leave there.
    rw [List.length_cons, Function.iterate_succ_apply, List.cons_append, rotate, List.append_assoc,
      ih, List.flatMap_cons, List.append_assoc]

/-- The owner of the turn with a number. -/
def owner (batch : Nat) (queue : List (α × List β)) (turn : Nat) : Option α :=
  ((rotate batch)^[turn] queue).head?.map Prod.fst

/-- The backlogs of a queue have their turns in order. -/
theorem owner_of_lt {turn : Nat} (inside : turn < queue.length) :
    owner batch queue turn = some (queue[turn].1) := by
  -- Those in front have had their turns, and stand behind the others now.
  have moved : (rotate batch)^[turn] queue =
      queue.drop turn ++ (queue.take turn).flatMap (requeue batch) := by
    simpa [Nat.min_eq_left (Nat.le_of_lt inside)] using
      iterate_append (queue.take turn) (queue.drop turn)
  rw [List.drop_eq_getElem_cons inside] at moved
  rw [owner, moved]
  rfl

/-- The turns of a queue behind the first one are those of the queue that the first one leaves. -/
theorem owner_succ (turn : Nat) :
    owner batch queue (turn + 1) = owner batch (rotate batch queue) turn := by
  rw [owner, owner, Function.iterate_succ_apply]

/-- Nobody has a turn whose backlog is not in the queue. -/
theorem owner_mem {turn : Nat} {a : α} (turns : owner batch queue turn = some a) :
    a ∈ queue.map Prod.fst := by
  induction turn generalizing queue with
  | zero =>
    obtain ⟨backlog, first, rfl⟩ := Option.map_eq_some_iff.mp turns
    exact List.mem_map_of_mem (List.mem_of_head? first)
  | succ turn ih =>
    rw [owner_succ] at turns
    have member := ih turns
    cases queue with
    | nil => exact member
    | cons backlog rest =>
      -- Whoever is in the queue behind a turn was in it before the turn.
      rw [rotate, List.map_append, requeue_owner] at member
      rcases List.mem_append.mp member with old | last
      · exact List.mem_cons_of_mem _ old
      · split at last
        · cases last
        · exact List.mem_singleton.mp last ▸ List.mem_cons_self

/-- An owner comes back behind all others that wait, if at all. -/
theorem return_at {a : α} {items : List β} {rest : List (α × List β)} {next : Nat}
    (proper : Proper ((a, items) :: rest)) (later : 0 < next)
    (again : owner batch ((a, items) :: rest) next = some a)
    (between : ∀ turn, 0 < turn → turn < next → owner batch ((a, items) :: rest) turn ≠ some a) :
    next = rest.length + 1 := by
  have absent : a ∉ rest.map Prod.fst := by
    have nodup := proper.nodup
    rw [List.map_cons, List.nodup_cons] at nodup
    exact nodup.1
  obtain ⟨turn, rfl⟩ : ∃ turn, next = turn + 1 := ⟨next - 1, by omega⟩
  rw [owner_succ, rotate] at again
  -- A backlog that is not requeued has no turn any more.
  by_cases short : items.length ≤ batch
  · rw [requeue, if_pos short, List.append_nil] at again
    exact absurd (owner_mem again) absent
  rw [requeue, if_neg short] at again
  rcases Nat.lt_trichotomy turn rest.length with before | at_ | behind
  · -- The turns before belong to the others.
    rw [owner_of_lt (by simp; omega), List.getElem_append_left before] at again
    exact absurd (Option.some.inj again ▸ List.mem_map_of_mem (List.getElem_mem before)) absent
  · rw [at_]
  · -- The turn behind the others is one of its own.
    have own : owner batch ((a, items) :: rest) (rest.length + 1) = some a := by
      rw [owner_succ, rotate, requeue, if_neg short, owner_of_lt (by simp)]
      simp
    exact absurd own (between _ (by omega) (by omega))

/-- Between two turns of one owner, every other one with a backlog has exactly one turn. -/
theorem one_turn (proper : Proper queue) {a other : α} {next : Nat}
    (now : owner batch queue 0 = some a) (later : 0 < next)
    (again : owner batch queue next = some a)
    (between : ∀ turn, 0 < turn → turn < next → owner batch queue turn ≠ some a)
    (waits : other ∈ queue.map Prod.fst) (different : other ≠ a) :
    ∃! turn, 0 < turn ∧ turn < next ∧ owner batch queue turn = some other := by
  cases queue with
  | nil => cases waits
  | cons backlog rest =>
    obtain ⟨b, items⟩ := backlog
    obtain rfl : b = a := Option.some.inj now
    have ends := return_at proper later again between
    subst ends
    -- Up to then, the others have their turns in the order in which they stand.
    have turns (turn : Nat) (inside : turn < rest.length) :
        owner batch ((b, items) :: rest) (turn + 1) = some (rest[turn].1) := by
      rw [owner_succ, rotate, owner_of_lt (by simp; omega), List.getElem_append_left inside]
    obtain ⟨backlog, member, rfl⟩ := List.mem_map.mp waits
    have member : backlog ∈ rest := by
      rcases List.mem_cons.mp member with rfl | behind
      · exact absurd rfl different
      · exact behind
    obtain ⟨turn, inside, rfl⟩ := List.getElem_of_mem member
    refine ⟨turn + 1, ⟨by omega, by omega, turns turn inside⟩, ?_⟩
    rintro same ⟨positive, before, owns⟩
    -- The owners are different, so the turn with this owner is the only one.
    obtain ⟨index, rfl⟩ : ∃ index, same = index + 1 := ⟨same - 1, by omega⟩
    have within : index < rest.length := by omega
    rw [turns index within, Option.some.injEq] at owns
    have nodup : (rest.map Prod.fst).Nodup := (List.nodup_cons.mp proper.nodup).2
    have found : (rest.map Prod.fst)[index]? = (rest.map Prod.fst)[turn]? := by
      rw [List.getElem?_map, List.getElem?_map, List.getElem?_eq_getElem within,
        List.getElem?_eq_getElem inside, Option.map_some, Option.map_some, owns]
    have equal : index = turn := (List.getElem?_inj (by simpa using within) nodup).mp found
    rw [equal]

end Fair

end Rotation
