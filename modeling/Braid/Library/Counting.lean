import Mathlib.Algebra.BigOperators.Group.Finset.Basic
import Mathlib.Algebra.GroupWithZero.Nat
import Mathlib.Algebra.Order.BigOperators.Group.Finset
import Mathlib.Data.Fintype.Basic

/-! Sums of a quantity over a family, and what its lists hold, as one member of it changes. -/

namespace Counting

variable {ι α : Type*}

/-- The total of a quantity over the entries of a list. -/
def tally (quantity : α → Nat) (entries : List α) : Nat := (entries.map quantity).sum

@[simp] theorem tally_nil (quantity : α → Nat) : tally quantity [] = 0 := rfl

@[simp] theorem tally_cons (quantity : α → Nat) (first : α) (rest : List α) :
    tally quantity (first :: rest) = quantity first + tally quantity rest := by
  simp [tally]

@[simp] theorem tally_append (quantity : α → Nat) (first second : List α) :
    tally quantity (first ++ second) = tally quantity first + tally quantity second := by
  simp [tally]

/-- The total does not depend on the order of the entries. -/
@[simp] theorem tally_reverse (quantity : α → Nat) (entries : List α) :
    tally quantity entries.reverse = tally quantity entries := by
  induction entries with
  | nil => rfl
  | cons first rest ih => simp [ih, Nat.add_comm]

/-- The total over a list is the total over a beginning of it and over the rest. -/
theorem tally_take_drop (quantity : α → Nat) (count : Nat) (entries : List α) :
    tally quantity (entries.take count) + tally quantity (entries.drop count) =
      tally quantity entries := by
  rw [← tally_append, List.take_append_drop]

/-- Erasing an entry takes its own quantity off the total. -/
theorem tally_erase [DecidableEq α] (quantity : α → Nat) {entry : α} {entries : List α}
    (member : entry ∈ entries) :
    tally quantity (entries.erase entry) + quantity entry = tally quantity entries := by
  -- Erasing and putting back in front is a permutation.
  have same := (List.perm_cons_erase member).map quantity
  have total := same.sum_eq
  simp only [tally, List.map_cons, List.sum_cons] at total ⊢
  omega

/-- The total over the images of the entries. -/
@[simp] theorem tally_map {β : Type*} (quantity : β → Nat) (f : α → β) (entries : List α) :
    tally quantity (entries.map f) = tally (fun entry => quantity (f entry)) entries := by
  simp [tally, Function.comp_def]

/-- The total is nothing when no entry adds to it. -/
theorem tally_eq_zero {quantity : α → Nat} {entries : List α} :
    tally quantity entries = 0 ↔ ∀ entry ∈ entries, quantity entry = 0 := by
  simp [tally, List.sum_eq_zero_iff]

/-- Taking out the entry at a position takes its own quantity off the total. -/
theorem tally_eraseIdx (quantity : α → Nat) {entry : α} {entries : List α} {i : Nat}
    (found : entries[i]? = some entry) :
    tally quantity (entries.eraseIdx i) + quantity entry = tally quantity entries := by
  induction entries generalizing i with
  | nil => cases found
  | cons first rest ih =>
    cases i with
    -- The entry is the first one, or it is among the others.
    | zero => cases found; simp [Nat.add_comm]
    | succ i =>
      have shorter := ih (i := i) (by simpa using found)
      simp only [List.eraseIdx_cons_succ, tally_cons]
      omega

/-- Replacing the entry at a position changes the total by that entry's own change. -/
theorem tally_set (quantity : α → Nat) {entry : α} {entries : List α} {i : Nat}
    (found : entries[i]? = some entry) (value : α) :
    tally quantity (entries.set i value) + quantity entry =
      tally quantity entries + quantity value := by
  induction entries generalizing i with
  | nil => cases found
  | cons first rest ih =>
    cases i with
    -- The entry is the first one, or it is among the others.
    | zero => cases found; simp only [List.set_cons_zero, tally_cons]; omega
    | succ i =>
      have shorter := ih (i := i) (by simpa using found)
      simp only [List.set_cons_succ, tally_cons]
      omega

/-- The totals of two quantities add up. -/
theorem tally_add (first second : α → Nat) (entries : List α) :
    tally (fun entry => first entry + second entry) entries =
      tally first entries + tally second entries := by
  induction entries with
  | nil => rfl
  | cons entry rest ih => simp only [tally_cons, ih]; omega

/-- Counting an entry is a total. -/
theorem count_eq_tally [DecidableEq α] (entry : α) (entries : List α) :
    entries.count entry = tally (fun other => if other = entry then 1 else 0) entries := by
  induction entries with
  | nil => rfl
  | cons first rest ih =>
    -- Each entry counts for one exactly if it is the one that is asked for.
    rw [List.count_cons, tally_cons, ih, Nat.add_comm]
    simp only [beq_iff_eq]

/-- The length is a total. -/
theorem length_eq_tally (entries : List α) : entries.length = tally (fun _ => 1) entries := by
  simp [tally]

/-- The total of a sum of quantities is the sum of their totals. -/
theorem sum_tally (members : Finset ι) (quantity : ι → α → Nat) (entries : List α) :
    ∑ i ∈ members, tally (quantity i) entries =
      tally (fun entry => ∑ i ∈ members, quantity i entry) entries := by
  induction entries with
  | nil => simp
  | cons entry rest ih => simp only [tally_cons, Finset.sum_add_distrib, ih]

/-- Counting the entries that pass a test is a total. -/
theorem countP_eq_tally (test : α → Bool) (entries : List α) :
    entries.countP test = tally (fun entry => if test entry then 1 else 0) entries := by
  induction entries with
  | nil => rfl
  | cons entry rest ih => rw [List.countP_cons, tally_cons, ih, Nat.add_comm]

variable [DecidableEq ι]

/-- Replacing one member of a finite family changes the total by that member's own change. -/
theorem sum_update (members : Finset ι) (family : ι → α) (quantity : α → Nat) {at_ : ι}
    (value : α) (member : at_ ∈ members) :
    (∑ i ∈ members, quantity (Function.update family at_ value i)) + quantity (family at_) =
      (∑ i ∈ members, quantity (family i)) + quantity value := by
  -- Outside the changed member, the two families agree term by term.
  have outside : ∑ i ∈ members.erase at_, quantity (Function.update family at_ value i) =
      ∑ i ∈ members.erase at_, quantity (family i) := by
    refine Finset.sum_congr rfl fun i inside => ?_
    rw [Function.update_of_ne (Finset.ne_of_mem_erase inside)]
  rw [← Finset.sum_erase_add _ _ member,
    ← Finset.sum_erase_add _ (fun i => quantity (family i)) member, outside, Function.update_self]
  omega

/-- An entry of a family of lists, one of which has got a new last entry. -/
theorem mem_update_append {lists : ι → List α} {at_ other : ι} {entry last : α} :
    entry ∈ Function.update lists at_ (lists at_ ++ [last]) other ↔
      entry ∈ lists other ∨ other = at_ ∧ entry = last := by
  -- Only the updated list has the new entry.
  by_cases same : other = at_
  · subst same
    simp
  · simp [same]

/-- An entry of a family of lists, one of which has got a new first entry. -/
theorem mem_update_cons {lists : ι → List α} {at_ other : ι} {entry first : α} :
    entry ∈ Function.update lists at_ (first :: lists at_) other ↔
      entry ∈ lists other ∨ other = at_ ∧ entry = first := by
  -- Only the updated list has the new entry.
  by_cases same : other = at_
  · subst same
    simp [or_comm]
  · simp [same]

/-- What is left when one of the lists has lost its first entry was there before. -/
theorem mem_update_tail {lists : ι → List α} {at_ other : ι} {entry first : α} {rest : List α}
    (shape : lists at_ = first :: rest) (member : entry ∈ Function.update lists at_ rest other) :
    entry ∈ lists other := by
  -- The updated list has lost an entry, and the others are as before.
  by_cases same : other = at_
  · subst same
    rw [Function.update_self] at member
    rw [shape]
    exact List.mem_cons_of_mem _ member
  · rwa [Function.update_of_ne same] at member

/-- Two different members contribute together at most the total. -/
theorem add_le_sum (members : Finset ι) (quantity : ι → Nat) {first second : ι}
    (firstMember : first ∈ members) (secondMember : second ∈ members)
    (different : first ≠ second) :
    quantity first + quantity second ≤ ∑ i ∈ members, quantity i := by
  -- The two members are a part of all members.
  have pair : ({first, second} : Finset ι) ⊆ members := by
    intro i inside
    rcases Finset.mem_insert.mp inside with rfl | inside
    · exact firstMember
    · rw [Finset.mem_singleton.mp inside]; exact secondMember
  calc quantity first + quantity second = ∑ i ∈ {first, second}, quantity i := by
        rw [Finset.sum_pair different]
    _ ≤ ∑ i ∈ members, quantity i := Finset.sum_le_sum_of_subset pair

end Counting
