import Mathlib.Algebra.Group.Nat.Defs
import Mathlib.Data.Int.Basic
import Mathlib.Logic.Function.Basic

/-! Objects that count the references to them and are destroyed with the last one. -/

namespace RefCount

/--
The counts of all objects, the objects destroyed, and whether a count was misused.

The counts are unbounded here. One that is kept in a signed word of 32 bits is the same as long as
its object has fewer than 2^31 references, by `Heap.Balanced.count32`.
-/
structure Heap (ω : Type) where
  refCount : ω → Int
  destroyed : ω → Bool
  failed : Bool

variable {ω : Type}

/-- The heap in which nothing is referred to, nothing is destroyed and nothing has failed. -/
def Heap.init (ω : Type) : Heap ω := ⟨fun _ => 0, fun _ => false, false⟩

/--
The counts agree with the references that exist.

An object that is destroyed has none left.
-/
structure Heap.Balanced (heap : Heap ω) (references : ω → Nat) : Prop where
  counted : ∀ object, heap.refCount object = references object
  ended : ∀ object, heap.destroyed object = true → references object = 0
  sound : heap.failed = false

/-- Nothing is referred to at the start. -/
theorem Heap.init_balanced : (Heap.init ω).Balanced fun _ => 0 where
  counted _ := rfl
  ended _ _ := rfl
  sound := rfl

/-- A count that agrees with the references agrees with any other account of them. -/
theorem Heap.Balanced.congr {heap : Heap ω} {references others : ω → Nat}
    (balanced : heap.Balanced references) (same : ∀ object, references object = others object) :
    heap.Balanced others := by
  rwa [← funext same]

/-- An object that something refers to is not destroyed. -/
theorem Heap.Balanced.alive {heap : Heap ω} {references : ω → Nat}
    (balanced : heap.Balanced references) {object : ω} (held : 0 < references object) :
    heap.destroyed object = false := by
  by_contra ended
  have none_ := balanced.ended object (by simpa using ended)
  omega

/-- The count of an object as a word of 32 bits. -/
def Heap.count32 (heap : Heap ω) (object : ω) : BitVec 32 := .ofInt 32 (heap.refCount object)

/-- A signed word counts the references to an object that has fewer than 2^31 of them. -/
theorem Heap.Balanced.count32 {heap : Heap ω} {references : ω → Nat}
    (balanced : heap.Balanced references) {object : ω} (few : references object < 2 ^ 31) :
    (heap.count32 object).toInt = references object := by
  rw [Heap.count32, balanced.counted, BitVec.toInt_ofInt]
  -- The count lies in the half of the words that is not negative.
  exact Int.bmod_eq_of_le (by omega) (by omega)

variable [DecidableEq ω]

/-- One more reference to an object, which must not have been destroyed. -/
def Heap.addRef (heap : Heap ω) (object : ω) : Heap ω :=
  if heap.destroyed object then { heap with failed := true }
  else { heap with refCount := Function.update heap.refCount object (heap.refCount object + 1) }

/-- One reference less, asserting that there was one, and destroying with the last. -/
def Heap.release (heap : Heap ω) (object : ω) : Heap ω :=
  if heap.refCount object ≤ 0 then { heap with failed := true }
  else
    { heap with
      refCount := Function.update heap.refCount object (heap.refCount object - 1)
      destroyed :=
        if heap.refCount object = 1 then Function.update heap.destroyed object true
        else heap.destroyed }

/-- The first entry of a list and the others, counted apart. -/
theorem count_cons_eq (first : ω) (rest : List ω) (object : ω) :
    (first :: rest).count object = [first].count object + rest.count object := by
  have both : ([first] ++ rest).count object = _ := List.count_append
  simpa only [List.singleton_append] using both

/-- One more reference to each object of a list in turn. -/
def Heap.addAll (heap : Heap ω) (objects : List ω) : Heap ω := objects.foldl Heap.addRef heap

/-- One reference less to each object of a list in turn. -/
def Heap.releaseAll (heap : Heap ω) (objects : List ω) : Heap ω := objects.foldl Heap.release heap

@[simp] theorem Heap.addAll_nil (heap : Heap ω) : heap.addAll [] = heap := rfl

@[simp] theorem Heap.addAll_cons (heap : Heap ω) (first : ω) (rest : List ω) :
    heap.addAll (first :: rest) = (heap.addRef first).addAll rest := rfl

@[simp] theorem Heap.releaseAll_nil (heap : Heap ω) : heap.releaseAll [] = heap := rfl

@[simp] theorem Heap.releaseAll_cons (heap : Heap ω) (first : ω) (rest : List ω) :
    heap.releaseAll (first :: rest) = (heap.release first).releaseAll rest := rfl

/-- Another reference destroys nothing. -/
@[simp] theorem Heap.addRef_destroyed (heap : Heap ω) (object : ω) :
    (heap.addRef object).destroyed = heap.destroyed := by
  unfold Heap.addRef
  split <;> rfl

/-- Other references destroy nothing. -/
@[simp] theorem Heap.addAll_destroyed (heap : Heap ω) (objects : List ω) :
    (heap.addAll objects).destroyed = heap.destroyed := by
  induction objects generalizing heap with
  | nil => rfl
  | cons first rest ih => rw [addAll_cons, ih, addRef_destroyed]

namespace Heap.Balanced

variable {heap : Heap ω} {references : ω → Nat}

/-- A reference taken to a live object is counted. -/
theorem addRef (balanced : heap.Balanced references) {object : ω}
    (alive : heap.destroyed object = false) :
    (heap.addRef object).Balanced fun other => references other + [object].count other := by
  -- A live object takes the reference, and nothing else changes.
  have eq : heap.addRef object =
      { heap with
        refCount := Function.update heap.refCount object (heap.refCount object + 1) } := by
    simp [Heap.addRef, alive]
  rw [eq]
  refine ⟨fun other => ?_, fun other ended => ?_, balanced.sound⟩
  · -- The count of this object goes up with the account, and no other count changes.
    by_cases same : other = object
    · subst same; simp [balanced.counted]
    · simp [same, Ne.symm same, balanced.counted]
  · -- A destroyed object is not the one that the reference was taken to.
    have different : object ≠ other := by
      rintro rfl
      rw [alive] at ended
      cases ended
    simp [different, balanced.ended other ended]

/-- References taken to live objects are counted, one for each time an object is named. -/
theorem addAll (balanced : heap.Balanced references) {objects : List ω}
    (alive : ∀ object ∈ objects, heap.destroyed object = false) :
    (heap.addAll objects).Balanced fun other => references other + objects.count other := by
  -- The references are taken from the front of the list, and the balance goes up with each.
  induction objects generalizing heap references with
  | nil => simpa using balanced
  | cons first rest ih =>
    rw [addAll_cons]
    have taken := balanced.addRef (alive first List.mem_cons_self)
    -- Taking a reference destroys nothing, so the rest is still alive.
    have others : ∀ object ∈ rest, (heap.addRef first).destroyed object = false := by
      intro object member
      rw [addRef_destroyed]
      exact alive object (List.mem_cons_of_mem _ member)
    refine (ih taken others).congr fun other => ?_
    have both := count_cons_eq first rest other
    omega

/-- A reference given back is no longer counted, and the last one destroys the object. -/
theorem release {object : ω}
    (balanced : heap.Balanced fun other => references other + [object].count other) :
    (heap.release object).Balanced references := by
  -- The balance counts the reference that is given back, so there is one.
  have count : heap.refCount object = references object + 1 := by
    simpa using balanced.counted object
  have held : ¬ heap.refCount object ≤ 0 := by omega
  simp only [Heap.release, if_neg held]
  refine ⟨fun other => ?_, fun other ended => ?_, balanced.sound⟩
  · -- The count of this object goes down with the account, and no other count changes.
    by_cases same : other = object
    · subst same; simp [count]
    · have kept := balanced.counted other
      simpa [same, Ne.symm same] using kept
  · by_cases same : other = object
    · subst same
      split at ended
      · omega
      · -- What was destroyed before had no reference to give back.
        have none_ := balanced.ended other ended
        simp at none_
    · -- Another object is destroyed only if it was so before.
      have before : heap.destroyed other = true := by
        split at ended
        · simpa [same] using ended
        · exact ended
      have none_ := balanced.ended other before
      omega

/-- References given back are no longer counted. -/
theorem releaseAll {objects : List ω}
    (balanced : heap.Balanced fun other => references other + objects.count other) :
    (heap.releaseAll objects).Balanced references := by
  -- The induction is on what is still to be given back, for any balance that contains it.
  induction objects generalizing heap with
  | nil => simpa using balanced
  | cons first rest ih =>
    rw [releaseAll_cons]
    -- The first reference is given back, and the balance is that of the rest.
    refine ih (release (balanced.congr fun other => ?_))
    have both := count_cons_eq first rest other
    omega

end Heap.Balanced

/-- Of the objects that have been made, exactly those that nothing refers to are destroyed. -/
structure Heap.Exact (heap : Heap ω) (references : ω → Nat) (made : ω → Prop) : Prop extends
    heap.Balanced references where
  collected : ∀ object, made object → references object = 0 → heap.destroyed object = true
  only : ∀ object, heap.destroyed object = true ∨ 0 < references object → made object

omit [DecidableEq ω] in
/-- At the start nothing has been made, and nothing is referred to. -/
theorem Heap.init_exact {references : ω → Nat} {made : ω → Prop}
    (unreferred : ∀ object, references object = 0) (unmade : ∀ object, ¬ made object) :
    (Heap.init ω).Exact references made where
  toBalanced := Heap.init_balanced.congr fun object => (unreferred object).symm
  collected object was _ := absurd was (unmade object)
  only object some_ := by
    -- Neither of the two ways to be known has come about.
    have none_ := unreferred object
    rcases some_ with ended | referred
    · simp [Heap.init] at ended
    · omega

namespace Heap.Exact

variable {heap : Heap ω} {references others : ω → Nat} {made : ω → Prop}

omit [DecidableEq ω] in
/-- Exact counts are exact for any other account of the references. -/
theorem congr (exact_ : heap.Exact references made)
    (same : ∀ object, references object = others object) : heap.Exact others made := by
  rwa [← funext same]

/-- References taken to live objects are counted. -/
theorem addAll (exact_ : heap.Exact references made) {objects : List ω}
    (alive : ∀ object ∈ objects, made object ∧ heap.destroyed object = false) :
    (heap.addAll objects).Exact (fun other => references other + objects.count other) made := by
  have same : (heap.addAll objects).destroyed = heap.destroyed := heap.addAll_destroyed objects
  -- Taking references destroys nothing, so that the objects destroyed are those of before.
  refine ⟨exact_.toBalanced.addAll fun object member => (alive object member).2,
    fun object was none_ => ?_, fun object some_ => ?_⟩
  · rw [same]
    exact exact_.collected object was (by omega)
  · rw [same] at some_
    -- An object of the list has been made, and another one has the references of before.
    by_cases member : object ∈ objects
    · exact (alive object member).1
    · rw [List.count_eq_zero.mpr member] at some_
      exact exact_.only object some_

/-- A reference given back is no longer counted, and the last one destroys the object. -/
theorem release {object : ω}
    (exact_ : heap.Exact (fun other => references other + [object].count other) made) :
    (heap.release object).Exact references made := by
  have count : heap.refCount object = references object + 1 := by
    simpa using exact_.counted object
  -- The object is destroyed exactly if the account behind the release has no reference left.
  have destroyed : (heap.release object).destroyed =
      if references object = 0 then Function.update heap.destroyed object true
      else heap.destroyed := by
    have held : ¬ heap.refCount object ≤ 0 := by omega
    have last : heap.refCount object = 1 ↔ references object = 0 := by omega
    simp only [Heap.release, if_neg held, last]
  refine ⟨exact_.toBalanced.release, fun other was none_ => ?_, fun other some_ => ?_⟩
  · rw [destroyed]
    by_cases same : other = object
    · rw [if_pos (same ▸ none_), same, Function.update_self]
    · -- Another object has lost no reference.
      have before := exact_.collected other was (by simp [none_, Ne.symm same])
      split <;> simp [same, before]
  · by_cases same : other = object
    · -- What is given back was a reference to it.
      exact exact_.only other (.inr (by simp [same]))
    · refine exact_.only other (some_.imp (fun ended => ?_) fun referred => ?_)
      · rw [destroyed] at ended
        split at ended <;> simpa [same] using ended
      · omega

/-- References given back are no longer counted. -/
theorem releaseAll {objects : List ω}
    (exact_ : heap.Exact (fun other => references other + objects.count other) made) :
    (heap.releaseAll objects).Exact references made := by
  induction objects generalizing heap with
  | nil => simpa using exact_
  | cons first rest ih =>
    rw [releaseAll_cons]
    -- The first reference is given back, and the account is that of the rest.
    refine ih (release (exact_.congr fun other => ?_))
    have both := count_cons_eq first rest other
    omega

/-- A new object has the one reference that it is made with. -/
theorem make (exact_ : heap.Exact references made) {object : ω} (fresh : ¬ made object) :
    (heap.addRef object).Exact (fun other => references other + [object].count other)
      fun other => made other ∨ other = object := by
  -- What is destroyed has been made, and the object has not.
  have alive : heap.destroyed object = false := by
    by_contra ended
    exact fresh (exact_.only object (.inl (by simpa using ended)))
  refine ⟨exact_.toBalanced.addRef alive, fun other was none_ => ?_, fun other some_ => ?_⟩
  · rw [addRef_destroyed]
    rcases was with was | rfl
    · exact exact_.collected other was (by omega)
    · simp at none_
  · by_cases same : other = object
    · exact .inr same
    · rw [addRef_destroyed] at some_
      exact .inl (exact_.only other (by simpa [Ne.symm same] using some_))

end Heap.Exact

end RefCount
